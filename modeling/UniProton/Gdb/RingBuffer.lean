import UniProton.Framework.Ring

namespace UniProton.Gdb

open Framework.Ring Function List

/-- `RBuffer`: the free-running indices `in` and `out`, and the bytes behind the header. -/
structure RBuffer where
  inIdx : BitVec 32 := 0
  outIdx : BitVec 32 := 0
  len : BitVec 32
  data : Nat → Nat

inductive FifoCall where
  | fifoIn (buf : List Nat)
  | fifoOut (len : Nat)
  deriving DecidableEq

namespace RBuffer

variable (r : RBuffer)

def fifoUnused : BitVec 32 := r.len-(r.inIdx-r.outIdx)

def fifoCopyIn (src : List Nat) (off : BitVec 32) : Nat → Nat :=
  let size := r.len.toNat
  let off := off.toNat%size
  let l := min src.length (size-off)
  copyIn (copyIn r.data off (src.take l)) 0 (src.drop l)

def fifoIn (buf : List Nat) : Nat×RBuffer :=
  let len := min buf.length r.fifoUnused.toNat
  (len,{r with
    data := r.fifoCopyIn (buf.take len) r.inIdx
    inIdx := r.inIdx+BitVec.ofNat 32 len})

def fifoCopyOut (len : Nat) (off : BitVec 32) : List Nat :=
  let size := r.len.toNat
  let off := off.toNat%size
  let l := min len (size-off)
  copyOut r.data off l++copyOut r.data 0 (len-l)

def fifoOutPeek (len : Nat) : Nat×List Nat :=
  let len := min len (r.inIdx-r.outIdx).toNat
  (len,r.fifoCopyOut len r.outIdx)

def fifoOut (len : Nat) : (Nat×List Nat)×RBuffer :=
  let peek := r.fifoOutPeek len
  (peek,{r with outIdx:=r.outIdx+BitVec.ofNat 32 peek.1})

/-- What a call returns, with the bytes that it has copied out. -/
def call : FifoCall → (Nat×List Nat)×RBuffer
  | .fifoIn buf => (((r.fifoIn buf).1,[]),(r.fifoIn buf).2)
  | .fifoOut len => r.fifoOut len

end RBuffer

/-- A queue with room for `n` bytes. -/
def queueCall (n : Nat) (l : List Nat) : FifoCall → (Nat×List Nat)×List Nat
  | .fifoIn buf => ((min buf.length (n-l.length),[]),l++buf.take (n-l.length))
  | .fifoOut len => ((min len l.length,l.take len),l.drop len)

def answers {σ : Type} (call : σ → FifoCall → (Nat×List Nat)×σ) :
    σ → List FifoCall → List (Nat×List Nat)
  | _, [] => []
  | s, x::xs => (call s x).1::answers call (call s x).2 xs

namespace RBuffer

variable {r : RBuffer} {l : List Nat}

/-- The array has the bytes of the queue between the places of the two indices. -/
structure Stores (r : RBuffer) (l : List Nat) : Prop where
  ring : Is r.len.toNat r.data (r.outIdx.toNat%r.len.toNat) (r.inIdx.toNat%r.len.toNat) l
  count : (r.inIdx-r.outIdx).toNat=l.length

lemma add_mod (hd : r.len.toNat ∣ 2^32) (i : BitVec 32) (n : Nat) :
    (i+BitVec.ofNat 32 n).toNat%r.len.toNat=(i.toNat+n)%r.len.toNat := by
  rw [BitVec.toNat_add,BitVec.toNat_ofNat,Nat.add_mod_mod,Nat.mod_mod_of_dvd _ hd]

lemma Stores.fifoIn (h : r.Stores l) (hd : r.len.toNat ∣ 2^32) (buf : List Nat) :
    (r.fifoIn buf).1=min buf.length (r.len.toNat-l.length) ∧
      (r.fifoIn buf).2.Stores (l++buf.take (r.len.toNat-l.length)) := by
  have hfits := h.ring.fits
  have hfree : r.fifoUnused.toNat=r.len.toNat-l.length := by
    rw [fifoUnused,BitVec.toNat_sub_of_le (by rw [BitVec.le_def,h.count]; exact hfits),h.count]
  obtain ⟨k,hk⟩ : ∃ k, k=min buf.length (r.len.toNat-l.length) := ⟨_,rfl⟩
  have htake : buf.take (r.len.toNat-l.length)=buf.take k := by
    rw [hk,Nat.min_comm,← take_eq_take_min]
  simp only [RBuffer.fifoIn,hfree,htake,← hk,true_and]
  have hlen : (buf.take k).length=k := by
    rw [length_take]
    omega
  obtain ⟨t,hring⟩ := h.ring.wrapIn (m:=buf.take k) (by omega)
  have htail := hring.tail_eq
  rw [slot_eq_mod h.ring.head_lt hring.fits,length_append,hlen,Nat.mod_add_mod] at htail
  constructor
  . simp only [fifoCopyIn,add_mod hd]
    have hin := h.ring.tail_eq
    rw [slot_eq_mod h.ring.head_lt hfits,Nat.mod_add_mod] at hin
    have hnew : (r.inIdx.toNat+k)%r.len.toNat=t := by
      rw [htail,← Nat.mod_add_mod,hin,Nat.mod_add_mod,Nat.add_assoc]
    rw [hnew]
    exact hring
  have hcount := h.count
  have hl := r.len.isLt
  rw [length_append,hlen]
  simp only [BitVec.toNat_sub,BitVec.toNat_add,BitVec.toNat_ofNat] at hcount ⊢
  omega

lemma Stores.fifoOut (h : r.Stores l) (hd : r.len.toNat ∣ 2^32) (len : Nat) :
    (r.fifoOut len).1=(min len l.length,l.take len) ∧ (r.fifoOut len).2.Stores (l.drop len) := by
  have hlen : (l.take len).length=min len l.length := length_take
  have hring := h.ring
  rw [← take_append_drop len l] at hring
  obtain ⟨hout,hrest⟩ := hring.wrapOut
  simp only [RBuffer.fifoOut,fifoOutPeek,fifoCopyOut,h.count]
  rw [hlen] at hout hrest
  refine ⟨by rw [hout],⟨?_,?_⟩⟩
  . simp only [add_mod hd]
    rw [slot_eq_mod h.ring.head_lt (by have := h.ring.fits; omega),Nat.mod_add_mod] at hrest
    exact hrest
  have hcount := h.count
  rw [length_drop]
  simp only [BitVec.toNat_sub,BitVec.toNat_add,BitVec.toNat_ofNat] at hcount ⊢
  omega

lemma Stores.answers (h : r.Stores l) (hd : r.len.toNat ∣ 2^32) (xs : List FifoCall) :
    answers call r xs=answers (queueCall r.len.toNat) l xs := by
  induction xs generalizing r l with
  | nil => rfl
  | cons x xs ih =>
    cases x with
    | fifoIn buf =>
      obtain ⟨hret,hs⟩ := h.fifoIn hd buf
      simp only [Gdb.answers,call,queueCall,hret]
      exact congrArg _ (ih hs hd)
    | fifoOut len =>
      obtain ⟨hret,hs⟩ := h.fifoOut hd len
      simp only [Gdb.answers,call,queueCall,hret]
      exact congrArg _ (ih hs hd)

lemma start_stores (len : BitVec 32) (data : Nat → Nat) (h0 : 0<len.toNat) :
    Stores {len, data} [] where
  ring := by
    show Is _ _ (0%_) (0%_) _
    rw [Nat.zero_mod]
    exact .empty h0 fun _ => trivial
  count := by simp

lemma fifoIn_one (b : Nat) (h0 : 0<r.len.toNat) (hu : 0<r.fifoUnused.toNat) :
    r.fifoIn [b]=(1,{r with
      inIdx := r.inIdx+1
      data := update r.data (r.inIdx.toNat%r.len.toNat) b}) := by
  have hlt := Nat.mod_lt r.inIdx.toNat h0
  have hmin : min 1 r.fifoUnused.toNat=1 := Nat.min_eq_left hu
  have hone : min 1 (r.len.toNat-r.inIdx.toNat%r.len.toNat)=1 := Nat.min_eq_left (by omega)
  simp [RBuffer.fifoIn,fifoCopyIn,hmin,hone,copyIn]

lemma unused_of_empty (hr : r.inIdx=r.outIdx) : r.fifoUnused=r.len := by simp [fifoUnused,hr]

lemma pass (hr : r.inIdx=r.outIdx) (h0 : 0<r.len.toNat) : ∃ f,
    ((r.fifoIn [0]).2.fifoOut 1).2 =
      {r with inIdx:=r.inIdx+1, outIdx:=r.outIdx+1, data:=f} := by
  have hone : (r.inIdx+1-r.outIdx).toNat=1 := by
    rw [← hr,BitVec.add_comm,BitVec.add_sub_cancel]
    rfl
  rw [fifoIn_one 0 h0 (by rwa [unused_of_empty hr])]
  simp only [RBuffer.fifoOut,fifoOutPeek,hone]
  exact ⟨_,rfl⟩

lemma succ_mod_lt {n c : Nat} (hn : 0<n) (hd : ¬n ∣ c+1) : c%n+1<n := by
  have hlt := Nat.mod_lt c hn
  by_contra hge
  have hdiv := Nat.div_add_mod c n
  exact hd ⟨c/n+1,by rw [Nat.mul_add]; omega⟩

/-- Where `in` wraps, a second byte is written to the place 0 and looked for behind the first. -/
lemma wraps_differ (hi : r.inIdx.toNat=2^32-1) (hr : r.inIdx=r.outIdx) (h0 : 0<r.len.toNat)
    (hd : ¬r.len.toNat ∣ 2^32) : ∃ b, answers call r [.fifoIn [0],.fifoIn [b],.fifoOut 2] ≠
      answers (queueCall r.len.toNat) [] [.fifoIn [0],.fifoIn [b],.fifoOut 2] := by
  have hzero : r.inIdx+1=0 := by
    apply BitVec.eq_of_toNat_eq
    rw [BitVec.toNat_add,hi]
    rfl
  obtain ⟨p,hp⟩ : ∃ p, p=r.inIdx.toNat%r.len.toNat := ⟨_,rfl⟩
  have hlt : p+1<r.len.toNat := by
    rw [hp]
    apply succ_mod_lt h0
    rwa [hi]
  have hone : (0-r.outIdx).toNat=1 := by
    rw [← hr,← hzero,BitVec.add_comm,BitVec.add_sub_cancel]
    rfl
  have htwo : (0+1-r.outIdx).toNat=2 := by
    rw [BitVec.toNat_sub,← hr,hi]
    rfl
  refine ⟨r.data (p+1)+1,fun he => ?_⟩
  have h1 := fifoIn_one 0 h0 (by rwa [unused_of_empty hr])
  have h2 := fifoIn_one (r:={r with inIdx:=0, data:=update r.data p 0})
    (r.data (p+1)+1) h0 (by
      have hle : 0-r.outIdx≤r.len := by rw [BitVec.le_def,hone]; omega
      show 0<(r.len-(0-r.outIdx)).toNat
      rw [BitVec.toNat_sub_of_le hle,hone]
      omega)
  rw [← hp,hzero] at h1
  have hmin : min 2 (r.len.toNat-p)=2 := Nat.min_eq_left (by omega)
  simp only [Gdb.answers,call,h1,h2,queueCall,RBuffer.fifoOut,fifoOutPeek,fifoCopyOut,htwo] at he
  rw [← hr,← hp,take_of_length_le (by simp; omega),take_of_length_le (by simp; omega)] at he
  simp [hmin,copyOut] at he

lemma answers_differ (n : Nat) (hi : r.inIdx.toNat+n=2^32-1) (hr : r.inIdx=r.outIdx)
    (h0 : 0<r.len.toNat) (hd : ¬r.len.toNat ∣ 2^32) :
    ∃ xs, answers call r xs≠answers (queueCall r.len.toNat) [] xs := by
  induction n generalizing r with
  | zero =>
    obtain ⟨b,hb⟩ := wraps_differ hi hr h0 hd
    exact ⟨_,hb⟩
  | succ n ih =>
    obtain ⟨f,hpass⟩ := pass hr h0
    obtain ⟨xs,hxs⟩ := ih (r:={r with inIdx:=r.inIdx+1, outIdx:=r.outIdx+1, data:=f})
      (by rw [BitVec.toNat_add]; show (_+1)%_+n=_; omega) (by rw [hr]) h0 hd
    refine ⟨.fifoIn [0]::.fifoOut 1::xs,fun he => hxs ?_⟩
    have hq : (queueCall r.len.toNat (queueCall r.len.toNat [] (.fifoIn [0])).2 (.fifoOut 1)).2 =
        [] := by
      simp [queueCall,take_of_length_le (show [0].length≤r.len.toNat from h0)]
    simp only [Gdb.answers,cons.injEq] at he
    rw [hq] at he
    rw [← hpass]
    exact he.2.2

end RBuffer

/-- Every sequence of calls gets the answers of a queue of bytes exactly if the size of the buffer
divides the range of the indices. -/
theorem fifo_queue_iff (len : BitVec 32) (data : Nat → Nat) (h0 : 0<len.toNat) :
    (∀ xs, answers RBuffer.call {len, data} xs=answers (queueCall len.toNat) [] xs) ↔
      len.toNat ∣ 2^32 := by
  constructor
  . intro h
    by_contra hd
    obtain ⟨xs,hxs⟩ := RBuffer.answers_differ (r:={len, data}) (2^32-1) (by simp) rfl h0 hd
    exact hxs (h xs)
  intro hd xs
  exact (RBuffer.start_stores len data h0).answers hd xs

theorem fifo_queue_four : 0<4 ∧ ∀ xs, answers RBuffer.call {len:=4, data:=fun _ => 0} xs =
    answers (queueCall 4) [] xs :=
  ⟨by decide,(fifo_queue_iff 4 (fun _ => 0) (by decide)).mpr (by decide)⟩

theorem fifo_queue_three : ∃ xs, answers RBuffer.call {len:=3, data:=fun _ => 0} xs ≠
    answers (queueCall 3) [] xs :=
  RBuffer.answers_differ (r:={len:=3, data:=fun _ => 0}) (2^32-1) (by simp) rfl (by decide)
    (by decide)

end UniProton.Gdb
