import UniProton.Framework.Ring
import UniProton.Framework.Run

namespace UniProton

open Framework Ring List

/-- Sum and difference of two `U32`. -/
def u32Add (a b : Nat) : Nat := if a+b<2^32 then a+b else a+b-2^32

def u32Sub (a b : Nat) : Nat := if b≤a then a-b else a+2^32-b

/-- `memcpy_s` comes from a library outside of the repository. It refuses some copies of `count`
bytes to `destMax`, but none that fits a destination of at most `bound` bytes. -/
structure MemcpyS where
  refuses : Nat → Nat → Bool
  bound : Nat
  copies : ∀ destMax count, 0<count → count≤destMax → destMax≤bound → refuses destMax count=false

/-- An initialised buffer. `touched` has the places and lengths of the accesses to `fifo`. -/
structure Ringbuf where
  startIdx : Nat := 0
  endIdx : Nat := 0
  size : Nat
  remain : Nat
  fifo : Nat → Nat
  touched : List (Nat×Nat) := []

namespace Ringbuf

variable (r : Ringbuf) (cp : MemcpyS)

def prtRingbufUsedSize : Nat := u32Sub r.size r.remain

/-- The copy of `cpSize` bytes to `endIdx`, and the indices after it. -/
def put (buf : List Nat) : Ringbuf :=
  {r with
    fifo := copyIn r.fifo r.endIdx buf
    remain := u32Sub r.remain buf.length
    endIdx := u32Add r.endIdx buf.length
    touched := (r.endIdx,buf.length)::r.touched}

def get (cpSize : Nat) : Ringbuf :=
  {r with
    remain := u32Add r.remain cpSize
    startIdx := u32Add r.startIdx cpSize
    touched := (r.startIdx,cpSize)::r.touched}

def osRingbufWriteLinear (buf : List Nat) : Nat×Ringbuf :=
  let cpSize := if r.remain<buf.length then r.remain else buf.length
  if cpSize=0 then (0,r)
  else if cp.refuses r.remain cpSize then (0,r)
  else (cpSize,r.put (buf.take cpSize))

def osRingbufWriteLoop (buf : List Nat) : Nat×Ringbuf :=
  let right := u32Sub r.size r.endIdx
  let cpSize := if right<buf.length then right else buf.length
  if cp.refuses right cpSize then (0,r)
  else
    let r := r.put (buf.take cpSize)
    let r := if r.endIdx=r.size then {r with endIdx:=0} else r
    if cpSize<buf.length then
      let rest := r.osRingbufWriteLinear cp (buf.drop cpSize)
      (cpSize+rest.1,rest.2)
    else (cpSize,r)

def writeLocked (buf : List Nat) : Nat×Ringbuf :=
  if r.startIdx≤r.endIdx then r.osRingbufWriteLoop cp buf else r.osRingbufWriteLinear cp buf

def osRingbufReadLinear (size : Nat) : List Nat×Ringbuf :=
  let remain := u32Sub r.endIdx r.startIdx
  let cpSize := if remain<size then remain else size
  if cpSize=0 then ([],r)
  else if cp.refuses size cpSize then ([],r)
  else (copyOut r.fifo r.startIdx cpSize,r.get cpSize)

def osRingbufReadLoop (size : Nat) : List Nat×Ringbuf :=
  let right := u32Sub r.size r.startIdx
  let cpSize := if right<size then right else size
  if cp.refuses size cpSize then ([],r)
  else
    let data := copyOut r.fifo r.startIdx cpSize
    let r := r.get cpSize
    let r := if r.startIdx=r.size then {r with startIdx:=0} else r
    if cpSize<size then
      let rest := r.osRingbufReadLinear cp (size-cpSize)
      (data++rest.1,rest.2)
    else (data,r)

def readLocked (size : Nat) : List Nat×Ringbuf :=
  if r.endIdx≤r.startIdx then r.osRingbufReadLoop cp size else r.osRingbufReadLinear cp size

def mayWrite (buf : List Nat) : Bool := buf.length≠0 && r.remain≠0

def mayRead (size : Nat) : Bool := size≠0 && r.remain≠r.size

def prtRingbufWrite (buf : List Nat) : Nat×Ringbuf :=
  if r.mayWrite buf then r.writeLocked cp buf else (0,r)

def prtRingbufRead (size : Nat) : List Nat×Ringbuf :=
  if r.mayRead size then r.readLocked cp size else ([],r)

def prtRingbufReset : Ringbuf :=
  {r with
    startIdx := 0, endIdx := 0, remain := r.size
    fifo := copyIn r.fifo 0 (List.replicate r.size 0)
    touched := (0,r.size)::r.touched}

/-- The buffer of `n` bytes stores the list, and no access was outside. -/
structure Stores (n : Nat) (r : Ringbuf) (l : List Nat) : Prop where
  max : n<2^32
  size : r.size=n
  remain : r.remain+l.length=n
  ring : Is n r.fifo r.startIdx r.endIdx l
  inside : ∀ x∈r.touched, x.1+x.2≤n

variable {r : Ringbuf} {cp : MemcpyS} {n k : Nat} {l b : List Nat}

lemma u32Sub_of_le {a b : Nat} (hb : b≤a) : u32Sub a b=a-b := if_pos hb

lemma u32Add_of_le {a b : Nat} (hn : n<2^32) (h : a+b≤n) : u32Add a b=a+b := if_pos (by omega)

lemma Stores.put (h : r.Stores n l) (hl : l.length+b.length≤n) (he : r.endIdx+b.length≤n) :
    Stores n {r.put b with endIdx:=turn n (r.endIdx+b.length)} (l++b) := by
  have hrem := h.remain
  have hmax := h.max
  refine ⟨hmax,h.size,?_,h.ring.copyIn hl he,?_⟩
  . change u32Sub r.remain b.length+_=n
    rw [u32Sub_of_le (by omega),length_append]
    omega
  intro x hx
  rcases mem_cons.mp hx with rfl | hx
  . exact he
  exact h.inside x hx

lemma Stores.put_turn (h : r.Stores n l) (he : r.endIdx+b.length≤n) :
    (if (r.put b).endIdx=(r.put b).size then {r.put b with endIdx:=0} else r.put b) =
      {r.put b with endIdx:=turn n (r.endIdx+b.length)} := by
  have hidx : (r.put b).endIdx=r.endIdx+b.length := u32Add_of_le h.max he
  rw [hidx,show (r.put b).size=n from h.size,turn]
  split
  . rfl
  rw [← hidx]

lemma not_refused {destMax count : Nat} (h0 : count≠0) (h : count≤destMax)
    (hmax : destMax≤cp.bound) : ¬cp.refuses destMax count := by
  simp [cp.copies destMax count (Nat.pos_of_ne_zero h0) h hmax]

lemma Stores.writeLinear (h : r.Stores n l) (hm : n≤cp.bound) (hlin : r.endIdx+r.remain=r.startIdx) :
    (r.osRingbufWriteLinear cp b).1=min b.length r.remain ∧
      (r.osRingbufWriteLinear cp b).2.Stores n (l++b.take r.remain) := by
  have hrem := h.remain
  have hstart := h.ring.head_lt
  have hcp : (if r.remain<b.length then r.remain else b.length)=min b.length r.remain := by
    split <;> omega
  have htake : b.take (min b.length r.remain)=b.take r.remain := by
    rw [Nat.min_comm,← take_eq_take_min]
  have hlen : (b.take r.remain).length=min b.length r.remain := by
    rw [length_take,Nat.min_comm]
  unfold osRingbufWriteLinear
  simp only [hcp,htake]
  split
  . rename_i hz
    rw [hz] at hlen
    rw [eq_nil_of_length_eq_zero hlen,append_nil]
    exact ⟨hz.symm,h⟩
  rw [if_neg (not_refused (by omega) (by omega) (by omega))]
  have hput := h.put (b:=b.take r.remain) (by omega) (by omega)
  rw [hlen,turn,if_neg (by omega)] at hput
  refine ⟨rfl,?_⟩
  rwa [← hlen,← u32Add_of_le h.max (by omega : r.endIdx+(b.take r.remain).length≤n)] at hput

lemma Stores.writeLoop (h : r.Stores n l) (hm : n≤cp.bound) (hle : r.startIdx≤r.endIdx)
    (hrem : r.remain≠0) (hbuf : b.length≠0) : (r.osRingbufWriteLoop cp b).1=min b.length r.remain ∧
      (r.osRingbufWriteLoop cp b).2.Stores n (l++b.take r.remain) := by
  have hsum := h.remain
  have hstart := h.ring.head_lt
  have hend : r.endIdx=r.startIdx+l.length := by
    have htail := h.ring.tail_eq
    unfold slot at htail
    split at htail <;> omega
  have hlt : r.endIdx<n := by
    rw [h.ring.tail_eq]
    exact slot_lt hstart h.ring.fits
  have hright : u32Sub r.size r.endIdx=n-r.endIdx := by
    rw [h.size,u32Sub_of_le (Nat.le_of_lt hlt)]
  simp only [osRingbufWriteLoop,hright]
  by_cases hfit : n-r.endIdx<b.length
  . have hlen : (b.take (n-r.endIdx)).length=n-r.endIdx := by
      rw [length_take]
      omega
    have hturn := h.put_turn (b:=b.take (n-r.endIdx)) (by omega)
    have hput := h.put (b:=b.take (n-r.endIdx)) (by omega) (by omega)
    rw [if_pos hfit,if_neg (not_refused (by omega) (Nat.le_refl _) (by omega)),if_pos hfit,hturn]
    have hwrap : turn n (r.endIdx+(b.take (n-r.endIdx)).length)=0 := if_pos (by omega)
    rw [hwrap] at hput ⊢
    have hrest : ({r.put (b.take (n-r.endIdx)) with endIdx:=0} : Ringbuf).remain =
        r.startIdx := by
      have hsum1 := hput.remain
      rw [length_append] at hsum1
      omega
    obtain ⟨hret,hstores⟩ := hput.writeLinear (b:=b.drop (n-r.endIdx)) hm (by
      rw [hrest]
      exact Nat.zero_add _)
    rw [hrest] at hret hstores
    rw [append_assoc,← take_add,show n-r.endIdx+r.startIdx=r.remain by omega] at hstores
    refine ⟨?_,hstores⟩
    rw [hret,length_drop]
    omega
  have hturn := h.put_turn (b:=b) (by omega)
  have hput := h.put (b:=b) (by omega) (by omega)
  rw [if_neg hfit,if_neg (not_refused hbuf (by omega) (by omega)),if_neg (Nat.lt_irrefl _),
    take_length,hturn,take_of_length_le (by omega)]
  exact ⟨by omega,hput⟩

lemma Stores.write (h : r.Stores n l) (hm : n≤cp.bound) (hrem : r.remain≠0) (hbuf : b.length≠0) :
    (r.writeLocked cp b).1=min b.length r.remain ∧
      (r.writeLocked cp b).2.Stores n (l++b.take r.remain) := by
  unfold writeLocked
  split
  . rename_i hle
    exact h.writeLoop hm hle hrem hbuf
  apply h.writeLinear hm
  have hsum := h.remain
  have htail := h.ring.tail_eq
  unfold slot at htail
  split at htail <;> omega

lemma Stores.get {as : List Nat} (h : r.Stores n (as++l)) (hs : r.startIdx+as.length≤n) :
    copyOut r.fifo r.startIdx as.length=as ∧
      Stores n {r.get as.length with startIdx:=turn n (r.startIdx+as.length)} l := by
  have hrem := h.remain
  rw [length_append] at hrem
  obtain ⟨hout,hring⟩ := h.ring.copyOut hs
  refine ⟨hout,h.max,h.size,?_,hring,?_⟩
  . change u32Add r.remain as.length+_=n
    rw [u32Add_of_le h.max (by omega)]
    omega
  intro x hx
  rcases mem_cons.mp hx with rfl | hx
  . exact hs
  exact h.inside x hx

lemma Stores.readLinear (h : r.Stores n l) (hk : k≤cp.bound) (hlin : r.startIdx+l.length=r.endIdx)
    (hlt : r.endIdx<n) :
    (r.osRingbufReadLinear cp k).1=l.take k ∧ (r.osRingbufReadLinear cp k).2.Stores n (l.drop k) := by
  have hremain : u32Sub r.endIdx r.startIdx=l.length := by
    rw [u32Sub_of_le (by omega)]
    omega
  have hcp : (if l.length<k then l.length else k)=(l.take k).length := by
    rw [length_take]
    split <;> omega
  unfold osRingbufReadLinear
  simp only [hremain,hcp]
  split
  . rename_i hz
    have htake := eq_nil_of_length_eq_zero hz
    have hdrop := take_append_drop k l
    rw [htake,nil_append] at hdrop
    rw [htake,hdrop]
    exact ⟨rfl,h⟩
  have hlen := length_take_le' k l
  rw [if_neg (not_refused ‹_› (length_take_le k l) hk)]
  rw [← take_append_drop k l] at h
  obtain ⟨hout,hget⟩ := h.get (by omega)
  rw [turn,if_neg (by omega)] at hget
  refine ⟨hout,?_⟩
  rwa [← u32Add_of_le h.max (by omega : r.startIdx+(l.take k).length≤n)] at hget

lemma Stores.readLoop (h : r.Stores n l) (hk : k≤cp.bound) (hle : r.endIdx≤r.startIdx) (hl : l≠[])
    (hlen : k≠0) :
    (r.osRingbufReadLoop cp k).1=l.take k ∧ (r.osRingbufReadLoop cp k).2.Stores n (l.drop k) := by
  have hmax := h.max
  have hstart := h.ring.head_lt
  have hpos := length_pos_iff.mpr hl
  have hend : r.endIdx+n=r.startIdx+l.length := by
    have htail := h.ring.tail_eq
    unfold slot at htail
    split at htail <;> omega
  have hright : u32Sub r.size r.startIdx=n-r.startIdx := by
    rw [h.size,u32Sub_of_le (Nat.le_of_lt hstart)]
  -- The first part, of `j` bytes.
  have hpart {j : Nat} (hj : j≤n-r.startIdx) : copyOut r.fifo r.startIdx j=l.take j ∧
      (if (r.get j).startIdx=(r.get j).size then {r.get j with startIdx:=0} else r.get j) =
        {r.get j with startIdx:=turn n (r.startIdx+j)} ∧
      Stores n {r.get j with startIdx:=turn n (r.startIdx+j)} (l.drop j) := by
    have hlen1 : (l.take j).length=j := by
      rw [length_take]
      omega
    have hsplit := h
    rw [← take_append_drop j l] at hsplit
    have hget := hsplit.get (by omega)
    rw [hlen1] at hget
    have hidx : (r.get j).startIdx=r.startIdx+j := u32Add_of_le hmax (by omega)
    refine ⟨hget.1,?_,hget.2⟩
    rw [hidx,show (r.get j).size=n from h.size,turn]
    split
    . rfl
    rw [← hidx]
  simp only [osRingbufReadLoop,hright]
  by_cases hfit : n-r.startIdx<k
  . obtain ⟨hout,hturn,hstores⟩ := hpart (Nat.le_refl _)
    have hwrap : turn n (r.startIdx+(n-r.startIdx))=0 := if_pos (by omega)
    rw [if_pos hfit,if_neg (not_refused (by omega) (by omega) hk),if_pos hfit,hturn,hout]
    rw [hwrap] at hstores ⊢
    have hlin : 0+(l.drop (n-r.startIdx)).length=r.endIdx := by
      rw [length_drop]
      omega
    have hlt : r.endIdx<n := by omega
    obtain ⟨hdata,hrest⟩ :=
      hstores.readLinear (k:=k-(n-r.startIdx)) (Nat.le_trans (Nat.sub_le ..) hk) hlin hlt
    rw [drop_drop,Nat.add_sub_of_le (Nat.le_of_lt hfit)] at hrest
    refine ⟨?_,hrest⟩
    rw [hdata,← take_add,Nat.add_sub_of_le (Nat.le_of_lt hfit)]
  obtain ⟨hout,hturn,hstores⟩ := hpart (j:=k) (by omega)
  rw [if_neg hfit,if_neg (not_refused hlen (Nat.le_refl _) hk),if_neg (Nat.lt_irrefl _),hturn]
  exact ⟨hout,hstores⟩

lemma Stores.read (h : r.Stores n l) (hk : k≤cp.bound) (hl : l≠[]) (hlen : k≠0) :
    (r.readLocked cp k).1=l.take k ∧ (r.readLocked cp k).2.Stores n (l.drop k) := by
  unfold readLocked
  split
  . rename_i hle
    exact h.readLoop hk hle hl hlen
  have hsum := h.remain
  have htail := h.ring.tail_eq
  unfold slot at htail
  refine h.readLinear hk ?_ ?_
  . split at htail <;> omega
  split at htail <;> omega

lemma Stores.reset (h : r.Stores n l) : r.prtRingbufReset.Stores n [] := by
  refine ⟨h.max,h.size,h.size,Shows.empty (Nat.zero_lt_of_lt h.ring.head_lt) fun _ => trivial,?_⟩
  intro x hx
  rcases mem_cons.mp hx with rfl | hx
  . exact Nat.le_of_eq ((Nat.zero_add _).trans h.size)
  exact h.inside x hx

lemma Stores.usedSize (h : r.Stores n l) : r.prtRingbufUsedSize=l.length := by
  have hsum := h.remain
  rw [prtRingbufUsedSize,h.size,u32Sub_of_le (by omega)]
  omega

end Ringbuf

inductive RingCall where
  | write (buf : List Nat)
  | read (size : Nat)
  | reset
  deriving DecidableEq

/-- What a call returned: the number of bytes written, or the bytes read. -/
inductive RingRet where
  | written (count : Nat)
  | data (bytes : List Nat)
  | none
  deriving DecidableEq

def Ringbuf.call (cp : MemcpyS) (r : Ringbuf) : RingCall → RingRet×Ringbuf
  | .write buf => (.written (r.prtRingbufWrite cp buf).1,(r.prtRingbufWrite cp buf).2)
  | .read size => (.data (r.prtRingbufRead cp size).1,(r.prtRingbufRead cp size).2)
  | .reset => (.none,r.prtRingbufReset)

/-- A byte queue of `n` places. -/
def fifoCall (n : Nat) (l : List Nat) : RingCall → RingRet×List Nat
  | .write buf => (.written (min buf.length (n-l.length)),l++buf.take (n-l.length))
  | .read size => (.data (l.take size),l.drop size)
  | .reset => (.none,[])

def callAll {σ : Type} (call : σ → RingCall → RingRet×σ) : σ → List RingCall → List RingRet×σ
  | s, [] => ([],s)
  | s, x::xs => ((call s x).1::(callAll call (call s x).2 xs).1,(callAll call (call s x).2 xs).2)

namespace Ringbuf

variable {r : Ringbuf} {cp : MemcpyS} {n : Nat} {l : List Nat}

lemma Stores.call (h : r.Stores n l) (hm : n≤cp.bound) (x : RingCall)
    (hx : ∀ k, x=.read k → k≤cp.bound) : (r.call cp x).1=(fifoCall n l x).1 ∧
      (r.call cp x).2.Stores n (fifoCall n l x).2 := by
  have hsum := h.remain
  cases x with
  | write buf =>
    have hrem : n-l.length=r.remain := by omega
    simp only [Ringbuf.call,fifoCall,hrem,prtRingbufWrite]
    split
    . rename_i hmay
      simp only [mayWrite,Bool.and_eq_true,decide_eq_true_eq] at hmay
      obtain ⟨hret,hstores⟩ := h.write hm hmay.2 hmay.1
      exact ⟨congrArg _ hret,hstores⟩
    rename_i hmay
    have hnil : buf.length=0 ∨ r.remain=0 := by
      simp only [mayWrite,Bool.and_eq_true,decide_eq_true_eq] at hmay
      omega
    have htake : buf.take r.remain=[] := by
      apply eq_nil_of_length_eq_zero
      rw [length_take]
      omega
    rw [htake,append_nil]
    exact ⟨congrArg _ (by omega),h⟩
  | read size =>
    simp only [Ringbuf.call,fifoCall,prtRingbufRead]
    split
    . rename_i hmay
      simp only [mayRead,h.size,Bool.and_eq_true,decide_eq_true_eq] at hmay
      obtain ⟨hdata,hstores⟩ := h.read (l:=l) (hx size rfl)
        (by rintro rfl; simp at hsum; omega) hmay.1
      exact ⟨congrArg _ hdata,hstores⟩
    rename_i hmay
    have hnil : size=0 ∨ l=[] := by
      simp only [mayRead,h.size,Bool.and_eq_true,decide_eq_true_eq] at hmay
      rw [← length_eq_zero_iff]
      omega
    rcases hnil with rfl | rfl
    . exact ⟨rfl,h⟩
    exact ⟨by rw [take_nil],by rwa [drop_nil]⟩
  | reset => exact ⟨rfl,h.reset⟩

lemma Stores.callAll (h : r.Stores n l) (hm : n≤cp.bound) (xs : List RingCall)
    (hx : ∀ k, .read k∈xs → k≤cp.bound) :
    (callAll (Ringbuf.call cp) r xs).1=(callAll (fifoCall n) l xs).1 ∧
      (callAll (Ringbuf.call cp) r xs).2.Stores n (callAll (fifoCall n) l xs).2 := by
  induction xs generalizing r l with
  | nil => exact ⟨rfl,h⟩
  | cons x xs ih =>
    obtain ⟨hret,hstores⟩ := h.call hm x fun k hk => hx k (hk ▸ mem_cons_self)
    obtain ⟨hrets,hall⟩ := ih hstores fun k hk => hx k (mem_cons_of_mem _ hk)
    refine ⟨?_,hall⟩
    rw [UniProton.callAll,UniProton.callAll,hret,hrets]

lemma stores_init {n : Nat} (hn : 0<n) (hmax : n<2^32) (f : Nat → Nat) :
    Stores n {size:=n, remain:=n, fifo:=f} [] :=
  ⟨hmax,rfl,rfl,Shows.empty hn fun _ => trivial,nofun⟩

end Ringbuf

/-- Every sequence of calls returns what a queue of bytes returns, uses the size of what the queue
stores, and accesses no byte outside of the buffer, where `memcpy_s` does not refuse the size of the
buffer or the length of a read. -/
theorem ringbuf_fifo {n : Nat} (hn : 0<n) (hmax : n<2^32) (cp : MemcpyS) (hm : n≤cp.bound)
    (f : Nat → Nat) (xs : List RingCall) (hx : ∀ k, .read k∈xs → k≤cp.bound) :
    let s := callAll (Ringbuf.call cp) {size:=n, remain:=n, fifo:=f} xs
    let q := callAll (fifoCall n) [] xs
    s.1=q.1 ∧ s.2.prtRingbufUsedSize=q.2.length ∧ ∀ x∈s.2.touched, x.1+x.2≤n := by
  obtain ⟨hret,hstores⟩ := (Ringbuf.stores_init hn hmax f).callAll hm xs hx
  exact ⟨hret,hstores.usedSize,hstores.inside⟩

/-- The documented refusals: a destination of no or too many bytes, and a copy that does not fit. -/
def documented : MemcpyS where
  refuses destMax count := destMax=0 || 0x7fffffff<destMax || destMax<count
  bound := 0x7fffffff
  copies destMax count h0 h hmax := by
    simp
    omega

theorem ringbuf_fifo_four : (callAll (Ringbuf.call documented)
        {size:=4, remain:=4, fifo:=fun _ => 0} [.write [1,2,3,4,5],.read 3,.write [6,7],.read 8]).1 =
      [.written 4,.data [1,2,3],.written 2,.data [4,6,7]] :=
  (ringbuf_fifo (by decide) (by decide) documented (by decide) _ _ (by simp [documented])).1

/-- A read of `2^31` bytes is refused, with a byte in the buffer. -/
theorem ringbuf_read_refused : (callAll (Ringbuf.call documented)
      {size:=4, remain:=4, fifo:=fun _ => 0} [.write [7],.read (2^31)]).1=[.written 1,.data []] := by
  decide +kernel

end UniProton
