import UniProton.Perf.Ringbuf

namespace UniProton

open Framework Ring List

/-- A call between its checks and the lock. -/
inductive RingPc where
  | idle
  | writing (buf : List Nat)
  | reading (size : Nat)
  deriving DecidableEq

/-- The buffer and its callers. `accepted` are the bytes written and not discarded by a reset,
`returned` the bytes read, each in order. -/
structure RingShared where
  ring : Ringbuf
  pc : Nat → RingPc := fun _ => .idle
  accepted : List Nat := []
  returned : List Nat := []

inductive RingInput where
  | call (c : Nat) (x : RingCall)
  | lock (c : Nat)
  deriving DecidableEq

namespace RingShared

variable (s : RingShared) (cp : MemcpyS) (c : Nat)

def goto (p : RingPc) : RingShared := {s with pc:=fun d => if d=c then p else s.pc d}

/-- The checks of a call; `PRT_RingbufReset` has nothing to check. -/
def check (x : RingCall) : RingShared :=
  match s.pc c,x with
  | .idle,.write buf => if s.ring.mayWrite buf then s.goto c (.writing buf) else s
  | .idle,.read size => if s.ring.mayRead size then s.goto c (.reading size) else s
  | .idle,.reset => {s with ring:=s.ring.prtRingbufReset, accepted:=s.returned}
  | _,_ => s

def locked : RingShared :=
  match s.pc c with
  | .idle => s
  | .writing buf =>
    { s.goto c .idle with
      ring := (s.ring.writeLocked cp buf).2
      accepted := s.accepted++buf.take (s.ring.writeLocked cp buf).1 }
  | .reading size =>
    { s.goto c .idle with
      ring := (s.ring.readLocked cp size).2
      returned := s.returned++(s.ring.readLocked cp size).1 }

def step : RingInput → RingShared
  | .call c x => s.check c x
  | .lock c => s.locked cp c

/-- The bytes read are the first ones written, and the others are stored. -/
def Sound : Prop :=
  s.ring.remain ≤ s.ring.size ∧ s.returned <+: s.accepted ∧
    s.accepted.length=s.returned.length+(s.ring.size-s.ring.remain)

/-- What the call tested before the lock. -/
def Still : Prop :=
  match s.pc c with
  | .idle => True
  | .writing _ => s.ring.remain≠0
  | .reading _ => s.ring.remain≠s.ring.size

def Checked : RingInput → Prop
  | .call _ (.read size) => size≤cp.bound
  | .call _ _ => True
  | .lock c => s.Still c

end RingShared

def ringMachine (cp : MemcpyS) (n : Nat) : Machine RingShared RingInput where
  start s := ∃ f, s={ring:={size:=n, remain:=n, fifo:=f}}
  step s i := s.step cp i

namespace Ringbuf

variable {r : Ringbuf} {cp : MemcpyS} {n k : Nat} {l b : List Nat}

lemma writeLocked_size : (r.writeLocked cp b).2.size=r.size := by
  simp only [writeLocked,osRingbufWriteLoop,osRingbufWriteLinear,put]
  grind

lemma Stores.write_full (h : r.Stores n l) (hm : n≤cp.bound) (hfull : r.remain=0)
    (hb : b.length≠0) :
    (r.writeLocked cp b).1≠0 := by
  have hsum := h.remain
  have hstart := h.ring.head_lt
  have htail := h.ring.tail_eq
  unfold slot at htail
  have hright : u32Sub r.size r.endIdx=n-r.startIdx := by
    rw [h.size,u32Sub_of_le (by split at htail <;> omega)]
    split at htail <;> omega
  rw [writeLocked,if_pos (by split at htail <;> omega)]
  have hpos : (if n-r.startIdx<b.length then n-r.startIdx else b.length)≠0 := by
    split <;> omega
  simp only [osRingbufWriteLoop,hright]
  rw [if_neg (not_refused hpos (by split <;> omega) (by omega))]
  grind

lemma Stores.read_empty (h : r.Stores n []) (hm : k≤cp.bound) (hk : k≠0) :
    (r.readLocked cp k).1≠[] := by
  have hstart := h.ring.head_lt
  have htail : r.endIdx=r.startIdx := h.ring.tail_eq.trans (slot_zero hstart)
  have hright : u32Sub r.size r.startIdx=n-r.startIdx := by
    rw [h.size,u32Sub_of_le (Nat.le_of_lt hstart)]
  rw [readLocked,if_pos (Nat.le_of_eq htail)]
  have hpos : (if n-r.startIdx<k then n-r.startIdx else k)≠0 := by
    split <;> omega
  obtain ⟨j,hj⟩ := Nat.exists_eq_succ_of_ne_zero hpos
  have hcopy := not_refused hpos (by split <;> omega) hm
  rw [hj] at hcopy
  simp only [osRingbufReadLoop,hright,hj]
  rw [if_neg hcopy]
  grind [copyOut]

end Ringbuf

namespace RingShared

variable {s : RingShared} {cp : MemcpyS} {n c : Nat}

structure Inv (cp : MemcpyS) (n : Nat) (s : RingShared) : Prop where
  fits : n≤cp.bound
  stores : ∃ l, s.ring.Stores n l ∧ s.accepted=s.returned++l
  writing : ∀ c b, s.pc c=.writing b → b.length≠0
  reading : ∀ c k, s.pc c=.reading k → k≠0 ∧ k≤cp.bound

lemma Inv.sound (h : s.Inv cp n) : s.Sound := by
  obtain ⟨l,hl,hacc⟩ := h.stores
  have hsum := hl.remain
  rw [Sound,hacc,hl.size]
  refine ⟨by omega,prefix_append _ _,?_⟩
  rw [length_append]
  omega

lemma Inv.check (h : s.Inv cp n) (x : RingCall) (hx : s.Checked cp (.call c x)) :
    (s.check c x).Inv cp n := by
  obtain ⟨hm,hstores,hw,hr⟩ := h
  unfold RingShared.check
  split
  . split
    . refine ⟨hm,hstores,?_,?_⟩ <;> grind [goto,Ringbuf.mayWrite]
    exact ⟨hm,hstores,hw,hr⟩
  . split
    . refine ⟨hm,hstores,?_,?_⟩ <;> grind [goto,Ringbuf.mayRead,Checked]
    exact ⟨hm,hstores,hw,hr⟩
  . obtain ⟨l,hl,_⟩ := hstores
    exact ⟨hm,⟨[],hl.reset,(append_nil _).symm⟩,hw,hr⟩
  exact ⟨hm,hstores,hw,hr⟩

lemma Inv.goto_idle (h : s.Inv cp n) : (s.goto c .idle).Inv cp n := by
  obtain ⟨hm,hstores,hw,hr⟩ := h
  refine ⟨hm,hstores,?_,?_⟩ <;> grind [goto]

lemma Inv.locked (h : s.Inv cp n) (hs : s.Still c) : (s.locked cp c).Inv cp n := by
  have hidle := h.goto_idle (c:=c)
  obtain ⟨l,hl,hacc⟩ := h.stores
  unfold RingShared.locked
  unfold Still at hs
  cases hp : s.pc c with
  | idle => exact h
  | writing b =>
    rw [hp] at hs
    obtain ⟨hret,hwrite⟩ := hl.write h.fits hs (h.writing c b hp)
    refine ⟨h.fits,⟨l++b.take s.ring.remain,hwrite,?_⟩,hidle.writing,hidle.reading⟩
    change s.accepted++b.take (s.ring.writeLocked cp b).1=s.returned++_
    rw [hret,hacc,append_assoc,Nat.min_comm,← take_eq_take_min]
  | reading k =>
    rw [hp] at hs
    have hsum := hl.remain
    have hne : l≠[] := by
      rintro rfl
      exact hs (hsum.trans hl.size.symm)
    obtain ⟨hk,hlen⟩ := h.reading c k hp
    obtain ⟨hdata,hread⟩ := hl.read hlen hne hk
    refine ⟨h.fits,⟨l.drop k,hread,?_⟩,hidle.writing,hidle.reading⟩
    change s.accepted=s.returned++(s.ring.readLocked cp k).1++_
    rw [hdata,hacc,append_assoc,take_append_drop]

lemma Inv.still (h : s.Inv cp n) (hs : (s.locked cp c).Sound) : s.Still c := by
  obtain ⟨l,hl,hacc⟩ := h.stores
  have hsum := hl.remain
  have hlen := congrArg List.length hacc
  rw [length_append] at hlen
  unfold RingShared.locked at hs
  unfold Still
  cases hp : s.pc c with
  | idle => trivial
  | writing b =>
    intro hfull
    have hpos := hl.write_full h.fits hfull (h.writing c b hp)
    have hb := h.writing c b hp
    rw [hp] at hs
    have hcount := hs.2.2
    simp only [goto,Ringbuf.writeLocked_size,hl.size,length_append,length_take] at hcount
    omega
  | reading k =>
    intro hempty
    rw [hl.size] at hempty
    obtain rfl : l=[] := eq_nil_of_length_eq_zero (by omega)
    obtain ⟨hk,hlen⟩ := h.reading c k hp
    have hdata := length_pos_iff.mpr (hl.read_empty hlen hk)
    rw [hp] at hs
    have hle := hs.2.1.length_le
    simp only [goto,length_append] at hle
    omega

end RingShared

open RingShared

/-- In every run in which what a call has checked still holds under the lock, and `memcpy_s` does not
refuse the length of a read, the bytes read are the first written and the rest is stored; a call that
gets the lock keeps this exactly if its check still holds. -/
theorem ringbuf_callers_iff {cp : MemcpyS} {n : Nat} (hn : 0<n) (hmax : n<2^32)
    (hm : n≤cp.bound) {s : RingShared} (hr : (ringMachine cp n).Reaches (Checked · cp) s) :
    s.Sound ∧ ∀ c, (s.step cp (.lock c)).Sound ↔ s.Still c := by
  have h : s.Inv cp n := by
    apply hr.invariant
    . rintro s ⟨f,rfl⟩
      exact ⟨hm,⟨[],Ringbuf.stores_init hn hmax f,rfl⟩,nofun,nofun⟩
    intro s i hs hi
    cases i with
    | call c x => exact hs.check x hi
    | lock c => exact hs.locked hi
  exact ⟨h.sound,fun c => ⟨h.still,fun hs => (h.locked hs).sound⟩⟩

def twoReaders : RingShared :=
  (ringMachine documented 4).run {ring:={size:=4, remain:=4, fifo:=fun _ => 0}}
    [.call 0 (.write [7]),.lock 0,.call 1 (.read 1),.call 2 (.read 1),.lock 1,.lock 2]

theorem ringbuf_two_readers : twoReaders.ring.remain=5 ∧ twoReaders.ring.size=4 ∧
    twoReaders.accepted=[7] ∧ twoReaders.returned=[7,0] := by
  decide +kernel

theorem ringbuf_callers_two :
    ((ringMachine documented 4).run {ring:={size:=4, remain:=4, fifo:=fun _ => 0}}
      [.call 0 (.write [7,8]),.lock 0,.call 1 (.read 1),.call 2 (.read 1),.lock 1,.lock 2]).Sound := by
  have hstart : (ringMachine documented 4).start {ring:={size:=4, remain:=4, fifo:=fun _ => 0}} :=
    ⟨_,rfl⟩
  refine (ringbuf_callers_iff (by decide) (by decide) (by decide) (.run (.start hstart) _ ?_)).1
  have hone : 1≤documented.bound := by decide
  refine ⟨trivial,?_,hone,hone,?_,?_,trivial⟩
  all_goals
    change ¬_=_
    decide +kernel

end UniProton
