import UniProton.Framework.Run

namespace UniProton.Om

open Framework List

def osTraceFrameMaxParams : Nat := 3

/-- What an event is recorded with: the arguments of `OsTraceHook`, the running task, and what
`PRT_ClkGetCycleCount64` and the filter for interrupts answer. -/
structure TraceEvent where
  eventType : Nat
  identity : Nat := 0
  params : List Nat := []
  curTask : Nat := 0
  now : Nat
  filtered : Bool := false
  deriving DecidableEq

structure TraceFrame where
  curTask : Nat := 0
  identity : Nat := 0
  curTime : Nat := 0
  eventType : Nat := 0
  eventCount : Nat := 0
  params : List Nat := []
  deriving DecidableEq

/-- The ring of frames with the frame of each recording under way. History: the completed
recordings, the newest first. -/
structure Trace where
  maxRecordCount : Nat
  traceMask : Nat
  frameBuf : Nat → TraceFrame := fun _ => {}
  curIndex : Nat := 0
  traceEventCount : Nat := 0
  pending : Nat → Option TraceFrame := fun _ => none
  written : List TraceFrame := []

inductive TraceInput where
  | hook (r : Nat) (x : TraceEvent)
  | write (r : Nat)
  deriving DecidableEq

namespace Trace

variable (s : Trace) (r : Nat)

def setPending (f : Option TraceFrame) : Trace :=
  {s with pending:=fun d => if d=r then f else s.pending d}

def osTraceSetFrame (x : TraceEvent) : Trace :=
  { s.setPending r (some ⟨x.curTask,x.identity,x.now,x.eventType,s.traceEventCount,
      x.params.take osTraceFrameMaxParams⟩) with
    traceEventCount := (s.traceEventCount+1)%2^32 }

/-- The events that are recorded while tracing is enabled; `0x20` is the flag of interrupts. -/
def records (x : TraceEvent) : Bool :=
  x.eventType &&& s.traceMask != 0 && !(x.eventType &&& 0xFFFFFFF0 == 0x20 && x.filtered)

def osTraceHook (x : TraceEvent) : Trace :=
  if s.pending r=none ∧ s.records x then s.osTraceSetFrame r x else s

def osTraceWriteOrSendEvent : Trace :=
  match s.pending r with
  | none => s
  | some f =>
    { s.setPending r none with
      frameBuf := fun i => if i=s.curIndex then f else s.frameBuf i
      curIndex := if s.maxRecordCount ≤ s.curIndex+1 then 0 else s.curIndex+1
      written := f::s.written }

def step : TraceInput → Trace
  | .hook r x => s.osTraceHook r x
  | .write r => s.osTraceWriteOrSendEvent r

/-- The slot that was written `j` recordings before the last one. -/
def back (j : Nat) : Nat := (s.curIndex+s.maxRecordCount-1-j)%s.maxRecordCount

def HoldsLast : Prop :=
  ∀ j, j < min s.written.length s.maxRecordCount → s.written[j]? = some (s.frameBuf (s.back j))

def Increasing : Prop :=
  ∀ i j, i<j → j < min s.written.length s.maxRecordCount →
    (s.frameBuf (s.back j)).eventCount<(s.frameBuf (s.back i)).eventCount ∧
    (s.frameBuf (s.back j)).curTime<(s.frameBuf (s.back i)).curTime

/-- A recording begins while no other one is under way, with a later time, and before the numbers
wrap. -/
def Undisturbed : TraceInput → Prop
  | .hook _ x => s.records x → (∀ d, s.pending d=none) ∧ (∀ f∈s.written, f.curTime<x.now) ∧
      s.written.length<2^32
  | .write _ => True

end Trace

def traceMachine (maxRecordCount traceMask : Nat) : Machine Trace TraceInput where
  start s := s={maxRecordCount:=maxRecordCount, traceMask:=traceMask}
  step s i := s.step i

namespace Trace

variable {s : Trace} {r n mask : Nat} {i : TraceInput}

/-- The buffer has the last `n` recordings. -/
structure Wraps (n : Nat) (s : Trace) : Prop where
  max : s.maxRecordCount=n
  index : 0<n → s.curIndex=s.written.length%n
  last : ∀ j, j<s.written.length → j<n →
    s.written[j]? = some (s.frameBuf ((s.written.length-1-j)%n))

lemma Wraps.hook (h : s.Wraps n) (x : TraceEvent) : (s.osTraceHook r x).Wraps n := by
  unfold osTraceHook
  split
  . exact ⟨h.max,h.index,h.last⟩
  exact h

lemma Wraps.write (h : s.Wraps n) : (s.osTraceWriteOrSendEvent r).Wraps n := by
  unfold osTraceWriteOrSendEvent
  split
  . exact h
  rename_i f hf
  refine ⟨h.max,?_,?_⟩
  . intro hn
    have hlt := Nat.mod_lt s.written.length hn
    simp only [h.max,h.index hn,length_cons]
    rw [← Nat.mod_add_mod]
    split
    . have hlast : s.written.length%n+1=n := by omega
      rw [hlast,Nat.mod_self]
    exact (Nat.mod_eq_of_lt (by omega)).symm
  intro j hj hjn
  have hindex := h.index (by omega)
  cases j with
  | zero => simp [hindex]
  | succ j =>
    simp only [length_cons] at hj
    -- Less than a whole turn back is another slot.
    have hne : (s.written.length-1-j)%n≠s.written.length%n := by
      intro he
      have hzero := Nat.sub_mod_eq_zero_of_mod_eq he.symm
      rw [show s.written.length-(s.written.length-1-j)=j+1 by omega,Nat.mod_eq_of_lt hjn] at hzero
      omega
    have hidx : s.written.length+1-1-(j+1)=s.written.length-1-j := by omega
    simp only [length_cons,List.getElem?_cons_succ,hidx,hindex,if_neg hne]
    exact h.last j (by omega) (by omega)

lemma Wraps.back_eq (h : s.Wraps n) {j : Nat} (hj : j<s.written.length) (hjn : j<n) :
    s.back j=(s.written.length-1-j)%n := by
  have hdiv := Nat.div_add_mod s.written.length n
  have hsum : s.written.length-1-j+n=n*(s.written.length/n)+(s.written.length%n+n-1-j) := by omega
  rw [back,h.max,h.index (by omega),← Nat.add_mod_right (s.written.length-1-j),hsum,Nat.mul_add_mod]

lemma Wraps.holdsLast (h : s.Wraps n) : s.HoldsLast := by
  intro j hj
  rw [h.max,Nat.lt_min] at hj
  rw [h.back_eq hj.1 hj.2]
  exact h.last j hj.1 hj.2

/-- The order of the recordings, when no two are under way together. -/
structure Ordered (s : Trace) : Prop where
  sorted : s.written.Pairwise fun a b => b.eventCount<a.eventCount ∧ b.curTime<a.curTime
  below : ∀ g∈s.written, g.eventCount<s.written.length
  one : ∀ r d, s.pending r≠none → s.pending d≠none → r=d
  idle : (∀ r, s.pending r=none) → s.traceEventCount=s.written.length%2^32
  newest : ∀ r f, s.pending r=some f → f.eventCount=s.written.length ∧
    s.traceEventCount=(s.written.length+1)%2^32 ∧ ∀ g∈s.written, g.curTime<f.curTime

lemma Ordered.hook (h : s.Ordered) {x : TraceEvent} (hu : s.Undisturbed (.hook r x)) :
    (s.osTraceHook r x).Ordered := by
  unfold osTraceHook
  split
  . next hrec =>
    obtain ⟨hnone,htime,hlen⟩ := hu hrec.2
    have hcount := h.idle hnone
    refine ⟨h.sorted,h.below,?_,?_,?_⟩
    . intro c d hc hd
      grind [osTraceSetFrame,setPending]
    . intro hall
      have hr := hall r
      simp [osTraceSetFrame,setPending] at hr
    intro d f hf
    grind [osTraceSetFrame,setPending]
  exact h

lemma Ordered.write (h : s.Ordered) : (s.osTraceWriteOrSendEvent r).Ordered := by
  unfold osTraceWriteOrSendEvent
  split
  . exact h
  rename_i f hf
  obtain ⟨hcount,hnext,htime⟩ := h.newest r f hf
  have hnone (d : Nat) : (s.setPending r none).pending d=none := by
    by_cases hd : d=r
    . simp [setPending,hd]
    simp only [setPending,if_neg hd]
    by_contra hp
    exact hd (h.one d r hp (by simp [hf]))
  refine ⟨?_,?_,fun c d hc => absurd (hnone c) hc,fun _ => hnext,?_⟩
  . refine pairwise_cons.mpr ⟨?_,h.sorted⟩
    intro g hg
    exact ⟨hcount ▸ h.below g hg,htime g hg⟩
  . intro g hg
    rcases mem_cons.mp hg with rfl | hg
    . simp [hcount]
    exact (h.below g hg).trans (by simp)
  intro d g hd
  rw [hnone d] at hd
  cases hd

end Trace

open Trace

/-- The ring has the last recordings; if each begins alone, later than the written ones and before
2^32 of them, numbers and times increase through the ring. -/
theorem trace_ring_ordered {n mask : Nat} {s : Trace}
    (hr : (traceMachine n mask).Reaches (fun _ _ => True) s) :
    s.HoldsLast ∧ ((traceMachine n mask).Reaches Undisturbed s → s.Increasing) := by
  have hw : s.Wraps n := by
    apply hr.invariant
    . intro s hs
      subst hs
      exact ⟨rfl,fun _ => (Nat.zero_mod n).symm,nofun⟩
    intro s i hs _
    cases i with
    | hook r x => exact hs.hook x
    | write r => exact hs.write
  refine ⟨hw.holdsLast,fun hu => ?_⟩
  have ho : s.Ordered := by
    apply hu.invariant
    . intro s hs
      subst hs
      exact ⟨.nil,nofun,fun _ _ hp => absurd rfl hp,fun _ => rfl,nofun⟩
    intro s i hs hi
    cases i with
    | hook r x => exact hs.hook hi
    | write r => exact hs.write
  intro i j hij hj
  obtain ⟨hi1,hi2⟩ := List.getElem?_eq_some_iff.mp (hw.holdsLast i (hij.trans hj))
  obtain ⟨hj1,hj2⟩ := List.getElem?_eq_some_iff.mp (hw.holdsLast j hj)
  rw [← hi2,← hj2]
  exact pairwise_iff_getElem.mp ho.sorted i j hi1 hj1 hij

/-- An interrupt records its event between the two sections of another recording. -/
theorem trace_ring_reordered :
    let s := (traceMachine 4 0x60).run {maxRecordCount:=4, traceMask:=0x60}
      [.hook 0 {eventType:=0x45, now:=10},.hook 1 {eventType:=0x24, now:=20},
       .write 1,.write 0]
    (s.frameBuf (s.back 1)).eventCount=1 ∧ (s.frameBuf (s.back 0)).eventCount=0 ∧
      (s.frameBuf (s.back 1)).curTime=20 ∧ (s.frameBuf (s.back 0)).curTime=10 := by
  decide +kernel

theorem trace_ring_ordered_two :
    ((traceMachine 4 0x60).run {maxRecordCount:=4, traceMask:=0x60}
      [.hook 0 {eventType:=0x45, now:=10},.write 0,.hook 1 {eventType:=0x24, now:=20},
       .write 1]).Increasing := by
  have hstart : (traceMachine 4 0x60).start {maxRecordCount:=4, traceMask:=0x60} := rfl
  refine (trace_ring_ordered (.run (.start hstart) _ ?_)).2 (.run (.start hstart) _ ?_)
  . exact ⟨trivial,trivial,trivial,trivial,trivial⟩
  refine ⟨fun _ => ⟨fun _ => rfl,nofun,by decide⟩,trivial,fun _ => ⟨?_,?_,by decide⟩,trivial,trivial⟩
  . intro d
    by_cases hd : d=0 <;>
      simp [traceMachine,Trace.step,osTraceHook,records,osTraceSetFrame,
        osTraceWriteOrSendEvent,setPending,hd]
  decide +kernel

end UniProton.Om
