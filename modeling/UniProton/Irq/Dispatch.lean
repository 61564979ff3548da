import UniProton.Framework.Run

namespace UniProton.Irq

open Framework List

/-- An unfinished interrupt is in its handler, or in `g_tickDispatcher` in the loop of
`OsHwiDispatchTail`. -/
inductive Frame where
  | handler | dispatcher deriving DecidableEq

/-- What `OsMainSchedule` finds: the interrupts below the one it is called in, and the flags. -/
structure SchedPoint where
  below : Nat
  hwiActive : Bool
  tickActive : Bool
  deriving DecidableEq

/-- The interrupt state of the core with the unfinished interrupts, the innermost first. History:
the calls of `PRT_TickISR`, of `g_tickDispatcher` and of `OsMainSchedule`. -/
structure Core where
  hwiActive : Bool := false
  tickActive : Bool := false
  intCount : Nat := 0
  tickNoRespondCnt : Nat := 0
  stack : List Frame := []
  isrs : Nat := 0
  dispatches : Nat := 0
  points : List SchedPoint := []
  deriving DecidableEq

namespace Core

variable (c : Core)

/-- The context of a task is loaded, whatever else was on the stack. -/
def osMainSchedule : Core :=
  {c with
    points := ⟨c.stack.tail.length,c.hwiActive,c.tickActive⟩ :: c.points
    stack := []}

def callDispatcher : Core :=
  {c with stack:=.dispatcher::c.stack.tail, dispatches:=c.dispatches+1}

def osHwiDispatchTail : Core :=
  if 0<c.tickNoRespondCnt then
    if c.tickActive then {c with stack:=c.stack.tail}
    else {c with tickActive:=true}.callDispatcher
  else c.osMainSchedule

def irq : Core := {c with hwiActive:=true, intCount:=c.intCount+1, stack:=.handler::c.stack}

/-- `PRT_TickISR` with a tick rate that is not 0. -/
def prtTickISR : Core :=
  {c with tickNoRespondCnt:=(c.tickNoRespondCnt+1)%2^32, isrs:=c.isrs+1}

def handlerEnd : Core :=
  let c := {c with intCount:=c.intCount-1}
  if 0<c.intCount then {c with stack:=c.stack.tail}
  else {c with hwiActive:=false}.osHwiDispatchTail

def tickLeft : Nat := (c.tickNoRespondCnt+(2^32-1))%2^32

/-- The loop of `OsHwiDispatchTail` behind `g_tickDispatcher`. -/
def dispatcherEnd : Core :=
  let c := {c with tickNoRespondCnt:=c.tickLeft}
  if 0<c.tickNoRespondCnt then c.callDispatcher
  else {c with tickActive:=false}.osMainSchedule

end Core

inductive Event where
  | irq | tickIsr | handlerEnd | dispatcherEnd deriving DecidableEq

def Core.step (c : Core) : Event → Core
  | .irq => c.irq
  | .tickIsr => c.prtTickISR
  | .handlerEnd => c.handlerEnd
  | .dispatcherEnd => c.dispatcherEnd

/-- What can happen next: an interrupt at any time, and what the innermost frame does. Fewer than
`2^32` ticks are pending. -/
def Core.May (c : Core) : Event → Prop
  | .irq => True
  | .tickIsr => c.stack.head? = some .handler ∧ c.tickNoRespondCnt+1<2^32
  | .handlerEnd => c.stack.head? = some .handler
  | .dispatcherEnd => c.stack.head? = some .dispatcher

def coreMachine : Machine Core Event where
  start c := c={}
  step := Core.step

namespace Core

variable {c : Core}

def tickFrame (c : Core) : List Frame := if c.tickActive then [.dispatcher] else []

/-- Handlers nest over the tick loop, which only the outermost interrupt enters while a tick is
pending. -/
structure Nested (c : Core) : Prop where
  stack : c.stack=List.replicate c.intCount .handler++c.tickFrame
  hwi : c.hwiActive=decide (0<c.intCount)
  busy : c.tickActive=true → 0<c.tickNoRespondCnt
  quiet : c.stack=[] → c.tickNoRespondCnt=0
  fits : c.tickNoRespondCnt<2^32
  count : c.isrs+c.tickFrame.length=c.dispatches+c.tickNoRespondCnt
  points : ∀ p∈c.points, p=⟨0,false,false⟩

lemma Nested.intCount_pos (h : c.Nested) (ht : c.stack.head? = some .handler) : 0<c.intCount := by
  by_contra hz
  have hzero : c.intCount=0 := Nat.eq_zero_of_not_pos hz
  rw [h.stack,hzero] at ht
  unfold tickFrame at ht
  split at ht <;> simp at ht

lemma Nested.irq (h : c.Nested) : c.irq.Nested where
  stack := by
    simp only [Core.irq,h.stack,replicate_succ,List.cons_append]
    rfl
  hwi := by simp [Core.irq]
  busy := h.busy
  quiet := nofun
  fits := h.fits
  count := h.count
  points := h.points

lemma Nested.prtTickISR (h : c.Nested) (ht : c.stack.head? = some .handler)
    (hn : c.tickNoRespondCnt+1<2^32) : c.prtTickISR.Nested := by
  have hcnt : c.prtTickISR.tickNoRespondCnt=c.tickNoRespondCnt+1 := Nat.mod_eq_of_lt hn
  refine ⟨h.stack,h.hwi,fun _ => ?_,fun hs => ?_,?_,?_,h.points⟩
  . rw [hcnt]
    exact Nat.succ_pos _
  . have hs' : c.stack=[] := hs
    rw [hs'] at ht
    cases ht
  . rw [hcnt]
    exact hn
  have hcount := h.count
  rw [hcnt]
  change c.isrs+1+c.tickFrame.length=c.dispatches+(c.tickNoRespondCnt+1)
  omega

lemma Nested.handlerEnd (h : c.Nested) (ht : c.stack.head? = some .handler) :
    c.handlerEnd.Nested := by
  have hpos := h.intCount_pos ht
  obtain ⟨n,hn⟩ : ∃ n, c.intCount=n+1 := ⟨c.intCount-1,by omega⟩
  have htail : c.stack.tail=List.replicate n .handler++c.tickFrame := by
    rw [h.stack,hn]
    rfl
  have hcount := h.count
  unfold Core.handlerEnd
  simp only [hn,Nat.add_sub_cancel]
  split
  . next hin =>
    refine ⟨htail,?_,h.busy,fun hs => ?_,h.fits,hcount,h.points⟩
    . rw [h.hwi,hn]
      simp [hin]
    have hlen := congrArg List.length (htail.symm.trans hs)
    simp at hlen
    omega
  next hout =>
  have hzero : n=0 := Nat.eq_zero_of_not_pos hout
  subst hzero
  unfold osHwiDispatchTail
  split
  . next hcnt =>
    split
    . next hact =>
      refine ⟨htail,rfl,h.busy,fun hs => ?_,h.fits,hcount,h.points⟩
      have hnil : List.replicate 0 Frame.handler++c.tickFrame=[] := htail.symm.trans hs
      rw [tickFrame,if_pos hact] at hnil
      cases hnil
    next hact =>
    have hframe : c.tickFrame=[] := if_neg hact
    rw [hframe] at htail hcount
    refine ⟨?_,rfl,fun _ => hcnt,nofun,h.fits,?_,h.points⟩
    . simp only [callDispatcher,htail]
      rfl
    change c.isrs+1=c.dispatches+1+c.tickNoRespondCnt
    simp only [length_nil] at hcount
    omega
  next hcnt =>
  have hact : c.tickActive=false := by
    by_contra ha
    exact hcnt (h.busy ((Bool.not_eq_false _).mp ha))
  have hframe : c.tickFrame=[] := by
    rw [tickFrame,hact]
    rfl
  refine ⟨?_,rfl,fun ha => ?_,fun _ => Nat.eq_zero_of_not_pos hcnt,h.fits,hcount,?_⟩
  . exact hframe.symm
  . exact absurd ha (by rw [show _=false from hact]; nofun)
  intro p hp
  rcases mem_cons.mp hp with rfl | hp
  . rw [htail,hframe,hact]
    rfl
  exact h.points p hp

lemma Nested.dispatcherEnd (h : c.Nested) (ht : c.stack.head? = some .dispatcher) :
    c.dispatcherEnd.Nested := by
  have hzero : c.intCount=0 := by
    by_contra hne
    obtain ⟨n,hn⟩ : ∃ n, c.intCount=n+1 := ⟨c.intCount-1,by omega⟩
    rw [h.stack,hn] at ht
    cases ht
  have hact : c.tickActive=true := by
    by_contra ha
    rw [h.stack,hzero,tickFrame,if_neg ha] at ht
    cases ht
  have hstack : c.stack=[.dispatcher] := by
    rw [h.stack,hzero,tickFrame,if_pos hact]
    rfl
  have hframe : c.tickFrame=[.dispatcher] := if_pos hact
  have hcount := h.count
  rw [hframe] at hcount
  have hbusy := h.busy hact
  have hfits := h.fits
  have hleft : c.tickLeft=c.tickNoRespondCnt-1 := by
    unfold tickLeft
    omega
  unfold Core.dispatcherEnd
  simp only [hleft]
  split
  . next hcnt =>
    refine ⟨?_,h.hwi,fun _ => hcnt,nofun,?_,?_,h.points⟩
    . simp only [callDispatcher,hstack,hzero]
      exact hframe.symm
    . change c.tickNoRespondCnt-1<2^32
      omega
    change c.isrs+c.tickFrame.length=c.dispatches+1+(c.tickNoRespondCnt-1)
    rw [hframe]
    omega
  next hcnt =>
  refine ⟨?_,h.hwi,nofun,fun _ => Nat.eq_zero_of_not_pos hcnt,?_,?_,?_⟩
  . simp only [Core.osMainSchedule,hzero]
    rfl
  . change c.tickNoRespondCnt-1<2^32
    omega
  . change c.isrs+0=c.dispatches+(c.tickNoRespondCnt-1)
    simp only [length_singleton] at hcount
    omega
  intro p hp
  rcases mem_cons.mp hp with rfl | hp
  . have hhwi := h.hwi
    rw [hzero] at hhwi
    simp [hstack,hhwi]
  exact h.points p hp

lemma Nested.step {e : Event} (h : c.Nested) (he : c.May e) : (c.step e).Nested := by
  cases e with
  | irq => exact h.irq
  | tickIsr => exact h.prtTickISR he.1 he.2
  | handlerEnd => exact h.handlerEnd he
  | dispatcherEnd => exact h.dispatcherEnd he

end Core

lemma nested_of_reaches {c : Core} (hr : coreMachine.Reaches Core.May c) : c.Nested := by
  refine hr.invariant (P:=Core.Nested) ?_ fun c e hc he => hc.step he
  rintro c rfl
  exact ⟨rfl,rfl,nofun,fun _ => rfl,by decide,rfl,nofun⟩

/-- For any nesting: behind the outermost interrupt each tick has been handled, `g_tickDispatcher`
never runs twice at a time, and `OsMainSchedule` is called only at the outermost level with both
flags clear. -/
theorem ticks_dispatched {c : Core} (hr : coreMachine.Reaches Core.May c) :
    (c.stack=[] → c.dispatches=c.isrs) ∧ c.stack.count .dispatcher≤1 ∧
      ∀ p∈c.points, p=⟨0,false,false⟩ := by
  have h := nested_of_reaches hr
  refine ⟨fun hs => ?_,?_,h.points⟩
  . have hcount := h.count
    have hquiet := h.quiet hs
    have hframe : c.tickFrame=[] := by
      have hstack := h.stack
      rw [hs] at hstack
      exact (append_eq_nil_iff.mp hstack.symm).2
    rw [hquiet,hframe] at hcount
    exact hcount.symm
  have hne : List.count Frame.dispatcher (List.replicate c.intCount .handler)=0 :=
    count_eq_zero.mpr fun hm => nomatch eq_of_mem_replicate hm
  rw [h.stack,count_append,hne,Core.tickFrame]
  split
  . exact Nat.le_refl 1
  exact Nat.zero_le 1

def nestedEvents : List Event :=
  [.irq,.tickIsr,.handlerEnd,.irq,.irq,.tickIsr,.handlerEnd,.handlerEnd,.dispatcherEnd,
   .dispatcherEnd]

theorem ticks_dispatched_nested : (coreMachine.run {} nestedEvents).isrs=2 ∧
    (coreMachine.run {} nestedEvents).dispatches=(coreMachine.run {} nestedEvents).isrs := by
  have hrun : coreMachine.Allowed Core.May {} nestedEvents :=
    ⟨trivial,⟨rfl,by decide⟩,rfl,trivial,trivial,⟨rfl,by decide⟩,rfl,rfl,rfl,rfl,trivial⟩
  exact ⟨by decide,(ticks_dispatched (.run (.start rfl) nestedEvents hrun)).1 (by decide)⟩

end UniProton.Irq
