import UniProton.Framework.Run

namespace UniProton

open Framework

inductive OnceRet where
  | ok | lockError | unlockError deriving DecidableEq

/-- Where a call of `pthread_once` is; `old` is what it has read from the control. -/
inductive OncePc where
  | idle | refused | locking | reading
  | writing (old : Nat)
  | unlocking (old : Nat)
  | testing (old : Nat)
  | running
  | returned (ret : OnceRet)
  deriving DecidableEq

/-- The control, the holder of `g_pthreadonce`, and the calls, those made by the routine itself
included. `starts` and `ends` count how often the routine began and completed. -/
structure Once where
  control : Nat := 0
  holder : Option Nat := none
  pc : Nat → OncePc := fun _ => .idle
  starts : Nat := 0
  ends : Nat := 0

namespace Once

variable (s : Once) (c : Nat)

def goto (p : OncePc) : Once := {s with pc:=fun d => if d=c then p else s.pc d}

/-- The next step of a call. `ok` tells at the start that no argument is `NULL`, and at the mutex
calls whether they succeed; a held lock is waited for. -/
def pthreadOnce (ok : Bool) : Once :=
  match s.pc c with
  | .idle => s.goto c (if ok then .locking else .refused)
  | .refused => s
  | .locking =>
    if ok then
      if s.holder=none then {s.goto c .reading with holder:=some c} else s
    else s.goto c (.returned .lockError)
  | .reading => s.goto c (.writing s.control)
  | .writing old => {s.goto c (.unlocking old) with control:=1}
  | .unlocking old =>
    if ok then {s.goto c (.testing old) with holder:=none}
    else s.goto c (.returned .unlockError)
  | .testing old =>
    if old=0 then {s.goto c .running with starts:=s.starts+1}
    else s.goto c (.returned .ok)
  | .running => {s.goto c (.returned .ok) with ends:=s.ends+1}
  | .returned _ => s

/-- The mutex calls succeed, and no call reads the control while the routine is under way. -/
def Apart (ok : Bool) : Prop :=
  match s.pc c with
  | .locking | .unlocking _ => ok=true
  | .reading => s.control=0 ∨ s.ends=1
  | _ => True

/-- The routine runs at most once, and has completed when a call has returned. -/
def RanOnce : Prop :=
  s.starts≤1 ∧ s.ends ≤ s.starts ∧ ∀ c ret, s.pc c=.returned ret → s.starts=1 ∧ s.ends=1

end Once

def OncePc.locked : OncePc → Bool
  | .reading | .writing _ | .unlocking _ => true
  | _ => false

/-- The call that runs the routine, from the time it has marked the control. -/
def OncePc.chosen : OncePc → Bool
  | .unlocking 0 | .testing 0 | .running => true
  | _ => false

def OncePc.served : OncePc → Bool
  | .writing old | .unlocking old | .testing old => old != 0
  | .returned _ => true
  | _ => false

def onceMachine : Machine Once (Nat×Bool) where
  start s := s={}
  step s i := s.pthreadOnce i.1 i.2

namespace Once

/-- Before the control is marked nobody runs the routine, and then one call does. -/
structure Inv (s : Once) : Prop where
  locked : ∀ c, (s.pc c).locked → s.holder=some c
  read : ∀ c old, s.pc c=.writing old → old=s.control
  fresh : s.control=0 → s.starts=0 ∧ s.ends=0 ∧ ∀ c, ¬(s.pc c).chosen
  chosen : ∀ c, (s.pc c).chosen → s.ends=0 ∧ (s.starts=1 ↔ s.pc c=.running) ∧
    ∀ d, (s.pc d).chosen → d=c
  served : ∀ c, (s.pc c).served → s.ends=1
  counts : s.starts≤1 ∧ s.ends ≤ s.starts

variable {s : Once} {c : Nat} {ok : Bool}

lemma Inv.stepLock (h : s.Inv) (ha : s.Apart c ok)
    (hp : s.pc c=.idle ∨ s.pc c=.refused ∨ s.pc c=.locking ∨ s.pc c=.reading) :
    (s.pthreadOnce c ok).Inv := by
  obtain ⟨hl,hr,hf,hc,hs,hn⟩ := h
  rcases hp with hp | hp | hp | hp <;> simp only [Apart,pthreadOnce,goto,hp] at ha ⊢ <;>
    constructor <;> grind [OncePc.locked,OncePc.chosen,OncePc.served]

lemma Inv.stepMark (h : s.Inv) (ha : s.Apart c ok) {old : Nat}
    (hp : s.pc c=.writing old ∨ s.pc c=.unlocking old) : (s.pthreadOnce c ok).Inv := by
  obtain ⟨hl,hr,hf,hc,hs,hn⟩ := h
  rcases hp with hp | hp <;> simp only [Apart,pthreadOnce,goto,hp] at ha ⊢ <;>
    constructor <;> grind [OncePc.locked,OncePc.chosen,OncePc.served]

lemma Inv.stepRun (h : s.Inv) {o : Nat} {r : OnceRet}
    (hp : s.pc c=.testing o ∨ s.pc c=.running ∨ s.pc c=.returned r) :
    (s.pthreadOnce c ok).Inv := by
  obtain ⟨hl,hr,hf,hc,hs,hn⟩ := h
  rcases hp with hp | hp | hp <;> simp only [pthreadOnce,goto,hp] <;> constructor <;>
    grind [OncePc.locked,OncePc.chosen,OncePc.served]

lemma Inv.step (h : s.Inv) (ha : s.Apart c ok) : (s.pthreadOnce c ok).Inv := by
  -- A step moves one call: it takes or leaves the mutex, becomes the chosen one, or is served.
  cases hp : s.pc c with
  | idle | refused | locking | reading => exact h.stepLock ha (by simp [hp])
  | writing old => exact h.stepMark ha (.inl hp)
  | unlocking old => exact h.stepMark ha (.inr hp)
  | testing old => exact h.stepRun (r:=.ok) (.inl hp)
  | running => exact h.stepRun (o:=0) (r:=.ok) (.inr (.inl hp))
  | returned ret => exact h.stepRun (o:=0) (.inr (.inr hp))

lemma Inv.ranOnce (h : s.Inv) : s.RanOnce := by
  refine ⟨h.counts.1,h.counts.2,?_⟩
  intro c ret hp
  have hends := h.served c (by rw [hp]; rfl)
  have hcounts := h.counts
  omega

end Once

open Once

/-- Where the mutex calls succeed and no call reads the control while the routine is under way, the
routine runs at most once and has completed when a call returns; an undisturbed call keeps this
exactly if it does not meet the routine under way. -/
theorem once_ran_once {s : Once} (hr : onceMachine.Reaches (fun s i => s.Apart i.1 i.2) s) :
    s.RanOnce ∧ ∀ c, s.pc c=.reading →
      ((onceMachine.run s (List.replicate 4 (c,true))).RanOnce ↔ s.Apart c true) := by
  have h : s.Inv := by
    apply hr.invariant
    . intro s hs
      subst hs
      constructor <;> simp [OncePc.locked,OncePc.chosen,OncePc.served]
    intro s i hs hi
    exact hs.step hi
  refine ⟨h.ranOnce,fun c hp => ⟨fun hran => ?_,fun ha => ?_⟩⟩
  . by_cases hz : s.control=0
    . simp [Apart,hp,hz]
    have hends := (hran.2.2 c .ok (by
      simp [Machine.run,onceMachine,List.replicate,pthreadOnce,goto,hp,hz])).2
    simp [Machine.run,onceMachine,List.replicate,pthreadOnce,goto,hp,hz] at hends
    simp [Apart,hp,hends]
  have hrun : onceMachine.Allowed (fun s i => s.Apart i.1 i.2) s (List.replicate 4 (c,true)) := by
    refine ⟨ha,?_⟩
    simp [Machine.Allowed,onceMachine,List.replicate,Apart,pthreadOnce,goto,hp]
  exact (hrun.invariant h fun s i hs hi => hs.step hi).ranOnce

/-- The routine of call 0 is running while call 1 is made. -/
theorem once_returns_early :
    let s := onceMachine.run {} (List.replicate 6 (0,true)++List.replicate 6 (1,true))
    s.pc 0=.running ∧ s.pc 1=.returned .ok ∧ s.ends=0 := by
  decide +kernel

theorem once_ran_once_later :
    (onceMachine.run {} (List.replicate 7 (0,true)++List.replicate 6 (1,true))).RanOnce := by
  have hrun : onceMachine.Allowed (fun s i => s.Apart i.1 i.2) {}
      (List.replicate 7 (0,true)++List.replicate 6 (1,true)) :=
    ⟨trivial,rfl,.inl rfl,trivial,rfl,trivial,trivial,trivial,rfl,.inr rfl,trivial,rfl,
      trivial,trivial⟩
  exact (once_ran_once (.run (.start rfl) _ hrun)).1

end UniProton
