import UniProton.Timer.WheelRun

namespace UniProton

open Framework Countdown

namespace WheelRun

variable {c : TmrCfg} {w : WheelRun} {i : Nat}

/-- Requests about a timer that is there. -/
inductive TmrRequest
  | start | stop | restart | delete
  deriving DecidableEq

def answer (c : TmrCfg) (w : WheelRun) (i : Nat) : TmrRequest → TmrErrno
  | .start => (w.tmrs.osSwTmrStartTimer c i).1
  | .stop => (w.tmrs.osSwTmrStopTimer c i).1
  | .restart => (w.tmrs.osSwTmrRestartTimer c i).1
  | .delete => (w.tmrs.osSwTmrDeleteTimer c i).1

/-- No creation returns the handle. -/
def NotReturned (c : TmrCfg) (i : Nat) (w : WheelRun) (x : TmrInput) : Prop :=
  ∀ new, w.event c x i≠.create new

/-- A timer that is gone: every request fails, its handler has not been called since, and its
control block is in the free list once. -/
structure Gone (c : TmrCfg) (i : Nat) (calls : List Nat) (w : WheelRun) : Prop where
  refused : ∀ r, w.answer c i r=.notCreated
  silent : w.callsOf i=calls
  free : w.tmrs.freeList.count i=1

lemma phase_free_iff : (w.tmrs.view i).phase=.free ↔ (w.tmrs.cb i).state=.free := by
  cases hst : (w.tmrs.cb i).state <;> simp [SwTmrs.view,hst]

lemma gone_of_free (h : RunOk c w) (hi : i<c.maxNum) (hst : (w.tmrs.cb i).state=.free) :
    Gone c i (w.callsOf i) w where
  refused r := by
    cases r <;>
      simp [answer,SwTmrs.osSwTmrStartTimer,SwTmrs.osSwTmrStopTimer,
        SwTmrs.osSwTmrRestartTimer,SwTmrs.osSwTmrDeleteTimer,Nat.not_le.mpr hi,hst]
  silent := rfl
  free := List.count_eq_one_of_mem h.wheel.freeNodup ((h.wheel.free i).mpr ⟨hst,hi⟩)

lemma act_free {k : Countdown} {e : TmrEvent} (hk : k.phase=.free)
    (he : ∀ new, e≠.create new) : (k.act e).phase=.free := by
  cases e with
  | create new => exact absurd rfl (he new)
  | _ => simp [act,start,stop,restart,
      delete,tick,handled,hk]

lemma callsOf_step (h : RunOk c w) (hst : (w.tmrs.cb i).state=.free) (x : TmrInput) :
    (w.step c x).callsOf i=w.callsOf i := by
  apply callsOf_step_of_not_enters
  rintro ⟨-,hhead,-⟩
  obtain ⟨pre,hpre⟩ := (h.wheel.expired i).mp (List.mem_of_mem_head? hhead)
  rw [hst] at hpre
  cases hpre

lemma gone_of_run (h : RunOk c w) (hi : i<c.maxNum) (hst : (w.tmrs.cb i).state=.free)
    {is : List TmrInput} (his : (machine c).Allowed (NotReturned c i) w is) :
    Gone c i (w.callsOf i) ((machine c).run w is) := by
  have hinv := his.invariant (P:=fun w' => RunOk c w' ∧ (w'.tmrs.cb i).state=.free ∧
      w'.callsOf i=w.callsOf i) ⟨h,hst,rfl⟩ ?_
  . obtain ⟨hrun,hfree,hcalls⟩ := hinv
    rw [← hcalls]
    exact gone_of_free hrun hi hfree
  rintro w' x ⟨hrun,hfree,hcalls⟩ hx
  obtain ⟨hrun',hview⟩ := hrun.step x
  refine ⟨hrun',?_,(callsOf_step hrun hfree x).trans hcalls⟩
  apply phase_free_iff.mp
  change ((w'.step c x).tmrs.view i).phase=.free
  rw [hview i]
  exact act_free (phase_free_iff.mpr hfree) hx

/-- A successful `PRT_TimerDelete` is final exactly when the timer is not expired; otherwise it is
only noted, and a later request overwrites the note. -/
theorem deleted_gone_iff (hw : (machine c).Reaches (fun _ _ => True) w)
    (hok : w.answer c i .delete=.ok) :
    (∀ is, (machine c).Allowed (NotReturned c i) (w.step c (.delete i)) is →
      Gone c i (w.callsOf i) ((machine c).run (w.step c (.delete i)) is)) ↔
    ∀ pre, (w.tmrs.cb i).state≠.expired pre := by
  have hrun := runOk_of_reaches hw
  have hi : i<c.maxNum := by
    by_contra hle
    simp [answer,SwTmrs.osSwTmrDeleteTimer,Nat.not_lt.mp hle] at hok
  have hmoved := hrun.wheel.deleteTimer (i:=i)
  have hview : (w.step c (.delete i)).tmrs.view i=(w.tmrs.view i).delete := by
    have hself := congrFun hmoved.view i
    rw [Function.update_self] at hself
    exact hself
  constructor
  . intro hgone pre hst
    have hnow := (hgone [] trivial).refused .start
    have hexp : ((w.step c (.delete i)).tmrs.cb i).state=.expired .preFree := by
      simp [WheelRun.step,SwTmrs.osSwTmrDeleteTimer,Nat.not_le.mpr hi,hst,SwTmrs.modCb]
    change (SwTmrs.osSwTmrStartTimer c (w.step c (.delete i)).tmrs i).1=.notCreated at hnow
    simp [SwTmrs.osSwTmrStartTimer,Nat.not_le.mpr hi,hexp] at hnow
  intro hne is his
  have hfree : ((w.step c (.delete i)).tmrs.cb i).state=.free := by
    apply phase_free_iff.mp
    rw [hview]
    cases hst : (w.tmrs.cb i).state with
    | free => simp [answer,SwTmrs.osSwTmrDeleteTimer,Nat.not_le.mpr hi,hst] at hok
    | expired pre => exact absurd hst (hne pre)
    | created | running => simp [Countdown.delete,SwTmrs.view,hst]
  exact gone_of_run (hrun.step (.delete i)).1 hi hfree his

def oneTimer : TmrCfg := ⟨1,1000,TmrCfg.pos_thousand,false⟩

def shortPara : TimerCreatePara := ⟨some .once,1,0,some (.user 0),0,0,0,0⟩

theorem deleted_gone_running :
    let w := (machine oneTimer).run ⟨SwTmrs.init oneTimer,[],false,0,[]⟩
      [.create shortPara,.start 0]
    w.answer oneTimer 0 .delete=.ok ∧
      Gone oneTimer 0 [] ((machine oneTimer).run (w.step oneTimer (.delete 0)) [.tick,.start 0]) := by
  have hw : (machine oneTimer).Reaches (fun _ _ => True)
      ((machine oneTimer).run ⟨SwTmrs.init oneTimer,[],false,0,[]⟩ [.create shortPara,.start 0]) :=
    (Machine.Reaches.start rfl).run _ ⟨trivial,trivial,trivial⟩
  have hok : WheelRun.answer oneTimer ((machine oneTimer).run
      ⟨SwTmrs.init oneTimer,[],false,0,[]⟩ [.create shortPara,.start 0]) 0 .delete=.ok := by
    decide +kernel
  refine ⟨hok,(deleted_gone_iff hw hok).mpr ?_ [.tick,.start 0] ⟨nofun,nofun,trivial⟩⟩
  intro pre hpre
  cases hpre

/-- The handler deletes its timer and starts it again: both calls succeed, and a tick later the
handler of the deleted timer is called. -/
theorem deleted_timer_fires :
    let w := (machine oneTimer).run ⟨SwTmrs.init oneTimer,[],false,0,[]⟩
      [.create shortPara,.start 0,.tick,.call]
    w.answer oneTimer 0 .delete=.ok ∧ (w.step oneTimer (.delete 0)).answer oneTimer 0 .start=.ok ∧
      w.callsOf 0=[1] ∧
      ((machine oneTimer).run w [.delete 0,.start 0,.handled,.tick,.call]).callsOf 0=[2,1] ∧
      ((machine oneTimer).run w [.delete 0,.start 0,.handled]).tmrs.freeList=[] := by
  decide +kernel

end WheelRun

end UniProton
