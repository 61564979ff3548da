import UniProton.Smp.RunQueueRun

namespace UniProton

open Framework Smp Function List

def osTskNullId : Nat := 0xFFFFFFFF

/-- What `PRT_TaskYield` and `PRT_TaskDelay` return. -/
inductive YieldRet where
  | osOk | tskPriorError | buildIdInvalid | tskYieldInvalidTask | tskYieldNotEnoughTask
  | tskDelayInInt | tskDelayInLock
  deriving DecidableEq

/-- The calls that give up the processor; `yieldTo` says whether its pointer is given. -/
inductive YieldCall where
  | yield (taskPrio nextTask : Nat) (yieldTo : Bool)
  | delay
  deriving DecidableEq

/-- The return value, what is written to `yieldTo`, and the run queues. -/
structure Yielded where
  ret : YieldRet
  yieldTo : Option Nat
  state : RunQs

namespace RunQs

variable (c : RqCfg) (s : RunQs)

/-- `ListDelete`, and `ListAdd` or `ListTailAdd` behind it. -/
def relink (t : Nat) (key : Nat×Nat) (pos : Nat) : RunQs :=
  {s with ready:=(s.ready.delete t).insert t key pos}

/-- `second` comes behind `currTask`, which heads the list of `taskPrio`. -/
def osTaskYieldProc (core nextTaskId taskPrio : Nat) (yieldTo : Bool) (currTask second : Nat) :
    Yielded :=
  if nextTaskId=osTskNullId then
    ⟨.osOk,if yieldTo then some second else none,
      s.relink currTask (core,taskPrio) (s.ready.lists (core,taskPrio)).length⟩
  else
    let yieldTo := if yieldTo then some nextTaskId else none
    if (s.tcb nextTaskId).priority=taskPrio ∧ (s.tcb nextTaskId).tst osTskReady then
      ⟨.osOk,yieldTo,s.relink nextTaskId (core,taskPrio) 0⟩
    else ⟨.tskYieldInvalidTask,yieldTo,s⟩

/-- The loop in it ends after one pick. -/
def osMainSchedule (core : Nat) : RunQs :=
  if (s.rq core).uniTaskLock=0 ∧ (s.rq core).needReschedule then
    (s.osPickNextTaskRtSingle core).getD s
  else s

def osTskSchedule (core : Nat) : RunQs :=
  if (s.rq core).intActive ∨ ¬(s.rq core).needReschedule then s else s.osMainSchedule core

def afterYield (core currTask : Nat) : RunQs :=
  if (s.tcb currTask).tst osTskRunning then
    (s.modRq core (·.osRescheduleCurr)).osTskSchedule core
  else s

def osTaskYield (core taskPrio nextTaskId : Nat) (yieldTo : Bool) : Yielded :=
  match s.ready.lists (core,taskPrio) with
  | currTask::second::_ =>
    let r := s.osTaskYieldProc core nextTaskId taskPrio yieldTo currTask second
    if r.ret≠.osOk then r else {r with state:=r.state.afterYield core currTask}
  | _ => ⟨.tskYieldNotEnoughTask,none,s⟩

def prtTaskYield (core taskPrio nextTask : Nat) (yieldTo : Bool) : Yielded :=
  if c.osTskPriorityLowest<taskPrio then ⟨.tskPriorError,none,s⟩
  else if nextTask≠osTskNullId ∧ c.tskMaxNum+c.maxNumOfCores≤nextTask then
    ⟨.buildIdInvalid,none,s⟩
  else s.osTaskYield core taskPrio nextTask yieldTo

def prtTaskDelayZero (core : Nat) : Yielded :=
  if (s.rq core).intActive then ⟨.tskDelayInInt,none,s⟩
  else if (s.rq core).uniTaskLock≠0 then ⟨.tskDelayInLock,none,s⟩
  else s.osTaskYield core (s.tcb (s.rq core).tskCurr).priority osTskNullId false

def yieldCall (core : Nat) : YieldCall → Yielded
  | .yield taskPrio nextTask yieldTo => s.prtTaskYield c core taskPrio nextTask yieldTo
  | .delay => s.prtTaskDelayZero core

def yieldKey (core : Nat) : YieldCall → Nat×Nat
  | .yield taskPrio _ _ => (core,taskPrio)
  | .delay => (core,(s.tcb (s.rq core).tskCurr).priority)

/-- Every ready task is in the list of its own core and priority, and so in no other. -/
def Homed : Prop :=
  ∀ t, (s.tcb t).tst osTskReady=true → s.ready.loc t=some ((s.tcb t).coreID,(s.tcb t).priority)

/-- Only the order of one list has changed. -/
structure Reordered (s' : RunQs) (key : Nat×Nat) : Prop where
  homed : s'.Homed
  queues : ∀ core, (s'.rq core).nrRunning=(s.rq core).nrRunning ∧
    (s'.rq core).readyPrioBit=(s.rq core).readyPrioBit
  counted : s.Counted c → s'.Counted c
  other : ∀ k≠key, s'.ready.lists k=s.ready.lists k
  perm : (s'.ready.lists key).Perm (s.ready.lists key)

/-- The named task would be accepted and belongs to another core. -/
def Foreign (core : Nat) : YieldCall → Prop
  | .yield taskPrio nextTask _ =>
    taskPrio≤c.osTskPriorityLowest ∧ nextTask≠osTskNullId ∧
      nextTask<c.tskMaxNum+c.maxNumOfCores ∧ 1<(s.ready.lists (core,taskPrio)).length ∧
      (s.tcb nextTask).priority=taskPrio ∧ (s.tcb nextTask).tst osTskReady=true ∧
      (s.tcb nextTask).coreID≠core
  | .delay => False

section Yield

variable {c s} {s' : RunQs} {t core : Nat} {key : Nat×Nat}

lemma Reordered.refl (h : s.Homed) (key : Nat×Nat) : s.Reordered c s key :=
  ⟨h,fun _ => ⟨rfl,rfl⟩,id,fun _ _ => rfl,.refl _⟩

lemma Reordered.then {s'' : RunQs} (h : s.Reordered c s' key) (hready : s''.ready=s'.ready)
    (hrq : ∀ core, (s''.rq core).nrRunning=(s'.rq core).nrRunning ∧
      (s''.rq core).readyPrioBit=(s'.rq core).readyPrioBit)
    (htcb : ∀ u, (s''.tcb u).tst osTskReady=(s'.tcb u).tst osTskReady ∧
      (s''.tcb u).coreID=(s'.tcb u).coreID ∧ (s''.tcb u).priority=(s'.tcb u).priority) :
    s.Reordered c s'' key where
  homed u hu := by
    obtain ⟨hst,hcore,hprio⟩ := htcb u
    rw [hready,hcore,hprio]
    exact h.homed u (hst ▸ hu)
  queues core := ⟨(hrq core).1.trans (h.queues core).1,(hrq core).2.trans (h.queues core).2⟩
  counted hc := (h.counted hc).same (fun u => (htcb u).2.2 ▸ (h.counted hc).prio u) hrq hready
  other k hk := hready ▸ h.other k hk
  perm := hready ▸ h.perm

lemma reordered_relink (h : s.Homed) (ht : s.ready.loc t=some key) (pos : Nat) :
    s.Reordered c (s.relink t key pos) key := by
  have hnone : (s.ready.delete t).loc t=none := by simp
  have hperm (k : Nat×Nat) : ((s.relink t key pos).ready.lists k).Perm (s.ready.lists k) :=
    Links.delete_insert_perm _ pos ht k
  refine ⟨fun u hu => ?_,fun _ => ⟨rfl,rfl⟩,fun hc => ⟨hc.prio,fun k => ?_,fun k p => ?_⟩,
    fun k hk => ?_,hperm key⟩
  . change ((s.ready.delete t).insert t key pos).loc u=_
    rw [Links.insert_loc _ _ _ hnone,Links.delete_loc,update_idem]
    by_cases hut : u=t
    . subst hut
      rw [update_self,← ht]
      exact h u hu
    rw [update_of_ne hut]
    exact h u hu
  . unfold linkedOn
    rw [Finset.sum_congr rfl fun p _ => (hperm (k,p)).length_eq]
    exact hc.nrRunning k
  . rw [← length_pos_iff,(hperm (k,p)).length_eq,length_pos_iff]
    exact hc.bits k p
  change ((s.ready.delete t).insert t key pos).lists k=_
  rw [Links.insert_lists_ne _ _ _ hk,Links.delete_lists_ne]
  rw [ht]
  exact fun heq => hk (Option.some.inj heq).symm

lemma schedule_same (s : RunQs) (core : Nat) : (s.osTskSchedule core).ready=s.ready ∧
    (∀ k, ((s.osTskSchedule core).rq k).nrRunning=(s.rq k).nrRunning ∧
      ((s.osTskSchedule core).rq k).readyPrioBit=(s.rq k).readyPrioBit) ∧
    ∀ u, ((s.osTskSchedule core).tcb u).tst osTskReady=(s.tcb u).tst osTskReady ∧
      ((s.osTskSchedule core).tcb u).coreID=(s.tcb u).coreID ∧
      ((s.osTskSchedule core).tcb u).priority=(s.tcb u).priority := by
  have hself : s.ready=s.ready ∧
      (∀ k, (s.rq k).nrRunning=(s.rq k).nrRunning ∧ (s.rq k).readyPrioBit=(s.rq k).readyPrioBit) ∧
      ∀ u, (s.tcb u).tst osTskReady=(s.tcb u).tst osTskReady ∧
        (s.tcb u).coreID=(s.tcb u).coreID ∧ (s.tcb u).priority=(s.tcb u).priority :=
    ⟨rfl,fun _ => ⟨rfl,rfl⟩,fun _ => ⟨rfl,rfl,rfl⟩⟩
  unfold osTskSchedule osMainSchedule
  split
  . exact hself
  split
  . cases hpick : s.osPickNextTaskRtSingle core with
    | none => exact hself
    | some r =>
      obtain ⟨task,-,hready,hrq,htcb⟩ := pick_some hpick
      refine ⟨hready,fun k => ?_,fun u => (htcb u).2⟩
      rw [Option.getD_some,hrq]
      by_cases hk : k=core
      . subst hk
        rw [update_self]
        exact ⟨rfl,rfl⟩
      rw [update_of_ne hk]
      exact ⟨rfl,rfl⟩
  exact hself

lemma rescheduleCurr_same (s : RunQs) (core k : Nat) :
    ((s.modRq core (·.osRescheduleCurr)).rq k).nrRunning=(s.rq k).nrRunning ∧
    ((s.modRq core (·.osRescheduleCurr)).rq k).readyPrioBit=(s.rq k).readyPrioBit := by
  by_cases hk : k=core
  . subst hk
    rw [modRq_self]
    exact ⟨rfl,rfl⟩
  rw [modRq_ne _ hk]
  exact ⟨rfl,rfl⟩

lemma afterYield_same (s : RunQs) (core currTask : Nat) :
    (s.afterYield core currTask).ready=s.ready ∧
    (∀ k, ((s.afterYield core currTask).rq k).nrRunning=(s.rq k).nrRunning ∧
      ((s.afterYield core currTask).rq k).readyPrioBit=(s.rq k).readyPrioBit) ∧
    ∀ u, ((s.afterYield core currTask).tcb u).tst osTskReady=(s.tcb u).tst osTskReady ∧
      ((s.afterYield core currTask).tcb u).coreID=(s.tcb u).coreID ∧
      ((s.afterYield core currTask).tcb u).priority=(s.tcb u).priority := by
  unfold afterYield
  split
  . obtain ⟨hready,hrq,htcb⟩ := schedule_same (s.modRq core (·.osRescheduleCurr)) core
    refine ⟨hready,fun k => ?_,htcb⟩
    obtain ⟨hnr,hbits⟩ := rescheduleCurr_same s core k
    exact ⟨(hrq k).1.trans hnr,(hrq k).2.trans hbits⟩
  exact ⟨rfl,fun _ => ⟨rfl,rfl⟩,fun _ => ⟨rfl,rfl,rfl⟩⟩

lemma osTaskYield_cases (s : RunQs) (core taskPrio nextTaskId : Nat) (yieldTo : Bool) :
    let r := s.osTaskYield core taskPrio nextTaskId yieldTo
    (r.ret≠.osOk ∧ r.state=s) ∨ r.ret=.osOk ∧ ∃ currTask t pos,
      currTask∈s.ready.lists (core,taskPrio) ∧ 1<(s.ready.lists (core,taskPrio)).length ∧
      r.state=(s.relink t (core,taskPrio) pos).afterYield core currTask ∧
      (nextTaskId=osTskNullId ∧ t=currTask ∨ nextTaskId≠osTskNullId ∧ t=nextTaskId ∧
        (s.tcb t).priority=taskPrio ∧ (s.tcb t).tst osTskReady=true) := by
  unfold osTaskYield
  split
  . rename_i currTask second l hlist
    unfold osTaskYieldProc
    simp only [hlist]
    split
    . rename_i hnull
      exact .inr ⟨rfl,currTask,currTask,_,mem_cons_self,by simp,rfl,.inl ⟨hnull,rfl⟩⟩
    rename_i hnull
    split
    . rename_i hnext
      exact .inr ⟨rfl,currTask,nextTaskId,0,mem_cons_self,by simp,rfl,
        .inr ⟨hnull,rfl,hnext.1,hnext.2⟩⟩
    exact .inl ⟨nofun,rfl⟩
  exact .inl ⟨nofun,rfl⟩

lemma Reordered.afterYield (h : s.Reordered c s' key) (core currTask : Nat) :
    s.Reordered c (s'.afterYield core currTask) key := by
  obtain ⟨hready,hrq,htcb⟩ := afterYield_same s' core currTask
  exact h.then hready hrq htcb

lemma osTaskYield_reordered (h : s.Homed) (core taskPrio nextTaskId : Nat) (yieldTo : Bool)
    (hnext : nextTaskId≠osTskNullId → 1<(s.ready.lists (core,taskPrio)).length →
      (s.tcb nextTaskId).priority=taskPrio → (s.tcb nextTaskId).tst osTskReady=true →
      (s.tcb nextTaskId).coreID=core) :
    s.Reordered c (s.osTaskYield core taskPrio nextTaskId yieldTo).state (core,taskPrio) ∧
    ((s.osTaskYield core taskPrio nextTaskId yieldTo).ret≠.osOk →
      (s.osTaskYield core taskPrio nextTaskId yieldTo).state=s) := by
  rcases osTaskYield_cases s core taskPrio nextTaskId yieldTo with ⟨_,hs⟩ | ⟨hok,hcase⟩
  . refine ⟨?_,fun _ => hs⟩
    rw [hs]
    exact Reordered.refl h _
  refine ⟨?_,fun hne => absurd hok hne⟩
  obtain ⟨currTask,t,pos,hcurr,hlen,hs,ht⟩ := hcase
  have hloc : s.ready.loc t=some (core,taskPrio) := by
    rcases ht with ⟨_,rfl⟩ | ⟨hnull,rfl,hprio,hst⟩
    . exact (s.ready.mem_iff _ _).mp hcurr
    rw [h t hst,hprio,hnext hnull hlen hprio hst]
  rw [hs]
  exact (reordered_relink h hloc pos).afterYield core currTask

lemma osTaskYield_foreign {taskPrio nextTaskId : Nat} (yieldTo : Bool)
    (hnull : nextTaskId≠osTskNullId) (hlen : 1<(s.ready.lists (core,taskPrio)).length)
    (hprio : (s.tcb nextTaskId).priority=taskPrio)
    (hst : (s.tcb nextTaskId).tst osTskReady=true) (hcore : (s.tcb nextTaskId).coreID≠core) :
    ¬(s.osTaskYield core taskPrio nextTaskId yieldTo).state.Homed := by
  intro hhomed
  have hok : (s.osTaskYield core taskPrio nextTaskId yieldTo).ret=.osOk := by
    obtain ⟨currTask,second,l,hlist⟩ : ∃ a b l, s.ready.lists (core,taskPrio)=a::b::l := by
      match hl : s.ready.lists (core,taskPrio) with
      | [] => simp [hl] at hlen
      | [_] => simp [hl] at hlen
      | a::b::l => exact ⟨a,b,l,rfl⟩
    simp [osTaskYield,hlist,osTaskYieldProc,hnull,hprio,hst]
  rcases osTaskYield_cases s core taskPrio nextTaskId yieldTo with ⟨hne,_⟩ | ⟨_,hcase⟩
  . exact hne hok
  obtain ⟨currTask,t,pos,-,-,hs,⟨hn,_⟩ | ⟨_,rfl,-⟩⟩ := hcase
  . exact hnull hn
  rw [hs] at hhomed
  obtain ⟨hready,-,htcb⟩ := afterYield_same (s.relink t (core,taskPrio) pos) core currTask
  obtain ⟨hst',hcore',-⟩ := htcb t
  have hhome := hhomed t (hst'.trans hst)
  have hnone : (s.ready.delete t).loc t=none := by simp
  have hloc : (s.relink t (core,taskPrio) pos).ready.loc t=some (core,taskPrio) := by
    change ((s.ready.delete t).insert t (core,taskPrio) pos).loc t=_
    rw [Links.insert_loc _ _ _ hnone,update_self]
  rw [hready,hloc,hcore'] at hhome
  exact hcore (Prod.mk.inj (Option.some.inj hhome)).1.symm

/-- A yield leaves every ready task at home and reorders at most one list of the calling core,
exactly if it does not name a ready task of another core. -/
theorem yield_keeps_iff (h : s.Homed) (core : Nat) (call : YieldCall) :
    s.Reordered c (s.yieldCall c core call).state (s.yieldKey core call) ∧
      ((s.yieldCall c core call).ret≠.osOk →
        (s.yieldCall c core call).state.ready=s.ready) ↔ ¬s.Foreign c core call := by
  constructor
  . rintro ⟨hre,-⟩ hforeign
    cases call with
    | delay => exact hforeign
    | yield taskPrio nextTask yieldTo =>
      obtain ⟨hlow,hnull,hmax,hlen,hprio,hst,hcore⟩ := hforeign
      have hcall : s.yieldCall c core (.yield taskPrio nextTask yieldTo) =
          s.osTaskYield core taskPrio nextTask yieldTo := by
        change s.prtTaskYield c core taskPrio nextTask yieldTo=_
        unfold prtTaskYield
        rw [if_neg (by omega),if_neg (by omega)]
      exact osTaskYield_foreign yieldTo hnull hlen hprio hst hcore (hcall ▸ hre.homed)
  intro hforeign
  cases call with
  | delay =>
    change s.Reordered c (s.prtTaskDelayZero core).state _ ∧
      ((s.prtTaskDelayZero core).ret≠.osOk → (s.prtTaskDelayZero core).state.ready=s.ready)
    unfold prtTaskDelayZero
    split
    . exact ⟨Reordered.refl h _,fun _ => rfl⟩
    split
    . exact ⟨Reordered.refl h _,fun _ => rfl⟩
    obtain ⟨hre,hs⟩ := osTaskYield_reordered (c:=c) h core _ _ false
      (fun hnull => absurd rfl hnull)
    exact ⟨hre,fun hne => congrArg ready (hs hne)⟩
  | yield taskPrio nextTask yieldTo =>
    change s.Reordered c (s.prtTaskYield c core taskPrio nextTask yieldTo).state _ ∧
      ((s.prtTaskYield c core taskPrio nextTask yieldTo).ret≠.osOk →
        (s.prtTaskYield c core taskPrio nextTask yieldTo).state.ready=s.ready)
    unfold prtTaskYield
    split
    . exact ⟨Reordered.refl h _,fun _ => rfl⟩
    split
    . exact ⟨Reordered.refl h _,fun _ => rfl⟩
    rename_i hlow hmax
    obtain ⟨hre,hs⟩ := osTaskYield_reordered (c:=c) h core taskPrio nextTask yieldTo
      (fun hnull hlen hprio hst => by
        by_contra hcore
        exact hforeign ⟨by omega,hnull,by omega,hlen,hprio,hst,hcore⟩)
    exact ⟨hre,fun hne => congrArg ready (hs hne)⟩

def twoCores : RunQs :=
  let s := init ⟨4,2,32⟩ fun t => ⟨{},5,if t=2 then 1 else 0,3,2⟩
  let s := ((s.osTskReadyAdd 0).osTskReadyAdd 1).osTskReadyAdd 2
  (s.osPickNextTaskRtSingle 0).getD s

lemma twoCores_homed : twoCores.Homed := by
  have hinit : (init ⟨4,2,32⟩ fun t => ⟨{},5,if t=2 then 1 else 0,3,2⟩).Queued ⟨4,2,32⟩ := by
    have hnew : Tcb.tst {} osTskReady=false := by decide
    exact queued_init fun t => ⟨rfl,hnew,(by decide : (5 : Nat)<32)⟩
  have hadded := ((hinit.readyAdd 0).readyAdd 1).readyAdd 2
  have hq : twoCores.Queued ⟨4,2,32⟩ := by
    simp only [twoCores]
    generalize osTskReadyAdd (osTskReadyAdd (osTskReadyAdd _ 0) 1) 2=s at hadded
    cases hpick : s.osPickNextTaskRtSingle 0 with
    | none => exact hadded
    | some s' => exact hadded.pick hpick
  intro t ht
  rw [← hq.ready] at ht
  exact hq.toLinked.loc_on ht

theorem yield_keeps_own :
    twoCores.Reordered ⟨4,2,32⟩ (twoCores.yieldCall ⟨4,2,32⟩ 0 (.yield 5 1 true)).state (0,5) ∧
    (twoCores.yieldCall ⟨4,2,32⟩ 0 (.yield 5 1 true)).state.ready.lists (0,5)=[1,0] := by
  have hown : ¬twoCores.Foreign ⟨4,2,32⟩ 0 (.yield 5 1 true) :=
    fun h => absurd h.2.2.2.2.2.2 (by decide +kernel)
  exact ⟨((yield_keeps_iff twoCores_homed 0 (.yield 5 1 true)).mpr hown).1,by decide +kernel⟩

/-- Naming the task of core 1 takes it off its queue, which goes on counting it. -/
theorem yield_takes_foreign :
    let s := (twoCores.yieldCall ⟨4,2,32⟩ 0 (.yield 5 2 true)).state
    (twoCores.yieldCall ⟨4,2,32⟩ 0 (.yield 5 2 true)).ret=.osOk ∧
    (s.tcb 2).coreID=1 ∧ s.ready.lists (0,5)=[2,0,1] ∧ s.ready.lists (1,5)=[] ∧
    (s.rq 0).nrRunning=2 ∧ (s.rq 1).nrRunning=1 := by
  decide +kernel

end Yield

end RunQs

end UniProton
