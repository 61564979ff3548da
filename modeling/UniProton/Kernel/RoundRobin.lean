import UniProton.Kernel.ReadyQueue

namespace UniProton

open Framework Kernel Function List

/-- `policy` of a task; the zombie has one of its own. -/
inductive TskPolicy where
  | fifo | rr | zombie deriving DecidableEq

/-- The fields of a control block that `OS_OPTION_RR_SCHED` adds. -/
structure RrCb where
  policy : TskPolicy
  startTime : Nat
  timeSlice : Nat
  irqUsedTime : Nat
  deriving DecidableEq

/-- The amount subtracted is at most the 32-bit `timeSlice`, so its cast loses nothing. -/
def RrCb.osTimeSliceUpdate (c : RrCb) (currTime nonTskTime : Nat) : RrCb :=
  let incTime := currTime-c.startTime
  if currTime≤c.startTime ∨ c.policy≠.rr then {c with startTime:=currTime}
  else if incTime≤nonTskTime then {c with startTime:=currTime}
  else if c.timeSlice < incTime-nonTskTime then {c with startTime:=currTime, timeSlice:=0}
  else {c with startTime:=currTime, timeSlice:=c.timeSlice-(incTime-nonTskTime)}

def RrCb.sliceOver (c : RrCb) (currTime nonTskTime : Nat) : Bool :=
  decide (c.policy=.rr) && (decide (c.timeSlice=0) ||
    decide (c.startTime+nonTskTime<currTime ∧ c.timeSlice≤currTime-c.startTime-nonTskTime))

lemma RrCb.osTimeSliceUpdate_policy (c : RrCb) (currTime nonTskTime : Nat) :
    (c.osTimeSliceUpdate currTime nonTskTime).policy=c.policy := by
  simp only [RrCb.osTimeSliceUpdate]
  split_ifs <;> rfl

lemma RrCb.sliceOver_iff (c : RrCb) (currTime nonTskTime : Nat) :
    c.sliceOver currTime nonTskTime=true ↔
      c.policy=.rr ∧ (c.osTimeSliceUpdate currTime nonTskTime).timeSlice=0 := by
  unfold RrCb.sliceOver RrCb.osTimeSliceUpdate
  simp only [Bool.and_eq_true,Bool.or_eq_true,decide_eq_true_eq]
  refine and_congr_right fun hp => ?_
  simp only [hp,ne_eq,not_true_eq_false,or_false]
  split_ifs <;> dsimp only <;> omega

/-- The task part with round robin; the policy of the zombie is never changed. -/
structure RrSched where
  sched : Sched
  rr : Nat → RrCb
  timeSliceCycle : Nat
  irqTimeDiscount : Bool
  running_le : sched.cpu.runningTask ≤ sched.zombie
  zombie_policy : (rr sched.zombie).policy=.zombie

namespace Sched

variable (s : Sched) (t : Nat)

def requeue : Sched := (s.osTskReadyDel t).osTskReadyAdd t

/-- `OsHwiEndCheckTimeSlice` for a task whose slice is used up. -/
def requeueRunning : Sched :=
  let s := s.requeue s.cpu.runningTask
  if s.highestTask≠some s.cpu.runningTask ∧ s.cpu.uniTaskLock=0 then
    {s with cpu:={s.cpu with tskReq:=true}}
  else s

lemma requeueRunning_cpu : s.requeueRunning.cpu.runningTask=s.cpu.runningTask := by
  simp only [requeueRunning]
  split_ifs <;> rfl

lemma requeueRunning_cfg : s.requeueRunning.cfg=s.cfg := by
  simp only [requeueRunning]
  split_ifs <;> rfl

end Sched

namespace RrSched

variable (r : RrSched)

def running : RrCb := r.rr r.sched.cpu.runningTask

/-- The part of `currTime - startTime` that interrupts have used. -/
def nonTskTime : Nat := if r.irqTimeDiscount then r.running.irqUsedTime else 0

def charged (currTime : Nat) : RrCb :=
  let c := r.running.osTimeSliceUpdate currTime r.nonTskTime
  {c with irqUsedTime:=if r.irqTimeDiscount then 0 else c.irqUsedTime}

lemma charged_policy (currTime : Nat) : (r.charged currTime).policy=r.running.policy :=
  RrCb.osTimeSliceUpdate_policy _ _ _

lemma update_zombie_policy {c : RrCb} (hc : c.policy=r.running.policy) :
    (update r.rr r.sched.cpu.runningTask c r.sched.zombie).policy=.zombie := by
  by_cases hz : r.sched.zombie=r.sched.cpu.runningTask
  . rw [hz,update_self,hc,running,← hz,r.zombie_policy]
  rw [update_of_ne hz,r.zombie_policy]

/-- The check at the tail of an interrupt; `OsTskReadyAdd` gives the task a new slice. -/
def osHwiEndCheckTimeSlice (currTime : Nat) : RrSched :=
  let c := r.charged currTime
  let run := r.sched.cpu.runningTask
  if c.policy≠.rr ∨ c.timeSlice≠0 then
    {r with
      rr := update r.rr run c
      zombie_policy := r.update_zombie_policy (r.charged_policy currTime)}
  else
    {r with
      sched := r.sched.requeueRunning
      rr := update r.rr run {c with timeSlice:=r.timeSliceCycle}
      running_le := by
        rw [r.sched.requeueRunning_cpu,Sched.zombie,r.sched.requeueRunning_cfg]
        exact r.running_le
      zombie_policy := by
        rw [Sched.zombie,r.sched.requeueRunning_cfg]
        exact r.update_zombie_policy (r.charged_policy currTime)}

lemma osHwiEndCheckTimeSlice_sched (currTime : Nat) : (r.osHwiEndCheckTimeSlice currTime).sched =
      if r.running.sliceOver currTime r.nonTskTime then r.sched.requeueRunning else r.sched := by
  have hc := RrCb.sliceOver_iff r.running currTime r.nonTskTime
  have hs : (r.charged currTime).timeSlice =
      (r.running.osTimeSliceUpdate currTime r.nonTskTime).timeSlice := rfl
  unfold osHwiEndCheckTimeSlice
  by_cases ho : r.running.sliceOver currTime r.nonTskTime=true
  . obtain ⟨hp,hz⟩ := hc.mp ho
    rw [if_pos ho,if_neg]
    rintro (h | h)
    . exact h ((r.charged_policy currTime).trans hp)
    exact h (hs.trans hz)
  rw [if_neg ho,if_pos]
  by_contra hn
  push Not at hn
  exact ho (hc.mpr ⟨(r.charged_policy currTime).symm.trans hn.1,hs.symm.trans hn.2⟩)

end RrSched

/-- The ready queue, with the priorities in range. -/
structure RunQueueOk (s : Sched) : Prop extends ReadyQueueOk s where
  range : ∀ t ≤ s.cfg.tskMaxNum, (s.status t).ready=true → (s.tcb t).priority ≤ s.cfg.prioLowest

/-- The running task was moved to the tail of its list, or not at all: only if it is ready, and
without making a task ready. -/
structure RotatesOnly (s s' : Sched) : Prop where
  queue : RunQueueOk s'
  moved : ∀ p, s'.readyList p=s.readyList p ∨
    (s.status s.cpu.runningTask).ready=true ∧ (s.tcb s.cpu.runningTask).priority=p ∧
      s'.readyList p=(s.readyList p).erase s.cpu.runningTask ++ [s.cpu.runningTask]
  ready : ∀ t, (s'.status t).ready=true → (s.status t).ready=true

namespace Sched

variable {s : Sched} {t : Nat}

lemma requeue_status (u : Nat) :
    (s.requeue t).status u = if u=t then {s.status t with ready:=true} else s.status u := by
  change ((s.requeue t).view u).bits=_
  unfold requeue
  rw [osTskReadyAdd_view,osTskReadyDel_view]
  by_cases hu : u=t
  . subst hu
    simp [TaskView.bits,status,view]
  simp [hu,TaskView.bits,status,view]

lemma requeue_priority (u : Nat) : ((s.requeue t).tcb u).priority=(s.tcb u).priority := by
  change ((s.requeue t).view u).tcb.priority=_
  unfold requeue
  rw [osTskReadyAdd_view,osTskReadyDel_view]
  by_cases hu : u=t
  . subst hu
    simp [view]
  simp [hu,view]

lemma requeue_readyList (p : Nat) : (s.requeue t).readyList p =
    if p=(s.tcb t).priority then (s.readyList p).erase t ++ [t] else (s.readyList p).erase t := by
  have hp : (((s.osTskReadyDel t).modStatus t fun b => {b with ready:=true}).tcb t).priority =
      (s.tcb t).priority := by
    simp [osTskReadyDel,osTskHighestSet,osDequeueTaskAmp,pendDelete,modStatus,modTcb]
  change ((s.pend.delete t).insert t (.ready _) _).lists (.ready p)=_
  rw [hp]
  have hn : (s.pend.delete t).loc t=none := by simp
  by_cases he : p=(s.tcb t).priority
  . subst he
    rw [if_pos rfl,Links.insert_lists _ _ _ hn,update_self]
    change insertAt ((s.pend.delete t).lists _).length t ((s.pend.delete t).lists _)=_
    rw [insertAt_length,Links.delete_lists_eq]
    rfl
  rw [if_neg he,Links.insert_lists_ne _ _ _ fun h => he (PendHead.ready.inj h),
    Links.delete_lists_eq]
  rfl

lemma requeue_status_of_ready (ht : (s.status t).ready=true) (u : Nat) :
    (s.requeue t).status u=s.status u := by
  rw [requeue_status]
  split_ifs with hu
  . rw [hu,← ht]
  rfl

lemma bitmap_of_readyQueueOk (h : ReadyQueueOk s) :
    s.runQue.Holds fun p => s.readyList p≠[] where
  child_iff i hi j hj := by
    have hb := h.child (i*32+j) (by omega)
    rwa [show (i*32+j)/32=i by omega,show (i*32+j)%32=j by omega] at hb
  root_iff := h.root

variable (h : RunQueueOk s) (htm : t ≤ s.cfg.tskMaxNum) (ht : (s.status t).ready=true)

include h htm ht

lemma requeue_rqOk : (s.requeue t).RqOk := by
  have hb := bitmap_of_readyQueueOk h.toReadyQueueOk
  have hrq : s.osTskHighestSet.RqOk := ⟨hb,rfl⟩
  have hp : (s.tcb t).priority<32*32 := by
    have := h.range t htm ht
    have := s.cfg.prio_lt
    omega
  have h1 : (s.osTskReadyDel t).RqOk := by
    refine hrq.osTskReadyDel (t:=t) hp fun p hl => ?_
    exact ((h.linked t htm p).mp ((s.pend.mem_iff _ _).mpr hl)).2.symm
  refine h1.osTskReadyAdd ?_ ?_
  . rw [osTskReadyDel_view,update_self]
    rfl
  rw [osTskReadyDel_view,update_self]
  exact hp

lemma mem_requeue_readyList (u p : Nat) : u∈(s.requeue t).readyList p ↔ u∈s.readyList p := by
  have hmem := h.linked t htm p
  rw [requeue_readyList]
  have hnd : (s.readyList p).Nodup := s.pend.nodup _
  split_ifs with hp
  . have htp : t∈s.readyList p := hmem.mpr ⟨ht,hp.symm⟩
    by_cases hu : u=t
    . simp [hu,htp]
    simp [hu]
  rw [hnd.mem_erase_iff]
  have htp : t∉s.readyList p := fun hm => hp (hmem.mp hm).2.symm
  constructor
  . exact And.right
  intro hm
  refine ⟨?_,hm⟩
  rintro rfl
  exact htp hm

lemma requeue_faults : (s.requeue t).faults=[] := by
  have hl : (s.view t).loc=some (.ready (s.tcb t).priority) :=
    (s.pend.mem_iff _ _).mp ((h.linked t htm _).mpr ⟨ht,rfl⟩)
  have h1 : (s.osTskReadyDel t).faults=s.faults := osTskReadyDel_faults (by rw [hl]; rfl)
  have h2 : (s.requeue t).faults=(s.osTskReadyDel t).faults := by
    apply osTskReadyAdd_faults
    rw [osTskReadyDel_view,update_self]
    rfl
  rw [h2,h1,h.faults]

lemma requeue_runQueueOk : RunQueueOk (s.requeue t) where
  linked u hu p := by
    rw [mem_requeue_readyList h htm ht,requeue_status_of_ready ht,requeue_priority]
    exact h.linked u hu p
  once u p hm := by
    have hm' := (mem_requeue_readyList h htm ht u p).mp hm
    exact ⟨(h.once u p hm').1,count_eq_one_of_mem ((s.requeue t).pend.nodup _) hm⟩
  block u hu hr := by
    rw [requeue_status_of_ready ht] at hr ⊢
    exact h.block u hu hr
  child p hp := by
    have hb := (requeue_rqOk h htm ht).bitmap.child_iff (p/32) (by omega) (p%32) (by omega)
    rwa [Nat.div_add_mod' p 32] at hb
  root i hi := (requeue_rqOk h htm ht).bitmap.root_iff i hi
  highest p hp hmin := by
    obtain ⟨u,l,hl⟩ := exists_cons_of_ne_nil hp
    have hu : u∈s.readyList p :=
      (mem_requeue_readyList h htm ht u p).mp (by rw [hl]; exact mem_cons_self)
    have hum := (h.once u p hu).1
    obtain ⟨hur,rfl⟩ := (h.linked u hum p).mp hu
    have hle := h.range u hum hur
    have hlt : (s.tcb u).priority<32*32 := by
      have := s.cfg.prio_lt
      omega
    change ((s.requeue t).readyList (s.requeue t).runQue.first).head? = _
    rw [first_eq_of_holds (requeue_rqOk h htm ht).bitmap hlt hp hmin]
  faults := requeue_faults h htm ht
  range u hu hr := by
    rw [requeue_status_of_ready ht] at hr
    rw [requeue_priority]
    exact h.range u hu hr

end Sched

lemma RunQueueOk.congr_cpu {s : Sched} (h : RunQueueOk s) (c : Cpu) :
    RunQueueOk {s with cpu:=c} :=
  { linked := h.linked, once := h.once, block := h.block, child := h.child, root := h.root
    highest := h.highest, faults := h.faults, range := h.range }

lemma RotatesOnly.refl {s : Sched} (h : RunQueueOk s) : RotatesOnly s s :=
  ⟨h,fun _ => .inl rfl,fun _ => id⟩

namespace Sched

variable {s : Sched}

lemma requeueRunning_eq (s : Sched) :
    ∃ c, s.requeueRunning={s.requeue s.cpu.runningTask with cpu:=c} := by
  simp only [requeueRunning]
  split_ifs
  . exact ⟨_,rfl⟩
  exact ⟨_,rfl⟩

lemma requeueRunning_rotates (h : RunQueueOk s) (htm : s.cpu.runningTask ≤ s.cfg.tskMaxNum)
    (ht : (s.status s.cpu.runningTask).ready=true) : RotatesOnly s s.requeueRunning := by
  obtain ⟨c,hc⟩ := requeueRunning_eq s
  rw [hc]
  refine ⟨(requeue_runQueueOk h htm ht).congr_cpu c,fun p => ?_,fun u hu => ?_⟩
  . change (s.requeue s.cpu.runningTask).readyList p=_ ∨
      _ ∧ _ ∧ (s.requeue s.cpu.runningTask).readyList p=_
    rw [requeue_readyList]
    by_cases hp : p=(s.tcb s.cpu.runningTask).priority
    . rw [if_pos hp]
      exact .inr ⟨ht,hp.symm,rfl⟩
    rw [if_neg hp]
    refine .inl (erase_of_not_mem fun hm => hp ?_)
    exact ((h.linked _ htm p).mp hm).2.symm
  have hu' : ((s.requeue s.cpu.runningTask).status u).ready=true := hu
  rwa [requeue_status_of_ready ht] at hu'

lemma requeueRunning_ready (s : Sched) :
    (s.requeueRunning.status s.cpu.runningTask).ready=true := by
  obtain ⟨c,hc⟩ := requeueRunning_eq s
  rw [hc]
  change ((s.requeue s.cpu.runningTask).status s.cpu.runningTask).ready=true
  rw [requeue_status,if_pos rfl]

end Sched

lemma Sched.Core.runQueueOk {s : Sched} (h : s.Core) (hf : s.faults=[]) : RunQueueOk s where
  toReadyQueueOk := h.readyQueueOk hf
  range t ht _ := by
    obtain ⟨m,hfit,-⟩ := h.tasks t ht
    exact hfit.prio

lemma runQueueOk_of_schedules {cfg : Cfg} {k : Kernel}
    (h : (kernelMachine cfg).Reaches (fun _ i => i.schedules=true) k) : RunQueueOk k.sched := by
  have hf := fine_of_schedules h
  exact hf.core.runQueueOk ((hf.tidy trivial).faults.none trivial)

/-- The check at the end of an interrupt keeps the ready queue exactly when a task whose slice is
used up is still ready. -/
theorem timeSlice_rotates_iff (r : RrSched) (h : RunQueueOk r.sched) (currTime : Nat) :
    RotatesOnly r.sched (r.osHwiEndCheckTimeSlice currTime).sched ↔
      (r.running.sliceOver currTime r.nonTskTime=true →
        (r.sched.status r.sched.cpu.runningTask).ready=true) := by
  rw [r.osHwiEndCheckTimeSlice_sched]
  split_ifs with ho
  . constructor
    . intro hr _
      exact hr.ready _ (Sched.requeueRunning_ready r.sched)
    intro hready
    -- the zombie of a deleted task has no slice
    have hne : r.sched.cpu.runningTask≠r.sched.zombie := by
      intro hz
      have hp := ((RrCb.sliceOver_iff _ _ _).mp ho).1
      rw [RrSched.running,hz,r.zombie_policy] at hp
      cases hp
    have hle := r.running_le
    have htm : r.sched.cpu.runningTask≤r.sched.cfg.tskMaxNum := by
      rw [Sched.zombie] at hne hle
      omega
    exact Sched.requeueRunning_rotates h htm (hready ho)
  exact ⟨fun _ hf => absurd hf ho,fun _ => .refl h⟩

def freshSlices : Nat → RrCb :=
  update (fun _ => ⟨.rr,0,100,0⟩) (smallCfg.tskMaxNum+1) ⟨.zombie,0,0,0⟩

def twoEqualInputs : List Input :=
  [.call (.taskCreate (smallTask 5) true false),.call (.taskResume 0),
   .call (.taskCreate (smallTask 5) true false),.call (.taskResume 1),.activate true,.hwiEnter]

def rrAfter (is : List Input) : Kernel := (kernelMachine smallCfg).run (Kernel.init smallCfg) is

def idleHandler : RrSched where
  sched := (rrAfter twoEqualInputs).sched
  rr := freshSlices
  timeSliceCycle := 100
  irqTimeDiscount := false
  running_le := by decide +kernel
  zombie_policy := by decide +kernel

theorem timeSlice_rotates_two : (idleHandler.osHwiEndCheckTimeSlice 150).sched.readyList 5=[1,0] ∧
      RotatesOnly idleHandler.sched (idleHandler.osHwiEndCheckTimeSlice 150).sched := by
  have hrun : (kernelMachine smallCfg).Reaches (fun _ i => i.schedules=true)
      (rrAfter twoEqualInputs) :=
    Machine.Reaches.run (.start rfl) _ ⟨rfl,rfl,rfl,rfl,rfl,rfl,trivial⟩
  refine ⟨by decide +kernel,?_⟩
  exact (timeSlice_rotates_iff idleHandler (runQueueOk_of_schedules hrun) 150).mpr
    fun _ => by decide +kernel

def suspendingHandler : RrSched where
  sched := (rrAfter (twoEqualInputs++[.call (.taskSuspend 0)])).sched
  rr := freshSlices
  timeSliceCycle := 100
  irqTimeDiscount := false
  running_le := by decide +kernel
  zombie_policy := by decide +kernel

/-- The suspended task has no node to unlink, and is put back into the ready queue. -/
theorem timeSlice_readies_suspended : RunQueueOk suspendingHandler.sched ∧
      (suspendingHandler.sched.status 0).ready=false ∧
      let s := (suspendingHandler.osHwiEndCheckTimeSlice 150).sched
      s.faults=[.deleteUnlinked .pendList] ∧ (s.status 0).suspend=true ∧
        (s.status 0).ready=true ∧ s.readyList 5=[1,0] := by
  have hrun : (kernelMachine smallCfg).Reaches (fun _ i => i.schedules=true)
      (rrAfter (twoEqualInputs++[.call (.taskSuspend 0)])) :=
    Machine.Reaches.run (.start rfl) _ ⟨rfl,rfl,rfl,rfl,rfl,rfl,rfl,trivial⟩
  refine ⟨runQueueOk_of_schedules hrun,?_⟩
  decide +kernel

end UniProton
