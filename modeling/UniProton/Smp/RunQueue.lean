import UniProton.Framework.PrioBits
import UniProton.Smp.Sleep

namespace UniProton

open Framework Function

def Smp.osTskRunning : BitVec 32 := 0x0080

open Smp

/-- The fields of `struct TagTskCb` that place a task on a core. -/
structure RqTcb extends Smp.Tcb where
  priority : Nat
  coreID : Nat
  coreAllowedMask : BitVec 32
  nrCoresAllowed : Nat
  deriving DecidableEq

/-- `struct TagOsRunQue` without its lists. Of `uniFlag` there are `OS_INT_ACTIVE_MASK` and
`OS_FLG_BGD_ACTIVE`. -/
structure RunQue where
  tskCurr : Nat
  needReschedule : Bool
  nrRunning : Nat
  currntPrio : Nat
  readyPrioBit : Nat → BitVec 32
  uniTaskLock : Nat
  intActive : Bool
  bgdActive : Bool

/-- The limits of a build; `OS_TSK_PRIORITY_LOWEST` is the last priority. -/
structure RqCfg where
  tskMaxNum : Nat
  maxNumOfCores : Nat
  numOfPriorities : Nat

def RqCfg.osTskPriorityLowest (c : RqCfg) : Nat := c.numOfPriorities-1

/-- `g_runQueue` with the tasks. The list of a core and a priority is `ready.lists (core, prio)`, a
task is in it by its `pendList`. -/
structure RunQs where
  tcb : Nat → RqTcb
  rq : Nat → RunQue
  ready : Links (Nat×Nat) Nat

/-- The place of the rightmost bit by `CLZ`. -/
def osGetRMB (bit : BitVec 32) : Nat := 32-leadingOne (bit-1#32 ^^^ bit)-1

lemma osGetRMB_eq (bit : BitVec 32) : osGetRMB bit=trailingOne bit :=
  sub_leadingOne_eq bit (by decide)

def osFindHighestPri (c : RqCfg) (priArray : Nat → BitVec 32) (size : Nat) : Nat :=
  match (List.range size).find? fun loop => decide (priArray loop≠0) with
  | some loop => osGetRMB (priArray loop)+32*loop
  | none => c.numOfPriorities

namespace RunQue

variable (c : RqCfg) (q : RunQue) (prio : Nat)

def setBit : RunQue := {q with readyPrioBit:=bitSet q.readyPrioBit prio}

def clearBit : RunQue := {q with readyPrioBit:=bitClear q.readyPrioBit prio}

def raise (head : Bool) : RunQue :=
  if prio<q.currntPrio then {q with currntPrio:=prio, needReschedule:=true}
  else if head ∧ q.currntPrio=prio then {q with needReschedule:=true}
  else q

def lower : RunQue :=
  if prio≤q.currntPrio then
    {q with
      currntPrio := osFindHighestPri c q.readyPrioBit ((c.numOfPriorities+31)/32)
      needReschedule := true}
  else q

def osIncNrRunning : RunQue := {q with nrRunning:=q.nrRunning+1}

def osDecNrRunning : RunQue := {q with nrRunning:=q.nrRunning-1}

def osRescheduleCurr : RunQue := {q with needReschedule:=true}

def enter : RunQue := ((q.setBit prio).raise prio false).osIncNrRunning

def leave (empty : Bool) : RunQue :=
  ((if empty then q.clearBit prio else q).lower c prio).osDecNrRunning

end RunQue

namespace RunQs

variable (c : RqCfg) (s : RunQs)

def modTcb (t : Nat) (f : RqTcb → RqTcb) : RunQs := {s with tcb:=update s.tcb t (f (s.tcb t))}

def modRq (core : Nat) (f : RunQue → RunQue) : RunQs :=
  {s with rq:=update s.rq core (f (s.rq core))}

def statusSet (t : Nat) (mask : BitVec 32) : RunQs :=
  s.modTcb t fun b => {b with toTcb:=b.toTcb.set mask}

def statusClear (t : Nat) (mask : BitVec 32) : RunQs :=
  s.modTcb t fun b => {b with toTcb:=b.toTcb.clear mask}

def setOnRq (t : Nat) (b : Bool) : RunQs :=
  s.modTcb t fun d => {d with toTcb:={d.toTcb with isOnRq:=b}}

def osEnqueueReadyListOnly (core t : Nat) (head : Bool) : RunQs :=
  let prio := (s.tcb t).priority
  let pos := if head then 0 else (s.ready.lists (core,prio)).length
  {s with ready:=s.ready.insert t (core,prio) pos}.modRq core (·.setBit prio)

def osDequeueReadyListOnly (core t : Nat) : RunQs :=
  let prio := (s.tcb t).priority
  let s := {s with ready:=s.ready.delete t}
  s.modRq core fun q => if (s.ready.lists (core,prio)).isEmpty then q.clearBit prio else q

def osEnqueueTaskRtSingle (core t : Nat) (head : Bool) : RunQs :=
  (s.osEnqueueReadyListOnly core t head).modRq core (·.raise (s.tcb t).priority head)

def osDequeueTaskRtSingle (core t : Nat) : RunQs :=
  (s.osDequeueReadyListOnly core t).modRq core (·.lower c (s.tcb t).priority)

def osEnqueueTask (core t : Nat) (head : Bool) : RunQs :=
  (s.osEnqueueTaskRtSingle core t head).setOnRq t true

def osDequeueTask (core t : Nat) : RunQs := (s.osDequeueTaskRtSingle c core t).setOnRq t false

def osDeactiveTask (core t : Nat) : RunQs :=
  if (s.tcb t).isOnRq then (s.osDequeueTask c core t).modRq core (·.osDecNrRunning) else s

def osTskReadyAddOnly (t : Nat) : RunQs :=
  let core := (s.tcb t).coreID
  let s := s.statusSet t osTskReady
  if (s.tcb t).isOnRq then s else (s.osEnqueueTask core t false).modRq core (·.osIncNrRunning)

/-- `OsReschedTask` behind it only interrupts the core of the task. -/
def osTskReadyAdd (t : Nat) : RunQs := s.osTskReadyAddOnly t

def osTskReadyDel (t : Nat) : RunQs :=
  let s := s.statusClear t osTskReady
  let core := (s.tcb t).coreID
  if (s.tcb t).isOnRq then (s.osDequeueTask c core t).modRq core (·.osDecNrRunning) else s

/-- What happens to the queue before the core of the task is waited for. -/
def osTskReadyDelSync (t : Nat) : RunQs :=
  let core := (s.tcb t).coreID
  let s := s.statusClear t osTskReady
  if (s.tcb t).tst osTskRunning ∨ t=(s.rq core).tskCurr then
    (s.osDeactiveTask c core t).modRq core (·.osRescheduleCurr)
  else s.osDeactiveTask c core t

/-- The change of a priority in `PRT_TaskSetPriority` and in `OsPriorityInherit`. -/
def changePriority (t prio : Nat) : RunQs :=
  let set (s : RunQs) := s.modTcb t fun b => {b with priority:=prio}
  if (s.tcb t).tst osTskReady then (set (s.osTskReadyDel c t)).osTskReadyAdd t else set s

/-- `none` is a read of the head of an empty list. -/
def osNextReadyRtTaskSingle (core : Nat) : Option Nat :=
  (s.ready.lists (core,(s.rq core).currntPrio)).head?

/-- The first part of a pick: the task that ran is not marked as running any more. -/
def dropCurr (core : Nat) : RunQs :=
  let s := s.modRq core fun q => {q with needReschedule:=false}
  let curr := (s.rq core).tskCurr
  if core=(s.tcb curr).coreID then s.statusClear curr osTskRunning else s

def osPickNextTaskRtSingle (core : Nat) : Option RunQs :=
  let s := s.dropCurr core
  (s.osNextReadyRtTaskSingle core).map fun task =>
    (s.modRq core fun q => {q with tskCurr:=task}).statusSet task osTskRunning

/-- After `OsSchedRunQueInit` and `OsTskSMPInit`: no task is ready, every core runs the zombie. -/
def init (tcb : Nat → RqTcb) : RunQs where
  tcb := tcb
  rq _ := ⟨c.tskMaxNum+c.maxNumOfCores,false,0,c.numOfPriorities,fun _ => 0,0,false,false⟩
  ready := Links.empty

/-- What can happen to the run queues while the tasks stay on their cores. -/
inductive Op where
  | readyAdd (t : Nat)
  | readyDel (t : Nat)
  | readyDelSync (t : Nat)
  | changePriority (t prio : Nat)
  | pick (core : Nat)

/-- A priority above `OS_TSK_PRIORITY_LOWEST` is refused. -/
def exec : Op → Option RunQs
  | .readyAdd t => some (s.osTskReadyAdd t)
  | .readyDel t => some (s.osTskReadyDel c t)
  | .readyDelSync t => some (s.osTskReadyDelSync c t)
  | .changePriority t prio =>
    if prio<c.numOfPriorities then some (s.changePriority c t prio) else some s
  | .pick core => s.osPickNextTaskRtSingle core

def linkedOn (core : Nat) : Nat :=
  ∑ p∈Finset.range c.numOfPriorities, (s.ready.lists (core,p)).length

/-- A task is in the list of its own core and priority exactly if it is marked and ready. -/
structure Linked : Prop where
  loc : ∀ t, s.ready.loc t =
    if (s.tcb t).isOnRq then some ((s.tcb t).coreID,(s.tcb t).priority) else none
  ready : ∀ t, (s.tcb t).isOnRq=(s.tcb t).tst osTskReady

/-- The counter and the bitmap of every core agree with its lists. -/
structure Counted : Prop where
  prio : ∀ t, (s.tcb t).priority<c.numOfPriorities
  nrRunning : ∀ core, (s.rq core).nrRunning=s.linkedOn c core
  bits : ∀ core p, bitAt (s.rq core).readyPrioBit p=true ↔ s.ready.lists (core,p)≠[]

/-- `currntPrio` is the first priority that has a task, and its head is running or will be. -/
structure Current : Prop where
  least : ∀ core, ∀ p<(s.rq core).currntPrio, s.ready.lists (core,p)=[]
  attained : ∀ core, (s.rq core).currntPrio=c.numOfPriorities ∨
    (s.rq core).currntPrio<c.numOfPriorities ∧ s.ready.lists (core,(s.rq core).currntPrio)≠[]
  resched : ∀ core t, (s.ready.lists (core,(s.rq core).currntPrio)).head? = some t →
    t≠(s.rq core).tskCurr → (s.rq core).needReschedule=true

section Effects

variable {c s} {t core : Nat}

@[simp] lemma modTcb_rq (f : RqTcb → RqTcb) : (s.modTcb t f).rq=s.rq := rfl

@[simp] lemma modTcb_ready (f : RqTcb → RqTcb) : (s.modTcb t f).ready=s.ready := rfl

@[simp] lemma modTcb_self (f : RqTcb → RqTcb) : (s.modTcb t f).tcb t=f (s.tcb t) := update_self ..

@[simp] lemma modTcb_ne {u : Nat} (f : RqTcb → RqTcb) (h : u≠t) :
    (s.modTcb t f).tcb u=s.tcb u :=
  update_of_ne h _ _

@[simp] lemma modRq_tcb (f : RunQue → RunQue) : (s.modRq core f).tcb=s.tcb := rfl

@[simp] lemma modRq_ready (f : RunQue → RunQue) : (s.modRq core f).ready=s.ready := rfl

@[simp] lemma modRq_self (f : RunQue → RunQue) : (s.modRq core f).rq core=f (s.rq core) :=
  update_self ..

@[simp] lemma modRq_ne {k : Nat} (f : RunQue → RunQue) (h : k≠core) :
    (s.modRq core f).rq k=s.rq k :=
  update_of_ne h _ _

lemma osFindHighestPri_eq (priArray : Nat → BitVec 32) (size : Nat) :
    osFindHighestPri c priArray size=(firstBit priArray size).getD c.numOfPriorities := by
  unfold osFindHighestPri firstBit
  split
  . rename_i loop hloop
    rw [hloop]
    simp [osGetRMB_eq]
  rename_i hnone
  rw [hnone]
  rfl

lemma readyAdd_tcb (s : RunQs) (t : Nat) : (s.osTskReadyAdd t).tcb =
    update s.tcb t {s.tcb t with toTcb:=(s.tcb t).toTcb.readyAdd} := by
  funext u
  unfold osTskReadyAdd osTskReadyAddOnly
  by_cases hu : u=t
  . subst hu
    by_cases h : (s.tcb u).isOnRq=true
    . simp [statusSet,h,Tcb.set,Tcb.readyAdd]
    simp [statusSet,h,Tcb.set,Tcb.readyAdd,osEnqueueTask,setOnRq,
      osEnqueueTaskRtSingle,osEnqueueReadyListOnly]
  by_cases h : (s.tcb t).isOnRq=true
  . simp [statusSet,h,Tcb.set,hu]
  simp [statusSet,h,Tcb.set,hu,osEnqueueTask,setOnRq,osEnqueueTaskRtSingle,osEnqueueReadyListOnly]

lemma readyDel_tcb (s : RunQs) (t : Nat) : (s.osTskReadyDel c t).tcb =
    update s.tcb t {s.tcb t with toTcb:=(s.tcb t).toTcb.readyDel} := by
  funext u
  unfold osTskReadyDel
  by_cases hu : u=t
  . subst hu
    by_cases h : (s.tcb u).isOnRq=true
    . simp [statusClear,h,Tcb.clear,Tcb.readyDel,osDequeueTask,setOnRq,
        osDequeueTaskRtSingle,osDequeueReadyListOnly]
    simp [statusClear,h,Tcb.clear,Tcb.readyDel]
  by_cases h : (s.tcb t).isOnRq=true
  . simp [statusClear,h,Tcb.clear,hu,osDequeueTask,setOnRq,
      osDequeueTaskRtSingle,osDequeueReadyListOnly]
  simp [statusClear,h,Tcb.clear,hu]

lemma readyAdd_on (h : (s.tcb t).isOnRq=true) :
    (s.osTskReadyAdd t).rq=s.rq ∧ (s.osTskReadyAdd t).ready=s.ready := by
  have hset : ((s.statusSet t osTskReady).tcb t).isOnRq=true := by simp [statusSet,Tcb.set,h]
  unfold osTskReadyAdd osTskReadyAddOnly
  rw [if_pos hset]
  exact ⟨rfl,rfl⟩

lemma readyAdd_off (h : (s.tcb t).isOnRq=false) :
    (s.osTskReadyAdd t).rq=update s.rq (s.tcb t).coreID
      ((s.rq (s.tcb t).coreID).enter (s.tcb t).priority) ∧
    (s.osTskReadyAdd t).ready=s.ready.insert t ((s.tcb t).coreID,(s.tcb t).priority)
      (s.ready.lists ((s.tcb t).coreID,(s.tcb t).priority)).length := by
  have hset : ((s.statusSet t osTskReady).tcb t).isOnRq≠true := by simp [statusSet,Tcb.set,h]
  have hprio : ((s.statusSet t osTskReady).tcb t).priority=(s.tcb t).priority := by simp [statusSet]
  unfold osTskReadyAdd osTskReadyAddOnly
  rw [if_neg hset]
  simp only [osEnqueueTask,setOnRq,osEnqueueTaskRtSingle,osEnqueueReadyListOnly,hprio]
  exact ⟨by simp [modRq,modTcb,statusSet,RunQue.enter],rfl⟩

lemma readyDel_off (h : (s.tcb t).isOnRq=false) :
    (s.osTskReadyDel c t).rq=s.rq ∧ (s.osTskReadyDel c t).ready=s.ready := by
  have hset : ((s.statusClear t osTskReady).tcb t).isOnRq≠true := by simp [statusClear,Tcb.clear,h]
  unfold osTskReadyDel
  rw [if_neg hset]
  exact ⟨rfl,rfl⟩

lemma readyDel_on (h : (s.tcb t).isOnRq=true) :
    (s.osTskReadyDel c t).rq=update s.rq (s.tcb t).coreID
      ((s.rq (s.tcb t).coreID).leave c (s.tcb t).priority
        ((s.ready.delete t).lists ((s.tcb t).coreID,(s.tcb t).priority)).isEmpty) ∧
    (s.osTskReadyDel c t).ready=s.ready.delete t := by
  have hset : ((s.statusClear t osTskReady).tcb t).isOnRq=true := by simp [statusClear,Tcb.clear,h]
  have hprio : ((s.statusClear t osTskReady).tcb t).priority=(s.tcb t).priority := by
    simp [statusClear]
  have hcore : ((s.statusClear t osTskReady).tcb t).coreID=(s.tcb t).coreID := by simp [statusClear]
  unfold osTskReadyDel
  rw [if_pos hset,hcore]
  simp only [osDequeueTask,setOnRq,osDequeueTaskRtSingle,osDequeueReadyListOnly,hprio]
  exact ⟨by simp [modRq,modTcb,statusClear,RunQue.leave],rfl⟩

end Effects

end RunQs

end UniProton
