import UniProton.Kernel.Task

namespace UniProton

open Framework Function

namespace Kernel

variable (k : Kernel)

def modSem (i : Nat) (f : SemCb → SemCb) : Kernel :=
  {k with sems:=update k.sems i (f (k.sems i))}

def priority (t : Nat) : Nat := (k.sched.tcb t).priority

def semList (i : Nat) : List Nat := k.sched.pend.lists (.sem i)

def semBTailAdd (i t : Nat) : Kernel :=
  {k with
    semB := k.semB.insert i t (k.semB.lists t).length
    sched := {k.sched with
      faults := if k.semB.linked i then .addLinked .semBList::k.sched.faults
        else k.sched.faults}}

def semBDelete (i : Nat) : Kernel :=
  {k with
    semB := k.semB.delete i
    sched := {k.sched with
      faults := if k.semB.linked i then k.sched.faults
        else .deleteUnlinked .semBList::k.sched.faults}}

def logSem (i : Nat) (e : SemEvent) : Kernel :=
  {k with semLog:=update k.semLog i (e::k.semLog i)}

/-- Queue a task on a semaphore, and stamp it with the time. -/
def semInsert (t i pos : Nat) : Kernel :=
  {k with
    sched := k.sched.pendInsert t (.sem i) pos
    queuedAt := update k.queuedAt t k.clock
    clock := k.clock+1}

/-- Place in front of the first waiting task of a lower priority. -/
def priorPos (t i : Nat) : Nat := (k.semList i).findIdx fun u => k.priority t<k.priority u

def osSemPostErrorCheck (i : Nat) : Errno :=
  let sem := k.sems i
  if sem.used=false then .semInvalid
  else if sem.semType.isBin then
    if k.sched.cpu.intActive then .semMutexPostInterr
    else if sem.semOwner≠(k.sched.tcb k.sched.cpu.runningTask).taskPid then
      .semMutexNotOwnerPost
    else .osOk
  else if osSemCountMax ≤ sem.semCount then .semOverflow
  else .osOk

/-- The most urgent priority among `bound` and the first waiting task of every held mutex. -/
def osGetPendTskMaxPriority (t bound : Nat) : Nat :=
  (k.semB.lists t).foldl (fun cur i =>
    match k.semList i with
    | [] => cur
    | u::_ => if k.priority u<cur then k.priority u else cur) bound

def osCheckPrioritySet (t prio : Nat) : Errno :=
  let c := k.sched.tcb t
  if c.origPriority≠c.priority then .tskPriorityInherit
  else
    let held := if k.semB.lists t=[] then .osOk
      else if k.osGetPendTskMaxPriority t c.origPriority<prio then .tskPriorLowerThanPendtsk
      else .osOk
    match c.taskStatus.pend, c.taskPend with
    | true, some (.sem i) =>
      if (k.sems i).semType.isBin then .tskPendMutex
      else if (k.sems i).semMode=.prior then .tskPendPrior
      else held
    | _, _ => held

def osResortSemList (t i : Nat) : Kernel :=
  let k := k.onSched fun s => s.pendDelete t
  k.semInsert t i (k.priorPos t i)

def setPriority (t prio : Nat) : Kernel :=
  k.onSched fun s => s.modTcb t fun c => {c with priority:=prio}

/-- The walk of `OsPriorityInherit` along the owners from `o`, up to one that is urgent enough. -/
def osPriorityInheritLoop : Nat → Kernel → Nat → Nat → Kernel
  | 0, k, _, _ => k
  | n+1, k, o, new =>
    if k.priority o≤new then k
    else if (k.sched.status o).ready then
      k.onSched fun s =>
        ((s.osTskReadyDel o).modTcb o fun c => {c with priority:=new}).osTskReadyAdd o
    else
      let k := k.setPriority o new
      match (k.sched.status o).pend, (k.sched.tcb o).taskPend with
      | true, some (.sem i) =>
        let k := if (k.sems i).semMode=.prior then k.osResortSemList o i else k
        if (k.sems i).semType.isBin then osPriorityInheritLoop n k (k.sems i).semOwner new
        else k
      | _, _ => k

/-- The owner chain gets the priority of the task that waits. -/
def osPriorityInherit (i run : Nat) : Kernel :=
  if (k.sems i).semType.isBin then
    osPriorityInheritLoop (k.sched.cfg.tskMaxNum+2) k (k.sems i).semOwner (k.priority run)
  else k

def osPriorityRestore : Kernel×Bool :=
  let run := k.sched.cpu.runningTask
  let c := k.sched.tcb run
  if c.priority=c.origPriority then (k,false)
  else
    let max := k.osGetPendTskMaxPriority run c.origPriority
    if max=c.priority then (k,false)
    else
      let s := (k.sched.osTskReadyDel run).modTcb run fun c => {c with priority:=max}
      ({k with sched:=s.readyAddUnlessSuspend run},true)

def osSemBlock (i timeOut : Nat) : Kernel :=
  let run := k.sched.cpu.runningTask
  let k := k.onSched fun s => (s.osTskReadyDel run).modTcb run fun c =>
    {c with taskPend:=some (.sem i), taskStatus:={c.taskStatus with pend:=true}}
  let pos := if (k.sems i).semMode=.prior then k.priorPos run i else (k.semList i).length
  (k.semInsert run i pos).onSched fun s => s.timeoutSet run timeOut

def osSemPendListPut (i timeOut : Nat) : Kernel :=
  (k.osSemBlock i timeOut).osPriorityInherit i k.sched.cpu.runningTask

/-- The waking part of `OsSemPendListGet`, for the first waiting task. -/
def osSemWake (s : Sched) (t : Nat) : Sched :=
  let s := (s.pendDelete t).timeoutClear t
  let s := s.modTcb t fun c =>
    {c with taskPend:=none, taskStatus:={c.taskStatus with pend:=false}}
  s.readyAddUnlessSuspend t

/-- The first waiting task gets the semaphore, and the caller its own priority back. -/
def osSemPendListGet (i : Nat) : Kernel :=
  match k.semList i with
  | [] => k
  | t::_ =>
    let k := k.onSched fun s => osSemWake s t
    let k := (k.modSem i fun c => {c with semOwner:=(k.sched.tcb t).taskPid}).logSem i
      (.acquired t)
    if (k.sems i).semType.isBin then ((k.semBDelete i).semBTailAdd i t).osPriorityRestore.1
    else k

def osSemPendParaCheck (timeout : Nat) : Errno :=
  if timeout=0 then .semUnavailable
  else if k.sched.cpu.uniTaskLock≠0 then .semPendInLock
  else .osOk

/-- `some` when the semaphore is taken without waiting; `recurCount` is 32 bits wide. -/
def osSemPendNotNeedSche (i : Nat) : Option Kernel :=
  let run := k.sched.cpu.runningTask
  let pid := (k.sched.tcb run).taskPid
  let sem := k.sems i
  if sem.semType.isRecur ∧ sem.semOwner=pid then
    some ((k.modSem i fun c => {c with recurCount:=(c.recurCount+1)%2^32}).logSem i
      (.reentered run))
  else if 0<sem.semCount then
    let k := (k.modSem i fun c => {c with semCount:=c.semCount-1, semOwner:=pid}).logSem i
      (.acquired run)
    some (if sem.semType.isBin then k.semBTailAdd i run else k)
  else none

/-- A call that blocks gives no error code; only a timed wait has something left to do. -/
def prtSemPend (i timeout : Nat) : Kernel×Option Errno :=
  if k.sched.cfg.maxSem ≤ i then (k,some .semInvalid)
  else if (k.sems i).used=false then (k,some .semInvalid)
  else if k.sched.cpu.intActive then (k,some .semPendInterr)
  else
    match k.osSemPendNotNeedSche i with
    | some k => (k,some .osOk)
    | none =>
      if k.osSemPendParaCheck timeout≠.osOk then (k,some (k.osSemPendParaCheck timeout))
      else
        let c := if timeout=osWaitForever then .user else .semPend
        let k := k.onSched fun s => s.setCont s.cpu.runningTask c
        ((k.osSemPendListPut i timeout).onSched fun s => s.osTskSchedule,none)

/-- `PRT_SemPend` of a timed wait behind its `OsTskSchedule`. -/
def semPendCont : Kernel×Option Errno :=
  let run := k.sched.cpu.runningTask
  let k := k.onSched fun s => s.setCont run .user
  if (k.sched.status run).timeout then
    (k.onSched fun s => s.modStatus run fun b => {b with timeout:=false},some .semTimeout)
  else (k.onSched fun s => s.osTskScheduleFastPs,some .osOk)

/-- `some` when the post ends here: a nested pend is undone, or the mutex is free already. -/
def osSemPostIsInvalid (i : Nat) : Option Kernel :=
  let sem := k.sems i
  if sem.semType.isRecur ∧ 0<sem.recurCount then
    some ((k.modSem i fun c => {c with recurCount:=c.recurCount-1}).logSem i
      (.posted k.sched.cpu.runningTask))
  else if sem.semType.isBin ∧ sem.semCount=osSemFull then some k
  else none

def prtSemPost (i : Nat) : Kernel×Errno :=
  if k.sched.cfg.maxSem ≤ i then (k,.semInvalid)
  else if k.osSemPostErrorCheck i≠.osOk then (k,k.osSemPostErrorCheck i)
  else
    match k.osSemPostIsInvalid i with
    | some k => (k,.osOk)
    | none =>
      let k := k.logSem i (.posted k.sched.cpu.runningTask)
      if k.semList i≠[] then
        ((k.osSemPendListGet i).onSched fun s => s.osTskScheduleFastPs,.osOk)
      else
        let k := k.modSem i fun c =>
          {c with semCount:=(c.semCount+1)%2^32, semOwner:=osInvalidOwnerId}
        if (k.sems i).semType.isBin then
          match (k.semBDelete i).osPriorityRestore with
          | (k,true) => (k.onSched fun s => s.osTskSchedule,.osOk)
          | (k,false) => (k,.osOk)
        else (k,.osOk)

def osSemCreate (count : Nat) (semType : SemType) (semMode : SemMode) : Kernel×Errno :=
  match k.unusedSem with
  | [] => (k,.semAllBusy)
  | i::rest =>
    let k := k.modSem i fun c =>
      {c with
        semCount := count
        used := true
        semMode := semMode
        semType := semType
        semOwner := osInvalidOwnerId
        recurCount := if semType.isBin then 0 else c.recurCount}
    ({k with unusedSem:=rest, semLog:=update k.semLog i [.created count]},.osOk)

def prtSemCreate (count : Nat) : Kernel×Errno :=
  if osSemCountMax<count then (k,.semOverflow) else k.osSemCreate count .count .fifo

def prtSemMutexCreate : Kernel×Errno := k.osSemCreate osSemFull (.bin true) .prior

def prtSemDelete (i : Nat) : Kernel×Errno :=
  if k.sched.cfg.maxSem ≤ i then (k,.semInvalid)
  else if (k.sems i).used=false then (k,.semInvalid)
  else if k.semList i≠[] then (k,.semPended)
  else if (k.sems i).semOwner≠osInvalidOwnerId ∧ (k.sems i).semType.isBin then
    (k,.semMutexHolding)
  else
    let k := k.modSem i fun c => {c with used:=false}
    ({k with unusedSem:=i::k.unusedSem},.osOk)

def osTaskPrioritySetCheck (t prio : Nat) : Errno :=
  if k.sched.cfg.prioLowest<prio then .tskPriorError
  else if k.sched.pidOverflow t then .tskIdInvalid
  else if t=k.sched.cpu.idleTaskId then .tskOperateIdle
  else .osOk

def prtTaskSetPriority (t prio : Nat) : Kernel×Errno :=
  if k.osTaskPrioritySetCheck t prio≠.osOk then (k,k.osTaskPrioritySetCheck t prio)
  else if (k.sched.status t).unused then (k,.tskNotCreated)
  else if k.osCheckPrioritySet t prio≠.osOk then (k,k.osCheckPrioritySet t prio)
  else if (k.sched.status t).ready then
    (k.onSched fun s =>
      let s := (s.osTskReadyDel t).modTcb t fun c => {c with priority:=prio}
      ((s.osTskReadyAdd t).modTcb t fun c => {c with origPriority:=prio}).osTskSchedule,.osOk)
  else
    (k.onSched fun s => s.modTcb t fun c => {c with priority:=prio, origPriority:=prio},.osOk)

end Kernel

end UniProton
