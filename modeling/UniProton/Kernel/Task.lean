import UniProton.Kernel.Schedule

namespace UniProton

open Framework

/-- `struct TskInitParam`; `taskEntry` tells whether the entry pointer is set, and a
`stackAddr` of zero asks the kernel for the stack. -/
structure TskInitParam where
  taskEntry : Bool
  taskPrio : Nat
  stackSize : Nat
  stackAddr : Nat
  name : Option String

def osTskStackSizeAlign : Nat := 16

def osTaskCreateParaCheck (cfg : Cfg) (p : TskInitParam) : Errno :=
  let size := if p.stackSize=0 then cfg.stackDefault else p.stackSize
  if p.taskEntry=false then .tskEntryNull
  else if size%osTskStackSizeAlign≠0 then .tskStkszNotAlign
  else if p.stackAddr%osTskStackSizeAlign≠0 then .tskStackaddrNotAlign
  else if size<cfg.stackMin then .tskStkszTooSmall
  else if p.stackAddr≠0 ∧ (p.stackAddr+size)%2^64<p.stackAddr then .tskStackaddrTooBig
  else if cfg.prioLowest<p.taskPrio then .tskPriorError
  else if p.name=none ∨ p.name=some "" then .tskNameEmpty
  else .osOk

/-- The part of `OsTskCreateTcbInit` and `OsTaskCreateOnly` that fills the control block. -/
def osTskCreateTcbInit (prio : Nat) (c : TskCb) : TskCb :=
  {c with
    taskPend := none
    priority := prio
    origPriority := prio
    event := 0
    eventMask := 0
    sigMask := 0
    sigWaitMask := 0
    sigPending := 0
    sigInfoList := []
    taskStatus := {inuse:=true, suspend:=true}}

namespace Sched

variable (s : Sched)

def osTskRecycleLoop : Nat → Sched → Sched
  | 0, s => s
  | n+1, s =>
    match s.pend.lists .recycle with
    | [] => s
    | t::_ => osTskRecycleLoop n ((s.pendDelete t).pendTailAdd t .free)

/-- Control blocks of tasks that deleted themselves go back to the free list. -/
def osTskRecycle : Sched := osTskRecycleLoop (s.pend.lists .recycle).length s

def suspendTask (t : Nat) : Sched :=
  (if (s.status t).ready then s.osTskReadyDel t else s).modStatus t fun b =>
    {b with suspend:=true}

def prtTaskSuspend (t : Nat) : Sched×Errno :=
  if t=s.cpu.idleTaskId then (s,.tskOperateIdle)
  else if s.pidOverflow t then (s,.tskIdInvalid)
  else if (s.status t).unused then (s,.tskNotCreated)
  else if (s.status t).suspend then (s,.tskAlreadySuspended)
  else if (s.status t).running ∧ s.cpu.uniTaskLock≠0 then (s,.tskSuspendLocked)
  else
    let s := s.suspendTask t
    if (s.status t).running then (s.osTskScheduleFastPs,.osOk) else (s,.osOk)

def delayIntEnd (t : Nat) : Sched :=
  if (s.status t).delayInterruptible then
    (s.timeoutClear t).modStatus t fun b => {b with delayInterruptible:=false}
  else s

def osMoveTaskToReady (t : Nat) : Sched :=
  let s := s.delayIntEnd t
  if (s.status t).block then s
  else
    let s := (s.osTskReadyAdd t).kthreadStateSet t .running
    if s.cpu.bgdActive then s.osTskSchedule else s

def prtTaskResume (t : Nat) : Sched×Errno :=
  if s.pidOverflow t then (s,.tskIdInvalid)
  else if (s.status t).unused then (s,.tskNotCreated)
  else if (s.status t).running ∧ s.cpu.uniTaskLock≠0 then (s,.tskActiveFailed)
  else if !(s.status t).suspend && !(s.status t).delayInterruptible then (s,.tskNotSuspended)
  else ((s.modStatus t fun b => {b with suspend:=false}).osMoveTaskToReady t,.osOk)

/-- `OsTaskYield` as `PRT_TaskDelay` calls it: no particular successor is asked for. -/
def osTaskYield (prio : Nat) : Sched×Errno :=
  match s.readyList prio with
  | t::_::_ =>
    let s := (s.osTskReadyDel t).osTskReadyAdd t
    if (s.status t).running then (s.osTskScheduleFast,.osOk) else (s,.osOk)
  | _ => (s,.tskYieldNotEnoughTask)

/-- `UNI_FLAG` is never zero after `OsTskInit` has set the switch-hook flag, so its test is left
out. -/
def prtTaskDelay (tick : Nat) : Sched×Errno :=
  let run := s.cpu.runningTask
  if s.cpu.intActive then (s,.tskDelayInInt)
  else if s.cpu.uniTaskLock≠0 then (s,.tskDelayInLock)
  else if 0<tick then
    let s := (s.osTskReadyDel run).modStatus run fun b => {b with delay:=true}
    ((s.osTskTimerAdd run tick).osTskScheduleFastPs,.osOk)
  else s.osTaskYield (s.tcb run).priority

/-- `g_uniTaskLock` is 16 bits wide. -/
def prtTaskLock : Sched :=
  {s with cpu := {s.cpu with
      tskReq := if s.cpu.uniTaskLock=0 then false else s.cpu.tskReq
      uniTaskLock := (s.cpu.uniTaskLock+1)%2^16}}

def prtTaskUnlock : Sched×Errno :=
  if s.cpu.uniTaskLock=1 then
    let s := {s with cpu:={s.cpu with uniTaskLock:=0}}
    (if s.cpu.bgdActive then s.osTskScheduleFastPs else s,.osOk)
  else if 1<s.cpu.uniTaskLock then
    ({s with cpu:={s.cpu with uniTaskLock:=s.cpu.uniTaskLock-1}},.osOk)
  else (s,.tskUnlockNoLock)

/-- A held mutex is only reported, not refused. -/
def osTaskDelStatusCheck (t : Nat) : Errno :=
  if t=s.cpu.runningTask ∧ s.cpu.uniTaskLock≠0 then .tskDeleteLocked
  else if (s.status t).queueBusy then .tskQueueDoing
  else .osOk

def osTaskDeleteResInit (t : Nat) : Sched :=
  let b := s.status t
  let s := if b.pend || b.queuePend || b.rwPend then s.pendDelete t else s
  let s := if b.delay || b.timeout then s.timerDelete t else s
  let s := if b.ready then s.osTskReadyDel t else s
  let s := if b.waitqueuePend then s.waitDelete t else s
  s.modStatus t fun b => {b with suspend:=false}

/-- The running task leaves its control block on the recycle list and the zombie in its place. -/
def zombieInPlace (t : Nat) : Sched :=
  let s := s.pendTailAdd t .recycle
  let s := s.modTcb s.zombie fun c => {c with taskPid:=t, taskStatus:=s.status t}
  let s := s.modStatus t fun _ => {}
  {s with cpu:={s.cpu with tskReq:=true, runningTask:=s.zombie}}

def osTaskDeleteRunning (t : Nat) : Sched :=
  let s := s.zombieInPlace t
  if s.cpu.intActive then s else s.osMainSchedule

def prtTaskDelete (t : Nat) : Sched×Errno :=
  if t=s.cpu.idleTaskId then (s,.tskOperateIdle)
  else if s.pidOverflow t then (s,.tskIdInvalid)
  else
    let s := s.modTcb t fun c => {c with kthreadTsk:=none}
    if (s.status t).unused then (s,.tskNotCreated)
    else if s.osTaskDelStatusCheck t≠.osOk then (s,s.osTaskDelStatusCheck t)
    else
      let s := (s.osTaskDeleteResInit t).osTskHighestSet
      if (s.status t).running then (s.osTaskDeleteRunning t,.osOk)
      else ((s.modStatus t fun _ => {}).pendInsert t .free 0,.osOk)

/-- `OsTskEntry` behind the return of the task's entry function: the lock is dropped and the task
deletes itself. -/
def osTaskExit : Sched×Errno :=
  {s with cpu:={s.cpu with uniTaskLock:=0}}.prtTaskDelete s.cpu.runningTask

/-- `OsFirstTimeSwitch`; the request that `OsActivate` raised stays. -/
def osFirstTimeSwitch : Sched :=
  let s := s.osTskHighestSet
  match s.highestTask with
  | none => {s with cpu:={s.cpu with crashed:=true}}
  | some t =>
    {s with cpu:={s.cpu with runningTask:=t}}.modStatus t fun b =>
      {b with running:=true}

end Sched

namespace Kernel

variable (k : Kernel)

def onSched (f : Sched → Sched) : Kernel := {k with sched:=f k.sched}

def takeTcb (s : Sched) (t : Nat) (kthread : Bool) : Sched :=
  (s.pendDelete t).modTcb t fun c =>
    {c with kthreadTsk:=if kthread then some .uninterruptible else c.kthreadTsk}

/-- `OsTaskCreateOnly`; `memOk` is the allocator's answer for the stack, `kthread` the bookkeeping
of `kthread_create_on_node`. The list of held mutexes starts empty. -/
def osTaskCreateOnly (p : TskInitParam) (memOk kthread : Bool) : Kernel×Except Errno Nat :=
  let e := osTaskCreateParaCheck k.sched.cfg p
  if e≠.osOk then (k,.error e)
  else
    let s := k.sched.osTskRecycle
    match s.pend.lists .free with
    | [] => ({k with sched:=s},.error .tskTcbUnavailable)
    | t::_ =>
      let s := takeTcb s t kthread
      if p.stackAddr=0 ∧ memOk=false then
        ({k with sched:=s.pendInsert t .free 0},.error .tskNoMemory)
      else
        let s := ((s.timerInit t).modTcb t (osTskCreateTcbInit p.taskPrio)).setCont t .user
        ({k with sched:=s, semB:=k.semB.clear t},.ok t)

/-- `OsActivate` up to the first task: the idle task is created and resumed at the lowest
priority. -/
def osActivate (memOk : Bool) : Kernel×Errno :=
  let p : TskInitParam := ⟨true,k.sched.cfg.prioLowest,k.sched.cfg.idleStackSize,0,some "IdleTask"⟩
  match k.osTaskCreateOnly p memOk false with
  | (k,.error e) => (k,e)
  | (k,.ok t) =>
    let s := (k.sched.prtTaskResume t).1
    let s := {s with cpu:={s.cpu with idleTaskId:=t}}.osTskHighestSet
    let s := {s with cpu:={s.cpu with bgdActive:=true, tskReq:=true}}
    ({k with sched:=s.osFirstTimeSwitch},.osOk)

end Kernel

end UniProton
