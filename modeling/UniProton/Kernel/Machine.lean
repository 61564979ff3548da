import UniProton.Framework.Run
import UniProton.Ipc.Sem
import UniProton.Ipc.Queue
import UniProton.Ipc.Event
import UniProton.Ipc.Rwlock
import UniProton.Ipc.Signal

namespace UniProton

open Framework

/-- The calls that tasks and interrupt handlers make. -/
inductive Call where
  | taskCreate (p : TskInitParam) (memOk kthread : Bool)
  | taskResume (t : Nat)
  | taskSuspend (t : Nat)
  | taskDelete (t : Nat)
  | taskExit
  | taskDelay (tick : Nat)
  | taskLock | taskUnlock
  | taskSetPriority (t prio : Nat)
  | semCreate (count : Nat)
  | mutexCreate (recur : Bool)
  | semDelete (i : Nat)
  | semPend (i timeout : Nat)
  | semPost (i : Nat)
  | queueCreate (nodeNum nodeSize : UInt16) (memOk : Bool)
  | queueDelete (queueId : Nat)
  | queueRead (queueId len timeOut : Nat)
  | queueWrite (queueId : Nat) (data : List UInt8) (timeOut prio : Nat)
  | eventRead (mask flags : BitVec 32) (timeOut : Nat)
  | eventWrite (t : Nat) (events : BitVec 32)
  | rwRead (l timeout : Nat) (try_ : Bool)
  | rwWrite (l timeout : Nat) (try_ : Bool)
  | rwUnlock (l : Nat)
  | setCurrentState (x : KthreadState)
  | scheduleTimeout (timeout : Int)
  | wakeUpProcess (t : Nat)
  | enterWaitQueue (wq : Nat)
  | wakeUp (wq : Nat)
  | signalDeliver (t : Nat) (info : SigInfo) (memOk : Bool)
  | signalWait (set : BitVec 64) (timeOut : Nat)
  | signalMask (how : SigHow) (set : BitVec 64)
  | sigSuspend (mask : BitVec 64)
  | pause

/-- A call of the running code, the rest of a call that the running task was blocked in, the
handling of a held signal, and the interrupt events. -/
inductive Input where
  | call (c : Call)
  | proceed | signalEntry
  | activate (memOk : Bool)
  | hwiEnter | tickIsr | hwiExit | tickScan | tickEnd

namespace Kernel

variable (k : Kernel)

def ofSched (r : Sched×Errno) : Kernel×Option Errno := ({k with sched:=r.1},some r.2)

def ofSchedOpt (r : Sched×Option Errno) : Kernel×Option Errno := ({k with sched:=r.1},r.2)

/-- One call, with its error code unless the task is now blocked in it. -/
def exec : Call → Kernel×Option Errno
  | .taskCreate p memOk kthread =>
    match k.osTaskCreateOnly p memOk kthread with
    | (k,.ok _) => (k,some .osOk)
    | (k,.error e) => (k,some e)
  | .taskResume t => k.ofSched (k.sched.prtTaskResume t)
  | .taskSuspend t => k.ofSched (k.sched.prtTaskSuspend t)
  | .taskDelete t => k.ofSched (k.sched.prtTaskDelete t)
  | .taskExit => k.ofSched k.sched.osTaskExit
  | .taskDelay tick => k.ofSched (k.sched.prtTaskDelay tick)
  | .taskLock => k.ofSched (k.sched.prtTaskLock,.osOk)
  | .taskUnlock => k.ofSched k.sched.prtTaskUnlock
  | .taskSetPriority t prio => let r := k.prtTaskSetPriority t prio; (r.1,some r.2)
  | .semCreate count => let r := k.prtSemCreate count; (r.1,some r.2)
  | .mutexCreate true => let r := k.prtSemMutexCreate; (r.1,some r.2)
  | .mutexCreate false => let r := k.osSemCreate osSemFull (.bin false) .prior; (r.1,some r.2)
  | .semDelete i => let r := k.prtSemDelete i; (r.1,some r.2)
  | .semPend i timeout => k.prtSemPend i timeout
  | .semPost i => let r := k.prtSemPost i; (r.1,some r.2)
  | .queueCreate n size memOk => let r := k.prtQueueCreate n size memOk; (r.1,some r.2)
  | .queueDelete q => let r := k.prtQueueDelete q; (r.1,some r.2)
  | .queueRead q len timeOut => k.prtQueueRead q len timeOut
  | .queueWrite q data timeOut prio => k.prtQueueWrite q data timeOut prio
  | .eventRead mask flags timeOut => k.eventRead mask flags timeOut
  | .eventWrite t events => k.eventWrite t events
  | .rwRead l timeout try_ => k.osRwLockRdPend l timeout try_
  | .rwWrite l timeout try_ => k.osRwLockWrPend l timeout try_
  | .rwUnlock l => let r := k.rwUnlock l; (r.1,some r.2)
  | .setCurrentState x => k.ofSched (k.sched.setCurrentState x,.osOk)
  | .scheduleTimeout timeout => k.ofSched (k.sched.scheduleTimeout timeout,.osOk)
  | .wakeUpProcess t => k.ofSched (k.sched.wakeUpProcess t,.osOk)
  | .enterWaitQueue wq => k.ofSched (k.sched.enterWaitQueue wq)
  | .wakeUp wq => k.ofSched (k.sched.wakeUp wq,.osOk)
  | .signalDeliver t info memOk => k.ofSched (k.sched.prtSignalDeliver t info memOk)
  | .signalWait set timeOut => k.ofSchedOpt (k.sched.prtSignalWait set timeOut)
  | .signalMask how set => k.ofSched (k.sched.prtSignalMask how set,.osOk)
  | .sigSuspend mask => k.ofSchedOpt (k.sched.prtSigSuspend mask)
  | .pause => k.ofSched (k.sched.pause,.osOk)

def proceed : Kernel×Option Errno :=
  match k.sched.cont k.sched.cpu.runningTask with
  | .user => (k,none)
  | .semPend => k.semPendCont
  | .queueRead q len => k.queueReadCont q len
  | .queueWrite q data prio => k.queueWriteCont q data prio
  | .eventRead mask all => k.eventReadRest mask all
  | .rwPend l write timed => k.rwPendRest l write timed
  | .rwCheck l write => k.rwCheckRest l write
  | .signalWait set => k.ofSchedOpt (k.sched.signalWaitCont set)
  | .sigSuspendEnter saved wait => k.ofSchedOpt (k.sched.sigSuspendEnterCont saved wait)
  | .sigSuspend saved => k.ofSchedOpt (k.sched.sigSuspendCont saved)

end Kernel

namespace Sched

variable (s : Sched)

def handlerContext : Bool :=
  s.cpu.bgdActive && (s.cpu.hwiActive || (s.cpu.tickActive && decide (s.cpu.tickPhase=.hooks)))

def tickContext (x : TickPhase) : Bool :=
  s.cpu.bgdActive && s.cpu.tickActive && decide (s.cpu.tickPhase=x) && !s.cpu.hwiActive

def userCode : Bool :=
  s.cpu.taskContext && decide (s.cont s.cpu.runningTask=.user) &&
    !(s.status s.cpu.runningTask).holdSignal

/-- Interrupts are masked in the part of a call that is left, up to its two windows. -/
def interruptible : Bool :=
  (s.status s.cpu.runningTask).holdSignal ||
    match s.cont s.cpu.runningTask with
    | .user | .rwCheck _ _ | .sigSuspendEnter _ _ => true
    | _ => false

def hwiEnter : Sched :=
  {s with cpu:={s.cpu with hwiActive:=true, intCount:=s.cpu.intCount+1}}

/-- `PRT_TickISR`; `TICK_NO_RESPOND_CNT` is 32 bits wide. -/
def tickIsr : Sched :=
  {s with cpu:={s.cpu with tickNoRespondCnt:=(s.cpu.tickNoRespondCnt+1)%2^32}}

def osHwiDispatchTail : Sched :=
  if 0<s.cpu.tickNoRespondCnt then
    if s.cpu.tickActive then s
    else {s with cpu:={s.cpu with tickActive:=true, tickPhase:=.scan}}
  else s.osMainSchedule

/-- Only the outermost interrupt goes on to the tail. -/
def hwiExit : Sched :=
  let s := {s with cpu:={s.cpu with intCount:=s.cpu.intCount-1}}
  if 0<s.cpu.intCount then s
  else {s with cpu:={s.cpu with hwiActive:=false}}.osHwiDispatchTail

def tickScan : Sched :=
  {s with cpu := {s.cpu with
      uniTicks := (s.cpu.uniTicks+1)%2^64
      tickPhase := .hooks}}.osTaskScan

/-- The decrement of the 32-bit `TICK_NO_RESPOND_CNT`. -/
def tickLeft : Nat := (s.cpu.tickNoRespondCnt+(2^32-1))%2^32

def tickEnd : Sched :=
  if 0<s.tickLeft then
    {s with cpu:={s.cpu with tickNoRespondCnt:=s.tickLeft, tickPhase:=.scan}}
  else
    {s with cpu := {s.cpu with
        tickNoRespondCnt := s.tickLeft
        tickActive := false
        tickPhase := .none}}.osMainSchedule

end Sched

def Call.early : Call → Bool
  | .taskCreate .. | .taskResume _ | .semCreate .. | .mutexCreate _ | .queueCreate .. => true
  | _ => false

/-- Calls that belong to a task: a handler has no entry function to return from, and neither
`pause` nor `PRT_SigSuspend` looks for an interrupt. -/
def Call.taskOnly : Call → Bool
  | .taskExit | .sigSuspend _ | .pause => true
  | _ => false

namespace Kernel

variable (k : Kernel)

def enabled (i : Input) : Bool :=
  !k.sched.cpu.crashed &&
    match i with
    | .call c => if k.sched.cpu.bgdActive then
        k.sched.userCode || (k.sched.handlerContext && !c.taskOnly) else c.early
    | .proceed => k.sched.cpu.taskContext && !(k.sched.status k.sched.cpu.runningTask).holdSignal
    | .signalEntry => k.sched.cpu.taskContext && (k.sched.status k.sched.cpu.runningTask).holdSignal
    | .activate _ => !k.sched.cpu.bgdActive
    | .hwiEnter => k.sched.cpu.bgdActive && (!k.sched.cpu.taskContext || k.sched.interruptible)
    | .tickIsr | .hwiExit => k.sched.cpu.bgdActive && k.sched.cpu.hwiActive
    | .tickScan => k.sched.tickContext .scan
    | .tickEnd => k.sched.tickContext .hooks

def act : Input → Kernel×Option Errno
  | .call c => k.exec c
  | .proceed => k.proceed
  | .signalEntry => (k.onSched Sched.osSignalEntry,none)
  | .activate memOk => let r := k.osActivate memOk; (r.1,some r.2)
  | .hwiEnter => (k.onSched Sched.hwiEnter,none)
  | .tickIsr => (k.onSched Sched.tickIsr,none)
  | .hwiExit => (k.onSched Sched.hwiExit,none)
  | .tickScan => (k.onSched Sched.tickScan,none)
  | .tickEnd => (k.onSched Sched.tickEnd,none)

def step (i : Input) : Kernel := if k.enabled i then (k.act i).1 else k

end Kernel

/-- The state behind `OsTskAMPInit`, `OsSemInit` and `OsQueueConfigInit`. -/
def Kernel.init (cfg : Cfg) : Kernel where
  sched :=
    { cfg := cfg
      tcb := Function.update (fun t => {taskPid:=t}) (cfg.tskMaxNum+1)
        { taskPid := cfg.tskMaxNum+1
          priority := cfg.prioLowest+1
          taskStatus := {inuse:=true, running:=true} }
      cont := fun _ => .user
      pend := Links.ofList .free (List.range (cfg.tskMaxNum+1)) List.nodup_range
      timer := Links.empty
      wait := Links.empty
      runQue := PrioMap.empty 32
      highestTask := none
      cpu :=
        { runningTask := cfg.tskMaxNum+1
          idleTaskId := 0
          uniTaskLock := 0
          hwiActive := false
          bgdActive := false
          tickActive := false
          tskReq := false
          intCount := 0
          tickNoRespondCnt := 0
          tickPhase := .none
          uniTicks := 0
          crashed := false
          switches := [] }
      faults := [] }
  sems _ := {}
  semB := Links.empty
  unusedSem := List.range cfg.maxSem
  queues _ := {}
  rwlocks _ := {}
  semLog _ := []
  queLog _ := []
  evLog _ := []
  rwHolds _ := []
  queuedAt _ := 0
  clock := 0

def kernelMachine (cfg : Cfg) : Machine Kernel Input where
  start k := k=Kernel.init cfg
  step := Kernel.step

end UniProton
