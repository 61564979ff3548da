import UniProton.Framework.Links
import UniProton.Framework.PrioMap

namespace UniProton

open Framework

/-- Build-time configuration of the AMP kernel. One word of flags indexes the child bitmaps, so
there are at most 1024 priorities; a task index takes at most 24 bits of a pid. -/
structure Cfg where
  prioLowest : Nat
  tskMaxNum : Nat
  maxSem : Nat
  maxQueue : Nat
  stackMin : Nat
  stackDefault : Nat
  idleStackSize : Nat
  prio_lt : prioLowest<1024
  tsk_lt : tskMaxNum<2^24

def osWaitForever : Nat := 0xFFFFFFFF

def hasLimit (timeOut : Nat) : Bool := decide (timeOut≠osWaitForever)

def osInvalidOwnerId : Nat := 0xFFFFFFFE

def osSemCountMax : Nat := 0xFFFFFFFE

def osSemFull : Nat := 1

/-- The bits of `taskStatus`. `OS_TSK_DELETING` is the same bit as `OS_TSK_DELAY_INTERRUPTIBLE`,
and `OS_TSK_UNUSED` is the word without any bit. -/
structure TskStatus where
  inuse : Bool := false
  waitSignal : Bool := false
  suspend : Bool := false
  pend : Bool := false
  timeout : Bool := false
  delay : Bool := false
  ready : Bool := false
  running : Bool := false
  holdSignal : Bool := false
  eventPend : Bool := false
  eventType : Bool := false
  queuePend : Bool := false
  queueBusy : Bool := false
  delayInterruptible : Bool := false
  waitqueuePend : Bool := false
  sigPause : Bool := false
  rwPend : Bool := false
  deriving DecidableEq, Inhabited

namespace TskStatus

def unused (b : TskStatus) : Bool := decide (b={})

/-- `(taskStatus & OS_TSK_BLOCK) != 0`; the mask has `OS_TSK_DELETING`, that is the bit of an
interruptible delay, and neither of the signal bits. -/
def block (b : TskStatus) : Bool :=
  b.delay || b.pend || b.suspend || b.queuePend || b.eventPend || b.waitqueuePend ||
    b.delayInterruptible || b.rwPend

/-- One of the waits that `OS_TSK_TIMEOUT` can limit, a signal apart. -/
def waiting (b : TskStatus) : Bool :=
  b.pend || b.queuePend || b.eventPend || b.rwPend || b.delayInterruptible

end TskStatus

/-- What `taskPend` points to. -/
inductive PendObj where
  | sem (id : Nat)
  | queue (id : Nat)
  deriving DecidableEq

/-- `kthreadTsk->state` -/
inductive KthreadState where
  | running | interruptible | uninterruptible deriving DecidableEq

structure SigInfo where
  signo : Nat
  code : Int
  deriving DecidableEq

/-- `struct TagTskCb` as far as it is read. The nodes `pendList`, `timerList`, `waitList` and the
head `semBList` live in the link families of the state. -/
structure TskCb where
  taskStatus : TskStatus := {}
  priority : Nat := 0
  origPriority : Nat := 0
  taskPid : Nat := 0
  taskPend : Option PendObj := none
  event : BitVec 32 := 0
  eventMask : BitVec 32 := 0
  expirationTick : Nat := 0
  kthreadTsk : Option KthreadState := none
  sigMask : BitVec 64 := 0
  sigWaitMask : BitVec 64 := 0
  sigPending : BitVec 64 := 0
  sigInfoList : List SigInfo := []
  holdSignal : Nat := 0
  deriving Inhabited

/-- List heads a task's `pendList` node can be linked to; queues and rwlocks have one for each
direction. -/
inductive PendHead where
  | ready (prio : Nat)
  | sem (id : Nat)
  | queue (id : Nat) (write : Bool)
  | rw (id : Nat) (write : Bool)
  | free | recycle
  deriving DecidableEq

/-- What a task still has to do inside the kernel when it is switched in again. `user` is
nothing: it returns to its own code. -/
inductive Cont where
  | user | semPend
  | queueRead (que len : Nat)
  | queueWrite (que : Nat) (data : List UInt8) (prio : Nat)
  | eventRead (mask : BitVec 32) (all : Bool)
  | rwPend (lock : Nat) (write timed : Bool)
  | rwCheck (lock : Nat) (write : Bool)
  | signalWait (set : BitVec 64)
  | sigSuspendEnter (saved wait : BitVec 64)
  | sigSuspend (saved : BitVec 64)
  deriving DecidableEq

namespace Cont

def queueOf : Cont → Option (Nat×Bool)
  | .queueRead q _ => some (q,false)
  | .queueWrite q _ _ => some (q,true)
  | _ => none

def plain : Cont → Bool
  | .signalWait _ | .sigSuspendEnter _ _ | .sigSuspend _ => false
  | _ => true

def timed : Cont → Bool
  | .user | .rwPend _ _ false | .sigSuspendEnter _ _ => false
  | _ => true

def rwOf : Cont → Option (Nat×Bool)
  | .rwPend l write _ => some (l,write)
  | .rwCheck l write => some (l,write)
  | _ => none

def eventOf : Cont → Option (BitVec 32×Bool)
  | .eventRead mask all => some (mask,all)
  | _ => none

end Cont

/-- The errors of the modelled calls, without their module prefix `OS_ERRNO_`. -/
inductive Errno where
  | osOk
  | tskEntryNull | tskStkszNotAlign | tskStackaddrNotAlign | tskStkszTooSmall
  | tskStackaddrTooBig | tskPriorError | tskNameEmpty
  | tskTcbUnavailable | tskNoMemory | tskOperateIdle | tskIdInvalid | tskNotCreated
  | tskAlreadySuspended | tskSuspendLocked | tskActiveFailed | tskNotSuspended
  | tskDeleteLocked | tskQueueDoing | tskDelayInInt | tskDelayInLock | tskYieldNotEnoughTask
  | tskUnlockNoLock | tskPriorityInherit | tskPendMutex | tskPendPrior | tskPriorLowerThanPendtsk
  | semInvalid | semOverflow | semMutexPostInterr | semMutexNotOwnerPost | semUnavailable
  | semPendInLock | semPendInterr | semTimeout | semAllBusy | semPended | semMutexHolding
  | queueInvalid | queuePtrNull | queueSizeZero | queuePrioInvalid | queueNotCreate
  | queueSizeTooBig | queueNoSource | queueInInterrupt | queuePendInLock | queueTimeout
  | queueInTskuse | queueBusy | queueParaZero | queueNsizeInvalid | queueCbUnavailable
  | queueCreateNoMemory
  | eventEventmaskInvalid | eventFlagsInvalid | eventReadNotInTask | eventReadFailed
  | eventReadInLock | eventReadTimeout | eventTaskidInvalid | eventInvalid | eventTskNotCreated
  | signalParaInvalid | signalTimeout | signalWaitNotInTask | signalWaitInLock
  | signalTaskidInvalid | signalTskNotCreated | signalNumInvalid | signalNoMemory
  | einval | ebusy | edeadlk | etimedout | eperm
  deriving DecidableEq

/-- Kinds of intrusive list nodes. -/
inductive NodeKind where
  | pendList | timerList | waitList | semBList deriving DecidableEq

/-- A list primitive used outside its contract: `ListTailAdd` or `INIT_LIST_OBJECT` of a node that is
in a list, or `ListDelete` of a node that is in none (whose links are null). -/
inductive Fault where
  | addLinked (k : NodeKind)
  | deleteUnlinked (k : NodeKind)
  | initLinked (k : NodeKind)
  deriving DecidableEq

def Fault.kind : Fault → NodeKind
  | .addLinked k => k
  | .deleteUnlinked k => k
  | .initLinked k => k

/-- Progress of the tick handling at the tail of an interrupt: before `OsTaskScan`, or in the
tick hooks behind it. -/
inductive TickPhase where
  | none | scan | hooks deriving DecidableEq

/-- One execution of the switching part of `OsMainSchedule`, with the task lock at that time. -/
structure Switch where
  prev : Nat
  next : Nat
  lock : Nat
  deriving DecidableEq

/-- The running task, the task lock, the flags of `UNI_FLAG` and the interrupt bookkeeping.
`crashed` is set when the processor is given to a task that does not exist. -/
structure Cpu where
  runningTask : Nat
  idleTaskId : Nat
  uniTaskLock : Nat
  hwiActive : Bool
  bgdActive : Bool
  tickActive : Bool
  tskReq : Bool
  intCount : Nat
  tickNoRespondCnt : Nat
  tickPhase : TickPhase
  uniTicks : Nat
  crashed : Bool
  switches : List Switch

def Cpu.intActive (c : Cpu) : Bool := c.hwiActive || c.tickActive

/-- No interrupt and no tick is in progress. -/
def Cpu.taskContext (c : Cpu) : Bool := c.bgdActive && !c.hwiActive && !c.tickActive

/-- The task part of the kernel. `runQue` holds the bitmaps of `g_runQueue`; its lists are those
of `pend`. Without a ready task `OsTskHighestSet` reads past the bitmaps and lists, and
`highestTask` is `none`. -/
structure Sched where
  cfg : Cfg
  tcb : Nat → TskCb
  cont : Nat → Cont
  pend : Links PendHead Nat
  timer : Links Unit Nat
  wait : Links Nat Nat
  runQue : PrioMap 32
  highestTask : Option Nat
  cpu : Cpu
  faults : List Fault

namespace Sched

variable (s : Sched)

/-- Index of `OS_PST_ZOMBIE_TASK`. -/
def zombie : Nat := s.cfg.tskMaxNum+1

def pidOverflow (pid : Nat) : Bool := decide (s.cfg.tskMaxNum+1≤pid)

def status (t : Nat) : TskStatus := (s.tcb t).taskStatus

def readyList (p : Nat) : List Nat := s.pend.lists (.ready p)

def delayList : List Nat := s.timer.lists ()

def modTcb (t : Nat) (f : TskCb → TskCb) : Sched :=
  {s with tcb:=Function.update s.tcb t (f (s.tcb t))}

/-- `TSK_STATUS_SET` and `TSK_STATUS_CLEAR` are this with an update of the record. -/
def modStatus (t : Nat) (f : TskStatus → TskStatus) : Sched :=
  s.modTcb t fun c => {c with taskStatus:=f c.taskStatus}

def setCont (t : Nat) (k : Cont) : Sched := {s with cont:=Function.update s.cont t k}

/-- Inserts the `pendList` node of a task at a position of a list. -/
def pendInsert (t : Nat) (h : PendHead) (i : Nat) : Sched :=
  {s with
    pend := s.pend.insert t h i
    faults := if s.pend.linked t then .addLinked .pendList::s.faults else s.faults}

def pendTailAdd (t : Nat) (h : PendHead) : Sched := s.pendInsert t h (s.pend.lists h).length

def pendDelete (t : Nat) : Sched :=
  {s with
    pend := s.pend.delete t
    faults := if s.pend.linked t then s.faults else .deleteUnlinked .pendList::s.faults}

def timerDelete (t : Nat) : Sched :=
  {s with
    timer := s.timer.delete t
    faults := if s.timer.linked t then s.faults else .deleteUnlinked .timerList::s.faults}

/-- `INIT_LIST_OBJECT` of the timer node. -/
def timerInit (t : Nat) : Sched :=
  {s with faults:=if s.timer.linked t then .initLinked .timerList::s.faults else s.faults}

def waitDelete (t : Nat) : Sched :=
  {s with
    wait := s.wait.delete t
    faults := if s.wait.linked t then s.faults else .deleteUnlinked .waitList::s.faults}

end Sched

inductive SemMode where
  | fifo | prior deriving DecidableEq

/-- `semType`: its low bits tell a counting from a binary (mutex) semaphore, the next ones
whether a mutex may be taken again by its owner. -/
inductive SemType where
  | count
  | bin (recur : Bool)
  deriving DecidableEq

def SemType.isBin : SemType → Bool
  | .count => false
  | .bin _ => true

def SemType.isRecur : SemType → Bool
  | .count => false
  | .bin r => r

/-- `struct TagSemCb`; its waiting tasks are the list `.sem id`. -/
structure SemCb where
  used : Bool := false
  recurCount : Nat := 0
  semCount : Nat := 0
  semOwner : Nat := 0
  semMode : SemMode := .fifo
  semType : SemType := .count

/-- `struct QueNode` with all bytes of its buffer. -/
structure QueNode where
  srcPid : Nat
  size : Nat
  buf : List UInt8
  deriving DecidableEq

/-- `struct TagQueCb`; its waiting tasks are the lists `.queue id write`. -/
structure QueCb where
  queue : Nat → QueNode := fun _ => ⟨0,0,[]⟩
  used : Bool := false
  nodeNum : Nat := 0
  nodeSize : Nat := 0
  queueHead : Nat := 0
  queueTail : Nat := 0
  nodePeak : Nat := 0
  writableCnt : Nat := 0
  readableCnt : Nat := 0

/-- `pthread_rwlock_t`: count is negative for a writer, the number of readers otherwise. -/
structure RwLock where
  rwCount : Int := 0
  rwOwner : Option Nat := none

/-- History of a semaphore: its creation, an acquisition at once or by hand-over, a repeated pend
of a mutex, a post. -/
inductive SemEvent where
  | created (count : Nat)
  | acquired (t : Nat)
  | reentered (t : Nat)
  | posted (t : Nat)
  deriving DecidableEq

/-- History of a queue, made where data is copied: a message with the task that wrote it (none for
an interrupt), and a read with its buffer size, the length reported and the bytes handed out. -/
inductive QueEvent where
  | wrote (src : Option Nat) (urgent : Bool) (data : List UInt8)
  | got (bufLen len : Nat) (data : List UInt8)
  deriving DecidableEq

/-- History of the events of a task: writes, reads that hand out events, and reads that fail or
time out. -/
inductive EvEvent where
  | wrote (events : BitVec 32)
  | read (mask : BitVec 32) (all : Bool) (events : BitVec 32)
  | missed (mask : BitVec 32) (all : Bool)
  deriving DecidableEq

/-- The task part with semaphores, queues and rwlocks; `semB` has the list `semBList` of every task.
The logs, the stamps `queuedAt` and `rwHolds` are history. -/
structure Kernel where
  sched : Sched
  sems : Nat → SemCb
  semB : Links Nat Nat
  unusedSem : List Nat
  queues : Nat → QueCb
  rwlocks : Nat → RwLock
  semLog : Nat → List SemEvent
  queLog : Nat → List QueEvent
  evLog : Nat → List EvEvent
  rwHolds : Nat → List (Nat×Bool)
  queuedAt : Nat → Nat
  clock : Nat

end UniProton
