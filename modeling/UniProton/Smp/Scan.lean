import UniProton.Framework.Run
import UniProton.Osal.Linux

namespace UniProton

open Framework Function

namespace Smp

def osTskInuse : BitVec 32 := 0x0001

def osTskSuspend : BitVec 32 := 0x0004

def osTskPend : BitVec 32 := 0x0008

def osTskTimeout : BitVec 32 := 0x0010

def osTskDelay : BitVec 32 := 0x0020

def osTskReady : BitVec 32 := 0x0040

def osTskEventPend : BitVec 32 := 0x0800

def osTskQueuePend : BitVec 32 := 0x2000

def osTskDelayInterruptible : BitVec 32 := 0x8000

def osTskDeleting : BitVec 32 := 0x8000

def osTskWaitqueuePend : BitVec 32 := 0x10000

def osTskCrgIdleSuspend : BitVec 32 := 0x20000

def osTskRwPend : BitVec 32 := 0x40000

def osTskBlock : BitVec 32 :=
  osTskDelay ||| osTskPend ||| osTskSuspend ||| osTskQueuePend ||| osTskEventPend |||
    osTskWaitqueuePend ||| osTskDeleting ||| osTskRwPend

def osTskSuspendReadyBlock : BitVec 32 :=
  osTskSuspend ||| osTskCrgIdleSuspend ||| osTskDeleting ||| osTskReady

def osTskScanClear : BitVec 32 :=
  osTskPend ||| osTskQueuePend ||| osTskRwPend ||| osTskEventPend ||| osTskDelay

/-- The fields of `struct TagTskCb` that sleeping and waking read in the SMP build; `isOnRq` stands
for the place in a run queue. -/
structure Tcb where
  taskStatus : BitVec 32 := 0
  expirationTick : Nat := 0
  timeCoreID : Nat := 0
  taskPend : Option Nat := none
  isOnRq : Bool := false
  kthreadTsk : Option KthreadState := none
  deriving DecidableEq

def Tcb.tst (c : Tcb) (mask : BitVec 32) : Bool := decide (c.taskStatus &&& mask≠0)

def Tcb.set (c : Tcb) (mask : BitVec 32) : Tcb := {c with taskStatus:=c.taskStatus ||| mask}

def Tcb.clear (c : Tcb) (mask : BitVec 32) : Tcb :=
  {c with taskStatus:=c.taskStatus &&& ~~~ mask}

/-- `OsTskReadyAdd` without the request to the core of the task. -/
def Tcb.readyAdd (c : Tcb) : Tcb := {c.set osTskReady with isOnRq:=true}

def Tcb.readyDel (c : Tcb) : Tcb := {c.clear osTskReady with isOnRq:=false}

end Smp

/-- The task part of the SMP build: a delay list per core, the objects that tasks wait for, and what
each core runs. Control blocks from `tskMaxNum` on belong to idle tasks. -/
structure Smp where
  tskMaxNum : Nat
  tcb : Nat → Smp.Tcb
  timer : Links Nat Nat
  pend : Links Nat Nat
  nearestTicks : Nat → Nat
  tskCurr : Nat → Nat
  uniTaskLock : Nat → Nat
  intActive : Nat → Bool
  uniTicks : Nat

namespace Smp

variable (m : Smp)

def osTicklessForever : Nat := 2^64-1

def modTcb (t : Nat) (f : Tcb → Tcb) : Smp := {m with tcb:=update m.tcb t (f (m.tcb t))}

def delayList (core : Nat) : List Nat := m.timer.lists core

def osTskDlyNearestTicksRefresh (core : Nat) : Smp :=
  let ticks := match m.delayList core with
    | [] => osTicklessForever
    | t::_ => (m.tcb t).expirationTick
  {m with nearestTicks:=update m.nearestTicks core ticks}

def osTskTimerAdd (core t timeout : Nat) : Smp :=
  let tick := (m.uniTicks+timeout)%2^64
  let m := m.modTcb t fun c => {c with timeCoreID:=core, expirationTick:=tick}
  let pos := (m.delayList core).findIdx fun u => tick<(m.tcb u).expirationTick
  {m with timer:=m.timer.insert t core pos}.osTskDlyNearestTicksRefresh core

/-- `PRT_TaskDelay`; a yield only moves the task inside its run queue. -/
def prtTaskDelay (core tick : Nat) : Smp :=
  let run := m.tskCurr core
  if m.intActive core ∨ m.uniTaskLock core≠0 ∨ tick=0 then m
  else (m.modTcb run fun c => c.readyDel.set osTskDelay).osTskTimerAdd core run tick

/-- `schedule_timeout`, with the bit of an interruptible sleep. -/
def scheduleTimeout (core : Nat) (timeout : Int) : Smp :=
  let run := m.tskCurr core
  if m.intActive core ∨ m.uniTaskLock core≠0 ∨ timeout<0 then
    m.modTcb run fun c => {c with kthreadTsk:=c.kthreadTsk.map fun _ => .running}
  else if (m.tcb run).kthreadTsk=some .running ∨ timeout=0 then m.prtTaskDelay core 0
  else
    let m := m.modTcb run fun c => c.readyDel.set osTskDelayInterruptible
    if timeout=maxScheduleTimeout then m
    else (m.osTskTimerAdd core run timeout.toNat).modTcb run fun c => c.set osTskTimeout

/-- The head of a delay list is looked at again when the lock of its run queue is taken; `lock` is
the object it was seen to wait for. -/
def dlyRecheck (core t : Nat) (lock : Option Nat) : Bool :=
  (m.tcb t).tst osTskInuse && decide ((m.tcb t).timeCoreID=core) &&
    decide ((m.tcb t).expirationTick ≤ m.uniTicks) && m.timer.linked t &&
    decide ((m.tcb t).taskPend=lock)

/-- `none` when the second look fails. -/
def osTskDlyScanNoPendLock (core t : Nat) : Option Smp :=
  if m.dlyRecheck core t none then some {m with timer:=m.timer.delete t} else none

def osTskDlyScanHasPendLock (core t lock : Nat) : Option Smp :=
  if m.dlyRecheck core t (some lock) then
    some ({m with timer:=m.timer.delete t, pend:=m.pend.delete t}.modTcb t fun c =>
      {c with taskPend:=none})
  else none

/-- The end of `OsTskDlyBaseListScan` for a task that it has taken off the list. -/
def Tcb.expire (c : Tcb) : Tcb :=
  let c := c.clear osTskScanClear
  if c.tst osTskSuspendReadyBlock then c else c.readyAdd

/-- `OsTskDlyBaseListScan` for a list that is not empty, with its answer whether to go on. -/
def osTskDlyBaseListScan (core t : Nat) : Smp×Bool :=
  if m.uniTicks<(m.tcb t).expirationTick then (m.osTskDlyNearestTicksRefresh core,false)
  else
    let r := match (m.tcb t).taskPend with
      | none => m.osTskDlyScanNoPendLock core t
      | some lock => m.osTskDlyScanHasPendLock core t lock
    match r with
    | none => (m,true)
    | some m => (m.modTcb t Tcb.expire,true)

/-- The loop of `OsTskDlyBaseScan`; every round but one whose second look fails takes a task off
the list. -/
def osTskDlyBaseScanLoop (core : Nat) : Nat → Smp → Smp
  | 0, m => m.osTskDlyNearestTicksRefresh core
  | n+1, m =>
    match m.delayList core with
    | [] => m.osTskDlyNearestTicksRefresh core
    | t::_ =>
      match m.osTskDlyBaseListScan core t with
      | (m,true) => osTskDlyBaseScanLoop core n m
      | (m,false) => m

/-- The length of the list is fuel enough. -/
def osTaskScan (core : Nat) : Smp := osTskDlyBaseScanLoop core (m.delayList core).length m

def setCurrentState (core : Nat) (x : KthreadState) : Smp :=
  m.modTcb (m.tskCurr core) fun c => {c with kthreadTsk:=c.kthreadTsk.map fun _ => x}

/-- A task that runs leaves its run queue in any case. -/
def Tcb.suspend (c : Tcb) (running : Bool) : Tcb :=
  let c := c.set osTskSuspend
  if running || c.tst osTskReady then c.readyDel else c

def Tcb.resume (c : Tcb) : Tcb :=
  let c := c.clear osTskSuspend
  if c.tst osTskBlock then c else c.readyAdd

def prtTaskSuspend (core t : Nat) : Smp :=
  if m.tskMaxNum≤t ∨ (m.tcb t).taskStatus=0 ∨ (m.tcb t).tst osTskSuspend ∨
      (t=m.tskCurr core ∧ m.uniTaskLock core≠0) then m
  else m.modTcb t fun c => c.suspend (decide (t=m.tskCurr core))

def prtTaskResume (t : Nat) : Smp :=
  if m.tskMaxNum≤t ∨ (m.tcb t).taskStatus=0 ∨ (m.tcb t).tst osTskSuspend=false then m
  else m.modTcb t Tcb.resume

end Smp

/-- What the cores do: calls of the task that runs on a core, the choice of the scheduler, and the
ticks, each with the scans that the cores make when they come to it. -/
inductive SmpInput where
  | taskDelay (core tick : Nat)
  | scheduleTimeout (core : Nat) (timeout : Int)
  | setCurrentState (core : Nat) (x : KthreadState)
  | taskSuspend (core t : Nat)
  | taskResume (core t : Nat)
  | switch (core t : Nat)
  | tick
  | scan (core : Nat)

namespace Smp

variable (m : Smp)

/-- A core calls only from a task that is ready, and switches only to one. -/
def enabled : SmpInput → Bool
  | .taskDelay core _ | .scheduleTimeout core _ | .setCurrentState core _ | .taskSuspend core _
  | .taskResume core _ => (m.tcb (m.tskCurr core)).tst osTskReady
  | .switch _ t => (m.tcb t).tst osTskReady
  | .tick | .scan _ => true

def act : SmpInput → Smp
  | .taskDelay core tick => m.prtTaskDelay core tick
  | .scheduleTimeout core timeout => m.scheduleTimeout core timeout
  | .setCurrentState core x => m.setCurrentState core x
  | .taskSuspend core t => m.prtTaskSuspend core t
  | .taskResume _ t => m.prtTaskResume t
  | .switch core t => {m with tskCurr:=update m.tskCurr core t}
  | .tick => {m with uniTicks:=(m.uniTicks+1)%2^64}
  | .scan core => m.osTaskScan core

def step (i : SmpInput) : Smp := if m.enabled i then m.act i else m

end Smp

def smpMachine : Machine Smp SmpInput where
  start m := m.timer=Links.empty ∧ ∀ t, (m.tcb t).tst Smp.osTskCrgIdleSuspend=false ∧
    ((m.tcb t).taskStatus≠0 → (m.tcb t).tst Smp.osTskInuse=true)
  step := Smp.step

end UniProton
