import UniProton.Kernel.State

namespace UniProton

open Framework

namespace Sched

variable (s : Sched)

/-- `OsGetReadyList` marks the priority in the bitmaps when its list was empty. -/
def osEnqueueTaskAmp (t : Nat) : Sched :=
  let p := (s.tcb t).priority
  {s with runQue:=if s.readyList p=[] then s.runQue.set p else s.runQue}.pendTailAdd t
    (.ready p)

def osDequeueTaskAmp (t : Nat) : Sched :=
  let p := (s.tcb t).priority
  let s := s.pendDelete t
  {s with runQue:=if s.readyList p=[] then s.runQue.clear p else s.runQue}

def osTskHighestSet : Sched := {s with highestTask:=(s.readyList s.runQue.first).head?}

def osTskReadyAdd (t : Nat) : Sched :=
  ((s.modStatus t fun b => {b with ready:=true}).osEnqueueTaskAmp t).osTskHighestSet

def osTskReadyDel (t : Nat) : Sched :=
  ((s.modStatus t fun b => {b with ready:=false}).osDequeueTaskAmp t).osTskHighestSet

/-- The delay list is searched for the first task that expires later; `g_uniTicks` is 64 bits
wide. -/
def osTskTimerAdd (t timeout : Nat) : Sched :=
  let tick := (s.cpu.uniTicks+timeout)%2^64
  let s := s.modTcb t fun c => {c with expirationTick:=tick}
  {s with
    timer := s.timer.insert t () (s.delayList.findIdx fun u => tick<(s.tcb u).expirationTick)
    faults := if s.timer.linked t then .addLinked .timerList::s.faults else s.faults}

/-- How a wait on a semaphore, a queue or an rwlock is limited. -/
def timeoutSet (t timeOut : Nat) : Sched :=
  if timeOut=osWaitForever then s
  else (s.modStatus t fun b => {b with timeout:=true}).osTskTimerAdd t timeOut

/-- `OsEventTimeOutSet` and `OsSignalTimeOutSet`: a wait without a limit clears the flag. -/
def osEventTimeOutSet (t timeOut : Nat) : Sched :=
  if timeOut=osWaitForever then s.modStatus t fun b => {b with timeout:=false}
  else (s.modStatus t fun b => {b with timeout:=true}).osTskTimerAdd t timeOut

def timeoutClear (t : Nat) : Sched :=
  if (s.status t).timeout then
    (s.timerDelete t).modStatus t fun b => {b with timeout:=false}
  else s

/-- A task whose wait has ended is ready again, unless it is suspended. -/
def readyAddUnlessSuspend (t : Nat) : Sched :=
  if (s.status t).suspend then s else s.osTskReadyAdd t

def kthreadStateSet (t : Nat) (k : KthreadState) : Sched :=
  s.modTcb t fun c => {c with kthreadTsk:=c.kthreadTsk.map fun _ => k}

def switchTo (t : Nat) : Sched :=
  let prev := s.cpu.runningTask
  let s := s.modStatus prev fun b => {b with running:=false}
  let s := s.modStatus t fun b => {b with running:=true}
  {s with cpu := {s.cpu with
      tskReq := false
      runningTask := t
      switches := ⟨prev,t,s.cpu.uniTaskLock⟩ :: s.cpu.switches}}

/-- Gives the processor to `g_highestTask` on request. Otherwise the interrupted task goes on; the
zombie stands for a deleted one. -/
def osMainSchedule : Sched :=
  if s.cpu.tskReq then
    match s.highestTask with
    | none => {s with cpu:={s.cpu with crashed:=true}}
    | some t => s.switchTo t
  else if s.cpu.runningTask=s.zombie then {s with cpu:={s.cpu with crashed:=true}}
  else s

/-- `OsTaskTrap` enters `OsMainSchedule` at once; in an interrupt the request is left for its
tail. -/
def osTskSchedule : Sched :=
  let s := s.osTskHighestSet
  if s.highestTask≠some s.cpu.runningTask ∧ s.cpu.uniTaskLock=0 then
    let s := {s with cpu:={s.cpu with tskReq:=true}}
    if s.cpu.intActive then s else s.osMainSchedule
  else s

/-- Differs from `OsTskSchedule` only in the registers that the trap saves. -/
abbrev osTskScheduleFast : Sched := s.osTskSchedule

abbrev osTskScheduleFastPs : Sched := s.osTskSchedule

/-- The loop body of `OsTaskScan` up to the ready queue. The timeout flag stays for the task to
find. -/
def osTaskExpire (t : Nat) : Sched :=
  let s := s.timerDelete t
  let b := s.status t
  if b.pend then
    let s := s.modStatus t fun b => {b with pend:=false}
    (s.pendDelete t).modTcb t fun c => {c with taskPend:=none}
  else if b.eventPend then s.modStatus t fun b => {b with eventPend:=false}
  else if b.queuePend then (s.pendDelete t).modStatus t fun b => {b with queuePend:=false}
  else if b.rwPend then (s.pendDelete t).modStatus t fun b => {b with rwPend:=false}
  else if b.delayInterruptible then
    (s.modStatus t fun b => {b with delayInterruptible:=false}).kthreadStateSet t .running
  else s.modStatus t fun b => {b with delay:=false}

/-- The loop of `OsTaskScan` with its `needSchedule`; every round takes a task off the list. -/
def osTaskScanLoop : Nat → Sched → Bool → Sched×Bool
  | 0, s, need => (s,need)
  | n+1, s, need =>
    match s.delayList with
    | [] => (s,need)
    | t::_ =>
      if s.cpu.uniTicks<(s.tcb t).expirationTick then (s,need)
      else
        let s := s.osTaskExpire t
        if (s.status t).suspend then osTaskScanLoop n s need
        else osTaskScanLoop n (s.osTskReadyAdd t) true

def osTaskScan : Sched :=
  let r := osTaskScanLoop s.delayList.length s false
  if r.2 then r.1.osTskScheduleFast else r.1

end Sched

end UniProton
