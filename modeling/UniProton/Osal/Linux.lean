import UniProton.Kernel.Task

namespace UniProton

open Framework

def maxScheduleTimeout : Int := 2^63-1

namespace Sched

variable (s : Sched)

def kthreadStateTst (t : Nat) (x : KthreadState) : Bool := decide ((s.tcb t).kthreadTsk=some x)

def setCurrentState (x : KthreadState) : Sched := s.kthreadStateSet s.cpu.runningTask x

/-- `schedule_timeout`. The sleeping task has nothing left to do when it is switched in again:
the timeout flag of a sleep that ran out stays set. -/
def scheduleTimeout (timeout : Int) : Sched :=
  let run := s.cpu.runningTask
  if s.cpu.intActive ∨ s.cpu.uniTaskLock≠0 ∨ timeout<0 then s.kthreadStateSet run .running
  else if s.kthreadStateTst run .running ∨ timeout=0 then (s.prtTaskDelay 0).1
  else
    let s := (s.osTskReadyDel run).modStatus run fun b => {b with delayInterruptible:=true}
    let s := if timeout=maxScheduleTimeout then s
      else (s.osTskTimerAdd run timeout.toNat).modStatus run fun b => {b with timeout:=true}
    s.osTskScheduleFastPs

/-- `wake_up_process`; `TASK_NORMAL` has both sleeping states. -/
def wakeUpProcess (t : Nat) : Sched :=
  match (s.tcb t).kthreadTsk with
  | some .interruptible | some .uninterruptible => (s.prtTaskResume t).1
  | _ => s

def enterWaitQueue (wq : Nat) : Sched×Errno :=
  let run := s.cpu.runningTask
  if s.cpu.intActive then (s,.tskDelayInInt)
  else if s.cpu.uniTaskLock≠0 then (s,.tskDelayInLock)
  else
    let s := (s.osTskReadyDel run).modStatus run fun b => {b with waitqueuePend:=true}
    let s := s.kthreadStateSet run .uninterruptible
    let s := {s with
      wait := s.wait.insert run wq (s.wait.lists wq).length
      faults := if s.wait.linked run then .addLinked .waitList::s.faults else s.faults}
    (s.osTskSchedule,.osOk)

/-- The loop body of `wake_up`; the suspend bit is not looked at. -/
def wakeUpOne (t : Nat) : Sched :=
  (((s.waitDelete t).osTskReadyAdd t).kthreadStateSet t .running).modStatus t fun b =>
    {b with waitqueuePend:=false}

def wakeUpLoop (wq : Nat) : Nat → Sched → Sched
  | 0, s => s
  | n+1, s =>
    match s.wait.lists wq with
    | [] => s
    | t::_ => wakeUpLoop wq n (s.wakeUpOne t)

def wakeUp (wq : Nat) : Sched := (wakeUpLoop wq (s.wait.lists wq).length s).osTskSchedule

end Sched

end UniProton
