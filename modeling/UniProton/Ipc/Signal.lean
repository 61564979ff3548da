import UniProton.Osal.Linux

namespace UniProton

open Framework

def sigBit (signo : Nat) : BitVec 64 := 1#64 <<< (signo-1)

def sigValid (signo : Nat) : Bool := decide (0<signo ∧ signo<32)

/-- The argument `how` of `PRT_SignalMask`. -/
inductive SigHow where
  | block | unblock | setmask deriving DecidableEq

namespace TskCb

variable (c : TskCb)

/-- A pending signal is updated, a new one needs a node. -/
def osAddSignalPendingFlag (info : SigInfo) (memOk : Bool) : Option TskCb :=
  if c.sigPending &&& sigBit info.signo≠0 then
    some {c with
      sigInfoList := c.sigInfoList.map fun n => if n.signo=info.signo then info else n}
  else if memOk then
    some {c with
      sigInfoList := c.sigInfoList ++ [info]
      sigPending := c.sigPending ||| sigBit info.signo}
  else none

lemma osAddSignalPendingFlag_some {c c' : TskCb} {info : SigInfo} {memOk : Bool}
    (h : c.osAddSignalPendingFlag info memOk=some c') : c'.taskStatus=c.taskStatus ∧
      c'.sigMask=c.sigMask ∧ c'.sigWaitMask=c.sigWaitMask ∧ c'.taskPid=c.taskPid ∧
      c'.kthreadTsk=c.kthreadTsk ∧ c'.expirationTick=c.expirationTick := by
  unfold TskCb.osAddSignalPendingFlag at h
  split_ifs at h
  all_goals
    cases h
    exact ⟨rfl,rfl,rfl,rfl,rfl,rfl⟩

/-- Takes the first pending signal of the set, and ends the wait. -/
def osSigWaitProcPendingSignal (set : BitVec 64) : TskCb :=
  match c.sigInfoList.find? fun n => sigBit n.signo &&& set≠0 with
  | none => {c with sigWaitMask:=0}
  | some n =>
    {c with
      sigInfoList := c.sigInfoList.erase n
      sigPending := c.sigPending &&& ~~~ sigBit n.signo
      sigWaitMask := 0}

/-- A handler is taken to leave the kernel alone. -/
def osHandleOneSignal (signum : Nat) : TskCb :=
  match c.sigInfoList.find? fun n => n.signo=signum with
  | none => c
  | some n =>
    {c with
      sigInfoList := c.sigInfoList.erase n
      sigPending := c.sigPending &&& ~~~ sigBit signum}

def osHandleUnBlockSignal : TskCb :=
  let un := c.sigPending &&& ~~~ c.sigMask
  (c.sigInfoList.filter fun n => un &&& sigBit n.signo≠0).foldl
    (fun c n => c.osHandleOneSignal n.signo) c

end TskCb

namespace Sched

variable (s : Sched)

/-- `OsSignalWaitSche` up to its `OsTskSchedule`; no error code for a task that waits. -/
def osSignalWaitSche (set : BitVec 64) (timeOutTick : Nat) (c : Cont) : Sched×Option Errno :=
  let run := s.cpu.runningTask
  if timeOutTick=0 then (s,some .signalParaInvalid)
  else if s.cpu.uniTaskLock≠0 then (s,some .signalWaitInLock)
  else
    let s := (s.setCont run c).modTcb run fun c => {c with sigWaitMask:=set}
    let s := (s.osTskReadyDel run).modStatus run fun b => {b with waitSignal:=true}
    ((s.osEventTimeOutSet run timeOutTick).osTskSchedule,none)

/-- `OsSignalWaitSche` behind its `OsTskSchedule`. -/
def osSignalWaitScheCont : Sched×Errno :=
  let run := s.cpu.runningTask
  let s := s.setCont run .user
  if (s.status run).timeout then
    (s.modStatus run fun b => {b with timeout:=false},.signalTimeout)
  else (s,.osOk)

def osSignalWaitReSche (t : Nat) : Sched :=
  ((s.timeoutClear t).readyAddUnlessSuspend t).osTskSchedule

/-- The last branch of `PRT_SignalDeliver`: the task handles the signal first when it runs again. -/
def signalHold (t signum : Nat) : Sched :=
  let s := s.modTcb t fun c =>
    {c with holdSignal:=signum, taskStatus:={c.taskStatus with holdSignal:=true}}
  let s := if (s.status t).sigPause then
      (s.modStatus t fun b => {b with sigPause:=false}).osTskReadyAdd t
    else if s.kthreadStateTst t .interruptible then s.wakeUpProcess t
    else s
  s.osTskSchedule

def prtSignalDeliver (t : Nat) (info : SigInfo) (memOk : Bool) : Sched×Errno :=
  if s.pidOverflow t then (s,.signalParaInvalid)
  else if sigValid info.signo=false then (s,.signalNumInvalid)
  else if (s.status t).unused then (s,.signalTskNotCreated)
  else
    match (s.tcb t).osAddSignalPendingFlag info memOk with
    | none => (s,.signalNoMemory)
    | some c =>
      let s := s.modTcb t fun _ => c
      let b := s.status t
      if b.waitSignal ∧ c.sigWaitMask &&& sigBit info.signo≠0 then
        ((s.modStatus t fun b => {b with waitSignal:=false}).osSignalWaitReSche t,.osOk)
      else if c.sigMask &&& sigBit info.signo≠0 then (s,.osOk)
      else if t=(s.tcb s.cpu.runningTask).taskPid then
        (s.modTcb t fun c => c.osHandleOneSignal info.signo,.osOk)
      else if (b.ready || b.delay || b.sigPause || b.delayInterruptible) && !b.holdSignal then
        (s.signalHold t info.signo,.osOk)
      else (s,.osOk)

def prtSignalWait (set : BitVec 64) (timeOutTick : Nat) : Sched×Option Errno :=
  let run := s.cpu.runningTask
  if set=0 then (s,some .signalParaInvalid)
  else if s.cpu.intActive then (s,some .signalWaitNotInTask)
  else if (s.tcb run).sigPending &&& set≠0 then
    (s.modTcb run fun c => c.osSigWaitProcPendingSignal set,some .osOk)
  else s.osSignalWaitSche set timeOutTick (.signalWait set)

def signalWaitCont (set : BitVec 64) : Sched×Option Errno :=
  match s.osSignalWaitScheCont with
  | (s,.osOk) => (s.modTcb s.cpu.runningTask fun c => c.osSigWaitProcPendingSignal set,some .osOk)
  | (s,e) => (s,some e)

def prtSignalMask (how : SigHow) (set : BitVec 64) : Sched :=
  s.modTcb s.cpu.runningTask fun c =>
    match how with
    | .block => {c with sigMask:=c.sigMask ||| set}
    | .unblock => {c with sigMask:=c.sigMask &&& ~~~ set}.osHandleUnBlockSignal
    | .setmask => {c with sigMask:=set}.osHandleUnBlockSignal

/-- `PRT_SigSuspend` opens the interrupts before it waits. -/
def prtSigSuspend (mask : BitVec 64) : Sched×Option Errno :=
  let run := s.cpu.runningTask
  let saved := (s.tcb run).sigMask
  let s := s.modTcb run fun c => {c with sigMask:=mask, sigWaitMask:=0}
  if (s.tcb run).sigPending &&& ~~~ mask≠0 then
    (s.modTcb run fun c => {c.osHandleUnBlockSignal with sigMask:=saved},some .osOk)
  else if (s.tcb run).taskPid=s.cpu.idleTaskId then (s,some .signalTaskidInvalid)
  else (s.setCont run (.sigSuspendEnter saved (~~~ mask)),none)

/-- With the interrupts open; this is the wait into which none comes before the switch. -/
def sigSuspendEnterCont (saved wait : BitVec 64) : Sched×Option Errno :=
  (s.setCont s.cpu.runningTask .user).osSignalWaitSche wait osWaitForever (.sigSuspend saved)

def sigSuspendCont (saved : BitVec 64) : Sched×Option Errno :=
  match s.osSignalWaitScheCont with
  | (s,.osOk) =>
    (s.modTcb s.cpu.runningTask fun c => {c.osHandleUnBlockSignal with sigMask:=saved},
      some .osOk)
  | (s,e) => (s,some e)

/-- `OsSignalEntry`: the held signal is handled before the task goes on. -/
def osSignalEntry : Sched :=
  let run := s.cpu.runningTask
  s.modTcb run fun c =>
    let c := c.osHandleOneSignal c.holdSignal
    {c with holdSignal:=0, taskStatus:={c.taskStatus with holdSignal:=false}}

def pause : Sched :=
  let run := s.cpu.runningTask
  ((s.modStatus run fun b => {b with sigPause:=true}).osTskReadyDel run).osTskSchedule

end Sched

end UniProton
