import UniProton.Kernel.Task

namespace UniProton

def osEventAny : BitVec 32 := 0x00000001

def osEventAll : BitVec 32 := 0x00000010

def osEventWait : BitVec 32 := 0x00010000

def osEventNowait : BitVec 32 := 0x00100000

def osEventReadParaCheck (eventMask flags : BitVec 32) (timeOut : Nat) : Errno :=
  if eventMask=0 then .eventEventmaskInvalid
  else if ¬(flags=osEventAll ||| osEventWait ∨ flags=osEventAll ||| osEventNowait ∨
      flags=osEventAny ||| osEventWait ∨ flags=osEventAny ||| osEventNowait) ∨
      (flags &&& osEventWait≠0 ∧ timeOut=0) then .eventFlagsInvalid
  else .osOk

/-- Whether the wanted events have not come yet: all of the mask, or any of it. -/
def eventNotMatch (all : Bool) (event mask : BitVec 32) : Bool :=
  if all then decide (mask≠event &&& mask) else decide (event &&& mask=0)

namespace Sched

variable (s : Sched)

/-- The blocking part of `OsEventReadNeedSche` up to its `OsTskSchedule`. -/
def osEventBlock (eventMask : BitVec 32) (all : Bool) (timeOut : Nat) : Sched :=
  let run := s.cpu.runningTask
  let s := (s.setCont run (.eventRead eventMask all)).osTskReadyDel run
  (s.modStatus run fun b => {b with eventPend:=true}).osEventTimeOutSet run timeOut

def osEventTake (eventMask : BitVec 32) : Sched×BitVec 32 :=
  let run := s.cpu.runningTask
  (s.modTcb run fun c => {c with event:=c.event &&& ~~~ eventMask},
    (s.tcb run).event &&& eventMask)

def prtEventRead (eventMask flags : BitVec 32) (timeOut : Nat) :
    Sched×Option (Errno×BitVec 32) :=
  let e := osEventReadParaCheck eventMask flags timeOut
  if e≠.osOk then (s,some (e,0))
  else if s.cpu.intActive then (s,some (.eventReadNotInTask,0))
  else
    let run := s.cpu.runningTask
    let all := decide (flags &&& osEventAll≠0)
    let s := s.modTcb run fun c =>
      {c with eventMask:=eventMask, taskStatus:={c.taskStatus with eventType:=all}}
    if eventNotMatch all (s.tcb run).event eventMask then
      if flags &&& osEventNowait≠0 then (s,some (.eventReadFailed,0))
      else if s.cpu.uniTaskLock≠0 then (s,some (.eventReadInLock,0))
      else ((s.osEventBlock eventMask all timeOut).osTskSchedule,none)
    else
      let r := s.osEventTake eventMask
      (r.1,some (.osOk,r.2))

/-- `OsEventReadNeedSche` behind its `OsTskSchedule`, and the rest of `PRT_EventRead`. -/
def eventReadCont (eventMask : BitVec 32) : Sched×Option (Errno×BitVec 32) :=
  let run := s.cpu.runningTask
  let s := s.setCont run .user
  if (s.status run).timeout then
    (s.modStatus run fun b => {b with timeout:=false},some (.eventReadTimeout,0))
  else
    let r := s.osEventTake eventMask
    (r.1,some (.osOk,r.2))

def osEventStateChange (t : Nat) : Sched := (s.timeoutClear t).readyAddUnlessSuspend t

def prtEventWrite (t : Nat) (events : BitVec 32) : Sched×Errno :=
  if s.pidOverflow t then (s,.eventTaskidInvalid)
  else if events=0 then (s,.eventInvalid)
  else if (s.status t).unused then (s,.eventTskNotCreated)
  else
    let s := s.modTcb t fun c => {c with event:=c.event ||| events}
    let c := s.tcb t
    if c.taskStatus.eventPend ∧ eventNotMatch c.taskStatus.eventType c.event c.eventMask=false then
      let s := s.modStatus t fun b => {b with eventPend:=false}
      ((s.osEventStateChange t).osTskSchedule,.osOk)
    else (s,.osOk)

end Sched

namespace Kernel

variable (k : Kernel)

def logEvent (t : Nat) (e : EvEvent) : Kernel :=
  {k with evLog:=Function.update k.evLog t (e::k.evLog t)}

def logRead (t : Nat) (mask : BitVec 32) (all : Bool) : Option (Errno×BitVec 32) → Kernel
  | none => k
  | some (.osOk,events) => k.logEvent t (.read mask all events)
  | some _ => k.logEvent t (.missed mask all)

def eventRead (mask flags : BitVec 32) (timeOut : Nat) : Kernel×Option Errno :=
  let r := k.sched.prtEventRead mask flags timeOut
  ({k with sched:=r.1}.logRead k.sched.cpu.runningTask mask
    (decide (flags &&& osEventAll≠0)) r.2,r.2.map Prod.fst)

def eventReadRest (mask : BitVec 32) (all : Bool) : Kernel×Option Errno :=
  let r := k.sched.eventReadCont mask
  ({k with sched:=r.1}.logRead k.sched.cpu.runningTask mask all r.2,r.2.map Prod.fst)

def eventWrite (t : Nat) (events : BitVec 32) : Kernel×Option Errno :=
  let r := k.sched.prtEventWrite t events
  let k := {k with sched:=r.1}
  (if r.2=.osOk then k.logEvent t (.wrote events) else k,some r.2)

end Kernel

end UniProton
