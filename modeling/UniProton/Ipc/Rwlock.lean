import UniProton.Kernel.Task

namespace UniProton

open Framework Function

def s32Max : Int := 0x7FFFFFFF

def s32Min : Int := -0x80000000

/-- `OsRwLockGetMode` -/
inductive RwlockMode where
  | none | read | write | writefirst | readfirst deriving DecidableEq

namespace Sched

variable (s : Sched)

/-- Whether a reader is more urgent than the first waiting writer. -/
def osRwlockPriCompare (run : Nat) (h : PendHead) : Bool :=
  match s.pend.lists h with
  | [] => true
  | t::_ => decide ((s.tcb run).priority<(s.tcb t).priority)

/-- The place behind the first task of equal priority, or before the first of a lower one. -/
def osRwLockPendFindPosSub (run : Nat) : List Nat → Nat
  | [] => 0
  | u::us =>
    if (s.tcb u).priority<(s.tcb run).priority then osRwLockPendFindPosSub run us+1
    else if (s.tcb run).priority<(s.tcb u).priority then 0
    else 1

def osRwLockPendFindPos (run : Nat) (h : PendHead) : Nat :=
  let list := s.pend.lists h
  match list.head?, list.getLast? with
  | some first, some last =>
    if (s.tcb run).priority<(s.tcb first).priority then 0
    else if (s.tcb last).priority≤(s.tcb run).priority then list.length
    else s.osRwLockPendFindPosSub run list
  | _, _ => 0

/-- `OsRwLockPendPre` at the place found before; the context is saved with it. -/
def osRwLockPendPre (l : Nat) (write : Bool) (timeout : Nat) : Sched :=
  let run := s.cpu.runningTask
  let pos := s.osRwLockPendFindPos run (.rw l write)
  let s := s.setCont run (.rwPend l write (hasLimit timeout))
  let s := (s.osTskReadyDel run).modStatus run fun b => {b with rwPend:=true}
  (s.timeoutSet run timeout).pendInsert run (.rw l write) pos

def osRwLockPendSchedule (l : Nat) (write : Bool) (timeout : Nat) : Sched×Option Errno :=
  if timeout=0 then (s,some .einval)
  else ((s.osRwLockPendPre l write timeout).osTskSchedule,none)

/-- `OsRwLockPendSchedule` behind its `OsTskSchedule`: a timed wait opens the interrupts before
it looks at the timeout flag. -/
def rwPendCont (l : Nat) (write timed : Bool) : Sched×Option Errno :=
  let run := s.cpu.runningTask
  if timed then (s.setCont run (.rwCheck l write),none) else (s.setCont run .user,some .osOk)

def rwCheckCont : Sched×Option Errno :=
  let run := s.cpu.runningTask
  let s := s.setCont run .user
  if (s.status run).timeout then
    (s.modStatus run fun b => {b with timeout:=false},some .etimedout)
  else (s,some .osOk)

def osRwLockTaskWake (t : Nat) : Sched :=
  let s := ((s.pendDelete t).timeoutClear t).modStatus t fun b => {b with rwPend:=false}
  s.readyAddUnlessSuspend t

def osRwLockGetMode (l : Nat) : RwlockMode×Nat :=
  match s.pend.lists (.rw l false), s.pend.lists (.rw l true) with
  | [], [] => (.none,0)
  | _::_, [] => (.read,0)
  | [], w::_ => (.write,(s.tcb w).priority)
  | r::_, w::_ =>
    if (s.tcb w).priority≤(s.tcb r).priority then (.writefirst,(s.tcb w).priority)
    else (.readfirst,(s.tcb w).priority)

/-- The loop of `OsRwLockPost` over the waiting readers, with the count and whether it was
exhausted. -/
def osRwLockWakeReaders (l : Nat) (bound : Option Nat) : Nat → Sched → Int → Sched×Int×Bool
  | 0, s, count => (s,count,false)
  | n+1, s, count =>
    match s.pend.lists (.rw l false) with
    | [] => (s,count,false)
    | t::_ =>
      if bound.any fun p => p≤(s.tcb t).priority then (s,count,false)
      else if count=s32Max then (s,count,true)
      else osRwLockWakeReaders l bound n (s.osRwLockTaskWake t) (count+1)

end Sched

namespace Kernel

variable (k : Kernel)

def modRw (l : Nat) (f : RwLock → RwLock) : Kernel :=
  {k with rwlocks:=update k.rwlocks l (f (k.rwlocks l))}

def rwHeld (l t : Nat) (write : Bool) : Kernel :=
  {k with rwHolds:=update k.rwHolds l ((t,write)::k.rwHolds l)}

/-- The lock is taken as initialised, so its magic number is right. -/
def osRwLockCheck : Errno :=
  if k.sched.cpu.intActive then .einval
  else if k.sched.cpu.uniTaskLock≠0 then .edeadlk
  else .osOk

def osRwLockTryRdCheck (l run : Nat) : Errno :=
  if (k.rwlocks l).rwOwner=some run then .einval
  else if 0≤(k.rwlocks l).rwCount ∧ k.sched.osRwlockPriCompare run (.rw l true)=false then
    .ebusy
  else if (k.rwlocks l).rwCount<0 then .ebusy
  else .osOk

def osRwlockTryWrCheck (l run : Nat) : Errno :=
  if 0<(k.rwlocks l).rwCount then .ebusy
  else if (k.rwlocks l).rwCount<0 ∧ (k.rwlocks l).rwOwner≠some run then .ebusy
  else .osOk

def rwPendSchedule (l : Nat) (write : Bool) (timeout : Nat) : Kernel×Option Errno :=
  let r := k.sched.osRwLockPendSchedule l write timeout
  ({k with sched:=r.1},r.2)

def osRwLockRdPend (l timeout : Nat) (try_ : Bool) : Kernel×Option Errno :=
  let run := k.sched.cpu.runningTask
  let e := k.osRwLockCheck
  let rw := k.rwlocks l
  if e≠.osOk then (k,some e)
  else if try_ ∧ k.osRwLockTryRdCheck l run≠.osOk then (k,some (k.osRwLockTryRdCheck l run))
  else if 0≤rw.rwCount ∧ k.sched.osRwlockPriCompare run (.rw l true) then
    if rw.rwCount=s32Max then (k,some .einval)
    else ((k.modRw l fun r => {r with rwCount:=r.rwCount+1}).rwHeld l run false,some .osOk)
  else if rw.rwOwner=some run then (k,some .einval)
  else k.rwPendSchedule l false timeout

/-- The writer that has the lock may ask for it again, but has it only once. -/
def osRwLockWrPend (l timeout : Nat) (try_ : Bool) : Kernel×Option Errno :=
  let run := k.sched.cpu.runningTask
  let e := k.osRwLockCheck
  let rw := k.rwlocks l
  if e≠.osOk then (k,some e)
  else if try_ ∧ k.osRwlockTryWrCheck l run≠.osOk then (k,some (k.osRwlockTryWrCheck l run))
  else if rw.rwCount=0 then
    ((k.modRw l fun _ => {rwCount := -1, rwOwner:=some run}).rwHeld l run true,some .osOk)
  else if rw.rwCount<0 ∧ rw.rwOwner=some run then
    (k,some (if rw.rwCount=s32Min then .einval else .osOk))
  else k.rwPendSchedule l true timeout

/-- The readers' side of `OsRwLockPost`: the first reader `r`, and those of the `n` behind it that
are more urgent than the bound. -/
def osRwLockPostRead (l : Nat) (bound : Option Nat) (r n : Nat) : Kernel×Errno×Bool :=
  let (s,count,full) := Sched.osRwLockWakeReaders l bound n (k.sched.osRwLockTaskWake r) 1
  let k := {k with sched:=s}.modRw l fun c => {c with rwCount:=count}
  if full then (k,.einval,false) else (k,.osOk,true)

def osRwLockPost (l : Nat) : Kernel×Errno×Bool :=
  let k := k.modRw l fun _ => {}
  let mode := k.sched.osRwLockGetMode l
  match mode.1, k.sched.pend.lists (.rw l true), k.sched.pend.lists (.rw l false) with
  | .write, w::_, _ | .writefirst, w::_, _ =>
    ((k.modRw l fun _ => {rwCount := -1, rwOwner:=some w}).onSched fun s =>
      s.osRwLockTaskWake w,.osOk,true)
  | .read, _, r::rs | .readfirst, _, r::rs =>
    k.osRwLockPostRead l (if mode.1=.readfirst then some mode.2 else none) r rs.length
  | _, _, _ => (k,.osOk,false)

def osRwLockUnlock (l : Nat) : Kernel×Errno×Bool :=
  let rw := k.rwlocks l
  if rw.rwCount=0 then (k,.eperm,false)
  else if rw.rwCount<0 ∧ rw.rwOwner≠some k.sched.cpu.runningTask then (k,.eperm,false)
  else if 1<rw.rwCount then
    (k.modRw l fun r => {r with rwCount:=r.rwCount-1},.osOk,false)
  else if rw.rwCount < -1 then
    (k.modRw l fun r => {r with rwCount:=r.rwCount+1},.osOk,false)
  else k.osRwLockPost l

def rwPendRest (l : Nat) (write timed : Bool) : Kernel×Option Errno :=
  let r := k.sched.rwPendCont l write timed
  let t := k.sched.cpu.runningTask
  (if r.2=some .osOk then {k with sched:=r.1}.rwHeld l t write else {k with sched:=r.1},
    r.2)

def rwCheckRest (l : Nat) (write : Bool) : Kernel×Option Errno :=
  let r := k.sched.rwCheckCont
  let t := k.sched.cpu.runningTask
  (if r.2=some .osOk then {k with sched:=r.1}.rwHeld l t write else {k with sched:=r.1},
    r.2)

def pthreadRwlockUnlock (l : Nat) : Kernel×Errno :=
  match k.osRwLockUnlock l with
  | (k,.osOk,true) => (k.onSched fun s => s.osTskSchedule,.osOk)
  | (k,e,_) => (k,e)

/-- `pthread_rwlock_unlock`, by which the caller gives back what the lock is held for. -/
def rwUnlock (l : Nat) : Kernel×Errno :=
  let mine := (k.sched.cpu.runningTask,decide ((k.rwlocks l).rwCount<0))
  let r := k.pthreadRwlockUnlock l
  (if r.2=.osOk then
    {r.1 with rwHolds:=update k.rwHolds l ((k.rwHolds l).erase mine)} else r.1,r.2)

end Kernel

end UniProton
