import UniProton.Kernel.Task

namespace UniProton

open Framework Function

def osQueuePidInvalid : Nat := 0xFFFF

def osQueueNodeHeadLen : Nat := 4

def osQueueInnerId (queueId : Nat) : Nat := (queueId+(2^32-1))%2^32

def osQueueGetNodeSize (nodeSize : Nat) : Nat := (nodeSize+1)/2*2+osQueueNodeHeadLen

def QueCb.next (c : QueCb) (i : Nat) : Nat := if i+1=c.nodeNum then 0 else i+1

def QueCb.prev (c : QueCb) (i : Nat) : Nat := (if i=0 then c.nodeNum else i)-1

/-- The buffer keeps its old bytes behind the copied ones. -/
def QueCb.store (c : QueCb) (i pid : Nat) (data : List UInt8) : QueCb :=
  {c with
    queue := update c.queue i ⟨pid%2^16,data.length%2^16,data++(c.queue i).buf.drop data.length⟩}

/-- `OsQueueCpData2Node` without the peak. -/
def QueCb.cpData (c : QueCb) (urgent : Bool) (pid : Nat) (data : List UInt8) : QueCb :=
  if urgent then {c with queueHead:=c.prev c.queueHead}.store (c.prev c.queueHead) pid data
  else {c with queueTail:=c.next c.queueTail}.store c.queueTail pid data

def QueCb.peakSet (c : QueCb) : QueCb :=
  let peak := if c.queueHead<c.queueTail then c.queueTail-c.queueHead
    else c.nodeNum-c.queueHead+c.queueTail
  {c with nodePeak:=if c.nodePeak<peak then peak else c.nodePeak}

namespace Kernel

variable (k : Kernel)

def modQue (q : Nat) (f : QueCb → QueCb) : Kernel :=
  {k with queues:=update k.queues q (f (k.queues q))}

def logQue (q : Nat) (e : QueEvent) : Kernel :=
  {k with queLog:=update k.queLog q (e::k.queLog q)}

/-- A message written from an interrupt does not tell which one. -/
def osGetSrcPid : Nat :=
  if k.sched.cpu.intActive then 0xFF else (k.sched.tcb k.sched.cpu.runningTask).taskPid

def queSource : Option Nat :=
  if k.sched.cpu.intActive then none else some (k.sched.tcb k.sched.cpu.runningTask).taskPid

def queCnt (q : Nat) (write : Bool) : Nat :=
  if write then (k.queues q).writableCnt else (k.queues q).readableCnt

def queCntSet (q : Nat) (write : Bool) (n : Nat) : Kernel :=
  k.modQue q fun c => if write then {c with writableCnt:=n} else {c with readableCnt:=n}

/-- The blocking part of `OsInnerPend` up to its `OsTskSchedule`. -/
def osQueueBlock (s : Sched) (q : Nat) (write : Bool) (timeOut : Nat) (c : Cont) : Sched :=
  let run := s.cpu.runningTask
  let s := (s.osTskReadyDel run).modTcb run fun c =>
    {c with taskPend:=some (.queue q), taskStatus:={c.taskStatus with queuePend:=true}}
  ((s.pendTailAdd run (.queue q write)).setCont run c).timeoutSet run timeOut

/-- `OsInnerPend` up to its `OsTskSchedule`: no error code for a task that waits. -/
def osInnerPend (q : Nat) (write : Bool) (timeOut : Nat) (c : Cont) : Kernel×Option Errno :=
  if 0<k.queCnt q write then (k.queCntSet q write (k.queCnt q write-1),some .osOk)
  else if timeOut=0 then (k,some .queueNoSource)
  else if k.sched.cpu.intActive then (k,some .queueInInterrupt)
  else if k.sched.cpu.uniTaskLock≠0 then (k,some .queuePendInLock)
  else (k.onSched fun s => (osQueueBlock s q write timeOut c).osTskSchedule,none)

def osInnerPendCont : Kernel×Errno :=
  let run := k.sched.cpu.runningTask
  let k := k.onSched fun s =>
    (s.modStatus run fun b => {b with queueBusy:=false}).setCont run .user
  if (k.sched.status run).timeout then
    (k.onSched fun s => s.modStatus run fun b => {b with timeout:=false},.queueTimeout)
  else (k,.osOk)

/-- The first waiting task is given a message or a node, marked by the busy bit until it goes on. -/
def osQueueWake (s : Sched) (t : Nat) : Sched :=
  let s := (s.pendDelete t).modTcb t fun c =>
    {c with taskPend:=none, taskStatus:={c.taskStatus with queuePend:=false}}
  let s := (s.timeoutClear t).modStatus t fun b => {b with queueBusy:=true}
  s.readyAddUnlessSuspend t

def osQueuePendNeedProc (q : Nat) (write : Bool) : Kernel×Bool :=
  match k.sched.pend.lists (.queue q write) with
  | [] => (k,false)
  | t::_ => (k.onSched fun s => osQueueWake s t,true)

/-- The tail that both operations share: wake a task of the other side, or count. -/
def queueGive (q : Nat) (write : Bool) : Kernel :=
  match k.osQueuePendNeedProc q write with
  | (k,true) => k.onSched fun s => s.osTskSchedule
  | (k,false) => k.queCntSet q write (k.queCnt q write+1)

def queueReadOut (q len : Nat) : Kernel :=
  let c := k.queues q
  let node := c.queue c.queueHead
  let n := if node.size<len then node.size else len
  let k := k.modQue q fun c =>
    {c with
      queue := update c.queue c.queueHead {node with srcPid:=osQueuePidInvalid}
      queueHead := c.next c.queueHead}
  (k.logQue q (.got len n (node.buf.take n))).queueGive q true

def queueWriteIn (q : Nat) (data : List UInt8) (prio : Nat) : Kernel :=
  let urgent := decide (prio≠0)
  let k := k.modQue q fun c => (c.cpData urgent k.osGetSrcPid data).peakSet
  (k.logQue q (.wrote k.queSource urgent data)).queueGive q false

/-- `len` is the size of the reader's buffer. -/
def prtQueueRead (queueId len timeOut : Nat) : Kernel×Option Errno :=
  let q := osQueueInnerId queueId
  if k.sched.cfg.maxQueue≤q then (k,some .queueInvalid)
  else if len=0 then (k,some .queueSizeZero)
  else if (k.queues q).used=false then (k,some .queueNotCreate)
  else
    match k.osInnerPend q false timeOut (.queueRead q len) with
    | (k,some .osOk) => (k.queueReadOut q len,some .osOk)
    | r => r

def queueReadCont (q len : Nat) : Kernel×Option Errno :=
  match k.osInnerPendCont with
  | (k,.osOk) => (k.queueReadOut q len,some .osOk)
  | (k,e) => (k,some e)

def osQueueWriteParaCheck (q size prio : Nat) : Errno :=
  if k.sched.cfg.maxQueue≤q then .queueInvalid
  else if size=0 then .queueSizeZero
  else if 1<prio then .queuePrioInvalid
  else .osOk

def prtQueueWrite (queueId : Nat) (data : List UInt8) (timeOut prio : Nat) :
    Kernel×Option Errno :=
  let q := osQueueInnerId queueId
  let e := k.osQueueWriteParaCheck q data.length prio
  if e≠.osOk then (k,some e)
  else if (k.queues q).used=false then (k,some .queueNotCreate)
  else if (k.queues q).nodeSize-osQueueNodeHeadLen<data.length then
    (k,some .queueSizeTooBig)
  else
    match k.osInnerPend q true timeOut (.queueWrite q data prio) with
    | (k,some .osOk) => (k.queueWriteIn q data prio,some .osOk)
    | r => r

def queueWriteCont (q : Nat) (data : List UInt8) (prio : Nat) : Kernel×Option Errno :=
  match k.osInnerPendCont with
  | (k,.osOk) => (k.queueWriteIn q data prio,some .osOk)
  | (k,e) => (k,some e)

def osQueueCreatParaCheck (nodeNum nodeSize : Nat) : Errno :=
  if nodeNum=0 ∨ nodeSize=0 then .queueParaZero
  else if 0xFFFF<osQueueGetNodeSize nodeSize then .queueNsizeInvalid
  else .osOk

/-- `memOk` is the answer of the allocator; the fresh memory of the nodes is taken as zero. -/
def prtQueueCreate (nodeNum nodeSize : UInt16) (memOk : Bool) : Kernel×Errno :=
  let e := osQueueCreatParaCheck nodeNum.toNat nodeSize.toNat
  if e≠.osOk then (k,e)
  else
    match (List.range k.sched.cfg.maxQueue).find? fun q => !(k.queues q).used with
    | none => (k,.queueCbUnavailable)
    | some q =>
      if memOk=false then (k,.queueCreateNoMemory)
      else
        let size := osQueueGetNodeSize nodeSize.toNat
        let buf := List.replicate (size-osQueueNodeHeadLen) 0
        let k := k.modQue q fun _ =>
          { queue := fun _ => ⟨osQueuePidInvalid,0,buf⟩
            used := true
            nodeNum := nodeNum.toNat
            nodeSize := size
            writableCnt := nodeNum.toNat }
        ({k with queLog:=update k.queLog q []},.osOk)

def prtQueueDelete (queueId : Nat) : Kernel×Errno :=
  let q := osQueueInnerId queueId
  let c := k.queues q
  if k.sched.cfg.maxQueue≤q then (k,.queueInvalid)
  else if c.used=false then (k,.queueNotCreate)
  else if k.sched.pend.lists (.queue q true)≠[] ∨ k.sched.pend.lists (.queue q false)≠[] then
    (k,.queueInTskuse)
  else if c.writableCnt+c.readableCnt≠c.nodeNum then (k,.queueBusy)
  else (k.modQue q fun c => {c with used:=false},.osOk)

end Kernel

end UniProton
