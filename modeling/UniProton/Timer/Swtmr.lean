import UniProton.Framework.DeltaList

namespace UniProton

open Framework Function

/-- What `SWTMR` calls answer. -/
inductive TmrErrno
  | ok | intervalInvalid | modeInvalid | procFuncNull | groupIdInvalid
  | intervalNotSuited | intervalOverflow | maxSize | handleInvalid | notCreated | unstart
  deriving DecidableEq

/-- High bits of an expired timer's state: what was asked of it before its handler returned. -/
inductive TmrPre
  | default | preRunning | preCreated | preFree
  deriving DecidableEq

inductive TmrState
  | free | created | running
  | expired (pre : TmrPre)
  deriving DecidableEq

inductive TmrMode
  | loop | once
  deriving DecidableEq

/-- Handlers: that of a periodic task, and those of the users. -/
inductive TmrProcFunc
  | osDelieverSigPeriod
  | user (f : Nat)
  deriving DecidableEq

def osSwtmrSortLinkLen : Nat := 64

/-- Low 26 bits: rounds of the wheel. -/
def uwRollNum (num : BitVec 32) : BitVec 32 := num &&& 0x03ffffff#32

/-- High 6 bits: slot of the wheel. -/
def uwSortIndex (num : BitVec 32) : BitVec 32 := num >>> 26

def evaluateH (num value : BitVec 32) : BitVec 32 := (num &&& 0x03ffffff#32) ||| (value <<< 26)

def evaluateL (num value : BitVec 32) : BitVec 32 := (num &&& 0xfc000000#32) ||| value

def uwRollNumAdd (num1 num2 : BitVec 32) : BitVec 32 :=
  (num1 &&& 0xfc000000#32) ||| (uwRollNum num1+uwRollNum num2)

def uwRollNumSub (num1 num2 : BitVec 32) : BitVec 32 :=
  (num1 &&& 0xfc000000#32) ||| (uwRollNum num1-uwRollNum num2)

def uwRollNumDec (num : BitVec 32) : BitVec 32 := num-1

/-- `struct TagSwTmrCtrl`; a timer is known by its index, its links are the lists below. -/
structure SwTmrCtrl where
  state : TmrState
  mode : TmrMode
  idxRollNum : BitVec 32
  interval : BitVec 32
  overrun : BitVec 8
  arg1 : BitVec 32
  arg2 : BitVec 32
  arg3 : BitVec 32
  arg4 : BitVec 32
  handler : TmrProcFunc
  /-- Tickless builds only. -/
  expectedTick : Nat
  deriving DecidableEq

/-- The timer group is only created when the tick has a rate. -/
structure TmrCfg where
  maxNum : Nat
  tickPerSecond : Nat
  tickInit : 0<tickPerSecond
  tickless : Bool

lemma TmrCfg.pos_thousand : 0<1000 := by decide

lemma TmrCfg.pos_hundred : 0<100 := by decide

/-- `g_swtmrCbArray`, `g_tmrFreeList` and `g_tmrSortLink`; a list holds the indices of its timers
in order. -/
structure SwTmrs where
  cb : Nat → SwTmrCtrl
  freeList : List Nat
  cursor : Nat
  sortLink : Nat → List Nat
  uniTicks : Nat

namespace SwTmrs

variable (c : TmrCfg) (t : SwTmrs)

def init : SwTmrs where
  cb _ := ⟨.free,.loop,0,0,0,0,0,0,0,.user 0,0⟩
  freeList := List.range c.maxNum
  cursor := 0
  sortLink _ := []
  uniTicks := 0

def modCb (i : Nat) (f : SwTmrCtrl → SwTmrCtrl) : SwTmrs :=
  {t with cb:=update t.cb i (f (t.cb i))}

/-- The search for the place of a timer in its slot: every count is relative to the node in
front. -/
def sortLinkInsert (cb : Nat → SwTmrCtrl) (i : Nat) : List Nat → (Nat → SwTmrCtrl)×List Nat
  | [] => (cb,[i])
  | temp::l =>
    if uwRollNum (cb i).idxRollNum<uwRollNum (cb temp).idxRollNum then
      (update cb temp { cb temp with
        idxRollNum := uwRollNumSub (cb temp).idxRollNum (cb i).idxRollNum },i::temp::l)
    else
      let r := sortLinkInsert (update cb i { cb i with
        idxRollNum := uwRollNumSub (cb i).idxRollNum (cb temp).idxRollNum }) i l
      (r.1,temp::r.2)

def startIndex (cursor : Nat) (idxRollNum interval : BitVec 32) : BitVec 32 :=
  let sortIndex := interval &&& 0x3f#32
  let rollNum := interval/64
  let rollNum := if 0<sortIndex then rollNum else rollNum-1
  let sortIndex' := (sortIndex+BitVec.ofNat 32 cursor) &&& 0x3f#32
  evaluateH (evaluateL idxRollNum rollNum) sortIndex'

def osSwTmrStartInner (i : Nat) (interval : BitVec 32) : SwTmrs :=
  t.modCb i fun s => {s with
    idxRollNum := startIndex t.cursor s.idxRollNum interval, overrun := 0, state := .running}

def osSwTmrStart (i : Nat) (interval : BitVec 32) : SwTmrs :=
  let t1 := if c.tickless then
      t.modCb i fun s => {s with expectedTick:=(interval.toNat+t.uniTicks)%2^64}
    else t
  let t2 := t1.osSwTmrStartInner i interval
  let slot := (uwSortIndex (t2.cb i).idxRollNum).toNat
  let r := sortLinkInsert t2.cb i (t2.sortLink slot)
  {t2 with cb:=r.1, sortLink:=update t2.sortLink slot r.2}

/-- The timer and the ones in front of it in the slot, by `prev`. -/
def prevChain (l : List Nat) (i : Nat) : List Nat := i::(l.takeWhile (· ≠ i)).reverse

def osSwTmrGetRemain (i : Nat) : BitVec 32 :=
  let slot := uwSortIndex (t.cb i).idxRollNum
  let cursor := BitVec.ofNat 32 t.cursor
  let temp := (if slot≤cursor then slot+64 else slot)-cursor
  let rolls := (prevChain (t.sortLink slot.toNat) i).foldl
    (fun r j => r+uwRollNum (t.cb j).idxRollNum) 0
  rolls * 64+temp

def osSwTmrGetRemainTick (i : Nat) : BitVec 32 :=
  match (t.cb i).state with
  | .created => (t.cb i).idxRollNum
  | .expired _ => 0
  | _ => t.osSwTmrGetRemain i

/-- The node behind takes over the count of the one that stops. -/
def rollToNext (i : Nat) : SwTmrs :=
  match Delta.after (t.sortLink (uwSortIndex (t.cb i).idxRollNum).toNat) i with
  | some j => t.modCb j fun s => {s with
      idxRollNum := uwRollNumAdd s.idxRollNum (t.cb i).idxRollNum}
  | none => t

def osSwTmrStop (i : Nat) (reckonOff : Bool) : SwTmrs :=
  let slot := (uwSortIndex (t.cb i).idxRollNum).toNat
  let t1 := t.rollToNext i
  let t2 := if reckonOff then t1
    else t1.modCb i fun s => {s with idxRollNum:=t1.osSwTmrGetRemainTick i}
  { t2.modCb i fun s => {s with state:=.created} with
    sortLink := update t2.sortLink slot ((t2.sortLink slot).erase i) }

def osSwTmrDelete (i : Nat) : SwTmrs :=
  {t.modCb i fun s => {s with state:=.free} with freeList:=i::t.freeList}

/-- A stopped timer goes on with what was left. -/
def startCount (s : SwTmrCtrl) : BitVec 32 := if s.idxRollNum=0 then s.interval else s.idxRollNum

def osSwTmrStartTimer (i : Nat) : TmrErrno×SwTmrs :=
  if c.maxNum ≤ i then (.handleInvalid,t)
  else match (t.cb i).state with
    | .free => (.notCreated,t)
    | .expired _ => (.ok,t.modCb i fun s => {s with state:=.expired .preRunning})
    | .running => (.ok,t)
    | .created =>
      let n := startCount (t.cb i)
      (.ok,(t.modCb i fun s => {s with idxRollNum:=n}).osSwTmrStart c i n)

def osSwTmrStopTimer (i : Nat) : TmrErrno×SwTmrs :=
  if c.maxNum ≤ i then (.handleInvalid,t)
  else match (t.cb i).state with
    | .free => (.notCreated,t)
    | .expired _ => (.ok,t.modCb i fun s => {s with state:=.expired .preCreated})
    | .created => (.unstart,t)
    | .running => (.ok,t.osSwTmrStop i false)

def osSwTmrRestartTimer (i : Nat) : TmrErrno×SwTmrs :=
  if c.maxNum ≤ i then (.handleInvalid,t)
  else match (t.cb i).state with
    | .free => (.notCreated,t)
    | .expired _ => (.ok,t.modCb i fun s => {s with state:=.expired .preRunning})
    | .running => (.ok,(t.osSwTmrStop i true).osSwTmrStart c i (t.cb i).interval)
    | .created => (.ok,t.osSwTmrStart c i (t.cb i).interval)

def osSwTmrDeleteTimer (i : Nat) : TmrErrno×SwTmrs :=
  if c.maxNum ≤ i then (.handleInvalid,t)
  else match (t.cb i).state with
    | .free => (.notCreated,t)
    | .expired _ => (.ok,t.modCb i fun s => {s with state:=.expired .preFree})
    | .running => (.ok,(t.osSwTmrStop i true).osSwTmrDelete i)
    | .created => (.ok,t.osSwTmrDelete i)

/-- Remaining time in milliseconds, rounded up. -/
def osSwTmrQuery (i : Nat) : TmrErrno×Nat :=
  if c.maxNum ≤ i then (.handleInvalid,0)
  else if (t.cb i).state=.free then (.notCreated,0)
  else
    let remainTick := (t.osSwTmrGetRemainTick i).toNat
    let remainMs := remainTick*1000/c.tickPerSecond%2^32
    (.ok,if remainTick*1000%c.tickPerSecond≠0 then (remainMs+1)%2^32 else remainMs)

end SwTmrs

/-- `struct TimerCreatePara` of a software timer; a mode outside the enumeration is `none`. -/
structure TimerCreatePara where
  mode : Option TmrMode
  interval : BitVec 32
  timerGroupId : Nat
  callBackFunc : Option TmrProcFunc
  arg1 : BitVec 32
  arg2 : BitVec 32
  arg3 : BitVec 32
  arg4 : BitVec 32
  deriving DecidableEq

namespace SwTmrs

variable (c : TmrCfg) (t : SwTmrs)

def osSwTmrCreateTimerParaChk (p : TimerCreatePara) : TmrErrno :=
  if p.callBackFunc.isNone then .procFuncNull
  else if p.timerGroupId≠0 then .groupIdInvalid
  else if c.tickPerSecond*p.interval.toNat%1000≠0 then .intervalNotSuited
  else if 1000*(2^32-1)/c.tickPerSecond<p.interval.toNat then .intervalOverflow
  else .ok

def osSwTmrCreateTimerCbInit (i : Nat) (p : TimerCreatePara) (mode : TmrMode)
    (callBackFunc : TmrProcFunc) (interval : BitVec 32) : SwTmrs :=
  t.modCb i fun s => {s with
    handler := callBackFunc, mode := mode, interval := interval, idxRollNum := interval
    overrun := 0, arg1 := p.arg1, arg2 := p.arg2, arg3 := p.arg3, arg4 := p.arg4
    state := .created}

/-- `PRT_TimerCreate` of a software timer down to `OsSwTmrCreateTimer`. -/
def prtTimerCreate (p : TimerCreatePara) : TmrErrno×Nat×SwTmrs :=
  if p.interval=0 then (.intervalInvalid,0,t)
  else match p.mode, p.callBackFunc, t.freeList with
    | none, _, _ => (.modeInvalid,0,t)
    | some mode, some f, i::l =>
      if osSwTmrCreateTimerParaChk c p=.ok then
        (.ok,i,{t with freeList:=l}.osSwTmrCreateTimerCbInit i p mode f
          (BitVec.ofNat 32 (c.tickPerSecond*p.interval.toNat/1000)))
      else (osSwTmrCreateTimerParaChk c p,0,t)
    | some _, _, _ =>
      if osSwTmrCreateTimerParaChk c p=.ok then (.maxSize,0,t)
      else (osSwTmrCreateTimerParaChk c p,0,t)

def osSwtmrProc (i : Nat) : SwTmrs :=
  match (t.cb i).state with
  | .expired .preRunning => t.osSwTmrStart c i (t.cb i).interval
  | .expired .preCreated =>
    t.modCb i fun s => {s with idxRollNum:=0, overrun:=0, state:=.created}
  | .expired .preFree => t.osSwTmrDelete i
  | _ => match (t.cb i).mode with
    | .loop => (t.modCb i fun s => {s with overrun:=0}).osSwTmrStart c i (t.cb i).interval
    | .once => t.modCb i fun s => {s with overrun:=0, idxRollNum:=0, state:=.created}

/-- The loop over a slot: the timers in front with no rounds left expire, the first of the
others has one round less. -/
def scanSlot (cb : Nat → SwTmrCtrl) : List Nat → (Nat → SwTmrCtrl)×List Nat×List Nat
  | [] => (cb,[],[])
  | i::l =>
    if 0<uwRollNum (cb i).idxRollNum then
      (update cb i {cb i with idxRollNum:=uwRollNumDec (cb i).idxRollNum},[],i::l)
    else
      let r := scanSlot (update cb i { cb i with
        overrun := if (cb i).overrun<0xFF then (cb i).overrun+1 else (cb i).overrun
        state := .expired .default }) l
      (r.1,i::r.2.1,r.2.2)

/-- `OsSwTmrScanOneSlot` up to the first handler; also gives the list of expired timers. -/
def osSwTmrScanOneSlot : SwTmrs×List Nat :=
  let cursor := (t.cursor+1)%osSwtmrSortLinkLen
  let r := scanSlot t.cb (t.sortLink cursor)
  ({t with cursor:=cursor, cb:=r.1, sortLink:=update t.sortLink cursor r.2.2},r.2.1)

end SwTmrs

end UniProton
