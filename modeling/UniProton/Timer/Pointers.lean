import UniProton.Framework.Pool
import UniProton.Timer.WheelRun

namespace UniProton

open Framework Function

/-- The timers with the pointers of their control blocks; the heads are the slots of the wheel. -/
structure LinkedTmrs where
  pool : Pool Nat Nat
  cb : Nat → SwTmrCtrl
  cursor : Nat
  uniTicks : Nat

namespace LinkedTmrs

variable (c : TmrCfg) (t : LinkedTmrs)

def init : LinkedTmrs where
  pool :=
    { next := fun
        | .null => .null
        | .head s => .head s
        | .node i => if i+1<c.maxNum then .node (i+1) else .null
      prev := fun
        | .head s => .head s
        | _ => .null
      free := if 0<c.maxNum then .node 0 else .null }
  cb := (SwTmrs.init c).cb
  cursor := 0
  uniTicks := 0

def modCb (i : Nat) (f : SwTmrCtrl → SwTmrCtrl) : LinkedTmrs :=
  {t with cb:=update t.cb i (f (t.cb i))}

/-- The search of `OsSwTmrStart` along `next`, for as many steps as there are timers. It ends at
the head of the slot, which is no timer. -/
def findPlace (p : Pool Nat Nat) (i : Nat) :
    Nat → (Nat → SwTmrCtrl) → Ptr Nat Nat → (Nat → SwTmrCtrl)×Ptr Nat Nat
  | n+1, cb, .node temp =>
    if uwRollNum (cb i).idxRollNum<uwRollNum (cb temp).idxRollNum then
      (update cb temp { cb temp with
        idxRollNum := uwRollNumSub (cb temp).idxRollNum (cb i).idxRollNum },.node temp)
    else
      findPlace p i n (update cb i { cb i with
        idxRollNum := uwRollNumSub (cb i).idxRollNum (cb temp).idxRollNum }) (p.next (.node temp))
  | _, cb, temp => (cb,temp)

def osSwTmrStart (i : Nat) (interval : BitVec 32) : LinkedTmrs :=
  let s := { t.cb i with
    expectedTick := if c.tickless then (interval.toNat+t.uniTicks)%2^64
      else (t.cb i).expectedTick
    idxRollNum := SwTmrs.startIndex t.cursor (t.cb i).idxRollNum interval
    overrun := 0
    state := .running }
  let cb := update t.cb i s
  let listObject := .head (uwSortIndex s.idxRollNum).toNat
  if t.pool.next listObject=listObject then
    {t with
      cb := cb
      pool := (((t.pool.setNext (.node i) listObject).setPrev (.node i) listObject).setNext
        listObject (.node i)).setPrev listObject (.node i)}
  else
    let r := findPlace t.pool i c.maxNum cb (t.pool.next listObject)
    {t with cb:=r.1, pool:=t.pool.linkBefore i r.2}

/-- The rounds of a timer and of those in front of it, along `prev`. -/
def prevRolls (p : Pool Nat Nat) (cb : Nat → SwTmrCtrl) : Nat → Ptr Nat Nat → BitVec 32 → BitVec 32
  | n+1, .node timer, retValue =>
    prevRolls p cb n (p.prev (.node timer)) (retValue+uwRollNum (cb timer).idxRollNum)
  | _, _, retValue => retValue

def osSwTmrGetRemain (i : Nat) : BitVec 32 :=
  let slot := uwSortIndex (t.cb i).idxRollNum
  let cursor := BitVec.ofNat 32 t.cursor
  let temp := (if slot≤cursor then slot+64 else slot)-cursor
  prevRolls t.pool t.cb c.maxNum (.node i) 0 * 64+temp

def osSwTmrGetRemainTick (i : Nat) : BitVec 32 :=
  match (t.cb i).state with
  | .created => (t.cb i).idxRollNum
  | .expired _ => 0
  | _ => t.osSwTmrGetRemain c i

def rollToNext (i : Nat) : LinkedTmrs :=
  match t.pool.next (.node i) with
  | .node j => t.modCb j fun s => {s with
      idxRollNum := uwRollNumAdd s.idxRollNum (t.cb i).idxRollNum}
  | _ => t

def osSwTmrStop (i : Nat) (reckonOff : Bool) : LinkedTmrs :=
  let t1 := t.rollToNext i
  let t2 := if reckonOff then t1
    else t1.modCb i fun s => {s with idxRollNum:=t1.osSwTmrGetRemainTick c i}
  {t2.modCb i fun s => {s with state:=.created} with pool:=t2.pool.unlink i}

def osSwTmrDelete (i : Nat) : LinkedTmrs :=
  {t.modCb i fun s => {s with state:=.free} with pool:=t.pool.release i}

def osSwTmrStartTimer (i : Nat) : TmrErrno×LinkedTmrs :=
  if c.maxNum ≤ i then (.handleInvalid,t)
  else match (t.cb i).state with
    | .free => (.notCreated,t)
    | .expired _ => (.ok,t.modCb i fun s => {s with state:=.expired .preRunning})
    | .running => (.ok,t)
    | .created =>
      let n := SwTmrs.startCount (t.cb i)
      (.ok,(t.modCb i fun s => {s with idxRollNum:=n}).osSwTmrStart c i n)

def osSwTmrStopTimer (i : Nat) : TmrErrno×LinkedTmrs :=
  if c.maxNum ≤ i then (.handleInvalid,t)
  else match (t.cb i).state with
    | .free => (.notCreated,t)
    | .expired _ => (.ok,t.modCb i fun s => {s with state:=.expired .preCreated})
    | .created => (.unstart,t)
    | .running => (.ok,t.osSwTmrStop c i false)

def osSwTmrRestartTimer (i : Nat) : TmrErrno×LinkedTmrs :=
  if c.maxNum ≤ i then (.handleInvalid,t)
  else match (t.cb i).state with
    | .free => (.notCreated,t)
    | .expired _ => (.ok,t.modCb i fun s => {s with state:=.expired .preRunning})
    | .running => (.ok,(t.osSwTmrStop c i true).osSwTmrStart c i (t.cb i).interval)
    | .created => (.ok,t.osSwTmrStart c i (t.cb i).interval)

def osSwTmrDeleteTimer (i : Nat) : TmrErrno×LinkedTmrs :=
  if c.maxNum ≤ i then (.handleInvalid,t)
  else match (t.cb i).state with
    | .free => (.notCreated,t)
    | .expired _ => (.ok,t.modCb i fun s => {s with state:=.expired .preFree})
    | .running => (.ok,(t.osSwTmrStop c i true).osSwTmrDelete i)
    | .created => (.ok,t.osSwTmrDelete i)

def osSwTmrCreateTimerCbInit (i : Nat) (p : TimerCreatePara) (mode : TmrMode)
    (callBackFunc : TmrProcFunc) (interval : BitVec 32) : LinkedTmrs :=
  { t.modCb i fun s => {s with
      handler := callBackFunc, mode := mode, interval := interval, idxRollNum := interval
      overrun := 0, arg1 := p.arg1, arg2 := p.arg2, arg3 := p.arg3, arg4 := p.arg4
      state := .created} with
    pool := t.pool.clear i }

def prtTimerCreate (p : TimerCreatePara) : TmrErrno×Nat×LinkedTmrs :=
  if p.interval=0 then (.intervalInvalid,0,t)
  else match p.mode, p.callBackFunc, t.pool.free with
    | none, _, _ => (.modeInvalid,0,t)
    | some mode, some f, .node i =>
      if SwTmrs.osSwTmrCreateTimerParaChk c p=.ok then
        (.ok,i,{t with pool := {t.pool with
          free := t.pool.next (.node i)}}.osSwTmrCreateTimerCbInit i p mode f
          (BitVec.ofNat 32 (c.tickPerSecond*p.interval.toNat/1000)))
      else (SwTmrs.osSwTmrCreateTimerParaChk c p,0,t)
    | some _, _, _ =>
      if SwTmrs.osSwTmrCreateTimerParaChk c p=.ok then (.maxSize,0,t)
      else (SwTmrs.osSwTmrCreateTimerParaChk c p,0,t)

def osSwtmrProc (i : Nat) : LinkedTmrs :=
  match (t.cb i).state with
  | .expired .preRunning => t.osSwTmrStart c i (t.cb i).interval
  | .expired .preCreated =>
    t.modCb i fun s => {s with idxRollNum:=0, overrun:=0, state:=.created}
  | .expired .preFree => t.osSwTmrDelete i
  | _ => match (t.cb i).mode with
    | .loop => (t.modCb i fun s => {s with overrun:=0}).osSwTmrStart c i (t.cb i).interval
    | .once => t.modCb i fun s => {s with overrun:=0, idxRollNum:=0, state:=.created}

/-- The loop of `OsSwTmrScanOneSlot` with its `object` and `outLink`. -/
def scanLoop (p : Pool Nat Nat) (listObject : Ptr Nat Nat) :
    Nat → (Nat → SwTmrCtrl) → Ptr Nat Nat → Ptr Nat Nat → (Nat → SwTmrCtrl)×Ptr Nat Nat×Ptr Nat Nat
  | 0, cb, object, outLink => (cb,object,outLink)
  | n+1, cb, object, outLink =>
    match p.next object with
    | .node i =>
      if 0<uwRollNum (cb i).idxRollNum then
        (update cb i {cb i with idxRollNum:=uwRollNumDec (cb i).idxRollNum},object,
          if p.prev (.node i)=listObject then .null else outLink)
      else
        scanLoop p listObject n (update cb i { cb i with
          overrun := if (cb i).overrun<0xFF then (cb i).overrun+1 else (cb i).overrun
          state := .expired .default }) (.node i) outLink
    | _ => (cb,object,outLink)

/-- `OsSwTmrScanOneSlot` with the beginning of `OsSwTmrScanProcess`, and the chain of expired
timers that is left to go through. -/
def osSwTmrScanOneSlot : LinkedTmrs×Ptr Nat Nat :=
  let cursor := (t.cursor+1)%osSwtmrSortLinkLen
  let listObject := .head cursor
  if t.pool.next listObject=listObject then ({t with cursor:=cursor},.null)
  else
    let r := scanLoop t.pool listObject c.maxNum t.cb listObject (t.pool.next listObject)
    ({t with cursor:=cursor, cb:=r.1, pool:=t.pool.cut cursor r.2.1},r.2.2)

end LinkedTmrs

/-- The timers with the variables of the scan that is going on: the timer `swtmr` whose turn it is,
and while its handler runs the saved pointer `temp` to the next one. -/
structure LinkedRun where
  tmrs : LinkedTmrs
  listObject : Ptr Nat Nat
  swtmr : Ptr Nat Nat
  temp : Ptr Nat Nat
  called : Bool

namespace LinkedRun

variable (c : TmrCfg) (r : LinkedRun)

def ended : Prop := r.swtmr=.null ∨ r.swtmr=r.listObject

instance : Decidable r.ended := inferInstanceAs (Decidable (_ ∨ _))

def step : TmrInput → LinkedRun
  | .create p => {r with tmrs:=(r.tmrs.prtTimerCreate c p).2.2}
  | .start i => {r with tmrs:=(r.tmrs.osSwTmrStartTimer c i).2}
  | .stop i => {r with tmrs:=(r.tmrs.osSwTmrStopTimer c i).2}
  | .restart i => {r with tmrs:=(r.tmrs.osSwTmrRestartTimer c i).2}
  | .delete i => {r with tmrs:=(r.tmrs.osSwTmrDeleteTimer c i).2}
  | .tick =>
    if r.ended then
      let t := {r.tmrs with uniTicks:=(r.tmrs.uniTicks+1)%2^64}
      {r with
        tmrs := (t.osSwTmrScanOneSlot c).1
        listObject := .head (t.osSwTmrScanOneSlot c).1.cursor
        swtmr := (t.osSwTmrScanOneSlot c).2}
    else r
  | .call =>
    if r.ended ∨ r.called then r
    else {r with temp:=r.tmrs.pool.next r.swtmr, called:=true}
  | .handled =>
    match r.swtmr, r.called with
    | .node i, true =>
      {r with
        tmrs := {r.tmrs with pool:=r.tmrs.pool.clear i}.osSwtmrProc c i
        swtmr := r.temp
        called := false}
    | _, _ => r

def machine : Machine LinkedRun TmrInput where
  start r := r=⟨LinkedTmrs.init c,.null,.null,.null,false⟩
  step := step c

end LinkedRun

end UniProton
