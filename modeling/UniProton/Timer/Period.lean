import UniProton.Timer.Exact

namespace UniProton

open Framework Function

/-- What the calls of periodic tasks answer. -/
inductive PeriodRet
  | ok | einval | etimedout | ewouldblock
  deriving DecidableEq

/-- Interrupts are open between the parts of `PRT_TaskSetPeriodic`. -/
inductive SetStage
  | check | stop | clock | write (now : BitVec 32) | start
  deriving DecidableEq

/-- A call of `PRT_TaskSetPeriodic` that is under way. -/
structure SetCall where
  tsk : BitVec 32
  idate : BitVec 32
  period : BitVec 32
  stage : SetStage
  deriving DecidableEq

/-- The periodic tasks: `itimer`, `OS_TSK_SET_PERIODIC` and the pending `SIGALRM` of each task, over
the software timers. `rets`, `sigalrms` (scan and task of each) and `passed` (releases since the
last wait) are history. -/
structure PeriodRun where
  wheel : WheelRun
  ticksOffset : BitVec 64
  itimer : BitVec 32 → Option Nat
  setPeriodic : BitVec 32 → Bool
  sigPending : BitVec 32 → Bool
  calls : List SetCall
  rets : List PeriodRet
  sigalrms : List (Nat×BitVec 32)
  passed : BitVec 32 → Nat

inductive PeriodInput
  | timer (x : TmrInput)
  | setPeriodic (caller taskPid idate period : BitVec 32)
  | go (n : Nat)
  | waitPeriod (tsk : BitVec 32)
  | sigHandled (tsk : BitVec 32)
  deriving DecidableEq

namespace PeriodRun

variable (c : TmrCfg) (s : PeriodRun)

def tickCount (n : Nat) : BitVec 64 := BitVec.ofNat 64 n+s.ticksOffset

def now : BitVec 32 := (s.tickCount s.wheel.tmrs.uniTicks).setWidth 32

def periodPara (taskPid : BitVec 32) : TimerCreatePara :=
  ⟨some .loop,1,0,some .osDelieverSigPeriod,taskPid,0,0,0⟩

def tskOf (caller taskPid : BitVec 32) : BitVec 32 := if taskPid=0 then caller else taskPid

/-- `PRT_TaskSetPeriodic` up to the end of its locked part. -/
def enter (caller taskPid idate period : BitVec 32) : PeriodRun :=
  let tsk := tskOf caller taskPid
  let call : SetCall := ⟨tsk,idate,period,.check⟩
  if s.itimer tsk=none ∧ s.setPeriodic tsk=false then
    if (s.wheel.tmrs.prtTimerCreate c (periodPara taskPid)).1=.ok then
      {s with
        wheel := s.wheel.step c (.create (periodPara taskPid))
        itimer := update s.itimer tsk
          (some (s.wheel.tmrs.prtTimerCreate c (periodPara taskPid)).2.1)
        setPeriodic := update s.setPeriodic tsk true
        calls := call::s.calls}
    else {s with rets:=.einval::s.rets}
  else {s with calls:=call::s.calls}

/-- The writes of `OsPeriodTimerSetTime` behind the timer's interface. -/
def rewrite (b : SwTmrCtrl) (now idate period : BitVec 32) : SwTmrCtrl :=
  {b with
    mode := if period≠0 then .loop else .once
    interval := if period≠0 then period else idate-now
    idxRollNum := idate-now
    overrun := 0}

/-- The next part of a call, with the timers after it and what is left of the call. -/
def next (k : SetCall) : WheelRun×(SetCall ⊕ PeriodRet) :=
  match s.itimer k.tsk with
  | none => (s.wheel,.inr .einval)
  | some i =>
    match k.stage with
    | .check =>
      if k.idate=0 then (s.wheel,.inl {k with idate:=s.now+k.period, stage:=.stop})
      else if k.idate<s.now then (s.wheel.step c (.delete i),.inr .etimedout)
      else (s.wheel,.inl {k with stage:=.stop})
    | .stop =>
      let ret := (s.wheel.tmrs.osSwTmrStopTimer c i).1
      if ret≠.ok ∧ ret≠.unstart then
        ((s.wheel.step c (.stop i)).step c (.delete i),.inr .einval)
      else if k.idate=0 then (s.wheel.step c (.stop i),.inr .ok)
      else (s.wheel.step c (.stop i),.inl {k with stage:=.clock})
    | .clock => (s.wheel,.inl {k with stage:=.write s.now})
    | .write now =>
      ({s.wheel with tmrs:=s.wheel.tmrs.modCb i fun b => rewrite b now k.idate k.period},
        .inl {k with stage:=.start})
    | .start =>
      if (s.wheel.tmrs.osSwTmrStartTimer c i).1=.ok then (s.wheel.step c (.start i),.inr .ok)
      else ((s.wheel.step c (.start i)).step c (.delete i),.inr .einval)

def go (n : Nat) : PeriodRun :=
  match s.calls[n]? with
  | none => s
  | some k =>
    match s.next c k with
    | (w,.inl k') => {s with wheel:=w, calls:=s.calls.set n k'}
    | (w,.inr ret) => {s with wheel:=w, calls:=s.calls.eraseIdx n, rets:=ret::s.rets}

/-- `PRT_SignalDeliver` of `SIGALRM`: it is pending once, however often it comes. -/
def prtSignalDeliver (tsk : BitVec 32) : PeriodRun :=
  {s with
    sigPending := update s.sigPending tsk true
    sigalrms := (s.wheel.scans,tsk)::s.sigalrms
    passed := update s.passed tsk (s.passed tsk+1)}

/-- The timer whose handler an input enters, where that is the handler of periodic tasks. -/
def released (x : TmrInput) : Option Nat :=
  match x, s.wheel.outLink, s.wheel.called with
  | .call, i::_, false =>
    if (s.wheel.tmrs.cb i).handler=.osDelieverSigPeriod then some i else none
  | _, _, _ => none

def timer (x : TmrInput) : PeriodRun :=
  let s' := match s.released x with
    | some i => s.prtSignalDeliver (s.wheel.tmrs.cb i).arg1
    | none => s
  {s' with wheel:=s.wheel.step c x}

/-- `PRT_TaskWaitPeriod` when its signal wait is over; no answer while it blocks. Tasks do not run
before the tick interrupt has finished with the expired timers. -/
def prtTaskWaitPeriod (tsk : BitVec 32) : Option (PeriodRet×Option (BitVec 8))×PeriodRun :=
  if s.setPeriodic tsk=false then (some (.ewouldblock,none),s)
  else if s.sigPending tsk=true ∧ s.wheel.outLink=[] then
    match s.itimer tsk with
    | none => (none,s)
    | some i =>
      let overruns := (s.wheel.tmrs.cb i).overrun
      (some (if overruns=0 then .ok else .etimedout,some overruns),
        {s with
          wheel := {s.wheel with tmrs:=s.wheel.tmrs.modCb i fun b => {b with overrun:=0}}
          sigPending := update s.sigPending tsk false
          passed := update s.passed tsk 0})
  else (none,s)

def step : PeriodInput → PeriodRun
  | .timer x => s.timer c x
  | .setPeriodic caller taskPid idate period => s.enter c caller taskPid idate period
  | .go n => s.go c n
  | .waitPeriod tsk => (s.prtTaskWaitPeriod tsk).2
  | .sigHandled tsk => {s with sigPending:=update s.sigPending tsk false}

def init (ticksOffset : BitVec 64) : PeriodRun :=
  ⟨⟨SwTmrs.init c,[],false,0,[]⟩,ticksOffset,fun _ => none,fun _ => false,fun _ => false,
    [],[],[],fun _ => 0⟩

def machine : Machine PeriodRun PeriodInput where
  start s := ∃ ticksOffset, s=init c ticksOffset
  step := step c

/-- The scans in which `SIGALRM` was delivered to a task, the last one first. -/
def sigalrmsOf (tsk : BitVec 32) : List Nat := (s.sigalrms.filter (·.2=tsk)).map (·.1)

/-- A whole call of `PRT_TaskSetPeriodic`, with nothing between its parts. -/
def setCall (caller taskPid idate period : BitVec 32) : List PeriodInput :=
  .setPeriodic caller taskPid idate period::List.replicate 5 (.go 0)

def thousandTicks : TmrCfg := ⟨2,1000,TmrCfg.pos_thousand,false⟩

def hundredTicks : TmrCfg := ⟨2,100,TmrCfg.pos_hundred,false⟩

/-- Handle 0 releases task 0; behind a release date in the past every call fails; at 100 ticks a
second every call fails; and two releases without a wait give no overrun. -/
theorem periodic_release_lost :
    (let s := (machine thousandTicks).run (init thousandTicks 0)
      (setCall 7 0 0 2 ++ [.timer .tick,.timer .tick,.timer .call,.timer .handled])
    s.rets=[.ok] ∧ s.sigalrmsOf 7=[] ∧ s.sigalrmsOf 0=[2]) ∧
    (let s := (machine thousandTicks).run (init thousandTicks 0) ([.timer .tick,.timer .tick] ++
      setCall 7 7 1 2++setCall 7 7 0 2)
    s.rets=[.einval,.etimedout] ∧ s.setPeriodic 7=true) ∧
    (let s := (machine hundredTicks).run (init hundredTicks 0) (setCall 7 7 0 2++setCall 7 7 0 2)
    s.rets=[.einval,.einval]) ∧
    (let s := (machine thousandTicks).run (init thousandTicks 0) (setCall 7 7 0 1 ++
      [.timer .tick,.timer .call,.timer .handled,.timer .tick,.timer .call,.timer .handled])
    s.passed 7=2 ∧ (s.prtTaskWaitPeriod 7).1=some (.ok,some 0)) := by
  decide +kernel

end PeriodRun

end UniProton
