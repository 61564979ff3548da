import UniProton.Timer.Swtmr

namespace UniProton

/-- A timer as its user sees it: what is left of its time, not where it is kept. -/
inductive Phase
  | free
  | created (left : Nat)
  | running (left : Nat)
  | expired (pre : TmrPre)
  deriving DecidableEq

structure Countdown where
  phase : Phase
  mode : TmrMode
  interval : Nat
  handler : TmrProcFunc
  arg1 : BitVec 32
  deriving DecidableEq

/-- What can happen to one timer; a creation makes it a new one. -/
inductive TmrEvent
  | create (new : Countdown)
  | start | stop | restart | delete
  | tick
  | handled
  | other
  deriving DecidableEq

namespace Countdown

variable (k : Countdown)

def rearm : Countdown := {k with phase:=.running k.interval}

def start : Countdown :=
  match k.phase with
  | .created left => {k with phase:=.running (if left=0 then k.interval else left)}
  | .expired _ => {k with phase:=.expired .preRunning}
  | _ => k

def stop : Countdown :=
  match k.phase with
  | .running left => {k with phase:=.created left}
  | .expired _ => {k with phase:=.expired .preCreated}
  | _ => k

def restart : Countdown :=
  match k.phase with
  | .created _ | .running _ => k.rearm
  | .expired _ => {k with phase:=.expired .preRunning}
  | .free => k

def delete : Countdown :=
  match k.phase with
  | .created _ | .running _ => {k with phase:=.free}
  | .expired _ => {k with phase:=.expired .preFree}
  | .free => k

def tick : Countdown :=
  match k.phase with
  | .running left => {k with phase:=if left=1 then .expired .default else .running (left-1)}
  | _ => k

def handled : Countdown :=
  match k.phase with
  | .expired .default => match k.mode with
    | .loop => k.rearm
    | .once => {k with phase:=.created 0}
  | .expired .preRunning => k.rearm
  | .expired .preCreated => {k with phase:=.created 0}
  | .expired .preFree => {k with phase:=.free}
  | _ => k

def act : TmrEvent → Countdown
  | .create new => new
  | .start => k.start
  | .stop => k.stop
  | .restart => k.restart
  | .delete => k.delete
  | .tick => k.tick
  | .handled => k.handled
  | .other => k

end Countdown

end UniProton
