import UniProton.Kernel.View

namespace UniProton

/-- What a task is doing, as its status bits, its list node and its saved context tell it together.
`out` is a task that waits for nothing and is in no list. -/
inductive TskMode where
  | unused | out | ready
  | sem (i : Nat)
  | queue (q : Nat) (write : Bool)
  | event
  | rw (l : Nat) (write : Bool)
  | delay | delayInt
  deriving DecidableEq

namespace TskMode

/-- The bit of the mode, next to `OS_TSK_INUSE`. -/
def bits : TskMode → TskStatus
  | .unused => {}
  | .out => {inuse:=true}
  | .ready => {inuse:=true, ready:=true}
  | .sem _ => {inuse:=true, pend:=true}
  | .queue _ _ => {inuse:=true, queuePend:=true}
  | .event => {inuse:=true, eventPend:=true}
  | .rw _ _ => {inuse:=true, rwPend:=true}
  | .delay => {inuse:=true, delay:=true}
  | .delayInt => {inuse:=true, delayInterruptible:=true}

def At : TskMode → Nat → Option PendHead → Prop
  | .unused, _, loc => loc=some .free ∨ loc=some .recycle
  | .ready, prio, loc => loc=some (.ready prio)
  | .sem i, _, loc => loc=some (.sem i)
  | .queue q w, _, loc => loc=some (.queue q w)
  | .rw l w, _, loc => loc=some (.rw l w)
  | _, _, loc => loc=none

def Obj : TskMode → TskCb → Prop
  | .sem i, c => c.taskPend=some (.sem i)
  | _, _ => True

/-- The saved context is that of a call that waits in this way. -/
def Ctx : TskMode → Cont → Prop
  | .sem _, k => k=.user ∨ k=.semPend
  | .queue q w, k => k.queueOf=some (q,w)
  | .event, k => ∃ mask all, k=.eventRead mask all
  | .rw l w, k => ∃ timed, k=.rwPend l w timed
  | .delay, k | .delayInt, k => k=.user
  | _, k => k.plain=true

def Timer : TskMode → TskStatus → Cont → Prop
  | .delay, _, _ => True
  | .sem _, b, k | .queue _ _, b, k | .event, b, k | .rw _ _, b, k => b.timeout=true ∧ k.timed=true
  | .delayInt, b, _ => b.timeout=true
  | _, _, _ => False

/-- Modes in which the timeout flag goes with a node in the delay list. -/
def timeable : TskMode → Bool
  | .sem _ | .queue _ _ | .event | .rw _ _ | .delayInt => true
  | _ => false

/-- Modes that leave room for a call on a queue in the saved context. -/
def mayQueue : TskMode → Bool
  | .unused | .out | .ready | .queue _ _ => true
  | _ => false

def runnable : TskMode → Bool
  | .out | .ready => true
  | _ => false

lemma Ctx.mayQueue {m : TskMode} {k : Cont} (hk : m.Ctx k) (hq : k.queueOf≠none) :
    m.mayQueue=true := by
  cases m with
  | sem i => rcases hk with rfl | rfl <;> exact absurd rfl hq
  | event => obtain ⟨_,_,rfl⟩ := hk; exact absurd rfl hq
  | rw l w => obtain ⟨_,rfl⟩ := hk; exact absurd rfl hq
  | delay | delayInt => obtain rfl : k=.user := hk; exact absurd rfl hq
  | _ => rfl

lemma eq_of_runnable {m : TskMode} (hm : m.runnable=true) : m=.out ∨ m=.ready := by
  cases m <;> simp_all [runnable]

end TskMode

/-- A view that agrees with a mode. -/
structure Fits (lowest : Nat) (m : TskMode) (v : TaskView) : Prop where
  inuse : v.bits.inuse=m.bits.inuse
  ready : v.bits.ready=m.bits.ready
  pend : v.bits.pend=m.bits.pend
  queuePend : v.bits.queuePend=m.bits.queuePend
  eventPend : v.bits.eventPend=m.bits.eventPend
  rwPend : v.bits.rwPend=m.bits.rwPend
  delay : v.bits.delay=m.bits.delay
  delayInterruptible : v.bits.delayInterruptible=m.bits.delayInterruptible
  waitqueuePend : v.bits.waitqueuePend=false
  holdSignal : v.bits.holdSignal=false
  suspend : m=.ready → v.bits.suspend=false
  unused : m=.unused → v.bits={}
  loc : m.At v.tcb.priority v.loc
  obj : m.Obj v.tcb
  ctx : m.Ctx v.cont
  prio : v.tcb.priority≤lowest
  orig : v.tcb.origPriority≤lowest
  timer : v.timed=true → m.Timer v.bits v.cont
  busy : v.bits.queueBusy=true → m.runnable=true ∧ v.cont.queueOf≠none
  handed : m.runnable=true → v.cont.queueOf≠none → v.bits.queueBusy = !v.bits.timeout

namespace Fits

variable {L : Nat} {m : TskMode} {v : TaskView}

lemma plain (h : Fits L m v) : v.cont.plain=true := by
  have hk := h.ctx
  cases m with
  | sem i => rcases hk with hk | hk <;> rw [hk] <;> rfl
  | queue q w =>
    have hq : v.cont.queueOf=some (q,w) := hk
    cases hc : v.cont <;> first | rfl | rw [hc] at hq; cases hq
  | event => obtain ⟨_,_,hk⟩ := hk; rw [hk]; rfl
  | rw l w => obtain ⟨_,hk⟩ := hk; rw [hk]; rfl
  | delay | delayInt => rw [show v.cont=.user from hk]; rfl
  | _ => exact hk

lemma timed_of_runnable (h : Fits L m v) (hm : m.runnable=true) : v.timed=false := by
  by_contra ht
  have := h.timer (by simpa using ht)
  cases m <;> simp_all [TskMode.Timer,TskMode.runnable]

lemma busy_of_not_runnable (h : Fits L m v) (hm : m.runnable=false) : v.bits.queueBusy=false := by
  by_contra hb
  have := (h.busy (by simpa using hb)).1
  simp [hm] at this

lemma busy_of_cont (h : Fits L m v) (hk : v.cont.queueOf=none) : v.bits.queueBusy=false := by
  by_contra hb
  exact (h.busy (by simpa using hb)).2 hk

lemma busy_of_ctx (h : Fits L m v) {n : TskMode} (hk : n.Ctx v.cont) (hm : n.mayQueue=false) :
    v.bits.queueBusy=false := by
  by_contra hb
  exact Bool.false_ne_true (hm.symm.trans (hk.mayQueue (h.busy (by simpa using hb)).2))

lemma waiting_eq (h : Fits L m v) : v.bits.waiting=m.timeable := by
  rw [TskStatus.waiting,h.pend,h.queuePend,h.eventPend,h.rwPend,h.delayInterruptible]
  cases m <;> rfl

lemma delay_iff (h : Fits L m v) : v.bits.delay=true ↔ m=.delay := by
  rw [h.delay]
  cases m <;> simp [TskMode.bits]

lemma timed_of_timeout_false (h : Fits L m v) (hm : m.timeable=true)
    (hb : v.bits.timeout=false) : v.timed=false := by
  by_contra ht
  have hT := h.timer (by simpa using ht)
  cases m <;> simp_all [TskMode.Timer,TskMode.timeable]

lemma timeout_of_timed (h : Fits L m v) (ht : v.timed=true) (hm : m≠.delay) :
    v.bits.timeout=true := by
  have hT := h.timer ht
  cases m with
  | sem | queue | event | rw => exact hT.1
  | delay => exact absurd rfl hm
  | delayInt => exact hT
  | _ => exact absurd hT id

lemma eq_unused (h : Fits L m v) (hb : v.bits.unused=true) : m=.unused := by
  have hi : m.bits.inuse=false := by
    have hz : v.bits={} := by simpa [TskStatus.unused] using hb
    rw [← h.inuse,hz]
  cases m <;> simp_all [TskMode.bits]

lemma ne_unused (h : Fits L m v) (hb : ¬v.bits.unused=true) : m≠.unused := by
  rintro rfl
  simp [TskStatus.unused,h.unused rfl] at hb

lemma eq_ready (h : Fits L m v) (hb : v.bits.ready=true) : m=.ready := by
  have hr := h.ready.symm.trans hb
  cases m <;> simp_all [TskMode.bits]

lemma eq_sem (h : Fits L m v) (hb : v.bits.pend=true) : ∃ i, m=.sem i := by
  have hr := h.pend.symm.trans hb
  cases m <;> simp_all [TskMode.bits]

lemma eq_event (h : Fits L m v) (hb : v.bits.eventPend=true) : m=.event := by
  have hr := h.eventPend.symm.trans hb
  cases m <;> simp_all [TskMode.bits]

lemma eq_rw (h : Fits L m v) (hb : v.bits.rwPend=true) : ∃ l w, m=.rw l w := by
  have hr := h.rwPend.symm.trans hb
  cases m <;> simp_all [TskMode.bits]

lemma eq_delayInt (h : Fits L m v) (hb : v.bits.delayInterruptible=true) : m=.delayInt := by
  have hr := h.delayInterruptible.symm.trans hb
  cases m <;> simp_all [TskMode.bits]

lemma eq_of_loc_ready (h : Fits L m v) {p : Nat} (hl : v.loc=some (.ready p)) :
    m=.ready ∧ p=v.tcb.priority := by
  have ha := h.loc
  cases m <;> simp_all [TskMode.At]

lemma eq_of_loc_sem (h : Fits L m v) {i : Nat} (hl : v.loc=some (.sem i)) : m=.sem i := by
  have ha := h.loc
  cases m <;> simp_all [TskMode.At]

lemma eq_of_loc_queue (h : Fits L m v) {q : Nat} {w : Bool}
    (hl : v.loc=some (.queue q w)) : m=.queue q w := by
  have ha := h.loc
  cases m <;> simp_all [TskMode.At]

lemma eq_of_loc_rw (h : Fits L m v) {l : Nat} {w : Bool} (hl : v.loc=some (.rw l w)) :
    m=.rw l w := by
  have ha := h.loc
  cases m <;> simp_all [TskMode.At]

lemma eq_of_loc_unused (h : Fits L m v) (hl : v.loc=some .free ∨ v.loc=some .recycle) :
    m=.unused := by
  have ha := h.loc
  cases m <;> rcases hl with hl | hl <;> simp_all [TskMode.At]

lemma runnable_eq (h : Fits L m v) :
    m.runnable=(v.bits.inuse && !v.bits.waiting && !v.bits.delay) := by
  rw [h.inuse,h.waiting_eq,h.delay]
  cases m <;> rfl

lemma block_of_runnable (h : Fits L m v) (hm : m.runnable=true) : v.bits.block=v.bits.suspend := by
  cases m <;> simp_all [TskMode.runnable,TskStatus.block,TskMode.bits,h.delay,h.pend,
    h.queuePend,h.eventPend,h.waitqueuePend,h.delayInterruptible,h.rwPend]

lemma runnable_of_not_block (h : Fits L m v) (hb : v.bits.block=false) :
    m=.unused ∨ m.runnable=true := by
  cases m <;> simp_all [TskMode.runnable,TskStatus.block,TskMode.bits,h.delay,h.pend,
    h.queuePend,h.eventPend,h.waitqueuePend,h.delayInterruptible,h.rwPend]

end Fits

/-- The flags that promise a node in the delay list keep the promise. With `u`, a task that has
the timeout flag is inside a call that will drop it. -/
structure Tight (u : Prop) (v : TaskView) : Prop where
  timed : v.bits.delay=true ∨ (v.bits.waiting=true ∧ v.bits.timeout=true) → v.timed=true
  cont : u → v.bits.timeout=true → v.cont.timed=true

lemma Fits.tight_of_runnable {L : Nat} {m : TskMode} {v : TaskView} {u : Prop} (h : Fits L m v)
    (hm : m.runnable=true) (hk : u → v.bits.timeout=true → v.cont.timed=true) : Tight u v := by
  refine ⟨?_,hk⟩
  rintro (hd | ⟨hw,_⟩)
  . rw [h.delay_iff.mp hd] at hm
    cases hm
  rw [h.waiting_eq] at hw
  cases m <;> simp_all [TskMode.runnable,TskMode.timeable]

end UniProton
