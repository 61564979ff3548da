import UniProton.Kernel.Deletion

namespace UniProton

open Framework

/-- What a call may change: tasks that come or go (only new ones get priorities), priorities, for
each kind of object its waiting lists with the contexts and flags of those waiting, the tasks whose
events are used, and whether time goes on. -/
structure Touch where
  life : Nat → Prop
  birth : Nat → Prop
  prio : Prop
  sem : Prop
  que : Prop
  rw : Prop
  event : Nat → Prop
  tick : Prop

/-- A task that waits for an rwlock is left alone, unless its time is over. -/
structure RwKept (tick : Prop) (k : Cont) (a b : TskStatus) : Prop where
  pend : b.rwPend=true → a.rwPend=true
  timeout : k.rwOf≠none → b.timeout=a.timeout
  ended : k.rwOf≠none → a.rwPend=true → b.rwPend=true ∨ (tick ∧ a.timeout=true ∧ k.timed=true)

/-- So is a task that waits for events. -/
structure EventKept (tick : Prop) (k : Cont) (a b : TskCb) : Prop where
  event : b.event=a.event
  pend : b.taskStatus.eventPend=true → a.taskStatus.eventPend=true
  timeout : k.eventOf≠none → b.taskStatus.timeout=a.taskStatus.timeout
  mask : k.eventOf≠none → b.eventMask=a.eventMask
  type : k.eventOf≠none → b.taskStatus.eventType=a.taskStatus.eventType
  ended : k.eventOf≠none → a.taskStatus.eventPend=true →
    b.taskStatus.eventPend=true ∨ (tick ∧ a.taskStatus.timeout=true)

namespace Touch

/-- An update of the control block of `t` within what is allowed, when its context is `k`. -/
structure Tcb (T : Touch) (t : Nat) (k : Cont) (a b : TskCb) : Prop where
  inuse : T.life t ∨ b.taskStatus.inuse=a.taskStatus.inuse
  prio : (T.birth t ∧ b.priority=b.origPriority) ∨ T.prio ∨
    (b.priority=a.priority ∧ b.origPriority=a.origPriority)
  busy : T.life t ∨ T.que ∨ b.taskStatus.queueBusy=a.taskStatus.queueBusy
  rw : T.life t ∨ T.rw ∨ RwKept T.tick k a.taskStatus b.taskStatus
  event : T.life t ∨ T.event t ∨ EventKept T.tick k a b

/-- A change of the context within what is allowed. -/
structure Ctx (T : Touch) (t : Nat) (k k' : Cont) : Prop where
  que : T.life t ∨ T.que ∨ (k.queueOf=none ∧ k'.queueOf=none)
  rw : T.life t ∨ T.rw ∨ (k.rwOf=none ∧ k'.rwOf=none)
  event : T.life t ∨ T.event t ∨ (k.eventOf=none ∧ k'.eventOf=none)

def Joins (T : Touch) : PendHead → Prop
  | .sem _ => T.sem
  | .queue _ _ => T.que
  | .rw _ _ => T.rw
  | _ => True

/-- The timeout flag of a task with this context may change. -/
structure Free (T : Touch) (t : Nat) (k : Cont) : Prop where
  rw : T.life t ∨ T.rw ∨ k.rwOf=none
  event : T.life t ∨ T.event t ∨ k.eventOf=none

variable {T : Touch} {t : Nat} {k : Cont} {a b : TskCb}

def Any (T : Touch) : Prop := ∀ t, T.life t

def all : Touch := ⟨fun _ => True,fun _ => True,True,True,True,True,fun _ => True,True⟩

lemma any_all : Touch.all.Any := fun _ => trivial

lemma Any.free (h : T.Any) : T.Free t k := ⟨.inl (h t),.inl (h t)⟩

section ctx

variable {k' : Cont}

lemma Any.ctx (h : T.Any) : T.Ctx t k k' := ⟨.inl (h t),.inl (h t),.inl (h t)⟩

lemma Ctx.of_none (hq : k.queueOf=none ∧ k'.queueOf=none)
    (hr : k.rwOf=none ∧ k'.rwOf=none) (he : k.eventOf=none ∧ k'.eventOf=none) : T.Ctx t k k' :=
  ⟨.inr (.inr hq),.inr (.inr hr),.inr (.inr he)⟩

lemma Ctx.of_que (h : T.que) (hr : k.rwOf=none ∧ k'.rwOf=none)
    (he : k.eventOf=none ∧ k'.eventOf=none) : T.Ctx t k k' :=
  ⟨.inr (.inl h),.inr (.inr hr),.inr (.inr he)⟩

lemma Ctx.of_rw (h : T.rw) (hq : k.queueOf=none ∧ k'.queueOf=none)
    (he : k.eventOf=none ∧ k'.eventOf=none) : T.Ctx t k k' :=
  ⟨.inr (.inr hq),.inr (.inl h),.inr (.inr he)⟩

lemma Ctx.of_event (h : T.event t) (hq : k.queueOf=none ∧ k'.queueOf=none)
    (hr : k.rwOf=none ∧ k'.rwOf=none) : T.Ctx t k k' :=
  ⟨.inr (.inr hq),.inr (.inr hr),.inr (.inl h)⟩

lemma Ctx.of_user (h : T.Any ∨ k=.user) (hk : T.Ctx t .user k') : T.Ctx t k k' := by
  rcases h with h | rfl
  . exact h.ctx
  exact hk

end ctx

lemma Free.of_none (hr : k.rwOf=none) (he : k.eventOf=none) : T.Free t k :=
  ⟨.inr (.inr hr),.inr (.inr he)⟩

lemma Free.user : T.Free t .user := .of_none rfl rfl

lemma Free.of_queueOf {q : Nat×Bool} (h : k.queueOf=some q) : T.Free t k := by
  cases k <;> first | exact .of_none rfl rfl | cases h

lemma Tcb.of_birth (h : T.life t) (hb : T.birth t) (hp : b.priority=b.origPriority) :
    T.Tcb t k a b :=
  ⟨.inl h,.inl ⟨hb,hp⟩,.inl h,.inl h,.inl h⟩

lemma Tcb.of_death (h : T.life t) (hp : b.priority=a.priority)
    (ho : b.origPriority=a.origPriority) : T.Tcb t k a b :=
  ⟨.inl h,.inr (.inr ⟨hp,ho⟩),.inl h,.inl h,.inl h⟩

end Touch

def TskCb.mark (c : TskCb) : (Bool×Nat×Nat×Bool)×(Bool×Bool) ×
    (BitVec 32×BitVec 32×Bool×Bool) :=
  ((c.taskStatus.inuse,c.priority,c.origPriority,c.taskStatus.queueBusy),
    (c.taskStatus.rwPend,c.taskStatus.timeout),
    (c.event,c.eventMask,c.taskStatus.eventPend,c.taskStatus.eventType))

namespace Touch

variable {T : Touch} {t : Nat} {k : Cont} {a b : TskCb}

lemma Tcb.of_mark (h : b.mark=a.mark) : T.Tcb t k a b := by
  simp only [TskCb.mark,Prod.mk.injEq] at h
  obtain ⟨⟨hi,hp,ho,hq⟩,⟨hr,ht⟩,he,hm,hv,hy⟩ := h
  refine ⟨.inr hi,.inr (.inr ⟨hp,ho⟩),.inr (.inr hq),.inr (.inr ⟨?_,?_,?_⟩),
    .inr (.inr ⟨he,?_,fun _ => ht,fun _ => hm,fun _ => hy,?_⟩)⟩
  . rw [hr]
    exact id
  . exact fun _ => ht
  . rw [hr]
    exact fun _ => .inl
  . rw [hv]
    exact id
  rw [hv]
  exact fun _ => .inl

lemma Tcb.timeout (h : T.Free t k) (x : Bool) :
    T.Tcb t k a {a with taskStatus:={a.taskStatus with timeout:=x}} := by
  refine ⟨.inr rfl,.inr (.inr ⟨rfl,rfl⟩),.inr (.inr rfl),?_,?_⟩
  . rcases h.rw with hl | hr | hk
    . exact .inl hl
    . exact .inr (.inl hr)
    exact .inr (.inr ⟨id,fun hn => absurd hk hn,fun hn => absurd hk hn⟩)
  rcases h.event with hl | hr | hk
  . exact .inl hl
  . exact .inr (.inl hr)
  exact .inr (.inr ⟨rfl,id,fun hn => absurd hk hn,fun hn => absurd hk hn,
    fun hn => absurd hk hn,fun hn => absurd hk hn⟩)

lemma Tcb.queueBusy (h : T.que) (x : Bool) :
    T.Tcb t k a {a with taskStatus:={a.taskStatus with queueBusy:=x}} :=
  ⟨.inr rfl,.inr (.inr ⟨rfl,rfl⟩),.inr (.inl h),
    .inr (.inr ⟨id,fun _ => rfl,fun _ => .inl⟩),
    .inr (.inr ⟨rfl,id,fun _ => rfl,fun _ => rfl,fun _ => rfl,fun _ => .inl⟩)⟩

lemma Tcb.priority (h : T.prio) (p o : Nat) :
    T.Tcb t k a {a with priority:=p, origPriority:=o} :=
  ⟨.inr rfl,.inr (.inl h),.inr (.inr rfl),
    .inr (.inr ⟨id,fun _ => rfl,fun _ => .inl⟩),
    .inr (.inr ⟨rfl,id,fun _ => rfl,fun _ => rfl,fun _ => rfl,fun _ => .inl⟩)⟩

lemma Tcb.rwPend (h : T.rw) (x : Bool) :
    T.Tcb t k a {a with taskStatus:={a.taskStatus with rwPend:=x}} :=
  ⟨.inr rfl,.inr (.inr ⟨rfl,rfl⟩),.inr (.inr rfl),.inr (.inl h),
    .inr (.inr ⟨rfl,id,fun _ => rfl,fun _ => rfl,fun _ => rfl,fun _ => .inl⟩)⟩

lemma Tcb.eventData (h : T.event t) (e m : BitVec 32) (x y : Bool) : T.Tcb t k a {a with
      event := e, eventMask := m,
      taskStatus := {a.taskStatus with eventPend:=x, eventType:=y}} :=
  ⟨.inr rfl,.inr (.inr ⟨rfl,rfl⟩),.inr (.inr rfl),
    .inr (.inr ⟨id,fun _ => rfl,fun _ => .inl⟩),.inr (.inl h)⟩

end Touch

/-- A relation between states that the primitives of the scheduler respect as far as they are
allowed. Whatever is built from them respects it too. -/
structure Quiet (T : Touch) (R : Sched → Sched → Prop) : Prop where
  refl : ∀ s, R s s
  trans : ∀ {a b c}, R a b → R b c → R a c
  frame : ∀ {s s' : Sched}, s'.tcb=s.tcb → s'.cont=s.cont → s'.pend=s.pend → R s s'
  modTcb : ∀ (s : Sched) (t : Nat) (f : TskCb → TskCb),
    T.Tcb t (s.cont t) (s.tcb t) (f (s.tcb t)) → R s (s.modTcb t f)
  setCont : ∀ (s : Sched) (t : Nat) (k : Cont), T.Ctx t (s.cont t) k → R s (s.setCont t k)
  pendInsert : ∀ (s : Sched) (t : Nat) (h : PendHead) (i : Nat), T.Joins h →
    R s (s.pendInsert t h i)
  pendDelete : ∀ (s : Sched) (t : Nat), R s (s.pendDelete t)

lemma Sched.setCont_self (s : Sched) (t : Nat) (k : Cont) : (s.setCont t k).cont t=k := by
  simp [Sched.setCont]

end UniProton
