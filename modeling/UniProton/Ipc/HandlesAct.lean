import UniProton.Ipc.HandlesCalls
import UniProton.Kernel.Creation
import UniProton.Kernel.Parts

namespace UniProton

open Framework TskStatus

namespace Paces

variable {T : Touch} {I : Sched → Prop} {G : TskCb → TskCb → Prop} {N : Nat → Prop}
  {Q R : Sched → Sched → Prop} (h : Paces T I G N Q R) {a s : Sched} {k : Kernel} {i q l n : Nat}

include h

lemma running_loose (hs : Q a s) (hr : s.cpu.runningTask=a.cpu.runningTask) :
    Loose I a s a.cpu.runningTask := by
  rw [← hr]
  exact h.pre.ofRunning hs

variable (hn : N n)

include hn

section sem

lemma osSemBlock (hs : Q a k.sched) (hr : k.sched.cpu.runningTask=a.cpu.runningTask)
    (hj : T.sem) (hf : T.Free a.cpu.runningTask (k.sched.cont a.cpu.runningTask)) :
    R a (k.osSemBlock i n).sched := by
  obtain ⟨h1,hl⟩ := h.leave hs (h.running_loose hs hr) (f:=fun c =>
    {c with taskPend:=some (.sem i), taskStatus:={c.taskStatus with pend:=true}})
    (fun _ => rfl) (fun _ => rfl) (fun _ => rfl) fun _ => .of_mark rfl
  have h2 (pos : Nat) := h.timeoutSet hn
    (h.pre.pendInsert a.cpu.runningTask (.sem i) pos h1 hj hl) hl hf
  unfold Kernel.osSemBlock
  rw [hr]
  exact h2 _

lemma prtSemPend (k : Kernel) (hp : T.prio) (hj : T.sem) (hu : T.Any ∨
    (k.sched.cpu.intActive=false → k.sched.cont k.sched.cpu.runningTask=.user)) :
    R k.sched (k.prtSemPend i n).1.sched := by
  have hr := h.post.refl k.sched
  unfold Kernel.prtSemPend
  split
  . exact hr
  split
  . exact hr
  split
  . exact hr
  next hi =>
  split
  . next k' he => exact h.post.step_osSemPendNotNeedSche hr he
  split
  . exact hr
  have hx : ∀ x : Cont, x=(if n=osWaitForever then .user else .semPend) →
      T.Ctx k.sched.cpu.runningTask (k.sched.cont k.sched.cpu.runningTask) x ∧
        T.Free k.sched.cpu.runningTask x := by
    rintro x rfl
    have hu' := hu.imp_right fun hu => hu (Bool.eq_false_iff.mpr hi)
    split
    . exact ⟨.of_user hu' (.of_none ⟨rfl,rfl⟩ ⟨rfl,rfl⟩ ⟨rfl,rfl⟩),.user⟩
    exact ⟨.of_user hu' (.of_none ⟨rfl,rfl⟩ ⟨rfl,rfl⟩ ⟨rfl,rfl⟩),.of_none rfl rfl⟩
  obtain ⟨hx,hf⟩ := hx _ rfl
  have h1 := h.pre.setCont _ _ (h.pre.refl k.sched) hx (h.pre.ofRunning (h.pre.refl _))
  have h2 := h.osSemBlock (k:=k.onSched fun s => s.setCont s.cpu.runningTask
    (if n=osWaitForever then .user else .semPend)) (i:=i) hn h1 rfl hj (by
      change T.Free _ ((k.sched.setCont _ _).cont _)
      rw [Sched.setCont_self]
      exact hf)
  exact h.post.step_osTskSchedule (h.post.step_osPriorityInherit hp hj h2)

end sem

section queue

variable (hT : T.que)

include hT

lemma osQueueBlock (a : Sched) {write : Bool} {c : Cont} (hq : c.queueOf=some (q,write))
    (hu : T.Any ∨ a.cont a.cpu.runningTask=.user) : R a (Kernel.osQueueBlock a q write n c) := by
  have hs := h.pre.refl a
  obtain ⟨h1,hl⟩ := h.leave hs (h.pre.ofRunning hs) (f:=fun c =>
    {c with taskPend:=some (.queue q), taskStatus:={c.taskStatus with queuePend:=true}})
    (fun _ => rfl) (fun _ => rfl) (fun _ => rfl) fun _ => .of_mark rfl
  have h2 (pos : Nat) := h.pre.pendInsert a.cpu.runningTask (.queue q write) pos h1 hT hl
  have hc : c.rwOf=none ∧ c.eventOf=none := by
    cases c <;> first | exact ⟨rfl,rfl⟩ | cases hq
  have h3 (pos : Nat) := h.pre.setCont a.cpu.runningTask c (h2 pos)
    (.of_user hu (.of_que hT ⟨rfl,hc.1⟩ ⟨rfl,hc.2⟩)) hl
  apply h.timeoutSet hn (h3 _) hl
  rw [Sched.setCont_self]
  exact .of_queueOf hq

lemma osInnerPend (k : Kernel) {write : Bool} {c : Cont} (hq : c.queueOf=some (q,write))
    (hu : T.Any ∨ (k.sched.cpu.intActive=false →
      k.sched.cont k.sched.cpu.runningTask=.user)) (f : Kernel → Kernel)
    (hf : ∀ k', k'.sched=k.sched → R k.sched (f k').sched) :
    R k.sched (match k.osInnerPend q write n c with
      | (k,some .osOk) => (f k,some Errno.osOk)
      | r => r).1.sched := by
  rcases k.osInnerPend_cases q write n c with ⟨-,he⟩ | ⟨e,he,hne⟩ | ⟨-,hi,-,he⟩
  . rw [he]
    exact hf _ rfl
  . rw [he]
    split
    . next heq =>
      cases heq
      exact absurd rfl hne
    exact h.post.refl _
  rw [he]
  refine h.post.step_osTskSchedule (h.osQueueBlock hn hT _ hq ?_)
  exact hu.imp_right fun hu => hu hi

lemma prtQueueRead (k : Kernel) (len : Nat) (hc : T.Any ∨ k.sched.Core) (hu : T.Any ∨
    (k.sched.cpu.intActive=false → k.sched.cont k.sched.cpu.runningTask=.user)) :
    R k.sched (k.prtQueueRead q len n).1.sched := by
  have hr := h.post.refl k.sched
  simp only [Kernel.prtQueueRead]
  split
  . exact hr
  split
  . exact hr
  split
  . exact hr
  refine h.osInnerPend hn hT k (c:=.queueRead (osQueueInnerId q) len) rfl hu
    (fun k => k.queueReadOut _ len) fun k' hs => ?_
  rw [← hs] at hc ⊢
  exact h.post.step_queueReadOut hT hc (h.post.refl _)

lemma prtQueueWrite (k : Kernel) (data : List UInt8) (prio : Nat)
    (hc : T.Any ∨ k.sched.Core) (hu : T.Any ∨
      (k.sched.cpu.intActive=false → k.sched.cont k.sched.cpu.runningTask=.user)) :
    R k.sched (k.prtQueueWrite q data n prio).1.sched := by
  have hr := h.post.refl k.sched
  simp only [Kernel.prtQueueWrite]
  split
  . exact hr
  split
  . exact hr
  split
  . exact hr
  refine h.osInnerPend hn hT k (c:=.queueWrite (osQueueInnerId q) data prio) rfl hu
    (fun k => k.queueWriteIn _ data prio) fun k' hs => ?_
  rw [← hs] at hc ⊢
  exact h.post.step_queueWriteIn hT hc (h.post.refl _) data prio

end queue

lemma prtEventRead (a : Sched) (hT : T.event a.cpu.runningTask)
    (hu : T.Any ∨ (a.cpu.intActive=false → a.cont a.cpu.runningTask=.user))
    (mask flags : BitVec 32) : R a (a.prtEventRead mask flags n).1 := by
  simp only [Sched.prtEventRead]
  split
  . exact h.post.refl a
  split
  . exact h.post.refl a
  next hi =>
  generalize decide (flags &&& osEventAll≠0)=all
  have h1 := h.pre.modTcb a.cpu.runningTask (fun c =>
    {c with eventMask:=mask, taskStatus:={c.taskStatus with eventType:=all}})
    (h.pre.refl a) rfl (.eventData hT _ _ _ _) fun _ => .same rfl rfl rfl
  generalize hs : (a.modTcb a.cpu.runningTask fun c =>
    {c with eventMask:=mask, taskStatus:={c.taskStatus with eventType:=all}})=s at h1 ⊢
  have hr : s.cpu=a.cpu := hs ▸ rfl
  have hk : s.cont=a.cont := hs ▸ rfl
  split
  . split
    . exact h.weaken h1
    split
    . exact h.weaken h1
    have hl : Loose I a s a.cpu.runningTask := h.running_loose h1 (by rw [hr])
    have hx : T.Ctx a.cpu.runningTask (s.cont a.cpu.runningTask) (.eventRead mask all) := by
      rw [hk]
      refine .of_user (hu.imp_right fun hu => hu (Bool.eq_false_iff.mpr hi)) ?_
      exact .of_event hT ⟨rfl,rfl⟩ ⟨rfl,rfl⟩
    have h2 := h.pre.setCont a.cpu.runningTask (.eventRead mask all) h1 hx hl
    obtain ⟨h3,hl3⟩ := h.leave h2 hl
      (f:=fun c => {c with taskStatus:={c.taskStatus with eventPend:=true}})
      (fun _ => rfl) (fun _ => rfl) (fun _ => rfl) fun _ => .eventData hT _ _ true _
    apply h.post.step_osTskSchedule
    unfold Sched.osEventBlock
    rw [hr]
    apply h.osEventTimeOutSet hn h3 hl3
    change T.Free _ ((s.setCont _ _).cont _)
    rw [Sched.setCont_self]
    exact ⟨.inr (.inr rfl),.inr (.inl hT)⟩
  refine h.post.osEventTake (h.weaken h1) ?_ mask
  rw [hr]
  exact hT

lemma eventRead (k : Kernel) (hT : T.event k.sched.cpu.runningTask) (hu : T.Any ∨
    (k.sched.cpu.intActive=false → k.sched.cont k.sched.cpu.runningTask=.user))
    (mask flags : BitVec 32) : R k.sched (k.eventRead mask flags n).1.sched := by
  have h1 := h.prtEventRead hn k.sched hT hu mask flags
  simp only [Kernel.eventRead,Kernel.logRead]
  split <;> exact h1

section rwlock

variable (hT : T.rw)

include hT

lemma osRwLockPendPre (a : Sched) (write : Bool)
    (hu : T.Any ∨ a.cont a.cpu.runningTask=.user) : R a (a.osRwLockPendPre l write n) := by
  have hs := h.pre.refl a
  have hl := h.pre.ofRunning hs
  have h1 := h.pre.setCont a.cpu.runningTask (.rwPend l write (hasLimit n)) hs
    (.of_user hu (.of_rw hT ⟨rfl,rfl⟩ ⟨rfl,rfl⟩)) hl
  obtain ⟨h2,hl2⟩ := h.leave h1 hl
    (f:=fun c => {c with taskStatus:={c.taskStatus with rwPend:=true}})
    (fun _ => rfl) (fun _ => rfl) (fun _ => rfl) fun _ => .rwPend hT true
  have h3 := h.timeoutSet hn h2 hl2 (by
    change T.Free _ ((a.setCont _ _).cont _)
    rw [Sched.setCont_self]
    exact ⟨.inr (.inl hT),.inr (.inr rfl)⟩)
  apply h.post.pendInsert a.cpu.runningTask (.rw l write) _ h3 hT
  unfold Sched.timeoutSet
  split
  . exact hl2
  apply Loose.osTskTimerAdd
  apply hl2.modStatus
  exact fun _ => rfl

lemma rwPendSchedule (k : Kernel) (write : Bool)
    (hu : T.Any ∨ k.sched.cont k.sched.cpu.runningTask=.user) :
    R k.sched (k.rwPendSchedule l write n).1.sched := by
  unfold Kernel.rwPendSchedule Sched.osRwLockPendSchedule
  split
  . exact h.post.refl _
  exact h.post.step_osTskSchedule (h.osRwLockPendPre hn hT k.sched write hu)

variable (k : Kernel) (hu : T.Any ∨
  (k.sched.cpu.intActive=false → k.sched.cont k.sched.cpu.runningTask=.user))

include hu

lemma osRwLockRdPend (try_ : Bool) : R k.sched (k.osRwLockRdPend l n try_).1.sched := by
  have hr := h.post.refl k.sched
  simp only [Kernel.osRwLockRdPend]
  split
  . exact hr
  next hok =>
  split
  . exact hr
  split
  . split
    . exact hr
    exact hr
  split
  . exact hr
  refine h.rwPendSchedule hn hT k false (hu.imp_right fun hu => ?_)
  exact hu (Kernel.osRwLockCheck_ok (not_not.mp hok)).1

lemma osRwLockWrPend (try_ : Bool) : R k.sched (k.osRwLockWrPend l n try_).1.sched := by
  have hr := h.post.refl k.sched
  simp only [Kernel.osRwLockWrPend]
  split
  . exact hr
  next hok =>
  split
  . exact hr
  split
  . exact hr
  split
  . exact hr
  refine h.rwPendSchedule hn hT k true (hu.imp_right fun hu => ?_)
  exact hu (Kernel.osRwLockCheck_ok (not_not.mp hok)).1

end rwlock

lemma prtSignalWait (hG : Signals G) (hT : T.Any) (hI : ¬I a) (set : BitVec 64) :
    R a (a.prtSignalWait set n).1 := by
  have hr := h.post.refl a
  simp only [Sched.prtSignalWait,Sched.osSignalWaitSche]
  split
  . exact hr
  split
  . exact hr
  split
  . exact h.post.step_osSigWaitProcPendingSignal hG hr set
  split
  . exact hr
  split
  . exact hr
  have h1 := h.pre.setCont a.cpu.runningTask (.signalWait set) (h.pre.refl a) hT.ctx
    fun hI' => absurd hI' hI
  have h2 := h.pre.step_signals hG h1 (t:=a.cpu.runningTask)
    (f:=fun c => {c with sigWaitMask:=set}) fun hG c => hG.sigWaitMask c set
  have h3 := h.pre.modTcb a.cpu.runningTask (fun c =>
    {c with taskStatus:={c.taskStatus with waitSignal:=true}})
    (h.pre.step_osTskReadyDel (t:=a.cpu.runningTask) h2) rfl (.of_mark rfl)
    fun hI' => absurd hI' hI
  exact h.post.step_osTskSchedule (h.osEventTimeOutSet hn h3 (fun hI' => absurd hI' hI) hT.free)

end Paces

namespace Call

def plain : Call → Bool
  | .enterWaitQueue _ | .wakeUp _ | .signalDeliver .. | .signalWait .. | .signalMask ..
  | .sigSuspend _ | .pause => false
  | _ => true

def Within (T : Touch) (s : Sched) : Call → Prop
  | .taskCreate .. => ∀ t, (s.status t).inuse=false → T.life t ∧ T.birth t
  | .taskDelete t => T.life t ∧ T.life s.zombie
  | .taskExit => T.life s.cpu.runningTask ∧ T.life s.zombie
  | .taskSetPriority .. | .semPost _ => T.prio
  | .semPend .. => T.prio ∧ T.sem
  | .queueRead .. | .queueWrite .. => T.que
  | .eventRead .. => T.event s.cpu.runningTask
  | .eventWrite t _ => T.event t
  | .rwRead .. | .rwWrite .. | .rwUnlock _ => T.rw
  | _ => True

end Call

def Kernel.InputWithin (T : Touch) (k : Kernel) : Input → Prop
  | .call call => call.Within T k.sched
  | .proceed => (k.inputPart .proceed=.que → T.que) ∧
      (k.inputPart .proceed=.event → T.event k.sched.cpu.runningTask) ∧
      (k.inputPart .proceed=.rw → T.rw)
  | .tickScan => T.tick
  | .activate _ => ∀ t, (k.sched.status t).inuse=false → T.life t ∧ T.birth t
  | _ => True

def Call.delays : Call → Bool
  | .taskDelay _ | .scheduleTimeout _ | .semPend .. | .queueRead .. | .queueWrite ..
  | .eventRead .. | .rwRead .. | .rwWrite .. | .signalWait .. => true
  | _ => false

def Input.delays : Input → Bool
  | .call c => c.delays
  | _ => false

def Call.limit : Call → Nat
  | .taskDelay tick => tick
  | .scheduleTimeout timeout => timeout.toNat
  | .semPend _ n | .queueRead _ _ n | .queueWrite _ _ n _ | .eventRead _ _ n | .rwRead _ n _
  | .rwWrite _ n _ | .signalWait _ n => n
  | _ => 0

def Input.limit : Input → Nat
  | .call c => c.limit
  | _ => 0

/-- A suspended task that is resumed is not parked, a delivery is allowed for, and no task parks
itself. -/
def Suits (I : Sched → Prop) (G : TskCb → TskCb → Prop) (k : Kernel) : Input → Prop
  | .call (.taskResume t) | .call (.wakeUpProcess t) =>
    (k.sched.status t).suspend=true → Loose I k.sched k.sched t
  | .call (.signalDeliver t info memOk) =>
    (∀ c, (k.sched.tcb t).osAddSignalPendingFlag info memOk=some c → G (k.sched.tcb t) c) ∧
      (I k.sched → (k.sched.status t).waitSignal=true → (k.sched.status t).sigPause=false)
  | .call .pause | .call (.signalWait ..) => ¬I k.sched
  | .proceed =>
    match k.sched.cont k.sched.cpu.runningTask with
    | .sigSuspendEnter .. => ¬I k.sched
    | _ => True
  | _ => True

lemma suits_of_false {G : TskCb → TskCb → Prop} {k : Kernel} {i : Input}
    (hi : ∀ t info memOk c, i=.call (.signalDeliver t info memOk) →
      (k.sched.tcb t).osAddSignalPendingFlag info memOk=some c → G (k.sched.tcb t) c) :
    Suits (fun _ => False) G k i := by
  unfold Suits
  split
  . exact fun _ hI => hI.elim
  . exact fun _ hI => hI.elim
  . exact ⟨fun c hc => hi _ _ _ c rfl hc,fun hI => hI.elim⟩
  . exact id
  . exact id
  . split
    . exact id
    trivial
  trivial

def Call.makes : Call → Bool
  | .semCreate _ | .mutexCreate _ | .semDelete _ | .queueCreate .. | .queueDelete _ => true
  | _ => false

namespace Kernel

lemma exec_sched_of_makes (k : Kernel) {c : Call} (hc : c.makes=true) :
    (k.exec c).1.sched=k.sched := by
  cases c with
  | semCreate count => exact k.prtSemCreate_sched count
  | mutexCreate recur => cases recur <;> exact k.osSemCreate_sched _ _ _
  | semDelete i => exact k.prtSemDelete_sched i
  | queueCreate n size memOk => exact k.prtQueueCreate_sched n size memOk
  | queueDelete q => exact k.prtQueueDelete_sched q
  | _ => cases hc

variable {c u : Prop} {k : Kernel}

lemma Able.plain {s : Sched} (h : Sched.Able c u s) (hc : s.cpu.taskContext=true) :
    (s.cont s.cpu.runningTask).plain=true := by
  obtain ⟨m,hf,-⟩ := h.core.tasks _ (h.run.real hc)
  exact hf.plain

lemma osTskRecycleLoop_tcb (n : Nat) (s : Sched) : (Sched.osTskRecycleLoop n s).tcb=s.tcb := by
  induction n generalizing s with
  | zero => rfl
  | succ n ih =>
    unfold Sched.osTskRecycleLoop
    split
    . rfl
    rw [ih]
    rfl

lemma free_head_unused (h : Sched.Able c u k.sched) {t : Nat} {l : List Nat}
    (hl : k.sched.osTskRecycle.pend.lists .free=t::l) : (k.sched.status t).inuse=false := by
  obtain ⟨hle,-,-⟩ := Sched.osTskRecycle_leads h (d:=False)
  obtain ⟨-,hf⟩ := hle.core.unused_of_loc (.inl (Links.head_loc hl))
  have hi := hf.inuse
  have ht : k.sched.osTskRecycle.tcb=k.sched.tcb := osTskRecycleLoop_tcb _ _
  change (k.sched.osTskRecycle.tcb t).taskStatus.inuse=_ at hi
  rw [ht] at hi
  exact hi

end Kernel

namespace Respects

variable {T : Touch} {I : Sched → Prop} {G : TskCb → TskCb → Prop} {R : Sched → Sched → Prop}
  (h : Respects T I G R) (hG : Signals G) {k : Kernel} {i : Input}

include h hG

lemma exec {c : Call} (hi : Suits I G k (.call c)) (hc : c.delays=false)
    (hT : T.Any ∧ (∀ t, T.birth t) ∨ Sched.Able False False k.sched ∧ c.plain=true)
    (hw : c.Within T k.sched) : R k.sched (k.exec c).1.sched := by
  have hr := h.refl k.sched
  have h0 : T.Any ∨ Sched.Able False False k.sched := hT.imp And.left And.left
  have hcore : T.Any ∨ k.sched.Core := h0.imp_right fun h0 => h0.core
  have hany (hp : c.plain=false) : T.Any := by
    refine hT.elim And.left fun hT => ?_
    rw [hp] at hT
    cases hT.2
  have hsame (hc : c.makes=true) : R k.sched (k.exec c).1.sched := by
    rw [k.exec_sched_of_makes hc]
    exact hr
  cases c with
  | taskCreate p memOk kthread =>
    have h1 := h.osTaskCreateOnly (k:=k) p memOk kthread fun t l hl =>
      hT.elim (fun hT => ⟨hT.1 t,hT.2 t⟩) fun hT => hw t (Kernel.free_head_unused hT.1 hl)
    simp only [Kernel.exec]
    generalize k.osTaskCreateOnly p memOk kthread=r at h1 ⊢
    obtain ⟨k1,e | t⟩ := r <;> exact h1
  | taskResume t => exact h.step_prtTaskResume hr hi fun hle hd => .of_delayInt hcore hle hd
  | taskSuspend t => exact h.prtTaskSuspend _ t
  | taskDelete t => exact h.step_prtTaskDelete hr hw.1 hw.2
  | taskExit => exact h.osTaskExit _ hw.1 hw.2
  | taskLock => exact h.prtTaskLock _
  | taskUnlock => exact h.prtTaskUnlock _
  | taskSetPriority t prio => exact h.prtTaskSetPriority k hw prio
  | semPost i => exact h.prtSemPost k hw hcore
  | eventWrite t events =>
    have h1 := h.prtEventWrite (t:=t) k.sched hcore hw events
    simp only [Kernel.exec,Kernel.eventWrite]
    split
    . exact h1
    exact h1
  | rwUnlock l => exact h.rwUnlock hw k h0
  | semCreate | mutexCreate | semDelete | queueCreate | queueDelete => exact hsame rfl
  | setCurrentState x => exact h.step_kthreadStateSet hr x
  | wakeUpProcess t => exact h.step_wakeUpProcess hr hi fun hle hd => .of_delayInt hcore hle hd
  | enterWaitQueue wq => exact h.enterWaitQueue _ wq
  | wakeUp wq => exact h.wakeUp _ wq
  | signalDeliver t info memOk => exact h.prtSignalDeliver hG (hany rfl) _ info memOk hi.1 hi.2
  | signalMask how set => exact h.prtSignalMask hG _ how set
  | sigSuspend mask => exact h.prtSigSuspend hG (hany rfl) _ mask
  | pause => exact h.pause hi
  | taskDelay | scheduleTimeout | semPend | queueRead | queueWrite | eventRead | rwRead | rwWrite
  | signalWait => cases hc

lemma proceed (hi : Suits I G k .proceed)
    (hT : T.Any ∨ Sched.Able False False k.sched ∧ k.sched.cpu.taskContext=true)
    (hw : k.InputWithin T .proceed) : R k.sched k.proceed.1.sched := by
  have hany (hp : (k.sched.cont k.sched.cpu.runningTask).plain=false) : T.Any := by
    refine hT.resolve_right fun hT => ?_
    rw [Kernel.Able.plain hT.1 hT.2] at hp
    cases hp
  obtain ⟨hq,he,hw⟩ := hw
  unfold Kernel.inputPart at hq he hw
  unfold Kernel.proceed
  cases hk : k.sched.cont k.sched.cpu.runningTask with
  | user => exact h.refl _
  | semPend =>
    apply h.semPendCont k
    rw [hk]
    exact .of_none ⟨rfl,rfl⟩ ⟨rfl,rfl⟩ ⟨rfl,rfl⟩
  | queueRead q len =>
    rw [hk] at hq
    exact h.queueReadCont (hq rfl) k hT (by rw [hk]; rfl) (by rw [hk]; rfl)
  | queueWrite q data prio =>
    rw [hk] at hq
    exact h.queueWriteCont (hq rfl) k _ _ hT (by rw [hk]; rfl) (by rw [hk]; rfl)
  | eventRead mask all =>
    rw [hk] at he
    have h1 := h.eventReadCont k.sched (he rfl) mask (by
      rw [hk]
      exact .of_event (he rfl) ⟨rfl,rfl⟩ ⟨rfl,rfl⟩)
    simp only [Kernel.eventReadRest,Kernel.logRead]
    split <;> exact h1
  | rwPend l write timed =>
    rw [hk] at hw
    have h1 := h.rwPendCont (hw rfl) k.sched timed hk
    simp only [Kernel.rwPendRest]
    split <;> exact h1
  | rwCheck l write =>
    rw [hk] at hw
    have h1 := h.rwCheckCont (hw rfl) k.sched hk
    simp only [Kernel.rwCheckRest]
    split <;> exact h1
  | signalWait set =>
    rw [hk] at hany
    exact h.signalWaitCont hG (hany rfl) _ _
  | sigSuspendEnter saved wait =>
    rw [hk] at hany
    have hI : ¬I k.sched := by simpa only [Suits,hk] using hi
    exact h.sigSuspendEnterCont hG (hany rfl) hI saved wait
  | sigSuspend saved =>
    rw [hk] at hany
    exact h.sigSuspendCont hG (hany rfl) _ _

lemma act (hi : Suits I G k i) (hd : i.delays=false) (ht : i≠.tickScan)
    (hT : T.Any ∧ (∀ t, T.birth t) ∨ Sched.Able False False k.sched ∧
      (∀ c, i=.call c → c.plain=true) ∧ (i=.proceed → k.sched.cpu.taskContext=true))
    (hw : k.InputWithin T i) : R k.sched (k.act i).1.sched := by
  cases i with
  | call c => exact h.exec hG hi hd (hT.imp_right fun hT => ⟨hT.1,hT.2.1 c rfl⟩) hw
  | proceed => exact h.proceed hG hi (hT.imp And.left fun hT => ⟨hT.1,hT.2.2 rfl⟩) hw
  | signalEntry => exact h.osSignalEntry hG _
  | activate memOk =>
    exact h.osActivate memOk fun t l hl =>
      hT.elim (fun hT => ⟨hT.1 t,hT.2 t⟩) fun hT => hw t (Kernel.free_head_unused hT.1 hl)
  | hwiEnter => exact h.hwiEnter _
  | tickIsr => exact h.tickIsr _
  | hwiExit => exact h.hwiExit _
  | tickScan => exact absurd rfl ht
  | tickEnd =>
    have he : (k.act .tickEnd).1.sched=k.sched.tickEnd := by simp only [Kernel.act,Kernel.onSched]
    rw [he]
    exact h.tickEnd k.sched

end Respects

lemma Paces.act {T : Touch} {I : Sched → Prop} {G : TskCb → TskCb → Prop} {N : Nat → Prop}
    {Q R : Sched → Sched → Prop} (h : Paces T I G N Q R) (hG : Signals G) {k : Kernel} {i : Input}
    (hi : Suits I G k i) (ht : i≠.tickScan) (hn : i.delays=true → N i.limit)
    (hT : T.Any ∧ (∀ t, T.birth t) ∨ Sched.Able False False k.sched ∧
      (∀ c, i=.call c → c.plain=true) ∧ (i=.proceed → k.sched.cpu.taskContext=true))
    (hu : T.Any ∨ (i.delays=true → k.sched.cpu.intActive=false →
      k.sched.cont k.sched.cpu.runningTask=.user))
    (hw : k.InputWithin T i) : R k.sched (k.act i).1.sched := by
  cases hd : i.delays with
  | false => exact h.post.act hG hi hd ht hT hw
  | true =>
    specialize hn hd
    have hu' := hu.imp_right fun hu => hu hd
    have hcore : T.Any ∨ k.sched.Core := hT.imp And.left fun hT => hT.1.core
    cases i with
    | call c =>
      cases c with
      | taskDelay tick => exact h.prtTaskDelay _ tick fun _ => hn
      | scheduleTimeout timeout =>
        refine h.scheduleTimeout _ timeout hn fun hint => ?_
        rcases hu' with hany | hu'
        . exact hany.free
        rw [hu' hint]
        exact .user
      | semPend i timeout => exact h.prtSemPend hn k hw.1 hw.2 hu'
      | queueRead q len timeOut => exact h.prtQueueRead hn hw k len hcore hu'
      | queueWrite q data timeOut prio => exact h.prtQueueWrite hn hw k data prio hcore hu'
      | eventRead mask flags timeOut => exact h.eventRead hn k hw hu' mask flags
      | rwRead l timeout try_ => exact h.osRwLockRdPend hn hw k hu' try_
      | rwWrite l timeout try_ => exact h.osRwLockWrPend hn hw k hu' try_
      | signalWait set timeOut =>
        refine h.prtSignalWait hn hG (hT.elim And.left fun hT => ?_) hi set
        cases hT.2.1 _ rfl
      | _ => cases hd
    | _ => cases hd

lemma Kernel.inputWithin_all (k : Kernel) (i : Input) : k.InputWithin .all i := by
  cases i with
  | call c =>
    cases c <;> first | trivial | exact ⟨trivial,trivial⟩ | exact fun _ _ => ⟨trivial,trivial⟩
  | proceed => exact ⟨fun _ => trivial,fun _ => trivial,fun _ => trivial⟩
  | activate => exact fun _ _ => ⟨trivial,trivial⟩
  | _ => trivial

section whole

variable {I : Sched → Prop} {G : TskCb → TskCb → Prop} {N : Nat → Prop}
  {Q R : Sched → Sched → Prop} {k : Kernel} {i : Input}

lemma Handles.act (h : Handles I G R) (hG : Signals G) (hi : Suits I G k i)
    (hd : i.delays=false) (ht : i≠.tickScan) : R k.sched (k.act i).1.sched :=
  Respects.act h hG hi hd ht (.inl ⟨Touch.any_all,fun _ => trivial⟩) (k.inputWithin_all i)

lemma Steps.act (h : Steps I G N Q R) (hG : Signals G) (hi : Suits I G k i)
    (ht : i≠.tickScan) (hn : i.delays=true → N i.limit) : R k.sched (k.act i).1.sched :=
  Paces.act h hG hi ht hn (.inl ⟨Touch.any_all,fun _ => trivial⟩) (.inl Touch.any_all)
    (k.inputWithin_all i)

end whole

def TskCb.sigs (c : TskCb) : BitVec 64×BitVec 64×BitVec 64×List SigInfo :=
  (c.sigMask,c.sigWaitMask,c.sigPending,c.sigInfoList)

def EachTask (G : TskCb → TskCb → Prop) (a s : Sched) : Prop := ∀ t, G (a.tcb t) (s.tcb t)

namespace EachTask

variable {G : TskCb → TskCb → Prop} {a s s' : Sched}

lemma of_tcb (h : EachTask G a s) (he : s'.tcb=s.tcb) : EachTask G a s' := by
  intro t
  rw [he]
  exact h t

lemma modTcb (h : EachTask G a s) {t : Nat} {f : TskCb → TskCb}
    (hf : G (a.tcb t) (f (s.tcb t))) : EachTask G a (s.modTcb t f) := by
  intro u
  by_cases hu : u=t
  . subst hu
    simpa [Sched.modTcb] using hf
  simpa [Sched.modTcb,hu] using h u

variable (hG : Signals G) (hsame : ∀ {c c' c''}, G c c' → c''.sigs=c'.sigs → G c c'')
  (hbirth : ∀ c c' prio, G c (osTskCreateTcbInit prio c'))

include hG hsame hbirth

lemma handles : Handles (fun _ => False) G (EachTask G) where
  refl a t := hG.refl (a.tcb t)
  frame h hs := h.of_tcb hs.tcb
  modTcb t _ h hk _ _ := h.modTcb (hsame (h t) (congrArg Prod.snd hk))
  modSigs t _ h hg _ _ := h.modTcb (hG.trans (h t) hg)
  birth _ prio h _ _ := h.modTcb (hbirth _ _ prio)
  toZombie _ h _ _ := h.modTcb (hsame (h _) rfl)
  setCont _ _ h _ _ := h.of_tcb rfl
  pendInsert _ _ _ h _ _ := h.of_tcb rfl
  pendDelete _ h := h.of_tcb rfl
  timerDelete _ h := h.of_tcb rfl
  waitInsert _ _ _ _ h _ := h.of_tcb rfl
  waitDelete _ h := h.of_tcb rfl
  ofPend _ _ hI := hI.elim
  ofWait _ _ hI := hI.elim
  ofRunning _ hI := hI.elim
  ofHighest _ _ hI := hI.elim
  ofEngaged _ _ hI := hI.elim

lemma steps : Steps (fun _ => False) G (fun _ => True) (EachTask G) (EachTask G) where
  pre := handles hG hsame hbirth
  post := handles hG hsame hbirth
  weaken := id
  timerAdd {a s} n _ h _ := by
    have h1 : EachTask G a (s.modTcb a.cpu.runningTask fun c =>
        {c with expirationTick:=(s.cpu.uniTicks+n)%2^64}) := h.modTcb (hsame (h _) rfl)
    exact h1.of_tcb rfl

lemma act {k : Kernel} {i : Input}
    (hi : ∀ t info memOk c, i=.call (.signalDeliver t info memOk) →
      (k.sched.tcb t).osAddSignalPendingFlag info memOk=some c → G (k.sched.tcb t) c) :
    EachTask G k.sched (k.act i).1.sched := by
  by_cases ht : i=.tickScan
  . subst ht
    have h0 : EachTask G k.sched {k.sched with cpu := {k.sched.cpu with
        uniTicks := (k.sched.cpu.uniTicks+1)%2^64
        tickPhase := .hooks}} := fun t => hG.refl (k.sched.tcb t)
    exact (handles hG hsame hbirth).step_osTaskScan (fun _ _ hI => hI.elim) h0 (.inl Touch.any_all)
  exact (steps hG hsame hbirth).act hG (suits_of_false hi) ht fun _ => trivial

end EachTask

end UniProton
