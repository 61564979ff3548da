import UniProton.Ipc.QueueCalls
import UniProton.Kernel.Machine

namespace UniProton

open Framework

/-- The parts of the kernel state that inputs belong to. -/
inductive Part where
  | task | create | sem | que | event | rw deriving DecidableEq

namespace Kernel

/-- Outside the task part, at most the given part differs. A created task gets an empty
`semBList`. -/
def Only (k k' : Kernel) : Part → Prop
  | .task => ∃ s, k'={k with sched:=s}
  | .create => ∃ s b, k'={k with sched:=s, semB:=b}
  | .sem => ∃ s a b u l q c, k' =
      {k with
               sched := s, sems := a, semB := b, unusedSem := u, semLog := l, queuedAt := q,
               clock := c}
  | .que => ∃ s q l, k'={k with sched:=s, queues:=q, queLog:=l}
  | .event => ∃ s l, k'={k with sched:=s, evLog:=l}
  | .rw => ∃ s r h, k'={k with sched:=s, rwlocks:=r, rwHolds:=h}

variable {k k' k1 : Kernel} {p : Part}

lemma Only.of_sched (p : Part) {s : Sched} (h : k'={k with sched:=s}) : k.Only k' p := by
  subst h
  cases p with
  | task => exact ⟨_,rfl⟩
  | create => exact ⟨_,_,rfl⟩
  | sem => exact ⟨_,_,_,_,_,_,_,rfl⟩
  | que => exact ⟨_,_,_,rfl⟩
  | event => exact ⟨_,_,rfl⟩
  | rw => exact ⟨_,_,_,rfl⟩

lemma Only.refl (k : Kernel) (p : Part) : k.Only k p := .of_sched (s:=k.sched) p rfl

lemma Only.trans (h : k.Only k1 p) (h' : k1.Only k' p) : k.Only k' p := by
  cases p <;> simp only [Only] at h h' ⊢ <;> grind

lemma Only.sems (h : k.Only k' p) (hp : p≠.sem) :
    k'.sems=k.sems ∧ k'.unusedSem=k.unusedSem ∧ k'.semLog=k.semLog ∧
      k'.queuedAt=k.queuedAt ∧ k'.clock=k.clock := by
  cases p <;> grind [Only]

lemma Only.semB (h : k.Only k' p) (hp : p≠.sem) (hc : p≠.create) : k'.semB=k.semB := by
  cases p <;> grind [Only]

lemma Only.queues (h : k.Only k' p) (hp : p≠.que) : k'.queues=k.queues ∧ k'.queLog=k.queLog := by
  cases p <;> grind [Only]

lemma Only.events (h : k.Only k' p) (hp : p≠.event) : k'.evLog=k.evLog := by
  cases p <;> grind [Only]

lemma Only.rwlocks (h : k.Only k' p) (hp : p≠.rw) :
    k'.rwlocks=k.rwlocks ∧ k'.rwHolds=k.rwHolds := by
  cases p <;> grind [Only]

lemma Only.onSched (h : k.Only k' p) (f : Sched → Sched) : k.Only (k'.onSched f) p :=
  h.trans (.of_sched p rfl)

section sem

lemma osPriorityInheritLoop_only (n : Nat) (k' : Kernel) (o new : Nat) (h : k.Only k' .sem) :
    k.Only (osPriorityInheritLoop n k' o new) .sem := by
  induction n generalizing k' o with
  | zero => exact h
  | succ n ih =>
    unfold osPriorityInheritLoop
    split
    . exact h
    split
    . exact h.onSched _
    dsimp only
    split
    . next i _ _ =>
      have h2 : k.Only (if ((k'.setPriority o new).sems i).semMode=.prior then
          (k'.setPriority o new).osResortSemList o i else k'.setPriority o new) .sem := by
        apply h.trans
        split
        . exact ⟨_,_,_,_,_,_,_,rfl⟩
        exact .of_sched _ rfl
      generalize (if ((k'.setPriority o new).sems i).semMode=.prior then
          (k'.setPriority o new).osResortSemList o i else k'.setPriority o new)=k2 at h2 ⊢
      split
      . exact ih k2 _ h2
      exact h2
    exact h.onSched _

lemma osPriorityRestore_sched (k : Kernel) :
    ∃ s, k.osPriorityRestore.1={k with sched:=s} := by
  simp only [osPriorityRestore]
  repeat' split
  all_goals exact ⟨_,rfl⟩

lemma osSemPendListGet_only (k : Kernel) (i : Nat) : k.Only (k.osSemPendListGet i) .sem := by
  unfold osSemPendListGet
  split
  . exact .refl _ _
  dsimp only
  split
  . obtain ⟨s,hs⟩ := osPriorityRestore_sched (((((k.onSched _).modSem i _).logSem i
      _).semBDelete i).semBTailAdd i _)
    rw [hs]
    exact ⟨_,_,_,_,_,_,_,rfl⟩
  exact ⟨_,_,_,_,_,_,_,rfl⟩

lemma osSemPendNotNeedSche_only {i : Nat} (h : k.osSemPendNotNeedSche i=some k') :
    k.Only k' .sem := by
  unfold osSemPendNotNeedSche at h
  dsimp only at h
  split at h
  . obtain rfl := Option.some.inj h
    exact ⟨_,_,_,_,_,_,_,rfl⟩
  split at h
  . obtain rfl := Option.some.inj h
    split <;> exact ⟨_,_,_,_,_,_,_,rfl⟩
  cases h

lemma prtSemPend_only (k : Kernel) (i n : Nat) : k.Only (k.prtSemPend i n).1 .sem := by
  unfold prtSemPend
  split
  . exact .refl _ _
  split
  . exact .refl _ _
  split
  . exact .refl _ _
  split
  . next h => exact osSemPendNotNeedSche_only h
  split
  . exact .refl _ _
  generalize (if n=osWaitForever then Cont.user else .semPend)=x
  refine Only.onSched ?_ _
  have h1 : k.Only ((k.onSched fun s => s.setCont s.cpu.runningTask x).osSemBlock i n) .sem :=
    ⟨_,_,_,_,_,_,_,rfl⟩
  unfold osSemPendListPut osPriorityInherit
  split
  . exact osPriorityInheritLoop_only _ _ _ _ h1
  exact h1

lemma semPendCont_sched (k : Kernel) : ∃ s, k.semPendCont.1={k with sched:=s} := by
  simp only [semPendCont]
  split <;> exact ⟨_,rfl⟩

lemma prtSemPost_only (k : Kernel) (i : Nat) : k.Only (k.prtSemPost i).1 .sem := by
  unfold prtSemPost
  split
  . exact .refl _ _
  split
  . exact .refl _ _
  split
  . next k' h =>
    unfold osSemPostIsInvalid at h
    dsimp only at h
    split at h
    . obtain rfl := Option.some.inj h
      exact ⟨_,_,_,_,_,_,_,rfl⟩
    split at h
    . obtain rfl := Option.some.inj h
      exact .refl _ _
    cases h
  dsimp only
  have h1 : ∀ t, k.Only (k.logSem i (.posted t)) .sem := fun _ => ⟨_,_,_,_,_,_,_,rfl⟩
  split
  . exact ((h1 _).trans (osSemPendListGet_only _ i)).onSched _
  split
  . obtain ⟨s,hs⟩ := osPriorityRestore_sched (((k.logSem i
      (.posted k.sched.cpu.runningTask)).modSem i fun c =>
        {c with semCount:=(c.semCount+1)%2^32, semOwner:=osInvalidOwnerId}).semBDelete i)
    split
    all_goals
      next he =>
      rw [he] at hs
      subst hs
      exact ⟨_,_,_,_,_,_,_,rfl⟩
  exact ⟨_,_,_,_,_,_,_,rfl⟩

lemma osSemCreate_only (k : Kernel) (count : Nat) (semType : SemType) (semMode : SemMode) :
    k.Only (k.osSemCreate count semType semMode).1 .sem := by
  unfold osSemCreate
  split
  . exact .refl _ _
  exact ⟨_,_,_,_,_,_,_,rfl⟩

lemma prtSemDelete_only (k : Kernel) (i : Nat) : k.Only (k.prtSemDelete i).1 .sem := by
  unfold prtSemDelete
  repeat' split
  all_goals exact ⟨_,_,_,_,_,_,_,rfl⟩

lemma prtTaskSetPriority_sched (k : Kernel) (t prio : Nat) :
    ∃ s, (k.prtTaskSetPriority t prio).1={k with sched:=s} := by
  unfold prtTaskSetPriority
  repeat' split
  all_goals exact ⟨_,rfl⟩

end sem

section que

variable {q : Nat} {write : Bool}

lemma queueGive_only (h : k.Only k' .que) : k.Only (k'.queueGive q write) .que := by
  apply h.trans
  unfold queueGive osQueuePendNeedProc
  split
  . next he =>
    split at he
    . cases he
    cases he
    exact .of_sched _ rfl
  next he =>
  split at he
  . cases he
    exact ⟨_,_,_,rfl⟩
  cases he

lemma queueReadOut_only (h : k.Only k' .que) (len : Nat) : k.Only (k'.queueReadOut q len) .que := by
  exact queueGive_only (h.trans ⟨_,_,_,rfl⟩)

lemma queueWriteIn_only (h : k.Only k' .que) (data : List UInt8) (prio : Nat) :
    k.Only (k'.queueWriteIn q data prio) .que := by
  exact queueGive_only (h.trans ⟨_,_,_,rfl⟩)

lemma osInnerPend_only (k : Kernel) (n : Nat) (x : Cont) (f : Kernel → Kernel)
    (hf : ∀ k', k.Only k' .que → k.Only (f k') .que) : k.Only (match k.osInnerPend q write n x with
      | (k,some .osOk) => (f k,some Errno.osOk)
      | r => r).1 .que := by
  rcases osInnerPend_cases k q write n x with ⟨-,he⟩ | ⟨e,he,hne⟩ | ⟨-,-,-,he⟩
  . rw [he]
    exact hf _ ⟨_,_,_,rfl⟩
  . rw [he]
    split
    . next hh => cases hh; exact absurd rfl hne
    exact .refl _ _
  rw [he]
  exact .of_sched _ rfl

lemma prtQueueRead_only (k : Kernel) (queueId len n : Nat) :
    k.Only (k.prtQueueRead queueId len n).1 .que := by
  simp only [prtQueueRead]
  split
  . exact .refl _ _
  split
  . exact .refl _ _
  split
  . exact .refl _ _
  exact osInnerPend_only k n _ (fun k => k.queueReadOut _ len) fun _ h => queueReadOut_only h len

lemma prtQueueWrite_only (k : Kernel) (queueId : Nat) (data : List UInt8) (n prio : Nat) :
    k.Only (k.prtQueueWrite queueId data n prio).1 .que := by
  simp only [prtQueueWrite]
  split
  . exact .refl _ _
  split
  . exact .refl _ _
  split
  . exact .refl _ _
  exact osInnerPend_only k n _ (fun k => k.queueWriteIn _ data prio) fun _ h =>
    queueWriteIn_only h data prio

lemma osInnerPendCont_sched (k : Kernel) : ∃ s, k.osInnerPendCont.1={k with sched:=s} := by
  simp only [osInnerPendCont]
  split <;> exact ⟨_,rfl⟩

lemma queueReadCont_only (k : Kernel) (q len : Nat) : k.Only (k.queueReadCont q len).1 .que := by
  obtain ⟨s,hs⟩ := osInnerPendCont_sched k
  unfold queueReadCont
  generalize k.osInnerPendCont=p at hs ⊢
  split
  . exact queueReadOut_only (.of_sched _ hs) len
  exact .of_sched _ hs

lemma queueWriteCont_only (k : Kernel) (q : Nat) (data : List UInt8) (prio : Nat) :
    k.Only (k.queueWriteCont q data prio).1 .que := by
  obtain ⟨s,hs⟩ := osInnerPendCont_sched k
  unfold queueWriteCont
  generalize k.osInnerPendCont=p at hs ⊢
  split
  . exact queueWriteIn_only (.of_sched _ hs) data prio
  exact .of_sched _ hs

lemma prtQueueCreate_only (k : Kernel) (n size : UInt16) (memOk : Bool) :
    k.Only (k.prtQueueCreate n size memOk).1 .que := by
  simp only [prtQueueCreate]
  repeat' split
  all_goals exact ⟨_,_,_,rfl⟩

lemma prtQueueDelete_only (k : Kernel) (queueId : Nat) :
    k.Only (k.prtQueueDelete queueId).1 .que := by
  simp only [prtQueueDelete]
  repeat' split
  all_goals exact ⟨_,_,_,rfl⟩

end que

lemma logRead_only (h : k.Only k' .event) (t : Nat) (mask : BitVec 32) (all : Bool)
    (r : Option (Errno×BitVec 32)) : k.Only (k'.logRead t mask all r) .event := by
  apply h.trans
  unfold logRead
  split
  . exact .refl _ _
  . exact ⟨_,_,rfl⟩
  exact ⟨_,_,rfl⟩

lemma eventWrite_only (k : Kernel) (t : Nat) (events : BitVec 32) :
    k.Only (k.eventWrite t events).1 .event := by
  simp only [eventWrite]
  split
  . exact ⟨_,_,rfl⟩
  exact .of_sched _ rfl

section rw

variable {l : Nat}

lemma osRwLockRdPend_only (k : Kernel) (l n : Nat) (try_ : Bool) :
    k.Only (k.osRwLockRdPend l n try_).1 .rw := by
  simp only [osRwLockRdPend]
  repeat' split
  all_goals exact ⟨_,_,_,rfl⟩

lemma osRwLockWrPend_only (k : Kernel) (l n : Nat) (try_ : Bool) :
    k.Only (k.osRwLockWrPend l n try_).1 .rw := by
  simp only [osRwLockWrPend]
  repeat' split
  all_goals exact ⟨_,_,_,rfl⟩

lemma osRwLockPost_only (k : Kernel) (l : Nat) : k.Only (k.osRwLockPost l).1 .rw := by
  have hread : ∀ k1, k.Only k1 .rw → ∀ bound r n,
      k.Only (k1.osRwLockPostRead l bound r n).1 .rw := by
    intro k1 h bound r n
    simp only [osRwLockPostRead]
    split <;> exact h.trans ⟨_,_,_,rfl⟩
  have h0 : k.Only (k.modRw l fun _ => {}) .rw := ⟨_,_,_,rfl⟩
  simp only [osRwLockPost]
  split
  . exact ⟨_,_,_,rfl⟩
  . exact ⟨_,_,_,rfl⟩
  . exact hread _ h0 _ _ _
  . exact hread _ h0 _ _ _
  exact h0

lemma rwUnlock_only (k : Kernel) (l : Nat) : k.Only (k.rwUnlock l).1 .rw := by
  have h1 : k.Only (k.osRwLockUnlock l).1 .rw := by
    simp only [osRwLockUnlock]
    repeat' split
    all_goals first | exact osRwLockPost_only k l | exact ⟨_,_,_,rfl⟩
  have h2 : k.Only (k.pthreadRwlockUnlock l).1 .rw := by
    unfold pthreadRwlockUnlock
    generalize k.osRwLockUnlock l=p at h1 ⊢
    split
    . exact h1.onSched _
    exact h1
  simp only [rwUnlock]
  split
  . exact h2.trans ⟨_,_,_,rfl⟩
  exact h2

lemma rwPendRest_only (k : Kernel) (l : Nat) (write timed : Bool) :
    k.Only (k.rwPendRest l write timed).1 .rw := by
  simp only [rwPendRest]
  split
  . exact ⟨_,_,_,rfl⟩
  exact .of_sched _ rfl

lemma rwCheckRest_only (k : Kernel) (l : Nat) (write : Bool) :
    k.Only (k.rwCheckRest l write).1 .rw := by
  simp only [rwCheckRest]
  split
  . exact ⟨_,_,_,rfl⟩
  exact .of_sched _ rfl

end rw

lemma osTaskCreateOnly_only (k : Kernel) (p : TskInitParam) (memOk kthread : Bool) :
    k.Only (k.osTaskCreateOnly p memOk kthread).1 .create := by
  simp only [osTaskCreateOnly]
  repeat' split
  all_goals exact ⟨_,_,rfl⟩

lemma osActivate_only (k : Kernel) (memOk : Bool) : k.Only (k.osActivate memOk).1 .create := by
  have h := osTaskCreateOnly_only k
    ⟨true,k.sched.cfg.prioLowest,k.sched.cfg.idleStackSize,0,some "IdleTask"⟩ memOk false
  simp only [osActivate]
  generalize k.osTaskCreateOnly _ memOk false=r at h ⊢
  obtain ⟨k1,e | t⟩ := r
  . exact h
  exact h.trans (.of_sched _ rfl)

end Kernel

def Call.part : Call → Part
  | .taskCreate .. => .create
  | .semCreate .. | .mutexCreate _ | .semDelete _ | .semPend .. | .semPost _ => .sem
  | .queueCreate .. | .queueDelete _ | .queueRead .. | .queueWrite .. => .que
  | .eventRead .. | .eventWrite .. => .event
  | .rwRead .. | .rwWrite .. | .rwUnlock _ => .rw
  | _ => .task

def Cont.part : Cont → Part
  | .queueRead .. | .queueWrite .. => .que
  | .eventRead .. => .event
  | .rwPend .. | .rwCheck .. => .rw
  | _ => .task

namespace Kernel

variable (k : Kernel)

lemma exec_only (c : Call) : k.Only (k.exec c).1 c.part := by
  cases c with
  | taskCreate p memOk kthread =>
    have h := osTaskCreateOnly_only k p memOk kthread
    simp only [exec]
    generalize k.osTaskCreateOnly p memOk kthread=r at h ⊢
    obtain ⟨k1,e | t⟩ := r <;> exact h
  | taskSetPriority t prio =>
    obtain ⟨s,hs⟩ := prtTaskSetPriority_sched k t prio
    exact ⟨s,hs⟩
  | semCreate count =>
    simp only [exec,prtSemCreate]
    split
    . exact .refl _ _
    exact osSemCreate_only _ _ _ _
  | mutexCreate recur => cases recur <;> exact osSemCreate_only _ _ _ _
  | semDelete i => exact prtSemDelete_only k i
  | semPend i n => exact prtSemPend_only k i n
  | semPost i => exact prtSemPost_only k i
  | queueCreate n size memOk => exact prtQueueCreate_only k n size memOk
  | queueDelete q => exact prtQueueDelete_only k q
  | queueRead q len n => exact prtQueueRead_only k q len n
  | queueWrite q data n prio => exact prtQueueWrite_only k q data n prio
  | eventRead mask flags n => exact logRead_only (.of_sched _ rfl) _ _ _ _
  | eventWrite t events => exact eventWrite_only k t events
  | rwRead l n try_ => exact osRwLockRdPend_only k l n try_
  | rwWrite l n try_ => exact osRwLockWrPend_only k l n try_
  | rwUnlock l => exact rwUnlock_only k l
  | _ => exact ⟨_,rfl⟩

lemma proceed_only : k.Only k.proceed.1 (k.sched.cont k.sched.cpu.runningTask).part := by
  unfold proceed
  cases hc : k.sched.cont k.sched.cpu.runningTask with
  | user => exact .refl _ _
  | semPend => exact semPendCont_sched k
  | queueRead q len => exact queueReadCont_only k q len
  | queueWrite q data prio => exact queueWriteCont_only k q data prio
  | eventRead mask all => exact logRead_only (.of_sched _ rfl) _ _ _ _
  | rwPend l write timed => exact rwPendRest_only k l write timed
  | rwCheck l write => exact rwCheckRest_only k l write
  | signalWait | sigSuspendEnter | sigSuspend => exact ⟨_,rfl⟩

def inputPart : Input → Part
  | .call c => c.part
  | .proceed => (k.sched.cont k.sched.cpu.runningTask).part
  | .activate _ => .create
  | _ => .task

def evOf : Input → Option Nat
  | .call (.eventRead ..) => some k.sched.cpu.runningTask
  | .call (.eventWrite t _) => some t
  | .proceed => if k.inputPart .proceed=.event then some k.sched.cpu.runningTask else none
  | _ => none

lemma act_only (i : Input) : k.Only (k.act i).1 (k.inputPart i) := by
  cases i with
  | call c => exact k.exec_only c
  | proceed => exact k.proceed_only
  | activate memOk => exact osActivate_only k memOk
  | _ => exact ⟨_,rfl⟩

end Kernel

end UniProton
