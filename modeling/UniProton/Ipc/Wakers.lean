import UniProton.Kernel.Reach

namespace UniProton

open Framework Kernel TskStatus

namespace TskStatus

def waits (b : TskStatus) : Bool :=
  b.pend || b.queuePend || b.eventPend || b.rwPend || b.waitSignal || b.sigPause ||
    b.waitqueuePend || b.delay

/-- Of the bits in `OS_TSK_BLOCK` the task has only those that the resume clears. -/
def resumable (b : TskStatus) (lock : Nat) : Bool :=
  !(b.running && decide (lock≠0)) && (b.suspend || b.delayInterruptible) &&
    !(b.delay || b.pend || b.queuePend || b.eventPend || b.waitqueuePend || b.rwPend)

end TskStatus

namespace Sched

variable (s : Sched) (t u : Nat)

lemma status_modTcb (f : TskCb → TskCb) : (s.modTcb t f).status u =
    if u=t then (f (s.tcb t)).taskStatus else s.status u := by
  by_cases h : u=t
  . subst h
    simp [status,modTcb]
  simp [status,modTcb,h]

lemma status_modStatus (f : TskStatus → TskStatus) : (s.modStatus t f).status u =
    if u=t then f (s.status t) else s.status u :=
  s.status_modTcb t u _

lemma status_osTskReadyAdd : (s.osTskReadyAdd t).status u =
    if u=t then {s.status t with ready:=true} else s.status u := by
  change ((s.osTskReadyAdd t).view u).bits=_
  rw [osTskReadyAdd_view]
  by_cases h : u=t
  . subst h
    simp [TaskView.bits,status,view]
  simp [h,TaskView.bits,status,view]

lemma status_osTskReadyDel : (s.osTskReadyDel t).status u =
    if u=t then {s.status t with ready:=false} else s.status u := by
  change ((s.osTskReadyDel t).view u).bits=_
  rw [osTskReadyDel_view]
  by_cases h : u=t
  . subst h
    simp [TaskView.bits,status,view]
  simp [h,TaskView.bits,status,view]

def SparesSuspended (s s' : Sched) : Prop :=
  ∀ u, (s.status u).ready=false → (s'.status u).ready=true → (s.status u).suspend=false

def SparesWaiting (s s' : Sched) : Prop :=
  ∀ u, (s.status u).ready=false → (s'.status u).ready=true → (s.status u).waits=false

/-- The suspend bits are left alone, and tasks with that bit are not made ready. -/
structure Heeds (s s' : Sched) : Prop where
  suspend : ∀ u, (s'.status u).suspend=(s.status u).suspend
  ready : ∀ u, (s'.status u).ready=true → (s.status u).ready=true ∨ (s.status u).suspend=false

variable {s t u} {s' s1 : Sched}

lemma Heeds.spares (h : Heeds s s') : SparesSuspended s s' := by
  intro u hr hr'
  rcases h.ready u hr' with hc | hc
  . rw [hr] at hc
    cases hc
  exact hc

lemma Heeds.refl (s : Sched) : Heeds s s := ⟨fun _ => rfl,fun _ => .inl⟩

lemma Heeds.trans (h : Heeds s s1) (h' : Heeds s1 s') : Heeds s s' := by
  refine ⟨fun u => (h'.suspend u).trans (h.suspend u),fun u hr => ?_⟩
  rcases h'.ready u hr with hc | hc
  . exact h.ready u hc
  exact .inr ((h.suspend u).symm.trans hc)

def SameMarks (s s' : Sched) : Prop :=
  ∀ u, (s'.status u).ready=(s.status u).ready ∧ (s'.status u).suspend=(s.status u).suspend

lemma SameMarks.trans (h : SameMarks s s1) (h' : SameMarks s1 s') : SameMarks s s' := by
  intro u
  exact ⟨(h' u).1.trans (h u).1,(h' u).2.trans (h u).2⟩

lemma SameMarks.congr (he : s'.tcb=s.tcb) : SameMarks s s' := by
  intro u
  rw [status,status,he]
  exact ⟨rfl,rfl⟩

lemma sameMarks_modTcb (s : Sched) (t : Nat) (f : TskCb → TskCb)
    (hf : ∀ c, (f c).taskStatus.ready=c.taskStatus.ready ∧
      (f c).taskStatus.suspend=c.taskStatus.suspend) : SameMarks s (s.modTcb t f) := by
  intro u
  rw [status_modTcb]
  split_ifs with hu
  . rw [hu]
    exact hf _
  exact ⟨rfl,rfl⟩

lemma sameMarks_osMainSchedule (s : Sched) : SameMarks s s.osMainSchedule := by
  unfold Sched.osMainSchedule
  split
  . split
    . exact .congr rfl
    next t _ =>
    have h1 : SameMarks s (s.modStatus s.cpu.runningTask fun b => {b with running:=false}) :=
      sameMarks_modTcb s _ _ fun _ => ⟨rfl,rfl⟩
    have h2 := h1.trans (sameMarks_modTcb _ t (fun c =>
      {c with taskStatus:={c.taskStatus with running:=true}}) fun _ => ⟨rfl,rfl⟩)
    exact h2.trans (.congr rfl)
  split
  . exact .congr rfl
  exact .congr rfl

lemma sameMarks_osTskSchedule (s : Sched) : SameMarks s s.osTskSchedule := by
  simp only [Sched.osTskSchedule]
  split
  . split
    . exact .congr rfl
    exact SameMarks.trans (.congr rfl) (sameMarks_osMainSchedule _)
  exact .congr rfl

lemma sameMarks_timeoutClear (s : Sched) (t : Nat) : SameMarks s (s.timeoutClear t) := by
  unfold Sched.timeoutClear
  split
  . have h1 : SameMarks s (s.timerDelete t) := .congr rfl
    refine h1.trans (sameMarks_modTcb _ t _ fun _ => ⟨rfl,rfl⟩)
  exact .congr rfl

lemma Heeds.same (h : Heeds s s1) (h' : SameMarks s1 s') : Heeds s s' :=
  h.trans ⟨fun u => (h' u).2,fun u hr => .inl ((h' u).1.symm.trans hr)⟩

lemma Heeds.congr (h : Heeds s s1) (he : s'.tcb=s1.tcb) : Heeds s s' := h.same (.congr he)

lemma Heeds.modTcb (h : Heeds s s1) (t : Nat) (f : TskCb → TskCb)
    (hf : ∀ c, (f c).taskStatus.ready=c.taskStatus.ready ∧
      (f c).taskStatus.suspend=c.taskStatus.suspend) : Heeds s (s1.modTcb t f) :=
  h.same (sameMarks_modTcb s1 t f hf)

lemma Heeds.modStatus (h : Heeds s s1) (t : Nat) (f : TskStatus → TskStatus)
    (hf : ∀ b, (f b).ready=b.ready ∧ (f b).suspend=b.suspend) : Heeds s (s1.modStatus t f) :=
  h.modTcb t _ fun c => hf c.taskStatus

lemma Heeds.pendDelete (h : Heeds s s1) (t : Nat) : Heeds s (s1.pendDelete t) := h.congr rfl

lemma Heeds.osTskReadyDel (h : Heeds s s1) (t : Nat) : Heeds s (s1.osTskReadyDel t) := by
  refine h.trans ⟨fun u => ?_,fun u hr => ?_⟩
  . rw [status_osTskReadyDel]
    split_ifs with hu
    . rw [hu]
    rfl
  rw [status_osTskReadyDel] at hr
  split_ifs at hr
  exact .inl hr

lemma Heeds.osTskReadyAdd (h : Heeds s s1) (ht : (s1.status t).suspend=false) :
    Heeds s (s1.osTskReadyAdd t) := by
  refine h.trans ⟨fun u => ?_,fun u hr => ?_⟩
  . rw [status_osTskReadyAdd]
    split_ifs with hu
    . rw [hu]
    rfl
  rw [status_osTskReadyAdd] at hr
  split_ifs at hr with hu
  . rw [hu]
    exact .inr ht
  exact .inl hr

lemma Heeds.readyAddUnlessSuspend (h : Heeds s s1) (t : Nat) :
    Heeds s (s1.readyAddUnlessSuspend t) := by
  unfold Sched.readyAddUnlessSuspend
  split
  . exact h
  next hs => exact h.osTskReadyAdd (Bool.eq_false_iff.mpr hs)

lemma Heeds.timeoutClear (h : Heeds s s1) (t : Nat) : Heeds s (s1.timeoutClear t) :=
  h.same (sameMarks_timeoutClear s1 t)

lemma Heeds.osTskSchedule (h : Heeds s s1) : Heeds s s1.osTskSchedule :=
  h.same (sameMarks_osTskSchedule s1)

lemma Heeds.osTaskExpire (h : Heeds s s1) (t : Nat) : Heeds s (s1.osTaskExpire t) := by
  have h1 : Heeds s (s1.timerDelete t) := h.congr rfl
  simp only [Sched.osTaskExpire]
  split
  . have h2 := h1.modStatus t (fun b => {b with pend:=false}) fun _ => ⟨rfl,rfl⟩
    apply (h2.pendDelete t).modTcb
    exact fun _ => ⟨rfl,rfl⟩
  split
  . exact h1.modStatus t _ fun _ => ⟨rfl,rfl⟩
  split
  . apply (h1.pendDelete t).modStatus
    exact fun _ => ⟨rfl,rfl⟩
  split
  . apply (h1.pendDelete t).modStatus
    exact fun _ => ⟨rfl,rfl⟩
  split
  . have h2 := h1.modStatus t (fun b => {b with delayInterruptible:=false})
      fun _ => ⟨rfl,rfl⟩
    exact h2.modTcb t _ fun _ => ⟨rfl,rfl⟩
  exact h1.modStatus t _ fun _ => ⟨rfl,rfl⟩

lemma Heeds.osTaskScanLoop (n : Nat) (need : Bool) (h : Heeds s s1) :
    Heeds s (Sched.osTaskScanLoop n s1 need).1 := by
  induction n generalizing s1 need with
  | zero => exact h
  | succ n ih =>
    unfold Sched.osTaskScanLoop
    split
    . exact h
    next t _ _ =>
    split
    . exact h
    have h1 := h.osTaskExpire t
    dsimp only
    split
    . exact ih _ h1
    next hs => exact ih _ (h1.osTskReadyAdd (Bool.eq_false_iff.mpr hs))

lemma osTaskScan_heeds (s : Sched) : Heeds s s.osTaskScan := by
  have h := Heeds.osTaskScanLoop s.delayList.length false (.refl s)
  simp only [Sched.osTaskScan]
  split
  . exact h.osTskSchedule
  exact h

lemma prtEventWrite_heeds (s : Sched) (t : Nat) (events : BitVec 32) :
    Heeds s (s.prtEventWrite t events).1 := by
  unfold Sched.prtEventWrite
  split
  . exact .refl s
  split
  . exact .refl s
  split
  . exact .refl s
  have h1 : Heeds s (s.modTcb t fun c => {c with event:=c.event ||| events}) :=
    (Heeds.refl s).modTcb t _ fun _ => ⟨rfl,rfl⟩
  dsimp only
  split
  . have h2 := h1.modStatus t (fun b => {b with eventPend:=false}) fun _ => ⟨rfl,rfl⟩
    exact ((h2.timeoutClear t).readyAddUnlessSuspend t).osTskSchedule
  exact h1

/-- `PRT_TaskResume` goes through, and then the task has nothing left of `OS_TSK_BLOCK`. -/
def resumes (s : Sched) (t : Nat) : Bool :=
  !s.pidOverflow t && !(s.status t).unused && (s.status t).resumable s.cpu.uniTaskLock

lemma status_timeoutClear (s : Sched) (t : Nat) : (s.timeoutClear t).status t =
    {s.status t with timeout:=false} := by
  unfold Sched.timeoutClear
  split
  . rw [status_modStatus,if_pos rfl]
    rfl
  next h =>
  rw [← Bool.eq_false_iff.mpr h]

lemma block_delayIntEnd (s : Sched) (t : Nat) (hs : (s.status t).suspend=false) :
    ((s.delayIntEnd t).status t).block=((s.status t).delay || (s.status t).pend ||
      (s.status t).queuePend || (s.status t).eventPend || (s.status t).waitqueuePend ||
      (s.status t).rwPend) := by
  unfold Sched.delayIntEnd
  split
  . rw [status_modStatus,if_pos rfl,status_timeoutClear]
    simp [block,hs]
  next h =>
  simp [block,hs,Bool.eq_false_iff.mpr h]

lemma sameMarks_delayIntEnd (s : Sched) (t : Nat) : SameMarks s (s.delayIntEnd t) := by
  unfold Sched.delayIntEnd
  split
  . apply (sameMarks_timeoutClear s t).trans
    exact sameMarks_modTcb _ t _ fun _ => ⟨rfl,rfl⟩
  exact .congr rfl

lemma status_kthreadStateSet (s : Sched) (t u : Nat) (x : KthreadState) :
    (s.kthreadStateSet t x).status u=s.status u := by
  rw [kthreadStateSet,status_modTcb]
  split_ifs with hu
  . rw [hu]
    rfl
  rfl

lemma ready_osMoveTaskToReady (s : Sched) (t u : Nat) (hs : (s.status t).suspend=false) :
    ((s.osMoveTaskToReady t).status u).ready=((s.status u).ready || (decide (u=t) &&
      !((s.status t).delay || (s.status t).pend || (s.status t).queuePend ||
        (s.status t).eventPend || (s.status t).waitqueuePend || (s.status t).rwPend))) := by
  have hsame := sameMarks_delayIntEnd s t
  rw [← block_delayIntEnd s t hs]
  simp only [Sched.osMoveTaskToReady]
  generalize s.delayIntEnd t=s1 at hsame ⊢
  split
  . next hb =>
    rw [hb,Bool.not_true,Bool.and_false,Bool.or_false]
    exact (hsame u).1
  next hb =>
  have hready : (((s1.osTskReadyAdd t).kthreadStateSet t .running).status u).ready =
      ((s.status u).ready || decide (u=t)) := by
    rw [status_kthreadStateSet,status_osTskReadyAdd]
    split_ifs with hu
    . simp [hu]
    simp [hu,(hsame u).1]
  rw [Bool.eq_false_iff.mpr hb,Bool.not_false,Bool.and_true,← hready]
  split
  . exact (sameMarks_osTskSchedule _ u).1
  rfl

lemma ready_prtTaskResume (s : Sched) (t u : Nat) : ((s.prtTaskResume t).1.status u).ready =
      ((s.status u).ready || (decide (u=t) && s.resumes t)) := by
  unfold Sched.prtTaskResume
  split
  . next h => simp [resumes,h]
  split
  . next h => simp [resumes,h]
  split
  . next h => simp [resumes,resumable,h]
  split
  . next h =>
    simp only [Bool.and_eq_true,Bool.not_eq_true'] at h
    simp [resumes,resumable,h]
  next h1 h2 h3 h4 =>
  set s1 := s.modStatus t fun b => {b with suspend:=false} with hs1
  have hst : s1.status t={s.status t with suspend:=false} := by
    rw [hs1,status_modStatus,if_pos rfl]
  have hru : (s1.status u).ready=(s.status u).ready := by
    rw [hs1,status_modStatus]
    split_ifs with hu
    . rw [hu]
    rfl
  rw [ready_osMoveTaskToReady s1 t u (by rw [hst]),hru,hst]
  have hacc : s.resumes t = !((s.status t).delay || (s.status t).pend || (s.status t).queuePend ||
      (s.status t).eventPend || (s.status t).waitqueuePend || (s.status t).rwPend) := by
    have h3' : ((s.status t).running && decide (s.cpu.uniTaskLock≠0))=false := by simpa using h3
    have h4' : ((s.status t).suspend || (s.status t).delayInterruptible)=true := by
      cases hsu : (s.status t).suspend <;> cases hdi : (s.status t).delayInterruptible <;>
        simp_all
    simp only [resumes,resumable,Bool.eq_false_iff.mpr h1,Bool.eq_false_iff.mpr h2,h3',h4',
      Bool.not_false,Bool.true_and]
  rw [hacc]

lemma sparesWaiting_prtTaskResume_iff (s : Sched) (t : Nat) :
    SparesWaiting s (s.prtTaskResume t).1 ↔ (s.resumes t=true → (s.status t).ready=false →
      (s.status t).waitSignal=false ∧ (s.status t).sigPause=false) := by
  constructor
  . intro h hr hn
    have hw := h t hn (by rw [ready_prtTaskResume,hr]; simp)
    simp only [waits,Bool.or_eq_false_iff] at hw
    exact ⟨hw.1.1.1.2,hw.1.1.2⟩
  intro h u hn hr
  rw [ready_prtTaskResume,hn,Bool.false_or,Bool.and_eq_true,decide_eq_true_eq] at hr
  obtain ⟨rfl,hr⟩ := hr
  obtain ⟨hw,hp⟩ := h hr hn
  simp only [resumes,resumable,Bool.and_eq_true,Bool.not_eq_true',Bool.or_eq_false_iff] at hr
  simp [waits,hw,hp,hr.2.2]

lemma ready_wakeUpLoop (wq n : Nat) (s : Sched) (hn : (s.wait.lists wq).length≤n) (u : Nat) :
    ((wakeUpLoop wq n s).status u).ready = ((s.status u).ready || decide (u∈s.wait.lists wq)) := by
  induction n generalizing s with
  | zero =>
    have hnil : s.wait.lists wq=[] := List.length_eq_zero_iff.mp (Nat.le_zero.mp hn)
    simp [wakeUpLoop,hnil]
  | succ n ih =>
    unfold wakeUpLoop
    cases hl : s.wait.lists wq with
    | nil => simp
    | cons t ts =>
      have hwait : (s.wakeUpOne t).wait.lists wq=ts := by
        change (s.wait.delete t).lists wq=ts
        rw [Links.delete_lists_eq,hl,List.erase_cons_head]
      have hready : ((s.wakeUpOne t).status u).ready=((s.status u).ready || decide (u=t)) := by
        unfold wakeUpOne
        rw [status_modStatus]
        split_ifs with hu
        . rw [hu,status_kthreadStateSet,status_osTskReadyAdd,if_pos rfl]
          simp
        rw [status_kthreadStateSet,status_osTskReadyAdd,if_neg hu]
        simp [hu,status,waitDelete]
      rw [ih (s.wakeUpOne t) (by rw [hwait]; rw [hl] at hn; simpa using hn),hwait,hready]
      simp [Bool.or_assoc,List.mem_cons,Bool.decide_or]

lemma sparesSuspended_wakeUp_iff (s : Sched) (wq : Nat) :
    SparesSuspended s (s.wakeUp wq) ↔ ∀ t∈s.wait.lists wq, (s.status t).ready=false →
      (s.status t).suspend=false := by
  have hready : ∀ u, ((s.wakeUp wq).status u).ready =
      ((s.status u).ready || decide (u∈s.wait.lists wq)) := fun u =>
    (sameMarks_osTskSchedule _ u).1.trans (ready_wakeUpLoop wq _ s le_rfl u)
  constructor
  . intro h t ht hn
    exact h t hn (by rw [hready]; simp [ht])
  intro h u hn hr
  rw [hready,hn,Bool.false_or,decide_eq_true_eq] at hr
  exact h u hr hn

/-- `PRT_SignalDeliver` comes to its last branch: the task handles the signal when it runs. -/
structure SignalHolds (s : Sched) (t : Nat) (info : SigInfo) (memOk : Bool) : Prop where
  pid : s.pidOverflow t=false
  valid : sigValid info.signo=true
  created : (s.status t).unused=false
  added : (s.tcb t).osAddSignalPendingFlag info memOk≠none
  elsewhere : ¬((s.status t).waitSignal=true ∧ (s.tcb t).sigWaitMask &&& sigBit info.signo≠0)
  unmasked : (s.tcb t).sigMask &&& sigBit info.signo=0
  other : t≠(s.tcb s.cpu.runningTask).taskPid
  state : ((s.status t).ready || (s.status t).delay || (s.status t).sigPause ||
    (s.status t).delayInterruptible)=true
  fresh : (s.status t).holdSignal=false

/-- That branch makes the task ready, or asks `PRT_TaskResume` to. -/
def signalReadies (s : Sched) (t : Nat) : Bool :=
  (s.status t).sigPause || (s.kthreadStateTst t .interruptible && s.resumes t)

lemma ready_signalHold (s : Sched) (t signum u : Nat) (hu : (s.status t).unused=false) :
    ((s.signalHold t signum).status u).ready =
      ((s.status u).ready || (decide (u=t) && s.signalReadies t)) := by
  unfold Sched.signalHold
  rw [(sameMarks_osTskSchedule _ u).1]
  set s1 := s.modTcb t fun c =>
    {c with holdSignal:=signum, taskStatus:={c.taskStatus with holdSignal:=true}} with hs1
  have hst : s1.status t={s.status t with holdSignal:=true} := by
    rw [hs1,status_modTcb,if_pos rfl]
    rfl
  have hready : ∀ v, (s1.status v).ready=(s.status v).ready := by
    intro v
    rw [hs1,status_modTcb]
    split_ifs with hv
    . rw [hv]
      rfl
    rfl
  have hk : (s1.tcb t).kthreadTsk=(s.tcb t).kthreadTsk := by simp [hs1,modTcb]
  have hres : s1.resumes t=s.resumes t := by
    have hun : (s1.status t).unused=false := by
      rw [hst]
      refine decide_eq_false fun he => ?_
      cases congrArg holdSignal he
    unfold resumes
    rw [hun,hu,hst]
    rfl
  by_cases hsp : (s.status t).sigPause=true
  . rw [if_pos (by rw [hst]; exact hsp),status_osTskReadyAdd]
    split_ifs with he
    . simp [he,signalReadies,hsp]
    rw [status_modStatus,if_neg he,hready]
    simp [he]
  rw [if_neg (by rw [hst]; exact hsp)]
  have hsig : s.signalReadies t=(s.kthreadStateTst t .interruptible && s.resumes t) := by
    simp [signalReadies,hsp]
  rw [hsig]
  by_cases hkt : s.kthreadStateTst t .interruptible=true
  . have hki : (s1.tcb t).kthreadTsk=some .interruptible := by
      rw [hk]
      exact of_decide_eq_true hkt
    have hkt' : s1.kthreadStateTst t .interruptible=true := decide_eq_true hki
    rw [if_pos hkt',wakeUpProcess,hki]
    rw [ready_prtTaskResume,hready,hres,hkt,Bool.true_and]
  have hkt' : s1.kthreadStateTst t .interruptible≠true := by
    rw [kthreadStateTst,hk]
    exact hkt
  rw [if_neg hkt',hready,Bool.eq_false_iff.mpr hkt]
  simp

lemma sparesSuspended_prtSignalDeliver_iff (s : Sched) (t : Nat) (info : SigInfo) (memOk : Bool) :
    SparesSuspended s (s.prtSignalDeliver t info memOk).1 ↔
      (s.SignalHolds t info memOk → s.signalReadies t=true → (s.status t).ready=false →
        (s.status t).suspend=false) := by
  have hspared : ∀ {s' : Sched}, Heeds s s' → ¬s.SignalHolds t info memOk →
      (SparesSuspended s s' ↔ (s.SignalHolds t info memOk → s.signalReadies t=true →
        (s.status t).ready=false → (s.status t).suspend=false)) :=
    fun hh hf => ⟨fun _ hc => absurd hc hf,fun _ => hh.spares⟩
  unfold Sched.prtSignalDeliver
  split
  . next h => exact hspared (.refl s) fun hc => absurd h (by rw [hc.pid]; simp)
  next h1 =>
  split
  . next h => exact hspared (.refl s) fun hc => absurd h (by rw [hc.valid]; simp)
  next h2 =>
  split
  . next h => exact hspared (.refl s) fun hc => absurd h (by rw [hc.created]; simp)
  next h3 =>
  split
  . next h => exact hspared (.refl s) fun hc => hc.added h
  next c hc =>
  obtain ⟨hst,hmask,hwait,hpid,hkt,-⟩ := TskCb.osAddSignalPendingFlag_some hc
  have hadd : SameMarks s (s.modTcb t fun _ => c) := by
    intro u
    rw [status_modTcb]
    split_ifs with hu
    . rw [hu,hst]
      exact ⟨rfl,rfl⟩
    exact ⟨rfl,rfl⟩
  have hheed : Heeds s (s.modTcb t fun _ => c) := (Heeds.refl s).same hadd
  have hb : (s.modTcb t fun _ => c).status t=s.status t := by
    rw [status_modTcb,if_pos rfl,hst]
    rfl
  dsimp only
  rw [hb,hmask,hwait]
  split
  . next h =>
    refine hspared ?_ fun hc => hc.elsewhere h
    apply Heeds.osTskSchedule
    apply Heeds.readyAddUnlessSuspend
    apply Heeds.timeoutClear
    exact hheed.modStatus t _ fun _ => ⟨rfl,rfl⟩
  next h4 =>
  split
  . next h => exact hspared hheed fun hc => h hc.unmasked
  next h5 =>
  have hrun : ((s.modTcb t fun _ => c).tcb s.cpu.runningTask).taskPid =
      (s.tcb s.cpu.runningTask).taskPid := by
    by_cases hr : s.cpu.runningTask=t
    . rw [hr]
      simp [modTcb,hpid]
    simp [modTcb,hr]
  split
  . next h =>
    refine hspared ?_ fun hc => hc.other (h.trans hrun)
    refine hheed.modTcb t (fun c => c.osHandleOneSignal info.signo) fun c => ?_
    unfold TskCb.osHandleOneSignal
    split <;> exact ⟨rfl,rfl⟩
  next h6 =>
  split
  . next h7 =>
    rw [Bool.and_eq_true,Bool.not_eq_true'] at h7
    have hholds : s.SignalHolds t info memOk :=
      { pid := Bool.eq_false_iff.mpr h1
        valid := (Bool.not_eq_false _).mp h2
        created := Bool.eq_false_iff.mpr h3
        added := by rw [hc]; simp
        elsewhere := h4
        unmasked := not_not.mp h5
        other := fun he => h6 (he.trans hrun.symm)
        state := h7.1
        fresh := h7.2 }
    have hun : ((s.modTcb t fun _ => c).status t).unused=false := by
      rw [hb]
      exact hholds.created
    have hsr : (s.modTcb t fun _ => c).signalReadies t=s.signalReadies t := by
      have hk : ((s.modTcb t fun _ => c).tcb t).kthreadTsk=(s.tcb t).kthreadTsk := by
        simp [modTcb,hkt]
      simp only [signalReadies,resumes,kthreadStateTst,hb,hk]
      rfl
    constructor
    . intro h _ hsig hn
      apply h t hn
      rw [ready_signalHold _ _ _ _ hun,hsr,hsig]
      simp
    intro h u hn hr
    rw [ready_signalHold _ _ _ _ hun,hsr,(hadd u).1,hn,Bool.false_or,Bool.and_eq_true,
      decide_eq_true_eq] at hr
    obtain ⟨rfl,hr⟩ := hr
    exact h hholds hr hn
  next h7 =>
  refine hspared hheed fun hc => h7 ?_
  rw [hc.state,hc.fresh]
  rfl

end Sched

namespace Kernel

open Sched

variable (k : Kernel)

lemma osSemWake_heeds {s s1 : Sched} (h : Heeds s s1) (t : Nat) : Heeds s (osSemWake s1 t) := by
  apply Heeds.readyAddUnlessSuspend
  apply ((h.pendDelete t).timeoutClear t).modTcb
  exact fun _ => ⟨rfl,rfl⟩

lemma osPriorityRestore_heeds {s : Sched} (h : Heeds s k.sched) :
    Heeds s k.osPriorityRestore.1.sched := by
  simp only [Kernel.osPriorityRestore]
  split
  . exact h
  split
  . exact h
  apply Heeds.readyAddUnlessSuspend
  apply (h.osTskReadyDel _).modTcb
  exact fun _ => ⟨rfl,rfl⟩

lemma osSemPendListGet_heeds (i : Nat) : Heeds k.sched (k.osSemPendListGet i).sched := by
  unfold Kernel.osSemPendListGet
  split
  . exact .refl _
  next t _ _ =>
  have h1 : Heeds k.sched (osSemWake k.sched t) := osSemWake_heeds (.refl _) t
  dsimp only
  split
  . exact osPriorityRestore_heeds _ (h1.congr rfl)
  exact h1

lemma osQueuePendNeedProc_heeds (q : Nat) (write : Bool) :
    Heeds k.sched (k.osQueuePendNeedProc q write).1.sched := by
  unfold Kernel.osQueuePendNeedProc
  split
  . exact .refl _
  next t _ _ =>
  have h1 := ((Heeds.refl k.sched).pendDelete t).modTcb t (fun c =>
    {c with taskPend:=none, taskStatus:={c.taskStatus with queuePend:=false}})
    fun _ => ⟨rfl,rfl⟩
  apply Heeds.readyAddUnlessSuspend
  apply (h1.timeoutClear t).modStatus
  exact fun _ => ⟨rfl,rfl⟩

end Kernel

open Sched

/-- When a call readies only tasks that nothing blocks any more: the mask of `PRT_TaskResume` has no
signal bit, and `wake_up` and some branches of `PRT_SignalDeliver` do not look at the suspension. -/
theorem wakers_heed_iff (k : Kernel) : (∀ t, SparesWaiting k.sched (k.sched.prtTaskResume t).1 ↔
      (k.sched.resumes t=true → (k.sched.status t).ready=false →
        (k.sched.status t).waitSignal=false ∧ (k.sched.status t).sigPause=false)) ∧
    (∀ i, SparesSuspended k.sched (k.osSemPendListGet i).sched) ∧
    (∀ q write, SparesSuspended k.sched (k.osQueuePendNeedProc q write).1.sched) ∧
    (∀ t events, SparesSuspended k.sched (k.sched.prtEventWrite t events).1) ∧
    SparesSuspended k.sched k.sched.osTaskScan ∧
    (∀ t info memOk, SparesSuspended k.sched (k.sched.prtSignalDeliver t info memOk).1 ↔
      (k.sched.SignalHolds t info memOk → k.sched.signalReadies t=true →
        (k.sched.status t).ready=false → (k.sched.status t).suspend=false)) ∧
    (∀ wq, SparesSuspended k.sched (k.sched.wakeUp wq) ↔ ∀ t∈k.sched.wait.lists wq,
      (k.sched.status t).ready=false → (k.sched.status t).suspend=false) := by
  refine ⟨fun t => ?_,fun i => ?_,fun q write => ?_,fun t events => ?_,?_,?_,fun wq => ?_⟩
  . exact sparesWaiting_prtTaskResume_iff k.sched t
  . exact (k.osSemPendListGet_heeds i).spares
  . exact (k.osQueuePendNeedProc_heeds q write).spares
  . exact (prtEventWrite_heeds k.sched t events).spares
  . exact (osTaskScan_heeds k.sched).spares
  . exact fun t info memOk => sparesSuspended_prtSignalDeliver_iff k.sched t info memOk
  exact sparesSuspended_wakeUp_iff k.sched wq

def suspendedIn (c : Call) : Sched :=
  ((kernelMachine smallCfg).run (Kernel.init smallCfg)
    [.call (.taskCreate (smallTask 5) true false),.call (.taskResume 0),
     .call (.taskCreate (smallTask 3) true true),.call (.taskResume 1),.activate true,
     .call c,.call (.taskSuspend 1)]).sched

/-- A suspended task is readied by a resume while it waits for a signal, by `wake_up` in a wait
queue, and by a signal in a pause. -/
theorem blocked_task_readied : (let s := suspendedIn (.signalWait 1 osWaitForever);
      (s.status 1).waitSignal=true ∧ (s.status 1).ready=false ∧
        ((s.prtTaskResume 1).1.status 1).ready=true ∧
        ((s.prtTaskResume 1).1.status 1).waitSignal=true) ∧
    (let s := suspendedIn (.enterWaitQueue 0);
      (s.status 1).suspend=true ∧ (s.status 1).ready=false ∧
        ((s.wakeUp 0).status 1).ready=true ∧ ((s.wakeUp 0).status 1).suspend=true) ∧
    (let s := suspendedIn .pause;
      (s.status 1).suspend=true ∧ (s.status 1).ready=false ∧
        ((s.prtSignalDeliver 1 ⟨2,0⟩ true).1.status 1).ready=true ∧
        ((s.prtSignalDeliver 1 ⟨2,0⟩ true).1.status 1).suspend=true) := by
  decide +kernel

end UniProton
