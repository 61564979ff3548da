import UniProton.Kernel.Quiet
import UniProton.Osal.Linux

namespace UniProton

open Framework

namespace TskStatus

def parked (b : TskStatus) : Bool := b.waitSignal || b.sigPause

/-- The task runs, is ready, or waits for something else than a signal. -/
def engaged (b : TskStatus) : Bool :=
  b.ready || b.running || b.pend || b.queuePend || b.eventPend || b.rwPend || b.waitqueuePend ||
    b.delay || b.delayInterruptible

/-- No signal wait begins, and a waiting task starts nothing else. -/
structure Follows (b b' : TskStatus) : Prop where
  waitSignal : b'.waitSignal=true → b.waitSignal=true
  sigPause : b'.sigPause=true → b.sigPause=true
  engaged : b.parked=false ∨ (b'.engaged=true → b.engaged=true)

variable {b b' : TskStatus}

lemma Follows.same (hw : b'.waitSignal=b.waitSignal) (hs : b'.sigPause=b.sigPause)
    (he : b'.engaged=b.engaged) : Follows b b' := by
  refine ⟨?_,?_,.inr ?_⟩
  . rw [hw]
    exact id
  . rw [hs]
    exact id
  rw [he]
  exact id

lemma Follows.of_loose (h : b.parked=false) (hw : b'.waitSignal=b.waitSignal)
    (hs : b'.sigPause=b.sigPause) : Follows b b' := by
  refine ⟨?_,?_,.inl h⟩
  . rw [hw]
    exact id
  rw [hs]
  exact id

lemma Follows.of_le (hw : b'.waitSignal=b.waitSignal) (hs : b'.sigPause=b.sigPause)
    (he : b'.engaged=true → b.engaged=true) : Follows b b' := by
  refine ⟨?_,?_,.inr he⟩
  . rw [hw]
    exact id
  rw [hs]
  exact id

lemma Follows.empty (b : TskStatus) : Follows b {} := ⟨nofun,nofun,.inr nofun⟩

lemma Follows.parked (h : Follows b b') (hb : b.parked=false) : b'.parked=false := by
  simp only [TskStatus.parked,Bool.or_eq_false_iff] at hb ⊢
  constructor
  . by_contra hc
    rw [h.waitSignal ((Bool.not_eq_false _).mp hc)] at hb
    cases hb.1
  by_contra hc
  rw [h.sigPause ((Bool.not_eq_false _).mp hc)] at hb
  cases hb.2

end TskStatus

open TskStatus

/-- The tasks are as they were; the processor goes on with the same task, the chosen one, or none.
-/
structure SameTasks (s s' : Sched) : Prop where
  tcb : s'.tcb=s.tcb
  cont : s'.cont=s.cont
  pend : s'.pend=s.pend
  timer : s'.timer=s.timer
  wait : s'.wait=s.wait
  cfg : s'.cfg=s.cfg
  ticks : s'.cpu.uniTicks=s.cpu.uniTicks
  running : s'.cpu.runningTask=s.cpu.runningTask ∨
    s.highestTask=some s'.cpu.runningTask ∨ s'.cpu.runningTask=s.zombie
  highest : s'.highestTask=s.highestTask ∨ ∀ t, s'.highestTask=some t → s.pend.loc t≠none

def Sched.kept (s : Sched) :=
  ((s.tcb,s.cont,s.pend,s.timer,s.wait),s.cfg,s.cpu.uniTicks,s.cpu.runningTask,s.highestTask)

def Loose (I : Sched → Prop) (a s : Sched) (t : Nat) : Prop := I a → (s.status t).parked=false

def TskCb.kept (c : TskCb) : Nat×BitVec 64×BitVec 64×BitVec 64×List SigInfo :=
  (c.expirationTick,c.sigMask,c.sigWaitMask,c.sigPending,c.sigInfoList)

section loose

variable {I : Sched → Prop} {a s : Sched} {t u : Nat}

lemma Loose.modTcb (h : Loose I a s t) (f : TskCb → TskCb)
    (hf : Follows (s.status u) (f (s.tcb u)).taskStatus) : Loose I a (s.modTcb u f) t := by
  intro hI
  by_cases hu : t=u
  . subst hu
    have hb := hf.parked (h hI)
    simpa [Sched.status,Sched.modTcb] using hb
  simpa [Sched.status,Sched.modTcb,hu] using h hI

lemma Loose.modStatus (h : Loose I a s t) (f : TskStatus → TskStatus)
    (hf : ∀ b, (f b).parked=b.parked) : Loose I a (s.modStatus u f) t := by
  intro hI
  by_cases hu : t=u
  . subst hu
    have hb := (hf _).trans (h hI)
    simpa [Sched.status,Sched.modStatus,Sched.modTcb] using hb
  simpa [Sched.status,Sched.modStatus,Sched.modTcb,hu] using h hI

lemma Loose.osTskReadyDel (h : Loose I a s t) : Loose I a (s.osTskReadyDel u) t := by
  have h1 : Loose I a (s.modStatus u fun b => {b with ready:=false}) t :=
    h.modStatus _ fun _ => rfl
  exact h1

lemma Loose.osTskTimerAdd {n : Nat} (h : Loose I a s t) : Loose I a (s.osTskTimerAdd u n) t := by
  have h1 : Loose I a (s.modTcb u fun c =>
      {c with expirationTick:=(s.cpu.uniTicks+n)%2^64}) t := h.modTcb _ (.same rfl rfl rfl)
  exact h1

lemma Loose.timeoutClear (h : Loose I a s t) : Loose I a (s.timeoutClear u) t := by
  unfold Sched.timeoutClear
  split
  . have h1 : Loose I a (s.timerDelete u) t := h
    exact h1.modStatus _ fun _ => rfl
  exact h

lemma Loose.osTaskExpire (h : Loose I a s t) : Loose I a (s.osTaskExpire u) t := by
  have h1 : Loose I a (s.timerDelete u) t := h
  simp only [Sched.osTaskExpire]
  split
  . have h2 : Loose I a ((s.timerDelete u).modStatus u fun b => {b with pend:=false}) t :=
      h1.modStatus _ fun _ => rfl
    exact Loose.modTcb (s:=((s.timerDelete u).modStatus u _).pendDelete u) h2 _ (.same rfl rfl rfl)
  split
  . exact h1.modStatus _ fun _ => rfl
  split
  . exact Loose.modStatus (s:=(s.timerDelete u).pendDelete u) h1 _ fun _ => rfl
  split
  . exact Loose.modStatus (s:=(s.timerDelete u).pendDelete u) h1 _ fun _ => rfl
  split
  . refine Loose.modTcb ?_ _ (.same rfl rfl rfl)
    exact h1.modStatus _ fun _ => rfl
  exact h1.modStatus _ fun _ => rfl

end loose

def TskStatus.still (b : TskStatus) : (Bool×Bool)×Bool×Bool×Bool×Bool×Bool×Bool :=
  ((b.waitSignal,b.sigPause),b.inuse,b.queueBusy,b.rwPend,b.timeout,b.eventPend,b.eventType)

lemma Touch.Tcb.of_still {T : Touch} {t : Nat} {k : Cont} {c : TskCb} {b : TskStatus}
    (h : b.still=c.taskStatus.still) : T.Tcb t k c {c with taskStatus:=b} := by
  simp only [TskStatus.still,Prod.mk.injEq] at h
  obtain ⟨-,hi,hq,hr,ht,he,hy⟩ := h
  apply Touch.Tcb.of_mark
  simp [TskCb.mark,hi,hq,hr,ht,he,hy]

/-- A relation from the start of a call that the scheduler primitives keep, as far as `T` and `G`
allow changes, while what is in a list, runs or is engaged is not parked. -/
structure Respects (T : Touch) (I : Sched → Prop) (G : TskCb → TskCb → Prop)
    (R : Sched → Sched → Prop) : Prop where
  refl : ∀ a, R a a
  frame : ∀ {a s s'}, R a s → SameTasks s s' → R a s'
  modTcb : ∀ {a s} (t : Nat) (f : TskCb → TskCb), R a s →
    (f (s.tcb t)).kept=(s.tcb t).kept → T.Tcb t (s.cont t) (s.tcb t) (f (s.tcb t)) →
    (I a → Follows (s.status t) (f (s.tcb t)).taskStatus) → R a (s.modTcb t f)
  modSigs : ∀ {a s} (t : Nat) (f : TskCb → TskCb), R a s → G (s.tcb t) (f (s.tcb t)) →
    (f (s.tcb t)).expirationTick=(s.tcb t).expirationTick →
    (f (s.tcb t)).taskStatus=(s.tcb t).taskStatus → R a (s.modTcb t f)
  birth : ∀ {a s} (t prio : Nat), R a s → T.life t ∧ T.birth t → Loose I a s t →
    R a (s.modTcb t (osTskCreateTcbInit prio))
  toZombie : ∀ {a s} (t : Nat), R a s → T.life s.zombie → Loose I a s t →
    R a (s.modTcb s.zombie fun c => {c with taskPid:=t, taskStatus:=s.status t})
  setCont : ∀ {a s} (t : Nat) (k : Cont), R a s → T.Ctx t (s.cont t) k → Loose I a s t →
    R a (s.setCont t k)
  pendInsert : ∀ {a s} (t : Nat) (h : PendHead) (i : Nat), R a s → T.Joins h → Loose I a s t →
    R a (s.pendInsert t h i)
  pendDelete : ∀ {a s} (t : Nat), R a s → R a (s.pendDelete t)
  timerDelete : ∀ {a s} (t : Nat), R a s → R a (s.timerDelete t)
  waitInsert : ∀ {a s} (t wq i : Nat) (fs : List Fault), R a s → Loose I a s t →
    R a {s with wait:=s.wait.insert t wq i, faults:=fs}
  waitDelete : ∀ {a s} (t : Nat), R a s → R a (s.waitDelete t)
  ofPend : ∀ {a s} {t : Nat}, R a s → s.pend.loc t≠none → Loose I a s t
  ofWait : ∀ {a s} {t : Nat}, R a s → s.wait.loc t≠none → Loose I a s t
  ofRunning : ∀ {a s}, R a s → Loose I a s s.cpu.runningTask
  ofHighest : ∀ {a s} {t : Nat}, R a s → s.highestTask=some t → Loose I a s t
  ofEngaged : ∀ {a s} {t : Nat}, R a s → (s.status t).engaged=true → Loose I a s t

abbrev Handles (I : Sched → Prop) (G : TskCb → TskCb → Prop) (R : Sched → Sched → Prop) : Prop :=
  Respects .all I G R

lemma Quiet.respects {T : Touch} {R : Sched → Sched → Prop} (h : Quiet T R) :
    Respects T (fun _ => False) (fun c c' => c'.mark=c.mark) R where
  refl := h.refl
  frame hs hf := h.trans hs (h.frame hf.tcb hf.cont hf.pend)
  modTcb t f hs _ hf _ := h.trans hs (h.modTcb _ t f hf)
  modSigs t f hs hf _ _ := h.trans hs (h.modTcb _ t f (.of_mark hf))
  birth t _ hs ht _ := h.trans hs (h.modTcb _ t _ (.of_birth ht.1 ht.2 rfl))
  toZombie _ hs hz _ := h.trans hs (h.modTcb _ _ _ (.of_death hz rfl rfl))
  setCont t k hs hk _ := h.trans hs (h.setCont _ t k hk)
  pendInsert t hd i hs hj _ := h.trans hs (h.pendInsert _ t hd i hj)
  pendDelete t hs := h.trans hs (h.pendDelete _ t)
  timerDelete _ hs := h.trans hs (h.frame rfl rfl rfl)
  waitInsert _ _ _ _ hs _ := h.trans hs (h.frame rfl rfl rfl)
  waitDelete _ hs := h.trans hs (h.frame rfl rfl rfl)
  ofPend _ _ hI := hI.elim
  ofWait _ _ hI := hI.elim
  ofRunning _ hI := hI.elim
  ofHighest _ _ hI := hI.elim
  ofEngaged _ _ hI := hI.elim

namespace Respects

variable {T : Touch} {I : Sched → Prop} {G : TskCb → TskCb → Prop} {R : Sched → Sched → Prop}
  (h : Respects T I G R) {a s : Sched} {t n : Nat}

variable {f : TskStatus → TskStatus} {k : Kernel}

include h

lemma step_flag (hs : R a s) (hT : T.Tcb t (s.cont t) (s.tcb t)
      {s.tcb t with taskStatus:=f (s.tcb t).taskStatus})
    (hw : ∀ b, (f b).waitSignal=b.waitSignal) (hp : ∀ b, (f b).sigPause=b.sigPause)
    (he : ∀ b, (f b).engaged=true → b.engaged=true) : R a (s.modStatus t f) :=
  h.modTcb t _ hs rfl hT fun _ => .of_le (hw _) (hp _) (he _)

lemma step_modStatus (hs : R a s)
    (hf : ∀ b, (f b).still=b.still) (he : ∀ b, (f b).engaged=true → b.engaged=true) :
    R a (s.modStatus t f) := by
  refine h.step_flag hs (.of_still (hf _)) (fun b => ?_) (fun b => ?_) he
  . exact congrArg (fun x => x.1.1) (hf b)
  exact congrArg (fun x => x.1.2) (hf b)

lemma step_mark (hs : R a s) (ht : Loose I a s t)
    (hf : ∀ b, (f b).still=b.still) : R a (s.modStatus t f) := by
  have hp := congrArg Prod.fst (hf (s.status t))
  refine h.modTcb t _ hs rfl (.of_still (hf _)) fun hI => ?_
  exact .of_loose (ht hI) (congrArg Prod.fst hp) (congrArg Prod.snd hp)

lemma step_data (hs : R a s) {f : TskCb → TskCb} (hb : ∀ c, (f c).taskStatus=c.taskStatus)
    (he : ∀ c, (f c).kept=c.kept) (hT : T.Tcb t (s.cont t) (s.tcb t) (f (s.tcb t))) :
    R a (s.modTcb t f) := by
  refine h.modTcb t f hs (he _) hT fun _ => ?_
  rw [hb]
  exact .same rfl rfl rfl

lemma step_frame (hs : R a s) {s' : Sched} (he : s'.kept=s.kept) : R a s' := by
  simp only [Sched.kept,Prod.mk.injEq] at he
  obtain ⟨⟨ht,hc,hp,hti,hw⟩,hcfg,hu,hr,hh⟩ := he
  exact h.frame hs ⟨ht,hc,hp,hti,hw,hcfg,hu,.inl hr,.inl hh⟩

lemma step_osTskHighestSet (hs : R a s) : R a s.osTskHighestSet := by
  refine h.frame hs ⟨rfl,rfl,rfl,rfl,rfl,rfl,rfl,.inl rfl,.inr fun t ht => ?_⟩
  have hm : t∈s.readyList s.runQue.first := List.mem_of_mem_head? ht
  rw [(s.pend.mem_iff _ _).mp hm]
  nofun

lemma step_osTskReadyAdd (hs : R a s) (ht : Loose I a s t) : R a (s.osTskReadyAdd t) := by
  have h1 : R a (s.modStatus t fun b => {b with ready:=true}) := h.step_mark hs ht fun _ => rfl
  have ht1 : Loose I a (s.modStatus t fun b => {b with ready:=true}) t :=
    ht.modStatus _ fun _ => rfl
  unfold Sched.osTskReadyAdd
  generalize (s.modStatus t fun b => {b with ready:=true})=s1 at h1 ht1 ⊢
  have h2 : R a {s1 with
      runQue := if s1.readyList (s1.tcb t).priority=[] then
        s1.runQue.set (s1.tcb t).priority else s1.runQue} :=
    h.step_frame h1 rfl
  have h3 : R a (s1.osEnqueueTaskAmp t) := h.pendInsert t (.ready _) _ h2 trivial ht1
  exact h.step_osTskHighestSet h3

lemma step_osTskReadyDel (hs : R a s) : R a (s.osTskReadyDel t) := by
  have h1 : R a (s.modStatus t fun b => {b with ready:=false}) := by
    refine h.step_modStatus hs (fun _ => rfl) ?_
    grind [TskStatus.engaged]
  have h2 : R a ((s.modStatus t fun b => {b with ready:=false}).pendDelete t) :=
    h.pendDelete t h1
  have h3 : R a ((s.modStatus t fun b => {b with ready:=false}).osDequeueTaskAmp t) :=
    h.step_frame h2 rfl
  exact h.step_osTskHighestSet h3

lemma step_timeout (hs : R a s) (hf : T.Free t (s.cont t)) (x : Bool) :
    R a (s.modStatus t fun b => {b with timeout:=x}) :=
  h.modTcb t _ hs rfl (.timeout hf x) fun _ => .same rfl rfl rfl

lemma step_timeoutClear (hs : R a s) (hf : T.Free t (s.cont t)) : R a (s.timeoutClear t) := by
  unfold Sched.timeoutClear
  split
  . exact h.step_timeout (h.timerDelete t hs) hf false
  exact hs

lemma step_readyAddUnlessSuspend (hs : R a s) (ht : Loose I a s t) :
    R a (s.readyAddUnlessSuspend t) := by
  unfold Sched.readyAddUnlessSuspend
  split
  . exact hs
  exact h.step_osTskReadyAdd hs ht

lemma step_kthreadStateSet (hs : R a s) (x : KthreadState) : R a (s.kthreadStateSet t x) :=
  h.step_data hs (fun _ => rfl) (fun _ => rfl) (.of_mark rfl)

lemma step_switchTo (hs : R a s) (ht : s.highestTask=some t) : R a (s.switchTo t) := by
  have h1 : R a (s.modStatus s.cpu.runningTask fun b => {b with running:=false}) := by
    refine h.step_modStatus hs (fun _ => rfl) ?_
    grind [TskStatus.engaged]
  have hl : Loose I a (s.modStatus s.cpu.runningTask fun b => {b with running:=false}) t :=
    (h.ofHighest hs ht).modStatus _ fun _ => rfl
  have h2 := h.step_mark h1 hl (f:=fun b => {b with running:=true}) fun _ => rfl
  exact h.frame h2 ⟨rfl,rfl,rfl,rfl,rfl,rfl,rfl,.inr (.inl ht),.inl rfl⟩

lemma step_osMainSchedule (hs : R a s) : R a s.osMainSchedule := by
  unfold Sched.osMainSchedule
  split
  . split
    . exact h.step_frame hs rfl
    next t ht => exact h.step_switchTo hs ht
  split
  . exact h.step_frame hs rfl
  exact hs

lemma step_osTskSchedule (hs : R a s) : R a s.osTskSchedule := by
  have h1 : R a s.osTskHighestSet := h.step_osTskHighestSet hs
  simp only [Sched.osTskSchedule]
  split
  . have h2 : R a {s.osTskHighestSet with cpu:={s.osTskHighestSet.cpu with tskReq:=true}} :=
      h.step_frame h1 rfl
    split
    . exact h2
    exact h.step_osMainSchedule h2
  exact h1

lemma step_osTaskExpire (hs : R a s) (hT : T.Any ∨ T.tick ∧ ∃ L m, Fits L m (s.view t) ∧
    (s.view t).timed=true) : R a (s.osTaskExpire t) := by
  have h1 := h.timerDelete t hs
  simp only [Sched.osTaskExpire]
  split
  . have h2 : R a ((s.timerDelete t).modStatus t fun b => {b with pend:=false}) := by
      refine h.step_modStatus h1 (fun _ => rfl) ?_
      grind [TskStatus.engaged]
    exact h.step_data (h.pendDelete t h2) (fun _ => rfl) (fun _ => rfl) (.of_mark rfl)
  split
  . next he =>
    refine h.step_flag h1 ⟨.inr rfl,.inr (.inr ⟨rfl,rfl⟩),.inr (.inr rfl),
      .inr (.inr ⟨id,fun _ => rfl,fun _ => .inl⟩),?_⟩ (fun _ => rfl) (fun _ => rfl) ?_
    . obtain hT | ⟨hk,L,m,hf,ht⟩ := hT
      . exact .inl (hT t)
      obtain rfl := hf.eq_event he
      have hto : (s.view t).bits.timeout=true := hf.timeout_of_timed ht (by simp)
      exact .inr (.inr ⟨rfl,by simp,fun _ => rfl,fun _ => rfl,fun _ => rfl,
        fun _ _ => .inr ⟨hk,hto⟩⟩)
    grind [TskStatus.engaged]
  split
  . refine h.step_modStatus (h.pendDelete t h1) (fun _ => rfl) ?_
    grind [TskStatus.engaged]
  split
  . next hr =>
    refine h.step_flag (h.pendDelete t h1) ⟨.inr rfl,.inr (.inr ⟨rfl,rfl⟩),
      .inr (.inr rfl),?_,.inr (.inr ⟨rfl,id,fun _ => rfl,fun _ => rfl,fun _ => rfl,
        fun _ => .inl⟩)⟩ (fun _ => rfl) (fun _ => rfl) ?_
    . obtain hT | ⟨hk,L,m,hf,ht⟩ := hT
      . exact .inl (hT t)
      obtain ⟨l,w,rfl⟩ := hf.eq_rw hr
      have hto : (s.view t).bits.timeout=true ∧ (s.view t).cont.timed=true := hf.timer ht
      exact .inr (.inr ⟨by simp,fun _ => rfl,fun _ _ => .inr ⟨hk,hto⟩⟩)
    grind [TskStatus.engaged]
  split
  . refine h.step_kthreadStateSet ?_ _
    refine h.step_modStatus h1 (fun _ => rfl) ?_
    grind [TskStatus.engaged]
  refine h.step_modStatus h1 (fun _ => rfl) ?_
  grind [TskStatus.engaged]

lemma step_osTaskScanLoop
    (hfree : ∀ {s : Sched} {t : Nat}, R a s → s.timer.loc t≠none → Loose I a s t)
    (n : Nat) (need : Bool) (hs : R a s) (hT : T.Any ∨ T.tick ∧ s.Core ∧ s.RunOk) :
    R a (Sched.osTaskScanLoop n s need).1 := by
  induction n generalizing s need with
  | zero => exact hs
  | succ n ih =>
    unfold Sched.osTaskScanLoop
    split
    . exact hs
    next t _ hlist =>
    split
    . exact hs
    have hloc := Links.head_loc hlist
    have hl : Loose I a s t := hfree hs (Links.head_linked hlist)
    have h1 : R a (s.osTaskExpire t) := by
      refine h.step_osTaskExpire hs (hT.imp_right fun hT => ⟨hT.1,?_⟩)
      have hti : (s.view t).timed=true := by
        change s.timer.linked t=true
        rw [Links.linked,hloc]
        rfl
      have hle : t ≤ s.cfg.tskMaxNum := by
        by_contra hn
        have ho := (hT.2.1.outside t (by omega)).2
        rw [hti] at ho
        cases ho
      obtain ⟨m,hf,-⟩ := hT.2.1.tasks t hle
      exact ⟨_,m,hf,hti⟩
    have hT1 : T.Any ∨ T.tick ∧ (if ((s.osTaskExpire t).status t).suspend then s.osTaskExpire t
        else (s.osTaskExpire t).osTskReadyAdd t).Core ∧ (if ((s.osTaskExpire t).status t).suspend
          then s.osTaskExpire t else (s.osTaskExpire t).osTskReadyAdd t).RunOk := by
      refine hT.imp_right fun hT => ⟨hT.1,?_⟩
      have hmem : t∈s.delayList := by
        rw [hlist]
        exact List.mem_cons_self
      obtain ⟨hl,hr⟩ := Sched.expire_leads (c:=False) (u:=False) (d:=False) hT.2.1 (by simp)
        hT.2.2 hmem
      exact ⟨hl.core,hr⟩
    dsimp only
    split
    . next hsus =>
      rw [if_pos hsus] at hT1
      exact ih _ h1 hT1
    next hsus =>
    rw [if_neg hsus] at hT1
    exact ih _ (h.step_osTskReadyAdd h1 hl.osTaskExpire) hT1

lemma step_osTaskScan
    (hfree : ∀ {s : Sched} {t : Nat}, R a s → s.timer.loc t≠none → Loose I a s t)
    (hs : R a s) (hT : T.Any ∨ T.tick ∧ s.Core ∧ s.RunOk) : R a s.osTaskScan := by
  have h1 := h.step_osTaskScanLoop hfree s.delayList.length false hs hT
  simp only [Sched.osTaskScan]
  split
  . exact h.step_osTskSchedule h1
  exact h1

lemma step_suspendTask (hs : R a s) : R a (s.suspendTask t) := by
  unfold Sched.suspendTask
  split
  . exact h.step_modStatus (h.step_osTskReadyDel hs) (fun _ => rfl) fun _ => id
  exact h.step_modStatus hs (fun _ => rfl) fun _ => id

lemma prtTaskSuspend (a : Sched) (t : Nat) : R a (a.prtTaskSuspend t).1 := by
  have h1 := h.step_suspendTask (t:=t) (h.refl a)
  unfold Sched.prtTaskSuspend
  split
  . exact h.refl a
  split
  . exact h.refl a
  split
  . exact h.refl a
  split
  . exact h.refl a
  split
  . exact h.refl a
  dsimp only
  split
  . exact h.step_osTskSchedule h1
  exact h1

lemma step_osMoveTaskToReady (hs : R a s) (ht : Loose I a s t)
    (hd : (s.status t).delayInterruptible=true → T.Free t (s.cont t)) :
    R a (s.osMoveTaskToReady t) := by
  have h1 : R a (s.delayIntEnd t) := by
    unfold Sched.delayIntEnd
    split
    . next hb =>
      refine h.step_modStatus (h.step_timeoutClear hs (hd hb)) (fun _ => rfl) ?_
      grind [TskStatus.engaged]
    exact hs
  have ht1 : Loose I a (s.delayIntEnd t) t := by
    unfold Sched.delayIntEnd
    split
    . exact ht.timeoutClear.modStatus _ fun _ => rfl
    exact ht
  have h2 : R a (((s.delayIntEnd t).osTskReadyAdd t).kthreadStateSet t .running) :=
    h.step_kthreadStateSet (h.step_osTskReadyAdd h1 ht1) _
  simp only [Sched.osMoveTaskToReady]
  split
  . exact h1
  split
  . exact h.step_osTskSchedule h2
  exact h2

lemma step_prtTaskResume (hs : R a s) (ht : (s.status t).suspend=true → Loose I a s t)
    (hd : t ≤ s.cfg.tskMaxNum → (s.status t).delayInterruptible=true → T.Free t (s.cont t)) :
    R a (s.prtTaskResume t).1 := by
  unfold Sched.prtTaskResume
  split
  . exact hs
  next hov =>
  split
  . exact hs
  split
  . exact hs
  split
  . exact hs
  next hsus =>
  have hl : Loose I a s t := by
    cases hb : (s.status t).suspend with
    | true => exact ht hb
    | false =>
      apply h.ofEngaged hs
      simp only [hb,Bool.not_false,Bool.true_and,Bool.not_eq_true',Bool.not_eq_false] at hsus
      simp [TskStatus.engaged,hsus]
  have h1 : R a (s.modStatus t fun b => {b with suspend:=false}) :=
    h.step_modStatus hs (fun _ => rfl) fun _ => id
  refine h.step_osMoveTaskToReady h1 (hl.modStatus _ fun _ => rfl) fun hb => ?_
  apply hd (Sched.le_of_not_pidOverflow hov)
  simpa [Sched.status,Sched.modStatus,Sched.modTcb] using hb

lemma osTaskYield (a : Sched) (p : Nat) : R a (a.osTaskYield p).1 := by
  unfold Sched.osTaskYield
  split
  . next t _ _ hlist =>
    have hl : Loose I a a t := h.ofPend (h.refl a) (Links.head_linked hlist)
    have h1 : R a ((a.osTskReadyDel t).osTskReadyAdd t) :=
      h.step_osTskReadyAdd (h.step_osTskReadyDel (h.refl a)) hl.osTskReadyDel
    dsimp only
    split
    . exact h.step_osTskSchedule h1
    exact h1
  exact h.refl a

lemma prtTaskLock (a : Sched) : R a a.prtTaskLock := h.step_frame (h.refl a) rfl

lemma prtTaskUnlock (a : Sched) : R a a.prtTaskUnlock.1 := by
  unfold Sched.prtTaskUnlock
  split
  . have h1 : R a {a with cpu:={a.cpu with uniTaskLock:=0}} := h.step_frame (h.refl a) rfl
    dsimp only
    split
    . exact h.step_osTskSchedule h1
    exact h1
  split
  . exact h.step_frame (h.refl a) rfl
  exact h.refl a

lemma step_osTaskDeleteResInit (hs : R a s) : R a (s.osTaskDeleteResInit t) := by
  simp only [Sched.osTaskDeleteResInit]
  have h1 : R a (if (s.status t).pend || (s.status t).queuePend || (s.status t).rwPend then
      s.pendDelete t else s) := by
    split
    . exact h.pendDelete t hs
    exact hs
  generalize (if (s.status t).pend || (s.status t).queuePend || (s.status t).rwPend then
      s.pendDelete t else s)=s1 at h1 ⊢
  have h2 : R a (if (s.status t).delay || (s.status t).timeout then s1.timerDelete t else s1) := by
    split
    . exact h.timerDelete t h1
    exact h1
  generalize (if (s.status t).delay || (s.status t).timeout then s1.timerDelete t else s1)=s2
    at h2 ⊢
  have h3 : R a (if (s.status t).ready then s2.osTskReadyDel t else s2) := by
    split
    . exact h.step_osTskReadyDel h2
    exact h2
  generalize (if (s.status t).ready then s2.osTskReadyDel t else s2)=s3 at h3 ⊢
  have h4 : R a (if (s.status t).waitqueuePend then s3.waitDelete t else s3) := by
    split
    . exact h.waitDelete t h3
    exact h3
  exact h.step_modStatus h4 (fun _ => rfl) fun _ => id

lemma step_empty (hs : R a s) (ht : T.life t) : R a (s.modStatus t fun _ => {}) :=
  h.modTcb t _ hs rfl (.of_death ht rfl rfl) fun _ => .empty _

lemma step_zombieInPlace (hs : R a s) (ht : (s.status t).running=true) (hT : T.life t)
    (hz : T.life s.zombie) : R a (s.zombieInPlace t) := by
  have hl : Loose I a s t := by
    apply h.ofEngaged hs
    simp [TskStatus.engaged,ht]
  have h1 : R a (s.pendTailAdd t .recycle) := h.pendInsert t .recycle _ hs trivial hl
  have h2 := h.toZombie t h1 hz hl
  have h3 := h.step_empty h2 hT
  exact h.frame h3 ⟨rfl,rfl,rfl,rfl,rfl,rfl,rfl,.inr (.inr rfl),.inl rfl⟩

lemma step_prtTaskDelete (hs : R a s) (ht : T.life t) (hz : T.life s.zombie) :
    R a (s.prtTaskDelete t).1 := by
  have h1 : R a (s.modTcb t fun c => {c with kthreadTsk:=none}) :=
    h.step_data hs (fun _ => rfl) (fun _ => rfl) (.of_mark rfl)
  unfold Sched.prtTaskDelete
  split
  . exact hs
  split
  . exact hs
  dsimp only
  split
  . exact h1
  split
  . exact h1
  have h2 : R a ((s.modTcb t fun c => {c with kthreadTsk:=none}).osTaskDeleteResInit
      t).osTskHighestSet := h.step_osTskHighestSet (h.step_osTaskDeleteResInit h1)
  have hcfg : ((s.modTcb t fun c => {c with kthreadTsk:=none}).osTaskDeleteResInit
      t).osTskHighestSet.zombie=s.zombie :=
    congrArg (fun c : Cfg => c.tskMaxNum+1) Sched.osTaskDeleteResInit_cfg
  generalize ((s.modTcb t fun c => {c with kthreadTsk:=none}).osTaskDeleteResInit
      t).osTskHighestSet=s1 at h2 hcfg ⊢
  split
  . next hr =>
    have h3 : R a (s1.zombieInPlace t) := by
      apply h.step_zombieInPlace h2 hr ht
      rw [hcfg]
      exact hz
    simp only [Sched.osTaskDeleteRunning]
    split
    . exact h3
    exact h.step_osMainSchedule h3
  have h3 : R a (s1.modStatus t fun _ => {}) := h.step_empty h2 ht
  refine h.pendInsert t .free 0 h3 trivial fun _ => ?_
  simp [Sched.status,Sched.modStatus,Sched.modTcb,TskStatus.parked]

lemma osTaskExit (a : Sched) (ht : T.life a.cpu.runningTask) (hz : T.life a.zombie) :
    R a a.osTaskExit.1 := by
  have h1 : R a {a with cpu:={a.cpu with uniTaskLock:=0}} := h.step_frame (h.refl a) rfl
  exact h.step_prtTaskDelete h1 ht hz

lemma step_osTskRecycleLoop (n : Nat) (hs : R a s) : R a (Sched.osTskRecycleLoop n s) := by
  induction n generalizing s with
  | zero => exact hs
  | succ n ih =>
    unfold Sched.osTskRecycleLoop
    split
    . exact hs
    next t _ hlist =>
    have hl : Loose I a s t := h.ofPend hs (Links.head_linked hlist)
    exact ih (h.pendInsert t .free _ (h.pendDelete t hs) trivial hl)

lemma step_takeTcb (hs : R a s) (kthread : Bool) : R a (Kernel.takeTcb s t kthread) :=
  h.step_data (h.pendDelete t hs) (fun _ => rfl) (fun _ => rfl) (.of_mark rfl)

lemma step_osFirstTimeSwitch (hs : R a s) : R a s.osFirstTimeSwitch := by
  have h1 : R a s.osTskHighestSet := h.step_osTskHighestSet hs
  simp only [Sched.osFirstTimeSwitch]
  split
  . exact h.step_frame h1 rfl
  next t ht =>
  have h2 : R a {s.osTskHighestSet with
      cpu := {s.osTskHighestSet.cpu with runningTask:=t}} :=
    h.frame h1 ⟨rfl,rfl,rfl,rfl,rfl,rfl,rfl,.inr (.inl ht),.inl rfl⟩
  exact h.step_mark h2 (h.ofRunning h2) fun _ => rfl

lemma osTaskCreateOnly (p : TskInitParam) (memOk kthread : Bool)
    (hT : ∀ t l, k.sched.osTskRecycle.pend.lists .free=t::l → T.life t ∧ T.birth t) :
    R k.sched (k.osTaskCreateOnly p memOk kthread).1.sched := by
  have h1 : R k.sched k.sched.osTskRecycle := h.step_osTskRecycleLoop _ (h.refl _)
  simp only [Kernel.osTaskCreateOnly]
  split
  . exact h.refl _
  split
  . exact h1
  next t _ hlist =>
  have hl : Loose I k.sched k.sched.osTskRecycle t := h.ofPend h1 (Links.head_linked hlist)
  have h2 : R k.sched (Kernel.takeTcb k.sched.osTskRecycle t kthread) := h.step_takeTcb h1 kthread
  have hl2 : Loose I k.sched (Kernel.takeTcb k.sched.osTskRecycle t kthread) t := by
    have hd : Loose I k.sched (k.sched.osTskRecycle.pendDelete t) t := hl
    exact hd.modTcb _ (.same rfl rfl rfl)
  split
  . exact h.pendInsert t .free 0 h2 trivial hl2
  have ht := hT t _ hlist
  have hi : R k.sched ((Kernel.takeTcb k.sched.osTskRecycle t kthread).timerInit t) :=
    h.step_frame h2 rfl
  have h3 := h.birth t p.taskPrio hi ht hl2
  refine h.setCont t .user h3 ⟨.inl ht.1,.inl ht.1,.inl ht.1⟩ fun _ => ?_
  simp [Sched.status,Sched.modTcb,osTskCreateTcbInit,TskStatus.parked]

omit h in
lemma created {k' : Kernel} {p : TskInitParam} {memOk kthread : Bool}
    (he : k.osTaskCreateOnly p memOk kthread=(k',.ok t)) :
    Loose I a k'.sched t ∧ k'.sched.cont t=.user := by
  unfold Kernel.osTaskCreateOnly at he
  dsimp only at he
  split at he
  . cases he
  split at he
  . cases he
  split at he
  . cases he
  cases he
  refine ⟨fun _ => ?_,Sched.setCont_self ..⟩
  simp [Sched.status,Sched.setCont,Sched.modTcb,osTskCreateTcbInit,TskStatus.parked]

lemma osActivate (memOk : Bool)
    (hT : ∀ t l, k.sched.osTskRecycle.pend.lists .free=t::l → T.life t ∧ T.birth t) :
    R k.sched (k.osActivate memOk).1.sched := by
  have h1 := h.osTaskCreateOnly (k:=k)
    ⟨true,k.sched.cfg.prioLowest,k.sched.cfg.idleStackSize,0,some "IdleTask"⟩ memOk false hT
  simp only [Kernel.osActivate]
  split
  . next k' e he =>
    rw [he] at h1
    exact h1
  next k' t he =>
  rw [he] at h1
  obtain ⟨hl,hu⟩ := created (I:=I) (a:=k.sched) he
  have h2 : R k.sched (k'.sched.prtTaskResume t).1 := by
    refine h.step_prtTaskResume h1 (fun _ => hl) fun _ _ => ?_
    rw [hu]
    exact .user
  have h3 : R k.sched { (k'.sched.prtTaskResume t).1 with
      cpu := {(k'.sched.prtTaskResume t).1.cpu with idleTaskId:=t} } :=
    h.step_frame h2 rfl
  have h4 := h.step_osTskHighestSet h3
  apply h.step_osFirstTimeSwitch
  exact h.step_frame h4 rfl

lemma step_wakeUpProcess (hs : R a s) (ht : (s.status t).suspend=true → Loose I a s t)
    (hd : t ≤ s.cfg.tskMaxNum → (s.status t).delayInterruptible=true → T.Free t (s.cont t)) :
    R a (s.wakeUpProcess t) := by
  unfold Sched.wakeUpProcess
  split
  . exact h.step_prtTaskResume hs ht hd
  . exact h.step_prtTaskResume hs ht hd
  exact hs

lemma enterWaitQueue (a : Sched) (wq : Nat) : R a (a.enterWaitQueue wq).1 := by
  unfold Sched.enterWaitQueue
  split
  . exact h.refl a
  split
  . exact h.refl a
  have hl : Loose I a (a.osTskReadyDel a.cpu.runningTask) a.cpu.runningTask :=
    (h.ofRunning (h.refl a)).osTskReadyDel
  have h1 := h.step_mark (h.step_osTskReadyDel (h.refl a)) hl
    (f:=fun b => {b with waitqueuePend:=true}) fun _ => rfl
  have h2 := h.step_kthreadStateSet (t:=a.cpu.runningTask) h1 .uninterruptible
  refine h.step_osTskSchedule (h.waitInsert a.cpu.runningTask wq _ _ h2 ?_)
  refine Loose.modTcb ?_ _ (.same rfl rfl rfl)
  exact hl.modStatus _ fun _ => rfl

lemma step_wakeUpOne (hs : R a s) (ht : Loose I a s t) : R a (s.wakeUpOne t) := by
  have hl : Loose I a (s.waitDelete t) t := ht
  have h1 := h.step_osTskReadyAdd (h.waitDelete t hs) hl
  refine h.step_modStatus (h.step_kthreadStateSet h1 .running) (fun _ => rfl) ?_
  grind [TskStatus.engaged]

lemma step_wakeUpLoop (wq n : Nat) (hs : R a s) : R a (Sched.wakeUpLoop wq n s) := by
  induction n generalizing s with
  | zero => exact hs
  | succ n ih =>
    unfold Sched.wakeUpLoop
    split
    . exact hs
    next t _ hlist =>
    exact ih (h.step_wakeUpOne hs (h.ofWait hs (Links.head_linked hlist)))

lemma wakeUp (a : Sched) (wq : Nat) : R a (a.wakeUp wq) :=
  h.step_osTskSchedule (h.step_wakeUpLoop wq _ (h.refl a))

end Respects

namespace Quiet

variable {T : Touch} {R : Sched → Sched → Prop} (h : Quiet T R) {a s : Sched} {t : Nat}

include h

lemma step_osTskReadyAdd (hs : R a s) : R a (s.osTskReadyAdd t) :=
  h.respects.step_osTskReadyAdd hs nofun

lemma step_osTskReadyDel (hs : R a s) : R a (s.osTskReadyDel t) := h.respects.step_osTskReadyDel hs

lemma step_readyAddUnlessSuspend (hs : R a s) : R a (s.readyAddUnlessSuspend t) :=
  h.respects.step_readyAddUnlessSuspend hs nofun

lemma step_osTskSchedule (hs : R a s) : R a s.osTskSchedule := h.respects.step_osTskSchedule hs

end Quiet

/-- The caller may once put itself into the delay list, for a time in `N`: `Q` before, `R` after that. -/
structure Paces (T : Touch) (I : Sched → Prop) (G : TskCb → TskCb → Prop) (N : Nat → Prop)
    (Q R : Sched → Sched → Prop) : Prop where
  pre : Respects T I G Q
  post : Respects T I G R
  weaken : ∀ {a s}, Q a s → R a s
  timerAdd : ∀ {a s} (n : Nat), N n → Q a s → Loose I a s a.cpu.runningTask →
    R a (s.osTskTimerAdd a.cpu.runningTask n)

abbrev Steps (I : Sched → Prop) (G : TskCb → TskCb → Prop) (N : Nat → Prop)
    (Q R : Sched → Sched → Prop) : Prop :=
  Paces .all I G N Q R

lemma Quiet.paces {T : Touch} {R : Sched → Sched → Prop} (h : Quiet T R) :
    Paces T (fun _ => False) (fun c c' => c'.mark=c.mark) (fun _ => True) R R where
  pre := h.respects
  post := h.respects
  weaken := id
  timerAdd {a s} n _ hs _ := by
    have h1 : R a (s.modTcb a.cpu.runningTask fun c =>
        {c with expirationTick:=(s.cpu.uniTicks+n)%2^64}) :=
      h.trans hs (h.modTcb _ _ _ (.of_mark rfl))
    exact h.trans h1 (h.frame rfl rfl rfl)

namespace Paces

variable {T : Touch} {I : Sched → Prop} {G : TskCb → TskCb → Prop} {N : Nat → Prop}
  {Q R : Sched → Sched → Prop} (h : Paces T I G N Q R) {a s : Sched} {n : Nat}

include h

lemma timeoutSet (hn : N n) (hs : Q a s) (hl : Loose I a s a.cpu.runningTask)
    (hf : T.Free a.cpu.runningTask (s.cont a.cpu.runningTask)) :
    R a (s.timeoutSet a.cpu.runningTask n) := by
  unfold Sched.timeoutSet
  split
  . exact h.weaken hs
  exact h.timerAdd n hn (h.pre.step_timeout hs hf true) (hl.modStatus _ fun _ => rfl)

lemma osEventTimeOutSet (hn : N n) (hs : Q a s) (hl : Loose I a s a.cpu.runningTask)
    (hf : T.Free a.cpu.runningTask (s.cont a.cpu.runningTask)) :
    R a (s.osEventTimeOutSet a.cpu.runningTask n) := by
  unfold Sched.osEventTimeOutSet
  split
  . exact h.weaken (h.pre.step_timeout hs hf false)
  exact h.timerAdd n hn (h.pre.step_timeout hs hf true) (hl.modStatus _ fun _ => rfl)

lemma leave (hs : Q a s) (hl : Loose I a s a.cpu.runningTask) {f : TskCb → TskCb}
    (hk : ∀ c, (f c).kept=c.kept) (hw : ∀ c, (f c).taskStatus.waitSignal=c.taskStatus.waitSignal)
    (hp : ∀ c, (f c).taskStatus.sigPause=c.taskStatus.sigPause)
    (hT : ∀ c, T.Tcb a.cpu.runningTask (s.cont a.cpu.runningTask) c (f c)) :
    Q a ((s.osTskReadyDel a.cpu.runningTask).modTcb a.cpu.runningTask f) ∧
      Loose I a ((s.osTskReadyDel a.cpu.runningTask).modTcb a.cpu.runningTask f)
        a.cpu.runningTask := by
  have hl1 : Loose I a (s.osTskReadyDel a.cpu.runningTask) a.cpu.runningTask := hl.osTskReadyDel
  constructor
  . apply h.pre.modTcb _ f (h.pre.step_osTskReadyDel hs) (hk _) (hT _)
    intro hI
    exact .of_loose (hl1 hI) (hw _) (hp _)
  intro hI
  exact hl1.modTcb f (.of_loose (hl1 hI) (hw _) (hp _)) hI

lemma prtTaskDelay (a : Sched) (tick : Nat) (hn : 0<tick → N tick) :
    R a (a.prtTaskDelay tick).1 := by
  unfold Sched.prtTaskDelay
  split
  . exact h.post.refl a
  split
  . exact h.post.refl a
  split
  . next htick =>
    obtain ⟨h1,hl⟩ := h.leave (h.pre.refl a) (h.pre.ofRunning (h.pre.refl a))
      (f:=fun c => {c with taskStatus:={c.taskStatus with delay:=true}})
      (fun _ => rfl) (fun _ => rfl) (fun _ => rfl) fun _ => .of_mark rfl
    exact h.post.step_osTskSchedule (h.timerAdd tick (hn htick) h1 hl)
  exact h.post.osTaskYield a _

lemma scheduleTimeout (a : Sched) (timeout : Int) (hn : N timeout.toNat)
    (hf : a.cpu.intActive=false → T.Free a.cpu.runningTask (a.cont a.cpu.runningTask)) :
    R a (a.scheduleTimeout timeout) := by
  simp only [Sched.scheduleTimeout]
  split
  . exact h.post.step_kthreadStateSet (h.post.refl a) _
  next hi =>
  push Not at hi
  split
  . exact h.prtTaskDelay a 0 fun h0 => absurd h0 (Nat.lt_irrefl 0)
  obtain ⟨h1,hl⟩ := h.leave (h.pre.refl a) (h.pre.ofRunning (h.pre.refl a))
    (f:=fun c => {c with taskStatus:={c.taskStatus with delayInterruptible:=true}})
    (fun _ => rfl) (fun _ => rfl) (fun _ => rfl) fun _ => .of_mark rfl
  split
  . exact h.post.step_osTskSchedule (h.weaken h1)
  have h2 := h.timerAdd _ hn h1 hl
  exact h.post.step_osTskSchedule (h.post.step_timeout h2 (hf (Bool.eq_false_iff.mpr hi.1)) true)

end Paces

end UniProton
