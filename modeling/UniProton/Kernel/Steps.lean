import UniProton.Ipc.HandlesAct
import UniProton.Kernel.Interrupts

namespace UniProton

open Framework Sched

namespace Call

def mayWait : Call → Bool
  | .taskDelay _ | .semPend .. | .queueRead .. | .queueWrite .. | .eventRead .. | .rwRead ..
  | .rwWrite .. | .scheduleTimeout _ => true
  | _ => false

/-- A wait without a limit in a call that does not drop an old timeout flag. -/
def untimed : Call → Bool
  | .semPend _ n | .queueRead _ _ n | .queueWrite _ _ n _ | .rwRead _ n _ | .rwWrite _ n _ =>
    !hasLimit n
  | .scheduleTimeout n => decide (n=maxScheduleTimeout)
  | _ => false

end Call

/-- What the code that is running may call. -/
structure MayCall (s : Sched) (call : Call) : Prop where
  user : s.cpu.taskContext=true → s.cont s.cpu.runningTask=.user
  bgd : s.cpu.bgdActive=true ∨ call.early=true
  task : call.taskOnly=true → s.cpu.taskContext=true

/-- The discipline of a call: `c` for a run without list misuse, `u` without stale timeout flags,
`d` for an idle task that never waits, `e` for a lock count that does not overflow. -/
structure CallOk (c u d e : Prop) (s : Sched) (call : Call) : Prop where
  plain : call.plain=true
  lock : call=.taskLock → ¬c ∧ (e → s.cpu.uniTaskLock+1<2^16)
  delete : ∀ t, call=.taskDelete t → c → (s.status t).timeout=true → (s.status t).waiting=true
  exit : call=.taskExit →
    (e → s.cpu.runningTask=s.cpu.idleTaskId → s.cpu.uniTaskLock=0) ∧
    (c → (s.status s.cpu.runningTask).timeout=false)
  idle : call.mayWait=true → d → s.cpu.taskContext=true → s.cpu.runningTask≠s.cpu.idleTaskId
  sleep : ∀ n, call=.scheduleTimeout n → ¬u
  stale : call.untimed=true → c → s.cpu.taskContext=true →
    (s.status s.cpu.runningTask).timeout=false

namespace Kernel

variable {c u d e : Prop} {k : Kernel} {call : Call}

lemma handlerContext_not_task {s : Sched} (h : s.handlerContext=true) :
    s.cpu.taskContext=false := by
  simp only [handlerContext,Bool.and_eq_true,Bool.or_eq_true] at h
  rcases h.2 with h | ⟨h,-⟩ <;> simp [Cpu.taskContext,h]

lemma enabled_call (h : k.enabled (.call call)=true) :
    k.sched.cpu.crashed=false ∧ MayCall k.sched call := by
  simp only [enabled,Bool.and_eq_true,Bool.not_eq_true'] at h
  obtain ⟨ha,h⟩ := h
  refine ⟨ha,?_⟩
  split at h
  . next hb =>
    rcases (Bool.or_eq_true _ _).mp h with h | h
    . simp only [userCode,Bool.and_eq_true,decide_eq_true_eq] at h
      exact ⟨fun _ => h.1.2,.inl hb,fun _ => h.1.1⟩
    simp only [Bool.and_eq_true,Bool.not_eq_true'] at h
    have hn := handlerContext_not_task h.1
    refine ⟨fun hc => ?_,.inl hb,fun hc => ?_⟩
    . rw [hn] at hc
      cases hc
    rw [h.2] at hc
    cases hc
  next hb =>
  have hn : k.sched.cpu.taskContext=false := by simp [Cpu.taskContext,hb]
  refine ⟨fun hc => ?_,.inr h,fun hc => ?_⟩
  . rw [hn] at hc
    cases hc
  cases call <;> simp_all [Call.early,Call.taskOnly]

section exec

variable (h : Able c u k.sched) (hs : k.SemOk) (hx : u → k.MutexOk)
  (hm : MayCall k.sched call) (hk : CallOk c u d e k.sched call)

include h hs hx hm hk

lemma exec_keeps : Keeps c u d e k.sched (k.exec call).1.sched := by
  have hb : call.early=false → k.sched.cpu.bgdActive=true := by
    intro hc
    apply hm.bgd.resolve_right
    simp [hc]
  have hn : ∀ n, (call.untimed=true ↔ n=osWaitForever) → c →
      k.sched.cpu.taskContext=true → n=osWaitForever →
      (k.sched.view k.sched.cpu.runningTask).bits.timeout=false :=
    fun n hi hc ht he => hk.stale (hi.mpr he) hc ht
  have hlim : ∀ n, (!hasLimit n)=true ↔ n=osWaitForever := by
    intro n
    simp [hasLimit]
  have hsame (hc : call.makes=true) : Keeps c u d e k.sched (k.exec call).1.sched := by
    rw [k.exec_sched_of_makes hc]
    exact h.refl.keeps
  cases call with
  | taskCreate p memOk kthread =>
    have hset := (osTaskCreateOnly_settles h p memOk kthread (d:=d)).keeps (e:=e)
    simp only [exec]
    generalize k.osTaskCreateOnly p memOk kthread=r at hset ⊢
    obtain ⟨k1,err | t⟩ := r <;> exact hset
  | taskResume t => exact (prtTaskResume_settles h t).keeps
  | taskSuspend t => exact (prtTaskSuspend_settles h (hb rfl) t).keeps
  | taskDelete t => exact prtTaskDelete_keeps h (hb rfl) t (hk.delete t rfl)
  | taskExit =>
    have hc := hm.task rfl
    exact osTaskExit_keeps h hc (hm.user hc) (hk.exit rfl).1 (hk.exit rfl).2
  | taskDelay tick => exact (prtTaskDelay_settles h (hb rfl) hm.user (hk.idle rfl) tick).keeps
  | taskLock => exact prtTaskLock_keeps h (hb rfl) (hk.lock rfl).1 (hk.lock rfl).2
  | taskUnlock => exact prtTaskUnlock_keeps h (hb rfl)
  | taskSetPriority t prio => exact (prtTaskSetPriority_settles h (hb rfl) t prio).keeps
  | semPend i n =>
    exact (prtSemPend_settles h (hb rfl) hs hx hm.user (hk.idle rfl) i (hn n (hlim n))).keeps
  | semPost i => exact (prtSemPost_settles h (hb rfl) hs hx i).keeps
  | queueRead q len n =>
    exact (prtQueueRead_settles h (hb rfl) hm.user (hk.idle rfl) (hn n (hlim n)) q len).keeps
  | queueWrite q data n prio =>
    exact (prtQueueWrite_settles h (hb rfl) hm.user (hk.idle rfl) (hn n (hlim n)) q data prio).keeps
  | eventRead mask flags n =>
    have hset := (prtEventRead_settles h (hb rfl) hm.user (hk.idle rfl) mask flags n).keeps (e:=e)
    simp only [exec,eventRead,logRead]
    split <;> exact hset
  | eventWrite t events =>
    have hset := (prtEventWrite_settles h (hb rfl) t events (d:=d)).keeps (e:=e)
    simp only [exec,eventWrite]
    split <;> exact hset
  | rwRead l n try_ =>
    exact (osRwLockRdPend_settles h (hb rfl) hm.user (hk.idle rfl) (hn n (hlim n)) l try_).keeps
  | rwWrite l n try_ =>
    exact (osRwLockWrPend_settles h (hb rfl) hm.user (hk.idle rfl) (hn n (hlim n)) l try_).keeps
  | rwUnlock l =>
    have hset := (pthreadRwlockUnlock_settles h (hb rfl) l (d:=d)).keeps (e:=e)
    simp only [exec,rwUnlock]
    split <;> exact hset
  | setCurrentState x => exact (kthreadStateSet_settles h x).keeps
  | scheduleTimeout n =>
    refine (scheduleTimeout_settles h (hb rfl) hm.user (hk.idle rfl) (hk.sleep n rfl)
      fun hc ht he => ?_).keeps
    exact hk.stale (decide_eq_true he) hc ht
  | wakeUpProcess t => exact (wakeUpProcess_settles h t).keeps
  | semCreate | mutexCreate | semDelete | queueCreate | queueDelete => exact hsame rfl
  | enterWaitQueue | wakeUp | signalDeliver | signalWait | signalMask | sigSuspend | pause =>
    exact absurd hk.plain (by simp [Call.plain])

end exec

lemma proceed_keeps (h : Able c u k.sched) (hc : k.sched.cpu.taskContext=true) :
    Keeps c u d e k.sched k.proceed.1.sched := by
  have hb : k.sched.cpu.bgdActive=true := by
    simp only [Cpu.taskContext,Bool.and_eq_true] at hc
    exact hc.1.1
  have hp := Able.plain h hc
  unfold proceed
  cases hk : k.sched.cont k.sched.cpu.runningTask with
  | user => exact h.refl.keeps
  | semPend => exact (semPendCont_settles h hb hc hk).keeps
  | queueRead q len => exact (queueReadCont_settles h hb hc q len).keeps
  | queueWrite q data prio => exact (queueWriteCont_settles h hb hc q data prio).keeps
  | eventRead mask all =>
    have hset := (eventReadCont_settles h hc hk (d:=d)).keeps (e:=e)
    simp only [eventReadRest,logRead]
    split <;> exact hset
  | rwPend l write timed =>
    have hset := (rwPendCont_settles h hc hk (d:=d)).keeps (e:=e)
    simp only [rwPendRest]
    split <;> exact hset
  | rwCheck l write =>
    have hset := (rwCheckCont_settles h hc hk (d:=d)).keeps (e:=e)
    simp only [rwCheckRest]
    split <;> exact hset
  | signalWait | sigSuspendEnter | sigSuspend => rw [hk] at hp; cases hp

def InputOk (c u d e : Prop) (k : Kernel) : Input → Prop
  | .call call => CallOk c u d e k.sched call
  | _ => True

variable {i : Input}

lemma enabled_alive (h : k.enabled i=true) : k.sched.cpu.crashed=false := by
  simp only [enabled,Bool.and_eq_true,Bool.not_eq_true'] at h
  exact h.1

lemma enabled_not_signalEntry (h : Able c u k.sched) : k.enabled .signalEntry=false := by
  by_contra hn
  simp only [enabled,Bool.not_eq_false,Bool.and_eq_true] at hn
  obtain ⟨m,hf,-⟩ := h.run.runnable (h.run.real hn.2.1)
  have hs := hf.holdSignal
  change (k.sched.status k.sched.cpu.runningTask).holdSignal=false at hs
  rw [hs] at hn
  cases hn.2.2

lemma enabled_bgd (h : k.enabled i=true) : (∃ call, i=.call call) ∨
    (∃ memOk, i=.activate memOk) ∨ k.sched.cpu.bgdActive=true := by
  cases i with
  | call call => exact .inl ⟨call,rfl⟩
  | activate memOk => exact .inr (.inl ⟨memOk,rfl⟩)
  | _ =>
    refine .inr (.inr ?_)
    simp only [enabled,tickContext,Cpu.taskContext,Bool.and_eq_true] at h
    tauto

lemma act_keeps (h : Able c u k.sched) (hs : k.SemOk) (hx : u → k.MutexOk)
    (hen : k.enabled i=true) (hk : InputOk c u d e k i) :
    Keeps c u d e k.sched (k.act i).1.sched := by
  have hb := enabled_bgd hen
  cases i with
  | call call => exact exec_keeps h hs hx (enabled_call hen).2 hk
  | proceed =>
    simp only [enabled,Bool.and_eq_true] at hen
    exact proceed_keeps h hen.2.1
  | signalEntry =>
    rw [enabled_not_signalEntry h] at hen
    cases hen
  | activate memOk =>
    simp only [enabled,Bool.and_eq_true,Bool.not_eq_true'] at hen
    exact osActivate_keeps h hen.2 memOk
  | hwiEnter => exact hwiEnter_keeps h
  | tickIsr => exact tickIsr_keeps h
  | hwiExit => exact hwiExit_keeps h (by simpa using hb)
  | tickScan => exact tickScan_keeps h (by simpa using hb)
  | tickEnd =>
    simp only [act,onSched]
    exact tickEnd_keeps h (by simpa using hb)

lemma signals_mark : Signals fun c c' : TskCb => c'.mark=c.mark where
  trans h h' := h'.trans h
  masks _ _ _ := rfl
  take _ _ _ := rfl

lemma user_of_mayCall {call : Call} (hm : MayCall k.sched call) (hc : call.delays=true)
    (hi : k.sched.cpu.intActive=false) : k.sched.cont k.sched.cpu.runningTask=.user := by
  have he : call.early=false := by cases call <;> first | rfl | cases hc
  have hb : k.sched.cpu.bgdActive=true := hm.bgd.resolve_right (by simp [he])
  exact hm.user (taskContext_of hb (by simp [hi]))

lemma act_quiet {T : Touch} {R : Sched → Sched → Prop} (hR : Quiet T R)
    (h : Able c u k.sched) (hen : k.enabled i=true) (hk : InputOk c u d e k i)
    (hT : k.InputWithin T i) : R k.sched (k.act i).1.sched := by
  have h0 : Able False False k.sched := ⟨h.core,h.alive,h.run,False.elim,False.elim⟩
  by_cases ht : i=.tickScan
  . subst ht
    simp only [act,onSched,tickScan]
    generalize (k.sched.cpu.uniTicks+1) % 2^64=n
    have hc := h.core.setCpu (x:={k.sched.cpu with uniTicks:=n, tickPhase:=.hooks}) rfl
    have hr := h.run.setCpu (x:={k.sched.cpu with uniTicks:=n, tickPhase:=.hooks}) rfl id
      rfl
    have h1 : R k.sched {k.sched with
        cpu := {k.sched.cpu with uniTicks:=n, tickPhase:=.hooks}} := hR.frame rfl rfl rfl
    exact hR.respects.step_osTaskScan (fun _ _ hI => hI.elim) h1 (.inr ⟨hT,hc,hr⟩)
  refine hR.paces.act signals_mark (suits_of_false ?_) ht (fun _ => trivial) (.inr ⟨h0,?_,?_⟩)
    (.inr ?_) hT
  . rintro t info memOk c rfl
    cases hk.plain
  . rintro call rfl
    exact hk.plain
  . rintro rfl
    simp only [enabled,Bool.and_eq_true] at hen
    exact hen.2.1
  intro hd
  cases i with
  | call call => exact user_of_mayCall (enabled_call hen).2 hd
  | _ => cases hd

end Kernel

end UniProton
