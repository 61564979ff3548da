import UniProton.Kernel.Switching

namespace UniProton

open Framework Function

namespace Sched

variable {c u d e : Prop} {s s1 : Sched} {t : Nat} {m : TskMode}

lemma le_of_not_pidOverflow (h : ¬s.pidOverflow t=true) : t ≤ s.cfg.tskMaxNum := by
  simp [pidOverflow] at h
  omega

lemma Moved.suspendTask (h : Moved c u s s t m) (hu : m≠.unused) :
    ∃ m', Moved c u s (s.suspendTask t) t m' ∧ (m.runnable=true → m'.runnable=true) := by
  unfold Sched.suspendTask
  by_cases hr : (s.status t).ready=true
  . rw [if_pos hr]
    obtain rfl := h.fits.eq_ready hr
    exact ⟨.out,(h.readyDel rfl fun _ => hr).setSuspend nofun nofun true,fun _ => rfl⟩
  rw [if_neg hr]
  have hm : m≠.ready := by
    rintro rfl
    exact hr h.fits.ready
  exact ⟨m,h.setSuspend hm hu true,id⟩

lemma suspendTask_suspend : ((s.suspendTask t).view t).bits.suspend=true := by
  rw [suspendTask,modStatus_view,update_self]
  rfl

lemma Core.suspendTask_highest (h : s.Core) (hm : Moved c u s s t m)
    (hh : s.highestTask=some s.cpu.runningTask) (hne : s.cpu.runningTask≠t) :
    (s.suspendTask t).highestTask=s.highestTask := by
  unfold suspendTask
  by_cases hr : (s.status t).ready=true
  . obtain rfl := hm.fits.eq_ready hr
    rw [if_pos hr,hh]
    exact h.highest_readyDel hh hne (hm.readyDel rfl fun _ => hr).rq
  rw [if_neg hr]
  rfl

lemma prtTaskSuspend_settles (h : Able c u s) (hb : s.cpu.bgdActive=true) (t : Nat) :
    Settles c u d s (s.prtTaskSuspend t).1 := by
  unfold prtTaskSuspend
  split
  . exact h.refl
  split
  . exact h.refl
  split
  . exact h.refl
  split
  . exact h.refl
  split
  . exact h.refl
  next hid hov hun _ _ =>
  have ht := le_of_not_pidOverflow hov
  obtain ⟨m,hm,-⟩ := h.start ht
  obtain ⟨m',hm',hmm⟩ := hm.suspendTask (hm.fits.ne_unused hun)
  have hl : Leads c u d s (s.suspendTask t) := hm'.leads h.core h.tidy ht
    (fun _ => suspendTask_suspend) fun _ he => absurd he hid
  have hrun : (s.suspendTask t).RunOk := hm'.runOk h.run fun he => hmm (by
    subst he
    exact h.run.runnable_of hm.fits ht)
  dsimp only
  split
  . exact .switch hl hb (.inl hrun)
  next hnr =>
  refine .keep hl hrun fun hh => h.core.suspendTask_highest hm hh fun he => hnr ?_
  change ((s.suspendTask t).view t).bits.running=true
  rw [hm'.running,h.core.running t ht,he,decide_eq_true rfl]

lemma Moved.delayIntEnd (h : Moved c u s s1 t m) (hr : m≠.ready) (hu : m≠.unused) :
    ∃ m', Moved c u s (s1.delayIntEnd t) t m' ∧ m'≠.ready ∧ m'≠.unused ∧
      (m.runnable=true → m'.runnable=true) := by
  unfold Sched.delayIntEnd
  by_cases hb : (s1.status t).delayInterruptible=true
  . rw [if_pos hb]
    obtain rfl := h.fits.eq_delayInt hb
    exact ⟨.out,h.wakeDelayInt,nofun,nofun,fun _ => rfl⟩
  rw [if_neg hb]
  exact ⟨m,h,hr,hu,id⟩

lemma osMoveTaskToReady_settles (h : Able c u s) (ht : t ≤ s.cfg.tskMaxNum)
    (hm : Moved c u s s1 t m) (hr : m≠.ready) (hu : m≠.unused)
    (hrun : t=s.cpu.runningTask → m.runnable=true)
    (hnr : ¬(s.view t).bits.ready=true) (hh : s1.highestTask=s.highestTask) :
    Settles c u d s (s1.osMoveTaskToReady t) := by
  obtain ⟨m',hm',hr',hu',hmm⟩ := hm.delayIntEnd hr hu
  simp only [osMoveTaskToReady]
  split
  . next hbl =>
    have hout : m'=.out → ((s1.delayIntEnd t).view t).bits.suspend=true := by
      rintro rfl
      rw [← hm'.fits.block_of_runnable rfl]
      exact hbl
    refine .keep (hm'.leads h.core h.tidy ht hout fun _ _ hc => absurd hc hnr)
      (hm'.runOk h.run fun he => hmm (hrun he)) fun _ => ?_
    rw [← hh]
    unfold delayIntEnd timeoutClear
    split
    . split <;> rfl
    rfl
  next hbl =>
  have hm0 : m'=.out := by
    rcases hm'.fits.runnable_of_not_block (Bool.eq_false_iff.mpr hbl) with hc | hc
    . exact absurd hc hu'
    exact (TskMode.eq_of_runnable hc).resolve_right hr'
  subst hm0
  have hsus : ((s1.delayIntEnd t).view t).bits.suspend=false := by
    rw [← hm'.fits.block_of_runnable rfl]
    exact Bool.eq_false_iff.mpr hbl
  have hm2 := (hm'.readyAdd hsus).kthreadStateSet .running
  have hl : Leads c u d s _ := hm2.leads h.core h.tidy ht nofun fun _ _ _ => rfl
  have hro := hm2.runOk h.run fun _ => rfl
  split
  . next hb =>
    refine .switch hl ?_ (.inl hro)
    rw [← hb,hm2.cpu]
  next hb =>
  refine .keep hl hro fun hc => ?_
  have hlt := h.run.early (by rw [← hm2.cpu]; simpa using hb)
  have hle := (h.core.highest_ready hc).1
  omega

lemma prtTaskResume_settles (h : Able c u s) (t : Nat) : Settles c u d s (s.prtTaskResume t).1 := by
  unfold prtTaskResume
  split
  . exact h.refl
  split
  . exact h.refl
  split
  . exact h.refl
  split
  . exact h.refl
  next hov hun _ hns =>
  have ht := le_of_not_pidOverflow hov
  obtain ⟨m,hm,-⟩ := h.start ht
  have hr : m≠.ready := by
    rintro rfl
    have hs : (s.status t).suspend=false := hm.fits.suspend rfl
    have hdi : (s.status t).delayInterruptible=false := hm.fits.delayInterruptible
    simp [hs,hdi] at hns
  have hu := hm.fits.ne_unused hun
  refine osMoveTaskToReady_settles h ht (hm.setSuspend hr hu false) hr hu ?_ ?_ rfl
  . rintro rfl
    exact h.run.runnable_of hm.fits ht
  intro hc
  exact hr (hm.fits.eq_ready hc)

lemma Core.head_of_highest (h : s.Core) (hh : s.highestTask=some s.cpu.runningTask) :
    (s.readyList (s.tcb s.cpu.runningTask).priority).head? = some s.cpu.runningTask := by
  have hhead := h.rq.highest.symm.trans hh
  obtain ⟨l,hl⟩ := List.head?_eq_some_iff.mp hhead
  have hloc : (s.view s.cpu.runningTask).loc=some (.ready s.runQue.first) := Links.head_loc hl
  have hp := ((h.highest_ready hh).2.eq_of_loc_ready hloc).2
  change s.runQue.first=(s.tcb s.cpu.runningTask).priority at hp
  rw [← hp]
  exact hhead

lemma osTaskYield_settles (h : Able c u s) (hb : s.cpu.bgdActive=true) :
    Settles c u d s (s.osTaskYield (s.tcb s.cpu.runningTask).priority).1 := by
  unfold osTaskYield
  split
  . next t _ _ hlist =>
    have hmem : t∈s.readyList (s.tcb s.cpu.runningTask).priority := by
      rw [hlist]
      exact List.mem_cons_self
    have ht := h.core.le_of_mem hmem
    obtain ⟨m,hm,-⟩ := h.start ht
    have hloc : (s.view t).loc=some (.ready _) := (s.pend.mem_iff _ t).mp hmem
    obtain rfl := (hm.fits.eq_of_loc_ready hloc).1
    have hm1 := hm.readyDel rfl fun _ => hm.fits.ready
    have hsus : ((s.osTskReadyDel t).view t).bits.suspend=false := by
      rw [osTskReadyDel_view,update_self]
      exact hm.fits.suspend rfl
    have hm2 := hm1.readyAdd hsus
    have hl : Leads c u d s _ := hm2.leads h.core h.tidy ht nofun fun _ _ _ => rfl
    have hro := hm2.runOk h.run fun _ => rfl
    dsimp only
    split
    . exact .switch hl hb (.inl hro)
    next hnr =>
    refine .keep hl hro fun hh => absurd ?_ hnr
    have hhead := h.core.head_of_highest hh
    rw [hlist] at hhead
    obtain rfl : t=s.cpu.runningTask := Option.some.inj hhead
    change (((s.osTskReadyDel s.cpu.runningTask).osTskReadyAdd _).view _).bits.running=true
    rw [hm2.running,h.core.running _ ht,decide_eq_true rfl]
  exact h.refl

/-- The running task gives up the processor to wait: the move out of the ready queue that every
wait begins with. -/
lemma Able.leave (h : Able c u s) (hc : s.cpu.taskContext=true) :
    s.cpu.runningTask ≤ s.cfg.tskMaxNum ∧
      Moved c u s (s.osTskReadyDel s.cpu.runningTask) s.cpu.runningTask .out := by
  have ht := h.run.real hc
  obtain ⟨m,hm,-⟩ := h.start ht
  exact ⟨ht,hm.readyDel (h.run.runnable_of hm.fits ht) fun hc' => h.steady hc' hc⟩

lemma enter_view (k : Cont) : (((s.setCont t k).osTskReadyDel t).view t).cont=k ∧
      (((s.setCont t k).osTskReadyDel t).view t).bits.timeout=(s.view t).bits.timeout := by
  rw [osTskReadyDel_view,update_self,setCont_view,update_self]
  exact ⟨rfl,rfl⟩

lemma Able.enter (h : Able c u s) (hc : s.cpu.taskContext=true)
    (hu : s.cont s.cpu.runningTask=.user) {k : Cont} (hk : k.queueOf=none) (hkp : k.plain=true) :
    s.cpu.runningTask ≤ s.cfg.tskMaxNum ∧
      Moved c u s ((s.setCont s.cpu.runningTask k).osTskReadyDel s.cpu.runningTask)
        s.cpu.runningTask .out := by
  have ht := h.run.real hc
  obtain ⟨m,hm,-⟩ := h.start ht
  have hr := h.run.runnable_of hm.fits ht
  have hview : (s.view s.cpu.runningTask).cont=.user := hu
  have hm1 := hm.setCont hr (k:=k) (by rw [hview]; rfl) hk hkp ?_
  . refine ⟨ht,hm1.readyDel hr fun hc' => ?_⟩
    exact h.steady hc' hc
  intro hc' hu' hto
  have hcont := ((h.tidy hc').tight _ ht).cont hu' hto
  rw [hview] at hcont
  cases hcont

lemma Able.self (h : Able c u s) (hc : s.cpu.taskContext=true) :
    ∃ m, m.runnable=true ∧ Moved c u s s s.cpu.runningTask m ∧
      ∀ {s1 : Sched}, Moved c u s s1 s.cpu.runningTask m →
        (s1.view s.cpu.runningTask).bits.suspend=(s.view s.cpu.runningTask).bits.suspend →
          Leads c u d s s1 ∧ Able c u s1 := by
  have ht := h.run.real hc
  obtain ⟨m,hm,hout⟩ := h.start ht
  have hr := h.run.runnable_of hm.fits ht
  refine ⟨m,hr,hm,fun {s1} hm1 hs => ?_⟩
  have hl : Leads c u d s s1 := hm1.leads h.core h.tidy ht (fun he => hs.trans (hout he))
    fun _ _ => hm.fits.eq_ready
  refine ⟨hl,hl.able h (hm1.runOk h.run fun _ => hr) fun hc' _ => ?_⟩
  rw [hm1.fits.ready,← hm.fits.ready]
  exact h.steady hc' hc

lemma Able.goOn (h : Able c u s) (hc : s.cpu.taskContext=true)
    (hq : (s.cont s.cpu.runningTask).queueOf=none) {k : Cont} (hk : k.queueOf=none)
    (hkp : k.plain=true) (ht : c → u → (s.status s.cpu.runningTask).timeout=true → k.timed=true) :
    Leads c u d s (s.setCont s.cpu.runningTask k) ∧ Able c u (s.setCont s.cpu.runningTask k) := by
  obtain ⟨m,hr,hm,hself⟩ := h.self hc (d:=d)
  apply hself (hm.setCont hr hq hk hkp ht)
  rfl

lemma Able.timedOut (h : Able c u s) (hc : s.cpu.taskContext=true)
    (hq : (s.cont s.cpu.runningTask).queueOf=none) :
    Leads c u d s ((s.setCont s.cpu.runningTask .user).modStatus s.cpu.runningTask fun b =>
        {b with timeout:=false}) ∧
      Able c u ((s.setCont s.cpu.runningTask .user).modStatus s.cpu.runningTask fun b =>
        {b with timeout:=false}) := by
  obtain ⟨m,hr,hm,hself⟩ := h.self hc (d:=d)
  have hv : ((s.setCont s.cpu.runningTask .user).modStatus s.cpu.runningTask fun b =>
      {b with timeout:=false}).view=update s.view s.cpu.runningTask
        ⟨{ (s.view s.cpu.runningTask).tcb with taskStatus :=
          {(s.view s.cpu.runningTask).tcb.taskStatus with timeout:=false} },
        .user,(s.view s.cpu.runningTask).loc,(s.view s.cpu.runningTask).timed⟩ := by
    rw [modStatus_view,setCont_view,update_self,update_idem]
    rfl
  refine hself (hm.settle hr (k:=.user) rfl rfl (hm.fits.busy_of_cont hq) (fun _ _ hx => ?_) hv
    ((hm.rq.setCont _).modStatus _) (fun _ => rfl) rfl rfl) ?_
  . cases hx
  rw [hv,update_self]
  rfl

lemma taskContext_of (hb : s.cpu.bgdActive=true) (hi : ¬s.cpu.intActive=true) :
    s.cpu.taskContext=true := by
  simp only [Cpu.intActive,Bool.or_eq_true,not_or,Bool.not_eq_true] at hi
  simp [Cpu.taskContext,hb,hi]

lemma prtTaskDelay_settles (h : Able c u s) (hb : s.cpu.bgdActive=true)
    (hk : s.cpu.taskContext=true → s.cont s.cpu.runningTask=.user)
    (hd : d → s.cpu.taskContext=true → s.cpu.runningTask≠s.cpu.idleTaskId) (tick : Nat) :
    Settles c u d s (s.prtTaskDelay tick).1 := by
  unfold prtTaskDelay
  split
  . exact h.refl
  next hi =>
  split
  . exact h.refl
  next hz =>
  split
  . have hc := taskContext_of hb hi
    obtain ⟨ht,hm⟩ := h.leave hc
    have hm' := hm.pendDelay (n:=tick) (hk hc)
    exact .switch (hm'.leads h.core h.tidy ht nofun fun hd' he => absurd he (hd hd' hc)) hb
      (.inr ⟨hc,not_not.mp hz⟩)
  exact osTaskYield_settles h hb

lemma osTaskExpire_highest : (s.osTaskExpire t).highestTask=s.highestTask := by
  simp only [osTaskExpire]
  split
  . rfl
  split
  . rfl
  split
  . rfl
  split
  . rfl
  split <;> rfl

lemma expire_leads (h : s.Core) (hti : c → s.Tidy u) (hro : s.RunOk) (hd : t∈s.delayList) :
    let s1 := s.osTaskExpire t
    let s2 := if (s1.status t).suspend then s1 else s1.osTskReadyAdd t
    Leads c u d s s2 ∧ s2.RunOk := by
  have hti' : (s.view t).timed=true := by
    change s.timer.linked t=true
    rw [Links.linked,(s.timer.mem_iff () t).mp hd]
    rfl
  have ht : t ≤ s.cfg.tskMaxNum := by
    by_contra hn
    have ho := (h.outside t (by omega)).2
    rw [hti'] at ho
    cases ho
  obtain ⟨m,hf,-⟩ := h.tasks t ht
  have hm := (Moved.refl h.rq hf fun hc => (hti hc).tight t ht).expire hti'
  have hnr : ¬(s.view t).bits.ready=true := by
    intro hr
    obtain rfl := hf.eq_ready hr
    exact hf.timer hti'
  dsimp only
  split
  . next hsus =>
    exact ⟨hm.leads h hti ht (fun _ => hsus) fun _ _ hr => absurd hr hnr,hm.runOk hro fun _ => rfl⟩
  next hsus =>
  have hm' := hm.readyAdd (Bool.eq_false_iff.mpr hsus)
  exact ⟨hm'.leads h hti ht (by simp) fun _ _ _ => rfl,hm'.runOk hro fun _ => rfl⟩

lemma osTaskScanLoop_leads (n : Nat) (s1 : Sched) (need : Bool) (hl : Leads c u d s s1)
    (hro : s1.RunOk) (hh : need=false → s1.highestTask=s.highestTask) :
    Leads c u d s (osTaskScanLoop n s1 need).1 ∧ (osTaskScanLoop n s1 need).1.RunOk ∧
      ((osTaskScanLoop n s1 need).2=false →
        (osTaskScanLoop n s1 need).1.highestTask=s.highestTask) := by
  induction n generalizing s1 need with
  | zero => exact ⟨hl,hro,hh⟩
  | succ n ih =>
    unfold osTaskScanLoop
    split
    . exact ⟨hl,hro,hh⟩
    next t _ hlist =>
    split
    . exact ⟨hl,hro,hh⟩
    have hmem : t∈s1.delayList := by
      rw [hlist]
      exact List.mem_cons_self
    obtain ⟨hl',hro'⟩ := expire_leads (d:=d) hl.core hl.tidy hro hmem
    by_cases hsus : ((s1.osTaskExpire t).status t).suspend=true
    . rw [if_pos hsus] at hl' hro' ⊢
      refine ih _ _ (hl.trans hl') hro' fun hn => ?_
      rw [osTaskExpire_highest]
      exact hh hn
    rw [if_neg hsus] at hl' hro' ⊢
    exact ih _ _ (hl.trans hl') hro' nofun

lemma osTaskScan_settles (h : Able c u s) (hb : s.cpu.bgdActive=true) :
    Settles c u d s s.osTaskScan := by
  obtain ⟨hl,hro,hh⟩ := osTaskScanLoop_leads (d:=d) s.delayList.length s false
    (Leads.refl h.core h.tidy) h.run fun _ => rfl
  simp only [osTaskScan]
  split
  . exact .switch hl hb (.inl hro)
  next hn => exact .keep hl hro fun _ => hh (Bool.eq_false_iff.mpr hn)

lemma prtTaskLock_keeps (h : Able c u s) (hb : s.cpu.bgdActive=true) (hc : ¬c)
    (hl : e → s.cpu.uniTaskLock+1<2^16) : Keeps c u d e s s.prtTaskLock where
  cfg := rfl
  core := h.core.setCpu rfl
  run := fun _ => h.run.setCpu rfl id rfl
  tidy := fun hc' => absurd hc' hc
  lock := fun hc' => absurd hc' hc
  cpuOk := by
    intro he hs _
    have hlt := Nat.mod_eq_of_lt (hl he)
    have hne : s.prtTaskLock.cpu.uniTaskLock≠0 := by
      change (s.cpu.uniTaskLock+1)%2^16≠0
      omega
    refine ⟨fun _ => ?_,fun _ hz => absurd hz hne,fun _ hz => absurd hz hne,hs.switches,
      fun hn => absurd (hb.symm.trans hn) (by simp)⟩
    change (if s.cpu.uniTaskLock=0 then false else s.cpu.tskReq)=false
    split
    . rfl
    next hz => exact hs.lock hz
  idle := by
    intro _ _ hi
    exact ⟨hi.real,hi.ready,fun hcr => absurd (h.alive.symm.trans hcr) (by simp)⟩
  switches _ hs := hs.switches

lemma prtTaskUnlock_keeps (h : Able c u s) (hb : s.cpu.bgdActive=true) :
    Keeps c u d e s s.prtTaskUnlock.1 := by
  unfold prtTaskUnlock
  split
  . next h1 =>
    have h0 : Able c u {s with cpu:={s.cpu with uniTaskLock:=0}} :=
      h.setCpu rfl id rfl h.alive
    obtain ⟨hcore,hrun⟩ := osTskSchedule_sound h0.core hb (.inl h0.run)
    dsimp only
    rw [if_pos hb]
    refine ⟨osTskSchedule_cfg,hcore,hrun,fun hc => osTskSchedule_tidy h0.core.rq (h0.tidy hc),
      fun _ hz => absurd (h1.symm.trans hz) (by simp),fun _ hs hcr => ?_,fun _ _ hi => ?_,
      fun _ hs => osTskSchedule_switches h0.core.rq hs.switches⟩
    . exact osTskSchedule_cpuOk h0.core.rq hb (fun hn => absurd rfl hn) hs.switches hcr
    refine osTskSchedule_idle h0.core hb ⟨hi.real,hi.ready,fun hcr => ?_⟩
    exact absurd (h.alive.symm.trans hcr) (by simp)
  split
  . next h1 =>
    have h0 : Able c u {s with cpu:={s.cpu with uniTaskLock:=s.cpu.uniTaskLock-1}} :=
      h.setCpu rfl id rfl h.alive
    have hne : s.cpu.uniTaskLock-1≠0 := by omega
    refine ⟨rfl,h0.core,fun _ => h0.run,h0.tidy,fun _ hz => by omega,fun _ hs _ => ?_,
      fun _ _ hi => ⟨hi.real,hi.ready,fun _ => hne⟩,fun _ hs => hs.switches⟩
    exact ⟨fun _ => hs.lock (by omega),fun _ hz => absurd hz hne,fun _ hz => absurd hz hne,
      hs.switches,fun hn => absurd (hb.symm.trans hn) (by simp)⟩
  exact h.refl.keeps

end Sched

end UniProton
