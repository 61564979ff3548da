import UniProton.Kernel.TaskCalls

namespace UniProton

open Framework Function Sched

namespace Fits

variable {L : Nat} {v : TaskView}

lemma relink (h : Fits L .unused v) (f : TskCb → TskCb)
    (hs : (f v.tcb).taskStatus=v.tcb.taskStatus) (hp : (f v.tcb).priority=v.tcb.priority)
    (ho : (f v.tcb).taskPend=v.tcb.taskPend) (hg : (f v.tcb).origPriority=v.tcb.origPriority) :
    Fits L .unused ⟨f v.tcb,v.cont,some .free,v.timed⟩ :=
  {h.modTcb hs hp ho (le_of_eq_of_le hg h.orig) with loc:=.inl rfl}

end Fits

namespace Sched

variable {c u d e : Prop} {s s1 : Sched} {t : Nat} {m : TskMode}

lemma Core.unused_of_loc (h : s.Core)
    (hl : (s.view t).loc=some .free ∨ (s.view t).loc=some .recycle) :
    t ≤ s.cfg.tskMaxNum ∧ Fits s.cfg.prioLowest .unused (s.view t) := by
  have hle : t ≤ s.cfg.tskMaxNum := by
    rcases hl with hl | hl
    . exact h.le_of_loc hl
    exact h.le_of_loc hl
  obtain ⟨m,hf,-⟩ := h.tasks t hle
  obtain rfl := hf.eq_of_loc_unused hl
  exact ⟨hle,hf⟩

lemma Moved.leads_unused (hm : Moved c u s s1 t m) (h : s.Core) (hti : c → s.Tidy u)
    (hle : t ≤ s.cfg.tskMaxNum) (hf : Fits s.cfg.prioLowest .unused (s.view t))
    (hout : m=.out → (s1.view t).bits.suspend=true) : Leads c u d s s1 := by
  refine hm.leads h hti hle hout fun _ _ hr => ?_
  exact absurd (hf.ready.symm.trans hr) (by simp [TskMode.bits])

lemma Moved.relink (h : Moved c u s s1 t .unused) (hl : (s1.view t).loc.isSome=true) :
    Moved c u s ((s1.pendDelete t).pendTailAdd t .free) t .unused := by
  have hne : ∀ p, (s1.view t).loc≠some (.ready p) := by
    intro p hp
    have ha := h.fits.loc
    simp [TskMode.At,hp] at ha
  refine h.step ?_ (h.fits.relink id rfl rfl rfl rfl)
    ((h.rq.pendDelete hne).pendInsert _ (by simp)) ?_ ?_
    ⟨rfl,rfl,rfl,rfl⟩
  . rw [pendTailAdd_view,pendDelete_view]
    simp only [update_self,update_idem]
    rfl
  . intro _
    refine (pendTailAdd_faults (h:=.free) (s:=s1.pendDelete t) ?_).trans (pendDelete_faults hl)
    rw [pendDelete_view,update_self]
    rfl
  intro hc
  exact ⟨(h.tight hc).timed,(h.tight hc).cont⟩

lemma osTskRecycleLoop_leads (n : Nat) (s1 : Sched) (hl : Leads c u d s s1) (hro : s1.RunOk) :
    Leads c u d s (osTskRecycleLoop n s1) ∧ (osTskRecycleLoop n s1).RunOk ∧
      (osTskRecycleLoop n s1).highestTask=s1.highestTask := by
  induction n generalizing s1 with
  | zero => exact ⟨hl,hro,rfl⟩
  | succ n ih =>
    unfold osTskRecycleLoop
    split
    . exact ⟨hl,hro,rfl⟩
    next t _ hlist =>
    have hloc : (s1.view t).loc=some .recycle := Links.head_loc hlist
    obtain ⟨hle,hf⟩ := hl.core.unused_of_loc (.inr hloc)
    have hm := (Moved.refl hl.core.rq hf fun hc => (hl.tidy hc).tight t hle).relink
      (Option.isSome_of_eq_some hloc)
    have hl' := hm.leads_unused (d:=d) hl.core hl.tidy hle hf nofun
    have hro' : ((s1.pendDelete t).pendTailAdd t .free).RunOk := hm.runOk hro fun he => by
      subst he
      exact hro.runnable_of hf hle
    obtain ⟨h1,h2,h3⟩ := ih _ (hl.trans hl') hro'
    exact ⟨h1,h2,h3⟩

lemma osTskRecycle_leads (h : Able c u s) : Leads c u d s s.osTskRecycle ∧ s.osTskRecycle.RunOk ∧
      s.osTskRecycle.highestTask=s.highestTask :=
  osTskRecycleLoop_leads _ s (Leads.refl h.core h.tidy) h.run

lemma Moved.giveBack (h : Moved c u s s1 t .unused) (hl : (s1.view t).loc=some .free)
    (kthread : Bool) :
    Moved c u s ((Kernel.takeTcb s1 t kthread).pendInsert t .free 0) t .unused := by
  have hne : ∀ p, (s1.view t).loc≠some (.ready p) := by
    rw [hl]
    nofun
  have hv : (Kernel.takeTcb s1 t kthread).view =
      update s1.view t ((s1.view t).unlink.modTcb fun c =>
        {c with kthreadTsk:=if kthread then some .uninterruptible else c.kthreadTsk}) := by
    rw [Kernel.takeTcb,modTcb_view,pendDelete_view]
    simp only [update_self,update_idem]
  refine h.step ?_ (h.fits.relink (fun c =>
    {c with kthreadTsk:=if kthread then some .uninterruptible else c.kthreadTsk}) rfl rfl rfl
      rfl)
    (((h.rq.pendDelete hne).modTcb _).pendInsert 0 nofun) ?_ ?_ ⟨rfl,rfl,rfl,rfl⟩
  . rw [pendInsert_view,hv]
    simp only [update_self,update_idem]
    rfl
  . intro _
    refine (pendInsert_faults (h:=.free) (s:=Kernel.takeTcb s1 t kthread) ?_).trans
      (pendDelete_faults (Option.isSome_of_eq_some hl))
    rw [hv,update_self]
    rfl
  intro hc
  exact ⟨(h.tight hc).timed,(h.tight hc).cont⟩

lemma Moved.create (h : Moved c u s s1 t .unused) (hl : (s1.view t).loc=some .free)
    (kthread : Bool) {p : Nat} (hp : p ≤ s.cfg.prioLowest) :
    Moved c u s ((((Kernel.takeTcb s1 t kthread).timerInit t).modTcb t
      (osTskCreateTcbInit p)).setCont t .user) t .out := by
  have hne : ∀ p, (s1.view t).loc≠some (.ready p) := by
    rw [hl]
    nofun
  have hf := h.fits.create hp (f:=fun c => osTskCreateTcbInit p
    {c with kthreadTsk:=if kthread then some .uninterruptible else c.kthreadTsk}) rfl rfl rfl
  have hr : (s1.view t).bits.running=false := congrArg TskStatus.running (h.fits.unused rfl)
  have hfaults : ((Kernel.takeTcb s1 t kthread).timerInit t).faults=s1.faults :=
    (if_neg fun hm => h.fits.timer hm).trans (pendDelete_faults (Option.isSome_of_eq_some hl))
  have hq : (Kernel.takeTcb s1 t kthread).RqOk := (h.rq.pendDelete hne).modTcb _
  have hrq : ((Kernel.takeTcb s1 t kthread).timerInit t).RqOk := ⟨hq.bitmap,hq.highest⟩
  refine h.step ?_ hf ((hrq.modTcb _).setCont _) (fun _ => hfaults)
    (fun _ => hf.tight_of_runnable rfl fun _ => nofun) ⟨hr.symm,rfl,rfl,rfl⟩
  rw [setCont_view,modTcb_view,timerInit_view,Kernel.takeTcb,modTcb_view,pendDelete_view]
  simp only [update_self,update_idem]
  rfl

lemma prtTaskResume_created (hle : t ≤ s.cfg.tskMaxNum)
    (hs : s.status t={inuse:=true, suspend:=true}) (hb : s.cpu.bgdActive=false) :
    (s.prtTaskResume t).1=((s.modStatus t fun b => {b with suspend:=false}).osTskReadyAdd
      t).kthreadStateSet t .running := by
  have hov : ¬s.pidOverflow t=true := by
    simp only [pidOverflow,decide_eq_true_eq]
    omega
  have hs' : (s.modStatus t fun b => {b with suspend:=false}).status t={inuse:=true} := by
    change ((s.modStatus t fun b => {b with suspend:=false}).view t).bits=_
    rw [modStatus_view,update_self]
    change {s.status t with suspend:=false} = _
    rw [hs]
  have hb' : (((s.modStatus t fun b => {b with suspend:=false}).osTskReadyAdd
      t).kthreadStateSet t .running).cpu.bgdActive=false := hb
  simp [prtTaskResume,hov,hs,osMoveTaskToReady,delayIntEnd,hs',TskStatus.unused,TskStatus.block,hb']

lemma osFirstTimeSwitch_core (h : s.Core) (hgt : s.cfg.tskMaxNum<s.cpu.runningTask)
    (hh : s.highestTask=some t) : s.osFirstTimeSwitch.Core ∧
      s.osFirstTimeSwitch={s with cpu:={s.cpu with runningTask:=t}}.modStatus t fun b =>
        {b with running:=true} := by
  have heq : s.osFirstTimeSwitch={s with cpu:={s.cpu with runningTask:=t}}.modStatus t
      fun b => {b with running:=true} := by
    simp [osFirstTimeSwitch,osTskHighestSet_eq h.rq,hh]
  refine ⟨?_,heq⟩
  rw [heq]
  obtain ⟨hle,hft⟩ := h.highest_ready hh
  have hv : ({s with cpu:={s.cpu with runningTask:=t}}.modStatus t fun b =>
      {b with running:=true}).view=update s.view t ((s.view t).modStatus fun b =>
        {b with running:=true}) := modStatus_view _ t _
  constructor
  . intro t' ht'
    rw [hv]
    by_cases e : t'=t
    . subst e
      rw [update_self]
      exact ⟨.ready,hft.setRunning nofun,nofun⟩
    rw [update_of_ne e]
    exact h.tasks t' ht'
  . intro t' ht'
    exact h.outside t' ht'
  . intro t' ht'
    rw [hv]
    by_cases e : t'=t
    . subst e
      rw [update_self]
      exact h.pids t' ht'
    rw [update_of_ne e]
    exact h.pids t' ht'
  . exact ⟨h.rq.bitmap,h.rq.highest⟩
  intro t' ht'
  change t' ≤ s.cfg.tskMaxNum at ht'
  change _=decide (t=t')
  rw [hv]
  by_cases e : t'=t
  . subst e
    rw [update_self,decide_eq_true rfl]
    rfl
  rw [update_of_ne e,h.running t' ht',decide_eq_false (by omega),decide_eq_false (Ne.symm e)]

lemma firstStart_keeps (h : Able c u s) (hb : s.cpu.bgdActive=false) (hl : Leads c u d s s1)
    (hle : t ≤ s.cfg.tskMaxNum) (hf : Fits s.cfg.prioLowest .out (s1.view t))
    (hst : s1.status t={inuse:=true, suspend:=true}) {s2 s3 s4 : Sched}
    (h2 : s2=(s1.prtTaskResume t).1)
    (h3 : s3={s2 with cpu:={s2.cpu with idleTaskId:=t}}.osTskHighestSet)
    (h4 : s4={s3 with cpu:={s3.cpu with bgdActive:=true, tskReq:=true}}) :
    Keeps c u d e s s4.osFirstTimeSwitch := by
  have hle1 : t ≤ s1.cfg.tskMaxNum := by
    rw [hl.cfg]
    exact hle
  have hm : Moved c u s1 s1 t .out := by
    refine Moved.refl hl.core.rq ?_ fun hc => (hl.tidy hc).tight t hle1
    rw [hl.cfg]
    exact hf
  have hm2 : Moved c u s1 s2 t .ready := by
    have hsus : ((s1.modStatus t fun b => {b with suspend:=false}).view t).bits.suspend =
        false := by
      rw [modStatus_view,update_self]
      rfl
    rw [h2,prtTaskResume_created hle1 hst (by rw [hl.cpu]; exact hb)]
    exact ((hm.setSuspend nofun nofun false).readyAdd hsus).kthreadStateSet .running
  have hcore2 := hm2.core hl.core hle1 nofun
  have hti2 := hm2.tidy hl.tidy
  have hcpu : s2.cpu=s.cpu := hm2.cpu.trans hl.cpu
  have hcfg : s2.cfg=s.cfg := hm2.cfg.trans hl.cfg
  have hcore3 : Core {s2 with cpu:={s2.cpu with idleTaskId:=t}} := hcore2.setCpu rfl
  rw [osTskHighestSet_eq hcore3.rq] at h3
  subst h3
  have hcore4 : s4.Core := by
    rw [h4]
    exact hcore3.setCpu rfl
  have hr : (s4.view t).bits.ready=true := by
    rw [h4]
    exact hm2.fits.ready
  have hcfg4 : s4.cfg=s.cfg := by
    rw [h4]
    exact hcfg
  have hgt : s4.cfg.tskMaxNum<s4.cpu.runningTask := by
    rw [hcfg4,h4]
    rw [hcpu]
    exact h.run.early hb
  obtain ⟨t',ht'⟩ := hcore4.highest_isSome (by rw [hcfg4]; exact hle) hr
  obtain ⟨hcore,heq⟩ := osFirstTimeSwitch_core hcore4 hgt ht'
  obtain ⟨hle',hf'⟩ := hcore4.highest_ready ht'
  have hv : s4.osFirstTimeSwitch.view=update s4.view t' ((s4.view t').modStatus fun b =>
      {b with running:=true}) := by
    rw [heq]
    exact modStatus_view _ t' _
  have hlock : s4.cpu.uniTaskLock=s.cpu.uniTaskLock := by
    rw [h4]
    exact (congrArg Cpu.uniTaskLock hcpu :)
  have hbg : s4.cpu.bgdActive=true := by rw [h4]
  have hsw : s.CpuOk → ∀ w∈s4.osFirstTimeSwitch.cpu.switches, w.lock=0 := by
    intro hs w hw
    apply hs.switches w
    rw [heq,h4] at hw
    rw [hcpu] at hw
    exact hw
  constructor
  . rw [heq]
    exact hcfg4
  . exact hcore
  . intro _
    refine ⟨fun _ => ⟨.ready,?_,rfl⟩,fun _ => ?_,fun hn => ?_,?_⟩
    . rw [hv,heq]
      change Fits s4.cfg.prioLowest .ready (update s4.view t' _ t')
      rw [update_self]
      exact hf'.setRunning nofun
    . rw [heq]
      exact hle'
    . rw [heq] at hn
      exact absurd (hbg.symm.trans hn) (by simp)
    rw [heq]
    exact Nat.le_succ_of_le hle'
  . intro hc
    have hti4 : s4.Tidy u := by
      rw [h4]
      exact ((hti2 hc).setCpu _).setCpu _
    constructor
    . rw [heq]
      exact hti4.faults
    intro a ha
    rw [heq] at ha
    rw [hv]
    by_cases hat : a=t'
    . subst hat
      rw [update_self]
      exact ⟨(hti4.tight a ha).timed,(hti4.tight a ha).cont⟩
    rw [update_of_ne hat]
    exact hti4.tight a ha
  . intro _ hz
    rw [heq]
    exact hlock.trans hz
  . intro _ hs _
    have hz : s4.cpu.uniTaskLock=0 := hlock.trans (hs.early hb)
    have hsw' := hsw hs
    rw [heq] at hsw' ⊢
    exact ⟨fun hn => absurd hz hn,fun _ _ hne => absurd ht' hne,fun _ _ => ht',hsw',fun _ => hz⟩
  . intro _ _ _
    have hid : s4.osFirstTimeSwitch.cpu.idleTaskId=t := by
      rw [heq,h4]
      rfl
    refine ⟨?_,fun _ => ?_,fun hcr => ?_⟩
    . rw [hid,heq]
      rw [hcfg4]
      exact hle
    . rw [hid,hv]
      by_cases htt : t=t'
      . subst htt
        rw [update_self]
        exact hr
      rw [update_of_ne htt]
      exact hr
    rw [heq,h4] at hcr
    change s2.cpu.crashed=true at hcr
    rw [hcpu,h.alive] at hcr
    cases hcr
  exact fun _ => hsw

end Sched

namespace Kernel

variable {c u d e : Prop} {k : Kernel}

lemma osTaskCreateOnly_cases (k : Kernel) (p : TskInitParam) (memOk kthread : Bool) :
    (∃ x, k.osTaskCreateOnly p memOk kthread=(k,.error x)) ∨
    (∃ x, k.osTaskCreateOnly p memOk kthread =
      ({k with sched:=k.sched.osTskRecycle},.error x)) ∨
    (∃ t l x, k.sched.osTskRecycle.pend.lists .free=t::l ∧
      k.osTaskCreateOnly p memOk kthread =
        ({k with
          sched := (takeTcb k.sched.osTskRecycle t kthread).pendInsert t .free 0},.error x)) ∨
    (∃ t l, k.sched.osTskRecycle.pend.lists .free=t::l ∧ p.taskPrio≤k.sched.cfg.prioLowest ∧
      k.osTaskCreateOnly p memOk kthread =
        ({k with
          sched := (((takeTcb k.sched.osTskRecycle t kthread).timerInit t).modTcb t
            (osTskCreateTcbInit p.taskPrio)).setCont t .user
          semB := k.semB.clear t},.ok t)) := by
  have hprio : osTaskCreateParaCheck k.sched.cfg p=.osOk → p.taskPrio≤k.sched.cfg.prioLowest := by
    intro hok
    by_contra hlt
    simp only [osTaskCreateParaCheck] at hok
    have hlt' := not_le.mp hlt
    repeat' split at hok
    all_goals cases hok
  simp only [osTaskCreateOnly]
  split
  . exact .inl ⟨_,rfl⟩
  next hok =>
  split
  . exact .inr (.inl ⟨_,rfl⟩)
  next t l hl =>
  split
  . exact .inr (.inr (.inl ⟨t,l,_,hl,rfl⟩))
  exact .inr (.inr (.inr ⟨t,l,hl,hprio (not_not.mp hok),rfl⟩))

lemma osTaskCreateOnly_settles (h : Able c u k.sched) (p : TskInitParam) (memOk kthread : Bool) :
    Settles c u d k.sched (k.osTaskCreateOnly p memOk kthread).1.sched := by
  obtain ⟨hl,hro,hh⟩ := osTskRecycle_leads (d:=d) h
  rcases k.osTaskCreateOnly_cases p memOk kthread with ⟨x,he⟩ | ⟨x,he⟩ | ⟨t,l,x,hlist,he⟩ |
    ⟨t,l,hlist,hp,he⟩ <;> rw [he]
  . exact h.refl
  . exact .keep hl hro fun _ => hh
  all_goals
    have hloc : (k.sched.osTskRecycle.view t).loc=some .free := Links.head_loc hlist
    obtain ⟨hle,hf⟩ := hl.core.unused_of_loc (.inl hloc)
    have hm := Moved.refl hl.core.rq hf fun hc => (hl.tidy hc).tight t hle
    have hnr : t≠k.sched.osTskRecycle.cpu.runningTask := by
      rintro rfl
      exact absurd (hro.runnable_of hf hle) (by simp [TskMode.runnable])
  . have hm' := hm.giveBack hloc kthread
    exact .keep (hl.trans (hm'.leads_unused hl.core hl.tidy hle hf (by simp)))
      (hm'.runOk hro fun he => absurd he hnr) fun _ => hh
  have hp' : p.taskPrio≤k.sched.osTskRecycle.cfg.prioLowest := by
    rw [hl.cfg]
    exact hp
  have hm' := hm.create hloc kthread hp'
  refine .keep (hl.trans (hm'.leads_unused hl.core hl.tidy hle hf fun _ => ?_))
    (hm'.runOk hro fun he => absurd he hnr) fun _ => hh
  rw [setCont_view,update_self,modTcb_view,update_self]
  rfl

lemma create_created (h : Able c u k.sched) {p t : Nat} {l : List Nat}
    (hlist : k.sched.osTskRecycle.pend.lists .free=t::l) (kthread : Bool)
    (hp : p≤k.sched.cfg.prioLowest) :
    let s1 := (((takeTcb k.sched.osTskRecycle t kthread).timerInit t).modTcb t
      (osTskCreateTcbInit p)).setCont t .user
    Leads c u d k.sched s1 ∧ t≤k.sched.cfg.tskMaxNum ∧
      Fits k.sched.cfg.prioLowest .out (s1.view t) ∧
      s1.status t={inuse:=true, suspend:=true} := by
  obtain ⟨hl,-,-⟩ := osTskRecycle_leads (d:=d) h
  have hloc : (k.sched.osTskRecycle.view t).loc=some .free := Links.head_loc hlist
  obtain ⟨hle,hf⟩ := hl.core.unused_of_loc (.inl hloc)
  have hp' : p≤k.sched.osTskRecycle.cfg.prioLowest := by
    rw [hl.cfg]
    exact hp
  have hm := (Moved.refl hl.core.rq hf fun hc => (hl.tidy hc).tight t hle).create hloc kthread hp'
  have hst : ((((takeTcb k.sched.osTskRecycle t kthread).timerInit t).modTcb t
      (osTskCreateTcbInit p)).setCont t .user).status t={inuse:=true, suspend:=true} := by
    simp [status,setCont,modTcb,osTskCreateTcbInit]
  refine ⟨hl.trans (hm.leads_unused hl.core hl.tidy hle hf fun _ => ?_),?_,?_,hst⟩
  . exact congrArg TskStatus.suspend hst
  . rw [← hl.cfg]
    exact hle
  rw [← hl.cfg]
  exact hm.fits

lemma osActivate_keeps (h : Able c u k.sched) (hb : k.sched.cpu.bgdActive=false)
    (memOk : Bool) : Keeps c u d e k.sched (k.osActivate memOk).1.sched := by
  have hset := osTaskCreateOnly_settles (d:=d) h
    ⟨true,k.sched.cfg.prioLowest,k.sched.cfg.idleStackSize,0,some "IdleTask"⟩ memOk false
  simp only [osActivate]
  rcases k.osTaskCreateOnly_cases
    ⟨true,k.sched.cfg.prioLowest,k.sched.cfg.idleStackSize,0,some "IdleTask"⟩ memOk false with
    ⟨x,he⟩ | ⟨x,he⟩ | ⟨t,l,x,hlist,he⟩ | ⟨t,l,hlist,hp,he⟩
  . rw [he] at hset ⊢
    exact hset.keeps
  . rw [he] at hset ⊢
    exact hset.keeps
  . rw [he] at hset ⊢
    exact hset.keeps
  rw [he]
  obtain ⟨hl,hle,hf,hst⟩ := create_created (d:=d) h hlist false hp
  exact firstStart_keeps h hb hl hle hf hst rfl rfl rfl

end Kernel

end UniProton
