import UniProton.Kernel.TaskCalls

namespace UniProton

open Framework Function

namespace Fits

variable {L : Nat} {m : TskMode} {v : TaskView}

lemma delete (h : Fits L m v) {hd : PendHead} (hh : hd=.free ∨ hd=.recycle) :
    Fits L .unused ⟨{v.tcb with taskStatus:={}},v.cont,some hd,false⟩ where
  inuse := rfl
  ready := rfl
  pend := rfl
  queuePend := rfl
  eventPend := rfl
  rwPend := rfl
  delay := rfl
  delayInterruptible := rfl
  waitqueuePend := rfl
  holdSignal := rfl
  suspend := nofun
  unused := fun _ => rfl
  loc := by
    rcases hh with rfl | rfl
    . exact .inl rfl
    exact .inr rfl
  obj := trivial
  ctx := h.plain
  prio := h.prio
  orig := h.orig
  timer := nofun
  busy := nofun
  handed := nofun

lemma loc_none (h : Fits L m v) (hu : m≠.unused)
    (hp : (v.bits.pend || v.bits.queuePend || v.bits.rwPend)=false)
    (hr : v.bits.ready=false) : v.loc=none := by
  rw [h.pend,h.queuePend,h.rwPend] at hp
  rw [h.ready] at hr
  have hl := h.loc
  cases m <;> simp_all [TskMode.bits,TskMode.At]

lemma loc_of_list (h : Fits L m v) (hp : (v.bits.pend || v.bits.queuePend || v.bits.rwPend)=true) :
    v.loc.isSome=true ∧ (∀ p, v.loc≠some (.ready p)) ∧ v.bits.ready=false := by
  rw [h.pend,h.queuePend,h.rwPend] at hp
  rw [h.ready]
  have hl := h.loc
  cases m <;> simp_all [TskMode.bits,TskMode.At]

lemma timed_none (h : Fits L m v) (hq : (v.bits.delay || v.bits.timeout)=false) :
    v.timed=false := by
  by_contra ht
  have hT := h.timer (by simpa using ht)
  rw [h.delay] at hq
  cases m <;> simp_all [TskMode.Timer,TskMode.bits]

end Fits

namespace Sched

variable {c u d e : Prop} {s s1 : Sched} {t : Nat} {m : TskMode}

lemma osTaskDeleteResInit_cfg : (s.osTaskDeleteResInit t).cfg=s.cfg := by
  simp only [osTaskDeleteResInit]
  repeat' split
  all_goals rfl

lemma osTaskDeleteResInit_cpu : (s.osTaskDeleteResInit t).cpu=s.cpu := by
  simp only [osTaskDeleteResInit]
  repeat' split
  all_goals rfl

lemma osTaskDeleteResInit_view (hf : Fits s.cfg.prioLowest m (s.view t)) (hu : m≠.unused) :
    ∃ b, b.running=(s.view t).bits.running ∧ (s.osTaskDeleteResInit t).view=update s.view t
        ⟨{(s.view t).tcb with taskStatus:=b},(s.view t).cont,none,false⟩ := by
  have hw : (s.status t).waitqueuePend=false := hf.waitqueuePend
  have hn := hf.loc_none hu
  have htn := hf.timed_none
  unfold osTaskDeleteResInit
  simp only [hw,Bool.false_eq_true,if_false]
  cases hp : ((s.status t).pend || (s.status t).queuePend || (s.status t).rwPend) <;>
    cases hq : ((s.status t).delay || (s.status t).timeout) <;>
    cases hr : (s.status t).ready <;>
    simp only [Bool.false_eq_true,if_false,if_true,modStatus_view,timerDelete_view,
      pendDelete_view,osTskReadyDel_view,update_self,update_idem]
  -- in each case the nodes that are not unlinked here were not linked
  all_goals
    refine ⟨_,?_,congrArg _ (TaskView.ext rfl rfl ?_ ?_)⟩
    . rfl
    . first | rfl | exact hn hp hr
    first | rfl | exact htn hq

lemma osTaskDeleteResInit_rq (h : s.RqOk) (hf : Fits s.cfg.prioLowest m (s.view t)) :
    (s.osTaskDeleteResInit t).RqOk := by
  have hw : (s.status t).waitqueuePend=false := hf.waitqueuePend
  have hp' := hf.loc_of_list
  have hr' : ∀ p, (s.view t).loc=some (.ready p) → p=(s.view t).tcb.priority :=
    fun p hl => (hf.eq_of_loc_ready hl).2
  have hlt := s.prio_lt hf.prio
  unfold osTaskDeleteResInit
  simp only [hw,Bool.false_eq_true,if_false]
  refine RqOk.modStatus ?_ _
  cases hp : ((s.status t).pend || (s.status t).queuePend || (s.status t).rwPend) with
  | true =>
    obtain ⟨-,hne,hr⟩ := hp' hp
    change (s.status t).ready=false at hr
    simp only [hr,if_true,Bool.false_eq_true,if_false]
    split
    . exact (h.pendDelete hne).timerDelete
    exact h.pendDelete hne
  | false =>
    split <;> split
    . exact h.timerDelete.osTskReadyDel hlt hr'
    . exact h.osTskReadyDel hlt hr'
    . exact h.timerDelete
    exact h

lemma osTaskDeleteResInit_faults (hf : Fits s.cfg.prioLowest m (s.view t))
    (ht : (s.view t).bits.delay=true ∨ (s.view t).bits.timeout=true →
      (s.view t).timed=true) : (s.osTaskDeleteResInit t).faults=s.faults := by
  have hw : (s.status t).waitqueuePend=false := hf.waitqueuePend
  have hp' := hf.loc_of_list
  have hrl : (s.status t).ready=true → (s.view t).loc.isSome=true := by
    intro hr
    obtain rfl := hf.eq_ready hr
    exact Option.isSome_of_eq_some hf.loc
  have hq' : ((s.status t).delay || (s.status t).timeout)=true → (s.view t).timed=true :=
    fun hq => ht ((Bool.or_eq_true _ _).mp hq)
  unfold osTaskDeleteResInit
  simp only [hw,Bool.false_eq_true,if_false]
  cases hp : ((s.status t).pend || (s.status t).queuePend || (s.status t).rwPend) with
  | true =>
    obtain ⟨hl,-,hr⟩ := hp' hp
    change (s.status t).ready=false at hr
    simp only [hr,if_true,Bool.false_eq_true,if_false]
    split
    . next hq =>
      exact (timerDelete_faults (s:=s.pendDelete t) (hq' hq)).trans (pendDelete_faults hl)
    exact pendDelete_faults hl
  | false =>
    split <;> split
    . next hr hq =>
      exact (osTskReadyDel_faults (s:=s.timerDelete t) (hrl hr)).trans
        (timerDelete_faults (hq' hq))
    . next hr _ => exact osTskReadyDel_faults (hrl hr)
    . next _ hq => exact timerDelete_faults (hq' hq)
    rfl

lemma osTaskDeleteResInit_highest (h : s.Core) (hf : Fits s.cfg.prioLowest m (s.view t))
    (hh : s.highestTask=some s.cpu.runningTask) (hne : s.cpu.runningTask≠t) :
    (s.osTaskDeleteResInit t).highestTask=s.highestTask := by
  have hq : (s.osTskReadyDel t).RqOk :=
    h.rq.osTskReadyDel (s.prio_lt hf.prio) fun p hl => (hf.eq_of_loc_ready hl).2
  have hdel := h.highest_readyDel hh hne hq
  have hw : (s.status t).waitqueuePend=false := hf.waitqueuePend
  have hp' := hf.loc_of_list
  unfold osTaskDeleteResInit
  simp only [hw,Bool.false_eq_true,if_false]
  cases hp : ((s.status t).pend || (s.status t).queuePend || (s.status t).rwPend) with
  | true =>
    obtain ⟨-,-,hr⟩ := hp' hp
    change (s.status t).ready=false at hr
    simp only [hr,if_true,Bool.false_eq_true,if_false]
    split <;> rfl
  | false =>
    split <;> split
    . exact hdel.trans hh.symm
    . exact hdel.trans hh.symm
    . rfl
    rfl

lemma Moved.delete (h : Moved c u s s1 t m) (hu : m≠.unused) (hr : (s1.view t).bits.running=false)
    (ht : c → (s1.view t).bits.timeout=true → (s1.view t).bits.waiting=true) :
    Moved c u s (((s1.osTaskDeleteResInit t).modStatus t fun _ => {}).pendInsert t .free 0) t
      .unused := by
  have hf : Fits s1.cfg.prioLowest m (s1.view t) := by
    rw [h.cfg]
    exact h.fits
  obtain ⟨b,-,hv⟩ := osTaskDeleteResInit_view hf hu
  have hf' := h.fits.delete (.inl rfl : PendHead.free=.free ∨ _)
  have hl : ((s1.osTaskDeleteResInit t).view t).loc=none := by
    rw [hv,update_self]
  refine h.step ?_ hf' (((osTaskDeleteResInit_rq h.rq hf).modStatus _).pendInsert 0 nofun) ?_ ?_
    ⟨hr.symm,rfl,osTaskDeleteResInit_cfg,osTaskDeleteResInit_cpu⟩
  . rw [pendInsert_view,modStatus_view,hv]
    simp only [update_self,update_idem]
    rfl
  . intro hc
    apply (pendInsert_faults (s:=(s1.osTaskDeleteResInit t).modStatus t _) hl).trans
    refine osTaskDeleteResInit_faults hf fun hdt => (h.tight hc).timed ?_
    rcases hdt with hdl | hto
    . exact .inl hdl
    exact .inr ⟨ht hc hto,hto⟩
  intro _
  refine ⟨?_,fun _ => nofun⟩
  rintro (hdl | ⟨-,hto⟩)
  . cases hdl
  cases hto

lemma zombieInPlace_view (hz : t≠s.zombie) (t' : Nat) : (s.zombieInPlace t).view t' =
      if t'=t then ((s.view t).link .recycle).modStatus fun _ => {} else if t'=s.zombie then
        (s.view t').modTcb fun c => {c with taskPid:=t, taskStatus:=(s.view t).bits}
      else s.view t' := by
  have he : (s.zombieInPlace t).view=(((s.pendTailAdd t .recycle).modTcb s.zombie fun c =>
      {c with taskPid:=t, taskStatus:=(s.view t).bits}).modStatus t fun _ => {}).view := rfl
  rw [he,modStatus_view,modTcb_view,pendTailAdd_view]
  by_cases h : t'=t
  . subst h
    simp [hz]
  by_cases hz' : t'=s.zombie
  . subst hz'
    simp [h]
  simp [h,hz']

lemma Moved.deleteSelf (hm : Moved c u s s1 t m) (h : s.Core) (hti : c → s.Tidy u)
    (hu : m≠.unused) (hle : t ≤ s.cfg.tskMaxNum) (hrun : s.cpu.runningTask=t)
    (ht : c → (s1.view t).bits.timeout=true → (s1.view t).bits.waiting=true) :
    ((s1.osTaskDeleteResInit t).zombieInPlace t).Core ∧
      (c → ((s1.osTaskDeleteResInit t).zombieInPlace t).Tidy u) ∧ ∀ t' ≤ s.cfg.tskMaxNum, t'≠t →
        ((s1.osTaskDeleteResInit t).zombieInPlace t).view t'=s.view t' := by
  have hf : Fits s1.cfg.prioLowest m (s1.view t) := by
    rw [hm.cfg]
    exact hm.fits
  obtain ⟨b,-,hv⟩ := osTaskDeleteResInit_view hf hu
  have hcfg : (s1.osTaskDeleteResInit t).cfg=s.cfg := osTaskDeleteResInit_cfg.trans hm.cfg
  have hzo : (s1.osTaskDeleteResInit t).zombie=s.cfg.tskMaxNum+1 := by
    rw [zombie,hcfg]
  have hself : ((s1.osTaskDeleteResInit t).zombieInPlace t).view t =
      ⟨{(s1.view t).tcb with taskStatus:={}},(s1.view t).cont,some .recycle,false⟩ := by
    rw [zombieInPlace_view (by omega),if_pos rfl,hv,update_self]
    rfl
  have hreal : ∀ t' ≤ s.cfg.tskMaxNum, t'≠t →
      ((s1.osTaskDeleteResInit t).zombieInPlace t).view t'=s.view t' := by
    intro t' ht' hne
    rw [zombieInPlace_view (by omega),if_neg hne,if_neg (by omega),hv,
      update_of_ne hne,hm.frame t' hne]
  have hcfg' : ((s1.osTaskDeleteResInit t).zombieInPlace t).cfg=s.cfg := hcfg
  refine ⟨⟨?_,?_,?_,?_,?_⟩,?_,hreal⟩
  . intro t' ht'
    rw [hcfg'] at ht' ⊢
    by_cases e : t'=t
    . subst e
      rw [hself]
      exact ⟨.unused,hm.fits.delete (.inr rfl),by simp⟩
    rw [hreal t' ht' e]
    exact h.tasks t' ht'
  . intro t' ht'
    rw [hcfg'] at ht'
    have hne : t'≠t := by omega
    rw [zombieInPlace_view (by omega),if_neg hne,hv,update_of_ne hne,hm.frame t' hne]
    split
    . exact h.outside t' ht'
    exact h.outside t' ht'
  . intro t' ht'
    rw [hcfg'] at ht'
    by_cases e : t'=t
    . subst e
      rw [hself]
      exact hm.pid.trans (h.pids t' ht')
    rw [hreal t' ht' e]
    exact h.pids t' ht'
  . have hq : ((s1.osTaskDeleteResInit t).pendTailAdd t .recycle).RqOk :=
      (osTaskDeleteResInit_rq hm.rq hf).pendInsert _ (by simp)
    exact ⟨hq.bitmap,hq.highest⟩
  . intro t' ht'
    rw [hcfg'] at ht'
    change _=decide ((s1.osTaskDeleteResInit t).zombie=t')
    rw [hzo,decide_eq_false (by omega)]
    by_cases e : t'=t
    . subst e
      rw [hself]
      rfl
    rw [hreal t' ht' e,h.running t' ht',hrun,decide_eq_false (Ne.symm e)]
  intro hc
  have hl : ((s1.osTaskDeleteResInit t).view t).loc=none := by
    rw [hv,update_self]
  constructor
  . change FaultsOk u ((s1.osTaskDeleteResInit t).pendTailAdd t .recycle).faults
    rw [pendTailAdd_faults hl,osTaskDeleteResInit_faults hf,hm.faults hc]
    . exact (hti hc).faults
    rintro (hdl | hto)
    . exact (hm.tight hc).timed (.inl hdl)
    exact (hm.tight hc).timed (.inr ⟨ht hc hto,hto⟩)
  intro t' ht'
  rw [hcfg'] at ht'
  by_cases e : t'=t
  . subst e
    rw [hself]
    refine ⟨?_,fun _ => (by rintro ⟨⟩)⟩
    rintro (hdl | ⟨-,hto⟩)
    . cases hdl
    cases hto
  rw [hreal t' ht' e]
  exact (hti hc).tight t' ht'

lemma osMainSchedule_keeps (h : s1.Core) (hti : c → s1.Tidy u) (hcfg : s1.cfg=s.cfg)
    (hb : s1.cpu.bgdActive=true) (hr : s1.cpu.tskReq=true)
    (hlk : c → s.cpu.uniTaskLock=0 → s1.cpu.uniTaskLock=0)
    (hz : s.CpuOk → s1.cpu.uniTaskLock=0) (hw : s.CpuOk → ∀ w∈s1.cpu.switches, w.lock=0)
    (hid : d → s.IdleOk → s1.IdleOk) : Keeps c u d e s s1.osMainSchedule := by
  rcases Option.eq_none_or_eq_some s1.highestTask with hh | ⟨t,hh⟩
  . rw [osMainSchedule_none hr hh]
    refine ⟨hcfg,h.setCpu rfl,nofun,fun hc => (hti hc).setCpu _,hlk,nofun,?_,fun _ => hw⟩
    intro hd _ hi
    have hi' := hid hd hi
    obtain ⟨t,ht⟩ := h.highest_isSome hi'.real (hi'.ready hb)
    rw [hh] at ht
    cases ht
  rw [osMainSchedule_some hr hh]
  have hsw : s.CpuOk → ∀ w∈(s1.switchTo t).cpu.switches, w.lock=0 := by
    intro hs w hwm
    rcases List.mem_cons.mp hwm with rfl | hwm
    . exact hz hs
    exact hw hs w hwm
  refine ⟨hcfg,h.switchTo hh,fun _ => h.switchTo_runOk hh hb,fun hc => (hti hc).switchTo,
    hlk,fun _ hs _ => ?_,fun hd _ hi => ?_,fun _ => hsw⟩
  . exact ⟨fun _ => rfl,fun _ _ hne => absurd hh hne,fun _ _ => hh,hsw hs,
      fun hn => absurd (hb.symm.trans hn) (by simp)⟩
  have hi' := hid hd hi
  refine ⟨hi'.real,fun _ => ?_,hi'.alive⟩
  rw [switchTo_view_eq]
  exact hi'.ready hb

/-- A deleted running task: the zombie takes its place until the processor is given away, which
an interrupt leaves to its tail. -/
lemma osTaskDeleteRunning_keeps {x : Sched} (hx : (x.zombieInPlace t).Core)
    (hti : c → (x.zombieInPlace t).Tidy u)
    (hreal : ∀ t' ≤ s.cfg.tskMaxNum, t'≠t → (x.zombieInPlace t).view t'=s.view t')
    (hcfg : x.cfg=s.cfg) (hidx : x.cpu.idleTaskId=s.cpu.idleTaskId)
    (hsw : x.cpu.switches=s.cpu.switches) (hb : s.cpu.bgdActive=true)
    (hbx : x.cpu.bgdActive=true) (halive : x.cpu.crashed=false)
    (hz : x.cpu.uniTaskLock=0) (hne : t≠s.cpu.idleTaskId) :
    Keeps c u d e s (x.osTaskDeleteRunning t) := by
  have hidle : s.IdleOk → (x.zombieInPlace t).IdleOk := by
    intro hi
    have hcid : (x.zombieInPlace t).cpu.idleTaskId=s.cpu.idleTaskId := hidx
    refine ⟨?_,fun _ => ?_,fun hcr => ?_⟩
    . rw [hcid]
      exact le_of_le_of_eq hi.real (congrArg Cfg.tskMaxNum hcfg).symm
    . rw [hcid,hreal _ hi.real hne.symm]
      exact hi.ready hb
    exact absurd (halive.symm.trans hcr) (by simp)
  have hgt : x.cfg.tskMaxNum<(x.zombieInPlace t).cpu.runningTask := Nat.lt_succ_self _
  have hlog : s.CpuOk → ∀ w∈(x.zombieInPlace t).cpu.switches, w.lock=0 := by
    intro hs w hw
    exact hs.switches w (hsw ▸ hw)
  simp only [osTaskDeleteRunning]
  split
  . next hi =>
    have htc : (x.zombieInPlace t).cpu.taskContext=false := by
      simp only [Cpu.intActive,Bool.or_eq_true] at hi
      rcases hi with hi | hi <;> simp [Cpu.taskContext,hi]
    refine ⟨hcfg,hx,fun _ => ⟨fun hle => absurd hle (not_le.mpr hgt),fun hc => ?_,fun _ => hgt,
      le_rfl⟩,
      hti,fun _ _ => hz,fun _ hs _ => ?_,fun _ _ => hidle,fun _ => hlog⟩
    . exact absurd (htc.symm.trans hc) (by simp)
    refine ⟨fun hn => absurd hz hn,fun _ _ _ => rfl,fun hc => ?_,hlog hs,fun _ => hz⟩
    exact absurd (htc.symm.trans hc) (by simp)
  exact osMainSchedule_keeps hx hti hcfg hbx rfl (fun _ _ => hz) (fun _ => hz) hlog fun _ => hidle

lemma prtTaskDelete_keeps (h : Able c u s) (hb : s.cpu.bgdActive=true) (t : Nat)
    (ht : c → (s.view t).bits.timeout=true → (s.view t).bits.waiting=true) :
    Keeps c u d e s (s.prtTaskDelete t).1 := by
  unfold prtTaskDelete
  split
  . exact h.refl.keeps
  split
  . exact h.refl.keeps
  next hid hov =>
  have hle := le_of_not_pidOverflow hov
  obtain ⟨m,hm,ho⟩ := h.start hle
  have hm1 : Moved c u s (s.modTcb t fun c => {c with kthreadTsk:=none}) t m :=
    hm.modTcb rfl rfl rfl rfl hm.fits.orig
  have hbits : ((s.modTcb t fun c => {c with kthreadTsk:=none}).view t).bits =
      (s.view t).bits := by
    rw [modTcb_view,update_self]
    rfl
  have hh : (s.modTcb t fun c => {c with kthreadTsk:=none}).highestTask=s.highestTask := rfl
  dsimp only
  generalize s.modTcb t (fun c => {c with kthreadTsk:=none})=s1 at hm1 hbits hh ⊢
  have hl1 : Leads c u d s s1 := hm1.leads h.core h.tidy hle
    (fun he => by rw [hbits]; exact ho he) fun _ he => absurd he hid
  have hro : s1.RunOk := hm1.runOk h.run fun he => by
    subst he
    exact h.run.runnable_of hm.fits hle
  split
  . exact (Settles.keep hl1 hro fun _ => hh).keeps
  split
  . exact (Settles.keep hl1 hro fun _ => hh).keeps
  next hun hok =>
  have hu := hm1.fits.ne_unused hun
  have hf : Fits s1.cfg.prioLowest m (s1.view t) := by
    rw [hm1.cfg]
    exact hm1.fits
  have ht1 : c → (s1.view t).bits.timeout=true → (s1.view t).bits.waiting=true := by
    rw [hbits]
    exact ht
  obtain ⟨b,hbr,hv⟩ := osTaskDeleteResInit_view hf hu
  have hrb : ((s1.osTaskDeleteResInit t).status t).running=decide (s.cpu.runningTask=t) := by
    change ((s1.osTaskDeleteResInit t).view t).bits.running=_
    rw [hv,update_self]
    exact hbr.trans (by rw [hbits]; exact h.core.running t hle)
  rw [osTskHighestSet_eq (osTaskDeleteResInit_rq hm1.rq hf)]
  split
  . next hr =>
    have hrun : s.cpu.runningTask=t := by simpa [hrb] using hr
    have hz : s.cpu.uniTaskLock=0 := by
      by_contra hz
      apply hok
      simp [osTaskDelStatusCheck,hm1.cpu,hrun,hz]
    obtain ⟨hcore,hti,hreal⟩ := hm1.deleteSelf h.core h.tidy hu hle hrun ht1
    have hcpu : (s1.osTaskDeleteResInit t).cpu=s.cpu := osTaskDeleteResInit_cpu.trans hm1.cpu
    have hcfg : (s1.osTaskDeleteResInit t).cfg=s.cfg := osTaskDeleteResInit_cfg.trans hm1.cfg
    refine osTaskDeleteRunning_keeps hcore hti hreal hcfg ?_ ?_ hb ?_ ?_ ?_ hid <;> rw [hcpu]
    . exact hb
    . exact h.alive
    exact hz
  next hr =>
  have hrun : s.cpu.runningTask≠t := by simpa [hrb] using hr
  have hr1 : (s1.view t).bits.running=false := by
    rw [hbits,h.core.running t hle,decide_eq_false hrun]
  have hm2 := hm1.delete hu hr1 ht1
  refine (Settles.keep (hm2.leads h.core h.tidy hle nofun fun _ he => absurd he hid)
    (hm2.runOk h.run fun he => absurd he.symm hrun) fun hc => ?_).keeps
  change (s1.osTaskDeleteResInit t).highestTask=_
  rw [osTaskDeleteResInit_highest hl1.core hf _ (by rw [hm1.cpu]; exact hrun),hh]
  rw [hh,hm1.cpu,hc]

lemma prtTaskDelete_running (hle : s.cpu.runningTask ≤ s.cfg.tskMaxNum)
    (hm : Moved c u s (s.modTcb s.cpu.runningTask fun c => {c with kthreadTsk:=none})
      s.cpu.runningTask m) (hr : m.runnable=true) (hne : s.cpu.runningTask≠s.cpu.idleTaskId)
    (hz : s.cpu.uniTaskLock=0) (hq : (s.view s.cpu.runningTask).bits.queueBusy=false)
    (hrun : (s.view s.cpu.runningTask).bits.running=true) :
    (s.prtTaskDelete s.cpu.runningTask).1 =
      ((s.modTcb s.cpu.runningTask fun c => {c with kthreadTsk:=none}).osTaskDeleteResInit
        s.cpu.runningTask).osTaskDeleteRunning s.cpu.runningTask := by
  have hov : ¬s.pidOverflow s.cpu.runningTask=true := by
    simp only [pidOverflow,decide_eq_true_eq]
    omega
  unfold prtTaskDelete
  rw [if_neg hne,if_neg hov]
  have hbits : ((s.modTcb s.cpu.runningTask fun c => {c with kthreadTsk:=none}).view
      s.cpu.runningTask).bits=(s.view s.cpu.runningTask).bits := by
    rw [modTcb_view,update_self]
    rfl
  have hcpu := hm.cpu
  have hcfg := hm.cfg
  generalize s.modTcb s.cpu.runningTask (fun c => {c with kthreadTsk:=none})=s1
    at hm hbits hcpu hcfg ⊢
  have hf : Fits s1.cfg.prioLowest m (s1.view s.cpu.runningTask) := by
    rw [hcfg]
    exact hm.fits
  have hu : m≠.unused := by
    rintro rfl
    cases hr
  have hun : ¬(s1.status s.cpu.runningTask).unused=true := fun hun => hu (hf.eq_unused hun)
  have hok : ¬s1.osTaskDelStatusCheck s.cpu.runningTask≠.osOk := by
    have hb : (s1.status s.cpu.runningTask).queueBusy=false :=
      (congrArg TskStatus.queueBusy hbits).trans hq
    simp [osTaskDelStatusCheck,hcpu,hz,hb]
  obtain ⟨b,hbr,hv⟩ := osTaskDeleteResInit_view hf hu
  have hrb : ((s1.osTaskDeleteResInit s.cpu.runningTask).status s.cpu.runningTask).running =
      true := by
    change ((s1.osTaskDeleteResInit s.cpu.runningTask).view _).bits.running=true
    rw [hv,update_self]
    exact hbr.trans ((congrArg TskStatus.running hbits).trans hrun)
  rw [if_neg hun,if_neg hok,osTskHighestSet_eq (osTaskDeleteResInit_rq hm.rq hf),if_pos hrb]

lemma prtTaskDelete_self (h : Able c u s1) (hc : s1.cpu.taskContext=true)
    (hk : s1.cont s1.cpu.runningTask=.user) (hne : s1.cpu.runningTask≠s1.cpu.idleTaskId)
    (hz : s1.cpu.uniTaskLock=0) (ht : c → (s1.view s1.cpu.runningTask).bits.timeout=false)
    (hv : s1.view=s.view) (hcfg : s1.cfg=s.cfg) (hid : s1.cpu.idleTaskId=s.cpu.idleTaskId)
    (hsw : s1.cpu.switches=s.cpu.switches) (hb : s.cpu.bgdActive=true)
    (hb1 : s1.cpu.bgdActive=true) : Keeps c u d e s (s1.prtTaskDelete s1.cpu.runningTask).1 := by
  have hle := h.run.real hc
  obtain ⟨m,hm,-⟩ := h.start hle
  have hm1 : Moved c u s1 (s1.modTcb s1.cpu.runningTask fun c => {c with kthreadTsk:=none})
      s1.cpu.runningTask m := hm.modTcb rfl rfl rfl rfl hm.fits.orig
  have hr : m.runnable=true := h.run.runnable_of hm.fits hle
  have hu : m≠.unused := by
    rintro rfl
    cases hr
  have hq : (s1.view s1.cpu.runningTask).bits.queueBusy=false := by
    apply hm.fits.busy_of_cont
    change (s1.cont s1.cpu.runningTask).queueOf=none
    rw [hk]
    rfl
  have hrun : (s1.view s1.cpu.runningTask).bits.running=true := by
    rw [h.core.running _ hle,decide_eq_true rfl]
  have hbits : ((s1.modTcb s1.cpu.runningTask fun c => {c with kthreadTsk:=none}).view
      s1.cpu.runningTask).bits=(s1.view s1.cpu.runningTask).bits := by
    rw [modTcb_view,update_self]
    rfl
  rw [prtTaskDelete_running hle hm1 hr hne hz hq hrun]
  have hcpu := (osTaskDeleteResInit_cpu (t:=s1.cpu.runningTask)).trans hm1.cpu
  obtain ⟨hcore,hti,hreal⟩ := hm1.deleteSelf h.core h.tidy hu hle rfl fun hc' hto => by
    rw [hbits,ht hc'] at hto
    cases hto
  rw [hcfg,hv] at hreal
  refine osTaskDeleteRunning_keeps hcore hti hreal
    ((osTaskDeleteResInit_cfg.trans hm1.cfg).trans hcfg) ?_ ?_ hb ?_ ?_ ?_ (hid ▸ hne) <;> rw [hcpu]
  . exact hid
  . exact hsw
  . exact hb1
  . exact h.alive
  exact hz

lemma osTaskExit_keeps (h : Able c u s) (hc : s.cpu.taskContext=true)
    (hk : s.cont s.cpu.runningTask=.user)
    (hne : e → s.cpu.runningTask=s.cpu.idleTaskId → s.cpu.uniTaskLock=0)
    (ht : c → (s.view s.cpu.runningTask).bits.timeout=false) : Keeps c u d e s s.osTaskExit.1 := by
  have hb : s.cpu.bgdActive=true := by
    simp only [Cpu.taskContext,Bool.and_eq_true] at hc
    exact hc.1.1
  have h0 : Able c u {s with cpu:={s.cpu with uniTaskLock:=0}} :=
    h.setCpu rfl id rfl h.alive
  by_cases hid : s.cpu.runningTask=s.cpu.idleTaskId
  . have heq : s.osTaskExit.1={s with cpu:={s.cpu with uniTaskLock:=0}} := by
      simp [osTaskExit,prtTaskDelete,hid]
    rw [heq]
    by_cases hz : s.cpu.uniTaskLock=0
    . rw [← hz]
      exact h.refl.keeps
    refine ⟨rfl,h0.core,fun _ => h0.run,h0.tidy,fun _ _ => rfl, fun he => absurd (hne he hid) hz,
      fun _ _ hi => ⟨hi.real,hi.ready,fun hcr => ?_⟩,fun _ hs => hs.switches⟩
    exact absurd (h.alive.symm.trans hcr) (by simp)
  exact prtTaskDelete_self h0 hc hk hid rfl ht rfl rfl rfl rfl hb hb

end Sched

end UniProton
