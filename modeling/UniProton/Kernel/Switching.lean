import UniProton.Kernel.Waits

namespace UniProton

open Framework Function List

namespace Sched

/-- The running task waits for nothing; it is a real one or the zombie, in task context a real one
and before the first switch not. -/
structure RunOk (s : Sched) : Prop where
  runnable : s.cpu.runningTask ≤ s.cfg.tskMaxNum →
    ∃ m, Fits s.cfg.prioLowest m (s.view s.cpu.runningTask) ∧ m.runnable=true
  real : s.cpu.taskContext=true → s.cpu.runningTask ≤ s.cfg.tskMaxNum
  early : s.cpu.bgdActive=false → s.cfg.tskMaxNum<s.cpu.runningTask
  bound : s.cpu.runningTask ≤ s.zombie

/-- Nothing is asked for under the lock, a more urgent task is never forgotten, and without the lock
the most urgent task runs. -/
structure CpuOk (s : Sched) : Prop where
  lock : s.cpu.uniTaskLock≠0 → s.cpu.tskReq=false
  req : s.cpu.bgdActive=true → s.cpu.uniTaskLock=0 →
    s.highestTask≠some s.cpu.runningTask → s.cpu.tskReq=true
  task : s.cpu.taskContext=true → s.cpu.uniTaskLock=0 → s.highestTask=some s.cpu.runningTask
  switches : ∀ w∈s.cpu.switches, w.lock=0
  early : s.cpu.bgdActive=false → s.cpu.uniTaskLock=0

variable {c u d : Prop} {s s' s1 s2 : Sched} {t : Nat} {m : TskMode}

lemma osTskHighestSet_eq (h : s.RqOk) : s.osTskHighestSet=s := by
  unfold osTskHighestSet
  rw [← h.highest]

lemma Core.highest_ready (h : s.Core) (ht : s.highestTask=some t) :
    t ≤ s.cfg.tskMaxNum ∧ Fits s.cfg.prioLowest .ready (s.view t) := by
  have hm : t∈s.readyList s.runQue.first := by
    refine mem_of_mem_head? ?_
    rw [← h.rq.highest,ht]
    rfl
  have hl : (s.view t).loc=some (.ready s.runQue.first) := (s.pend.mem_iff _ t).mp hm
  have hle := h.le_of_mem hm
  obtain ⟨m,hf,-⟩ := h.tasks t hle
  obtain rfl := (hf.eq_of_loc_ready hl).1
  exact ⟨hle,hf⟩

lemma Core.highest_isSome (h : s.Core) (ht : t ≤ s.cfg.tskMaxNum)
    (hr : (s.view t).bits.ready=true) : ∃ t', s.highestTask=some t' := by
  obtain ⟨m,hf,-⟩ := h.tasks t ht
  obtain rfl := hf.eq_ready hr
  have hl : (s.view t).loc=some (.ready (s.view t).tcb.priority) := hf.loc
  have hm : t∈s.readyList (s.view t).tcb.priority := (s.pend.mem_iff _ t).mpr hl
  obtain ⟨_,t',ht',_⟩ := h.rq.first_ready (s.prio_lt hf.prio) (ne_nil_of_mem hm)
  exact ⟨t',ht'⟩

lemma Core.setCpu (h : s.Core) {x : Cpu} (hx : x.runningTask=s.cpu.runningTask) :
    Core {s with cpu:=x} := by
  refine ⟨h.tasks,h.outside,h.pids,⟨h.rq.bitmap,h.rq.highest⟩,?_⟩
  intro t ht
  rw [hx]
  exact h.running t ht

lemma Tidy.setCpu (h : s.Tidy u) (x : Cpu) : Tidy u {s with cpu:=x} := ⟨h.faults,h.tight⟩

lemma RunOk.setCpu (h : s.RunOk) {x : Cpu} (hx : x.runningTask=s.cpu.runningTask)
    (hc : x.taskContext=true → s.cpu.taskContext=true)
    (hb : x.bgdActive=s.cpu.bgdActive) : RunOk {s with cpu:=x} := by
  refine ⟨?_,?_,?_,?_⟩
  . rw [hx]
    exact h.runnable
  . intro hx'
    rw [hx]
    exact h.real (hc hx')
  . rw [hx,hb]
    exact h.early
  rw [hx]
  exact h.bound

lemma RunOk.runnable_of (h : s.RunOk) (hf : Fits s.cfg.prioLowest m (s.view s.cpu.runningTask))
    (hle : s.cpu.runningTask ≤ s.cfg.tskMaxNum) : m.runnable=true := by
  obtain ⟨m',hf',hm'⟩ := h.runnable hle
  rw [hf.runnable_eq,← hf'.runnable_eq]
  exact hm'

lemma switchTo_view : (s.switchTo t).view=update (update s.view s.cpu.runningTask
      ((s.view s.cpu.runningTask).modStatus fun b => {b with running:=false})) t
      ((update s.view s.cpu.runningTask
        ((s.view s.cpu.runningTask).modStatus fun b => {b with running:=false}) t).modStatus
          fun b => {b with running:=true}) := by
  have h : (s.switchTo t).view=((s.modStatus s.cpu.runningTask fun b =>
      {b with running:=false}).modStatus t fun b => {b with running:=true}).view := rfl
  rw [h,modStatus_view,modStatus_view]

lemma switchTo_view_eq (t' : Nat) : (s.switchTo t).view t'=(s.view t').modStatus fun b =>
      { b with running := if t'=t then true
                          else if t'=s.cpu.runningTask then false else b.running } := by
  rw [switchTo_view]
  by_cases h : t'=t
  . subst h
    by_cases hr : t'=s.cpu.runningTask
    . subst hr; simp
    simp [hr]
  by_cases hr : t'=s.cpu.runningTask
  . subst hr; simp [h]
  simp [h,hr]

lemma Core.switchTo (h : s.Core) (ht : s.highestTask=some t) : (s.switchTo t).Core := by
  obtain ⟨hle,hft⟩ := h.highest_ready ht
  constructor
  . intro t' ht'
    obtain ⟨m,hf,ho⟩ := h.tasks t' ht'
    rw [switchTo_view_eq]
    refine ⟨m,hf.setRunning ?_,ho⟩
    rintro rfl
    have hne : t'≠t := by
      rintro rfl
      exact absurd (hf.ready.symm.trans hft.ready) (by simp [TskMode.bits])
    have hz : (s.view t').tcb.taskStatus.running=false := congrArg TskStatus.running (hf.unused rfl)
    simp [hne,hz]
  . intro t' ht'
    exact h.outside t' ht'
  . intro t' ht'
    rw [switchTo_view_eq]
    exact h.pids t' ht'
  . exact ⟨h.rq.bitmap,h.rq.highest⟩
  intro t' ht'
  rw [switchTo_view_eq]
  have hold : (s.view t').tcb.taskStatus.running=decide (s.cpu.runningTask=t') := h.running t' ht'
  change (if t'=t then true else if t'=s.cpu.runningTask then false
    else (s.view t').tcb.taskStatus.running)=decide (t=t')
  rw [hold]
  by_cases e : t'=t
  . simp [e]
  rw [if_neg e,decide_eq_false (Ne.symm e)]
  by_cases e' : t'=s.cpu.runningTask
  . rw [if_pos e']
  rw [if_neg e',decide_eq_false (Ne.symm e')]

lemma Tidy.switchTo (h : s.Tidy u) : (s.switchTo t).Tidy u := by
  refine ⟨h.faults,?_⟩
  intro t' ht'
  rw [switchTo_view_eq]
  exact ⟨(h.tight t' ht').timed,(h.tight t' ht').cont⟩

lemma Core.switchTo_runOk (h : s.Core) (ht : s.highestTask=some t)
    (hb : s.cpu.bgdActive=true) : (s.switchTo t).RunOk := by
  obtain ⟨hle,hf⟩ := h.highest_ready ht
  refine ⟨fun _ => ⟨.ready,?_,rfl⟩,fun _ => hle,fun hn => absurd (hb.symm.trans hn) (by simp),
    Nat.le_succ_of_le hle⟩
  rw [switchTo_view_eq]
  exact hf.setRunning nofun

lemma osMainSchedule_none (hr : s.cpu.tskReq=true) (hh : s.highestTask=none) :
    s.osMainSchedule={s with cpu:={s.cpu with crashed:=true}} := by
  simp [osMainSchedule,hr,hh]

lemma osMainSchedule_some (hr : s.cpu.tskReq=true) (hh : s.highestTask=some t) :
    s.osMainSchedule=s.switchTo t := by
  simp [osMainSchedule,hr,hh]

/-- What `OsTskSchedule` does: nothing, a request that is left to the end of the interrupt, or a
switch at once. -/
lemma osTskSchedule_cases (h : s.RqOk) :
    ((s.highestTask=some s.cpu.runningTask ∨ s.cpu.uniTaskLock≠0) ∧ s.osTskSchedule=s) ∨
    (s.highestTask≠some s.cpu.runningTask ∧ s.cpu.uniTaskLock=0 ∧ s.cpu.intActive=true ∧
      s.osTskSchedule={s with cpu:={s.cpu with tskReq:=true}}) ∨
    (s.highestTask=none ∧ s.cpu.uniTaskLock=0 ∧ s.cpu.intActive=false ∧
      s.osTskSchedule={s with cpu:={s.cpu with tskReq:=true, crashed:=true}}) ∨
    ∃ t, s.highestTask=some t ∧ s.cpu.uniTaskLock=0 ∧ s.cpu.intActive=false ∧
      s.osTskSchedule={s with cpu:={s.cpu with tskReq:=true}}.switchTo t := by
  unfold osTskSchedule
  rw [osTskHighestSet_eq h]
  by_cases hn : s.highestTask≠some s.cpu.runningTask ∧ s.cpu.uniTaskLock=0
  . rw [if_pos hn]
    cases hi : s.cpu.intActive with
    | true => exact .inr (.inl ⟨hn.1,hn.2,rfl,if_pos hi⟩)
    | false =>
      have hi' : ¬({s.cpu with tskReq:=true} : Cpu).intActive=true := by
        change ¬s.cpu.intActive=true
        simp [hi]
      refine .inr (.inr ?_)
      rw [if_neg hi']
      rcases Option.eq_none_or_eq_some s.highestTask with hh | ⟨t,hh⟩
      . exact .inl ⟨hh,hn.2,rfl,osMainSchedule_none rfl hh⟩
      exact .inr ⟨t,hh,hn.2,rfl,osMainSchedule_some rfl hh⟩
  rw [if_neg hn]
  refine .inl ⟨?_,rfl⟩
  by_contra hc
  push Not at hc
  exact hn hc

/-- Several tasks may have changed on the way from `s` to `s1`, but the processor has not. Under
`d` the idle task stays ready. -/
structure Leads (c u d : Prop) (s s1 : Sched) : Prop where
  core : s1.Core
  cfg : s1.cfg=s.cfg
  cpu : s1.cpu=s.cpu
  tidy : c → s1.Tidy u
  idle : d → (s.view s.cpu.idleTaskId).bits.ready=true → (s1.view s.cpu.idleTaskId).bits.ready=true

lemma Leads.refl (h : s.Core) (ht : c → s.Tidy u) : Leads c u d s s := ⟨h,rfl,rfl,ht,fun _ => id⟩

lemma Leads.trans (h : Leads c u d s s1) (h' : Leads c u d s1 s2) : Leads c u d s s2 := by
  refine ⟨h'.core,h'.cfg.trans h.cfg,h'.cpu.trans h.cpu,h'.tidy,?_⟩
  intro hd hr
  have hi := h'.idle hd
  rw [h.cpu] at hi
  exact hi (h.idle hd hr)

lemma Moved.leads (hm : Moved c u s s1 t m) (h : s.Core) (hti : c → s.Tidy u)
    (ht : t ≤ s.cfg.tskMaxNum) (hout : m=.out → (s1.view t).bits.suspend=true)
    (hi : d → t=s.cpu.idleTaskId → (s.view t).bits.ready=true → m=.ready) : Leads c u d s s1 := by
  refine ⟨hm.core h ht hout,hm.cfg,hm.cpu,hm.tidy hti,?_⟩
  intro hd hr
  by_cases e : s.cpu.idleTaskId=t
  . rw [e] at hr ⊢
    rw [hm.fits.ready,hi hd e.symm hr]
    rfl
  rw [hm.frame _ e]
  exact hr

lemma Moved.runOk (hm : Moved c u s s1 t m) (h : s.RunOk)
    (ht : t=s.cpu.runningTask → m.runnable=true) : s1.RunOk := by
  constructor
  . rw [hm.cpu,hm.cfg]
    intro hle
    by_cases e : s.cpu.runningTask=t
    . rw [e]
      exact ⟨m,hm.fits,ht e.symm⟩
    rw [hm.frame _ e]
    exact h.runnable hle
  . rw [hm.cpu,hm.cfg]
    exact h.real
  . rw [hm.cpu,hm.cfg]
    exact h.early
  rw [hm.cpu,zombie,hm.cfg]
  exact h.bound

/-- How a call leaves the processor: as it was, the most urgent task too if that was the running
one, or with `OsTskSchedule` as its last act. -/
inductive Settles (c u d : Prop) (s : Sched) : Sched → Prop
  | keep {s1 : Sched} (hl : Leads c u d s s1) (hr : s1.RunOk)
      (hh : s.highestTask=some s.cpu.runningTask → s1.highestTask=s.highestTask) :
      Settles c u d s s1
  | switch {s1 : Sched} (hl : Leads c u d s s1) (hb : s.cpu.bgdActive=true)
      (hr : s1.RunOk ∨ (s.cpu.taskContext=true ∧ s.cpu.uniTaskLock=0)) :
      Settles c u d s s1.osTskSchedule

lemma Settles.refl (h : s.Core) (ht : c → s.Tidy u) (hr : s.RunOk) : Settles c u d s s :=
  .keep (Leads.refl h ht) hr fun _ => rfl

lemma osTskSchedule_sound (h : s.Core) (hb : s.cpu.bgdActive=true)
    (hr : s.RunOk ∨ (s.cpu.taskContext=true ∧ s.cpu.uniTaskLock=0)) :
    s.osTskSchedule.Core ∧ (s.osTskSchedule.cpu.crashed=false → s.osTskSchedule.RunOk) := by
  rcases osTskSchedule_cases h.rq with ⟨hk,he⟩ | ⟨-,-,hi,he⟩ | ⟨-,-,-,he⟩ |
    ⟨t,ht,-,-,he⟩ <;> rw [he]
  . refine ⟨h,fun _ => ?_⟩
    rcases hr with hr | ⟨-,hl⟩
    . exact hr
    have hh : s.highestTask=some s.cpu.runningTask := by
      rcases hk with hh | hl'
      . exact hh
      exact absurd hl hl'
    obtain ⟨hle,hf⟩ := h.highest_ready hh
    exact ⟨fun _ => ⟨.ready,hf,rfl⟩,fun _ => hle,
      fun hn => absurd (hb.symm.trans hn) (by simp),Nat.le_succ_of_le hle⟩
  . refine ⟨h.setCpu rfl,fun _ => ?_⟩
    rcases hr with hr | ⟨hc,-⟩
    . exact hr.setCpu rfl id rfl
    simp [Cpu.taskContext,Cpu.intActive] at hc hi
    rcases hi with hi | hi <;> simp [hi] at hc
  . exact ⟨h.setCpu rfl,nofun⟩
  have h' : Core {s with cpu:={s.cpu with tskReq:=true}} := h.setCpu rfl
  exact ⟨h'.switchTo ht,fun _ => h'.switchTo_runOk ht hb⟩

lemma osMainSchedule_cfg : s.osMainSchedule.cfg=s.cfg := by
  unfold osMainSchedule
  split
  . split <;> rfl
  split <;> rfl

lemma osTskSchedule_cfg : s.osTskSchedule.cfg=s.cfg := by
  simp only [osTskSchedule]
  split
  . split
    . rfl
    exact osMainSchedule_cfg
  rfl

lemma osTskSchedule_tidy (h : s.RqOk) (ht : s.Tidy u) : s.osTskSchedule.Tidy u := by
  rcases osTskSchedule_cases h with ⟨-,he⟩ | ⟨-,-,-,he⟩ | ⟨-,-,-,he⟩ | ⟨t,-,-,-,he⟩ <;>
    rw [he]
  . exact ht
  . exact ht.setCpu _
  . exact ht.setCpu _
  exact (ht.setCpu _).switchTo

lemma osTskSchedule_switches (h : s.RqOk) (hw : ∀ w∈s.cpu.switches, w.lock=0) :
    ∀ w∈s.osTskSchedule.cpu.switches, w.lock=0 := by
  rcases osTskSchedule_cases h with ⟨-,heq⟩ | ⟨-,-,-,heq⟩ | ⟨-,-,-,heq⟩ | ⟨t,-,hz,-,heq⟩
  . rw [heq]
    exact hw
  . rw [heq]
    exact hw
  . rw [heq]
    exact hw
  rw [heq]
  intro w hwm
  rcases mem_cons.mp hwm with rfl | hwm
  . exact hz
  exact hw w hwm

lemma osTskSchedule_cpuOk (h : s.RqOk) (hb : s.cpu.bgdActive=true)
    (hl : s.cpu.uniTaskLock≠0 → s.cpu.tskReq=false) (hw : ∀ w∈s.cpu.switches, w.lock=0)
    (hc : s.osTskSchedule.cpu.crashed=false) : s.osTskSchedule.CpuOk := by
  have he : s.cpu.bgdActive=false → s.cpu.uniTaskLock=0 :=
    fun hn => absurd (hb.symm.trans hn) (by simp)
  rcases osTskSchedule_cases h with ⟨hk,heq⟩ | ⟨hh,hz,hi,heq⟩ | ⟨-,-,-,heq⟩ | ⟨t,ht,hz,-,heq⟩
  . rw [heq]
    refine ⟨hl,fun _ hz hne => ?_,fun _ hz => ?_,hw,he⟩
    . exact absurd hz (hk.resolve_left hne)
    exact hk.resolve_right (fun hn => hn hz)
  . rw [heq]
    refine ⟨fun hn => absurd hz hn,fun _ _ _ => rfl,fun htc => ?_,hw,he⟩
    simp [Cpu.taskContext,Cpu.intActive] at htc hi
    rcases hi with hi | hi <;> simp [hi] at htc
  . rw [heq] at hc
    cases hc
  rw [heq]
  refine ⟨fun _ => rfl,fun _ _ hne => absurd ht hne,fun _ _ => ht,?_,he⟩
  have hsw := osTskSchedule_switches h hw
  rwa [heq] at hsw

lemma Settles.sound (h : Settles c u d s s') : s'.Core ∧ (s'.cpu.crashed=false → s'.RunOk) := by
  cases h with
  | keep hl hr _ => exact ⟨hl.core,fun _ => hr⟩
  | switch hl hb hr =>
    refine osTskSchedule_sound hl.core ?_ ?_
    . rw [hl.cpu]
      exact hb
    rw [hl.cpu]
    exact hr

lemma Settles.tidy (h : Settles c u d s s') : c → s'.Tidy u := by
  cases h with
  | keep hl _ _ => exact hl.tidy
  | switch hl _ _ => exact fun hc => osTskSchedule_tidy hl.core.rq (hl.tidy hc)

lemma Settles.cfg (h : Settles c u d s s') : s'.cfg=s.cfg := by
  cases h with
  | keep hl _ _ => exact hl.cfg
  | switch hl _ _ => exact osTskSchedule_cfg.trans hl.cfg

lemma Settles.cpuOk (h : Settles c u d s s') (hs : s.CpuOk) (hc : s'.cpu.crashed=false) :
    s'.CpuOk := by
  cases h with
  | keep hl _ hh =>
    constructor
    . rw [hl.cpu]
      exact hs.lock
    . rw [hl.cpu]
      intro hb hz hne
      refine hs.req hb hz fun he => hne ?_
      rw [hh he,he]
    . rw [hl.cpu]
      intro htc hz
      have he := hs.task htc hz
      rw [hh he,he]
    . rw [hl.cpu]
      exact hs.switches
    rw [hl.cpu]
    exact hs.early
  | switch hl hb _ =>
    refine osTskSchedule_cpuOk hl.core.rq ?_ ?_ ?_ hc
    . rw [hl.cpu]
      exact hb
    . rw [hl.cpu]
      exact hs.lock
    rw [hl.cpu]
    exact hs.switches

/-- The idle task is always ready; what can still stop it is a running task that an interrupt
deletes. -/
structure IdleOk (s : Sched) : Prop where
  real : s.cpu.idleTaskId ≤ s.cfg.tskMaxNum
  ready : s.cpu.bgdActive=true → (s.view s.cpu.idleTaskId).bits.ready=true
  alive : s.cpu.crashed=true → s.cpu.uniTaskLock≠0

/-- What one step of the machine keeps. The conditions are those of `Leads`; under `e` it is also
one that `g_uniTaskLock` survives. -/
structure Keeps (c u d e : Prop) (s s' : Sched) : Prop where
  cfg : s'.cfg=s.cfg
  core : s'.Core
  run : s'.cpu.crashed=false → s'.RunOk
  tidy : c → s'.Tidy u
  lock : c → s.cpu.uniTaskLock=0 → s'.cpu.uniTaskLock=0
  cpuOk : e → s.CpuOk → s'.cpu.crashed=false → s'.CpuOk
  idle : d → s.CpuOk → s.IdleOk → s'.IdleOk
  switches : e → s.CpuOk → ∀ w∈s'.cpu.switches, w.lock=0

lemma osTskSchedule_lock (h : s.RqOk) : s.osTskSchedule.cpu.uniTaskLock=s.cpu.uniTaskLock := by
  rcases osTskSchedule_cases h with ⟨-,he⟩ | ⟨-,-,-,he⟩ | ⟨-,-,-,he⟩ | ⟨t,-,-,-,he⟩
  all_goals
    rw [he]
    try rfl

lemma osTskSchedule_idle (h : s.Core) (hb : s.cpu.bgdActive=true) (hi : s.IdleOk) :
    s.osTskSchedule.IdleOk := by
  obtain ⟨t,ht⟩ := h.highest_isSome hi.real (hi.ready hb)
  rcases osTskSchedule_cases h.rq with ⟨-,he⟩ | ⟨-,-,-,he⟩ | ⟨hn,-,-,-⟩ | ⟨t,-,-,-,he⟩
  . rw [he]
    exact hi
  . rw [he]
    exact ⟨hi.real,hi.ready,hi.alive⟩
  . rw [hn] at ht
    cases ht
  rw [he]
  refine ⟨hi.real,fun _ => ?_,hi.alive⟩
  rw [switchTo_view_eq]
  exact hi.ready hb

lemma Leads.idleOk (h : Leads c u d s s1) (hd : d) (hi : s.IdleOk) : s1.IdleOk := by
  constructor
  . rw [h.cpu,h.cfg]
    exact hi.real
  . rw [h.cpu]
    exact fun hb => h.idle hd (hi.ready hb)
  rw [h.cpu]
  exact hi.alive

lemma Settles.keeps {e : Prop} (h : Settles c u d s s') : Keeps c u d e s s' where
  cfg := h.cfg
  core := h.sound.1
  run := h.sound.2
  tidy := h.tidy
  lock := by
    intro _ hz
    cases h with
    | keep hl _ _ => rw [hl.cpu,hz]
    | switch hl _ _ => rw [osTskSchedule_lock hl.core.rq,hl.cpu,hz]
  cpuOk := fun _ => h.cpuOk
  idle := by
    intro hd _ hi
    cases h with
    | keep hl _ _ => exact hl.idleOk hd hi
    | switch hl hb _ =>
      refine osTskSchedule_idle hl.core ?_ (hl.idleOk hd hi)
      rw [hl.cpu]
      exact hb
  switches := by
    intro _ hs
    cases h with
    | keep hl _ _ => rw [hl.cpu]; exact hs.switches
    | switch hl _ _ =>
      apply osTskSchedule_switches hl.core.rq
      rw [hl.cpu]
      exact hs.switches

lemma Leads.settles (hl : Leads c u d s s1) (h : Settles c u d s1 s2)
    (hh : s1.highestTask=s.highestTask) : Settles c u d s s2 := by
  cases h with
  | keep hl' hr hh' =>
    refine .keep (hl.trans hl') hr fun he => ?_
    rw [hl.cpu,hh] at hh'
    exact hh' he
  | switch hl' hb hr =>
    rw [hl.cpu] at hb hr
    exact .switch (hl.trans hl') hb hr

/-- What a call finds: the invariants, and under `c` a running task that is ready whenever it is
the one that calls. -/
structure Able (c u : Prop) (s : Sched) : Prop where
  core : s.Core
  alive : s.cpu.crashed=false
  run : s.RunOk
  tidy : c → s.Tidy u
  steady : c → s.cpu.taskContext=true → (s.view s.cpu.runningTask).bits.ready=true

lemma Able.refl (h : Able c u s) : Settles c u d s s := Settles.refl h.core h.tidy h.run

lemma Able.start (h : Able c u s) (ht : t ≤ s.cfg.tskMaxNum) :
    ∃ m, Moved c u s s t m ∧ (m=.out → (s.view t).bits.suspend=true) := by
  obtain ⟨m,hf,ho⟩ := h.core.tasks t ht
  exact ⟨m,Moved.refl h.core.rq hf fun hc => (h.tidy hc).tight t ht,ho⟩

lemma Able.setCpu (h : Able c u s) {x : Cpu} (hx : x.runningTask=s.cpu.runningTask)
    (hc : x.taskContext=true → s.cpu.taskContext=true) (hb : x.bgdActive=s.cpu.bgdActive)
    (ha : x.crashed=false) : Able c u {s with cpu:=x} where
  core := h.core.setCpu hx
  alive := ha
  run := h.run.setCpu hx hc hb
  tidy := fun h' => (h.tidy h').setCpu x
  steady := fun h' hc' => by
    rw [hx]
    exact h.steady h' (hc hc')

lemma Leads.able (hl : Leads c u d s s1) (h : Able c u s) (hr : s1.RunOk)
    (hs : c → s.cpu.taskContext=true → (s1.view s.cpu.runningTask).bits.ready=true) :
    Able c u s1 := by
  refine ⟨hl.core,?_,hr,hl.tidy,?_⟩
  . rw [hl.cpu]
    exact h.alive
  rw [hl.cpu]
  exact hs

lemma Moved.able (hm : Moved c u s s1 t m) (h : Able c u s) (hne : t≠s.cpu.runningTask)
    (hl : Leads c u d s s1) : Able c u s1 := by
  refine hl.able h (hm.runOk h.run fun he => absurd he hne) fun hc htc => ?_
  rw [hm.frame _ (Ne.symm hne)]
  exact h.steady hc htc

lemma RunOk.ne_running (h : s.RunOk) (ht : t ≤ s.cfg.tskMaxNum)
    (hf : Fits s.cfg.prioLowest m (s.view t)) (hm : m.runnable=false) : t≠s.cpu.runningTask := by
  rintro rfl
  rw [h.runnable_of hf ht] at hm
  cases hm

lemma Core.highest_readyDel {r : Nat} (h : s.Core) (hr : s.highestTask=some r) (hne : r≠t)
    (hq : (s.osTskReadyDel t).RqOk) : (s.osTskReadyDel t).highestTask=some r := by
  have hlist : ∀ p, (s.osTskReadyDel t).readyList p=(s.readyList p).erase t :=
    fun p => Links.delete_lists_eq _ _ _
  have hhead : (s.readyList s.runQue.first).head? = some r := h.rq.highest.symm.trans hr
  obtain ⟨l,hl⟩ := List.head?_eq_some_iff.mp hhead
  have hp : s.runQue.first<32*32 := by
    have hf := (h.highest_ready hr).2
    have hloc : (s.view r).loc=some (.ready s.runQue.first) := Links.head_loc hl
    rw [(hf.eq_of_loc_ready hloc).2]
    exact s.prio_lt hf.prio
  have hl' : (s.osTskReadyDel t).readyList s.runQue.first=r::l.erase t := by
    rw [hlist,hl,erase_cons_tail (by simpa using hne)]
  obtain ⟨-,-,hmin⟩ := h.rq.bitmap.first_least hp (by rw [hl]; simp)
  obtain ⟨q,u,hu,hq',hlow⟩ := hq.first_ready hp (by rw [hl']; simp)
  have hle : q ≤ s.runQue.first := by
    by_contra hlt
    have := hlow _ (not_le.mp hlt)
    rw [hl'] at this
    cases this
  have hge : s.runQue.first≤q := by
    by_contra hlt
    have hnil : s.readyList q=[] := by simpa using hmin q (not_le.mp hlt)
    rw [hlist,hnil] at hq'
    cases hq'
  obtain rfl : q=s.runQue.first := le_antisymm hle hge
  rw [hl'] at hq'
  rw [hu]
  exact hq'.symm

end Sched

end UniProton
