import UniProton.Kernel.Deletion
import UniProton.Kernel.Machine

namespace UniProton

open Framework

namespace Sched

variable {c u d e : Prop} {s : Sched}

/-- The two run the same task in the same state of the scheduler. -/
structure SameTask (x y : Cpu) : Prop where
  running : x.runningTask=y.runningTask
  idle : x.idleTaskId=y.idleTaskId
  lock : x.uniTaskLock=y.uniTaskLock
  bgd : x.bgdActive=y.bgdActive
  req : x.tskReq=y.tskReq
  crashed : x.crashed=y.crashed
  switches : x.switches=y.switches

lemma SameTask.idleOk {x : Cpu} (hx : SameTask x s.cpu) (hi : s.IdleOk) :
    IdleOk {s with cpu:=x} := by
  constructor
  . rw [hx.idle]
    exact hi.real
  . rw [hx.idle,hx.bgd]
    exact hi.ready
  rw [hx.crashed,hx.lock]
  exact hi.alive

lemma Able.irq (h : Able c u s) {x : Cpu} (hx : SameTask x s.cpu)
    (hc : x.taskContext=true → s.cpu.taskContext=true) :
    Keeps c u d e s {s with cpu:=x} ∧ Able c u {s with cpu:=x} := by
  have ha := h.setCpu hx.running hc hx.bgd (hx.crashed.trans h.alive)
  refine ⟨⟨rfl,ha.core,fun _ => ha.run,ha.tidy,fun _ hz => hx.lock.trans hz,?_,?_,?_⟩,ha⟩
  . intro _ hs _
    constructor
    . rw [hx.lock,hx.req]
      exact hs.lock
    . rw [hx.lock,hx.req,hx.bgd,hx.running]
      exact hs.req
    . rw [hx.lock,hx.running]
      exact fun ht => hs.task (hc ht)
    . rw [hx.switches]
      exact hs.switches
    rw [hx.lock,hx.bgd]
    exact hs.early
  . exact fun _ _ hi => hx.idleOk hi
  intro _ hs
  rw [hx.switches]
  exact hs.switches

lemma osMainSchedule_tail (h : Able c u s) (hb : s.cpu.bgdActive=true) {x : Cpu}
    (hx : SameTask x s.cpu) : Keeps c u d e s {s with cpu:=x}.osMainSchedule := by
  have hcore : Core {s with cpu:=x} := h.core.setCpu hx.running
  have hsw : s.CpuOk → ∀ w∈x.switches, w.lock=0 := by
    intro hs
    rw [hx.switches]
    exact hs.switches
  by_cases hr : x.tskReq=true
  . refine osMainSchedule_keeps hcore (fun hc => (h.tidy hc).setCpu x) rfl (hx.bgd.trans hb) hr
      (fun _ hz => hx.lock.trans hz) (fun hs => ?_) hsw fun _ => hx.idleOk
    . by_contra hz
      have := hs.lock (hx.lock ▸ hz)
      rw [← hx.req,hr] at this
      cases this
  have hmain : {s with cpu:=x}.osMainSchedule =
      if x.runningTask=s.zombie then {s with cpu:={x with crashed:=true}}
      else {s with cpu:=x} := by
    unfold osMainSchedule
    rw [if_neg hr]
    rfl
  have hreq : s.CpuOk → s.cpu.uniTaskLock=0 → s.highestTask=some s.cpu.runningTask := by
    intro hs hz
    by_contra hne
    exact hr (hx.req.trans (hs.req hb hz hne))
  rw [hmain]
  split
  . next hzo =>
    have hne : s.highestTask≠some s.cpu.runningTask := by
      intro hh
      have hle := (h.core.highest_ready hh).1
      rw [← hx.running,hzo,zombie] at hle
      omega
    refine ⟨rfl,h.core.setCpu hx.running,by simp,fun hc => (h.tidy hc).setCpu _,
      fun _ hz => hx.lock.trans hz,by simp,fun _ hs hi => ?_,fun _ => hsw⟩
    have hi' := hx.idleOk hi
    refine ⟨hi'.real,hi'.ready,fun _ hz => ?_⟩
    exact hne (hreq hs (hx.lock.symm.trans hz))
  next hzo =>
  refine ⟨rfl,hcore,fun _ => ⟨?_,fun _ => ?_,?_,?_⟩,fun hc => (h.tidy hc).setCpu x,
    fun _ hz => hx.lock.trans hz,fun _ hs _ => ⟨?_,?_,?_,hsw hs,?_⟩,fun _ _ => hx.idleOk,
    fun _ => hsw⟩
  . rw [hx.running]
    exact h.run.runnable
  . have hle := h.run.bound
    change x.runningTask ≤ s.cfg.tskMaxNum
    rw [hx.running] at hzo ⊢
    rw [zombie] at hle hzo
    omega
  . rw [hx.running,hx.bgd]
    exact h.run.early
  . rw [hx.running]
    exact h.run.bound
  . exact fun _ => Bool.eq_false_iff.mpr hr
  . rw [hx.lock,hx.running]
    exact fun _ hz hne => absurd (hreq hs hz) hne
  . rw [hx.lock,hx.running]
    exact fun _ => hreq hs
  rw [hx.lock,hx.bgd]
  exact hs.early

lemma hwiEnter_keeps (h : Able c u s) : Keeps c u d e s s.hwiEnter := by
  refine (h.irq ?_ fun ht => ?_).1
  . exact ⟨rfl,rfl,rfl,rfl,rfl,rfl,rfl⟩
  simp [Cpu.taskContext] at ht

lemma tickIsr_keeps (h : Able c u s) : Keeps c u d e s s.tickIsr := by
  refine (h.irq ?_ ?_).1
  . exact ⟨rfl,rfl,rfl,rfl,rfl,rfl,rfl⟩
  exact id

lemma hwiExit_keeps (h : Able c u s) (hb : s.cpu.bgdActive=true) : Keeps c u d e s s.hwiExit := by
  simp only [hwiExit]
  split
  . refine (h.irq ?_ ?_).1
    . exact ⟨rfl,rfl,rfl,rfl,rfl,rfl,rfl⟩
    exact id
  unfold osHwiDispatchTail
  split
  . split
    . next ht =>
      refine (h.irq ?_ fun hc => ?_).1
      . exact ⟨rfl,rfl,rfl,rfl,rfl,rfl,rfl⟩
      have ht' : s.cpu.tickActive=true := ht
      simp [Cpu.taskContext,ht'] at hc
    refine (h.irq ?_ fun hc => ?_).1
    . exact ⟨rfl,rfl,rfl,rfl,rfl,rfl,rfl⟩
    simp [Cpu.taskContext] at hc
  apply osMainSchedule_tail h hb
  exact ⟨rfl,rfl,rfl,rfl,rfl,rfl,rfl⟩

lemma tickScan_keeps (h : Able c u s) (hb : s.cpu.bgdActive=true) : Keeps c u d e s s.tickScan := by
  unfold tickScan
  generalize (s.cpu.uniTicks+1) % 2^64=n
  obtain ⟨hk,ha⟩ := h.irq (d:=d) (e:=True) (x:={s.cpu with
    uniTicks := n, tickPhase := .hooks}) ⟨rfl,rfl,rfl,rfl,rfl,rfl,rfl⟩ id
  have hs := (osTaskScan_settles ha hb (d:=d)).keeps (e:=e)
  exact ⟨hs.cfg,hs.core,hs.run,hs.tidy,hs.lock,
    fun he hcp => hs.cpuOk he (hk.cpuOk trivial hcp h.alive),
    fun hd hcp hi => hs.idle hd (hk.cpuOk trivial hcp h.alive) (hk.idle hd hcp hi),
    fun he hcp => hs.switches he (hk.cpuOk trivial hcp h.alive)⟩

lemma tickEnd_keeps (h : Able c u s) (hb : s.cpu.bgdActive=true) : Keeps c u d e s s.tickEnd := by
  have hmore : ∀ n, Keeps c u d e s
      {s with cpu:={s.cpu with tickNoRespondCnt:=n, tickPhase:=.scan}} := by
    intro n
    refine (h.irq ?_ ?_).1
    . exact ⟨rfl,rfl,rfl,rfl,rfl,rfl,rfl⟩
    exact id
  have hlast : ∀ n, Keeps c u d e s {s with cpu := {s.cpu with
      tickNoRespondCnt := n, tickActive := false, tickPhase := .none}}.osMainSchedule := by
    intro n
    apply osMainSchedule_tail h hb
    exact ⟨rfl,rfl,rfl,rfl,rfl,rfl,rfl⟩
  rw [tickEnd]
  split
  . exact hmore _
  exact hlast _

end Sched

end UniProton
