import UniProton.Kernel.TaskMoves
import UniProton.Kernel.Task

namespace UniProton

open Framework Function

namespace Sched

/-- Every task fits a mode, a task that waits for nothing is ready unless suspended, and only real
tasks are linked. -/
structure Core (s : Sched) : Prop where
  tasks : ∀ t ≤ s.cfg.tskMaxNum, ∃ m, Fits s.cfg.prioLowest m (s.view t) ∧
    (m=.out → (s.view t).bits.suspend=true)
  outside : ∀ t, s.cfg.tskMaxNum<t → (s.view t).loc=none ∧ (s.view t).timed=false
  pids : ∀ t ≤ s.cfg.tskMaxNum, (s.view t).tcb.taskPid=t
  rq : s.RqOk
  running : ∀ t ≤ s.cfg.tskMaxNum, (s.view t).bits.running=decide (s.cpu.runningTask=t)

/-- No list primitive was ever used outside its contract, up to those on the lists of held mutexes
and with `u` not even those. -/
structure FaultsOk (u : Prop) (fs : List Fault) : Prop where
  kind : ∀ f∈fs, f.kind=.semBList
  none : u → fs=[]

/-- The lists were used well and the timeout flags are right. -/
structure Tidy (u : Prop) (s : Sched) : Prop where
  faults : FaultsOk u s.faults
  tight : ∀ t ≤ s.cfg.tskMaxNum, Tight u (s.view t)

/-- Only the task `t` has changed, and is in the mode `m` now; under `c` no list primitive was
misused and its flags are right. -/
structure Moved (c u : Prop) (s s' : Sched) (t : Nat) (m : TskMode) : Prop where
  cfg : s'.cfg=s.cfg
  cpu : s'.cpu=s.cpu
  frame : ∀ t', t'≠t → s'.view t'=s.view t'
  fits : Fits s.cfg.prioLowest m (s'.view t)
  running : (s'.view t).bits.running=(s.view t).bits.running
  pid : (s'.view t).tcb.taskPid=(s.view t).tcb.taskPid
  rq : s'.RqOk
  faults : c → s'.faults=s.faults
  tight : c → Tight u (s'.view t)

variable {c u : Prop} {s s' s1 s2 : Sched} {t : Nat} {m m' : TskMode}

lemma Core.le_of_loc (h : s.Core) {hd : PendHead} (hl : s.pend.loc t=some hd) :
    t ≤ s.cfg.tskMaxNum := by
  by_contra hn
  have ho := (h.outside t (by omega)).1
  change s.pend.loc t=none at ho
  simp [hl] at ho

lemma Core.le_of_mem (h : s.Core) {hd : PendHead} (hm : t∈s.pend.lists hd) :
    t ≤ s.cfg.tskMaxNum :=
  h.le_of_loc ((s.pend.mem_iff hd t).mp hm)

lemma prio_lt (s : Sched) {p : Nat} (hp : p ≤ s.cfg.prioLowest) : p<32*32 := by
  have := s.cfg.prio_lt
  omega

lemma Moved.core (hm : Moved c u s s' t m) (h : s.Core) (ht : t ≤ s.cfg.tskMaxNum)
    (hout : m=.out → (s'.view t).bits.suspend=true) : s'.Core := by
  constructor
  . intro t' ht'
    rw [hm.cfg] at ht' ⊢
    by_cases e : t'=t
    . subst e
      exact ⟨m,hm.fits,hout⟩
    rw [hm.frame t' e]
    exact h.tasks t' ht'
  . intro t' ht'
    rw [hm.cfg] at ht'
    rw [hm.frame t' (by omega)]
    exact h.outside t' ht'
  . intro t' ht'
    rw [hm.cfg] at ht'
    by_cases e : t'=t
    . subst e
      rw [hm.pid]
      exact h.pids t' ht'
    rw [hm.frame t' e]
    exact h.pids t' ht'
  . exact hm.rq
  intro t' ht'
  rw [hm.cfg] at ht'
  rw [hm.cpu]
  by_cases e : t'=t
  . subst e
    rw [hm.running]
    exact h.running t' ht'
  rw [hm.frame t' e]
  exact h.running t' ht'

lemma Moved.tidy (hm : Moved c u s s' t m) (h : c → s.Tidy u) : c → s'.Tidy u := by
  intro hc
  constructor
  . rw [hm.faults hc]
    exact (h hc).faults
  intro t' ht'
  rw [hm.cfg] at ht'
  by_cases e : t'=t
  . subst e
    exact hm.tight hc
  rw [hm.frame t' e]
  exact (h hc).tight t' ht'

lemma Moved.refl (hq : s.RqOk) (hf : Fits s.cfg.prioLowest m (s.view t))
    (ht : c → Tight u (s.view t)) : Moved c u s s t m :=
  ⟨rfl,rfl,fun _ _ => rfl,hf,rfl,rfl,hq,fun _ => rfl,ht⟩

structure Kept (s1 s2 : Sched) (t : Nat) (v : TaskView) : Prop where
  running : v.bits.running=(s1.view t).bits.running
  pid : v.tcb.taskPid=(s1.view t).tcb.taskPid
  cfg : s2.cfg=s1.cfg
  cpu : s2.cpu=s1.cpu

lemma Moved.step (h : Moved c u s s1 t m) {v : TaskView}
    (hv : s2.view=update s1.view t v) (hf : Fits s.cfg.prioLowest m' v)
    (hq : s2.RqOk) (hfl : c → s2.faults=s1.faults) (ht : c → Tight u v)
    (hk : Kept s1 s2 t v) : Moved c u s s2 t m' := by
  have hvt : s2.view t=v := by rw [hv,update_self]
  refine ⟨hk.cfg.trans h.cfg,hk.cpu.trans h.cpu,?_,?_,?_,?_,hq,?_,?_⟩
  . intro t' ht'
    rw [hv,update_of_ne ht']
    exact h.frame t' ht'
  . rw [hvt]
    exact hf
  . rw [hvt,hk.running]
    exact h.running
  . rw [hvt,hk.pid]
    exact h.pid
  . intro hc
    rw [hfl hc]
    exact h.faults hc
  rw [hvt]
  exact ht

lemma Moved.readyDel (h : Moved c u s s1 t m) (hm : m.runnable=true)
    (hr : c → (s1.view t).bits.ready=true) : Moved c u s (s1.osTskReadyDel t) t .out := by
  have hp := s.prio_lt h.fits.prio
  refine h.step (s1.osTskReadyDel_view t) (h.fits.readyDel hm) (h.rq.osTskReadyDel hp ?_) ?_ ?_
    ⟨rfl,rfl,rfl,rfl⟩
  . intro p hpl
    exact (h.fits.eq_of_loc_ready hpl).2
  . intro hc
    obtain rfl := h.fits.eq_ready (hr hc)
    have hl : (s1.view t).loc=some (.ready (s1.view t).tcb.priority) := h.fits.loc
    exact osTskReadyDel_faults (by rw [hl]; rfl)
  intro hc
  exact ⟨(h.tight hc).timed,(h.tight hc).cont⟩

lemma Moved.readyAdd (h : Moved c u s s1 t .out) (hs : (s1.view t).bits.suspend=false) :
    Moved c u s (s1.osTskReadyAdd t) t .ready :=
  h.step (s1.osTskReadyAdd_view t) (h.fits.readyAdd hs)
    (h.rq.osTskReadyAdd h.fits.loc (s.prio_lt h.fits.prio))
    (fun _ => osTskReadyAdd_faults h.fits.loc)
    (fun hc => ⟨(h.tight hc).timed,(h.tight hc).cont⟩) ⟨rfl,rfl,rfl,rfl⟩

lemma Moved.readyAddUnlessSuspend (h : Moved c u s s1 t .out) :
    ∃ m, Moved c u s (s1.readyAddUnlessSuspend t) t m ∧ m.runnable=true ∧
      (m=.out → ((s1.readyAddUnlessSuspend t).view t).bits.suspend=true) ∧
      ((s1.view t).bits.suspend=false → m=.ready) := by
  by_cases hs : (s1.status t).suspend=true
  . have he : s1.readyAddUnlessSuspend t=s1 := by simp [Sched.readyAddUnlessSuspend,hs]
    rw [he]
    exact ⟨.out,h,rfl,fun _ => hs,fun hn => absurd (hs.symm.trans hn) (by simp)⟩
  have hs' : (s1.status t).suspend=false := by simpa using hs
  have he : s1.readyAddUnlessSuspend t=s1.osTskReadyAdd t := by
    simp [Sched.readyAddUnlessSuspend,hs']
  rw [he]
  exact ⟨.ready,h.readyAdd hs',rfl,nofun,fun _ => rfl⟩

lemma Moved.setPrio (h : Moved c u s s1 t m) (hm : m≠.ready) {p : Nat}
    (hp : p ≤ s.cfg.prioLowest) : Moved c u s (s1.modTcb t fun c => {c with priority:=p}) t m :=
  h.step (s1.modTcb_view t _) (h.fits.setPrio hm hp) (h.rq.modTcb _) (fun _ => rfl)
    (fun hc => ⟨(h.tight hc).timed,(h.tight hc).cont⟩) ⟨rfl,rfl,rfl,rfl⟩

lemma Moved.modTcb (h : Moved c u s s1 t m) {f : TskCb → TskCb}
    (hb : (f (s1.tcb t)).taskStatus=(s1.tcb t).taskStatus)
    (hp : (f (s1.tcb t)).priority=(s1.tcb t).priority)
    (ho : (f (s1.tcb t)).taskPend=(s1.tcb t).taskPend)
    (hi : (f (s1.tcb t)).taskPid=(s1.tcb t).taskPid)
    (hg : (f (s1.tcb t)).origPriority ≤ s.cfg.prioLowest) : Moved c u s (s1.modTcb t f) t m := by
  refine h.step (s1.modTcb_view t f) (h.fits.modTcb hb hp ho hg) (h.rq.modTcb f) (fun _ => rfl) ?_
    ⟨congrArg TskStatus.running hb,hi,rfl,rfl⟩
  intro hc
  have hbits : ((s1.view t).modTcb f).bits=(s1.view t).bits := hb
  constructor
  . rw [hbits]
    exact (h.tight hc).timed
  rw [hbits]
  exact (h.tight hc).cont

lemma Moved.kthreadStateSet (h : Moved c u s s1 t m) (k : KthreadState) :
    Moved c u s (s1.kthreadStateSet t k) t m :=
  h.modTcb rfl rfl rfl rfl h.fits.orig

lemma Moved.settle (h : Moved c u s s1 t m) (hm : m.runnable=true) {k : Cont}
    (hk : k.queueOf=none) (hkp : k.plain=true) {x y z : Bool} (hy : y=false)
    (ht : c → u → x=true → k.timed=true)
    (hv : s2.view=update s1.view t ⟨{ (s1.view t).tcb with taskStatus :=
        {(s1.view t).tcb.taskStatus with timeout:=x, queueBusy:=y, eventType:=z} },
      k,(s1.view t).loc,(s1.view t).timed⟩)
    (hq : s2.RqOk) (hfl : c → s2.faults=s1.faults) (hc : s2.cfg=s1.cfg)
    (hp : s2.cpu=s1.cpu) : Moved c u s s2 t m := by
  subst hy
  have hf := h.fits.settle hm x z hk hkp
  exact h.step hv hf hq hfl (fun hc' => hf.tight_of_runnable hm (ht hc')) ⟨rfl,rfl,hc,hp⟩

lemma Moved.setCont (h : Moved c u s s1 t m) (hm : m.runnable=true) {k : Cont}
    (hq : (s1.view t).cont.queueOf=none) (hk : k.queueOf=none)
    (hkp : k.plain=true) (ht : c → u → (s1.view t).bits.timeout=true → k.timed=true) :
    Moved c u s (s1.setCont t k) t m :=
  h.settle hm hk hkp (h.fits.busy_of_cont hq) ht (s1.setCont_view t k) (h.rq.setCont k)
    (fun _ => rfl) rfl rfl

lemma Moved.setSuspend (h : Moved c u s s1 t m) (hm : m≠.ready) (hu : m≠.unused)
    (x : Bool) : Moved c u s (s1.modStatus t fun b => {b with suspend:=x}) t m :=
  h.step (s1.modStatus_view t _) (h.fits.setSuspend hm hu x) (h.rq.modStatus _) (fun _ => rfl)
    (fun hc => ⟨(h.tight hc).timed,(h.tight hc).cont⟩) ⟨rfl,rfl,rfl,rfl⟩

end Sched

end UniProton
