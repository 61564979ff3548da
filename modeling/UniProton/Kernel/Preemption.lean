import UniProton.Kernel.ReadyQueue

namespace UniProton

open Framework Kernel

def Call.preempts : Call → Bool
  | .taskDelete _ | .taskExit | .taskLock | .taskUnlock => true
  | c => c.schedules

def Input.preempts : Input → Bool
  | .call c => c.preempts
  | _ => true

/-- The lock count has room for one more, and the idle task neither waits nor ends. -/
def Input.lockSafe (s : Sched) : Input → Prop
  | .call c => (c=.taskLock → s.cpu.uniTaskLock+1<2^16) ∧
      (c.mayWait=true ∨ c=.taskExit → s.cpu.taskContext=true → s.cpu.runningTask≠s.cpu.idleTaskId)
  | _ => True

/-- When a task is in its own code without the lock, it is the first of the most urgent ready
tasks, and it alone is marked as running. No switch was made under the lock. -/
structure Preempts (s : Sched) : Prop where
  first : s.userCode=true → s.cpu.uniTaskLock=0 →
    ∃ p, (s.readyList p).head? = some s.cpu.runningTask ∧ ∀ q<p, s.readyList q=[]
  only : s.userCode=true → s.cpu.uniTaskLock=0 →
    ∀ t ≤ s.cfg.tskMaxNum, (s.status t).running=true ↔ t=s.cpu.runningTask
  switches : ∀ w∈s.cpu.switches, w.lock=0

lemma Call.preempts_ok {s : Sched} {call : Call} (hc : call.preempts=true)
    (hm : MayCall s call) (hl : Input.lockSafe s (.call call)) :
    CallOk False False True True s call where
  plain := by
    cases call <;> first | rfl | cases hc
  lock he := ⟨False.elim,fun _ => hl.1 he⟩
  delete _ _ := False.elim
  exit he := by
    subst he
    exact ⟨fun _ hid => absurd hid (hl.2 (.inr rfl) (hm.task rfl)),False.elim⟩
  idle hw _ := hl.2 (.inl hw)
  sleep _ _ := id
  stale _ := False.elim

lemma fine_of_preempts {cfg : Cfg} {k : Kernel} (h : (kernelMachine cfg).Reaches
      (fun k i => i.preempts=true ∧ i.lockSafe k.sched) k) :
    Fine False False True True False k := by
  refine fine_of_reaches ⟨False.elim,id,id⟩ (fun k i hk hi hen => ⟨?_,False.elim⟩) h
  cases i with
  | call call => exact Call.preempts_ok hi.1 (enabled_call hen).2 hi.2
  | _ => exact trivial

theorem preemption_of_lockSafe {cfg : Cfg} {k : Kernel} (h : (kernelMachine cfg).Reaches
      (fun k i => i.preempts=true ∧ i.lockSafe k.sched) k) : Preempts k.sched := by
  have hf := fine_of_preempts h
  have hi := hf.idle trivial
  have halive : k.sched.cpu.uniTaskLock=0 → k.sched.cpu.crashed=false := by
    intro hz
    by_contra hc
    exact hi.alive ((Bool.not_eq_false _).mp hc) hz
  have hfirst : k.sched.userCode=true → k.sched.cpu.uniTaskLock=0 →
      k.sched.highestTask=some k.sched.cpu.runningTask := by
    intro hu hz
    simp only [Sched.userCode,Bool.and_eq_true] at hu
    exact (hf.cpu trivial (halive hz)).task hu.1.1 hz
  refine ⟨fun hu hz => ?_,fun hu hz t ht => ?_,hf.switches trivial⟩
  . have hh := hfirst hu hz
    obtain ⟨hle,hr⟩ := hf.core.highest_ready hh
    have hmem : k.sched.cpu.runningTask∈k.sched.readyList _ :=
      (hf.core.mem_readyList hle).mpr ⟨hr.ready,rfl⟩
    obtain ⟨p,t,ht,hhead,hmin⟩ :=
      hf.core.rq.first_ready (hf.core.prio_of_mem hmem) (List.ne_nil_of_mem hmem)
    obtain rfl : k.sched.cpu.runningTask=t := Option.some.inj (hh.symm.trans ht)
    exact ⟨p,hhead,hmin⟩
  have hr := hf.core.running t ht
  change (k.sched.view t).bits.running=true ↔ _
  rw [hr,decide_eq_true_eq]
  exact eq_comm

def lockInputs : List Input :=
  [.call (.taskCreate (smallTask 5) true false),.call (.taskResume 0),
   .call (.taskCreate (smallTask 3) true false),.activate true,.call .taskLock,.hwiEnter,
   .call (.taskResume 1),.hwiExit]

theorem preemption_of_lockSafe_unlock :
    let k := (kernelMachine smallCfg).run (Kernel.init smallCfg)
      (lockInputs++[.call .taskUnlock])
    k.sched.userCode=true ∧ k.sched.cpu.uniTaskLock=0 ∧ k.sched.cpu.runningTask=1 ∧
      Preempts k.sched := by
  have hrun : (kernelMachine smallCfg).Reaches (fun k i => i.preempts=true ∧ i.lockSafe k.sched)
      ((kernelMachine smallCfg).run (Kernel.init smallCfg) (lockInputs++[.call .taskUnlock])) := by
    apply Machine.Reaches.run (.start rfl) _
    refine ⟨⟨rfl,nofun,nofun⟩,⟨rfl,nofun,nofun⟩,⟨rfl,nofun,nofun⟩,⟨rfl,trivial⟩,
      ⟨rfl,fun _ => ?_,nofun⟩,⟨rfl,trivial⟩,⟨rfl,nofun,nofun⟩,⟨rfl,trivial⟩,
      ⟨rfl,nofun,nofun⟩,trivial⟩
    decide +kernel
  refine ⟨?_,?_,?_,preemption_of_lockSafe hrun⟩
  all_goals decide +kernel

lemma taskLock_reaches {cfg : Cfg} {k : Kernel} (ha : k.sched.cpu.crashed=false)
    (hu : k.sched.userCode=true) (hl : k.sched.cpu.uniTaskLock<2^16)
    (hk : (kernelMachine cfg).Reaches (fun _ i => i.preempts=true) k) (n : Nat) :
    ∃ k' req, (kernelMachine cfg).Reaches (fun _ i => i.preempts=true) k' ∧
      k'.sched={k.sched with cpu := {k.sched.cpu with
        uniTaskLock := (k.sched.cpu.uniTaskLock+n)%2^16, tskReq := req}} := by
  induction n with
  | zero =>
    refine ⟨k,k.sched.cpu.tskReq,hk,?_⟩
    rw [Nat.add_zero,Nat.mod_eq_of_lt hl]
  | succ n ih =>
    obtain ⟨k',req,hk',hs⟩ := ih
    have hbg : k.sched.cpu.bgdActive=true := by
      simp only [Sched.userCode,Cpu.taskContext,Bool.and_eq_true] at hu
      exact hu.1.1.1.1
    have hen : k'.enabled (.call .taskLock)=true := by
      have hu' : k'.sched.userCode=true := by
        rw [hs]
        exact hu
      have ha' : k'.sched.cpu.crashed=false := by
        rw [hs]
        exact ha
      have hb' : k'.sched.cpu.bgdActive=true := by
        rw [hs]
        exact hbg
      simp [enabled,ha',hb',hu']
    have hstep : (k'.step (.call .taskLock)).sched=k'.sched.prtTaskLock := by
      unfold Kernel.step
      rw [if_pos hen]
      rfl
    refine ⟨k'.step (.call .taskLock),k'.sched.prtTaskLock.cpu.tskReq,hk'.step rfl,?_⟩
    rw [hstep,Sched.prtTaskLock,hs]
    rw [Nat.mod_add_mod,Nat.add_assoc]

/-- The count is 16 bits wide: the 65536th lock makes it zero while a more urgent task is ready. -/
theorem preemption_lost_by_lock_wrap :
    ∃ k, (kernelMachine smallCfg).Reaches (fun _ i => i.preempts=true) k ∧
      k.sched.userCode=true ∧ k.sched.cpu.uniTaskLock=0 ∧ k.sched.cpu.runningTask=0 ∧
      k.sched.readyList 3=[1] ∧ ¬Preempts k.sched := by
  have hrun : (kernelMachine smallCfg).Reaches (fun _ i => i.preempts=true)
      ((kernelMachine smallCfg).run (Kernel.init smallCfg) lockInputs) :=
    Machine.Reaches.run (.start rfl) _ ⟨rfl,rfl,rfl,rfl,rfl,rfl,rfl,rfl,trivial⟩
  have hfacts : let s := ((kernelMachine smallCfg).run (Kernel.init smallCfg) lockInputs).sched
      s.cpu.crashed=false ∧ s.userCode=true ∧ s.cpu.uniTaskLock=1 ∧
        s.cpu.runningTask=0 ∧ s.readyList 3=[1] ∧ s.readyList 0=[] ∧ s.readyList 1=[] ∧
        s.readyList 2=[] := by
    refine ⟨?_,?_,?_,?_,?_,?_,?_,?_⟩
    all_goals decide +kernel
  generalize (kernelMachine smallCfg).run (Kernel.init smallCfg) lockInputs=k at hrun hfacts
  obtain ⟨ha,hu,hl,hr,h3,h0,h1,h2⟩ := hfacts
  obtain ⟨n,hn⟩ : ∃ n, n=65535 := ⟨_,rfl⟩
  obtain ⟨k',req,hk',hs⟩ := taskLock_reaches ha hu (by rw [hl]; decide) hrun n
  have hlists : ∀ p, k'.sched.readyList p=k.sched.readyList p := by
    intro p
    rw [hs]
    rfl
  have hu' : k'.sched.userCode=true := by rw [hs]; exact hu
  have hl' : k'.sched.cpu.uniTaskLock=0 := by
    rw [hs]
    change (k.sched.cpu.uniTaskLock+n)%2^16=0
    omega
  have hr' : k'.sched.cpu.runningTask=0 := by rw [hs]; exact hr
  have h3' : k'.sched.readyList 3=[1] := by rw [hlists,h3]
  refine ⟨k',hk',hu',hl',hr',h3',fun hp => ?_⟩
  obtain ⟨p,hhead,hmin⟩ := hp.first hu' hl'
  rw [hr'] at hhead
  rcases lt_trichotomy p 3 with hlt | rfl | hgt
  . have hnil : k'.sched.readyList p=[] := by
      rw [hlists]
      obtain rfl | rfl | rfl : p=0 ∨ p=1 ∨ p=2 := by omega
      . exact h0
      . exact h1
      exact h2
    rw [hnil] at hhead
    cases hhead
  . rw [h3'] at hhead
    cases hhead
  rw [hmin 3 hgt] at h3'
  cases h3'

/-- Where the lock count has room and the idle task neither waits nor ends, there is always a task
for `OsTskHighestSet` to find, and the processor is lost only under the lock. -/
theorem ready_queue_never_empty {cfg : Cfg} {k : Kernel} (h : (kernelMachine cfg).Reaches
      (fun k i => i.preempts=true ∧ i.lockSafe k.sched) k) :
    (k.sched.cpu.bgdActive=true → ∃ t p, k.sched.highestTask=some t ∧
      (k.sched.readyList p).head? = some t ∧ ∀ q<p, k.sched.readyList q=[]) ∧
      (k.sched.cpu.crashed=true → k.sched.cpu.uniTaskLock≠0) := by
  have hf := fine_of_preempts h
  have hi := hf.idle trivial
  refine ⟨fun hb => ?_,hi.alive⟩
  have hmem := (hf.core.mem_readyList hi.real).mpr ⟨hi.ready hb,rfl⟩
  obtain ⟨p,t,ht,hhead,hmin⟩ :=
    hf.core.rq.first_ready (hf.core.prio_of_mem hmem) (List.ne_nil_of_mem hmem)
  exact ⟨t,p,ht,hhead,hmin⟩

theorem ready_queue_never_empty_activate :
    ∃ k, (kernelMachine smallCfg).run (Kernel.init smallCfg) [.activate true]=k ∧
      ∃ t, k.sched.highestTask=some t := by
  have hrun : (kernelMachine smallCfg).Reaches (fun k i => i.preempts=true ∧ i.lockSafe k.sched)
      ((kernelMachine smallCfg).run (Kernel.init smallCfg) [.activate true]) := by
    apply Machine.Reaches.run (.start rfl) _
    exact ⟨⟨rfl,trivial⟩,trivial⟩
  obtain ⟨t,-,ht,-⟩ := (ready_queue_never_empty hrun).1 (by decide +kernel)
  exact ⟨_,rfl,t,ht⟩

end UniProton
