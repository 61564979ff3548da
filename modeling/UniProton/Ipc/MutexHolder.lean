import UniProton.Ipc.Mutex

namespace UniProton

open Framework Kernel Function

/-- Whether task `t` holds a mutex behind an event, given what holds before it and whether the mutex
is taken behind it. -/
def SemEvent.leaves (before taken : Bool) (t : Nat) : SemEvent → Bool
  | .acquired t' => decide (t'=t)
  | .reentered _ => before
  | .posted _ => before && taken
  | .created _ => false

namespace Kernel

/-- The mutexes that tasks have acquired themselves and not given back; a task that is not in use
has none. -/
def acquire (k k' : Kernel) (own : Nat → Nat → Bool) (t i : Nat) : Bool :=
  (k'.sched.status t).inuse && if k'.semLog i=k.semLog i then own t i
    else
      match k'.semLog i with
      | e::_ => e.leaves (own t i) (decide ((k'.sems i).semCount=0)) t
      | [] => false

end Kernel

def holderStart (cfg : Cfg) : Kernel×(Nat → Nat → Bool) := (Kernel.init cfg,fun _ _ => false)

def holderMachine (cfg : Cfg) : Machine (Kernel×(Nat → Nat → Bool)) Input where
  start x := x=holderStart cfg
  step x a := (x.1.step a,x.1.acquire (x.1.step a) x.2)

/-- `PRT_SemPend` takes the branch for the owner of a recursive mutex. -/
def reenters (k : Kernel) (i : Nat) : Prop :=
  (∃ n, k.enabled (.call (.semPend i n))=true) ∧ i<k.sched.cfg.maxSem ∧
    (k.sems i).used=true ∧ k.sched.cpu.intActive=false ∧
    (k.sems i).semType.isRecur=true ∧
    (k.sems i).semOwner=(k.sched.tcb k.sched.cpu.runningTask).taskPid

/-- `PRT_SemPost` takes the caller for the owner of a mutex. -/
def postsAsOwner (k : Kernel) (i : Nat) : Prop :=
  k.enabled (.call (.semPost i))=true ∧ i<k.sched.cfg.maxSem ∧
    (k.sems i).semType.isBin=true ∧ k.osSemPostErrorCheck i=.osOk

/-- A task that is treated as the owner of a mutex has acquired it itself, and the mutex is in its
list. -/
def HoldersOk (x : Kernel×(Nat → Nat → Bool)) : Prop :=
  ∀ i, reenters x.1 i ∨ postsAsOwner x.1 i →
    x.2 x.1.sched.cpu.runningTask i=true ∧ i∈x.1.semB.lists x.1.sched.cpu.runningTask

namespace Kernel

variable {k k' : Kernel} {i : Nat} {own : Nat → Nat → Bool} {x : SemAct}

def OwnOk (k : Kernel) (own : Nat → Nat → Bool) : Prop :=
  ∀ i, (k.sems i).used=true → (k.sems i).semType.isBin=true → (k.sems i).semCount=0 →
    own (k.sems i).semOwner i=true

lemma acquire_same {t : Nat} (h : k'.semLog i=k.semLog i)
    (hl : (k'.sched.status t).inuse=true) : k.acquire k' own t i=own t i := by
  unfold acquire
  rw [hl,if_pos h,Bool.true_and]

lemma acquire_cons {t : Nat} {e : SemEvent} {log : List SemEvent} (h : k'.semLog i=e::log)
    (hn : e::log≠k.semLog i) (hl : (k'.sched.status t).inuse=true) :
    k.acquire k' own t i=e.leaves (own t i) (decide ((k'.sems i).semCount=0)) t := by
  unfold acquire
  rw [hl,h,if_neg hn,Bool.true_and]

lemma OwnOk.step (h : k.OwnOk own) (hf : Fine False False False False True k)
    (hf' : Fine False False False False True k') (hr : k.sched.RunOk) (hs : SemStep k k' i x) :
    k'.OwnOk (k.acquire k' own) := by
  have hlive : ∀ j, (k'.sems j).used=true → (k'.sems j).semType.isBin=true →
      (k'.sems j).semCount=0 → (k'.sched.status (k'.sems j).semOwner).inuse=true :=
    fun j hu hb hz => ((hf'.mutex trivial j).taken hu hb hz).2
  -- A semaphore whose history did not grow.
  have hsame : ∀ j, k'.sems j=k.sems j → k'.semLog j=k.semLog j →
      (k'.sems j).used=true → (k'.sems j).semType.isBin=true → (k'.sems j).semCount=0 →
      k.acquire k' own (k'.sems j).semOwner j=true := by
    intro j hcb hlog hu hb hz
    rw [acquire_same hlog (hlive j hu hb hz)]
    rw [hcb] at hu hb hz ⊢
    exact h j hu hb hz
  intro j hu' hb' hz'
  have hl := hlive j hu' hb' hz'
  by_cases e : j=i
  swap
  . exact hsame j (hs.other e).1 (hs.other e).2.1 hu' hb' hz'
  subst e
  have hgrow : ∀ (e : SemEvent) (log : List SemEvent), k'.semLog j=e::log →
      k.semLog j <:+ log → k.acquire k' own (k'.sems j).semOwner j =
        e.leaves (own (k'.sems j).semOwner j) (decide ((k'.sems j).semCount=0))
          (k'.sems j).semOwner := by
    intro e log hg hlen
    refine acquire_cons hg (fun he => ?_) hl
    have hle := hlen.length_le
    rw [← he,List.length_cons] at hle
    omega
  -- The caller is the owner, so that the mutex is taken.
  have hown : (k.sems j).used=true → (k.sems j).semType.isRecur=true →
      k.sched.cpu.taskContext=true →
      (k.sems j).semOwner=(k.sched.tcb k.sched.cpu.runningTask).taskPid →
      own (k.sems j).semOwner j=true := by
    intro hu hrec ht ho
    obtain ⟨hp,hle,-⟩ := running_pid hf.core hr ht
    have hb := SemType.isBin_of_isRecur hrec
    refine h j hu hb ((hf.mutex trivial j).count_zero hu hb ?_)
    rw [ho,hp]
    rintro he
    exact k.invalid_owner (he ▸ hle)
  cases hs with
  | calm hs _ hg | wait _ _ _ hs _ _ hg => exact hsame j (by rw [hs]) (by rw [hg]) hu' hb' hz'
  | create _ _ _ _ _ hbin _ hk =>
    subst hk
    simp only [update_self] at hb' hz'
    rw [(hbin hb').1] at hz'
    cases hz'
  | delete _ _ _ hk =>
    subst hk
    simp [modSem] at hu'
  | reenter hu hrec ht ho hk =>
    subst hk
    rw [hgrow _ _ (update_self ..) (List.suffix_refl _)]
    simpa [modSem,logSem,SemEvent.leaves] using hown hu hrec ht ho
  | undo hu hrec hpos ho ht hk =>
    subst hk
    rw [hgrow _ _ (update_self ..) (List.suffix_refl _)]
    simp only [modSem,logSem,update_self] at hz'
    simpa [modSem,logSem,SemEvent.leaves,hz'] using hown hu hrec ht ho
  | take _ _ _ ht hk =>
    subst hk
    rw [hgrow _ _ (update_self ..) (List.suffix_refl _)]
    simp only [update_self]
    exact decide_eq_true (running_pid hf.core hr ht).1.symm
  | hand _ t _ _ hi _ _ hk =>
    subst hk
    obtain ⟨hp,-,-⟩ := waiter_pid hf.core (i:=j) (t:=t) (by rw [hi]; exact List.mem_cons_self)
    rw [hgrow _ _ (update_self ..) (List.suffix_cons _ _)]
    simp only [update_self]
    exact decide_eq_true hp.symm
  | release _ _ _ _ _ _ _ hk =>
    subst hk
    simp at hz'

end Kernel

/-- In runs that delete no holder of a mutex. -/
theorem holders_acquired {cfg : Cfg} {x : Kernel×(Nat → Nat → Bool)}
    (h : (holderMachine cfg).Reaches (fun x a => a.plain=true ∧ a.sparesHolders x.1) x) :
    HoldersOk x := by
  have hinv : Fine False False False False True x.1 ∧ x.1.OwnOk x.2 := by
    refine h.invariant (P:=fun x => Fine False False False False True x.1 ∧ x.1.OwnOk x.2) ?_ ?_
    . rintro x rfl
      exact ⟨init_fine cfg,nofun⟩
    rintro ⟨k,own⟩ a ⟨hf,ho⟩ ha
    have hf' : Fine False False False False True (k.step a) :=
      hf.step ⟨id,id,False.elim⟩ (Input.plain_ok ha.1 k) fun _ => ha.2
    refine ⟨hf',?_⟩
    change (k.step a).OwnOk (k.acquire (k.step a) own)
    by_cases hen : k.enabled a=true
    . have hab := hf.able ⟨id,id,False.elim⟩ (enabled_alive hen)
      obtain ⟨j,y,hs,-⟩ := exists_semStep hab hf.sem hen (Input.plain_ok ha.1 k)
      have hstep : k.step a=(k.act a).1 := if_pos hen
      rw [hstep] at hf' ⊢
      exact ho.step hf hf' hab.run hs
    have hstep : k.step a=k := if_neg hen
    rw [hstep]
    intro i hu hb hz
    rw [acquire_same rfl ((hf.mutex trivial i).taken hu hb hz).2]
    exact ho i hu hb hz
  obtain ⟨k,own⟩ := x
  obtain ⟨hf,ho⟩ := hinv
  -- In both cases the pid of the running task is that of the owner of a used mutex.
  have hmain : ∀ i call, k.enabled (.call call)=true → call.early=false →
      (k.sems i).used=true → (k.sems i).semType.isBin=true →
      k.sched.cpu.intActive=false →
      (k.sems i).semOwner=(k.sched.tcb k.sched.cpu.runningTask).taskPid →
      own k.sched.cpu.runningTask i=true ∧ i∈k.semB.lists k.sched.cpu.runningTask := by
    intro i call hen he hu hb hi howner
    have hbg := (enabled_call hen).2.bgd.resolve_right (by simp [he])
    have ht := Sched.taskContext_of hbg (by simp [hi])
    obtain ⟨hp,hle,-⟩ := running_pid hf.core (hf.run (enabled_alive hen)) ht
    have ho' := howner.trans hp
    have hz := (hf.mutex trivial i).count_zero hu hb fun hinv => k.invalid_owner (hinv ▸ ho' ▸ hle)
    have hown := ho i hu hb hz
    have hloc := ((hf.mutex trivial i).taken hu hb hz).1
    rw [ho'] at hown hloc
    exact ⟨hown,(k.semB.mem_iff _ _).mpr hloc⟩
  rintro i (⟨⟨n,hen⟩,-,hu,hi,hr,howner⟩ | ⟨hen,-,hb,hchk⟩)
  . exact hmain i _ hen rfl hu (SemType.isBin_of_isRecur hr) hi howner
  exact hmain i _ hen rfl (osSemPostErrorCheck_used hchk) hb (osSemPostErrorCheck_bin hchk hb)
    (osSemPostErrorCheck_owner hchk hb)

theorem holders_acquired_twice :
    let x := (holderMachine smallCfg).run (holderStart smallCfg) mutexInputs
    x.2 0 0=true ∧ x.1.osSemPostErrorCheck 0=.osOk ∧ HoldersOk x := by
  have hrun : (holderMachine smallCfg).Reaches (fun x a => a.plain=true ∧ a.sparesHolders x.1)
      ((holderMachine smallCfg).run (holderStart smallCfg) mutexInputs) := by
    apply Machine.Reaches.run (.start rfl) _
    exact ⟨⟨rfl,nofun⟩,⟨rfl,nofun⟩,⟨rfl,nofun⟩,⟨rfl,nofun⟩,⟨rfl,nofun⟩,⟨rfl,nofun⟩,
      ⟨rfl,nofun⟩,⟨rfl,nofun⟩,trivial⟩
  refine ⟨?_,?_,holders_acquired hrun⟩
  all_goals decide +kernel

def reuseInputs : List Input :=
  mutexInputs++[.call .taskExit,.call (.taskCreate (smallTask 4) true false),
    .call (.taskCreate (smallTask 3) true false),.call (.taskResume 0)]

theorem holders_lost_by_reuse :
    let x := (holderMachine smallCfg).run (holderStart smallCfg) reuseInputs
    (holderMachine smallCfg).Reaches (fun _ a => a.plain=true) x ∧
      x.1.sched.cpu.runningTask=0 ∧ x.2 0 0=false ∧ ¬HoldersOk x := by
  have hrun : (holderMachine smallCfg).Reaches (fun _ a => a.plain=true)
      ((holderMachine smallCfg).run (holderStart smallCfg) reuseInputs) :=
    Machine.Reaches.run (.start rfl) _ ⟨rfl,rfl,rfl,rfl,rfl,rfl,rfl,rfl,rfl,rfl,rfl,rfl,trivial⟩
  have hfacts : let x := (holderMachine smallCfg).run (holderStart smallCfg) reuseInputs
      x.1.enabled (.call (.semPend 0 osWaitForever))=true ∧
        (0<x.1.sched.cfg.maxSem ∧ (x.1.sems 0).used=true ∧
          x.1.sched.cpu.intActive=false ∧ (x.1.sems 0).semType.isRecur=true ∧
          (x.1.sems 0).semOwner=(x.1.sched.tcb x.1.sched.cpu.runningTask).taskPid) ∧
        x.1.sched.cpu.runningTask=0 ∧ x.2 0 0=false := by
    decide +kernel
  obtain ⟨hen,hb,hr,hown⟩ := hfacts
  refine ⟨hrun,hr,hown,fun hok => ?_⟩
  have ho := (hok 0 (.inl ⟨⟨_,hen⟩,hb⟩)).1
  rw [hr,hown] at ho
  cases ho

end UniProton
