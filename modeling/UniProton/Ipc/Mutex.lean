import UniProton.Kernel.Reach

namespace UniProton

open Framework Function List

/-- The pends of a task since it acquired a mutex, in a history with the newest event first. -/
def pendsSince (o : Nat) : List SemEvent → Nat
  | .acquired t::_ => if t=o then 1 else 0
  | .reentered t::log => pendsSince o log + if t=o then 1 else 0
  | .posted _::log => pendsSince o log
  | _ => 0

def postsSince (o : Nat) : List SemEvent → Nat
  | .posted t::log => postsSince o log + if t=o then 1 else 0
  | .reentered _::log => postsSince o log
  | _ => 0

lemma pendsSince_replicate (o n : Nat) (log : List SemEvent) :
    pendsSince o (List.replicate n (.reentered o)++log)=pendsSince o log+n := by
  induction n with
  | zero => rfl
  | succ n ih => rw [replicate_succ,List.cons_append,pendsSince,ih,if_pos rfl,Nat.add_assoc]

lemma postsSince_replicate (o n : Nat) (log : List SemEvent) :
    postsSince o (List.replicate n (.reentered o)++log)=postsSince o log := by
  induction n with
  | zero => rfl
  | succ n ih => rw [replicate_succ,List.cons_append,postsSince,ih]

open Kernel

/-- No task is deleted while it holds a mutex. -/
def Input.sparesHolders (k : Kernel) (a : Input) : Prop :=
  ∀ t, Deletes k.sched a t → k.semB.lists t=[]

/-- The 32-bit count of repeated pends has room for one more. -/
def Input.recurSafe (k : Kernel) : Input → Prop
  | .call (.semPend i _) => (k.sems i).semType.isRecur=true →
      (k.sems i).semOwner=(k.sched.tcb k.sched.cpu.runningTask).taskPid →
      (k.sems i).recurCount+1<2^32
  | _ => True

namespace Kernel

variable {cfg : Cfg} {k k' : Kernel} {i : Nat} {x : SemAct}

lemma fine_of_spares {ok : Kernel → Input → Prop}
    (hok : ∀ k a, ok k a → a.plain=true ∧ a.sparesHolders k)
    (h : (kernelMachine cfg).Reaches ok k) : Fine False False False False True k :=
  fine_of_reaches ⟨id,id,False.elim⟩
    (fun k a _ ha _ => ⟨Input.plain_ok (hok k a ha).1 k,fun _ => (hok k a ha).2⟩) h

/-- The count of repeated pends of a held recursive mutex agrees with its history. -/
def DepthOk (k : Kernel) : Prop :=
  ∀ i, (k.sems i).used=true → (k.sems i).semType.isRecur=true → (k.sems i).semCount=0 →
    (k.sems i).recurCount+1+postsSince (k.sems i).semOwner (k.semLog i) =
      pendsSince (k.sems i).semOwner (k.semLog i)

lemma DepthOk.step (h : k.DepthOk) (hf : Fine False False False False True k)
    (hr : k.sched.RunOk) (hs : SemStep k k' i x)
    (hsafe : x=.reenter → (k.sems i).recurCount+1<2^32) : k'.DepthOk := by
  intro j
  by_cases e : j=i
  swap
  . rw [(hs.other e).1,(hs.other e).2.1]
    exact h j
  subst e
  have hflat : (k.sems j).used=true → (k.sems j).semType.isRecur=true →
      (k.sems j).semCount≠0 → (k.sems j).recurCount=0 := fun hu hrec hz =>
    ((hf.mutex trivial j).free hu (SemType.isBin_of_isRecur hrec) hz).2.2
  have hzero : (k.sems j).used=true → (k.sems j).semType.isRecur=true →
      k.sched.cpu.taskContext=true →
      (k.sems j).semOwner=(k.sched.tcb k.sched.cpu.runningTask).taskPid →
      (k.sems j).semCount=0 ∧ (k.sems j).semOwner=k.sched.cpu.runningTask := by
    intro hu hrec ht ho
    obtain ⟨hp,hle,-⟩ := running_pid hf.core hr ht
    refine ⟨(hf.mutex trivial j).count_zero hu (SemType.isBin_of_isRecur hrec) ?_,ho.trans hp⟩
    rw [ho,hp]
    rintro he
    exact k.invalid_owner (he ▸ hle)
  cases hs with
  | calm hs _ hg | wait _ _ _ hs _ _ hg =>
    rw [hs,hg]
    exact h j
  | create _ _ _ _ _ hbin _ hk =>
    subst hk
    simp only [update_self]
    intro _ hrec hz
    rw [(hbin (SemType.isBin_of_isRecur hrec)).1] at hz
    cases hz
  | delete _ _ _ hk =>
    subst hk
    simp [modSem]
  | reenter hu hrec ht ho hk =>
    subst hk
    obtain ⟨hz,ho'⟩ := hzero hu hrec ht ho
    have hi := h j hu hrec hz
    simp only [modSem,logSem,update_self,postsSince,pendsSince,if_pos ho'.symm,
      Nat.mod_eq_of_lt (hsafe rfl)]
    omega
  | undo hu hrec hpos ho ht hk =>
    subst hk
    obtain ⟨hz,ho'⟩ := hzero hu hrec ht ho
    have hi := h j hu hrec hz
    simp only [modSem,logSem,update_self,postsSince,pendsSince,if_pos ho'.symm]
    omega
  | take _ hu hz ht hk =>
    subst hk
    obtain ⟨hp,-,-⟩ := running_pid hf.core hr ht
    simp only [update_self,postsSince,pendsSince,if_pos hp.symm]
    intro _ hrec _
    rw [hflat hu hrec (by omega)]
  | hand _ t _ hu hi _ hrec' hk =>
    subst hk
    obtain ⟨hp,-,-⟩ := waiter_pid hf.core (i:=j) (t:=t) (by rw [hi]; exact mem_cons_self)
    simp only [update_self,postsSince,pendsSince,if_pos hp.symm]
    intro _ hrec _
    rw [hrec' hrec]
  | release _ _ _ _ _ _ _ hk =>
    subst hk
    simp [update_self]

lemma init_depthOk (cfg : Cfg) : (init cfg).DepthOk := nofun

end Kernel

/-- A mutex and its owner, in a state and for the posts that it meets. -/
structure MutexOwned (k : Kernel) (i : Nat) : Prop where
  count : (k.sems i).semCount=0 ∨ (k.sems i).semCount=1
  owner : (k.sems i).semCount=0 ↔ (k.sems i).semOwner≤k.sched.cfg.tskMaxNum ∧
    (k.sched.status (k.sems i).semOwner).inuse=true
  linked : (k.sems i).semCount=0 → ∀ t, i∈k.semB.lists t ↔ t=(k.sems i).semOwner
  free : (k.sems i).semCount=1 → (k.sems i).semOwner=osInvalidOwnerId ∧
    (k.sems i).recurCount=0 ∧ k.semList i=[]
  depth : (k.sems i).semCount=0 → (k.sems i).semType.isRecur=true →
    (k.sems i).recurCount+1+postsSince (k.sems i).semOwner (k.semLog i) =
      pendsSince (k.sems i).semOwner (k.semLog i)
  hand : k.enabled (.call (.semPost i))=true → (k.prtSemPost i).2=.osOk →
    (k.sems i).recurCount=0 → ∀ t l, k.semList i=t::l →
    ((k.prtSemPost i).1.sems i).semOwner=t ∧ ((k.prtSemPost i).1.sems i).semCount=0 ∧
      (k.prtSemPost i).1.semList i=l
  foreign : k.enabled (.call (.semPost i))=true →
    k.sched.cpu.intActive=true ∨ k.sched.cpu.runningTask≠(k.sems i).semOwner →
    (k.prtSemPost i).1=k

namespace Kernel

variable {cfg : Cfg} {k k' : Kernel} {i : Nat}

section post

variable (hf : Fine False False False False True k)
  (hen : k.enabled (.call (.semPost i))=true)

include hf hen

lemma post_hand (hok : (k.prtSemPost i).2=.osOk) (hz : (k.sems i).recurCount=0) {t : Nat}
    {l : List Nat} (hl : k.semList i=t::l) :
    ((k.prtSemPost i).1.sems i).semOwner=t ∧ ((k.prtSemPost i).1.sems i).semCount=0 ∧
      (k.prtSemPost i).1.semList i=l := by
  have hC : Conds False False False False True := ⟨id,id,False.elim⟩
  have hbg := (enabled_call hen).2.bgd.resolve_right nofun
  have hc : (k.sems i).semCount=0 := (hf.sem.each i).taken (by rw [hl]; exact List.cons_ne_nil _ _)
  rcases prtSemPost_step (hf.able hC (enabled_alive hen)) hbg hf.sem i with
    ⟨-,hfull⟩ | ⟨-,hs | hs | hs⟩
  . rw [(hfull hok).2] at hc
    cases hc
  . cases hs with
    | undo _ _ hpos =>
      rw [hz] at hpos
      cases hpos
  . cases hs with
    | hand _ t' l' _ hi _ _ hk hl' =>
      obtain ⟨rfl,rfl⟩ := List.cons.inj (hl.symm.trans hi)
      obtain ⟨hp,-,-⟩ := waiter_pid hf.core (i:=i) (t:=t) (by rw [hl]; exact mem_cons_self)
      rw [hk]
      simp only [update_self]
      exact ⟨hp,hc,(hl' i).trans (if_pos rfl)⟩
  cases hs with
  | release _ _ hi =>
    rw [hl] at hi
    cases hi

lemma post_foreign (hb : (k.sems i).semType.isBin=true) (h : k.sched.cpu.intActive=true ∨
    k.sched.cpu.runningTask≠(k.sems i).semOwner) : (k.prtSemPost i).1=k := by
  have hbg := (enabled_call hen).2.bgd.resolve_right nofun
  unfold prtSemPost
  split
  . rfl
  split
  . rfl
  next hchk =>
  have hchk' := not_not.mp hchk
  have hi := osSemPostErrorCheck_bin hchk' hb
  have hr := hf.run (enabled_alive hen)
  obtain ⟨hp,-,-⟩ := running_pid hf.core hr (Sched.taskContext_of hbg (by simp [hi]))
  rcases h with h | h
  . rw [hi] at h
    cases h
  exact absurd (hp.symm.trans (osSemPostErrorCheck_owner hchk' hb).symm) h

end post

end Kernel

/-- In runs that delete no holder of a mutex and nest less than 2^32 pends. -/
theorem mutex_owned {cfg : Cfg} {k : Kernel} (h : (kernelMachine cfg).Reaches
      (fun k a => a.plain=true ∧ a.sparesHolders k ∧ a.recurSafe k) k) {i : Nat}
    (hu : (k.sems i).used=true) (hb : (k.sems i).semType.isBin=true) : MutexOwned k i := by
  have hfine : ∀ k, (kernelMachine cfg).Reaches
      (fun k a => a.plain=true ∧ a.sparesHolders k ∧ a.recurSafe k) k →
      Fine False False False False True k :=
    fun k => fine_of_spares fun k a ha => ⟨ha.1,ha.2.1⟩
  have hf := hfine k h
  have hd : k.DepthOk := by
    refine h.invariant_of hfine ?_ fun k a hf hd ha => ?_
    . rintro k rfl
      exact init_depthOk cfg
    change (k.step a).DepthOk
    unfold Kernel.step
    split
    . next hen =>
      have hab := hf.able ⟨id,id,False.elim⟩ (enabled_alive hen)
      obtain ⟨j,x,hs,hby⟩ := exists_semStep hab hf.sem hen (Input.plain_ok ha.1 k)
      apply hd.step hf hab.run hs
      rintro rfl
      obtain ⟨n,rfl⟩ := hby
      cases hs with
      | reenter _ hrec _ ho => exact ha.2.2 hrec ho
    exact hd
  have hm := hf.mutex trivial i
  have hful := (hf.sem.each i).full hb
  simp only [osSemFull] at hful
  refine ⟨by omega,⟨fun hz => ?_,fun ho => ?_⟩,fun hz t => ?_,fun hz => ?_,
    fun hz hr => hd i hu hr hz,fun hen hok hz t l hl => post_hand hf hen hok hz hl,
    fun hen h => post_foreign hf hen hb h⟩
  . exact ⟨(hf.sem.each i).owner hb hz,(hm.taken hu hb hz).2⟩
  . by_contra hz
    rw [(hm.free hu hb hz).2.1] at ho
    exact k.invalid_owner ho.1
  . rw [k.semB.mem_iff,(hm.taken hu hb hz).1,Option.some.injEq,eq_comm]
  have hn : (k.sems i).semCount≠0 := by omega
  refine ⟨(hm.free hu hb hn).2.1,(hm.free hu hb hn).2.2,?_⟩
  by_contra hl
  exact hn ((hf.sem.each i).taken hl)

def mutexInputs : List Input :=
  [.call (.taskCreate (smallTask 3) true false),.call (.taskResume 0),
   .call (.taskCreate (smallTask 5) true false),.call (.taskResume 1),.call (.mutexCreate true),
   .activate true,.call (.semPend 0 osWaitForever),.call (.semPend 0 osWaitForever)]

theorem mutex_owned_waiter :
    let k := (kernelMachine smallCfg).run (Kernel.init smallCfg)
      (mutexInputs++[.call (.taskDelay 2),.call (.semPend 0 osWaitForever)])
    k.semList 0=[1] ∧ (k.sems 0).recurCount=1 ∧ MutexOwned k 0 := by
  have hrun : (kernelMachine smallCfg).Reaches
      (fun k a => a.plain=true ∧ a.sparesHolders k ∧ a.recurSafe k)
      ((kernelMachine smallCfg).run (Kernel.init smallCfg)
        (mutexInputs++[.call (.taskDelay 2),.call (.semPend 0 osWaitForever)])) := by
    apply Machine.Reaches.run (.start rfl) _
    refine ⟨⟨rfl,nofun,trivial⟩,⟨rfl,nofun,trivial⟩,⟨rfl,nofun,trivial⟩,
      ⟨rfl,nofun,trivial⟩,⟨rfl,nofun,trivial⟩,⟨rfl,nofun,trivial⟩,
      ⟨rfl,nofun,fun _ _ => ?_⟩,⟨rfl,nofun,fun _ _ => ?_⟩,⟨rfl,nofun,trivial⟩,
      ⟨rfl,nofun,fun _ _ => ?_⟩,trivial⟩
    all_goals decide +kernel
  refine ⟨?_,?_,mutex_owned hrun ?_ ?_⟩
  all_goals decide +kernel

lemma reenter_reaches {cfg : Cfg} {k : Kernel} {i : Nat} (hi : i<k.sched.cfg.maxSem)
    (ha : k.sched.cpu.crashed=false) (hc : k.sched.userCode=true)
    (hu : (k.sems i).used=true) (hr : (k.sems i).semType.isRecur=true)
    (ho : (k.sems i).semOwner=(k.sched.tcb k.sched.cpu.runningTask).taskPid)
    (hl : (k.sems i).recurCount<2^32)
    (hk : (kernelMachine cfg).Reaches (fun k a => a.plain=true ∧ a.sparesHolders k) k) (n : Nat) :
    ∃ k', (kernelMachine cfg).Reaches (fun k a => a.plain=true ∧ a.sparesHolders k) k' ∧
      k'.sched=k.sched ∧
      k'.sems i={k.sems i with recurCount:=((k.sems i).recurCount+n)%2^32} ∧
      k'.semLog i=List.replicate n (.reentered k.sched.cpu.runningTask)++k.semLog i := by
  induction n with
  | zero => exact ⟨k,hk,rfl,by rw [Nat.add_zero,Nat.mod_eq_of_lt hl],rfl⟩
  | succ n ih =>
    obtain ⟨k',hk',hs,hcb,hlog⟩ := ih
    have hctx : k.sched.cpu.bgdActive=true ∧ k.sched.cpu.intActive=false := by
      simp only [Sched.userCode,Cpu.taskContext,Bool.and_eq_true,Bool.not_eq_true'] at hc
      simp [Cpu.intActive,hc.1.1.1.1,hc.1.1.1.2,hc.1.1.2]
    have hen : k'.enabled (.call (.semPend i osWaitForever))=true := by
      simp [enabled,hs,ha,hctx.1,hc]
    have hpend : (k'.prtSemPend i osWaitForever).1=(k'.modSem i fun c =>
        {c with recurCount:=(c.recurCount+1)%2^32}).logSem i
          (.reentered k'.sched.cpu.runningTask) := by
      unfold prtSemPend osSemPendNotNeedSche
      simp only [hs,hcb,hu,hr,ho,hctx.2,not_le.mpr hi,if_false,if_true,and_self,
        Bool.true_eq_false,Bool.false_eq_true]
    have hstep : k'.step (.call (.semPend i osWaitForever)) =
        (k'.prtSemPend i osWaitForever).1 := by
      unfold Kernel.step
      rw [if_pos hen]
      rfl
    refine ⟨_,hk'.step (i:=.call (.semPend i osWaitForever)) ⟨rfl,by rintro _ ⟨⟩⟩,?_⟩
    change (k'.step _).sched=_ ∧ (k'.step _).sems i=_ ∧ (k'.step _).semLog i=_
    rw [hstep,hpend]
    refine ⟨hs,?_,?_⟩
    . simp only [logSem,modSem,update_self,hcb]
      rw [Nat.mod_add_mod,Nat.add_assoc]
    simp only [logSem,modSem,update_self,hlog,hs]
    rfl

/-- The 2^32-th repeated pend takes the count back to its start. -/
theorem mutex_depth_lost_by_wrap :
    ∃ k, (kernelMachine smallCfg).Reaches (fun k a => a.plain=true ∧ a.sparesHolders k) k ∧
      (k.sems 0).used=true ∧ (k.sems 0).semType=.bin true ∧ (k.sems 0).semCount=0 ∧
      (k.sems 0).recurCount=0 ∧ pendsSince (k.sems 0).semOwner (k.semLog 0)=2^32+1 ∧
      ¬MutexOwned k 0 := by
  have hrun : (kernelMachine smallCfg).Reaches (fun k a => a.plain=true ∧ a.sparesHolders k)
      ((kernelMachine smallCfg).run (Kernel.init smallCfg) mutexInputs) := by
    apply Machine.Reaches.run (.start rfl) _
    exact ⟨⟨rfl,nofun⟩,⟨rfl,nofun⟩,⟨rfl,nofun⟩,⟨rfl,nofun⟩,⟨rfl,nofun⟩,⟨rfl,nofun⟩,
      ⟨rfl,nofun⟩,⟨rfl,nofun⟩,trivial⟩
  have hfacts : let k := (kernelMachine smallCfg).run (Kernel.init smallCfg) mutexInputs
      0<k.sched.cfg.maxSem ∧ k.sched.cpu.crashed=false ∧ k.sched.userCode=true ∧
        k.sched.cpu.runningTask=0 ∧ (k.sched.tcb 0).taskPid=0 ∧
        ((k.sems 0).used=true ∧ (k.sems 0).semType=.bin true ∧ (k.sems 0).semCount=0 ∧
          (k.sems 0).semOwner=0 ∧ (k.sems 0).recurCount=1) ∧
        k.semLog 0=[.reentered 0,.acquired 0,.created 1] := by
    decide +kernel
  generalize (kernelMachine smallCfg).run (Kernel.init smallCfg) mutexInputs=k at hrun hfacts
  obtain ⟨hi,ha,hc,hrt,hpid,⟨hu,hty,hz,ho,hrc⟩,hlog⟩ := hfacts
  obtain ⟨n,hn⟩ : ∃ n, n=2^32-1 := ⟨_,rfl⟩
  obtain ⟨k',hk',hs,hcb,hlog'⟩ := reenter_reaches hi ha hc hu (by rw [hty]; rfl)
    (by rw [ho,hrt,hpid]) (by rw [hrc]; decide) hrun n
  have hown : (k'.sems 0).semOwner=0 := by rw [hcb]; exact ho
  have hrec : (k'.sems 0).recurCount=0 := by
    rw [hcb]
    change ((k.sems 0).recurCount+n)%2^32=0
    omega
  have hpends : pendsSince (k'.sems 0).semOwner (k'.semLog 0)=2^32+1 := by
    rw [hown,hlog',hrt,pendsSince_replicate,hlog,hn]
    rfl
  have hposts : postsSince (k'.sems 0).semOwner (k'.semLog 0)=0 := by
    rw [hown,hlog',hrt,postsSince_replicate,hlog]
    rfl
  have hz' : (k'.sems 0).semCount=0 := by rw [hcb]; exact hz
  have hty' : (k'.sems 0).semType=.bin true := by rw [hcb]; exact hty
  refine ⟨k',hk',by rw [hcb]; exact hu,hty',hz',hrec,hpends,fun hm => ?_⟩
  have hd := hm.depth hz' (by rw [hty']; rfl)
  omega

end UniProton
