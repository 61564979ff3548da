import UniProton.Kernel.Steps

namespace UniProton

open Framework Function List Sched

namespace Sched

variable {s : Sched} {t i j : Nat}

lemma osTskSchedule_pend (s : Sched) : s.osTskSchedule.pend=s.pend := by
  have hmain : ∀ s : Sched, s.osMainSchedule.pend=s.pend := by
    intro s
    unfold osMainSchedule
    split
    . split <;> rfl
    split <;> rfl
  simp only [osTskSchedule]
  split
  . split
    . rfl
    exact hmain _
  rfl

lemma timeoutSet_pend (s : Sched) (t n : Nat) : (s.timeoutSet t n).pend=s.pend := by
  unfold timeoutSet
  split <;> rfl

lemma timeoutClear_pend (s : Sched) (t : Nat) : (s.timeoutClear t).pend=s.pend := by
  unfold timeoutClear
  split <;> rfl

lemma osTskReadyAdd_sem (s : Sched) (t j : Nat) :
    (s.osTskReadyAdd t).pend.lists (.sem j)=s.pend.lists (.sem j) :=
  s.pend.insert_lists_ne t _ nofun

lemma osTskReadyDel_sem (h : s.pend.loc t≠some (.sem j)) :
    (s.osTskReadyDel t).pend.lists (.sem j)=s.pend.lists (.sem j) :=
  s.pend.delete_lists_ne h

lemma readyAddUnlessSuspend_sem (s : Sched) (t j : Nat) :
    (s.readyAddUnlessSuspend t).pend.lists (.sem j)=s.pend.lists (.sem j) := by
  unfold readyAddUnlessSuspend
  split
  . rfl
  exact s.osTskReadyAdd_sem t j

lemma Core.loc_ne_sem {m : TskMode} (hf : Fits s.cfg.prioLowest m (s.view t))
    (hm : m.runnable=true) : s.pend.loc t≠some (.sem j) := by
  intro hl
  obtain rfl := hf.eq_of_loc_sem hl
  cases hm

lemma Able.running_loc {c u : Prop} (h : Able c u s) (j : Nat) :
    s.pend.loc s.cpu.runningTask≠some (.sem j) := by
  intro hj
  obtain ⟨m,hf,hr⟩ := h.run.runnable (h.core.le_of_loc hj)
  exact Core.loc_ne_sem hf hr hj

lemma quiet_semLists {T : Touch} (hT : ¬T.sem) :
    Quiet T fun s s' => ∀ j, (s'.pend.lists (.sem j)).Sublist (s.pend.lists (.sem j)) where
  refl s j := .refl _
  trans h h' j := (h' j).trans (h j)
  frame _ _ hp j := by
    rw [hp]
  modTcb s t f _ j := .refl _
  setCont s t k _ j := .refl _
  pendInsert s t h i hj j := by
    have hne : PendHead.sem j≠h := by
      rintro rfl
      exact hT hj
    change ((s.pend.insert t h i).lists (.sem j)).Sublist _
    rw [s.pend.insert_lists_ne t i hne]
  pendDelete s t j := by
    change ((s.pend.delete t).lists (.sem j)).Sublist _
    rw [s.pend.delete_lists_eq]
    exact erase_sublist

end Sched

namespace Kernel

/-- At most sorts lists of waiting tasks anew, with new stamps for those that move. -/
structure Resorted (k k' : Kernel) : Prop where
  sems : k'.sems=k.sems
  semB : k'.semB=k.semB
  unused : k'.unusedSem=k.unusedSem
  log : k'.semLog=k.semLog
  perm : ∀ j, (k'.semList j).Perm (k.semList j)
  fifo : ∀ j, (k.sems j).semMode=.fifo → k'.semList j=k.semList j
  stamp : ∀ t, k'.queuedAt t=k.queuedAt t ∨ (k.clock≤k'.queuedAt t ∧
    k'.queuedAt t<k'.clock ∧ ∃ j, t∈k.semList j ∧ (k.sems j).semMode=.prior)
  clock : k.clock≤k'.clock

variable {c u d e : Prop} {k k' k1 : Kernel} {i o t : Nat} {call : Call}

lemma Resorted.of_lists {s : Sched}
    (h : ∀ j, s.pend.lists (.sem j)=k.sched.pend.lists (.sem j)) :
    k.Resorted {k with sched:=s} :=
  ⟨rfl,rfl,rfl,rfl,fun j => .of_eq (h j),fun j _ => h j,fun _ => .inl rfl,le_rfl⟩

lemma Resorted.refl (k : Kernel) : k.Resorted k := .of_lists fun _ => rfl

lemma Resorted.trans (h : k.Resorted k1) (h' : k1.Resorted k') : k.Resorted k' := by
  refine ⟨h'.sems.trans h.sems,h'.semB.trans h.semB,h'.unused.trans h.unused,
    h'.log.trans h.log,fun j => (h'.perm j).trans (h.perm j),fun j hj => ?_,fun t => ?_,
    le_trans h.clock h'.clock⟩
  . exact (h'.fifo j (by rw [h.sems]; exact hj)).trans (h.fifo j hj)
  rcases h'.stamp t with ht' | ⟨hlo,hhi,j,hj,hm⟩
  . rcases h.stamp t with ht | ⟨hlo,hhi,hj⟩
    . exact .inl (ht'.trans ht)
    rw [ht']
    exact .inr ⟨hlo,lt_of_lt_of_le hhi h'.clock,hj⟩
  rw [h.sems] at hm
  exact .inr ⟨le_trans h.clock hlo,hhi,j,(h.perm j).mem_iff.mp hj,hm⟩

lemma raise_moved (h : k.sched.Core) (ho : o≤k.sched.cfg.tskMaxNum)
    (hf : Fits k.sched.cfg.prioLowest (.sem i) (k.sched.view o))
    {new : Nat} (hnew : new≤k.sched.cfg.prioLowest) :
    Moved False False k.sched (k.raise o new i).sched o (.sem i) ∧
      (k.raise o new i).sched.Core := by
  have hm : Moved False False k.sched (k.raise o new i).sched o (.sem i) := by
    have hm1 := (Moved.refl (c:=False) (u:=False) h.rq hf False.elim).setPrio nofun hnew
    unfold raise
    split
    . exact hm1.resort _
    exact hm1
  exact ⟨hm,hm.core h ho nofun⟩

lemma raise_resorted (hl : k.sched.pend.loc o=some (.sem i)) (new : Nat) :
    k.Resorted (k.raise o new i) := by
  have h1 : k.Resorted (k.setPriority o new) := .of_lists fun _ => rfl
  unfold raise
  split
  . next hp =>
    refine ⟨rfl,rfl,rfl,rfl,fun j => k.sched.pend.delete_insert_perm _ hl _,fun j hj => ?_,
      fun t => ?_,Nat.le_succ _⟩
    . have hne : PendHead.sem j≠.sem i := by
        rintro he
        obtain rfl := PendHead.sem.inj he
        rw [show (k.sems j).semMode=.prior from hp] at hj
        cases hj
      have hlne : k.sched.pend.loc o≠some (.sem j) := by
        rw [hl]
        exact fun he => hne (Option.some.inj he).symm
      change ((k.sched.pend.delete o).insert o (.sem i) _).lists (.sem j)=_
      rw [Links.insert_lists_ne _ _ _ hne,Links.delete_lists_ne _ hlne]
      rfl
    by_cases he : t=o
    . subst he
      refine .inr ⟨?_,?_,i,(k.sched.pend.mem_iff _ _).mpr hl,hp⟩
      . change k.clock≤update k.queuedAt t k.clock t
        rw [update_self]
      change update k.queuedAt t k.clock t<k.clock+1
      rw [update_self]
      exact Nat.lt_succ_self _
    exact .inl (update_of_ne he _ _)
  exact h1

/-- Raised owners only change places inside the lists they wait in. -/
lemma osPriorityInheritLoop_resorted (n : Nat) (k : Kernel) (o new : Nat) (h : k.sched.Core)
    (ho : o≤k.sched.cfg.tskMaxNum) (hnew : new≤k.sched.cfg.prioLowest)
    (hown : ∀ t j, (k.sched.view t).loc=some (.sem j) → (k.sems j).semType.isBin=true →
      (k.sems j).semOwner≤k.sched.cfg.tskMaxNum) :
    k.Resorted (osPriorityInheritLoop n k o new) := by
  induction n generalizing k o with
  | zero => exact .refl k
  | succ n ih =>
    rcases osPriorityInheritLoop_succ h ho n new with
      ⟨-,he⟩ | ⟨-,⟨hr,he⟩ | ⟨i,hf,he⟩ | ⟨-,-,he⟩⟩ <;> rw [he]
    . exact .refl k
    . obtain ⟨m,hf,-⟩ := h.tasks o ho
      obtain rfl := hf.eq_ready hr
      refine .of_lists fun j => ?_
      exact (osTskReadyAdd_sem _ o j).trans (osTskReadyDel_sem (Core.loc_ne_sem hf rfl))
    . obtain ⟨hm,hcore⟩ := raise_moved h ho hf hnew
      have hres := raise_resorted hf.loc new
      split
      . next hb =>
        refine hres.trans (ih _ _ hcore ?_ ?_ fun t j ht hbj => ?_)
        . rw [hm.cfg]
          exact hown o i hf.loc hb
        . rw [hm.cfg]
          exact hnew
        rw [raise_sems] at hbj ⊢
        rw [hm.cfg]
        by_cases e : t=o
        . subst e
          obtain rfl : i=j := PendHead.sem.inj (Option.some.inj (hm.fits.loc.symm.trans ht))
          exact hown t i hf.loc hbj
        rw [hm.frame t e] at ht
        exact hown t j ht hbj
      exact hres
    exact .of_lists fun _ => rfl

/-- What happens to a semaphore in one input: tasks may leave, creation and deletion, pends that
wait or not, and the three ways of a post. -/
inductive SemAct where
  | calm | create | delete | reenter | take | wait | undo | hand | release

/-- What one input can do to the semaphores, all but the lists of one `i` apart. The running task is
the caller. -/
inductive SemStep (k k' : Kernel) (i : Nat) : SemAct → Prop
  | calm (hs : k'.sems=k.sems) (hu : k'.unusedSem=k.unusedSem) (hg : k'.semLog=k.semLog)
      (ha : k'.queuedAt=k.queuedAt) (hc : k'.clock=k.clock)
      (hb : k'.semB=k.semB ∨ ∃ t, (k.sched.status t).inuse=false ∧ k'.semB=k.semB.clear t)
      (hl : ∀ j, (k'.semList j).Sublist (k.semList j)) : SemStep k k' i .calm
  | create (rest : List Nat) (count : Nat) (ty : SemType) (mode : SemMode)
      (hi : k.unusedSem=i::rest)
      (hbin : ty.isBin=true → count=osSemFull ∧ mode=.prior)
      (hcnt : ty.isBin=false → count≤osSemCountMax ∧ mode=.fifo)
      (hk : k'={k with
        sems := update k.sems i
          { k.sems i with
            semCount := count
            used := true
            semMode := mode
            semType := ty
            semOwner := osInvalidOwnerId
            recurCount := if ty.isBin then 0 else (k.sems i).recurCount }
        unusedSem := rest
        semLog := update k.semLog i [.created count]}) : SemStep k k' i .create
  | delete (hu : (k.sems i).used=true) (hl : k.semList i=[])
      (ho : (k.sems i).semType.isBin=true → (k.sems i).semOwner=osInvalidOwnerId)
      (hk : k' = { k.modSem i fun c => {c with used:=false} with
        unusedSem := i::k.unusedSem }) : SemStep k k' i .delete
  | reenter (hu : (k.sems i).used=true) (hr : (k.sems i).semType.isRecur=true)
      (ht : k.sched.cpu.taskContext=true)
      (ho : (k.sems i).semOwner=(k.sched.tcb k.sched.cpu.runningTask).taskPid)
      (hk : k'=(k.modSem i fun c => {c with recurCount:=(c.recurCount+1)%2^32}).logSem i
        (.reentered k.sched.cpu.runningTask)) : SemStep k k' i .reenter
  | take (s : Sched) (hu : (k.sems i).used=true) (hz : 0<(k.sems i).semCount)
      (ht : k.sched.cpu.taskContext=true)
      (hk : k'={k with
        sched := s
        sems := update k.sems i { k.sems i with
          semCount := (k.sems i).semCount-1
          semOwner := (k.sched.tcb k.sched.cpu.runningTask).taskPid }
        semB := if (k.sems i).semType.isBin then k.semB.insert i k.sched.cpu.runningTask
          (k.semB.lists k.sched.cpu.runningTask).length else k.semB
        semLog := update k.semLog i (.acquired k.sched.cpu.runningTask::k.semLog i)})
      (hl : ∀ j, s.pend.lists (.sem j)=k.semList j) : SemStep k k' i .take
  | wait (hu : (k.sems i).used=true) (hz : (k.sems i).semCount=0)
      (ht : k.sched.cpu.taskContext=true)
      (hs : k'.sems=k.sems) (hb : k'.semB=k.semB) (hf : k'.unusedSem=k.unusedSem)
      (hg : k'.semLog=k.semLog)
      (hi : (k'.semList i).Perm (k.sched.cpu.runningTask::k.semList i))
      (hi' : (k.sems i).semMode=.fifo → k'.semList i=k.semList i ++ [k.sched.cpu.runningTask])
      (hj : ∀ j≠i, (k'.semList j).Perm (k.semList j))
      (hj' : ∀ j≠i, (k.sems j).semMode=.fifo → k'.semList j=k.semList j)
      (hn : ∀ j, k.sched.cpu.runningTask∉k.semList j)
      (ha : ∀ t, (k'.queuedAt t=k.queuedAt t ∧ t≠k.sched.cpu.runningTask) ∨
        (k.clock≤k'.queuedAt t ∧ k'.queuedAt t<k'.clock ∧
          (t=k.sched.cpu.runningTask ∨ ∃ j, t∈k.semList j ∧ (k.sems j).semMode=.prior)))
      (hc : k.clock≤k'.clock) : SemStep k k' i .wait
  | undo (hu : (k.sems i).used=true) (hr : (k.sems i).semType.isRecur=true)
      (hz : 0<(k.sems i).recurCount)
      (ho : (k.sems i).semOwner=(k.sched.tcb k.sched.cpu.runningTask).taskPid)
      (ht : k.sched.cpu.taskContext=true)
      (hk : k'=(k.modSem i fun c => {c with recurCount:=c.recurCount-1}).logSem i
        (.posted k.sched.cpu.runningTask)) : SemStep k k' i .undo
  | hand (s : Sched) (t : Nat) (l : List Nat) (hu : (k.sems i).used=true)
      (hi : k.semList i=t::l)
      (ho : (k.sems i).semType.isBin=true → k.sched.cpu.taskContext=true ∧
        (k.sems i).semOwner=(k.sched.tcb k.sched.cpu.runningTask).taskPid)
      (hr : (k.sems i).semType.isRecur=true → (k.sems i).recurCount=0)
      (hk : k'={k with
        sched := s
        sems := update k.sems i {k.sems i with semOwner:=(k.sched.tcb t).taskPid}
        semB := if (k.sems i).semType.isBin then (k.semB.delete i).insert i t
          ((k.semB.delete i).lists t).length else k.semB
        semLog := update k.semLog i
          (.acquired t :: .posted k.sched.cpu.runningTask::k.semLog i)})
      (hl : ∀ j, s.pend.lists (.sem j) = if j=i then l else k.semList j) : SemStep k k' i .hand
  | release (s : Sched) (hu : (k.sems i).used=true) (hi : k.semList i=[])
      (hz : (k.sems i).semCount<osSemCountMax)
      (hbz : (k.sems i).semType.isBin=true → (k.sems i).semCount≠osSemFull)
      (ho : (k.sems i).semType.isBin=true → k.sched.cpu.taskContext=true ∧
        (k.sems i).semOwner=(k.sched.tcb k.sched.cpu.runningTask).taskPid)
      (hr : (k.sems i).semType.isRecur=true → (k.sems i).recurCount=0)
      (hk : k'={k with
        sched := s
        sems := update k.sems i { k.sems i with
          semCount := (k.sems i).semCount+1
          semOwner := osInvalidOwnerId }
        semB := if (k.sems i).semType.isBin then k.semB.delete i else k.semB
        semLog := update k.semLog i (.posted k.sched.cpu.runningTask::k.semLog i)})
      (hl : ∀ j, s.pend.lists (.sem j)=k.semList j) : SemStep k k' i .release

lemma SemStep.refl (k : Kernel) (i : Nat) : SemStep k k i .calm :=
  .calm rfl rfl rfl rfl rfl (.inl rfl) fun _ => .refl _

lemma SemStep.other {a : SemAct} (hs : SemStep k k' i a) {j : Nat} (hj : j≠i) :
    k'.sems j=k.sems j ∧ k'.semLog j=k.semLog j ∧ (k.semList j=[] → k'.semList j=[]) ∧
      (a≠.wait → (k'.semList j).Sublist (k.semList j)) := by
  cases hs with
  | calm hs _ hg _ _ _ hl =>
    exact ⟨by rw [hs],by rw [hg],fun he => sublist_nil.mp (he ▸ hl j),fun _ => hl j⟩
  | wait _ _ _ hs _ _ hg _ _ hp =>
    exact ⟨by rw [hs],by rw [hg],fun he => (he ▸ hp j hj).eq_nil,fun hw => absurd rfl hw⟩
  | create _ _ _ _ _ _ _ hk | reenter _ _ _ _ hk | undo _ _ _ _ _ hk =>
    subst hk
    exact ⟨update_of_ne hj _ _,update_of_ne hj _ _,id,fun _ => .refl _⟩
  | delete _ _ _ hk =>
    subst hk
    exact ⟨update_of_ne hj _ _,rfl,id,fun _ => .refl _⟩
  | take _ _ _ _ hk hl | release _ _ _ _ _ _ _ hk hl =>
    subst hk
    exact ⟨update_of_ne hj _ _,update_of_ne hj _ _,(hl j).trans,fun _ => hl j ▸ .refl _⟩
  | hand _ _ _ _ _ _ _ hk hl =>
    subst hk
    have he := (hl j).trans (if_neg hj)
    exact ⟨update_of_ne hj _ _,update_of_ne hj _ _,he.trans,fun _ => he ▸ .refl _⟩

lemma SemStep.lists {a : SemAct} (hs : SemStep k k' i a) (hk : k.SemOk) (hw : a≠.wait) :
    k'.queuedAt=k.queuedAt ∧ k'.clock=k.clock ∧ (∀ j, (k'.semList j).Sublist (k.semList j)) ∧
    ∀ j, k'.semList j≠[] → (k'.sems j).semType=(k.sems j).semType ∧
      (k'.sems j).semMode=(k.sems j).semMode ∧
      (a≠.hand → (k'.sems j).semOwner=(k.sems j).semOwner) := by
  obtain ⟨hq,hc,hsub,hcb⟩ : k'.queuedAt=k.queuedAt ∧ k'.clock=k.clock ∧
      (k'.semList i).Sublist (k.semList i) ∧
      (k'.semList i≠[] → (k'.sems i).semType=(k.sems i).semType ∧
        (k'.sems i).semMode=(k.sems i).semMode ∧
        (a≠.hand → (k'.sems i).semOwner=(k.sems i).semOwner)) := by
    cases hs with
    | calm hs _ _ ha hc _ hl =>
      rw [hs]
      exact ⟨ha,hc,hl i,fun _ => ⟨rfl,rfl,fun _ => rfl⟩⟩
    | create _ _ _ _ hi _ _ hk' =>
      subst hk'
      refine ⟨rfl,rfl,.refl _,fun hne => absurd ((hk.each i).unused ?_) hne⟩
      exact hk.free i (by rw [hi]; exact mem_cons_self)
    | delete _ hl _ hk' =>
      subst hk'
      exact ⟨rfl,rfl,.refl _,fun hne => absurd hl hne⟩
    | reenter _ _ _ _ hk' | undo _ _ _ _ _ hk' =>
      subst hk'
      exact ⟨rfl,rfl,.refl _,fun _ => by simp [modSem,logSem]⟩
    | take _ _ hz _ hk' hl =>
      subst hk'
      refine ⟨rfl,rfl,hl i ▸ .refl _,fun hne => ?_⟩
      rw [(hk.each i).taken (hl i ▸ hne)] at hz
      cases hz
    | wait => exact absurd rfl hw
    | hand _ _ _ _ hi _ _ hk' hl =>
      subst hk'
      refine ⟨rfl,rfl,?_,fun _ => ⟨?_,?_,fun hh => absurd rfl hh⟩⟩
      . rw [hi]
        exact (hl i).trans (if_pos rfl) ▸ sublist_cons_self _ _
      all_goals simp only [update_self]
    | release _ _ hi _ _ _ _ hk' hl =>
      subst hk'
      exact ⟨rfl,rfl,hl i ▸ .refl _,fun hne => absurd ((hl i).trans hi) hne⟩
  refine ⟨hq,hc,fun j => ?_,fun j hj => ?_⟩
  . by_cases e : j=i
    . exact e ▸ hsub
    exact (hs.other e).2.2.2 hw
  by_cases e : j=i
  . subst e
    exact hcb hj
  rw [(hs.other e).1]
  exact ⟨rfl,rfl,fun _ => rfl⟩

lemma onSched_semList {f : Sched → Sched} (hf : (f k.sched).pend=k.sched.pend) (j : Nat) :
    (k.onSched f).semList j=k.semList j := by
  change (f k.sched).pend.lists _=_
  rw [hf]
  rfl

/-- Where the running task goes in the list. -/
def semPos (k : Kernel) (i : Nat) : Nat :=
  if (k.sems i).semMode=.prior then k.priorPos k.sched.cpu.runningTask i
  else (k.semList i).length

lemma osSemBlock_semList (hne : ∀ j, k.sched.pend.loc k.sched.cpu.runningTask≠some (.sem j))
    (i n j : Nat) : (k.osSemBlock i n).semList j =
      if j=i then insertAt (k.semPos i) k.sched.cpu.runningTask (k.semList i) else k.semList j := by
  simp only [osSemBlock]
  generalize hk0 : (k.onSched fun s => (s.osTskReadyDel k.sched.cpu.runningTask).modTcb
    k.sched.cpu.runningTask _)=k0
  have hprio : ∀ t, k0.priority t=k.priority t := by
    intro t
    rw [← hk0]
    simp only [priority,onSched,modTcb,update_apply]
    split
    . next he =>
      subst he
      simp [osTskReadyDel,osDequeueTaskAmp,osTskHighestSet,pendDelete,modStatus,modTcb]
    next he =>
    simp [osTskReadyDel,osDequeueTaskAmp,osTskHighestSet,pendDelete,modStatus,modTcb,he]
  have hpend : k0.sched.pend=k.sched.pend.delete k.sched.cpu.runningTask := by rw [← hk0]; rfl
  have hsems : k0.sems=k.sems := by rw [← hk0]; rfl
  have hlist : ∀ j, k0.semList j=k.semList j := by
    intro j
    rw [semList,hpend,Links.delete_lists_ne _ (hne j)]
    rfl
  have hpos : (if (k0.sems i).semMode=.prior then k0.priorPos k.sched.cpu.runningTask i
      else (k0.semList i).length)=k.semPos i := by
    simp only [semPos,hsems,hlist,priorPos,hprio]
  rw [hpos,onSched_semList (timeoutSet_pend _ _ _)]
  change (k0.sched.pend.insert _ (.sem i) _).lists (.sem j)=_
  have hdel : k0.sched.pend.loc k.sched.cpu.runningTask=none := by
    rw [hpend]
    simp
  split
  . next he =>
    subst he
    rw [Links.insert_lists _ _ _ hdel,update_self]
    exact congrArg _ (hlist j)
  next he =>
  rw [Links.insert_lists_ne _ _ _ fun h => he (PendHead.sem.inj h)]
  exact hlist j

lemma osPriorityInherit_resorted (hk : k.SemOk) (k1 : Kernel) (h : k1.sched.Core)
    (hsems : k1.sems=k.sems) (hcfg : k1.sched.cfg=k.sched.cfg)
    (hloc : ∀ t j, (k1.sched.view t).loc=some (.sem j) → (k.sched.view t).loc=some (.sem j) ∨ j=i)
    (hz : (k.sems i).semCount=0) (ht : k1.priority t≤k.sched.cfg.prioLowest) :
    k1.Resorted (k1.osPriorityInherit i t) := by
  have hi : (k.sems i).semType.isBin=true → (k.sems i).semOwner≤k1.sched.cfg.tskMaxNum := by
    rw [hcfg]
    exact fun hb => (hk.each i).owner hb hz
  unfold osPriorityInherit
  split
  . next hb =>
    rw [hsems] at hb ⊢
    refine osPriorityInheritLoop_resorted _ k1 _ _ h (hi hb) ?_ fun t j hl hbj => ?_
    . rw [hcfg]
      exact ht
    rw [hsems] at hbj ⊢
    rcases hloc t j hl with hl | rfl
    . rw [hcfg]
      exact hk.owner_of_loc hl hbj
    exact hi hbj
  exact .refl k1

lemma blocked_step {x : Cont} {n : Nat} (hu : (k.sems i).used=true)
    (hz : (k.sems i).semCount=0) (ht : k.sched.cpu.taskContext=true)
    (hn : ∀ j, k.sched.cpu.runningTask∉k.semList j) {k0 : Kernel}
    (hk0 : k0=k.onSched fun s => s.setCont s.cpu.runningTask x)
    (hlist : ∀ j, (k0.osSemBlock i n).semList j =
      if j=i then insertAt (k0.semPos i) k.sched.cpu.runningTask (k.semList i) else k.semList j)
    (hres : (k0.osSemBlock i n).Resorted k1) :
    SemStep k (k1.onSched fun s => s.osTskSchedule) i .wait := by
  have hsch : ∀ j, (k1.onSched fun s => s.osTskSchedule).semList j=k1.semList j :=
    fun j => onSched_semList (osTskSchedule_pend _) j
  have hi := hlist i
  rw [if_pos rfl] at hi
  subst hk0
  refine .wait hu hz ht hres.sems hres.semB hres.unused hres.log ?_ ?_ ?_ ?_ hn ?_ ?_
  . rw [hsch]
    apply (hres.perm i).trans
    rw [hi]
    exact insertAt_perm _ _ _
  . intro hf
    rw [hsch,hres.fifo i hf,hi]
    have hpos : (k.onSched fun s => s.setCont s.cpu.runningTask x).semPos i =
        (k.semList i).length := if_neg fun hp => by cases hf.symm.trans hp
    rw [hpos,insertAt_length]
  . intro j hj
    rw [hsch]
    apply (hres.perm j).trans
    rw [hlist,if_neg hj]
  . intro j hj hf
    rw [hsch,hres.fifo j hf,hlist,if_neg hj]
  . intro t
    by_cases he : t=k.sched.cpu.runningTask
    . subst he
      rcases hres.stamp k.sched.cpu.runningTask with hq | ⟨hlo,hhi,-⟩
      . have hq' : k1.queuedAt k.sched.cpu.runningTask=k.clock := hq.trans (update_self ..)
        have hc := hres.clock
        refine .inr ⟨le_of_eq hq'.symm,?_,.inl rfl⟩
        change k1.queuedAt _<k1.clock
        rw [hq']
        exact hc
      exact .inr ⟨le_trans (Nat.le_succ _) hlo,hhi,.inl rfl⟩
    rcases hres.stamp t with hq | ⟨hlo,hhi,j,hj,hm⟩
    . exact .inl ⟨hq.trans (update_of_ne he _ _),he⟩
    refine .inr ⟨le_trans (Nat.le_succ _) hlo,hhi,.inr ⟨j,?_,hm⟩⟩
    rw [hlist] at hj
    split at hj
    . next hij =>
      subst hij
      exact ((mem_insertAt _ _ _ _).mp hj).resolve_left he
    exact hj
  exact le_trans (Nat.le_succ _) hres.clock

lemma osSemPendNotNeedSche_step (ht : k.sched.cpu.taskContext=true)
    (hu : (k.sems i).used=true) (h : k.osSemPendNotNeedSche i=some k') :
    SemStep k k' i .reenter ∨ SemStep k k' i .take := by
  unfold osSemPendNotNeedSche at h
  dsimp only at h
  split at h
  . next hr =>
    obtain rfl := Option.some.inj h
    exact .inl (.reenter hu hr.1 ht hr.2 rfl)
  split at h
  . next hz =>
    obtain rfl := Option.some.inj h
    right
    by_cases hb : (k.sems i).semType.isBin=true
    . rw [if_pos hb]
      exact .take (k.semBTailAdd i 0).sched hu hz ht (by rw [if_pos hb]; rfl) fun _ => rfl
    rw [if_neg hb]
    exact .take _ hu hz ht (by rw [if_neg hb]; rfl) fun _ => rfl
  cases h

/-- `PRT_SemPend` fails without effect, takes the semaphore, or waits for it. -/
lemma prtSemPend_step (h : Able c u k.sched) (hb : k.sched.cpu.bgdActive=true) (hk : k.SemOk)
    (hc : k.sched.cpu.taskContext=true → k.sched.cont k.sched.cpu.runningTask=.user) (i n : Nat) :
    ((k.prtSemPend i n).1=k ∧ ∃ e≠.osOk, (k.prtSemPend i n).2=some e) ∨
    ((k.prtSemPend i n).2=some .osOk ∧
      (SemStep k (k.prtSemPend i n).1 i .reenter ∨ SemStep k (k.prtSemPend i n).1 i .take)) ∨
    ((k.prtSemPend i n).2=none ∧ SemStep k (k.prtSemPend i n).1 i .wait) := by
  unfold prtSemPend
  split
  . exact .inl ⟨rfl,.semInvalid,nofun,rfl⟩
  split
  . exact .inl ⟨rfl,.semInvalid,nofun,rfl⟩
  next hu =>
  split
  . exact .inl ⟨rfl,.semPendInterr,nofun,rfl⟩
  next hi =>
  have ht := taskContext_of hb hi
  have hu' : (k.sems i).used=true := (Bool.not_eq_false _).mp hu
  split
  . next k' he => exact .inr (.inl ⟨rfl,osSemPendNotNeedSche_step ht hu' he⟩)
  next hs =>
  split
  . next he => exact .inl ⟨rfl,_,he,rfl⟩
  have h0 : Able False False k.sched := ⟨h.core,h.alive,h.run,False.elim,False.elim⟩
  have hz := osSemPendNotNeedSche_none hs
  have hm := osSemBlock_moved h0 ht (hc ht) i (n:=n) False.elim
  have hne := h.running_loc
  have hlist := osSemBlock_semList (k:=k.onSched fun s => s.setCont s.cpu.runningTask (semCont n))
    hne i n
  have hres := osPriorityInherit_resorted hk
    ((k.onSched fun s => s.setCont s.cpu.runningTask (semCont n)).osSemBlock i n)
    (hm.core h.core (h.run.real ht) nofun) rfl hm.cfg (fun _ _ => hm.loc_sem) hz hm.fits.prio
  exact .inr (.inr ⟨rfl,blocked_step hu' hz ht
    (fun j hj => hne j ((k.sched.pend.mem_iff _ _).mp hj)) rfl hlist hres⟩)

lemma osSemWake_pend (s : Sched) (t j : Nat) :
    (osSemWake s t).pend.lists (.sem j)=(s.pend.delete t).lists (.sem j) := by
  unfold osSemWake
  rw [readyAddUnlessSuspend_sem]
  change ((s.pendDelete t).timeoutClear t).pend.lists _=_
  rw [timeoutClear_pend]
  rfl

lemma osPriorityRestore_semList
    (hne : ∀ j, k.sched.pend.loc k.sched.cpu.runningTask≠some (.sem j)) (j : Nat) :
    k.osPriorityRestore.1.semList j=k.semList j := by
  simp only [osPriorityRestore]
  split
  . rfl
  split
  . rfl
  exact (readyAddUnlessSuspend_sem _ _ j).trans (osTskReadyDel_sem (hne j))

lemma osSemPostErrorCheck_owner (h : k.osSemPostErrorCheck i=.osOk)
    (hb : (k.sems i).semType.isBin=true) :
    (k.sems i).semOwner=(k.sched.tcb k.sched.cpu.runningTask).taskPid := by
  unfold osSemPostErrorCheck at h
  dsimp only at h
  split at h
  . cases h
  split at h
  . cases h
  split at h
  . cases h
  next ho => exact not_not.mp ho

lemma osSemPostErrorCheck_count (h : k.osSemPostErrorCheck i=.osOk)
    (hb : ¬(k.sems i).semType.isBin=true) : (k.sems i).semCount<osSemCountMax := by
  unfold osSemPostErrorCheck at h
  dsimp only at h
  split at h
  . cases h
  split at h
  . cases h
  next hn => exact not_le.mp hn

lemma osSemPostIsInvalid_step (hu : (k.sems i).used=true)
    (ho : (k.sems i).semType.isBin=true → k.sched.cpu.taskContext=true ∧
      (k.sems i).semOwner=(k.sched.tcb k.sched.cpu.runningTask).taskPid)
    (h : k.osSemPostIsInvalid i=some k') : SemStep k k' i .undo ∨
      (k'=k ∧ (k.sems i).semType.isBin=true ∧ (k.sems i).semCount=osSemFull) := by
  unfold osSemPostIsInvalid at h
  dsimp only at h
  split at h
  . next hr =>
    obtain rfl := Option.some.inj h
    have hb : (k.sems i).semType.isBin=true := by
      cases hty : (k.sems i).semType with
      | count => rw [hty] at hr; exact absurd hr.1 nofun
      | bin _ => rfl
    exact .inl (.undo hu hr.1 hr.2 (ho hb).2 (ho hb).1 rfl)
  split at h
  . next hfull =>
    obtain rfl := Option.some.inj h
    exact .inr ⟨rfl,hfull⟩
  cases h

lemma osSemPostIsInvalid_recur (h : k.osSemPostIsInvalid i=none)
    (hr : (k.sems i).semType.isRecur=true) : (k.sems i).recurCount=0 := by
  unfold osSemPostIsInvalid at h
  dsimp only at h
  split at h
  . cases h
  next hn => exact Nat.eq_zero_of_not_pos fun hz => hn ⟨hr,hz⟩

/-- The semaphore goes to the waiting task `t`. -/
def handOver (k : Kernel) (i t : Nat) : Kernel :=
  let k := k.onSched fun s => osSemWake s t
  (k.modSem i fun c => {c with semOwner:=(k.sched.tcb t).taskPid}).logSem i (.acquired t)

section hand

variable {l : List Nat} (hi : k.semList i=t::l)

lemma handOver_eq (k : Kernel) (i t : Nat) : k.handOver i t={k with
    sched := osSemWake k.sched t
    sems := update k.sems i {k.sems i with semOwner:=(k.sched.tcb t).taskPid}
    semLog := update k.semLog i (.acquired t::k.semLog i)} := by
  have hpid : ((osSemWake k.sched t).tcb t).taskPid=(k.sched.tcb t).taskPid := by
    simp only [osSemWake,readyAddUnlessSuspend,timeoutClear]
    split <;> split <;>
      simp [osTskReadyAdd,osEnqueueTaskAmp,osTskHighestSet,pendTailAdd,
        pendInsert,modStatus,modTcb,pendDelete,timerDelete]
  rw [← hpid]
  rfl

lemma osSemWake_cpu (s : Sched) (t : Nat) : (osSemWake s t).cpu=s.cpu := by
  simp only [osSemWake,readyAddUnlessSuspend,timeoutClear]
  split <;> split <;> rfl

lemma osSemWake_cfg (s : Sched) (t : Nat) : (osSemWake s t).cfg=s.cfg := by
  simp only [osSemWake,readyAddUnlessSuspend,timeoutClear]
  split <;> split <;> rfl

lemma handOver_loc_ne (hne : ∀ j, k.sched.pend.loc k.sched.cpu.runningTask≠some (.sem j))
    (j : Nat) : (k.handOver i t).sched.pend.loc (k.handOver i t).sched.cpu.runningTask ≠
      some (.sem j) := by
  change (osSemWake k.sched t).pend.loc (osSemWake k.sched t).cpu.runningTask≠_
  rw [osSemWake_cpu]
  intro hj
  have hm := ((osSemWake k.sched t).pend.mem_iff _ _).mpr hj
  rw [osSemWake_pend,Links.delete_lists_eq] at hm
  exact hne j ((k.sched.pend.mem_iff _ _).mp (mem_of_mem_erase hm))

include hi

lemma osSemPendListGet_eq : k.osSemPendListGet i = if (k.sems i).semType.isBin then
    (((k.handOver i t).semBDelete i).semBTailAdd i t).osPriorityRestore.1 else k.handOver i t := by
  have hty : ((k.handOver i t).sems i).semType=(k.sems i).semType := by
    rw [handOver_eq]
    simp only [update_self]
  unfold osSemPendListGet
  rw [hi]
  change (if ((k.handOver i t).sems i).semType.isBin then
    (((k.handOver i t).semBDelete i).semBTailAdd i t).osPriorityRestore.1
    else k.handOver i t)=_
  rw [hty]

lemma handOver_semList (j : Nat) : (k.handOver i t).semList j = if j=i then l else k.semList j := by
  have hloc : k.sched.pend.loc t=some (.sem i) := Links.head_loc hi
  change (osSemWake k.sched t).pend.lists (.sem j)=_
  rw [osSemWake_pend]
  split
  . next he =>
    subst he
    rw [Links.delete_lists_eq,show k.sched.pend.lists (.sem j)=t::l from hi,erase_cons_head]
  next he =>
  rw [Links.delete_lists_ne _ (by rw [hloc]; exact fun h => he (PendHead.sem.inj
    (Option.some.inj h)).symm)]
  rfl

end hand

section post

variable (hu : (k.sems i).used=true)
  (ho : (k.sems i).semType.isBin=true → k.sched.cpu.taskContext=true ∧
    (k.sems i).semOwner=(k.sched.tcb k.sched.cpu.runningTask).taskPid)
  (hr : (k.sems i).semType.isRecur=true → (k.sems i).recurCount=0)
  (hne : ∀ j, k.sched.pend.loc k.sched.cpu.runningTask≠some (.sem j))

include hu ho hr hne

lemma osSemPendListGet_step {l : List Nat} (hi : k.semList i=t::l) :
    SemStep k (((k.logSem i (.posted k.sched.cpu.runningTask)).osSemPendListGet i).onSched
      fun s => s.osTskScheduleFastPs) i .hand := by
  have hi' : (k.logSem i (.posted k.sched.cpu.runningTask)).semList i=t::l := hi
  have hlist := handOver_semList hi'
  have hne' := handOver_loc_ne (k:=k.logSem i (.posted k.sched.cpu.runningTask)) (i:=i)
    (t:=t) hne
  rw [osSemPendListGet_eq hi']
  have hk1 := (k.logSem i (.posted k.sched.cpu.runningTask)).handOver_eq i t
  generalize (k.logSem i (.posted k.sched.cpu.runningTask)).handOver i t=k1 at *
  by_cases hb : (k.sems i).semType.isBin=true
  . rw [if_pos (show ((k.logSem i _).sems i).semType.isBin=true from hb)]
    obtain ⟨s,hs⟩ := osPriorityRestore_sched ((k1.semBDelete i).semBTailAdd i t)
    have hl := osPriorityRestore_semList (k:=(k1.semBDelete i).semBTailAdd i t) hne'
    rw [hs] at hl ⊢
    refine .hand s.osTskScheduleFastPs t l hu hi ho hr ?_ fun j => ?_
    . rw [hk1,if_pos hb]
      simp only [logSem,update_idem,update_self]
      rfl
    exact (congrArg (·.lists (.sem j)) (osTskSchedule_pend _)).trans ((hl j).trans (hlist j))
  rw [if_neg (show ¬((k.logSem i _).sems i).semType.isBin=true from hb)]
  refine .hand k1.sched.osTskScheduleFastPs t l hu hi ho hr ?_ fun j => ?_
  . rw [hk1,if_neg hb]
    simp only [logSem,update_idem,update_self]
    rfl
  exact (congrArg (·.lists (.sem j)) (osTskSchedule_pend _)).trans (hlist j)

lemma release_step (hi : k.semList i=[]) (hz : (k.sems i).semCount<osSemCountMax)
    (hbz : (k.sems i).semType.isBin=true → (k.sems i).semCount≠osSemFull) :
    let k1 := (k.logSem i (.posted k.sched.cpu.runningTask)).modSem i fun c =>
      {c with semCount:=(c.semCount+1)%2^32, semOwner:=osInvalidOwnerId}
    SemStep k (if (k1.sems i).semType.isBin then
      match (k1.semBDelete i).osPriorityRestore with
      | (k,true) => (k.onSched fun s => s.osTskSchedule,Errno.osOk)
      | (k,false) => (k,.osOk)
      else (k1,.osOk)).1 i .release := by
  intro k1
  have hk1 : k1={k with
      sems := update k.sems i { k.sems i with
        semCount := (k.sems i).semCount+1
        semOwner := osInvalidOwnerId }
      semLog := update k.semLog i (.posted k.sched.cpu.runningTask::k.semLog i)} := by
    rw [← Nat.mod_eq_of_lt (a:=(k.sems i).semCount+1) (b:=2^32)]
    . rfl
    simp only [osSemCountMax] at hz
    omega
  generalize k1=k1 at hk1
  subst hk1
  simp only [update_self]
  by_cases hb : (k.sems i).semType.isBin=true
  . rw [if_pos hb]
    generalize hk1 : semBDelete _ i=k1
    obtain ⟨s,hs⟩ := osPriorityRestore_sched k1
    have hl := osPriorityRestore_semList (k:=k1) (by rw [← hk1]; exact hne)
    generalize k1.osPriorityRestore=r at hs hl ⊢
    obtain ⟨k2,b⟩ := r
    obtain rfl : k2=_ := hs
    subst hk1
    cases b with
    | true =>
      refine .release s.osTskSchedule hu hi hz hbz ho hr (by rw [if_pos hb]; rfl) fun j => ?_
      exact (congrArg (·.lists (.sem j)) (osTskSchedule_pend _)).trans (hl j)
    | false => exact .release s hu hi hz hbz ho hr (by rw [if_pos hb]; rfl) hl
  rw [if_neg hb]
  exact .release _ hu hi hz hbz ho hr (by rw [if_neg hb]) fun _ => rfl

end post

/-- `PRT_SemPost` counts a nested hold down, hands over, or releases. -/
lemma prtSemPost_step (h : Able c u k.sched) (hb : k.sched.cpu.bgdActive=true)
    (hk : k.SemOk) (i : Nat) : ((k.prtSemPost i).1=k ∧ ((k.prtSemPost i).2=.osOk →
      (k.sems i).semType.isBin=true ∧ (k.sems i).semCount=osSemFull)) ∨
    ((k.prtSemPost i).2=.osOk ∧ (SemStep k (k.prtSemPost i).1 i .undo ∨
      SemStep k (k.prtSemPost i).1 i .hand ∨ SemStep k (k.prtSemPost i).1 i .release)) := by
  unfold prtSemPost
  split
  . exact .inl ⟨rfl,nofun⟩
  split
  . next he => exact .inl ⟨rfl,fun hok => absurd hok he⟩
  next hchk =>
  have hchk' := not_not.mp hchk
  have hu := osSemPostErrorCheck_used hchk'
  have ho : (k.sems i).semType.isBin=true → k.sched.cpu.taskContext=true ∧
      (k.sems i).semOwner=(k.sched.tcb k.sched.cpu.runningTask).taskPid := by
    intro hbin
    have hi := osSemPostErrorCheck_bin hchk' hbin
    exact ⟨taskContext_of hb (by simp [hi]),osSemPostErrorCheck_owner hchk' hbin⟩
  split
  . next k' he =>
    rcases osSemPostIsInvalid_step hu ho he with hs | ⟨rfl,hfull⟩
    . exact .inr ⟨rfl,.inl hs⟩
    exact .inl ⟨rfl,fun _ => hfull⟩
  next hinv =>
  have hr := osSemPostIsInvalid_recur hinv
  have hne := h.running_loc
  dsimp only
  split
  . next hl =>
    obtain ⟨t,l,hi⟩ := exists_cons_of_ne_nil hl
    exact .inr ⟨rfl,.inr (.inl (osSemPendListGet_step hu ho hr hne hi))⟩
  next hl =>
  have hz : (k.sems i).semCount<osSemCountMax := by
    by_cases hbin : (k.sems i).semType.isBin=true
    . have hle := (hk.each i).full hbin
      simp only [osSemFull] at hle
      simp only [osSemCountMax]
      omega
    exact osSemPostErrorCheck_count hchk' hbin
  have hok : ∀ k1 : Kernel, (if (k1.sems i).semType.isBin then
      match (k1.semBDelete i).osPriorityRestore with
      | (k,true) => (k.onSched fun s => s.osTskSchedule,Errno.osOk)
      | (k,false) => (k,.osOk)
      else (k1,.osOk)).2=.osOk := by
    intro k1
    split
    . split <;> rfl
    rfl
  exact .inr ⟨hok _,.inr (.inr (release_step hu ho hr hne (not_not.mp hl) hz
    (osSemPostIsInvalid_none hinv)))⟩

/-- Steps that put no task into the list of a semaphore. -/
def noSemWait : Touch := ⟨fun _ => True,fun _ => True,True,False,True,True,fun _ => True,True⟩

lemma noSemWait_quiet : Quiet noSemWait fun s s' =>
    ∀ j, (s'.pend.lists (.sem j)).Sublist (s.pend.lists (.sem j)) := quiet_semLists nofun

lemma SemStep.of_only {p : Part} (h : k.Only k' p) (hp : p≠.sem)
    (hb : p=.create → k'.semB=k.semB ∨ ∃ t, (k.sched.status t).inuse=false ∧ k'.semB=k.semB.clear t)
    (hl : ∀ j, (k'.sched.pend.lists (.sem j)).Sublist (k.sched.pend.lists (.sem j)))
    (i : Nat) : SemStep k k' i .calm := by
  obtain ⟨hs,hu,hg,ha,hc⟩ := h.sems hp
  refine .calm hs hu hg ha hc ?_ hl
  by_cases hc : p=.create
  . exact hb hc
  exact .inl (h.semB hp hc)

lemma osTaskCreateOnly_semB (h : Able c u k.sched) (p : TskInitParam)
    (memOk kthread : Bool) : (k.osTaskCreateOnly p memOk kthread).1.semB=k.semB ∨
      ∃ t, (k.sched.status t).inuse=false ∧
        (k.osTaskCreateOnly p memOk kthread).1.semB=k.semB.clear t := by
  rcases osTaskCreateOnly_cases k p memOk kthread with
    ⟨_,he⟩ | ⟨_,he⟩ | ⟨t,l,_,-,he⟩ | ⟨t,l,hl,-,he⟩ <;> rw [he]
  . exact .inl rfl
  . exact .inl rfl
  . exact .inl rfl
  exact .inr ⟨t,free_head_unused h hl,rfl⟩

lemma osSemCreate_step {count : Nat} {ty : SemType} {mode : SemMode}
    (hbin : ty.isBin=true → count=osSemFull ∧ mode=.prior)
    (hcnt : ty.isBin=false → count≤osSemCountMax ∧ mode=.fifo)
    (hi : ∀ j, k.unusedSem.head? = some j → i=j) :
    SemStep k (k.osSemCreate count ty mode).1 i .calm ∨
      SemStep k (k.osSemCreate count ty mode).1 i .create := by
  unfold osSemCreate
  split
  . exact .inl (.refl k _)
  next j rest he =>
  obtain rfl : i=j := hi j (by rw [he]; rfl)
  exact .inr (.create rest count ty mode he hbin hcnt rfl)

lemma prtSemDelete_step (k : Kernel) (i : Nat) :
    SemStep k (k.prtSemDelete i).1 i .calm ∨ SemStep k (k.prtSemDelete i).1 i .delete := by
  unfold prtSemDelete
  split
  . exact .inl (.refl k _)
  split
  . exact .inl (.refl k _)
  next hu =>
  split
  . exact .inl (.refl k _)
  next hl =>
  split
  . exact .inl (.refl k _)
  next ho =>
  refine .inr (.delete ((Bool.not_eq_false _).mp hu) (not_not.mp hl) (fun hb => ?_) rfl)
  by_contra hn
  exact ho ⟨hn,hb⟩

/-- The semaphore that an input is about. -/
def semOf (k : Kernel) : Input → Option Nat
  | .call (.semPend i _) | .call (.semPost i) | .call (.semDelete i) => some i
  | .call (.semCreate _) | .call (.mutexCreate _) => k.unusedSem.head?
  | _ => none

/-- The inputs that make a step of the kind. -/
def SemAct.By (j : Nat) : SemAct → Input → Prop
  | .calm, _ => True
  | .create, a => (∃ n, a=.call (.semCreate n)) ∨ ∃ r, a=.call (.mutexCreate r)
  | .delete, a => a=.call (.semDelete j)
  | .reenter, a | .take, a | .wait, a => ∃ n, a=.call (.semPend j n)
  | .undo, a | .hand, a | .release, a => a=.call (.semPost j)

lemma exec_semStep (h : Able c u k.sched) (hs : k.SemOk)
    (hen : k.enabled (.call call)=true) (hk : InputOk c u d e k (.call call)) (j : Nat)
    (hj : ∀ i, k.semOf (.call call)=some i → j=i) :
    ∃ x, SemStep k (k.exec call).1 j x ∧ x.By j (.call call) := by
  have hm := (enabled_call hen).2
  have hb : call.early=false → k.sched.cpu.bgdActive=true := by
    intro hc
    exact hm.bgd.resolve_right (by simp [hc])
  have hcalm : call.part≠.sem → call.part≠.create → call.Within noSemWait k.sched →
      ∃ x, SemStep k (k.exec call).1 j x ∧ x.By j (.call call) := fun hne hnc hw =>
    ⟨_,.of_only (k.exec_only call) hne (fun he => absurd he hnc)
      (act_quiet noSemWait_quiet h hen hk hw) j,trivial⟩
  cases call with
  | taskCreate p memOk kthread =>
    refine ⟨_,.of_only (k.exec_only _) Part.noConfusion (fun _ => ?_)
      (act_quiet noSemWait_quiet h hen hk fun _ _ => ⟨trivial,trivial⟩) j,trivial⟩
    have hB := osTaskCreateOnly_semB h p memOk kthread
    simp only [exec]
    generalize k.osTaskCreateOnly p memOk kthread=r at hB ⊢
    obtain ⟨k1,e | t⟩ := r <;> exact hB
  | semCreate count =>
    simp only [exec,prtSemCreate]
    split
    . exact ⟨_,.refl k _,trivial⟩
    next hn =>
    have hc : SemStep k (k.osSemCreate count .count .fifo).1 j .calm ∨
        SemStep k (k.osSemCreate count .count .fifo).1 j .create :=
      osSemCreate_step (by rintro ⟨⟩) (fun _ => ⟨not_lt.mp hn,rfl⟩) hj
    rcases hc with hc | hc
    . exact ⟨_,hc,trivial⟩
    exact ⟨_,hc,.inl ⟨count,rfl⟩⟩
  | mutexCreate recur =>
    have hc : SemStep k (k.exec (.mutexCreate recur)).1 j .calm ∨
        SemStep k (k.exec (.mutexCreate recur)).1 j .create := by
      cases recur with
      | true | false => exact osSemCreate_step (fun _ => ⟨rfl,rfl⟩) (by rintro ⟨⟩) hj
    rcases hc with hc | hc
    . exact ⟨_,hc,trivial⟩
    exact ⟨_,hc,.inr ⟨recur,rfl⟩⟩
  | semDelete i =>
    rw [hj i rfl]
    rcases prtSemDelete_step k i with hd | hd
    . exact ⟨_,hd,trivial⟩
    exact ⟨_,hd,rfl⟩
  | semPend i n =>
    rw [hj i rfl]
    rcases prtSemPend_step h (hb rfl) hs hm.user i n with ⟨he,-⟩ | ⟨-,ha | ha⟩ | ⟨-,ha⟩
    . rw [show (k.exec (.semPend i n)).1=k from he]
      exact ⟨_,.refl k i,trivial⟩
    all_goals exact ⟨_,ha,n,rfl⟩
  | semPost i =>
    rw [hj i rfl]
    rcases prtSemPost_step h (hb rfl) hs i with ⟨he,-⟩ | ⟨-,ha | ha | ha⟩
    . rw [show (k.exec (.semPost i)).1=k from he]
      exact ⟨_,.refl k i,trivial⟩
    all_goals exact ⟨_,ha,rfl⟩
  | _ => exact hcalm (by rintro ⟨⟩) (by rintro ⟨⟩) (by simp [Call.Within,noSemWait])

lemma act_semStep {i : Input} (h : Able c u k.sched) (hs : k.SemOk)
    (hen : k.enabled i=true) (hk : InputOk c u d e k i) (j : Nat)
    (hj : ∀ i', k.semOf i=some i' → j=i') : ∃ x, SemStep k (k.act i).1 j x ∧ x.By j i := by
  have hcalm : k.inputPart i≠.sem → k.InputWithin noSemWait i →
      (k.inputPart i=.create → (k.act i).1.semB=k.semB ∨
        ∃ t, (k.sched.status t).inuse=false ∧ (k.act i).1.semB=k.semB.clear t) →
      ∃ x, SemStep k (k.act i).1 j x ∧ x.By j i := fun hne hw hb =>
    ⟨_,.of_only (k.act_only i) hne hb (act_quiet noSemWait_quiet h hen hk hw) j,trivial⟩
  cases i with
  | call call => exact exec_semStep h hs hen hk j hj
  | proceed =>
    have hne : k.inputPart .proceed≠.sem ∧ k.inputPart .proceed≠.create := by
      simp only [inputPart]
      cases k.sched.cont k.sched.cpu.runningTask <;> exact ⟨by rintro ⟨⟩,by rintro ⟨⟩⟩
    exact hcalm hne.1 ⟨fun _ => trivial,fun _ => trivial,fun _ => trivial⟩ fun hc => absurd hc hne.2
  | activate memOk =>
    refine hcalm (by rintro ⟨⟩) (fun _ _ => ⟨trivial,trivial⟩) fun _ => ?_
    have hB := osTaskCreateOnly_semB h
      ⟨true,k.sched.cfg.prioLowest,k.sched.cfg.idleStackSize,0,some "IdleTask"⟩ memOk false
    simp only [act,osActivate]
    generalize k.osTaskCreateOnly _ memOk false=r at hB ⊢
    obtain ⟨k1,e | t⟩ := r <;> exact hB
  | _ => exact hcalm (by rintro ⟨⟩) trivial (by rintro ⟨⟩)

/-- Every input is one step of one semaphore. -/
lemma exists_semStep {i : Input} (h : Able c u k.sched) (hs : k.SemOk)
    (hen : k.enabled i=true) (hk : InputOk c u d e k i) :
    ∃ j x, SemStep k (k.act i).1 j x ∧ x.By j i := by
  obtain ⟨x,hx⟩ := act_semStep h hs hen hk ((k.semOf i).getD 0) fun j hj => by rw [hj]; rfl
  exact ⟨_,x,hx⟩

end Kernel

end UniProton
