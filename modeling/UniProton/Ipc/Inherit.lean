import UniProton.Ipc.Mutex

namespace UniProton

open Framework Function List Sched Links

namespace Sched

def prios (s : Sched) (t : Nat) : Nat×Nat := ((s.tcb t).priority,(s.tcb t).origPriority)

lemma modTcb_prios (s : Sched) (t : Nat) (f : TskCb → TskCb) : (s.modTcb t f).prios =
    update s.prios t ((f (s.tcb t)).priority,(f (s.tcb t)).origPriority) := by
  funext t'
  by_cases e : t'=t
  . subst e
    simp only [prios,modTcb,update_self]
  simp only [prios,modTcb,update_of_ne e]

lemma setPrio_prios (s : Sched) (t p : Nat) : (s.modTcb t fun c => {c with priority:=p}).prios =
    update s.prios t (p,(s.prios t).2) := s.modTcb_prios t _

def prioTouch (birth : Nat → Prop) : Touch :=
  ⟨fun _ => True,birth,False,True,True,True,fun _ => True,True⟩

lemma prios_quiet (birth : Nat → Prop) : Quiet (prioTouch birth) fun s s' => ∀ t,
    (¬birth t → s'.prios t=s.prios t) ∧
      ((s.prios t).1≤(s.prios t).2 → (s'.prios t).1≤(s'.prios t).2) where
  refl s t := ⟨fun _ => rfl,id⟩
  trans h h' t := ⟨fun hb => ((h' t).1 hb).trans ((h t).1 hb),fun hp => (h' t).2 ((h t).2 hp)⟩
  frame ht _ _ t := by
    simp only [prios,ht]
    exact ⟨fun _ => trivial,id⟩
  modTcb s t f hf t' := by
    by_cases e : t'=t
    . subst e
      simp only [prios,modTcb,update_self]
      rcases hf.prio with ⟨hb,he⟩ | hp | ⟨hp,ho⟩
      . exact ⟨fun hn => absurd hb hn,fun _ => le_of_eq he⟩
      . exact hp.elim
      rw [hp,ho]
      exact ⟨fun _ => rfl,id⟩
    simp only [prios,modTcb,update_of_ne e]
    exact ⟨fun _ => trivial,id⟩
  setCont s t k _ t' := ⟨fun _ => rfl,id⟩
  pendInsert s t h i _ t' := ⟨fun _ => rfl,id⟩
  pendDelete s t t' := ⟨fun _ => rfl,id⟩

lemma same_prios_quiet : Quiet (prioTouch fun _ => False) fun s s' => s'.prios=s.prios where
  refl s := rfl
  trans h h' := h'.trans h
  frame ht _ _ := by
    funext t
    simp only [prios,ht]
  modTcb s t f hf := by
    rcases hf.prio with ⟨hb,-⟩ | hp | ⟨hp,ho⟩
    . exact hb.elim
    . exact hp.elim
    rw [modTcb_prios,hp,ho]
    exact update_eq_self t s.prios
  setCont s t k _ := rfl
  pendInsert s t h i _ := rfl
  pendDelete s t := rfl

lemma requeue_prios {f : Sched → Sched} (hf : ∀ s, (f s).prios=s.prios) (s : Sched)
    (t p : Nat) : (f ((s.osTskReadyDel t).modTcb t fun c => {c with priority:=p})).prios =
      update s.prios t (p,(s.prios t).2) := by
  have hdel : (s.osTskReadyDel t).prios=s.prios := same_prios_quiet.step_osTskReadyDel rfl
  rw [hf,setPrio_prios,hdel]

lemma osTskReadyAdd_prios (s : Sched) (t : Nat) : (s.osTskReadyAdd t).prios=s.prios :=
  same_prios_quiet.step_osTskReadyAdd rfl

lemma readyAddUnlessSuspend_prios (s : Sched) (t : Nat) :
    (s.readyAddUnlessSuspend t).prios=s.prios := same_prios_quiet.step_readyAddUnlessSuspend rfl

end Sched

namespace Kernel

variable {cfg : Cfg} {x : Nat → Nat → Prop} {k k' : Kernel} {i o t new : Nat} {l : List Nat}

/-- Task `t` stands in front of `t'` in a sorted list: it is more urgent, or was queued earlier. -/
def Before (k : Kernel) (t t' : Nat) : Prop :=
  k.priority t<k.priority t' ∨ (k.priority t=k.priority t' ∧ k.queuedAt t<k.queuedAt t')

lemma Before.le {t t' : Nat} (h : k.Before t t') : k.priority t≤k.priority t' := by
  rcases h with h | ⟨h,-⟩
  . exact le_of_lt h
  exact le_of_eq h

/-- Owners are as urgent as the tasks waiting for them, up to those that `x` allows. -/
structure PrioOk (x : Nat → Nat → Prop) (k : Kernel) : Prop where
  owner : ∀ i, (k.sems i).semType.isBin=true → ∀ t∈k.semList i,
    k.priority (k.sems i).semOwner≤k.priority t ∨ x (k.sems i).semOwner (k.priority t)
  orig : ∀ t≤k.sched.cfg.tskMaxNum, (k.sched.prios t).1≤(k.sched.prios t).2
  sorted : ∀ i, (k.sems i).semMode=.prior → (k.semList i).Pairwise k.Before
  stamp : ∀ i, ∀ t∈k.semList i, k.queuedAt t<k.clock

abbrev Settled (k : Kernel) : Prop := k.PrioOk fun _ _ => False

abbrev Raising (o new : Nat) (k : Kernel) : Prop := k.PrioOk fun o' p => o'=o ∧ new≤p

lemma priority_of_prios (h : k'.sched.prios t=k.sched.prios t) :
    k'.priority t=k.priority t := congrArg Prod.fst h

lemma priority_of_update {q : Nat} (h : k'.sched.prios=update k.sched.prios o (new,q)) :
    k'.priority=update k.priority o new := by
  funext t
  change (k'.sched.prios t).1=_
  rw [h]
  by_cases e : t=o
  . subst e
    simp only [update_self]
  simp only [update_of_ne e]
  rfl

lemma PrioOk.calm (h : k.PrioOk x)
    (hsem : ∀ i, k'.semList i≠[] → (k'.sems i).semType=(k.sems i).semType ∧
      (k'.sems i).semMode=(k.sems i).semMode ∧ (k'.sems i).semOwner=(k.sems i).semOwner)
    (hl : ∀ i, (k'.semList i).Sublist (k.semList i))
    (hw : ∀ i, ∀ t∈k.semList i, k'.priority t=k.priority t)
    (ho : ∀ i, (k.sems i).semType.isBin=true → k.semList i≠[] →
      k'.priority (k.sems i).semOwner=k.priority (k.sems i).semOwner)
    (horig : ∀ t≤k'.sched.cfg.tskMaxNum, (k'.sched.prios t).1≤(k'.sched.prios t).2)
    (hq : k'.queuedAt=k.queuedAt) (hc : k'.clock=k.clock) : k'.PrioOk x := by
  refine ⟨fun i hb t ht => ?_,horig,fun i hm => ?_,fun i t ht => ?_⟩
  . obtain ⟨hty,-,hown⟩ := hsem i (ne_nil_of_mem ht)
    have ht' := (hl i).subset ht
    rw [hty] at hb
    rw [hown,hw i t ht',ho i hb (ne_nil_of_mem ht')]
    exact h.owner i hb t ht'
  . by_cases hnil : k'.semList i=[]
    . rw [hnil]
      exact .nil
    rw [(hsem i hnil).2.1] at hm
    refine ((h.sorted i hm).sublist (hl i)).imp_of_mem fun {t t'} ht ht' hlt => ?_
    unfold Before
    rw [hw i t ((hl i).subset ht),hw i t' ((hl i).subset ht'),hq]
    exact hlt
  rw [hq,hc]
  exact h.stamp i t ((hl i).subset ht)

lemma PrioOk.congr (h : k.PrioOk x) (hs : k'.sems=k.sems)
    (hl : ∀ i, k'.semList i=k.semList i) (hp : k'.sched.prios=k.sched.prios)
    (hcfg : k'.sched.cfg=k.sched.cfg) (hq : k'.queuedAt=k.queuedAt)
    (hc : k'.clock=k.clock) : k'.PrioOk x := by
  refine h.calm (fun i _ => by rw [hs]; exact ⟨rfl,rfl,rfl⟩) (fun i => by rw [hl])
    (fun i t _ => priority_of_prios (congrFun hp t)) (fun i _ _ => priority_of_prios (congrFun hp _))
    ?_ hq hc
  rw [hcfg,hp]
  exact h.orig

lemma PrioOk.schedule (h : k.PrioOk x) : (k.onSched fun s => s.osTskSchedule).PrioOk x :=
  h.congr rfl (fun i => onSched_semList (osTskSchedule_pend _) i)
    (same_prios_quiet.step_osTskSchedule rfl) osTskSchedule_cfg rfl rfl

lemma insert_sorted (t : Nat) (hl : l.Pairwise k.Before)
    (hq : ∀ u∈l, k.queuedAt u<k.queuedAt t) :
    (insertAt (l.findIdx fun u => decide (k.priority t<k.priority u)) t l).Pairwise k.Before := by
  refine pairwise_insertAt t l hl (fun u _ hp => .inl (of_decide_eq_true hp)) (fun u hu hp => ?_)
    fun a _ b _ hab hp => ?_
  . rcases lt_or_eq_of_le (not_lt.mp (of_decide_eq_false hp)) with hlt | heq
    . exact .inl hlt
    exact .inr ⟨heq,hq u hu⟩
  exact decide_eq_true (lt_of_lt_of_le (of_decide_eq_true hp) hab.le)

lemma Raising.lower (h : k.Raising o new) (hlt : new<k.priority o)
    (hps : k'.sched.prios=update k.sched.prios o (new,(k.sched.prios o).2))
    (hcfg : k'.sched.cfg=k.sched.cfg) (hs : k'.sems=k.sems)
    (hl : ∀ i, ∀ t∈k'.semList i, t∈k.semList i)
    (hsort : ∀ i, (k.sems i).semMode=.prior → (k'.semList i).Pairwise k'.Before)
    (hst : ∀ i, ∀ t∈k'.semList i, k'.queuedAt t<k'.clock)
    (hx : ∀ i, (k.sems i).semType.isBin=true → o∈k.semList i →
      x (k.sems i).semOwner new) : k'.PrioOk x := by
  have hp := priority_of_update hps
  refine ⟨fun i hb t ht => ?_,fun t ht => ?_,fun i hm => ?_,hst⟩
  . rw [hs] at hb ⊢
    rw [hp]
    by_cases e : t=o
    . subst e
      rw [update_self]
      exact .inr (hx i hb (hl i t ht))
    rw [update_of_ne e]
    left
    by_cases eo : (k.sems i).semOwner=o
    . rw [eo,update_self]
      rcases h.owner i hb t (hl i t ht) with hle | ⟨-,hle⟩
      . rw [eo] at hle
        exact le_of_lt (lt_of_lt_of_le hlt hle)
      exact hle
    rw [update_of_ne eo]
    exact (h.owner i hb t (hl i t ht)).resolve_right fun hc => eo hc.1
  . rw [hcfg] at ht
    have hold := h.orig t ht
    rw [hps]
    by_cases e : t=o
    . subst e
      rw [update_self]
      exact le_trans (le_of_lt hlt) hold
    rw [update_of_ne e]
    exact hold
  rw [hs] at hm
  exact hsort i hm

lemma pairwise_before (ho : o∉l) (hp : k'.priority=update k.priority o new)
    (hq : ∀ u≠o, k'.queuedAt u=k.queuedAt u) (h : l.Pairwise k.Before) :
    l.Pairwise k'.Before := by
  have hne : ∀ u∈l, u≠o := fun u hu he => ho (he ▸ hu)
  refine h.imp_of_mem fun {t t'} ht ht' hlt => ?_
  unfold Before
  rw [hp,update_of_ne (hne t ht),update_of_ne (hne t' ht'),hq t (hne t ht),hq t' (hne t' ht')]
  exact hlt

lemma PrioOk.set (h : k.PrioOk x) (hx : ∀ o' p, x o' p → o'=o) {p q : Nat} (hpq : p≤q)
    (hmode : ∀ i, (k.sems i).semType.isBin=true → (k.sems i).semMode=.prior)
    (hno : ∀ i, (k.sems i).semMode=.prior → o∉k.semList i)
    (hle : ∀ i, (k.sems i).semType.isBin=true → (k.sems i).semOwner=o →
      ∀ t∈k.semList i, p≤k.priority t) (hps : k'.sched.prios=update k.sched.prios o (p,q))
    (hcfg : k'.sched.cfg=k.sched.cfg) (hs : k'.sems=k.sems)
    (hl : ∀ i, k'.semList i=k.semList i) (hq : k'.queuedAt=k.queuedAt)
    (hc : k'.clock=k.clock) : k'.Settled := by
  have hp := priority_of_update hps
  refine ⟨fun i hb t ht => .inl ?_,fun t ht => ?_,fun i hm => ?_,fun i t ht => ?_⟩
  . rw [hs] at hb ⊢
    rw [hl] at ht
    have hne : t≠o := fun he => hno i (hmode i hb) (he ▸ ht)
    rw [hp,update_of_ne hne]
    by_cases eo : (k.sems i).semOwner=o
    . rw [eo,update_self]
      exact hle i hb eo t ht
    rw [update_of_ne eo]
    exact (h.owner i hb t ht).resolve_right fun hc => eo (hx _ _ hc)
  . rw [hcfg] at ht
    rw [hps]
    by_cases e : t=o
    . subst e
      rw [update_self]
      exact hpq
    rw [update_of_ne e]
    exact h.orig t ht
  . rw [hs] at hm
    rw [hl]
    exact pairwise_before (hno i hm) hp (fun u _ => by rw [hq]) (h.sorted i hm)
  rw [hl] at ht
  rw [hq,hc]
  exact h.stamp i t ht

section loop

variable (h : k.Raising o new) (hl : k.sched.pend.loc o=some (.sem i))

lemma raise_prios (k : Kernel) (o new i : Nat) : (k.raise o new i).sched.prios =
    update k.sched.prios o (new,(k.sched.prios o).2) := by
  unfold raise
  split <;> exact k.sched.setPrio_prios o new

lemma raise_prior (hi : (k.sems i).semMode=.prior) :
    k.raise o new i=(k.setPriority o new).osResortSemList o i := if_pos hi

include h hl

lemma raise_sorted {j : Nat} (hj : (k.sems j).semMode=.prior) :
    ((k.raise o new i).semList j).Pairwise (k.raise o new i).Before := by
  have hp := priority_of_update (k.raise_prios o new i)
  have hq : ∀ u≠o, (k.raise o new i).queuedAt u=k.queuedAt u := by
    intro u hu
    unfold raise
    split
    . exact update_of_ne hu _ _
    rfl
  by_cases e : j=i
  . subst e
    have hlist : (k.raise o new j).semList j=insertAt
        (((k.semList j).erase o).findIdx fun u => decide ((k.raise o new j).priority o <
          (k.raise o new j).priority u)) o ((k.semList j).erase o) := by
      have hdel : (k.sched.pend.delete o).loc o=none := by simp
      have hset : (k.setPriority o new).priority=(k.raise o new j).priority := by
        rw [hp]
        exact priority_of_update (k.sched.setPrio_prios o new)
      have herase : ((k.setPriority o new).onSched fun s => s.pendDelete o).semList j =
          (k.semList j).erase o := delete_lists_eq _ _ _
      rw [← hset,raise_prior hj]
      change ((k.sched.pend.delete o).insert o (.sem j) _).lists (.sem j)=_
      rw [insert_lists _ _ _ hdel,update_self,priorPos,herase,delete_lists_eq]
      rfl
    rw [hlist]
    have hnd : o∉(k.semList j).erase o := (k.sched.pend.nodup _).not_mem_erase
    apply insert_sorted o (pairwise_before hnd hp hq ((h.sorted j hj).sublist erase_sublist))
    intro u hu
    rw [hq u fun he => hnd (he ▸ hu)]
    have hclock : (k.raise o new j).queuedAt o=k.clock := by
      rw [raise_prior hj]
      exact update_self ..
    rw [hclock]
    exact h.stamp j u (mem_of_mem_erase hu)
  have hno : o∉k.semList j := by
    intro hm
    have he := ((k.sched.pend.mem_iff _ _).mp hm).symm.trans hl
    exact e (PendHead.sem.inj (Option.some.inj he))
  have hlist : (k.raise o new i).semList j=k.semList j := by
    unfold raise
    split
    . change ((k.sched.pend.delete o).insert o (.sem i) _).lists (.sem j)=_
      rw [insert_lists_ne _ _ _ fun he => e (PendHead.sem.inj he),
        delete_lists_ne _ fun he => e (PendHead.sem.inj (Option.some.inj (he.symm.trans hl)))]
      rfl
    rfl
  rw [hlist]
  exact pairwise_before hno hp hq (h.sorted j hj)

end loop

def above (k : Kernel) (new : Nat) : Nat :=
  ((Finset.range (k.sched.cfg.tskMaxNum+1)).filter fun t => new<k.priority t).card

lemma above_lt (ho : o≤k.sched.cfg.tskMaxNum) (hlt : new<k.priority o)
    (hp : k'.priority=update k.priority o new)
    (hcfg : k'.sched.cfg=k.sched.cfg) : k'.above new<k.above new := by
  refine Finset.card_lt_card ⟨fun t ht => ?_,fun hsub => ?_⟩
  . rw [hcfg,hp] at ht
    obtain ⟨hr,hlt'⟩ := Finset.mem_filter.mp ht
    refine Finset.mem_filter.mpr ⟨hr,?_⟩
    by_cases e : t=o
    . subst e
      exact hlt
    rwa [update_of_ne e] at hlt'
  have hmem := hsub (Finset.mem_filter.mpr ⟨Finset.mem_range.mpr (Nat.lt_succ_of_le ho),hlt⟩)
  have hlt' := (Finset.mem_filter.mp hmem).2
  rw [hp,update_self] at hlt'
  exact lt_irrefl _ hlt'

lemma osPriorityInheritLoop_settled (n : Nat) (k : Kernel) (o new : Nat) (hR : k.Raising o new)
    (h : k.sched.Core) (ho : o≤k.sched.cfg.tskMaxNum) (hnew : new≤k.sched.cfg.prioLowest)
    (hown : ∀ t j, (k.sched.view t).loc=some (.sem j) → (k.sems j).semType.isBin=true →
      (k.sems j).semOwner≤k.sched.cfg.tskMaxNum)
    (hmode : ∀ i, (k.sems i).semType.isBin=true → (k.sems i).semMode=.prior)
    (hn : k.above new<n) : (osPriorityInheritLoop n k o new).Settled := by
  induction n generalizing k o with
  | zero => cases hn
  | succ n ih =>
    have hlast : new<k.priority o → (∀ i, k.sched.pend.loc o≠some (.sem i)) →
        ∀ {k' : Kernel}, k'.sched.prios=update k.sched.prios o (new,(k.sched.prios o).2) →
        k'.sched.cfg=k.sched.cfg → k'.sems=k.sems → (∀ i, k'.semList i=k.semList i) →
        k'.queuedAt=k.queuedAt → k'.clock=k.clock → k'.Settled := by
      intro hlt hno k'
      refine hR.set (fun _ _ hx => hx.1) (le_trans (le_of_lt hlt) (hR.orig o ho)) hmode
        (fun i _ hm => hno i ((k.sched.pend.mem_iff _ _).mp hm)) fun i hb hoi t ht => ?_
      rcases hR.owner i hb t ht with hle | ⟨-,hle⟩
      . rw [hoi] at hle
        exact le_of_lt (lt_of_lt_of_le hlt hle)
      exact hle
    rcases osPriorityInheritLoop_succ h ho n new with
      ⟨hle,he⟩ | ⟨hlt,⟨hr,he⟩ | ⟨i,hf,he⟩ | ⟨-,hno,he⟩⟩ <;> rw [he]
    . refine ⟨fun i hb t ht => .inl ?_,hR.orig,hR.sorted,hR.stamp⟩
      rcases hR.owner i hb t ht with hle' | ⟨rfl,hle'⟩
      . exact hle'
      exact le_trans hle hle'
    . obtain ⟨m,hf,-⟩ := h.tasks o ho
      obtain rfl := hf.eq_ready hr
      have hno : ∀ i, k.sched.pend.loc o≠some (.sem i) := fun i => Core.loc_ne_sem hf rfl
      refine hlast hlt hno (requeue_prios (fun s => s.osTskReadyAdd_prios o) _ o new) rfl rfl
        (fun i => ?_) rfl rfl
      exact (osTskReadyAdd_sem _ o i).trans (osTskReadyDel_sem (hno i))
    . obtain ⟨hm,hcore⟩ := raise_moved h ho hf hnew
      have hres := raise_resorted hf.loc new
      have hps := k.raise_prios o new i
      have hlow : ∀ {x : Nat → Nat → Prop}, ((k.sems i).semType.isBin=true →
          x (k.sems i).semOwner new) → (k.raise o new i).PrioOk x := by
        intro x hx
        refine hR.lower hlt hps hm.cfg hres.sems (fun j t ht => (hres.perm j).mem_iff.mp ht)
          (fun j hj => raise_sorted hR hf.loc hj) (fun j t ht => ?_) fun j hb hj => ?_
        . rcases hres.stamp t with hs | ⟨-,hs,-⟩
          . rw [hs]
            exact lt_of_lt_of_le (hR.stamp j t ((hres.perm j).mem_iff.mp ht)) hres.clock
          exact hs
        have hl := ((k.sched.pend.mem_iff _ _).mp hj).symm.trans hf.loc
        obtain rfl := PendHead.sem.inj (Option.some.inj hl)
        exact hx hb
      split
      . next hb =>
        refine ih _ _ (hlow fun _ => ⟨rfl,le_rfl⟩) hcore ?_ ?_ (fun t j ht hbj => ?_)
          (by rwa [raise_sems]) ?_
        . rw [hm.cfg]
          exact hown o i hf.loc hb
        . rw [hm.cfg]
          exact hnew
        . rw [raise_sems] at hbj ⊢
          rw [hm.cfg]
          have hmem : t∈(k.raise o new i).semList j := ((k.raise o new i).sched.pend.mem_iff _ _).mpr ht
          exact hown t j ((k.sched.pend.mem_iff _ _).mp ((hres.perm j).mem_iff.mp hmem)) hbj
        have hab := above_lt ho hlt (priority_of_update hps) hm.cfg
        omega
      next hb => exact hlow fun hb' => absurd hb' hb
    exact hlast hlt hno (k.sched.setPrio_prios o new) rfl rfl (fun _ => rfl) rfl rfl

lemma osSemBlock_prios (k : Kernel) (i n : Nat) : (k.osSemBlock i n).sched.prios=k.sched.prios := by
  exact same_prios_quiet.paces.osSemBlock trivial rfl rfl trivial ⟨.inl trivial,.inl trivial⟩

lemma osSemBlock_prio (h : k.Settled) (hno : ∀ j, k.sched.pend.loc k.sched.cpu.runningTask ≠
      some (.sem j)) (n : Nat) (hcfg : (k.osSemBlock i n).sched.cfg=k.sched.cfg)
    (hx : (k.sems i).semType.isBin=true →
      x (k.sems i).semOwner (k.priority k.sched.cpu.runningTask)) : (k.osSemBlock i n).PrioOk x := by
  have hlist := k.osSemBlock_semList hno i n
  have hps := k.osSemBlock_prios i n
  have hp : ∀ t, (k.osSemBlock i n).priority t=k.priority t :=
    fun t => priority_of_prios (congrFun hps t)
  have hq : ∀ u≠k.sched.cpu.runningTask, (k.osSemBlock i n).queuedAt u=k.queuedAt u :=
    fun u hu => update_of_ne hu _ _
  have hrun : (k.osSemBlock i n).queuedAt k.sched.cpu.runningTask=k.clock := update_self ..
  have hout : ∀ j, k.sched.cpu.runningTask∉k.semList j :=
    fun j hm => hno j ((k.sched.pend.mem_iff _ _).mp hm)
  have hsame : ∀ j, (k.sems j).semMode=.prior →
      (k.semList j).Pairwise (k.osSemBlock i n).Before := by
    intro j hm
    have hp' : (k.osSemBlock i n).priority=update k.priority k.sched.cpu.runningTask
        (k.priority k.sched.cpu.runningTask) := by
      rw [update_eq_self]
      exact funext hp
    exact pairwise_before (hout j) hp' hq (h.sorted j hm)
  refine ⟨fun j hb t ht => ?_,fun t ht => ?_,fun j hm => ?_,fun j t ht => ?_⟩
  . rw [hp,hp]
    rw [hlist] at ht
    split at ht
    . next e =>
      subst e
      rcases (mem_insertAt _ _ _ _).mp ht with rfl | ht
      . exact .inr (hx hb)
      exact .inl ((h.owner j hb t ht).resolve_right id)
    exact .inl ((h.owner j hb t ht).resolve_right id)
  . rw [hps]
    rw [hcfg] at ht
    exact h.orig t ht
  . change (k.sems j).semMode=.prior at hm
    rw [hlist]
    split
    . next e =>
      subst e
      have hpos : k.semPos j=(k.semList j).findIdx fun u => decide
          ((k.osSemBlock j n).priority k.sched.cpu.runningTask<(k.osSemBlock j n).priority u) := by
        simp only [semPos,if_pos hm,priorPos,hp]
      rw [hpos]
      refine insert_sorted _ (hsame j hm) fun u hu => ?_
      rw [hq u fun he => hout j (he ▸ hu),hrun]
      exact h.stamp j u hu
    exact hsame j hm
  by_cases e : t=k.sched.cpu.runningTask
  . rw [e,hrun]
    exact Nat.lt_succ_self _
  rw [hq t e]
  refine Nat.lt_succ_of_lt (h.stamp j t ?_)
  rw [hlist] at ht
  split at ht
  . next ej =>
    subst ej
    exact ((mem_insertAt _ _ _ _).mp ht).resolve_left e
  exact ht

lemma PrioOk.held_le (h : k.PrioOk x) (hm : (k.sems i).semMode=.prior) {bound : Nat}
    (hi : i∈k.semB.lists o) (ht : t∈k.semList i) :
    k.osGetPendTskMaxPriority o bound≤k.priority t := by
  obtain ⟨u,l,hl⟩ := exists_cons_of_ne_nil (ne_nil_of_mem ht)
  have hu := (k.osGetPendTskMaxPriority_le o bound).2 i hi u l hl
  have hs := h.sorted i hm
  rw [hl] at ht hs
  rcases mem_cons.mp ht with rfl | ht
  . exact hu
  exact le_trans hu ((pairwise_cons.mp hs).1 t ht).le

lemma osPriorityRestore_settled (h : k.Settled)
    (hmode : ∀ i, (k.sems i).semType.isBin=true → (k.sems i).semMode=.prior)
    (hno : ∀ j, k.sched.pend.loc k.sched.cpu.runningTask≠some (.sem j))
    (hheld : ∀ i, (k.sems i).semType.isBin=true → k.semList i≠[] →
      (k.sems i).semOwner=k.sched.cpu.runningTask → i∈k.semB.lists k.sched.cpu.runningTask) :
    k.osPriorityRestore.1.Settled := by
  have hlist := osPriorityRestore_semList hno
  unfold osPriorityRestore at hlist ⊢
  dsimp only at hlist ⊢
  split
  . exact h
  split
  . exact h
  next hne hmax =>
  rw [if_neg hne,if_neg hmax] at hlist
  refine h.set (fun _ _ => False.elim)
    (k.osGetPendTskMaxPriority_le _ (k.sched.tcb k.sched.cpu.runningTask).origPriority).1 hmode
    (fun i _ hm => hno i ((k.sched.pend.mem_iff _ _).mp hm))
    (fun i hb ho t ht => h.held_le (hmode i hb) (hheld i hb (ne_nil_of_mem ht) ho) ht)
    (requeue_prios (fun s => s.readyAddUnlessSuspend_prios _) _ _ _) ?_ rfl hlist rfl rfl
  unfold readyAddUnlessSuspend
  split <;> rfl

lemma osCheckPrioritySet_ok {p : Nat} (hok : k.osCheckPrioritySet t p=.osOk) :
    ((k.sched.status t).pend=true → ∀ j, (k.sched.tcb t).taskPend=some (.sem j) →
      (k.sems j).semMode≠.prior) ∧
    (k.semB.lists t≠[] → p≤k.osGetPendTskMaxPriority t (k.sched.tcb t).origPriority) := by
  unfold osCheckPrioritySet at hok
  dsimp only at hok
  split at hok
  . cases hok
  have hheld : (if k.semB.lists t=[] then Errno.osOk
      else if k.osGetPendTskMaxPriority t (k.sched.tcb t).origPriority<p then
        .tskPriorLowerThanPendtsk
      else .osOk)=.osOk →
      k.semB.lists t≠[] → p≤k.osGetPendTskMaxPriority t (k.sched.tcb t).origPriority := by
    intro he hne
    rw [if_neg hne] at he
    split at he
    . cases he
    next hn => exact not_lt.mp hn
  split at hok
  . next j hp ho =>
    split at hok
    . cases hok
    split at hok
    . cases hok
    next hm =>
    refine ⟨fun _ j' ho' => ?_,hheld hok⟩
    obtain rfl := PendObj.sem.inj (Option.some.inj (ho.symm.trans ho'))
    exact hm
  next hn => exact ⟨fun hp j ho => absurd ho (hn j hp),hheld hok⟩

lemma handOver_sems (k : Kernel) (i t : Nat) : (k.handOver i t).sems =
    update k.sems i {k.sems i with semOwner:=(k.sched.tcb t).taskPid} := by rw [handOver_eq]

lemma handOver_type (k : Kernel) (i t j : Nat) :
    ((k.handOver i t).sems j).semType=(k.sems j).semType ∧
      ((k.handOver i t).sems j).semMode=(k.sems j).semMode := by
  rw [handOver_sems]
  by_cases e : j=i
  . subst e
    rw [update_self]
    exact ⟨rfl,rfl⟩
  rw [update_of_ne e]
  exact ⟨rfl,rfl⟩

section calls

variable {c u : Prop} (h : k.Settled) (hab : Able c u k.sched) (hk : k.SemOk)

include hk in
lemma prior_of_bin (i : Nat) (hb : (k.sems i).semType.isBin=true) :
    (k.sems i).semMode=.prior := (hk.each i).mode.mpr hb

include hk in
lemma held_of_waiter (hx : k.MutexOk) (hb : (k.sems i).semType.isBin=true)
    (hl : k.semList i≠[]) : k.semB.loc i=some (k.sems i).semOwner := by
  have hu : (k.sems i).used=true := by
    by_contra hn
    exact hl ((hk.each i).unused (by simpa using hn))
  exact ((hx i).taken hu hb ((hk.each i).taken hl)).1

include h hk in
lemma Settled.of_step {a : SemAct} (hs : SemStep k k' i a) (hw : a≠.wait) (hh : a≠.hand)
    (hp : k'.sched.prios=k.sched.prios) (hcfg : k'.sched.cfg=k.sched.cfg) : k'.Settled := by
  obtain ⟨hq,hcl,hl,hcb⟩ := hs.lists hk hw
  refine h.calm (fun j hj => ⟨(hcb j hj).1,(hcb j hj).2.1,(hcb j hj).2.2 hh⟩) hl
    (fun j t _ => priority_of_prios (congrFun hp t))
    (fun j _ _ => priority_of_prios (congrFun hp _)) ?_ hq hcl
  rw [hcfg,hp]
  exact h.orig

include h hab hk

lemma prtSemPend_settled (hbg : k.sched.cpu.bgdActive=true)
    (hc : k.sched.cpu.taskContext=true → k.sched.cont k.sched.cpu.runningTask=.user)
    (i n : Nat) : (k.prtSemPend i n).1.Settled := by
  unfold prtSemPend
  split
  . exact h
  split
  . exact h
  next hu =>
  split
  . exact h
  next hi =>
  have ht := taskContext_of hbg hi
  have hu' : (k.sems i).used=true := (Bool.not_eq_false _).mp hu
  split
  . next k' he =>
    have hps := same_prios_quiet.respects.step_osSemPendNotNeedSche rfl he
    obtain ⟨fs,hsched,-⟩ := osSemPendNotNeedSche_some (u:=False) nofun hu' he
    have hcfg : k'.sched.cfg=k.sched.cfg := by rw [hsched]
    rcases osSemPendNotNeedSche_step ht hu' he with hs | hs
    . exact h.of_step hk hs nofun nofun hps hcfg
    exact h.of_step hk hs nofun nofun hps hcfg
  next hs =>
  split
  . exact h
  have h0 : Able False False k.sched := ⟨hab.core,hab.alive,hab.run,False.elim,False.elim⟩
  have hz := osSemPendNotNeedSche_none hs
  have hm := osSemBlock_moved h0 ht (hc ht) i (n:=n) False.elim
  have hne := hab.running_loc
  have hcore := hm.core hab.core (hab.run.real ht) nofun
  have hset : (k.onSched fun s => s.setCont s.cpu.runningTask (semCont n)).Settled :=
    h.congr rfl (fun _ => rfl) rfl rfl rfl rfl
  have hblock := fun x hx => osSemBlock_prio (x:=x) hset hne n hm.cfg hx (i:=i)
  have hprio : ((k.onSched fun s => s.setCont s.cpu.runningTask (semCont n)).osSemBlock i n).priority
      k.sched.cpu.runningTask=k.priority k.sched.cpu.runningTask :=
    priority_of_prios (congrFun (osSemBlock_prios _ i n) _)
  apply PrioOk.schedule
  change ((k.onSched fun s => s.setCont s.cpu.runningTask (semCont n)).osSemBlock i n
    |>.osPriorityInherit i k.sched.cpu.runningTask).Settled
  unfold osPriorityInherit
  split
  . next hb =>
    have hoi : (k.sems i).semOwner≤((k.onSched fun s => s.setCont s.cpu.runningTask
        (semCont n)).osSemBlock i n).sched.cfg.tskMaxNum := by
      rw [hm.cfg]
      exact (hk.each i).owner hb hz
    refine osPriorityInheritLoop_settled _ _ _ _ (hblock _ fun _ => ⟨rfl,le_of_eq hprio⟩) hcore
      hoi ?_ (fun t j hl hbj => ?_) (fun j hb => prior_of_bin hk j hb) ?_
    . rw [hm.cfg]
      exact hm.fits.prio
    . rcases hm.loc_sem hl with hl | rfl
      . rw [hm.cfg]
        exact hk.owner_of_loc hl hbj
      exact hoi
    apply lt_of_le_of_lt (Finset.card_filter_le _ _)
    rw [Finset.card_range]
    exact Nat.lt_succ_self _
  next hb => exact hblock _ fun hb' => absurd hb' hb

lemma handOver_settled (hi : k.semList i=t::l) : (k.handOver i t).Settled := by
  obtain ⟨hpid,-,-⟩ := waiter_pid hab.core (i:=i) (t:=t) (by rw [hi]; exact mem_cons_self)
  have hlist := handOver_semList hi
  have hps : (k.handOver i t).sched.prios=k.sched.prios :=
    same_prios_quiet.respects.step_osSemWake rfl nofun ⟨.inl trivial,.inl trivial⟩
  have hp : ∀ u, (k.handOver i t).priority u=k.priority u :=
    fun u => priority_of_prios (congrFun hps u)
  have hsub : ∀ j, ((k.handOver i t).semList j).Sublist (k.semList j) := by
    intro j
    rw [hlist]
    split
    . next e =>
      subst e
      rw [hi]
      exact sublist_cons_self _ _
    exact .refl _
  have hty := handOver_type k i t
  refine ⟨fun j hb u hu => .inl ?_,?_,fun j hm => ?_,fun j u hu => ?_⟩
  . rw [(hty j).1] at hb
    rw [hp,hp,handOver_sems]
    by_cases e : j=i
    . subst e
      rw [update_self]
      have hs := h.sorted j (prior_of_bin hk j hb)
      rw [hlist,if_pos rfl] at hu
      rw [hi] at hs
      rw [hpid]
      exact ((pairwise_cons.mp hs).1 u hu).le
    rw [update_of_ne e]
    exact (h.owner j hb u ((hsub j).subset hu)).resolve_right id
  . rw [hps]
    have hcfg : (k.handOver i t).sched.cfg=k.sched.cfg := osSemWake_cfg k.sched t
    rw [hcfg]
    exact h.orig
  . rw [(hty j).2] at hm
    refine ((h.sorted j hm).sublist (hsub j)).imp fun {u u'} hlt => ?_
    unfold Before
    rw [hp,hp]
    exact hlt
  exact h.stamp j u ((hsub j).subset hu)

lemma osSemPendListGet_settled (hx : k.MutexOk) (hne : ∀ j, k.sched.pend.loc
      k.sched.cpu.runningTask≠some (.sem j)) (hi : k.semList i=t::l) :
    (k.osSemPendListGet i).Settled := by
  have hloc : k.sched.pend.loc t=some (.sem i) := head_loc hi
  obtain ⟨hpid,-,-⟩ := waiter_pid hab.core (i:=i) (t:=t) (by rw [hi]; exact mem_cons_self)
  have h1 := handOver_settled h hab hk hi
  have hty := handOver_type k i t
  rw [osSemPendListGet_eq hi]
  split
  . refine osPriorityRestore_settled (h1.congr rfl (fun _ => rfl) rfl rfl rfl rfl)
      (fun j hb => ?_) (handOver_loc_ne hne) fun j hb hl ho => ?_
    . change ((k.handOver i t).sems j).semType.isBin=true at hb
      change ((k.handOver i t).sems j).semMode=.prior
      rw [(hty j).1] at hb
      rw [(hty j).2]
      exact prior_of_bin hk j hb
    change ((k.handOver i t).sems j).semType.isBin=true at hb
    change (k.handOver i t).semList j≠[] at hl
    change ((k.handOver i t).sems j).semOwner=(osSemWake k.sched t).cpu.runningTask at ho
    change j∈((k.semB.delete i).insert i t _).lists (osSemWake k.sched t).cpu.runningTask
    rw [osSemWake_cpu] at ho ⊢
    rw [(hty j).1] at hb
    rw [handOver_sems] at ho
    have e : j≠i := by
      rintro rfl
      rw [update_self] at ho
      rw [← ho,hpid] at hne
      exact hne j hloc
    rw [update_of_ne e] at ho
    rw [handOver_semList hi,if_neg e] at hl
    have hheld := held_of_waiter hk hx hb hl
    rw [mem_iff,insert_loc _ _ _ (by simp),update_of_ne e,delete_loc,update_of_ne e,hheld,ho]
  exact h1

lemma prtSemPost_settled (hx : k.MutexOk) (i : Nat) : (k.prtSemPost i).1.Settled := by
  have hne := hab.running_loc
  unfold prtSemPost
  split
  . exact h
  split
  . exact h
  next hchk =>
  split
  . next k' he =>
    unfold osSemPostIsInvalid at he
    dsimp only at he
    split at he
    . obtain rfl := Option.some.inj he
      refine h.calm (fun j _ => ?_) (fun _ => .refl _) (fun _ _ _ => rfl)
        (fun _ _ _ => rfl) h.orig rfl rfl
      by_cases e : j=i
      . subst e
        simp [modSem,logSem]
      simp [modSem,logSem,e]
    split at he
    . obtain rfl := Option.some.inj he
      exact h
    cases he
  next hinv =>
  have hlog : (k.logSem i (.posted k.sched.cpu.runningTask)).Settled :=
    h.congr rfl (fun _ => rfl) rfl rfl rfl rfl
  dsimp only
  split
  . next hl =>
    obtain ⟨t,l,hi⟩ := exists_cons_of_ne_nil hl
    refine PrioOk.schedule (osSemPendListGet_settled (k:=k.logSem i _) hlog hab ?_ hx hne hi)
    exact ⟨hk.each,hk.free,hk.nodup⟩
  next hl =>
  have hnil : k.semList i=[] := not_not.mp hl
  have hother : ∀ j, k.semList j≠[] → (update k.sems i { k.sems i with
      semCount := ((k.sems i).semCount+1)%2^32, semOwner := osInvalidOwnerId }) j =
      k.sems j := by
    intro j hj
    have e : j≠i := fun e => hj (e ▸ hnil)
    exact update_of_ne e _ _
  generalize hk1 : ((k.logSem i (.posted k.sched.cpu.runningTask)).modSem i fun c =>
    {c with semCount:=(c.semCount+1)%2^32, semOwner:=osInvalidOwnerId})=k1
  have hs1 : k1.sched=k.sched := by rw [← hk1]; rfl
  have hB : k1.semB=k.semB := by rw [← hk1]; rfl
  have hlist : ∀ j, k1.semList j=k.semList j := fun j => by rw [← hk1]; rfl
  have hsems : ∀ j, k.semList j≠[] → k1.sems j=k.sems j := by
    rw [← hk1]
    exact hother
  have hprior : ∀ j, (k1.sems j).semType.isBin=true → (k1.sems j).semMode=.prior := by
    intro j hb
    rw [← hk1] at hb ⊢
    by_cases e : j=i
    . subst e
      simp only [modSem,logSem,update_self] at hb ⊢
      exact prior_of_bin hk j hb
    simp only [modSem,logSem,update_of_ne e] at hb ⊢
    exact prior_of_bin hk j hb
  have h1 : k1.Settled := by
    refine h.calm (fun j hne => ?_) (fun j => by rw [hlist]) (fun j t _ => ?_) (fun j _ _ => ?_)
      ?_ (by rw [← hk1]; rfl) (by rw [← hk1]; rfl)
    . rw [hlist] at hne
      rw [hsems j hne]
      exact ⟨rfl,rfl,rfl⟩
    . rw [priority,hs1]
      rfl
    . rw [priority,hs1]
      rfl
    rw [hs1]
    exact h.orig
  clear hk1
  split
  . have hrest : (k1.semBDelete i).osPriorityRestore.1.Settled := by
      refine osPriorityRestore_settled (h1.congr rfl (fun _ => rfl) rfl rfl rfl rfl) hprior ?_
        fun j hb hl' ho => ?_
      . change ∀ j, k1.sched.pend.loc k1.sched.cpu.runningTask≠some (.sem j)
        rw [hs1]
        exact hne
      change (k1.sems j).semType.isBin=true at hb
      change k1.semList j≠[] at hl'
      change (k1.sems j).semOwner=k1.sched.cpu.runningTask at ho
      change j∈(k1.semB.delete i).lists k1.sched.cpu.runningTask
      rw [hlist] at hl'
      rw [hsems j hl'] at hb ho
      have e : j≠i := fun e => hl' (e ▸ hnil)
      rw [mem_iff,delete_loc,update_of_ne e,hB,held_of_waiter hk hx hb hl',ho]
    split
    . next k2 he =>
      rw [he] at hrest
      exact hrest.schedule
    next k2 he =>
    rw [he] at hrest
    exact hrest
  exact h1

lemma prtTaskSetPriority_settled (hx : k.MutexOk) (t p : Nat) :
    (k.prtTaskSetPriority t p).1.Settled := by
  unfold prtTaskSetPriority
  split
  . exact h
  split
  . exact h
  split
  . exact h
  next hchk =>
  obtain ⟨hpend,hheld⟩ := osCheckPrioritySet_ok (not_not.mp hchk)
  have hno : ∀ i, (k.sems i).semMode=.prior → t∉k.semList i := by
    intro i hm hmem
    obtain ⟨m,hf,-⟩ := hab.core.tasks t (hab.core.le_of_mem hmem)
    obtain rfl := hf.eq_of_loc_sem ((k.sched.pend.mem_iff _ _).mp hmem)
    exact hpend hf.pend i hf.obj hm
  have hle : ∀ i, (k.sems i).semType.isBin=true → (k.sems i).semOwner=t →
      ∀ u∈k.semList i, p≤k.priority u := by
    intro i hb ho u hu
    have hi : i∈k.semB.lists t := by
      rw [mem_iff,held_of_waiter hk hx hb (ne_nil_of_mem hu),ho]
    exact le_trans (hheld (ne_nil_of_mem hi)) (h.held_le (prior_of_bin hk i hb) hi hu)
  split
  . next hr =>
    have hne : ∀ i, k.sched.pend.loc t≠some (.sem i) := by
      intro i hl
      obtain ⟨m,hf,-⟩ := hab.core.tasks t (hab.core.le_of_loc hl)
      obtain rfl := hf.eq_of_loc_sem hl
      cases hf.ready.symm.trans hr
    refine PrioOk.schedule (k:={ k with sched := (((k.sched.osTskReadyDel t).modTcb t fun c =>
      {c with priority:=p}).osTskReadyAdd t).modTcb t fun c => {c with origPriority:=p} })
      (h.set (fun _ _ => False.elim) (le_refl p) (prior_of_bin hk) hno hle ?_ rfl rfl
        (fun i => ?_) rfl rfl)
    . have hadd := k.sched.requeue_prios (fun s => s.osTskReadyAdd_prios t) t p
      have hp : (((((k.sched.osTskReadyDel t).modTcb t fun c =>
          {c with priority:=p}).osTskReadyAdd t).prios) t).1=p := by
        rw [hadd,update_self]
      rw [modTcb_prios,hadd,update_idem]
      exact congrArg (fun a => update k.sched.prios t (a,p)) hp
    exact (osTskReadyAdd_sem _ t i).trans (osTskReadyDel_sem (hne i))
  exact h.set (fun _ _ => False.elim) (le_refl p) (prior_of_bin hk) hno hle
    (k.sched.modTcb_prios t fun c => {c with priority:=p, origPriority:=p}) rfl rfl
    (fun _ => rfl) rfl rfl

end calls

lemma Settled.calm_input (h : k.Settled) (hf : Fine False False False False True k) {a : Input}
    (hp : a.plain=true) (hen : k.enabled a=true)
    (hT : k.InputWithin (prioTouch fun t => (k.sched.status t).inuse=false) a)
    (hpost : ∀ i, a≠.call (.semPost i)) (hpend : ∀ i n, a≠.call (.semPend i n)) :
    (k.act a).1.Settled := by
  have hab := hf.able ⟨id,id,False.elim⟩ (enabled_alive hen)
  have hq := act_quiet (prios_quiet _) hab hen (Input.plain_ok hp k) hT
  obtain ⟨j,x,hs,hby⟩ := exists_semStep hab hf.sem hen (Input.plain_ok hp k)
  have hcfg := (act_keeps hab hf.sem False.elim hen (Input.plain_ok hp k)).cfg
  have hw : x≠.wait := by
    rintro rfl
    obtain ⟨n,he⟩ := hby
    exact hpend j n he
  have hh : x≠.hand := by
    rintro rfl
    exact hpost j hby
  have hkeep : ∀ t, (k.sched.status t).inuse=true → (k.act a).1.priority t=k.priority t := by
    intro t hin
    refine priority_of_prios ((hq t).1 fun hn => ?_)
    rw [hin] at hn
    cases hn
  obtain ⟨hst,hcl,hl,hcb⟩ := hs.lists hf.sem hw
  refine h.calm (fun j hj => ⟨(hcb j hj).1,(hcb j hj).2.1,(hcb j hj).2.2 hh⟩) hl
    (fun i t ht => hkeep t (waiter_pid hf.core ht).2.2) (fun i hb hl => ?_)
    (fun t ht => ?_) hst hcl
  . apply hkeep _
    have hu : (k.sems i).used=true := by
      by_contra hn
      exact hl ((hf.sem.each i).unused (by simpa using hn))
    exact ((hf.mutex trivial i).taken hu hb ((hf.sem.each i).taken hl)).2
  rw [hcfg] at ht
  exact (hq t).2 (h.orig t ht)

lemma Settled.act (h : k.Settled) (hf : Fine False False False False True k) {a : Input}
    (hp : a.plain=true) (hen : k.enabled a=true) : (k.act a).1.Settled := by
  have hab := hf.able ⟨id,id,False.elim⟩ (enabled_alive hen)
  have hx := hf.mutex trivial
  have hcalm := h.calm_input hf hp hen
  cases a with
  | call call =>
    have hm := (enabled_call hen).2
    cases call with
    | semPend i n => exact prtSemPend_settled h hab hf.sem (hm.bgd.resolve_right nofun) hm.user i n
    | semPost i => exact prtSemPost_settled h hab hf.sem hx i
    | taskSetPriority t p => exact prtTaskSetPriority_settled h hab hf.sem hx t p
    | taskCreate p memOk kthread => exact hcalm (fun t ht => ⟨trivial,ht⟩) nofun nofun
    | taskDelete | taskExit => exact hcalm ⟨trivial,trivial⟩ nofun nofun
    | _ => exact hcalm trivial nofun nofun
  | proceed => exact hcalm ⟨fun _ => trivial,fun _ => trivial,fun _ => trivial⟩ nofun nofun
  | activate memOk => exact hcalm (fun t ht => ⟨trivial,ht⟩) nofun nofun
  | _ => exact hcalm trivial nofun nofun

lemma init_settled (cfg : Cfg) : (init cfg).Settled := by
  refine ⟨fun i _ => ?_,fun t ht => ?_,fun i _ => ?_,fun i => ?_⟩
  . nofun
  . have ht' : t≤cfg.tskMaxNum := ht
    change ((init cfg).sched.tcb t).priority≤((init cfg).sched.tcb t).origPriority
    rw [init_tcb ht']
  . exact .nil
  nofun

end Kernel

/-- Owners are as urgent as the tasks that wait for their mutexes, no task is less urgent than by
itself, and the lists are sorted. -/
structure NoInversion (k : Kernel) : Prop where
  owner : ∀ i, (k.sems i).semType.isBin=true → ∀ t∈k.semList i,
    (k.sched.tcb (k.sems i).semOwner).priority≤(k.sched.tcb t).priority
  orig : ∀ t≤k.sched.cfg.tskMaxNum, (k.sched.tcb t).priority≤(k.sched.tcb t).origPriority
  sorted : ∀ i, (k.sems i).semMode=.prior → (k.semList i).Pairwise fun t t' =>
    (k.sched.tcb t).priority<(k.sched.tcb t').priority ∨
      ((k.sched.tcb t).priority=(k.sched.tcb t').priority ∧ k.queuedAt t<k.queuedAt t')

open Kernel

theorem no_inversion {cfg : Cfg} {k : Kernel} (h : (kernelMachine cfg).Reaches
      (fun k a => a.plain=true ∧ a.sparesHolders k) k) : NoInversion k := by
  have hs : k.Settled := by
    refine h.invariant_of (fun _ => fine_of_spares fun _ _ ha => ha) ?_ fun k a hf hs ha => ?_
    . rintro k rfl
      exact init_settled cfg
    change (k.step a).Settled
    unfold Kernel.step
    split
    . next hen => exact hs.act hf ha.1 hen
    exact hs
  exact ⟨fun i hb t ht => (hs.owner i hb t ht).resolve_right id,hs.orig,hs.sorted⟩

def chainInputs : List Input :=
  [.call (.taskCreate (smallTask 9) true false),.call (.taskResume 0),
   .call (.taskCreate (smallTask 7) true false),.call (.taskCreate (smallTask 5) true false),
   .call (.mutexCreate true),.call (.mutexCreate true),.activate true,
   .call (.semPend 0 osWaitForever),.call (.taskResume 1),.call (.semPend 1 osWaitForever),
   .call (.semPend 0 osWaitForever),.call (.taskResume 2),.call (.semPend 1 7)]

theorem no_inversion_chain :
    let k := (kernelMachine smallCfg).run (Kernel.init smallCfg) chainInputs
    k.semList 0=[1] ∧ k.semList 1=[2] ∧ (k.sched.tcb 0).priority=5 ∧ NoInversion k := by
  have hrun : (kernelMachine smallCfg).Reaches (fun k a => a.plain=true ∧ a.sparesHolders k)
      ((kernelMachine smallCfg).run (Kernel.init smallCfg) chainInputs) := by
    apply Machine.Reaches.run (.start rfl) _
    exact ⟨⟨rfl,nofun⟩,⟨rfl,nofun⟩,⟨rfl,nofun⟩,⟨rfl,nofun⟩,⟨rfl,nofun⟩,⟨rfl,nofun⟩,
      ⟨rfl,nofun⟩,⟨rfl,nofun⟩,⟨rfl,nofun⟩,⟨rfl,nofun⟩,⟨rfl,nofun⟩,⟨rfl,nofun⟩,
      ⟨rfl,nofun⟩,trivial⟩
  refine ⟨?_,?_,?_,no_inversion hrun⟩
  all_goals decide +kernel

end UniProton
