import UniProton.Smp.RunQueue

namespace UniProton

open Framework Smp Function List Links

namespace RunQue

variable {c : RqCfg} {q : RunQue} {prio : Nat}

lemma raise_eq : q.raise prio false={q with
      currntPrio := min q.currntPrio prio
      needReschedule := q.needReschedule || decide (prio<q.currntPrio)} := by
  unfold raise
  by_cases h : prio<q.currntPrio
  . rw [if_pos h,min_eq_right h.le]
    simp [h]
  rw [if_neg h,min_eq_left (by omega)]
  simp [h]

lemma enter_needReschedule :
    (q.enter prio).needReschedule=(q.needReschedule || decide (prio<q.currntPrio)) := by
  simp [enter,raise_eq,osIncNrRunning,setBit]

lemma enter_currntPrio : (q.enter prio).currntPrio=min q.currntPrio prio := by
  simp [enter,raise_eq,osIncNrRunning,setBit]

lemma enter_nrRunning : (q.enter prio).nrRunning=q.nrRunning+1 := by
  simp [enter,raise_eq,osIncNrRunning,setBit]

lemma enter_bits : (q.enter prio).readyPrioBit=bitSet q.readyPrioBit prio := by
  simp [enter,raise_eq,osIncNrRunning,setBit]

lemma enter_tskCurr : (q.enter prio).tskCurr=q.tskCurr := by
  simp [enter,raise_eq,osIncNrRunning,setBit]

lemma lower_eq : q.lower c prio =
    {q with
      currntPrio := if prio≤q.currntPrio then
        osFindHighestPri c q.readyPrioBit ((c.numOfPriorities+31)/32) else q.currntPrio
      needReschedule := q.needReschedule || decide (prio≤q.currntPrio)} := by
  unfold lower
  by_cases h : prio≤q.currntPrio <;> simp [h]

def bitsLeft (q : RunQue) (prio : Nat) (empty : Bool) : Nat → BitVec 32 :=
  if empty then bitClear q.readyPrioBit prio else q.readyPrioBit

variable {empty : Bool}

lemma leave_bits : (q.leave c prio empty).readyPrioBit=q.bitsLeft prio empty := by
  cases empty <;> simp [leave,lower_eq,osDecNrRunning,clearBit,bitsLeft]

lemma leave_nrRunning : (q.leave c prio empty).nrRunning=q.nrRunning-1 := by
  cases empty <;> simp [leave,lower_eq,osDecNrRunning,clearBit]

lemma leave_tskCurr : (q.leave c prio empty).tskCurr=q.tskCurr := by
  cases empty <;> simp [leave,lower_eq,osDecNrRunning,clearBit]

lemma leave_needReschedule : (q.leave c prio empty).needReschedule =
    (q.needReschedule || decide (prio≤q.currntPrio)) := by
  cases empty <;> simp [leave,lower_eq,osDecNrRunning,clearBit]

lemma leave_currntPrio : (q.leave c prio empty).currntPrio = if prio≤q.currntPrio then
      osFindHighestPri c (q.bitsLeft prio empty) ((c.numOfPriorities+31)/32) else q.currntPrio := by
  cases empty <;> simp [leave,lower_eq,osDecNrRunning,clearBit,bitsLeft]

end RunQue

namespace RunQs

variable {c : RqCfg} {s : RunQs} {t core prio : Nat} {l : List Nat}

lemma readyAdd_self : (s.osTskReadyAdd t).tcb t =
    {s.tcb t with toTcb:=(s.tcb t).toTcb.readyAdd} := by
  rw [readyAdd_tcb,update_self]

lemma readyAdd_ne {u : Nat} (h : u≠t) : (s.osTskReadyAdd t).tcb u=s.tcb u := by
  rw [readyAdd_tcb,update_of_ne h]

lemma readyDel_self : (s.osTskReadyDel c t).tcb t =
    {s.tcb t with toTcb:=(s.tcb t).toTcb.readyDel} := by
  rw [readyDel_tcb,update_self]

lemma readyDel_ne {u : Nat} (h : u≠t) : (s.osTskReadyDel c t).tcb u=s.tcb u := by
  rw [readyDel_tcb,update_of_ne h]

namespace Linked

lemma loc_off (h : s.Linked) (ht : (s.tcb t).isOnRq=false) : s.ready.loc t=none := by
  rw [h.loc,ht]
  rfl

lemma loc_on (h : s.Linked) (ht : (s.tcb t).isOnRq=true) :
    s.ready.loc t=some ((s.tcb t).coreID,(s.tcb t).priority) := by
  rw [h.loc,if_pos ht]

lemma readyAdd (h : s.Linked) (t : Nat) : (s.osTskReadyAdd t).Linked where
  loc u := by
    by_cases ht : (s.tcb t).isOnRq=true
    . rw [(readyAdd_on ht).2,h.loc]
      by_cases hu : u=t
      . subst hu
        simp [readyAdd_self,Tcb.readyAdd,ht]
      rw [readyAdd_ne hu]
    rw [Bool.not_eq_true] at ht
    rw [(readyAdd_off ht).2,insert_loc _ _ _ (h.loc_off ht)]
    by_cases hu : u=t
    . subst hu
      simp [readyAdd_self,Tcb.readyAdd]
    rw [update_of_ne hu,readyAdd_ne hu,h.loc]
  ready u := by
    by_cases hu : u=t
    . subst hu
      rw [readyAdd_self]
      change true=((s.tcb u).toTcb.set osTskReady).tst osTskReady
      rw [Tcb.tst_set,show osTskReady &&& osTskReady=osTskReady from rfl]
      simp [osTskReady]
    rw [readyAdd_ne hu,h.ready]

lemma readyDel (h : s.Linked) (t : Nat) : (s.osTskReadyDel c t).Linked where
  loc u := by
    by_cases ht : (s.tcb t).isOnRq=true
    . rw [(readyDel_on ht).2,delete_loc]
      by_cases hu : u=t
      . subst hu
        simp [readyDel_self,Tcb.readyDel]
      rw [update_of_ne hu,readyDel_ne hu,h.loc]
    rw [Bool.not_eq_true] at ht
    rw [(readyDel_off ht).2,h.loc]
    by_cases hu : u=t
    . subst hu
      simp [readyDel_self,Tcb.readyDel,ht]
    rw [readyDel_ne hu]
  ready u := by
    by_cases hu : u=t
    . subst hu
      rw [readyDel_self]
      exact (Tcb.tst_cleared (s.tcb u).toTcb (by decide)).symm
    rw [readyDel_ne hu,h.ready]

lemma same {s' : RunQs} (h : s.Linked) (hready : s'.ready=s.ready)
    (htcb : ∀ u, (s'.tcb u).isOnRq=(s.tcb u).isOnRq ∧
      (s'.tcb u).tst osTskReady=(s.tcb u).tst osTskReady ∧
      (s'.tcb u).coreID=(s.tcb u).coreID ∧ (s'.tcb u).priority=(s.tcb u).priority) : s'.Linked where
  loc u := by
    obtain ⟨hon,-,hcore,hprio⟩ := htcb u
    rw [hready,hon,hcore,hprio]
    exact h.loc u
  ready u := by
    obtain ⟨hon,hst,-,-⟩ := htcb u
    rw [hon,hst]
    exact h.ready u

lemma lists_add (h : s.Linked) (ht : (s.tcb t).isOnRq=false) :
    (s.osTskReadyAdd t).ready.lists=update s.ready.lists ((s.tcb t).coreID,(s.tcb t).priority)
      (s.ready.lists ((s.tcb t).coreID,(s.tcb t).priority) ++ [t]) := by
  rw [(readyAdd_off ht).2,insert_lists _ _ _ (h.loc_off ht),insertAt_length]

lemma lists_del (h : s.Linked) (ht : (s.tcb t).isOnRq=true) :
    (s.osTskReadyDel c t).ready.lists=update s.ready.lists ((s.tcb t).coreID,(s.tcb t).priority)
      ((s.ready.lists ((s.tcb t).coreID,(s.tcb t).priority)).erase t) := by
  rw [(readyDel_on ht).2,delete_lists _ (h.loc_on ht)]

lemma mem_lists (h : s.Linked) (ht : (s.tcb t).isOnRq=true) :
    t∈s.ready.lists ((s.tcb t).coreID,(s.tcb t).priority) :=
  (s.ready.mem_iff _ _).mpr (h.loc_on ht)

lemma modTcb_off (h : s.Linked) (ht : (s.tcb t).isOnRq=false) {f : RqTcb → RqTcb}
    (hf : (f (s.tcb t)).toTcb=(s.tcb t).toTcb) : (s.modTcb t f).Linked where
  loc u := by
    by_cases hu : u=t
    . subst hu
      rw [modTcb_self,hf,ht]
      exact h.loc_off ht
    rw [modTcb_ne _ hu]
    exact h.loc u
  ready u := by
    by_cases hu : u=t
    . subst hu
      rw [modTcb_self,hf]
      exact h.ready u
    rw [modTcb_ne _ hu]
    exact h.ready u

end Linked

lemma linkedOn_update {L : Nat×Nat → List Nat} (hs : s.ready.lists =
      update L (core,prio) l) (hprio : prio<c.numOfPriorities) (k : Nat) :
    s.linkedOn c k+(if k=core then (L (core,prio)).length else 0) =
      (∑ p∈Finset.range c.numOfPriorities, (L (k,p)).length) + if k=core then l.length else 0 := by
  unfold linkedOn
  rw [hs]
  by_cases hk : k=core
  . subst hk
    rw [if_pos rfl,if_pos rfl,← Finset.add_sum_erase _ _ (Finset.mem_range.mpr hprio),
      ← Finset.add_sum_erase _ (fun p => (L (k,p)).length) (Finset.mem_range.mpr hprio)]
    have hsame : ∀ p∈(Finset.range c.numOfPriorities).erase prio,
        (update L (k,prio) l (k,p)).length=(L (k,p)).length := by
      intro p hp
      rw [update_of_ne]
      intro heq
      exact (Finset.mem_erase.mp hp).1 (Prod.mk.inj heq).2
    rw [Finset.sum_congr rfl hsame,update_self]
    omega
  rw [if_neg hk,if_neg hk]
  congr 1
  apply Finset.sum_congr rfl
  intro p _
  rw [update_of_ne]
  intro heq
  exact hk (Prod.mk.inj heq).1

lemma key_ne_of_prio {p : Nat} (h : p≠prio) : (core,p)≠(core,prio) :=
  fun heq => h (Prod.mk.inj heq).2

lemma key_ne_of_core {k : Nat} (h : k≠core) (p prio : Nat) : (k,p)≠(core,prio) :=
  fun heq => h (Prod.mk.inj heq).1

lemma readyAdd_priority (s : RunQs) (t u : Nat) :
    ((s.osTskReadyAdd t).tcb u).priority=(s.tcb u).priority := by
  by_cases hu : u=t
  . subst hu
    rw [readyAdd_self]
  rw [readyAdd_ne hu]

lemma readyDel_priority (s : RunQs) (t u : Nat) :
    ((s.osTskReadyDel c t).tcb u).priority=(s.tcb u).priority := by
  by_cases hu : u=t
  . subst hu
    rw [readyDel_self]
  rw [readyDel_ne hu]

namespace Counted

variable {s' : RunQs}

lemma same (h : s.Counted c) (hprio : ∀ u, (s'.tcb u).priority<c.numOfPriorities)
    (hrq : ∀ core, (s'.rq core).nrRunning=(s.rq core).nrRunning ∧
      (s'.rq core).readyPrioBit=(s.rq core).readyPrioBit)
    (hready : s'.ready=s.ready) : s'.Counted c where
  prio := hprio
  nrRunning core := by
    rw [(hrq core).1,linkedOn,hready]
    exact h.nrRunning core
  bits core p := by
    rw [(hrq core).2,hready]
    exact h.bits core p

lemma change {q : RunQue} (h : s.Counted c)
    (hprio : ∀ u, (s'.tcb u).priority<c.numOfPriorities) (hrq : s'.rq=update s.rq core q)
    (hlists : s'.ready.lists=update s.ready.lists (core,prio) l) (hp : prio<c.numOfPriorities)
    (hnr : q.nrRunning+(s.ready.lists (core,prio)).length=(s.rq core).nrRunning+l.length)
    (hself : bitAt q.readyPrioBit prio=true ↔ l≠[])
    (hbits : ∀ p≠prio, bitAt q.readyPrioBit p=bitAt (s.rq core).readyPrioBit p) :
    s'.Counted c where
  prio := hprio
  nrRunning k := by
    have hsum := linkedOn_update hlists hp k
    have hold := h.nrRunning k
    unfold linkedOn at hold
    rw [hrq]
    by_cases hk : k=core
    . subst hk
      rw [if_pos rfl,if_pos rfl] at hsum
      rw [update_self]
      omega
    rw [if_neg hk,if_neg hk] at hsum
    rw [update_of_ne hk]
    omega
  bits k p := by
    rw [hrq,hlists]
    by_cases hk : k=core
    . subst hk
      rw [update_self]
      by_cases hpp : p=prio
      . subst hpp
        rw [update_self]
        exact hself
      rw [update_of_ne (key_ne_of_prio hpp),hbits p hpp]
      exact h.bits k p
    rw [update_of_ne hk,update_of_ne (key_ne_of_core hk p prio)]
    exact h.bits k p

lemma readyAdd (h : s.Counted c) (hl : s.Linked) (t : Nat) : (s.osTskReadyAdd t).Counted c := by
  have hprio (u : Nat) : ((s.osTskReadyAdd t).tcb u).priority<c.numOfPriorities :=
    readyAdd_priority s t u ▸ h.prio u
  by_cases ht : (s.tcb t).isOnRq=true
  . obtain ⟨hrq,hready⟩ := readyAdd_on ht
    exact h.same hprio (fun core => by rw [hrq]; exact ⟨rfl,rfl⟩) hready
  rw [Bool.not_eq_true] at ht
  apply h.change hprio (readyAdd_off ht).1 (hl.lists_add ht) (h.prio t)
  . rw [RunQue.enter_nrRunning,length_append,length_singleton]
    omega
  . rw [RunQue.enter_bits,bitAt_set _ (by decide)]
    simp
  intro p hp
  rw [RunQue.enter_bits,bitAt_set _ (by decide)]
  simp [Ne.symm hp]

lemma readyDel (h : s.Counted c) (hl : s.Linked) (t : Nat) : (s.osTskReadyDel c t).Counted c := by
  have hprio (u : Nat) : ((s.osTskReadyDel c t).tcb u).priority<c.numOfPriorities :=
    readyDel_priority s t u ▸ h.prio u
  by_cases ht : (s.tcb t).isOnRq=true
  . have hmem := hl.mem_lists ht
    apply h.change hprio (readyDel_on ht).1 (hl.lists_del ht) (h.prio t)
    . have hpos := List.length_pos_of_mem hmem
      have hle : (s.ready.lists ((s.tcb t).coreID,(s.tcb t).priority)).length ≤
          (s.rq (s.tcb t).coreID).nrRunning := by
        rw [h.nrRunning]
        exact Finset.single_le_sum (f:=fun p =>
          (s.ready.lists ((s.tcb t).coreID,p)).length) (fun _ _ => Nat.zero_le _)
          (Finset.mem_range.mpr (h.prio t))
      rw [RunQue.leave_nrRunning,List.length_erase_of_mem hmem]
      omega
    . rw [RunQue.leave_bits,delete_lists_eq,RunQue.bitsLeft]
      split
      . rename_i hempty
        rw [bitAt_clear,List.isEmpty_iff.mp hempty]
        simp
      rename_i hempty
      have hbit := (h.bits (s.tcb t).coreID (s.tcb t).priority).mpr (List.ne_nil_of_mem hmem)
      rw [List.isEmpty_iff] at hempty
      exact ⟨fun _ => hempty,fun _ => hbit⟩
    intro p hp
    rw [RunQue.leave_bits,RunQue.bitsLeft]
    split
    . rw [bitAt_clear]
      simp [Ne.symm hp]
    rfl
  rw [Bool.not_eq_true] at ht
  obtain ⟨hrq,hready⟩ := readyDel_off (c:=c) ht
  exact h.same hprio (fun core => by rw [hrq]; exact ⟨rfl,rfl⟩) hready

end Counted

lemma osFindHighestPri_spec {bits : Nat → BitVec 32} {L : Nat → List Nat}
    (hbits : ∀ p, bitAt bits p=true ↔ L p≠[]) (hrange : ∀ p, L p≠[] → p<c.numOfPriorities) :
    (∀ p<osFindHighestPri c bits ((c.numOfPriorities+31)/32), L p=[]) ∧
    (osFindHighestPri c bits ((c.numOfPriorities+31)/32)=c.numOfPriorities ∨
      osFindHighestPri c bits ((c.numOfPriorities+31)/32)<c.numOfPriorities ∧
        L (osFindHighestPri c bits ((c.numOfPriorities+31)/32))≠[]) := by
  have hempty {p : Nat} (hp : bitAt bits p=false) : L p=[] := by
    by_contra hne
    rw [(hbits p).mpr hne] at hp
    cases hp
  rw [osFindHighestPri_eq]
  cases hfirst : firstBit bits ((c.numOfPriorities+31)/32) with
  | none =>
    refine ⟨fun p hp => hempty (firstBit_none hfirst p ?_),.inl rfl⟩
    simp only [Option.getD_none] at hp
    omega
  | some p =>
    obtain ⟨-,hbit,hlow⟩ := firstBit_some hfirst
    have hne := (hbits p).mp hbit
    exact ⟨fun k hk => hempty (hlow k hk),.inr ⟨hrange p hne,hne⟩⟩

lemma lists_range (hl : s.Linked) (hc : s.Counted c) (h : s.ready.lists (core,prio)≠[]) :
    prio<c.numOfPriorities := by
  obtain ⟨t,ht⟩ := exists_mem_of_ne_nil _ h
  have hloc := (s.ready.mem_iff _ _).mp ht
  rw [hl.loc] at hloc
  split at hloc
  . have hprio := (Prod.mk.inj (Option.some.inj hloc)).2
    exact hprio ▸ hc.prio t
  cases hloc

namespace Current

variable {s' : RunQs}

lemma same (h : s.Current c) (hrq : ∀ core, (s'.rq core).currntPrio=(s.rq core).currntPrio ∧
      (s'.rq core).tskCurr=(s.rq core).tskCurr ∧
      ((s.rq core).needReschedule=true → (s'.rq core).needReschedule=true))
    (hready : s'.ready=s.ready) : s'.Current c where
  least core p hp := by
    rw [hready]
    exact h.least core p ((hrq core).1 ▸ hp)
  attained core := by
    rw [(hrq core).1,hready]
    exact h.attained core
  resched core t ht hne := by
    rw [(hrq core).1,hready] at ht
    rw [(hrq core).2.1] at hne
    exact (hrq core).2.2 (h.resched core t ht hne)

lemma change {q : RunQue} (h : s.Current c) (hrq : s'.rq=update s.rq core q)
    (hlists : s'.ready.lists=update s.ready.lists (core,prio) l)
    (hleast : ∀ p<q.currntPrio, s'.ready.lists (core,p)=[])
    (hattained : q.currntPrio=c.numOfPriorities ∨ q.currntPrio<c.numOfPriorities ∧
      s'.ready.lists (core,q.currntPrio)≠[])
    (hresched : ∀ t, (s'.ready.lists (core,q.currntPrio)).head? = some t → t≠q.tskCurr →
      q.needReschedule=true) : s'.Current c := by
  have hself : s'.rq core=q := by rw [hrq,update_self]
  have hother (k : Nat) (hk : k≠core) : s'.rq k=s.rq k := by
    rw [hrq,update_of_ne hk]
  have hkeep (k : Nat) (hk : k≠core) (p : Nat) : s'.ready.lists (k,p)=s.ready.lists (k,p) := by
    rw [hlists,update_of_ne (key_ne_of_core hk p prio)]
  refine ⟨fun k p hp => ?_,fun k => ?_,fun k u hu hne => ?_⟩
  . by_cases hk : k=core
    . subst hk
      rw [hself] at hp
      exact hleast p hp
    rw [hother k hk] at hp
    rw [hkeep k hk]
    exact h.least k p hp
  . by_cases hk : k=core
    . subst hk
      rw [hself]
      exact hattained
    rw [hother k hk,hkeep k hk]
    exact h.attained k
  by_cases hk : k=core
  . subst hk
    rw [hself] at hu hne ⊢
    exact hresched u hu hne
  rw [hother k hk] at hu hne ⊢
  rw [hkeep k hk] at hu
  exact h.resched k u hu hne

lemma readyAdd (h : s.Current c) (hl : s.Linked) (hc : s.Counted c) (t : Nat) :
    (s.osTskReadyAdd t).Current c := by
  by_cases ht : (s.tcb t).isOnRq=true
  . obtain ⟨hrq,hready⟩ := readyAdd_on ht
    exact h.same (fun core => by rw [hrq]; exact ⟨rfl,rfl,id⟩) hready
  rw [Bool.not_eq_true] at ht
  have hlists := hl.lists_add ht
  have hown : (s.osTskReadyAdd t).ready.lists ((s.tcb t).coreID,(s.tcb t).priority) =
      s.ready.lists ((s.tcb t).coreID,(s.tcb t).priority) ++ [t] := by
    rw [hlists,update_self]
  have hrest (p : Nat) (hp : p≠(s.tcb t).priority) :
      (s.osTskReadyAdd t).ready.lists ((s.tcb t).coreID,p) =
        s.ready.lists ((s.tcb t).coreID,p) := by
    rw [hlists,update_of_ne (key_ne_of_prio hp)]
  have hattained := h.attained (s.tcb t).coreID
  have hprio := hc.prio t
  apply h.change (readyAdd_off ht).1 hlists
  . intro p hp
    rw [RunQue.enter_currntPrio] at hp
    rw [hrest p (by omega)]
    exact h.least _ p (by omega)
  . rw [RunQue.enter_currntPrio]
    refine .inr ⟨by omega,?_⟩
    by_cases hlt : (s.tcb t).priority<(s.rq (s.tcb t).coreID).currntPrio
    . rw [min_eq_right hlt.le,hown]
      simp
    rw [min_eq_left (by omega)]
    by_cases heq : (s.rq (s.tcb t).coreID).currntPrio=(s.tcb t).priority
    . rw [heq,hown]
      simp
    rw [hrest _ heq]
    exact (hattained.resolve_left (by omega)).2
  intro u hu hne
  rw [RunQue.enter_currntPrio] at hu
  rw [RunQue.enter_tskCurr] at hne
  rw [RunQue.enter_needReschedule,Bool.or_eq_true,decide_eq_true_eq]
  by_cases hlt : (s.tcb t).priority<(s.rq (s.tcb t).coreID).currntPrio
  . exact .inr hlt
  -- the head of the first list was there before
  left
  rw [min_eq_left (by omega)] at hu
  have hne' := (hattained.resolve_left (by omega)).2
  apply h.resched _ u _ hne
  by_cases heq : (s.rq (s.tcb t).coreID).currntPrio=(s.tcb t).priority
  . rw [heq] at hu hne' ⊢
    rw [hown,List.head?_append_of_ne_nil _ hne'] at hu
    exact hu
  rw [hrest _ heq] at hu
  exact hu

lemma readyDel (h : s.Current c) (hl : s.Linked) (hc : s.Counted c) (t : Nat) :
    (s.osTskReadyDel c t).Current c := by
  have hc' := hc.readyDel hl t
  have hl' := hl.readyDel (c:=c) t
  by_cases ht : (s.tcb t).isOnRq=true
  . have hlists := hl.lists_del (c:=c) ht
    have hrq := (readyDel_on (c:=c) ht).1
    have hbits (p : Nat) := hc'.bits (s.tcb t).coreID p
    rw [hrq,update_self] at hbits
    simp only [RunQue.leave_bits] at hbits
    have hfind := osFindHighestPri_spec hbits fun p hp => lists_range hl' hc' hp
    have hrest (p : Nat) (hp : p≠(s.tcb t).priority) :
        (s.osTskReadyDel c t).ready.lists ((s.tcb t).coreID,p) =
          s.ready.lists ((s.tcb t).coreID,p) := by
      rw [hlists,update_of_ne (key_ne_of_prio hp)]
    apply h.change hrq hlists
    . rw [RunQue.leave_currntPrio]
      split
      . exact hfind.1
      intro p hp
      rw [hrest p (by omega)]
      exact h.least _ p hp
    . rw [RunQue.leave_currntPrio]
      split
      . exact hfind.2
      rw [hrest _ (by omega)]
      exact h.attained _
    intro u hu hne
    rw [RunQue.leave_currntPrio] at hu
    rw [RunQue.leave_tskCurr] at hne
    rw [RunQue.leave_needReschedule,Bool.or_eq_true,decide_eq_true_eq]
    by_cases hle : (s.tcb t).priority≤(s.rq (s.tcb t).coreID).currntPrio
    . exact .inr hle
    rw [if_neg hle,hrest _ (by omega)] at hu
    exact .inl (h.resched _ u hu hne)
  rw [Bool.not_eq_true] at ht
  obtain ⟨hrq,hready⟩ := readyDel_off (c:=c) ht
  exact h.same (fun core => by rw [hrq]; exact ⟨rfl,rfl,id⟩) hready

end Current

lemma readyDelSync_eq (c : RqCfg) (s : RunQs) (t : Nat) :
    s.osTskReadyDelSync c t=(s.osTskReadyDel c t).modRq (s.tcb t).coreID (·.osRescheduleCurr) ∨
    s.osTskReadyDelSync c t=s.osTskReadyDel c t := by
  have hdel : (s.statusClear t osTskReady).osDeactiveTask c (s.tcb t).coreID t =
      s.osTskReadyDel c t := by
    have hcore : ((s.statusClear t osTskReady).tcb t).coreID=(s.tcb t).coreID := by
      simp [statusClear]
    rw [← hcore]
    rfl
  simp only [osTskReadyDelSync]
  rw [hdel]
  split
  . exact .inl rfl
  exact .inr rfl

lemma statusSet_placed {mask : BitVec 32} (hm : mask &&& osTskReady=0) (u : Nat) :
    ((s.statusSet t mask).tcb u).isOnRq=(s.tcb u).isOnRq ∧
    ((s.statusSet t mask).tcb u).tst osTskReady=(s.tcb u).tst osTskReady ∧
    ((s.statusSet t mask).tcb u).coreID=(s.tcb u).coreID ∧
    ((s.statusSet t mask).tcb u).priority=(s.tcb u).priority := by
  by_cases hu : u=t
  . subst hu
    unfold statusSet
    rw [modTcb_self]
    refine ⟨rfl,?_,rfl,rfl⟩
    rw [Tcb.tst_set,hm]
    simp
  unfold statusSet
  rw [modTcb_ne _ hu]
  exact ⟨rfl,rfl,rfl,rfl⟩

lemma statusClear_placed {mask : BitVec 32} (hm : ~~~ mask &&& osTskReady=osTskReady) (u : Nat) :
    ((s.statusClear t mask).tcb u).isOnRq=(s.tcb u).isOnRq ∧
    ((s.statusClear t mask).tcb u).tst osTskReady=(s.tcb u).tst osTskReady ∧
    ((s.statusClear t mask).tcb u).coreID=(s.tcb u).coreID ∧
    ((s.statusClear t mask).tcb u).priority=(s.tcb u).priority := by
  by_cases hu : u=t
  . subst hu
    unfold statusClear
    rw [modTcb_self]
    exact ⟨rfl,Tcb.tst_clear _ hm,rfl,rfl⟩
  unfold statusClear
  rw [modTcb_ne _ hu]
  exact ⟨rfl,rfl,rfl,rfl⟩

lemma dropCurr_spec (s : RunQs) (core : Nat) : (s.dropCurr core).ready=s.ready ∧
    (s.dropCurr core).rq=update s.rq core {s.rq core with needReschedule:=false} ∧
    ∀ u, ((s.dropCurr core).tcb u).isOnRq=(s.tcb u).isOnRq ∧
      ((s.dropCurr core).tcb u).tst osTskReady=(s.tcb u).tst osTskReady ∧
      ((s.dropCurr core).tcb u).coreID=(s.tcb u).coreID ∧
      ((s.dropCurr core).tcb u).priority=(s.tcb u).priority := by
  simp only [dropCurr]
  split
  . exact ⟨rfl,rfl,fun u => statusClear_placed (by decide) u⟩
  exact ⟨rfl,rfl,fun _ => ⟨rfl,rfl,rfl,rfl⟩⟩

lemma dropCurr_next (s : RunQs) (core : Nat) :
    (s.dropCurr core).osNextReadyRtTaskSingle core=s.osNextReadyRtTaskSingle core := by
  obtain ⟨hready,hrq,-⟩ := dropCurr_spec s core
  unfold osNextReadyRtTaskSingle
  rw [hready,hrq,update_self]

lemma pick_some {s' : RunQs} (h : s.osPickNextTaskRtSingle core=some s') :
    ∃ task, s.osNextReadyRtTaskSingle core=some task ∧ s'.ready=s.ready ∧ s'.rq=update s.rq core
        {s.rq core with needReschedule:=false, tskCurr:=task} ∧
      ∀ u, (s'.tcb u).isOnRq=(s.tcb u).isOnRq ∧ (s'.tcb u).tst osTskReady=(s.tcb u).tst osTskReady ∧
        (s'.tcb u).coreID=(s.tcb u).coreID ∧ (s'.tcb u).priority=(s.tcb u).priority := by
  obtain ⟨task,htask,rfl⟩ := Option.map_eq_some_iff.mp h
  obtain ⟨hready,hrq,htcb⟩ := dropCurr_spec s core
  refine ⟨task,(dropCurr_next s core).symm.trans htask,hready,?_,fun u => ?_⟩
  . change ((s.dropCurr core).modRq core fun q => {q with tskCurr:=task}).rq=_
    unfold modRq
    rw [hrq,update_idem,update_self]
  have hrun : osTskRunning &&& osTskReady=0 := by decide
  obtain ⟨hon,hst,hcore,hprio⟩ := statusSet_placed (t:=task)
    (s:=(s.dropCurr core).modRq core fun q => {q with tskCurr:=task}) hrun u
  obtain ⟨hon',hst',hcore',hprio'⟩ := htcb u
  exact ⟨hon.trans hon',hst.trans hst',hcore.trans hcore',hprio.trans hprio'⟩

/-- The invariant of the run queues. -/
structure Queued (c : RqCfg) (s : RunQs) : Prop extends s.Linked, s.Counted c, s.Current c

namespace Queued

lemma readyAdd (h : s.Queued c) (t : Nat) : (s.osTskReadyAdd t).Queued c :=
  ⟨h.toLinked.readyAdd t,h.toCounted.readyAdd h.toLinked t,
    h.toCurrent.readyAdd h.toLinked h.toCounted t⟩

lemma readyDel (h : s.Queued c) (t : Nat) : (s.osTskReadyDel c t).Queued c :=
  ⟨h.toLinked.readyDel t,h.toCounted.readyDel h.toLinked t,
    h.toCurrent.readyDel h.toLinked h.toCounted t⟩

lemma rescheduleCurr (h : s.Queued c) (core : Nat) :
    (s.modRq core (·.osRescheduleCurr)).Queued c := by
  have hrq (k : Nat) : (s.modRq core (·.osRescheduleCurr)).rq k =
      if k=core then (s.rq k).osRescheduleCurr else s.rq k := by
    by_cases hk : k=core
    . subst hk
      simp
    simp [hk]
  refine ⟨h.toLinked.same rfl fun _ => ⟨rfl,rfl,rfl,rfl⟩,
    h.toCounted.same h.prio (fun k => ?_) rfl,h.toCurrent.same (fun k => ?_) rfl⟩
  . rw [hrq]
    split <;> exact ⟨rfl,rfl⟩
  rw [hrq]
  split
  . exact ⟨rfl,rfl,fun _ => rfl⟩
  exact ⟨rfl,rfl,id⟩

lemma readyDelSync (h : s.Queued c) (t : Nat) : (s.osTskReadyDelSync c t).Queued c := by
  rcases readyDelSync_eq c s t with heq | heq
  . rw [heq]
    exact (h.readyDel t).rescheduleCurr _
  rw [heq]
  exact h.readyDel t

lemma setPriority (h : s.Queued c) (ht : (s.tcb t).isOnRq=false) (hp : prio<c.numOfPriorities) :
    (s.modTcb t fun b => {b with priority:=prio}).Queued c := by
  refine ⟨h.toLinked.modTcb_off ht rfl,h.toCounted.same (fun u => ?_) (fun _ => ⟨rfl,rfl⟩) rfl,
    h.toCurrent.same (fun _ => ⟨rfl,rfl,id⟩) rfl⟩
  by_cases hu : u=t
  . subst hu
    simpa using hp
  rw [modTcb_ne _ hu]
  exact h.prio u

lemma changePriority (h : s.Queued c) (t : Nat) (hp : prio<c.numOfPriorities) :
    (s.changePriority c t prio).Queued c := by
  unfold RunQs.changePriority
  split
  . have hoff : ((s.osTskReadyDel c t).tcb t).isOnRq=false := by
      rw [readyDel_self]
      rfl
    exact ((h.readyDel t).setPriority hoff hp).readyAdd t
  rename_i hready
  have hoff : (s.tcb t).isOnRq=false := by
    rw [h.ready]
    simpa using hready
  exact h.setPriority hoff hp

lemma pick {s' : RunQs} (h : s.Queued c) (hpick : s.osPickNextTaskRtSingle core=some s') :
    s'.Queued c := by
  obtain ⟨task,hhead,hready,hrq,htcb⟩ := pick_some hpick
  refine ⟨h.toLinked.same hready htcb,h.toCounted.same (fun u => ?_) (fun k => ?_) hready,?_⟩
  . rw [(htcb u).2.2.2]
    exact h.prio u
  . rw [hrq]
    by_cases hk : k=core
    . subst hk
      rw [update_self]
      exact ⟨rfl,rfl⟩
    rw [update_of_ne hk]
    exact ⟨rfl,rfl⟩
  have hlists : s'.ready.lists=update s.ready.lists (core,0) (s.ready.lists (core,0)) := by
    rw [hready,update_eq_self]
  apply h.toCurrent.change hrq hlists
  . rw [hready]
    exact h.least core
  . rw [hready]
    exact h.attained core
  intro u hu hne
  rw [hready] at hu
  exact absurd (Option.some.inj (hu.symm.trans hhead)) hne

lemma pick_isSome (h : s.Queued c) (ht : (s.tcb t).isOnRq=true)
    (hcore : (s.tcb t).coreID=core) : (s.osPickNextTaskRtSingle core).isSome=true := by
  have hmem := h.toLinked.mem_lists ht
  rw [hcore] at hmem
  have hne : s.ready.lists (core,(s.rq core).currntPrio)≠[] := by
    rcases h.attained core with htop | ⟨_,hne⟩
    . have hlt : (s.tcb t).priority<(s.rq core).currntPrio := htop ▸ h.prio t
      rw [h.least core _ hlt] at hmem
      cases hmem
    exact hne
  unfold osPickNextTaskRtSingle
  simp only [Option.isSome_map,dropCurr_next]
  unfold osNextReadyRtTaskSingle
  simpa using hne

end Queued

def machine (c : RqCfg) : Machine RunQs Op where
  start s := ∃ tcb : Nat → RqTcb, s=init c tcb ∧ ∀ t, (tcb t).isOnRq=false ∧
    (tcb t).tst osTskReady=false ∧ (tcb t).priority<c.numOfPriorities
  step s i := (s.exec c i).getD s

lemma queued_init {tcb : Nat → RqTcb} (h : ∀ t, (tcb t).isOnRq=false ∧
      (tcb t).tst osTskReady=false ∧ (tcb t).priority<c.numOfPriorities) :
    (init c tcb).Queued c where
  loc t := by simp [init,empty,(h t).1]
  ready t := (h t).1.trans (h t).2.1.symm
  prio t := (h t).2.2
  nrRunning core := by simp [init,empty,linkedOn]
  bits core p := by simp [init,empty,bitAt]
  least core p _ := by simp [init,empty]
  attained core := .inl rfl
  resched core t ht := by simp [init,empty] at ht

lemma Queued.exec {s' : RunQs} {i : Op} (h : s.Queued c) (hi : s.exec c i=some s') :
    s'.Queued c := by
  cases i with
  | readyAdd t =>
    cases hi
    exact h.readyAdd t
  | readyDel t =>
    cases hi
    exact h.readyDel t
  | readyDelSync t =>
    cases hi
    exact h.readyDelSync t
  | changePriority t prio =>
    simp only [RunQs.exec] at hi
    split at hi
    . rename_i hp
      cases hi
      exact h.changePriority t hp
    cases hi
    exact h
  | pick core => exact h.pick hi

/-- In every run flags, lists, counter, bitmap and `currntPrio` of every core agree, and a pick
finds a task while one of the core is ready. -/
theorem run_queues_agree {c : RqCfg} {s : RunQs}
    (hr : (machine c).Reaches (fun s i => (s.exec c i).isSome=true) s) :
    s.Queued c ∧ ∀ core t, (s.tcb t).isOnRq=true → (s.tcb t).coreID=core →
      (s.osPickNextTaskRtSingle core).isSome=true := by
  have hq : s.Queued c := by
    refine hr.invariant (P:=fun s => s.Queued c) ?_ ?_
    . rintro s ⟨tcb,rfl,htcb⟩
      exact queued_init htcb
    intro s i h hi
    obtain ⟨s',hs'⟩ := Option.isSome_iff_exists.mp hi
    change ((s.exec c i).getD s).Queued c
    rw [hs']
    exact h.exec hs'
  exact ⟨hq,fun core t ht hcore => hq.pick_isSome ht hcore⟩

def idleAndOne : RunQs := init ⟨4,2,32⟩ fun t => ⟨{},if t=0 then 5 else 31,0,3,2⟩

def idleAndOneOps : List Op :=
  [.readyAdd 4,.pick 0,.readyAdd 0,.pick 0,.changePriority 0 7,.readyDelSync 0]

theorem run_queues_agree_idle :
    let s := (machine ⟨4,2,32⟩).run idleAndOne idleAndOneOps
    s.Queued ⟨4,2,32⟩ ∧ (s.rq 0).nrRunning=1 ∧ (s.rq 0).currntPrio=31 ∧
      (s.osPickNextTaskRtSingle 0).isSome=true := by
  have hstart : (machine ⟨4,2,32⟩).start idleAndOne := by
    have hnew : Tcb.tst {} osTskReady=false := by decide
    refine ⟨_,rfl,fun t => ⟨rfl,hnew,?_⟩⟩
    split <;> decide
  have hr : (machine ⟨4,2,32⟩).Reaches (fun s i => (s.exec ⟨4,2,32⟩ i).isSome=true)
      ((machine ⟨4,2,32⟩).run idleAndOne idleAndOneOps) :=
    Machine.Reaches.run (.start hstart) _
      ⟨by decide +kernel,by decide +kernel,by decide +kernel,by decide +kernel,
        by decide +kernel,by decide +kernel,trivial⟩
  obtain ⟨hq,hpick⟩ := run_queues_agree hr
  exact ⟨hq,by decide +kernel,by decide +kernel,hpick 0 4 (by decide +kernel) (by decide +kernel)⟩

end RunQs

end UniProton
