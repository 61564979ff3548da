import UniProton.Irq.Combine

namespace UniProton.Irq

open Framework Function List

namespace Hwi

def listFrom (k : Hwi) : Nat → Nat → Option (List Nat)
  | 0, a => if a=0 then some [] else none
  | fuel+1, a => if a=0 then some [] else (listFrom k fuel (k.next a)).map (a :: ·)

def freeList (k : Hwi) : Option (List Nat) := k.listFrom k.nodes.length k.freeHead

def chainOf (k : Hwi) (irqNum : Nat) : Option (List Nat) :=
  if (k.form irqNum).hook=.combineDispatch then
    k.listFrom k.nodes.length (k.form irqNum).param
  else some []

def callOf (r : Nat×Nat) : HwiFunc×Nat := (.user r.1,r.2)

/-- Each node is free or in the chain of one interrupt, and the chains hold what was registered. -/
structure Lists (k : Hwi) (free : List Nat) (chain : Nat → List Nat) : Prop where
  freed : Spans k.next k.freeHead free 0
  chained : ∀ n, (k.form n).hook=.combineDispatch →
    chain n≠[] ∧ Spans k.next (k.form n).param (chain n) 0
  bare : ∀ n, (k.form n).hook≠.combineDispatch → chain n=[]
  freeOnce : free.Nodup
  once : ∀ n, (chain n).Nodup
  apart : ∀ n n' a, a∈chain n → a∈chain n' → n=n'
  freeApart : ∀ n a, a∈chain n → a∉free
  all : ∀ a, a∈k.nodes ↔ a∈free ∨ ∃ n, a∈chain n
  null : 0∉k.nodes
  calls : ∀ n, (chain n).map (fun a => (k.cmbHook a,k.cmbParam a))=(k.regs n).map callOf
  handlers : ∀ n, ((k.regs n).map Prod.fst).Nodup
  unset : ∀ n, k.mode n=.unset → (k.form n).hook=.default
  combine : ∀ n, k.mode n=.combine →
    (k.form n).hook=.default ∨ (k.form n).hook=.combineDispatch

variable {k k' : Hwi} {free l : List Nat} {chain : Nat → List Nat} {a x n irq handler arg : Nat}

section walks

lemma listFrom_eq (h : Spans k.next a l 0) (h0 : 0∉l) (hl : l.length≤n) :
    k.listFrom n a=some l := by
  induction l generalizing a n with
  | nil =>
    have ha : a=0 := h
    subst ha
    cases n <;> rfl
  | cons x l ih =>
    obtain ⟨rfl,hs⟩ := h
    rw [mem_cons,not_or] at h0
    obtain ⟨n,rfl⟩ : ∃ m, n=m+1 := ⟨n-1,by simp at hl; omega⟩
    rw [listFrom,if_neg (Ne.symm h0.1),ih hs h0.2 (by simpa using hl)]
    rfl

lemma dispatchScan_eq (h : Spans k.next a l 0) (h0 : 0∉l) (hl : l.length≤n) :
    k.dispatchScan n a=some (l.map fun x => (k.cmbHook x,k.cmbParam x)) := by
  induction l generalizing a n with
  | nil =>
    have ha : a=0 := h
    subst ha
    cases n <;> rfl
  | cons x l ih =>
    obtain ⟨rfl,hs⟩ := h
    rw [mem_cons,not_or] at h0
    obtain ⟨n,rfl⟩ : ∃ m, n=m+1 := ⟨n-1,by simp at hl; omega⟩
    rw [dispatchScan,if_neg (Ne.symm h0.1),ih hs h0.2 (by simpa using hl)]
    rfl

lemma spans_nil_iff (h : Spans k.next a l 0) (h0 : 0∉l) : a=0 ↔ l=[] := by
  cases l with
  | nil => exact ⟨fun _ => rfl,fun _ => h⟩
  | cons x l =>
    obtain ⟨rfl,-⟩ := h
    refine ⟨fun ha => ?_,nofun⟩
    subst ha
    exact absurd mem_cons_self h0

lemma allocScan_eq {o : Nat} (f : HwiFunc) (h : Spans k.next a (l++[o]) 0)
    (h0 : 0∉l++[o]) (hl : (l++[o]).length≤n) : k.allocScan f n a =
      some (if f∈(l++[o]).map k.cmbHook then .duplicate else .last o) := by
  induction l generalizing a n with
  | nil =>
    obtain ⟨rfl,hz⟩ := h
    have hz' : k.next a=0 := hz
    obtain ⟨n,rfl⟩ : ∃ m, n=m+1 := ⟨n-1,by simp at hl; omega⟩
    have ha : a≠0 := by simpa [eq_comm] using h0
    simp only [allocScan,if_neg ha,hz',if_true,nil_append,map_cons,map_nil,mem_singleton]
    split <;> rfl
  | cons x l ih =>
    obtain ⟨rfl,hs⟩ := h
    rw [List.cons_append,mem_cons,not_or] at h0
    obtain ⟨n,rfl⟩ : ∃ m, n=m+1 := ⟨n-1,by simp at hl; omega⟩
    have hne : k.next a≠0 := fun hz => by
      have hnil := (spans_nil_iff hs h0.2).mp hz
      simp at hnil
    rw [allocScan,if_neg (Ne.symm h0.1),if_neg hne,ih hs h0.2 (by simpa using hl)]
    by_cases hf : f=k.cmbHook a
    . simp [hf]
    simp [hf]

lemma freeLast_eq {o : Nat} (h : Spans k.next a (l++[o]) 0) (h0 : 0∉l++[o])
    (hl : (l++[o]).length≤n) : k.freeLast n a=some o := by
  induction l generalizing a n with
  | nil =>
    obtain ⟨rfl,hz⟩ := h
    have hz' : k.next a=0 := hz
    cases n <;> simp [freeLast,hz']
  | cons x l ih =>
    obtain ⟨rfl,hs⟩ := h
    rw [List.cons_append,mem_cons,not_or] at h0
    obtain ⟨n,rfl⟩ : ∃ m, n=m+1 := ⟨n-1,by simp at hl; omega⟩
    have hne : k.next a≠0 := fun hz => by
      have hnil := (spans_nil_iff hs h0.2).mp hz
      simp at hnil
    rw [freeLast,if_neg hne]
    exact ih hs h0.2 (by simpa using hl)

end walks

/-- The part of the invariant that is about one interrupt. -/
structure Slot (k : Hwi) (n : Nat) (l : List Nat) : Prop where
  chained : (k.form n).hook=.combineDispatch → l≠[] ∧ Spans k.next (k.form n).param l 0
  bare : (k.form n).hook≠.combineDispatch → l=[]
  once : l.Nodup
  calls : l.map (fun a => (k.cmbHook a,k.cmbParam a))=(k.regs n).map callOf
  handlers : ((k.regs n).map Prod.fst).Nodup
  unset : k.mode n=.unset → (k.form n).hook=.default
  combine : k.mode n=.combine →
    (k.form n).hook=.default ∨ (k.form n).hook=.combineDispatch

lemma Slot.congr (h : k.Slot n l)
    (hn : (k'.form n,k'.mode n,k'.regs n)=(k.form n,k.mode n,k.regs n))
    (hl : ∀ a∈l, (k'.next a,k'.cmbHook a,k'.cmbParam a)=(k.next a,k.cmbHook a,k.cmbParam a)) :
    k'.Slot n l := by
  simp only [Prod.mk.injEq] at hn hl
  obtain ⟨hform,hmode,hregs⟩ := hn
  refine ⟨fun hc => ?_,?_,h.once,?_,?_,?_,?_⟩
  . rw [hform] at hc ⊢
    obtain ⟨hne,hs⟩ := h.chained hc
    exact ⟨hne,hs.congr fun a ha => (hl a ha).1⟩
  . rw [hform]
    exact h.bare
  . rw [hregs,← h.calls]
    apply map_congr_left
    intro a ha
    rw [(hl a ha).2.1,(hl a ha).2.2]
  . rw [hregs]
    exact h.handlers
  . rw [hmode,hform]
    exact h.unset
  rw [hmode,hform]
  exact h.combine

namespace Lists

lemma slot (h : k.Lists free chain) (n : Nat) : k.Slot n (chain n) :=
  ⟨h.chained n,h.bare n,h.once n,h.calls n,h.handlers n,h.unset n,h.combine n⟩

lemma of_slots (hs : ∀ n, k.Slot n (chain n)) (hfreed : Spans k.next k.freeHead free 0)
    (honce : free.Nodup) (hapart : ∀ n n' a, a∈chain n → a∈chain n' → n=n')
    (hfree : ∀ n a, a∈chain n → a∉free) (hall : ∀ a, a∈k.nodes ↔ a∈free ∨ ∃ n, a∈chain n)
    (hnull : 0∉k.nodes) : k.Lists free chain :=
  ⟨hfreed,fun n => (hs n).chained,fun n => (hs n).bare,honce,fun n => (hs n).once,hapart,hfree,hall,
    hnull,fun n => (hs n).calls,fun n => (hs n).handlers,fun n => (hs n).unset,
    fun n => (hs n).combine⟩

lemma with_slots (h : k.Lists free chain) (hs : ∀ n, k'.Slot n (chain n))
    (hk : (k'.next,k'.freeHead,k'.nodes)=(k.next,k.freeHead,k.nodes)) : k'.Lists free chain := by
  simp only [Prod.mk.injEq] at hk
  obtain ⟨hnext,hhead,hnodes⟩ := hk
  refine of_slots hs ?_ h.freeOnce h.apart h.freeApart (hnodes ▸ h.all) (hnodes ▸ h.null)
  rw [hnext,hhead]
  exact h.freed

lemma free_sub (h : k.Lists free chain) : ∀ a∈free, a∈k.nodes := fun a ha => (h.all a).mpr (.inl ha)

lemma chain_sub (h : k.Lists free chain) (n : Nat) : ∀ a∈chain n, a∈k.nodes :=
  fun a ha => (h.all a).mpr (.inr ⟨n,ha⟩)

lemma fits (hnd : l.Nodup) (hsub : ∀ a∈l, a∈k.nodes) : l.length≤k.nodes.length :=
  (subperm_of_subset hnd hsub).length_le

lemma freeList_eq (h : k.Lists free chain) : k.freeList=some free :=
  listFrom_eq h.freed (fun h0 => h.null (h.free_sub 0 h0)) (fits h.freeOnce h.free_sub)

lemma chain_null (h : k.Lists free chain) (n : Nat) : 0∉chain n :=
  fun h0 => h.null (h.chain_sub n 0 h0)

lemma chain_fits (h : k.Lists free chain) (n : Nat) : (chain n).length≤k.nodes.length :=
  fits (h.once n) (h.chain_sub n)

lemma chainOf_eq (h : k.Lists free chain) (n : Nat) : k.chainOf n=some (chain n) := by
  unfold chainOf
  split
  . next hc => exact listFrom_eq (h.chained n hc).2 (h.chain_null n) (h.chain_fits n)
  next hc => rw [h.bare n hc]

lemma dispatch_eq (h : k.Lists free chain) (hc : (k.form n).hook=.combineDispatch) :
    k.dispatch n=some ((k.regs n).map callOf) := by
  unfold dispatch
  rw [if_pos hc,← h.calls n]
  exact dispatchScan_eq (h.chained n hc).2 (h.chain_null n) (h.chain_fits n)

lemma setMode (h : k.Lists free chain) {mode : HwiMode}
    (hu : mode=.unset → (k.form n).hook=.default)
    (hc : mode=.combine → (k.form n).hook=.default ∨ (k.form n).hook=.combineDispatch) :
    Lists {k with mode:=update k.mode n mode} free chain := by
  refine h.with_slots (fun n' => ?_) rfl
  by_cases he : n'=n
  . subst he
    refine {h.slot n' with unset:=fun hm => hu ?_, combine:=fun hm => hc ?_}
    all_goals
      simp only [update_self] at hm
      exact hm
  exact (h.slot n').congr (by simp [he]) fun _ _ => rfl

lemma setForm (h : k.Lists free chain) (hd : (k.form n).hook≠.combineDispatch)
    {f : HwiFunc} {p : Nat} (hf : f≠.combineDispatch)
    (hu : k.mode n=.unset → f=.default) (hc : k.mode n=.combine → f=.default) :
    (k.setForm n f p).Lists free chain := by
  refine h.with_slots (fun n' => ?_) rfl
  by_cases he : n'=n
  . subst he
    have hself : ((k.setForm n' f p).form n').hook=f := by simp only [Hwi.setForm,update_self]
    refine {h.slot n' with chained := ?_, bare := ?_, unset := ?_, combine := ?_} <;> rw [hself]
    . exact fun hn => absurd hn hf
    . exact fun _ => h.bare n' hd
    . exact hu
    exact fun hm => .inl (hc hm)
  exact (h.slot n').congr (by simp [Hwi.setForm,he]) fun _ _ => rfl

end Lists

section extension

variable {array : Nat}

lemma arrayInit_next (array m : Nat) (k : Hwi) (y : Nat) : (arrayInit array m k).next y =
    if array≤y ∧ y<array+m then y+1 else k.next y := by
  induction m with
  | zero => rw [arrayInit,if_neg (by omega)]
  | succ m ih =>
    simp only [arrayInit]
    by_cases hy : y=array+m
    . subst hy
      rw [update_self,if_pos (by omega)]
    rw [update_of_ne hy,ih]
    by_cases hin : array≤y ∧ y<array+m
    . rw [if_pos hin,if_pos (by omega)]
    rw [if_neg hin,if_neg (by omega)]

lemma arrayInit_cmbHook (array m : Nat) (k : Hwi) {y : Nat} (hy : y<array ∨ array+m≤y) :
    (arrayInit array m k).cmbHook y=k.cmbHook y := by
  induction m with
  | zero => rfl
  | succ m ih =>
    simp only [arrayInit]
    rw [update_of_ne (by omega),ih (by omega)]

lemma arrayInit_rest (array m : Nat) (k : Hwi) :
    (arrayInit array m k).form=k.form ∧ (arrayInit array m k).mode=k.mode ∧
      (arrayInit array m k).cmbParam=k.cmbParam ∧ (arrayInit array m k).nodes=k.nodes ∧
      (arrayInit array m k).regs=k.regs := by
  induction m with
  | zero => exact ⟨rfl,rfl,rfl,rfl,rfl⟩
  | succ m ih => exact ih

lemma spans_array {next : Nat → Nat} {m : Nat} (hstep : ∀ i < m, next (array+i)=array+i+1)
    (hlast : next (array+m)=0) : Spans next array (List.range' array (m+1)) 0 := by
  induction m generalizing array with
  | zero => exact ⟨rfl,hlast⟩
  | succ m ih =>
    refine ⟨rfl,?_⟩
    have h0 := hstep 0 (by omega)
    rw [Nat.add_zero] at h0
    rw [h0]
    apply ih
    . intro i hi
      have hi' := hstep (i+1) (by omega)
      rw [show array+(i+1)=array+1+i by omega] at hi'
      exact hi'
    rw [show array+1+m=array+(m+1) by omega]
    exact hlast

/-- The memory that `OsMemAlloc` gives is no node yet. -/
def FreshArray (k : Hwi) (array : Nat) : Prop :=
  array≠0 ∧ ∀ a∈List.range' array osHwiMaxCombineNode, a∉k.nodes

lemma Lists.extend (h : k.Lists [] chain) (hf : k.FreshArray array) :
    (k.extend array).Lists (List.range' array osHwiMaxCombineNode) chain := by
  obtain ⟨h0,hnew⟩ := hf
  obtain ⟨hform,hmode,hparam,hnodes,hregs⟩ := arrayInit_rest array (osHwiMaxCombineNode-1) k
  have hout {n y : Nat} (hy : y∈chain n) : y<array ∨ array+8≤y := by
    by_contra hin
    exact hnew y (mem_range'_1.mpr (by simp only [osHwiMaxCombineNode]; omega)) (h.chain_sub n y hy)
  have hnext (y : Nat) : (k.extend array).next y =
      if y=array+7 then 0 else if array≤y ∧ y<array+7 then y+1 else k.next y := by
    simp only [Hwi.extend,osHwiMaxCombineNode]
    by_cases hy : y=array+7
    . subst hy
      rw [if_pos rfl]
      exact update_self _ _ _
    rw [if_neg hy,update_of_ne hy]
    exact arrayInit_next array 7 k y
  have hhook {n y : Nat} (hy : y∈chain n) : (k.extend array).cmbHook y=k.cmbHook y := by
    have hlt := hout hy
    simp only [Hwi.extend,osHwiMaxCombineNode]
    rw [update_of_ne (by omega)]
    exact arrayInit_cmbHook array 7 k (by omega)
  have hsame {n y : Nat} (hy : y∈chain n) : (k.extend array).next y=k.next y := by
    have hlt := hout hy
    rw [hnext,if_neg (by omega),if_neg (by omega)]
  have hnodes' : (k.extend array).nodes=k.nodes++List.range' array osHwiMaxCombineNode := by
    simp only [Hwi.extend,hnodes]
  refine .of_slots (fun n => (h.slot n).congr ?_ fun a ha => ?_) ?_ nodup_range' h.apart
    (fun n a ha hm => hnew a hm (h.chain_sub n a ha)) (fun a => ?_) fun hm => ?_
  . exact Prod.ext (congrFun hform n) (Prod.ext (congrFun hmode n) (congrFun hregs n))
  . rw [hsame ha,hhook ha,show (k.extend array).cmbParam=k.cmbParam from hparam]
  . change Spans _ array (List.range' array (7+1)) 0
    apply spans_array
    . intro i hi
      rw [hnext,if_neg (by omega),if_pos (by omega)]
    rw [hnext,if_pos rfl]
  . rw [hnodes',mem_append,h.all a]
    simp only [not_mem_nil,false_or]
    exact or_comm
  rw [hnodes',mem_append] at hm
  rcases hm with hm | hm
  . exact h.null hm
  exact h0 (Nat.le_zero.mp (mem_range'_1.mp hm).1)

end extension

lemma mem_append_at : a∈update chain irq (chain irq ++ [x]) n ↔ a∈chain n ∨ (n=irq ∧ a=x) := by
  by_cases he : n=irq
  . subst he
    simp
  simp [he]

lemma Lists.enter (h : k.Lists (x::free) chain) {p : Nat} (hmode : k.mode irq=.combine)
    (hnew : handler∉(k.regs irq).map Prod.fst)
    (hform : k'.form=update k.form irq ⟨.combineDispatch,p⟩)
    (hspan : Spans k'.next p (chain irq ++ [x]) 0)
    (hnext : ∀ a, a≠x → a∉chain irq → k'.next a=k.next a)
    (hhook : k'.cmbHook=update k.cmbHook x (.user handler))
    (hparam : k'.cmbParam=update k.cmbParam x arg)
    (hregs : k'.regs=update k.regs irq (k.regs irq ++ [(handler,arg)]))
    (hhead : k'.freeHead=k.next x) (hmodes : k'.mode=k.mode) (hnodes : k'.nodes=k.nodes) :
    k'.Lists free (update chain irq (chain irq ++ [x])) := by
  obtain ⟨hx,hfree⟩ := nodup_cons.mp h.freeOnce
  have hxc (n : Nat) : x∉chain n := fun hm => h.freeApart n x hm mem_cons_self
  have hself : k'.form irq=⟨.combineDispatch,p⟩ := by
    rw [hform,update_self]
  have hold {n a : Nat} (ha : a∈chain n) : k'.cmbHook a=k.cmbHook a ∧
      k'.cmbParam a=k.cmbParam a := by
    have hax : a≠x := by
      rintro rfl
      exact hxc n ha
    rw [hhook,hparam,update_of_ne hax,update_of_ne hax]
    exact ⟨rfl,rfl⟩
  refine .of_slots (fun n => ?_) ?_ hfree (fun n n' a ha ha' => ?_) (fun n a ha hm => ?_)
    (fun a => ?_) (hnodes.symm ▸ h.null)
  . by_cases he : n=irq
    . subst he
      rw [update_self]
      refine ⟨fun _ => ⟨by simp,?_⟩,fun hc => ?_,?_,?_,?_,fun hm => ?_,fun _ => .inr ?_⟩
      . rw [hself]
        exact hspan
      . rw [hself] at hc
        exact absurd rfl hc
      . rw [nodup_append_comm,singleton_append,nodup_cons]
        exact ⟨hxc n,h.once n⟩
      . rw [hregs,update_self,map_append,map_append,← h.calls n]
        congr 1
        . apply map_congr_left
          intro a ha
          rw [(hold ha).1,(hold ha).2]
        simp [hhook,hparam,callOf]
      . rw [hregs,update_self,map_append,nodup_append_comm]
        exact nodup_cons.mpr ⟨hnew,h.handlers n⟩
      . rw [hmodes,hmode] at hm
        cases hm
      rw [hself]
    rw [update_of_ne he]
    refine (h.slot n).congr ?_ fun a ha => ?_
    . rw [hform,hmodes,hregs,update_of_ne he,update_of_ne he]
    rw [(hold ha).1,(hold ha).2,hnext a]
    . rintro rfl
      exact hxc n ha
    exact fun hm => he (h.apart n irq a ha hm)
  . rw [hhead]
    refine Spans.congr h.freed.2 fun a ha => ?_
    apply hnext
    . rintro rfl
      exact hx ha
    exact fun hm => h.freeApart irq a hm (mem_cons_of_mem x ha)
  . rcases mem_append_at.mp ha with hm | ⟨rfl,rfl⟩
    . rcases mem_append_at.mp ha' with hm' | ⟨-,rfl⟩
      . exact h.apart n n' a hm hm'
      exact absurd hm (hxc n)
    rcases mem_append_at.mp ha' with hm' | ⟨rfl,-⟩
    . exact absurd hm' (hxc n')
    rfl
  . rcases mem_append_at.mp ha with hn | ⟨-,rfl⟩
    . exact h.freeApart n a hn (mem_cons_of_mem x hm)
    exact hx hm
  simp only [hnodes,h.all a,mem_cons,mem_append_at]
  constructor
  . rintro ((rfl | hm) | ⟨n,hm⟩)
    . exact .inr ⟨irq,.inr ⟨rfl,rfl⟩⟩
    . exact .inl hm
    exact .inr ⟨n,.inl hm⟩
  rintro (hm | ⟨n,hm | ⟨-,rfl⟩⟩)
  . exact .inl (.inr hm)
  . exact .inr ⟨n,hm⟩
  exact .inl (.inl rfl)

lemma Lists.regs_of_bare (h : k.Lists free chain) (hc : (k.form n).hook≠.combineDispatch) :
    k.regs n=[] := by
  have hcalls := h.calls n
  rw [h.bare n hc] at hcalls
  exact map_eq_nil_iff.mp hcalls.symm

lemma Lists.handler_mem (h : k.Lists free chain) (n handler : Nat) :
    .user handler∈(chain n).map k.cmbHook ↔ handler∈(k.regs n).map Prod.fst := by
  have hcalls := congrArg (List.map Prod.fst) (h.calls n)
  rw [map_map,map_map] at hcalls
  change (chain n).map k.cmbHook=(k.regs n).map (fun r => .user r.1) at hcalls
  rw [hcalls]
  simp

lemma Lists.combineTake (h : k.Lists (x::free) chain) (hmode : k.mode irq=.combine)
    (handler arg : Nat) : (handler∈(k.regs irq).map Prod.fst ∧
      k.combineTake irq handler arg=some (k,.combinehookAlreadyCreated)) ∨
    (handler∉(k.regs irq).map Prod.fst ∧ ∃ k', k.combineTake irq handler arg=some (k',.ok) ∧
      k'.Lists free (update chain irq (chain irq ++ [x])) ∧
      k'.regs=update k.regs irq (k.regs irq ++ [(handler,arg)])) := by
  have hx : k.freeHead=x := h.freed.1
  have hxc : x∉chain irq := fun hm => h.freeApart irq x hm mem_cons_self
  unfold Hwi.combineTake
  rcases h.combine irq hmode with hd | hd
  . have hnew : handler∉(k.regs irq).map Prod.fst := by
      rw [h.regs_of_bare (by rw [hd]; nofun)]
      nofun
    rw [if_pos hd]
    refine .inr ⟨hnew,_,rfl,?_,rfl⟩
    refine h.enter hmode hnew rfl ?_ (fun a ha _ => ?_) (by rw [← hx]; rfl) (by rw [← hx]; rfl)
      rfl (by rw [← hx]; rfl) rfl rfl
    . rw [h.bare irq (by rw [hd]; nofun)]
      refine ⟨hx,?_⟩
      rw [← hx]
      exact update_self _ _ _
    rw [← hx] at ha
    exact update_of_ne ha _ _
  obtain ⟨hne,hspan⟩ := h.chained irq hd
  obtain ⟨l,o,hl⟩ := (eq_nil_or_concat' (chain irq)).resolve_left hne
  have hnull := h.chain_null irq
  have hfits := h.chain_fits irq
  have honce := h.once irq
  have hmem := h.handler_mem irq handler
  rw [hl] at hspan hnull hfits honce hmem
  have hscan : ({k with freeHead:=k.next k.freeHead} : Hwi).allocScan (.user handler)
      k.nodes.length (k.form irq).param =
      some (if .user handler∈(l++[o]).map k.cmbHook then .duplicate else .last o) :=
    allocScan_eq (k:={k with freeHead:=k.next k.freeHead}) _ hspan hnull hfits
  rw [if_neg (by rw [hd]; nofun),if_pos hd,hscan]
  by_cases hold : handler∈(k.regs irq).map Prod.fst
  . rw [if_pos (hmem.mpr hold)]
    exact .inl ⟨hold,rfl⟩
  rw [if_neg (mt hmem.mp hold)]
  have hxl : x∉l++[o] := hl ▸ hxc
  refine .inr ⟨hold,_,rfl,?_,rfl⟩
  refine h.enter hmode hold (p:=(k.form irq).param) ?_ ?_ (fun a ha hac => ?_)
    (by rw [← hx]; rfl) (by rw [← hx]; rfl) rfl (by rw [← hx]; rfl) rfl rfl
  . rw [← hd]
    exact (update_eq_self irq k.form).symm
  . rw [hl,hx]
    refine Spans.append (b:=x) ?_ ⟨rfl,update_self _ _ _⟩
    refine (hspan.turn honce x).congr fun y hy => update_of_ne ?_ _ _
    rintro rfl
    exact hxl hy
  have hao : a≠o := by
    rintro rfl
    exact hac (hl ▸ mem_append_right _ mem_cons_self)
  rw [← hx] at ha
  exact (update_of_ne ha _ _).trans (update_of_ne hao _ _)

lemma Lists.osHwiCombineAlloc (h : k.Lists free chain) (hmode : k.mode irq=.combine)
    {array : Nat} (hf : array≠0 → k.FreshArray array) (handler arg : Nat) :
    ∃ k' r free', k.osHwiCombineAlloc irq handler arg array=some (k',r) ∧
      (r≠.ok → k'.Lists free' chain ∧ k'.regs=k.regs ∧ (free'=free ∨ (r=.combinehookAlreadyCreated ∧
        free=[] ∧ array≠0 ∧ free'=List.range' array osHwiMaxCombineNode))) ∧
      (r=.ok → ∃ x, k'.Lists free' (update chain irq (chain irq ++ [x])) ∧
        k'.regs=update k.regs irq (k.regs irq ++ [(handler,arg)]) ∧
        (free=x::free' ∨ (free=[] ∧ List.range' array osHwiMaxCombineNode=x::free'))) := by
  have hnil := spans_nil_iff h.freed fun h0 => h.null (h.free_sub 0 h0)
  unfold Hwi.osHwiCombineAlloc
  cases free with
  | nil =>
    rw [if_pos (hnil.mpr rfl)]
    by_cases harr : array=0
    . rw [if_pos harr]
      exact ⟨k,_,[],rfl,fun _ => ⟨h,rfl,.inl rfl⟩,nofun⟩
    rw [if_neg harr]
    have hext := h.extend (hf harr)
    have hregs : (k.extend array).regs=k.regs := (arrayInit_rest array _ k).2.2.2.2
    have hmode' : (k.extend array).mode irq=.combine :=
      (congrFun (arrayInit_rest array _ k).2.1 irq).trans hmode
    rcases hext.combineTake hmode' handler arg with ⟨-,he⟩ | ⟨-,k',he,hk',hr'⟩
    . exact ⟨_,_,_,he,fun _ => ⟨hext,hregs,.inr ⟨rfl,rfl,harr,rfl⟩⟩,nofun⟩
    exact ⟨k',_,_,he,fun hne => absurd rfl hne, fun _ => ⟨_,hk',hr',.inr ⟨rfl,rfl⟩⟩⟩
  | cons x free =>
    rw [if_neg (mt hnil.mp nofun)]
    rcases h.combineTake hmode handler arg with ⟨-,he⟩ | ⟨-,k',he,hk',hr'⟩
    . exact ⟨k,_,_,he,fun _ => ⟨h,rfl,.inl rfl⟩,nofun⟩
    exact ⟨k',_,free,he,fun hne => absurd rfl hne,fun _ => ⟨x,hk',hr',.inl rfl⟩⟩

lemma mem_update_nil : a∈update chain irq [] n ↔ a∈chain n ∧ n≠irq := by
  by_cases he : n=irq
  . subst he
    simp
  simp [he]

lemma Lists.leave (h : k.Lists free chain) (hform : k'.form=update k.form irq ⟨.default,0⟩)
    (hspan : Spans k'.next k'.freeHead (free++chain irq) 0)
    (hnext : ∀ a∉free, k'.next a=k.next a) (hhook : k'.cmbHook=k.cmbHook)
    (hparam : k'.cmbParam=k.cmbParam) (hregs : k'.regs=update k.regs irq [])
    (hmodes : k'.mode=update k.mode irq .unset) (hnodes : k'.nodes=k.nodes) :
    k'.Lists (free++chain irq) (update chain irq []) := by
  have hself : (k'.form irq).hook=.default := by
    rw [hform,update_self]
  refine .of_slots (fun n => ?_) hspan ?_ (fun n n' a ha ha' => ?_) (fun n a ha hm => ?_)
    (fun a => ?_) (hnodes.symm ▸ h.null)
  . by_cases he : n=irq
    . subst he
      rw [update_self]
      have hnil : k'.regs n=[] := by
        rw [hregs,update_self]
      refine ⟨fun hc => ?_,fun _ => rfl,nodup_nil,?_,?_,fun _ => hself,fun _ => .inl hself⟩
      . rw [hself] at hc
        cases hc
      . rw [hnil]
        rfl
      rw [hnil]
      exact nodup_nil
    rw [update_of_ne he]
    refine (h.slot n).congr ?_ fun a ha => ?_
    . rw [hform,hmodes,hregs,update_of_ne he,update_of_ne he,update_of_ne he]
    rw [hhook,hparam,hnext a (h.freeApart n a ha)]
  . rw [nodup_append]
    refine ⟨h.freeOnce,h.once irq,fun a ha b hb hab => ?_⟩
    exact h.freeApart irq b hb (hab ▸ ha)
  . exact h.apart n n' a (mem_update_nil.mp ha).1 (mem_update_nil.mp ha').1
  . obtain ⟨hn,he⟩ := mem_update_nil.mp ha
    rcases mem_append.mp hm with hm | hm
    . exact h.freeApart n a hn hm
    exact he (h.apart n irq a hn hm)
  simp only [hnodes,h.all a,mem_append,mem_update_nil]
  constructor
  . rintro (hm | ⟨n,hm⟩)
    . exact .inl (.inl hm)
    by_cases he : n=irq
    . exact .inl (.inr (he ▸ hm))
    exact .inr ⟨n,hm,he⟩
  rintro ((hm | hm) | ⟨n,hm,-⟩)
  . exact .inl hm
  . exact .inr ⟨irq,hm⟩
  exact .inr ⟨n,hm⟩

lemma Lists.osHwiCombineDelete (h : k.Lists free chain) (hc : (k.form irq).hook=.combineDispatch) :
    ∃ k', ({k with mode:=update k.mode irq .unset} : Hwi).osHwiCombineDelete irq =
        some k' ∧ k'.Lists (free++chain irq) (update chain irq []) ∧
      k'.regs=update k.regs irq [] := by
  have hnull : 0∉free := fun h0 => h.null (h.free_sub 0 h0)
  have hnil := spans_nil_iff h.freed hnull
  obtain ⟨-,hspan⟩ := h.chained irq hc
  simp only [Hwi.osHwiCombineDelete]
  rcases eq_nil_or_concat' free with rfl | ⟨l,o,rfl⟩
  . rw [if_pos (hnil.mpr rfl)]
    refine ⟨_,rfl,h.leave rfl hspan (fun _ _ => rfl) rfl rfl rfl rfl rfl,rfl⟩
  rw [if_neg (mt hnil.mp (by simp))]
  have hlast : ({k with mode:=update k.mode irq .unset} : Hwi).freeLast
      k.nodes.length k.freeHead=some o :=
    freeLast_eq (k:={k with mode:=update k.mode irq .unset}) h.freed hnull
      (Lists.fits h.freeOnce h.free_sub)
  rw [hlast]
  refine ⟨_,rfl,h.leave rfl ?_ (fun a ha => ?_) rfl rfl rfl rfl rfl,rfl⟩
  . refine Spans.append (h.freed.turn h.freeOnce _) (hspan.congr fun y hy => ?_)
    refine update_of_ne ?_ _ _
    rintro rfl
    exact h.freeApart irq y hy (mem_append_right _ mem_cons_self)
  refine update_of_ne ?_ _ _
  rintro rfl
  exact ha (mem_append_right _ mem_cons_self)

lemma init_lists {array : Nat} (h0 : array≠0) :
    (Hwi.init array).Lists (List.range' array osHwiMaxCombineNode) fun _ => [] := by
  refine Lists.extend ?_ ⟨h0,fun _ _ => nofun⟩
  exact
    { freed := rfl, chained := nofun, bare := fun _ _ => rfl, freeOnce := nodup_nil
      once := fun _ => nodup_nil, apart := nofun, freeApart := nofun
      all := fun a => by simp, null := nofun, calls := fun _ => rfl
      handlers := fun _ => nodup_nil, unset := fun _ _ => rfl, combine := nofun }

/-- A create that fails leaves the chains alone, and the free list too, unless it found it empty and
extended it for a handler that it then refused as registered. -/
def Effect (k : Hwi) (r : HwiRet) (free free' : List Nat) (chain chain' : Nat → List Nat) :
    HwiCall → Prop
  | .setAttr _ _ _ _ => free'=free ∧ chain'=chain
  | .create n _ _ array =>
    if r=.ok ∧ k.mode n=.combine then
      ∃ x, chain'=update chain n (chain n ++ [x]) ∧
        (free=x::free' ∨ (free=[] ∧ List.range' array osHwiMaxCombineNode=x::free'))
    else chain'=chain ∧ (free'=free ∨ (r=.combinehookAlreadyCreated ∧
      free=[] ∧ array≠0 ∧ free'=List.range' array osHwiMaxCombineNode))
  | .delete n =>
    if r=.ok then free'=free++chain n ∧ chain'=update chain n []
    else free'=free ∧ chain'=chain

/-- The history of registrations: a handler that was created comes last, with its argument. -/
def regsAfter (k : Hwi) (r : HwiRet) : HwiCall → Nat → List (Nat×Nat)
  | .setAttr _ _ _ _ => k.regs
  | .create n handler arg _ =>
    if r=.ok ∧ k.mode n=.combine then
      update k.regs n (k.regs n ++ [(handler,arg)])
    else k.regs
  | .delete n => if r=.ok then update k.regs n [] else k.regs

def FreshCall (k : Hwi) : HwiCall → Prop
  | .create _ _ _ array => array≠0 → k.FreshArray array
  | _ => True

lemma Lists.prtHwiSetAttr (h : k.Lists free chain) (maxNum : Nat) (mode : HwiMode)
    (prioErr conflict : Bool) :
    (k.prtHwiSetAttr maxNum n mode prioErr conflict).1.Lists free chain ∧
      (k.prtHwiSetAttr maxNum n mode prioErr conflict).1.regs=k.regs := by
  unfold Hwi.prtHwiSetAttr
  split
  . exact ⟨h,rfl⟩
  split
  . exact ⟨h,rfl⟩
  split
  . exact ⟨h,rfl⟩
  next hset =>
  split
  . exact ⟨h,rfl⟩
  next hconf =>
  refine ⟨h.setMode (fun hu => absurd hu hset) fun hc => ?_,rfl⟩
  by_cases hu : k.mode n=.unset
  . exact .inl (h.unset n hu)
  have hsame : mode=k.mode n := by
    by_contra hne
    exact hconf ⟨hu,.inl hne⟩
  exact h.combine n (hsame.symm.trans hc)

lemma Lists.prtHwiCreate (h : k.Lists free chain) (maxNum : Nat) {array : Nat}
    (hf : array≠0 → k.FreshArray array) (n handler arg : Nat) :
    ∃ k' r free' chain', k.prtHwiCreate maxNum n handler arg array=some (k',r) ∧
      k'.Lists free' chain' ∧ k.Effect r free free' chain chain' (.create n handler arg array) ∧
      k'.regs=k.regsAfter r (.create n handler arg array) := by
  have hkeep {r : HwiRet} (hr : ¬(r=.ok ∧ k.mode n=.combine)) :
      k.Effect r free free chain chain (.create n handler arg array) ∧
        k.regs=k.regsAfter r (.create n handler arg array) := by
    simp only [Effect,regsAfter,if_neg hr]
    exact ⟨⟨trivial,.inl trivial⟩,trivial⟩
  unfold Hwi.prtHwiCreate
  split
  . exact ⟨k,_,free,chain,rfl,h,hkeep nofun⟩
  split
  . exact ⟨k,_,free,chain,rfl,h,hkeep nofun⟩
  split
  . exact ⟨k,_,free,chain,rfl,h,hkeep nofun⟩
  next hset =>
  unfold Hwi.osHwiConnectHandle
  split
  . next hmode =>
    obtain ⟨k',r,free',he,hbad,hgood⟩ := h.osHwiCombineAlloc hmode hf handler arg
    by_cases hr : r=.ok
    . obtain ⟨x,hk',hregs,hx⟩ := hgood hr
      refine ⟨k',r,free',_,he,hk',?_,?_⟩
      . simp only [Effect,if_pos (And.intro hr hmode)]
        exact ⟨x,rfl,hx⟩
      simp only [regsAfter,if_pos (And.intro hr hmode)]
      exact hregs
    obtain ⟨hk',hregs,hx⟩ := hbad hr
    have hnot : ¬(r=.ok ∧ k.mode n=.combine) := fun hb => hr hb.1
    refine ⟨k',r,free',chain,he,hk',?_,?_⟩
    . simp only [Effect,if_neg hnot]
      exact ⟨trivial,hx⟩
    simp only [regsAfter,if_neg hnot]
    exact hregs
  next hmode =>
  split
  . exact ⟨k,_,free,chain,rfl,h,hkeep nofun⟩
  next hd =>
  have hdef : (k.form n).hook=.default := not_not.mp hd
  have hk' := h.setForm (p:=arg) (by rw [hdef]; nofun) (f:=.user handler) nofun
    (fun hu => absurd hu hset) (fun hc => absurd hc hmode)
  exact ⟨_,_,free,chain,rfl,hk',hkeep fun hb => hmode hb.2⟩

lemma Lists.prtHwiDelete (h : k.Lists free chain) (maxNum n : Nat) :
    ∃ k' r free' chain', k.prtHwiDelete maxNum n=some (k',r) ∧ k'.Lists free' chain' ∧
      k.Effect r free free' chain chain' (.delete n) ∧ k'.regs=k.regsAfter r (.delete n) := by
  unfold Hwi.prtHwiDelete
  split
  . exact ⟨k,_,free,chain,rfl,h,⟨rfl,rfl⟩,rfl⟩
  unfold Hwi.osHwiDeleteFormResume
  split
  . exact ⟨k,_,free,chain,rfl,h,⟨rfl,rfl⟩,rfl⟩
  dsimp only
  split
  . next hc =>
    obtain ⟨k',he,hk',hregs⟩ := h.osHwiCombineDelete hc
    rw [he]
    exact ⟨k',_,_,_,rfl,hk',⟨rfl,rfl⟩,hregs⟩
  next hc =>
  have hchain := h.bare n hc
  have hregs := h.regs_of_bare hc
  have hk' : (k.setForm n .default n).Lists free chain :=
    h.setForm hc nofun (fun _ => rfl) fun _ => rfl
  have hself : ((k.setForm n .default n).form n).hook=.default := by
    simp only [Hwi.setForm,update_self]
  refine ⟨_,_,free,chain,rfl,hk'.setMode (n:=n) (fun _ => hself) (fun _ => .inl hself),?_,?_⟩
  . simp only [Effect,if_true,hchain,append_nil,true_and]
    rw [← hchain,update_eq_self]
  simp only [regsAfter,if_true]
  rw [← hregs,update_eq_self]
  rfl

lemma Lists.exec (h : k.Lists free chain) (maxNum : Nat) {i : HwiCall} (hi : k.FreshCall i) :
    ∃ k' r free' chain', k.exec maxNum i=some (k',r) ∧ k'.Lists free' chain' ∧
      k.Effect r free free' chain chain' i ∧ k'.regs=k.regsAfter r i := by
  cases i with
  | setAttr n mode prioErr conflict =>
    obtain ⟨hk',hregs⟩ := h.prtHwiSetAttr (n:=n) maxNum mode prioErr conflict
    exact ⟨_,_,free,chain,rfl,hk',⟨rfl,rfl⟩,hregs⟩
  | create n handler arg array => exact h.prtHwiCreate maxNum hi n handler arg
  | delete n => exact h.prtHwiDelete maxNum n

end Hwi

open Hwi

/-- Calls one after the other, from the state behind `OsHwiConfigInit`. -/
def hwiMachine (maxNum array : Nat) : Machine Hwi HwiCall where
  start k := k=Hwi.init array
  step k i := match k.exec maxNum i with
    | some (k',_) => k'
    | none => k

lemma lists_of_reaches {maxNum array : Nat} {k : Hwi} (h0 : array≠0)
    (hr : (hwiMachine maxNum array).Reaches FreshCall k) : ∃ free chain, k.Lists free chain := by
  refine hr.invariant (P:=fun k => ∃ free chain, k.Lists free chain) ?_ fun k i hk hi => ?_
  . rintro k rfl
    exact ⟨_,_,init_lists h0⟩
  obtain ⟨free,chain,hk⟩ := hk
  obtain ⟨k',r,free',chain',he,hk',-⟩ := hk.exec maxNum hi
  refine ⟨free',chain',?_⟩
  simp only [hwiMachine,he]
  exact hk'

/-- Over any calls: every node is free or in the chain of one interrupt, no chain has a handler
twice, dispatching calls the registered handlers in order, and each call moves the nodes as `Effect`
says. -/
theorem combine_nodes_kept {maxNum array : Nat} {k : Hwi} (h0 : array≠0)
    (hr : (hwiMachine maxNum array).Reaches FreshCall k) :
    ∃ free chain, k.freeList=some free ∧ (∀ n, k.chainOf n=some (chain n)) ∧
      k.Lists free chain ∧ (∀ n, ((chain n).map k.cmbHook).Nodup) ∧
      (∀ n, (k.form n).hook=.combineDispatch → k.dispatch n=some ((k.regs n).map callOf)) ∧
      ∀ i, k.FreshCall i → ∃ k' r free' chain', k.exec maxNum i=some (k',r) ∧
        k'.freeList=some free' ∧ (∀ n, k'.chainOf n=some (chain' n)) ∧
        k.Effect r free free' chain chain' i ∧ k'.regs=k.regsAfter r i := by
  obtain ⟨free,chain,h⟩ := lists_of_reaches h0 hr
  refine ⟨free,chain,h.freeList_eq,h.chainOf_eq,h,fun n => ?_,fun n hc => h.dispatch_eq hc,
    fun i hi => ?_⟩
  . have hcalls := congrArg (List.map Prod.fst) (h.calls n)
    rw [map_map,map_map] at hcalls
    have hhooks : (chain n).map k.cmbHook=((k.regs n).map Prod.fst).map HwiFunc.user := by
      rw [map_map]
      exact hcalls
    rw [hhooks]
    exact (h.handlers n).map fun a b hab => HwiFunc.user.inj hab
  obtain ⟨k',r,free',chain',he,hk',heff,hregs⟩ := h.exec maxNum hi
  exact ⟨k',r,free',chain',he,hk'.freeList_eq,hk'.chainOf_eq,heff,hregs⟩

/-- Eight handlers for interrupt 3, which take all the nodes of `g_hwiCombineNode`. -/
def eightCalls : List HwiCall :=
  .setAttr 3 .combine false false::(List.range 8).map fun i => .create 3 (i+1) (10*i) 0

def eight : Hwi := (hwiMachine 16 1).run (Hwi.init 1) eightCalls

/-- The first handler once more is refused, with eight new nodes on the free list. -/
theorem combine_refused_extends : eight.freeList=some [] ∧
    (eight.exec 16 (.create 3 1 0 100)).map (fun r => (r.2,r.1.freeList)) =
      some (.combinehookAlreadyCreated,some [100,101,102,103,104,105,106,107]) := by
  decide +kernel

theorem combine_nodes_kept_eight : eight.dispatch 3 =
    some ((List.range 8).map fun i => (.user (i+1),10*i)) := by
  have hzero {k : Hwi} {n handler arg : Nat} : k.FreshCall (.create n handler arg 0) :=
    fun h => absurd rfl h
  have hrun : (hwiMachine 16 1).Allowed FreshCall (Hwi.init 1) eightCalls :=
    ⟨trivial,hzero,hzero,hzero,hzero,hzero,hzero,hzero,hzero,trivial⟩
  have hr : (hwiMachine 16 1).Reaches FreshCall eight :=
    Machine.Reaches.run (.start rfl) eightCalls hrun
  obtain ⟨_,_,-,-,-,-,hcalls,-⟩ := combine_nodes_kept Nat.one_ne_zero hr
  have hhook : (eight.form 3).hook=.combineDispatch := by decide +kernel
  have hregs : (eight.regs 3).map callOf =
      (List.range 8).map fun i => (.user (i+1),10*i) := by decide +kernel
  exact (hcalls 3 hhook).trans (congrArg some hregs)

end UniProton.Irq
