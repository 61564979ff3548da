import Mathlib

namespace UniProton.Framework

open Function List

variable {N : Type}

/-- The doubly linked nodes from `a` through `l` to `z`: every node's successor points back. -/
def Chained (next prev : N → N) : N → List N → N → Prop
  | a, [], z => next a=z ∧ prev z=a
  | a, x::l, z => next a=x ∧ prev x=a ∧ Chained next prev x l z

namespace Chained

variable {next prev next' prev' : N → N} {a x z : N} {l l1 l2 : List N}

lemma congr (h : Chained next prev a l z) (hn : ∀ y∈a::l, next' y=next y)
    (hp : ∀ y∈l++[z], prev' y=prev y) : Chained next' prev' a l z := by
  induction l generalizing a with
  | nil =>
    obtain ⟨hnext,hprev⟩ := h
    exact ⟨(hn a (by simp)).trans hnext,(hp z (by simp)).trans hprev⟩
  | cons y l ih =>
    obtain ⟨hnext,hprev,hrest⟩ := h
    refine ⟨(hn a (by simp)).trans hnext,(hp y (by simp)).trans hprev,ih hrest ?_ ?_⟩
    . intro w hw
      exact hn w (mem_cons_of_mem _ hw)
    intro w hw
    exact hp w (mem_cons_of_mem _ hw)

lemma append_iff : Chained next prev a (l1++x::l2) z ↔
      Chained next prev a l1 x ∧ Chained next prev x l2 z := by
  induction l1 generalizing a with
  | nil => simp [Chained,and_assoc]
  | cons y l ih => simp [Chained,ih,and_assoc]

lemma next_mem (h : Chained next prev a l z) : next a∈l++[z] := by
  cases l with
  | nil | cons => simp [h.1]

lemma prev_mem (h : Chained next prev a l z) : prev z∈a::l := by
  induction l generalizing a with
  | nil => simp [h.2]
  | cons y l ih => exact mem_cons_of_mem _ (ih h.2.2)

variable [DecidableEq N]

lemma unlink (h : Chained next prev a (l1++x::l2) z)
    (hfrom : (a::(l1++x::l2)).Nodup) (hto : (l1++x::l2++[z]).Nodup) :
    Chained (update next (prev x) (next x)) (update prev (next x) (prev x)) a (l1++l2) z := by
  induction l1 generalizing a with
  | nil =>
    obtain ⟨hax,hxa,hx⟩ := h
    rw [nil_append] at hfrom hto
    obtain ⟨ha,hx2,-⟩ : a∉x::l2 ∧ x∉l2 ∧ l2.Nodup := by simpa using hfrom
    rw [hxa]
    cases l2 with
    | nil =>
      obtain ⟨hxz,-⟩ := hx
      simp [Chained,hxz]
    | cons y l =>
      obtain ⟨hxy,hyx,hy⟩ := hx
      refine ⟨by simp [hxy],by simp [hxy],hy.congr ?_ ?_⟩
      . intro w hw
        apply update_of_ne
        rintro rfl
        exact ha (mem_cons_of_mem _ hw)
      intro w hw
      apply update_of_ne
      rintro rfl
      rw [hxy] at hw
      simp only [List.cons_append,nodup_cons] at hto
      exact hto.2.1 hw
  | cons y l ih =>
    obtain ⟨hay,hya,hy⟩ := h
    have hsplit := append_iff.mp hy
    have hnext : next x∈l2++[z] := hsplit.2.next_mem
    have hprev : prev x∈y::l := hsplit.1.prev_mem
    simp only [List.cons_append,nodup_cons] at hfrom hto
    refine ⟨?_,?_,ih hy (by simpa using hfrom.2) hto.2⟩
    . rw [update_of_ne _ _ _,hay]
      rintro rfl
      apply hfrom.1
      simp only [mem_cons,mem_append] at hprev ⊢
      tauto
    rw [update_of_ne _ _ _,hya]
    rintro rfl
    apply hto.1
    simp only [mem_cons,mem_append] at hnext ⊢
    tauto

lemma link (h : Chained next prev a l z) (hfrom : (a::l).Nodup) (hto : (l++[z]).Nodup)
    (hxa : x≠a) (hxl : x∉l++[z]) : Chained (update (update next x (next a)) a x)
      (update (update prev x a) (next a) x) a (x::l) z := by
  have hxn : x≠next a := by
    intro hxn
    exact hxl (hxn ▸ h.next_mem)
  refine ⟨by simp,by simp [hxn],?_⟩
  cases l with
  | nil =>
    obtain ⟨hnext,-⟩ := h
    simp [Chained,hnext,hxa]
  | cons y l =>
    obtain ⟨hnext,hprev,hrest⟩ := h
    refine ⟨by simp [hnext,hxa],by simp [hnext],hrest.congr ?_ ?_⟩
    . intro w hw
      have hwa : w≠a := by
        rintro rfl
        exact (nodup_cons.mp hfrom).1 hw
      have hwx : w≠x := by
        rintro rfl
        exact hxl (mem_append_left _ hw)
      simp [hwa,hwx]
    intro w hw
    have hwy : w≠y := by
      rintro rfl
      exact (nodup_cons.mp hto).1 hw
    have hwx : w≠x := by
      rintro rfl
      exact hxl (mem_cons_of_mem _ hw)
    simp [hwy,hwx,hnext]

lemma insert {b : N} (h : Chained next prev a (l1++l2) z)
    (hfrom : (a::(l1++l2)).Nodup) (hto : (l1++l2++[z]).Nodup)
    (hb : (l2++[z]).head? = some b) (hxa : x≠a) (hxl : x∉l1++l2++[z]) :
    Chained (update (update next x b) (prev b) x)
      (update (update prev x (prev b)) b x) a (l1++x::l2) z := by
  induction l1 generalizing a with
  | nil =>
    have hends : next a=b ∧ prev b=a := by
      cases l2 with
      | nil =>
        obtain rfl : z=b := by simpa using hb
        exact h
      | cons y l =>
        obtain rfl : y=b := by simpa using hb
        exact ⟨h.1,h.2.1⟩
    have hl := link h hfrom hto hxa hxl
    rw [hends.1] at hl
    rw [hends.2]
    exact hl
  | cons y l ih =>
    obtain ⟨hay,hya,hy⟩ := h
    change Chained next prev y (l++l2) z at hy
    have hbmem : b∈l2++[z] := mem_of_mem_head? hb
    have hprev : prev b∈y::l := by
      cases l2 with
      | nil =>
        obtain rfl : z=b := by simpa using hb
        rw [append_nil] at hy
        exact hy.prev_mem
      | cons w l' =>
        obtain rfl : w=b := by simpa using hb
        exact (append_iff.mp hy).1.prev_mem
    simp only [List.cons_append,nodup_cons,mem_cons,not_or] at hfrom hto hxl
    refine ⟨?_,?_,ih hy (by simpa using hfrom.2) hto.2 (Ne.symm ?_) hxl.2⟩
    . rw [update_of_ne,update_of_ne (Ne.symm hxa),hay]
      rintro rfl
      rcases mem_cons.mp hprev with hp | hp
      . exact hfrom.1.1 hp
      exact hfrom.1.2 (mem_append_left _ hp)
    . rw [update_of_ne,update_of_ne (Ne.symm hxl.1),hya]
      rintro rfl
      apply hto.1
      rw [append_assoc]
      exact mem_append_right _ hbmem
    exact Ne.symm hxl.1

end Chained

/-- The nodes from `a` on along `next`, up to `z`. -/
def Spans (next : N → N) : N → List N → N → Prop
  | a, [], z => a=z
  | a, x::l, z => a=x ∧ Spans next (next x) l z

namespace Spans

variable {next prev next' : N → N} {a o x z z' : N} {l l1 l2 : List N}

lemma congr (h : Spans next a l z) (hn : ∀ y∈l, next' y=next y) : Spans next' a l z := by
  induction l generalizing a with
  | nil => exact h
  | cons x l ih =>
    refine ⟨h.1,?_⟩
    rw [hn x mem_cons_self]
    exact ih h.2 fun y hy => hn y (mem_cons_of_mem _ hy)

lemma append {b : N} (h : Spans next a l1 b) (h' : Spans next b l2 z) :
    Spans next a (l1++l2) z := by
  induction l1 generalizing a with
  | nil =>
    have ha : a=b := h
    subst ha
    exact h'
  | cons x l ih => exact ⟨h.1,ih h.2⟩

lemma of_chained {b : N} (h : Chained next prev a (l1++l2) z)
    (hb : (l2++[z]).head? = some b) : Spans next (next a) l1 b := by
  induction l1 generalizing a with
  | nil =>
    cases l2 with
    | nil | cons => simpa [Spans] using h.1.trans (by simpa using hb)
  | cons y l ih => exact ⟨h.1,ih h.2.2⟩

variable [DecidableEq N]

lemma turn (h : Spans next a (l++[o]) z) (hnd : (l++[o]).Nodup) (z' : N) :
    Spans (update next o z') a (l++[o]) z' := by
  induction l generalizing a with
  | nil => exact ⟨h.1,update_self _ _ _⟩
  | cons x l ih =>
    obtain ⟨hx,hl⟩ := nodup_cons.mp hnd
    refine ⟨h.1,?_⟩
    rw [update_of_ne]
    . exact ih h.2 hl
    rintro rfl
    exact hx (mem_append_right _ mem_cons_self)

end Spans

lemma Chained.cut [DecidableEq N] {next prev : N → N} {a b o z : N} {l1 l2 : List N} (z' : N)
    (h : Chained next prev a (l1++l2) z) (hfrom : (a::(l1++l2)).Nodup)
    (hto : (l1++l2++[z]).Nodup) (hb : (l2++[z]).head? = some b) (ho : (a::l1).getLast? = some o) :
    Chained (update (update next o z') a b) (update prev b a) a l2 z := by
  have hmem : o∈a::l1 := mem_of_getLast? ho
  have hout : ∀ y∈l2, y≠o := by
    rintro y hy rfl
    rcases mem_cons.mp hmem with rfl | hm
    . exact (nodup_cons.mp hfrom).1 (mem_append_right _ hy)
    exact disjoint_of_nodup_append (nodup_cons.mp hfrom).2 hm hy
  have hena : ∀ y∈l2, y≠a := by
    rintro y hy rfl
    exact (nodup_cons.mp hfrom).1 (mem_append_right _ hy)
  cases l2 with
  | nil =>
    obtain rfl : z=b := by simpa using hb
    exact ⟨update_self _ _ _,update_self _ _ _⟩
  | cons y l =>
    obtain rfl : y=b := by simpa using hb
    have hrest := (append_iff.mp h).2
    refine ⟨update_self _ _ _,update_self _ _ _,hrest.congr ?_ ?_⟩
    . intro w hw
      rw [update_of_ne (hena w hw),update_of_ne (hout w hw)]
    intro w hw
    rw [update_of_ne]
    rintro rfl
    rw [append_assoc] at hto
    exact (nodup_cons.mp (.of_append_right hto)).1 hw

/-- A ring: a chain that comes back to the node it starts from. -/
structure Ringed (next prev : N → N) (h : N) (l : List N) : Prop where
  chained : Chained next prev h l h
  nodup : (h::l).Nodup

namespace Ringed

variable {next prev next' prev' : N → N} {h x : N} {l l1 l2 : List N}

lemma to_nodup (hr : (h::l).Nodup) : (l++[h]).Nodup := by
  rw [nodup_append_comm]
  simpa using hr

lemma congr (hr : Ringed next prev h l) (hn : ∀ y∈h::l, next' y=next y)
    (hp : ∀ y∈h::l, prev' y=prev y) : Ringed next' prev' h l where
  chained := by
    apply hr.chained.congr hn
    intro y hy
    apply hp
    simpa [or_comm] using hy
  nodup := hr.nodup

lemma next_mem (hr : Ringed next prev h (l1++x::l2)) : next x∈h::(l1++x::l2) := by
  have hm := (Chained.append_iff.mp hr.chained).2.next_mem
  simp only [mem_append,mem_cons,not_mem_nil,or_false] at hm ⊢
  tauto

lemma prev_mem (hr : Ringed next prev h (l1++x::l2)) : prev x∈h::(l1++x::l2) := by
  have hm := (Chained.append_iff.mp hr.chained).1.prev_mem
  simp only [mem_append,mem_cons] at hm ⊢
  tauto

lemma head_next_mem (hr : Ringed next prev h l) : next h∈h::l := by
  simpa [or_comm] using hr.chained.next_mem

lemma nil_iff (hr : Ringed next prev h l) : next h=h ↔ l=[] := by
  constructor
  . intro hn
    cases l with
    | nil => rfl
    | cons y l =>
      obtain ⟨hy,-⟩ := hr.chained
      have hmem : h∈y::l := by simp [hn.symm.trans hy]
      exact absurd hmem (nodup_cons.mp hr.nodup).1
  rintro rfl
  exact hr.chained.1

variable [DecidableEq N]

lemma unlink (hr : Ringed next prev h (l1++x::l2)) :
    Ringed (update next (prev x) (next x)) (update prev (next x) (prev x)) h (l1++l2) where
  chained := hr.chained.unlink hr.nodup (to_nodup hr.nodup)
  nodup := by
    have hsub : (h::(l1++l2)).Sublist (h::(l1++x::l2)) :=
      ((sublist_cons_self x l2).append_left l1).cons_cons h
    exact hr.nodup.sublist hsub

lemma link (hr : Ringed next prev h l) (hx : x∉h::l) :
    Ringed (update (update next x (next h)) h x)
      (update (update prev x h) (next h) x) h (x::l) where
  chained := by
    apply hr.chained.link hr.nodup (to_nodup hr.nodup)
    . rintro rfl
      exact hx (by simp)
    simpa [or_comm] using hx
  nodup := by
    have hperm : (x::h::l).Perm (h::x::l) := .swap h x l
    exact hperm.nodup_iff.mp (nodup_cons.mpr ⟨hx,hr.nodup⟩)

lemma insert {b : N} (hr : Ringed next prev h (l1++l2)) (hb : (l2++[h]).head? = some b)
    (hx : x∉h::(l1++l2)) : Ringed (update (update next x b) (prev b) x)
      (update (update prev x (prev b)) b x) h (l1++x::l2) where
  chained := by
    apply hr.chained.insert hr.nodup (to_nodup hr.nodup) hb
    . rintro rfl
      exact hx (by simp)
    intro hm
    apply hx
    simp only [mem_append,mem_cons,not_mem_nil,or_false] at hm ⊢
    tauto
  nodup := by
    have hperm : (h::(l1++x::l2)).Perm (x::h::(l1++l2)) := (perm_middle.cons h).trans (.swap x h _)
    exact hperm.nodup_iff.mpr (nodup_cons.mpr ⟨hx,hr.nodup⟩)

lemma cut {b o : N} (hr : Ringed next prev h (l1++l2)) (hb : (l2++[h]).head? = some b)
    (ho : (h::l1).getLast? = some o) (z : N) :
    Ringed (update (update next o z) h b) (update prev b h) h l2 where
  chained := hr.chained.cut z hr.nodup (to_nodup hr.nodup) hb ho
  nodup := hr.nodup.sublist ((sublist_append_right l1 l2).cons_cons h)

end Ringed

end UniProton.Framework
