import Mathlib

namespace UniProton.Framework.Delta

open Function List

variable {ι : Type} [DecidableEq ι] {g g' : ι → Nat} {l : List ι} {i j new : ι}

/-- Every entry of the list stores the gap to the entry in front of it; an entry is due after
the gaps up to its own. -/
def due (g : ι → Nat) : List ι → ι → Nat
  | [], _ => 0
  | a::l, i => g a + if i=a then 0 else due g l i

lemma due_congr (h : ∀ a∈l, g' a=g a) : due g' l i=due g l i := by
  induction l with
  | nil => rfl
  | cons a l ih =>
    have hl : due g' l i=due g l i := ih fun b hb => h b (mem_cons_of_mem a hb)
    simp only [due,hl,h a mem_cons_self]

/-- Walks behind every entry that is due no later, the new entry's gap counting down. -/
def place (g : ι → Nat) (new : ι) : List ι → (ι → Nat)×List ι
  | [] => (g,[new])
  | a::l =>
    if g new<g a then (update g a (g a-g new),new::a::l)
    else
      let r := place (update g new (g new-g a)) new l
      (r.1,a::r.2)

lemma place_perm : (place g new l).2.Perm (new::l) := by
  induction l generalizing g with
  | nil => exact .refl _
  | cons a l ih =>
    unfold place
    split
    . exact .refl _
    exact (ih.cons a).trans (.swap new a l)

lemma place_gap_of_notMem (hn : j≠new) (hl : j∉l) : (place g new l).1 j=g j := by
  induction l generalizing g with
  | nil => rfl
  | cons a l ih =>
    have ha : j≠a := fun h => hl (h ▸ mem_cons_self)
    unfold place
    split
    . exact update_of_ne ha _ _
    have hrest := ih (g:=update g new (g new-g a)) (fun h => hl (mem_cons_of_mem a h))
    exact hrest.trans (update_of_ne hn _ _)

lemma place_gap_le (hn : j≠new) : (place g new l).1 j≤g j := by
  induction l generalizing g with
  | nil => exact Nat.le_refl _
  | cons a l ih =>
    unfold place
    split
    . by_cases hja : j=a
      . subst hja
        simp
      simp [hja]
    have hrest := ih (g:=update g new (g new-g a))
    rw [update_of_ne hn] at hrest
    exact hrest

section Placed

variable (hl : l.Nodup) (hn : new∉l)

include hl hn

lemma due_place_new : due (place g new l).1 (place g new l).2 new=g new := by
  induction l generalizing g with
  | nil => simp [place,due]
  | cons a l ih =>
    obtain ⟨ha,hl⟩ := nodup_cons.mp hl
    have hna : a≠new := fun h => hn (h ▸ mem_cons_self)
    have hnl : new∉l := fun h => hn (mem_cons_of_mem a h)
    unfold place
    split
    . simp [due,hna.symm]
    rename_i hle
    have hrest := ih (g:=update g new (g new-g a)) hl hnl
    have hgap := place_gap_of_notMem (g:=update g new (g new-g a)) hna ha
    rw [update_of_ne hna] at hgap
    rw [update_self] at hrest
    simp only [due,hrest,hgap,if_neg hna.symm]
    omega

lemma due_place_of_mem (hj : j∈l) : due (place g new l).1 (place g new l).2 j=due g l j := by
  induction l generalizing g with
  | nil => cases hj
  | cons a l ih =>
    obtain ⟨ha,hl⟩ := nodup_cons.mp hl
    have hna : a≠new := fun h => hn (h ▸ mem_cons_self)
    have hnl : new∉l := fun h => hn (mem_cons_of_mem a h)
    have hjn : j≠new := fun h => hn (h ▸ hj)
    unfold place
    split
    . rename_i hlt
      have hrest : due (update g a (g a-g new)) l j=due g l j :=
        due_congr fun b hb => update_of_ne (ne_of_mem_of_not_mem hb ha) _ _
      simp only [due,hrest,if_neg hjn,update_self,update_of_ne hna.symm]
      omega
    have hgap := place_gap_of_notMem (g:=update g new (g new-g a)) hna ha
    rw [update_of_ne hna] at hgap
    by_cases hja : j=a
    . simp only [due,hgap,if_pos hja]
    have hjl : j∈l := (mem_cons.mp hj).resolve_left hja
    have hrest := ih (g:=update g new (g new-g a)) hl hnl hjl
    have hold : due (update g new (g new-g a)) l j=due g l j :=
      due_congr fun b hb => update_of_ne (ne_of_mem_of_not_mem hb hnl) _ _
    simp only [due,hgap,if_neg hja,hrest,hold]

end Placed

def after : List ι → ι → Option ι
  | a::b::l, i => if a=i then some b else after (b::l) i
  | _, _ => none

lemma after_mem_tail {a : ι} (h : after (a::l) i=some j) : j∈l := by
  induction l generalizing a with
  | nil => cases h
  | cons b l ih =>
    unfold after at h
    split at h
    . cases h
      exact mem_cons_self
    exact mem_cons_of_mem b (ih h)

lemma after_mem (h : after l i=some j) : j∈l := by
  cases l with
  | nil => cases h
  | cons a l => exact mem_cons_of_mem a (after_mem_tail h)

lemma after_ne (hl : l.Nodup) (h : after l i=some j) : j≠i := by
  induction l with
  | nil => cases h
  | cons a l ih =>
    obtain ⟨ha,hnd⟩ := nodup_cons.mp hl
    by_cases hai : a=i
    . exact hai ▸ ne_of_mem_of_not_mem (after_mem_tail h) ha
    cases l with
    | nil => cases h
    | cons b l => exact ih hnd (by simpa [after,hai] using h)

/-- The gap of an entry that leaves goes to the one behind it. -/
def bequeath (g : ι → Nat) (l : List ι) (i : ι) : ι → Nat :=
  match after l i with
  | some j => update g j (g j+g i)
  | none => g

lemma bequeath_of_notMem (hj : j∉l) : bequeath g l i j=g j := by
  unfold bequeath
  cases hb : after l i with
  | none => rfl
  | some b => exact update_of_ne (ne_of_mem_of_not_mem (after_mem hb) hj).symm _ _

lemma gap_le_due (hi : i∈l) : g i≤due g l i := by
  induction l with
  | nil => cases hi
  | cons a l ih =>
    simp only [due]
    split
    . rename_i h
      subst h
      omega
    rename_i h
    have hrest := ih ((mem_cons.mp hi).resolve_left h)
    omega

lemma gap_add_le_due (hl : l.Nodup) (h : after l i=some j) : g j+g i≤due g l j := by
  induction l with
  | nil => cases h
  | cons a l ih =>
    cases l with
    | nil => cases h
    | cons b l =>
      obtain ⟨ha,hnd⟩ := nodup_cons.mp hl
      have hja : j≠a := ne_of_mem_of_not_mem (after_mem_tail h) ha
      have hle : g j≤due g (b::l) j := gap_le_due (after_mem_tail h)
      rw [due,if_neg hja]
      by_cases hai : a=i
      . subst hai
        omega
      have htail : after (b::l) i=some j := by simpa [after,hai] using h
      have hrest := ih hnd htail
      omega

lemma after_notMem_front (hl : l.Nodup) (h : after l i=some j) : j∉l.takeWhile (· ≠ i) := by
  induction l with
  | nil => cases h
  | cons a l ih =>
    obtain ⟨ha,hnd⟩ := nodup_cons.mp hl
    have hja : j≠a := ne_of_mem_of_not_mem (after_mem_tail h) ha
    by_cases hai : a=i
    . simp [hai]
    have htail : after l i=some j := by
      cases l with
      | nil => cases h
      | cons b l => simpa [after,hai] using h
    have hrest := ih hnd htail
    simpa [hai,hja] using hrest

lemma due_eq_sum (hi : i∈l) : due g l i=g i+((l.takeWhile (· ≠ i)).map g).sum := by
  induction l with
  | nil => cases hi
  | cons a l ih =>
    by_cases hia : i=a
    . subst hia
      simp [due]
    have hrest := ih ((mem_cons.mp hi).resolve_left hia)
    have hai : a≠i := fun h => hia h.symm
    simp only [due,if_neg hia,hrest,takeWhile_cons,hai,ne_eq,not_false_eq_true,
      decide_true,if_true,map_cons,sum_cons]
    omega

lemma due_erase (hl : l.Nodup) (hi : i∈l) (hj : j∈l) (hne : j≠i) :
    due (bequeath g l i) (l.erase i) j=due g l j := by
  induction l with
  | nil => cases hi
  | cons a l ih =>
    obtain ⟨ha,hnd⟩ := nodup_cons.mp hl
    by_cases hai : a=i
    . subst hai
      have hjl : j∈l := (mem_cons.mp hj).resolve_left hne
      cases l with
      | nil => cases hjl
      | cons b l =>
        have hb : b∉l := (nodup_cons.mp hnd).1
        have hbe : bequeath g (a::b::l) a=update g b (g b+g a) := by simp [bequeath,after]
        have hrest : due (update g b (g b+g a)) l j=due g l j :=
          due_congr fun x hx => update_of_ne (ne_of_mem_of_not_mem hx hb) _ _
        rw [hbe,erase_cons_head]
        simp only [due,update_self,if_neg hne,hrest]
        omega
    have hil : i∈l := (mem_cons.mp hi).resolve_left (Ne.symm hai)
    have hafter : after (a::l) i=after l i := by
      cases l with
      | nil => cases hil
      | cons b l => simp [after,hai]
    have hbe : bequeath g (a::l) i=bequeath g l i := by
      unfold bequeath
      rw [hafter]
    rw [erase_cons_tail (by simpa using hai),hbe]
    simp only [due,bequeath_of_notMem ha]
    split
    . rfl
    rename_i hja
    rw [ih hnd hil ((mem_cons.mp hj).resolve_left hja)]

lemma due_erase_le (hl : l.Nodup) (hne : j≠i) : due g (l.erase i) j≤due g l j := by
  induction l with
  | nil => exact Nat.le_refl _
  | cons a l ih =>
    by_cases hai : a=i
    . subst hai
      rw [erase_cons_head]
      simp only [due,if_neg hne]
      omega
    rw [erase_cons_tail (by simpa using hai)]
    have hrest := ih (nodup_cons.mp hl).2
    simp only [due]
    split <;> omega

lemma due_erase_of_gap_zero (hl : l.Nodup) (hne : j≠i) (h0 : g i=0) :
    due g (l.erase i) j=due g l j := by
  induction l with
  | nil => rfl
  | cons a l ih =>
    by_cases hai : a=i
    . subst hai
      rw [erase_cons_head]
      simp only [due,if_neg hne,h0,Nat.zero_add]
    rw [erase_cons_tail (by simpa using hai)]
    simp only [due,ih (nodup_cons.mp hl).2]

/-- One period passes: the entries in front whose gap is used up leave, the first one with
some gap left has one less. -/
def lapse (g : ι → Nat) : List ι → (ι → Nat)×List ι×List ι
  | [] => (g,[],[])
  | a::l =>
    if 0<g a then (update g a (g a-1),[],a::l)
    else
      let r := lapse g l
      (r.1,a::r.2.1,r.2.2)

lemma lapse_append : (lapse g l).2.1++(lapse g l).2.2=l := by
  induction l with
  | nil => rfl
  | cons a l ih =>
    unfold lapse
    split
    . rfl
    exact congrArg (a :: ·) ih

lemma mem_left_iff (hl : l.Nodup) : j∈(lapse g l).2.2 ↔ j∈l ∧ j∉(lapse g l).2.1 := by
  have hmem : j∈l ↔ j∈(lapse g l).2.1 ∨ j∈(lapse g l).2.2 := by
    rw [← mem_append,lapse_append]
  have hdisj : j∈(lapse g l).2.1 → j∉(lapse g l).2.2 := by
    rw [← lapse_append (g:=g) (l:=l)] at hl
    exact fun h h' => (nodup_append.mp hl).2.2 j h j h' rfl
  rw [hmem]
  constructor
  . intro h
    exact ⟨.inr h,fun h' => hdisj h' h⟩
  intro h
  exact h.1.resolve_left h.2

lemma due_of_mem_lapsed (hl : l.Nodup) (hi : i∈(lapse g l).2.1) : due g l i=0 := by
  induction l with
  | nil => cases hi
  | cons a l ih =>
    unfold lapse at hi
    split at hi
    . cases hi
    rename_i ha
    simp only [due]
    split
    . omega
    rename_i hia
    rw [ih (nodup_cons.mp hl).2 ((mem_cons.mp hi).resolve_left hia)]
    omega

lemma due_of_mem_left (hl : l.Nodup) (hi : i∈(lapse g l).2.2) :
    due (lapse g l).1 (lapse g l).2.2 i+1=due g l i := by
  induction l with
  | nil => cases hi
  | cons a l ih =>
    obtain ⟨ha,hnd⟩ := nodup_cons.mp hl
    unfold lapse at hi ⊢
    split at hi
    . rename_i hpos
      have hrest : due (update g a (g a-1)) l i=due g l i :=
        due_congr fun b hb => update_of_ne (ne_of_mem_of_not_mem hb ha) _ _
      rw [if_pos hpos]
      simp only [due,update_self,hrest]
      omega
    rename_i hpos
    have hil : i∈l := by
      rw [← lapse_append (g:=g) (l:=l)]
      exact mem_append_right _ hi
    have hia : i≠a := fun h => ha (h ▸ hil)
    rw [if_neg hpos]
    simp only [due,if_neg hia]
    have := ih hnd hi
    omega

end UniProton.Framework.Delta
