import Mathlib

namespace UniProton.Framework.Slots

open List

variable {α : Type*} {l : List (Option α)} {a : α}

/-- A table ends in an entry: `none` is what a removed entry leaves behind, and none is last. -/
def Tidy (l : List (Option α)) : Prop := l.getLast? ≠ some none

def strip (l : List (Option α)) : List (Option α) := l.rdropWhile Option.isNone

lemma strip_tidy (l : List (Option α)) : Tidy (strip l) := by
  intro h
  have hne : strip l≠[] := by
    intro hnil
    rw [hnil] at h
    cases h
  have hlast := rdropWhile_last_not Option.isNone l hne
  rw [List.getLast?_eq_some_getLast hne] at h
  have hnone : (List.rdropWhile Option.isNone l).getLast hne=none := Option.some.inj h
  rw [hnone] at hlast
  exact hlast rfl

lemma strip_reduceOption (l : List (Option α)) : (strip l).reduceOption=l.reduceOption := by
  have hnone : (l.rtakeWhile Option.isNone).reduceOption=[] := by
    rw [eq_nil_iff_forall_not_mem]
    intro x hx
    have hmem := reduceOption_mem_iff.mp hx
    cases mem_rtakeWhile_imp hmem
  have hsplit : strip l++l.rtakeWhile Option.isNone=l := rdropWhile_append_rtakeWhile
  have happ := congrArg List.reduceOption hsplit
  rw [reduceOption_append,hnone,append_nil] at happ
  exact happ

variable [DecidableEq α]

/-- A new entry takes the first free place, or one behind the last. -/
def put (l : List (Option α)) (a : α) : List (Option α) :=
  if none∈l then l.set (l.idxOf none) (some a) else l++[some a]

/-- An entry that goes leaves a free place; the last one takes the free places before it along. -/
def remove (l : List (Option α)) (a : α) : List (Option α) :=
  if l.idxOf (some a)+1<l.length then l.set (l.idxOf (some a)) none else strip l.dropLast

lemma exists_split {x : Option α} (hx : x∈l) : ∃ l1 l2, l=l1++x::l2 ∧ l1.length=l.idxOf x := by
  obtain ⟨l1,l2,rfl,hn⟩ := eq_append_cons_of_mem hx
  refine ⟨l1,l2,rfl,?_⟩
  rw [idxOf_append_of_notMem hn,idxOf_cons_self,Nat.add_zero]

lemma put_of_mem {l1 l2 : List (Option α)} (hlen : l1.length=(l1++none::l2).idxOf none) :
    put (l1++none::l2) a=l1++some a::l2 := by
  unfold put
  rw [if_pos (by simp),← hlen,set_append_right _ _ (Nat.le_refl _),Nat.sub_self]
  rfl

lemma put_perm (l : List (Option α)) (a : α) : (put l a).reduceOption.Perm (a::l.reduceOption) := by
  by_cases hl : none∈l
  . obtain ⟨l1,l2,rfl,hlen⟩ := exists_split hl
    rw [put_of_mem hlen]
    simp only [reduceOption_append,reduceOption_cons_of_some,reduceOption_cons_of_none]
    exact perm_middle
  rw [put,if_neg hl,reduceOption_append]
  exact perm_append_singleton a _

lemma put_tidy (h : Tidy l) (a : α) : Tidy (put l a) := by
  by_cases hl : none∈l
  . obtain ⟨l1,l2,rfl,hlen⟩ := exists_split hl
    rw [put_of_mem hlen]
    simp only [Tidy,List.getLast?_append,List.getLast?_cons] at h ⊢
    cases hlast : l2.getLast? with
    | none => simp
    | some x =>
      rw [hlast] at h
      simpa using h
  rw [put,if_neg hl]
  simp [Tidy]

lemma put_length_le {n : Nat} (hl : l.length≤n) (hn : l.reduceOption.length<n) (a : α) :
    (put l a).length≤n := by
  unfold put
  split
  . rw [length_set]
    exact hl
  next hm =>
  rw [length_append,length_singleton]
  by_contra hlt
  have hlen : l.reduceOption.length<l.length := by omega
  exact hm (reduceOption_length_lt_iff.mp hlen)

lemma remove_of_mem {l1 l2 : List (Option α)}
    (hlen : l1.length=(l1++some a::l2).idxOf (some a)) :
    remove (l1++some a::l2) a = if l2=[] then strip l1 else l1++none::l2 := by
  unfold remove
  rw [← hlen]
  cases l2 with
  | nil => simp
  | cons x l2 =>
    rw [if_pos (by simp),if_neg (by simp),set_append_right _ _ (Nat.le_refl _),Nat.sub_self]
    rfl

lemma remove_perm (ha : a∈l.reduceOption) : l.reduceOption.Perm (a::(remove l a).reduceOption) := by
  obtain ⟨l1,l2,rfl,hlen⟩ := exists_split (reduceOption_mem_iff.mp ha)
  rw [remove_of_mem hlen]
  split
  . next hl =>
    subst hl
    rw [strip_reduceOption,reduceOption_append]
    exact perm_append_singleton a _
  simp only [reduceOption_append,reduceOption_cons_of_some,reduceOption_cons_of_none]
  exact perm_middle

lemma remove_tidy (h : Tidy l) (ha : a∈l.reduceOption) : Tidy (remove l a) := by
  obtain ⟨l1,l2,rfl,hlen⟩ := exists_split (reduceOption_mem_iff.mp ha)
  rw [remove_of_mem hlen]
  split
  . exact strip_tidy l1
  next hl =>
  obtain ⟨x,hlast⟩ := Option.ne_none_iff_exists'.mp (mt List.getLast?_eq_none_iff.mp hl)
  simpa [Tidy,List.getLast?_append,List.getLast?_cons,hlast] using h

end UniProton.Framework.Slots
