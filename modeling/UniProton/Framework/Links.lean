import Mathlib

namespace UniProton.Framework

open Function List

variable {H N : Type} [DecidableEq H] [DecidableEq N] {l : List N}

def insertAt (i : Nat) (n : N) (l : List N) : List N := l.take i++n::l.drop i

omit [DecidableEq N] in
@[simp] lemma mem_insertAt (i : Nat) (n m : N) (l : List N) : m∈insertAt i n l ↔ m=n ∨ m∈l := by
  have h : m∈l ↔ m∈l.take i ∨ m∈l.drop i := by
    rw [← mem_append,take_append_drop]
  simp only [insertAt,mem_append,mem_cons,h]
  tauto

omit [DecidableEq N] in
lemma nodup_insertAt {i : Nat} {n : N} (hl : l.Nodup) (hn : n∉l) :
    (insertAt i n l).Nodup := by
  have h : (l.take i++l.drop i).Nodup := by rwa [take_append_drop]
  have hn' : n∉l.take i++l.drop i := by rwa [take_append_drop]
  exact nodup_middle.mpr (nodup_cons.mpr ⟨hn',h⟩)

omit [DecidableEq N] in
@[simp] lemma insertAt_length (n : N) (l : List N) : insertAt l.length n l=l++[n] := by
  simp [insertAt]

omit [DecidableEq N] in
@[simp] lemma insertAt_zero (n : N) (l : List N) : insertAt 0 n l=n::l := rfl

omit [DecidableEq N] in
lemma insertAt_perm (i : Nat) (n : N) (l : List N) : (insertAt i n l).Perm (n::l) := by
  have h : (insertAt i n l).Perm (n::(l.take i++l.drop i)) := perm_middle
  rwa [take_append_drop] at h

omit [DecidableEq N] in
lemma pairwise_insertAt_of {r : N → N → Prop} {i : Nat} {n : N} (hl : l.Pairwise r)
    (hfront : ∀ m∈l.take i, r m n) (hbehind : ∀ m∈l.drop i, r n m) :
    (insertAt i n l).Pairwise r := by
  rw [← take_append_drop i l,pairwise_append] at hl
  unfold insertAt
  rw [pairwise_append,pairwise_cons]
  refine ⟨hl.1,⟨hbehind,hl.2.1⟩,fun a ha b hb => ?_⟩
  rcases mem_cons.mp hb with rfl | hb
  . exact hfront a ha
  exact hl.2.2 a ha b hb

omit [DecidableEq N] in
lemma pairwise_insertAt {r : N → N → Prop} {p : N → Bool} (n : N) (l : List N)
    (hl : l.Pairwise r) (hbehind : ∀ m∈l, p m=true → r n m) (hfront : ∀ m∈l, p m=false → r m n)
    (hmono : ∀ a∈l, ∀ b∈l, r a b → p a=true → p b=true) :
    (insertAt (l.findIdx p) n l).Pairwise r := by
  induction l with
  | nil => simp [insertAt]
  | cons x xs ih =>
    obtain ⟨hx,hxs⟩ := pairwise_cons.mp hl
    cases hk : p x with
    | true =>
      simp only [findIdx_cons,hk,cond_true,insertAt_zero]
      refine pairwise_cons.mpr ⟨fun m hm => hbehind m hm ?_,hl⟩
      rcases mem_cons.mp hm with rfl | hm'
      . exact hk
      exact hmono x mem_cons_self m hm (hx m hm') hk
    | false =>
      simp only [findIdx_cons,hk,cond_false]
      have htail : (insertAt (xs.findIdx p) n xs).Pairwise r :=
        ih hxs (fun m hm => hbehind m (mem_cons_of_mem _ hm))
          (fun m hm => hfront m (mem_cons_of_mem _ hm))
          fun a ha b hb => hmono a (mem_cons_of_mem _ ha) b (mem_cons_of_mem _ hb)
      refine pairwise_cons.mpr ⟨fun m hm => ?_,htail⟩
      rcases (mem_insertAt _ _ _ _).mp hm with rfl | hm
      . exact hfront x mem_cons_self hk
      exact hx m hm

/-- Intrusive lists over one kind of node: `lists h` is the chain behind the head `h`, `loc n` the
head in whose chain the node is linked, if it is. -/
structure Links (H N : Type) where
  lists : H → List N
  loc : N → Option H
  nodup : ∀ h, (lists h).Nodup
  mem_iff : ∀ h n, n∈lists h ↔ loc n=some h

namespace Links

def empty : Links H N where
  lists _ := []
  loc _ := none
  nodup _ := List.nodup_nil
  mem_iff _ _ := by simp

def ofList (h : H) (l : List N) (hl : l.Nodup) : Links H N where
  lists := update (fun _ => []) h l
  loc n := if n∈l then some h else none
  nodup h' := by
    by_cases e : h'=h
    . subst e; simpa using hl
    simp [e]
  mem_iff h' n := by
    by_cases e : h'=h
    . subst e
      by_cases hn : n∈l <;> simp [hn]
    by_cases hn : n∈l <;> simp [e,hn,Ne.symm e]

def linked (w : Links H N) (n : N) : Bool := (w.loc n).isSome

variable {w : Links H N} {n : N} {h : H}

omit [DecidableEq H] [DecidableEq N] in
lemma not_mem_of_loc_none (hn : w.loc n=none) (h : H) : n∉w.lists h := by simp [w.mem_iff,hn]

/-- Link an unlinked node into the chain of a head; a linked node stays where it is. -/
def insert (w : Links H N) (n : N) (h : H) (i : Nat) : Links H N :=
  if hn : w.loc n=none then
    { lists := update w.lists h (insertAt i n (w.lists h))
      loc := update w.loc n (some h)
      nodup := by
        intro h'
        by_cases e : h'=h
        . subst e
          simpa using nodup_insertAt (w.nodup h') (not_mem_of_loc_none hn h')
        simpa [e] using w.nodup h'
      mem_iff := by
        intro h' m
        by_cases e : h'=h <;> by_cases em : m=n
        . subst e; subst em; simp
        . subst e; simp [em,w.mem_iff]
        . subst em; simp [e,Ne.symm e,not_mem_of_loc_none hn h']
        simp [e,em,w.mem_iff] }
  else w

def delete (w : Links H N) (n : N) : Links H N :=
  match hn : w.loc n with
  | none => w
  | some h =>
    { lists := update w.lists h ((w.lists h).erase n)
      loc := update w.loc n none
      nodup := by
        intro h'
        by_cases e : h'=h
        . subst e; simpa using (w.nodup h').erase n
        simpa [e] using w.nodup h'
      mem_iff := by
        intro h' m
        by_cases e : h'=h <;> by_cases em : m=n
        . subst e; subst em; simp [(w.nodup h').mem_erase_iff]
        . subst e; simp [em,(w.nodup h').mem_erase_iff,w.mem_iff]
        . subst em; simp [e,w.mem_iff,hn,Ne.symm e]
        simp [e,em,w.mem_iff] }

def clear (w : Links H N) (h : H) : Links H N where
  lists := update w.lists h []
  loc n := if w.loc n=some h then none else w.loc n
  nodup := by
    intro h'
    by_cases e : h'=h
    . subst e; simp
    simpa [e] using w.nodup h'
  mem_iff := by
    intro h' m
    by_cases e : h'=h
    . subst e
      by_cases em : w.loc m=some h' <;> simp [em]
    by_cases em : w.loc m=some h
    . simp [e,em,w.mem_iff,Ne.symm e]
    simp [e,em,w.mem_iff]

lemma insert_loc (w : Links H N) (h : H) (i : Nat) (hn : w.loc n=none) :
    (w.insert n h i).loc=update w.loc n (some h) := by
  simp [insert,hn]

lemma insert_loc_getD (w : Links H N) (n : N) (h : H) (i : Nat) :
    (w.insert n h i).loc=update w.loc n (some ((w.loc n).getD h)) := by
  cases hn : w.loc n with
  | none => rw [insert_loc w h i hn,Option.getD_none]
  | some h' =>
    have hself : update w.loc n (some h')=w.loc := by
      rw [← hn]; exact update_eq_self n w.loc
    simp [insert,hn,hself]

lemma insert_lists (w : Links H N) (h : H) (i : Nat) (hn : w.loc n=none) :
    (w.insert n h i).lists=update w.lists h (insertAt i n (w.lists h)) := by
  simp [insert,hn]

lemma insert_lists_ne (w : Links H N) (n : N) {h' : H} (i : Nat) (hne : h'≠h) :
    (w.insert n h i).lists h'=w.lists h' := by
  by_cases hn : w.loc n=none
  . rw [insert_lists w h i hn,update_of_ne hne]
  simp [insert,hn]

lemma delete_none (w : Links H N) (hn : w.loc n=none) : w.delete n=w := by
  unfold delete
  split
  . rfl
  rename_i h hh
  rw [hn] at hh
  cases hh

lemma delete_lists (w : Links H N) (hn : w.loc n=some h) :
    (w.delete n).lists=update w.lists h ((w.lists h).erase n) := by
  unfold delete
  split
  . rename_i hh
    rw [hn] at hh
    cases hh
  rename_i h' hh
  rw [hn] at hh
  cases hh
  rfl

@[simp] lemma delete_loc (w : Links H N) (n : N) : (w.delete n).loc=update w.loc n none := by
  unfold delete
  split
  . rename_i hn
    exact (update_eq_self_iff.mpr hn.symm).symm
  rfl

lemma delete_lists_eq (w : Links H N) (n : N) (h : H) :
    (w.delete n).lists h=(w.lists h).erase n := by
  cases hn : w.loc n with
  | none => rw [delete_none w hn,erase_of_not_mem (not_mem_of_loc_none hn h)]
  | some h' =>
    rw [delete_lists w hn]
    by_cases e : h=h'
    . subst e; simp
    have hm : n∉w.lists h := by
      rw [w.mem_iff,hn]
      intro hh
      exact e (Option.some.inj hh).symm
    simp [e,erase_of_not_mem hm]

lemma delete_lists_ne (w : Links H N) (hne : w.loc n≠some h) : (w.delete n).lists h=w.lists h := by
  rw [delete_lists_eq,erase_of_not_mem]
  rwa [w.mem_iff]

lemma delete_insert_perm (w : Links H N) (i : Nat) (hn : w.loc n=some h)
    (h' : H) : (((w.delete n).insert n h i).lists h').Perm (w.lists h') := by
  have hd : (w.delete n).loc n=none := by simp
  by_cases e : h'=h
  . subst e
    rw [insert_lists _ _ _ hd,update_self,delete_lists_eq]
    exact (insertAt_perm _ _ _).trans (perm_cons_erase ((w.mem_iff h' n).mpr hn)).symm
  have hne : w.loc n≠some h' := by
    rw [hn]
    exact fun he => e (Option.some.inj he).symm
  rw [insert_lists_ne _ _ _ e,delete_lists_ne _ hne]

omit [DecidableEq N] in
lemma clear_loc (w : Links H N) (h : H) (n : N) :
    (w.clear h).loc n = if w.loc n=some h then none else w.loc n := rfl

omit [DecidableEq H] [DecidableEq N] in
lemma head_loc (hl : w.lists h=n::l) :
    w.loc n=some h := by
  rw [← w.mem_iff,hl]
  exact mem_cons_self

omit [DecidableEq H] [DecidableEq N] in
lemma head_linked (hl : w.lists h=n::l) :
    w.loc n≠none := by
  rw [head_loc hl]
  nofun

lemma insert_loc_or (w : Links H N) (n m : N) (h : H) (i : Nat) :
    m=n ∨ (w.insert n h i).loc m=w.loc m := by
  by_cases hm : m=n
  . exact .inl hm
  rw [insert_loc_getD,update_of_ne hm]
  exact .inr rfl

lemma delete_loc_or (w : Links H N) (n m : N) :
    (w.delete n).loc m=w.loc m ∨ (w.delete n).loc m=none := by
  rw [delete_loc]
  by_cases hm : m=n
  . exact .inr (hm ▸ update_self _ _ _)
  exact .inl (update_of_ne hm _ _)

end Links

end UniProton.Framework
