import Mathlib

namespace UniProton.Framework

variable {w : Nat}

lemma and_twoPow_ne_zero (m : BitVec w) (i : Nat) :
    m &&& BitVec.twoPow w i≠0 ↔ m.getLsbD i=true := by
  rw [BitVec.and_twoPow]
  constructor
  . intro h
    by_contra hm
    exact h (if_neg hm)
  intro hm h
  rw [if_pos hm] at h
  have hi : i<w := BitVec.lt_of_getLsbD hm
  have hbit := congrArg (BitVec.getLsbD · i) h
  simp [hi] at hbit

lemma getLsbD_or_twoPow {i : Nat} (m : BitVec w) (hi : i<w) (j : Nat) :
    (m ||| BitVec.twoPow w i).getLsbD j=(m.getLsbD j || decide (i=j)) := by
  simp [hi]

lemma getLsbD_clear_twoPow (m : BitVec w) (i j : Nat) :
    (m &&& ~~~ BitVec.twoPow w i).getLsbD j=(m.getLsbD j && decide (i≠j)) := by
  by_cases hj : j<w
  . by_cases hij : i=j
    . simp [hij]
    have hji : ¬j=i := fun h => hij h.symm
    simp [hj,hij,hji]
  simp [BitVec.getLsbD_of_ge m j (by omega)]

lemma ne_zero_of_getLsbD {m : BitVec w} {i : Nat} (h : m.getLsbD i=true) : m≠0 := by
  intro hm
  simp [hm] at h

/-- The loop that sets the bit of every index that passes a test; the test may fail. -/
def collect (test : Nat → Option Bool) (l : List Nat) (m : BitVec w) : Option (BitVec w) :=
  l.foldlM (fun m i => (test i).map fun b => if b then m ||| BitVec.twoPow w i else m) m

lemma collect_cons (test : Nat → Option Bool) (i : Nat) (l : List Nat) (m : BitVec w) :
    collect test (i::l) m =
      (test i).bind fun b => collect test l (if b then m ||| BitVec.twoPow w i else m) := by
  cases h : test i <;> simp [collect,h]

lemma getLsbD_collect {test : Nat → Option Bool} {b : Nat → Bool} (l : List Nat)
    (hl : ∀ i∈l, i<w ∧ test i=some (b i)) (m : BitVec w) : ∃ r, collect test l m=some r ∧
      ∀ j, r.getLsbD j=(m.getLsbD j || decide (j∈l) && b j) := by
  induction l generalizing m with
  | nil => exact ⟨m,rfl,by simp⟩
  | cons i l ih =>
    obtain ⟨hi,ht⟩ := hl i List.mem_cons_self
    obtain ⟨r,hr,hbits⟩ := ih (fun j hj => hl j (List.mem_cons_of_mem i hj))
      (if b i then m ||| BitVec.twoPow w i else m)
    refine ⟨r,by rw [collect_cons,ht]; exact hr,?_⟩
    intro j
    rw [hbits]
    by_cases hij : i=j
    . subst hij
      cases b i <;> simp [hi]
    have hji : ¬j=i := fun h => hij h.symm
    cases b i <;> simp [hij,hji]

lemma collect_none {test : Nat → Option Bool} {l : List Nat} {i : Nat} (hi : i∈l)
    (ht : test i=none) (m : BitVec w) : collect test l m=none := by
  induction l generalizing m with
  | nil => cases hi
  | cons k l ih =>
    rw [collect_cons]
    cases hk : test k with
    | none => rfl
    | some b =>
      rcases List.mem_cons.mp hi with rfl | hmem
      . rw [ht] at hk
        cases hk
      exact ih hmem _

end UniProton.Framework
