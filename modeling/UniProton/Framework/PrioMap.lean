import Mathlib

namespace UniProton.Framework

open Function

variable {w : Nat}

/-- Distance of the leftmost set bit from the top of the word; a zero word gives the last
position. -/
def leadingOne (v : BitVec w) : Nat := ((List.range w).find? v.getMsbD).getD (w-1)

/-- The word whose only set bit is `i` places below the top. -/
def msbBit (w i : Nat) : BitVec w := BitVec.twoPow w (w-1) >>> i

lemma getMsbD_msbBit (i j : Nat) (hi : i<w) : (msbBit w i).getMsbD j=decide (i=j) := by
  rw [msbBit,BitVec.getMsbD_ushiftRight,BitVec.getMsbD_twoPow]
  rw [Bool.eq_iff_iff]
  simp
  omega

lemma exists_getMsbD_of_ne_zero {v : BitVec w} (hv : v≠0) : ∃ i<w, v.getMsbD i=true := by
  by_contra hn
  push Not at hn
  apply hv
  apply BitVec.eq_of_getMsbD_eq
  intro i hi
  simpa using hn i hi

lemma leadingOne_spec {v : BitVec w} (hv : v≠0) :
    leadingOne v<w ∧ v.getMsbD (leadingOne v)=true ∧ ∀ j<leadingOne v, v.getMsbD j=false := by
  obtain ⟨i,hi,hvi⟩ := exists_getMsbD_of_ne_zero hv
  have hsome : ((List.range w).find? v.getMsbD).isSome := by
    rw [List.find?_isSome]
    exact ⟨i,List.mem_range.mpr hi,hvi⟩
  obtain ⟨k,hk⟩ := Option.isSome_iff_exists.mp hsome
  have hlead : leadingOne v=k := by simp [leadingOne,hk]
  rw [hlead]
  obtain ⟨hvk,hkw,hmin⟩ := List.find?_range_eq_some.mp hk
  refine ⟨List.mem_range.mp hkw,hvk,?_⟩
  intro j hj
  simpa using hmin j hj

/-- A set of priorities below `w * w` kept as one word of flags for `w` child words. -/
structure PrioMap (w : Nat) where
  root : BitVec w
  child : Nat → BitVec w

namespace PrioMap

def empty (w : Nat) : PrioMap w := ⟨0,fun _ => 0⟩

def set (m : PrioMap w) (p : Nat) : PrioMap w :=
  ⟨m.root ||| msbBit w (p/w),update m.child (p/w) (m.child (p/w) ||| msbBit w (p%w))⟩

/-- The flag of a child word is dropped only with its last bit. -/
def clear (m : PrioMap w) (p : Nat) : PrioMap w :=
  let c := m.child (p/w) &&& ~~~ msbBit w (p%w)
  ⟨if c=0 then m.root &&& ~~~ msbBit w (p/w) else m.root,update m.child (p/w) c⟩

/-- Two leading-bit searches, one in the flags and one in the child word they name. -/
def first (m : PrioMap w) : Nat :=
  let i := leadingOne m.root
  i * w+leadingOne (m.child i)

/-- The map holds exactly the priorities of `S`. -/
structure Holds (m : PrioMap w) (S : Nat → Prop) : Prop where
  child_iff : ∀ i<w, ∀ j<w, (m.child i).getMsbD j=true ↔ S (i*w+j)
  root_iff : ∀ i<w, m.root.getMsbD i=true ↔ m.child i≠0

lemma empty_holds : (empty w).Holds (fun _ => False) := by
  constructor
  . intro i hi j hj
    simp [empty]
  intro i hi
  simp [empty]

lemma getMsbD_or_msbBit (v : BitVec w) (i j : Nat) (hi : i<w) :
    (v ||| msbBit w i).getMsbD j=true ↔ i=j ∨ v.getMsbD j=true := by
  rw [BitVec.getMsbD_or,getMsbD_msbBit i j hi]
  simp [or_comm]

lemma getMsbD_and_not_msbBit (v : BitVec w) (i j : Nat) (hi : i<w) (hj : j<w) :
    (v &&& ~~~ msbBit w i).getMsbD j=true ↔ i≠j ∧ v.getMsbD j=true := by
  rw [BitVec.getMsbD_and,BitVec.getMsbD_not,getMsbD_msbBit i j hi]
  simp [hj,and_comm]

private lemma split_prio {p i j : Nat} (hj : j<w) : i*w+j=p ↔ p/w=i ∧ p%w=j := by
  have hw : 0<w := by omega
  constructor
  . rintro rfl
    rw [Nat.mul_comm]
    constructor
    . rw [Nat.mul_add_div hw,Nat.div_eq_of_lt hj,Nat.add_zero]
    rw [Nat.mul_add_mod,Nat.mod_eq_of_lt hj]
  rintro ⟨rfl,rfl⟩
  rw [Nat.mul_comm]
  exact Nat.div_add_mod p w

private lemma word_pos {p : Nat} (hp : p<w*w) : 0<w := by
  rcases Nat.eq_zero_or_pos w with rfl | hw
  . simp at hp
  exact hw

lemma Holds.congr {m : PrioMap w} {S T : Nat → Prop} (h : m.Holds S) (hST : ∀ p, S p ↔ T p) :
    m.Holds T :=
  ⟨fun i hi j hj => (h.child_iff i hi j hj).trans (hST _),h.root_iff⟩

variable {m : PrioMap w} {S : Nat → Prop} {p : Nat}

lemma Holds.set (h : m.Holds S) (hp : p<w*w) : (m.set p).Holds (fun q => q=p ∨ S q) := by
  have hi : p/w<w := Nat.div_lt_of_lt_mul hp
  have hj : p%w<w := Nat.mod_lt _ (word_pos hp)
  constructor
  . intro i hiw j hjw
    rw [split_prio hjw,← h.child_iff i hiw j hjw]
    by_cases hc : i=p/w
    . subst hc
      simp only [PrioMap.set,update_self,getMsbD_or_msbBit _ _ _ hj,true_and]
    simp [PrioMap.set,hc,Ne.symm hc]
  intro i hiw
  rw [PrioMap.set,getMsbD_or_msbBit _ _ _ hi,h.root_iff i hiw]
  by_cases hc : i=p/w
  . subst hc
    have hne : m.child (p/w) ||| msbBit w (p%w)≠0 := by
      intro h0
      have hbit : (m.child (p/w) ||| msbBit w (p%w)).getMsbD (p%w)=true :=
        (getMsbD_or_msbBit _ _ _ hj).mpr (.inl rfl)
      simp [h0] at hbit
    simpa using hne
  simp [hc,Ne.symm hc]

lemma Holds.clear (h : m.Holds S) (hp : p<w*w) : (m.clear p).Holds (fun q => q≠p ∧ S q) := by
  have hi : p/w<w := Nat.div_lt_of_lt_mul hp
  have hj : p%w<w := Nat.mod_lt _ (word_pos hp)
  constructor
  . intro i hiw j hjw
    rw [ne_eq,split_prio hjw,← h.child_iff i hiw j hjw]
    by_cases hc : i=p/w
    . subst hc
      simp only [PrioMap.clear,update_self,getMsbD_and_not_msbBit _ _ _ hj hjw,true_and,ne_eq]
    simp [PrioMap.clear,hc,Ne.symm hc]
  intro i hiw
  simp only [PrioMap.clear]
  by_cases hc : i=p/w
  . subst hc
    simp only [update_self]
    split
    . next h0 =>
      rw [getMsbD_and_not_msbBit _ _ _ hi hiw]
      simp [h0]
    next h0 =>
    simp only [h.root_iff _ hiw,h0,ne_eq,not_false_eq_true,iff_true]
    intro hz
    simp [hz] at h0
  rw [update_of_ne hc]
  split
  . rw [getMsbD_and_not_msbBit _ _ _ hi hiw]
    simp [Ne.symm hc,h.root_iff i hiw]
  exact h.root_iff i hiw

lemma Holds.first_least (h : m.Holds S) (hp : p<w*w) (hS : S p) :
    S m.first ∧ m.first<w*w ∧ ∀ q < m.first, ¬S q := by
  have hw : 0<w := word_pos hp
  have hi : p/w<w := Nat.div_lt_of_lt_mul hp
  have hj : p%w<w := Nat.mod_lt _ hw
  have hpq : p/w*w+p%w=p := by rw [Nat.mul_comm]; exact Nat.div_add_mod p w
  have hbit : (m.child (p/w)).getMsbD (p%w)=true := by
    rw [h.child_iff _ hi _ hj,hpq]; exact hS
  have hroot : m.root≠0 := by
    intro h0
    have hr : m.root.getMsbD (p/w)=true := by
      rw [h.root_iff _ hi]
      intro hc
      simp [hc] at hbit
    simp [h0] at hr
  obtain ⟨hrw,hrb,hrmin⟩ := leadingOne_spec hroot
  have hchild : m.child (leadingOne m.root)≠0 := (h.root_iff _ hrw).mp hrb
  obtain ⟨hcw,hcb,hcmin⟩ := leadingOne_spec hchild
  have hlt : m.first<w*w := by
    have h1 : leadingOne m.root+1≤w := hrw
    have h2 := Nat.mul_le_mul_right w h1
    rw [Nat.add_mul] at h2
    simp only [PrioMap.first]
    omega
  refine ⟨(h.child_iff _ hrw _ hcw).mp hcb,hlt,?_⟩
  intro q hq hSq
  have hqw : q/w<w := Nat.div_lt_of_lt_mul (Nat.lt_trans hq hlt)
  have hqm : q%w<w := Nat.mod_lt _ hw
  have hqq : q/w*w+q%w=q := by rw [Nat.mul_comm]; exact Nat.div_add_mod q w
  have hqb : (m.child (q/w)).getMsbD (q%w)=true := by
    rw [h.child_iff _ hqw _ hqm,hqq]; exact hSq
  -- a smaller priority lies in an earlier child word, or earlier in the same word
  rcases Nat.lt_trichotomy (q/w) (leadingOne m.root) with hlt' | heq | hgt
  . have hr := hrmin _ hlt'
    have hz : m.child (q/w)=0 := by
      by_contra hne
      rw [(h.root_iff _ hqw).mpr hne] at hr
      cases hr
    simp [hz] at hqb
  . rw [heq] at hqb
    have hlt' : q%w<leadingOne (m.child (leadingOne m.root)) := by
      simp only [PrioMap.first] at hq
      rw [heq] at hqq
      omega
    rw [hcmin _ hlt'] at hqb
    cases hqb
  have h2 := Nat.mul_le_mul_right w (Nat.succ_le_of_lt hgt)
  rw [Nat.succ_eq_add_one,Nat.add_mul] at h2
  simp only [PrioMap.first] at hq
  omega

end PrioMap

end UniProton.Framework
