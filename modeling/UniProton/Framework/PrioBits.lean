import UniProton.Framework.Mask
import UniProton.Framework.PrioMap

namespace UniProton.Framework

open Function List

variable {w : Nat}

/-- Place of the rightmost set bit; a zero word gives the last position. -/
def trailingOne (v : BitVec w) : Nat := ((List.range w).find? v.getLsbD).getD (w-1)

lemma trailingOne_spec {v : BitVec w} (hv : v≠0) :
    trailingOne v<w ∧ v.getLsbD (trailingOne v)=true ∧ ∀ j<trailingOne v, v.getLsbD j=false := by
  obtain ⟨i,hi,hvi⟩ : ∃ i<w, v.getLsbD i=true := by
    by_contra hn
    push Not at hn
    apply hv
    apply BitVec.eq_of_getLsbD_eq
    intro i hi
    simpa using hn i hi
  have hsome : ((List.range w).find? v.getLsbD).isSome := by
    rw [List.find?_isSome]
    exact ⟨i,mem_range.mpr hi,hvi⟩
  obtain ⟨k,hk⟩ := Option.isSome_iff_exists.mp hsome
  have htrail : trailingOne v=k := by simp [trailingOne,hk]
  rw [htrail]
  obtain ⟨hvk,hkw,hmin⟩ := List.find?_range_eq_some.mp hk
  refine ⟨mem_range.mp hkw,hvk,?_⟩
  intro j hj
  simpa using hmin j hj

lemma trailingOne_zero : trailingOne (0 : BitVec w)=w-1 := by
  have hnone : (List.range w).find? (0 : BitVec w).getLsbD=none := by
    rw [List.find?_eq_none]
    intro j _
    simp
  rw [trailingOne,hnone]
  rfl

lemma getLsbD_sub_one_xor (v : BitVec w) {i : Nat} (hi : i<w) :
    (v-1#w ^^^ v).getLsbD i=decide (∀ j < i, v.getLsbD j=false) := by
  have hsub : v-1#w = ~~~ (-v) := (BitVec.not_neg v).symm
  rw [hsub,BitVec.getLsbD_xor,BitVec.getLsbD_not,BitVec.getLsbD_neg]
  by_cases h : ∀ j < i, v.getLsbD j=false
  . have hn : ¬ ∃ j < i, v.getLsbD j=true := by
      rintro ⟨j,hj,hv⟩
      rw [h j hj] at hv
      cases hv
    rw [decide_eq_true h]
    simp [hi,hn]
  have hn : ∃ j < i, v.getLsbD j=true := by
    push Not at h
    obtain ⟨j,hj,hv⟩ := h
    exact ⟨j,hj,by simpa using hv⟩
  cases hv : v.getLsbD i <;> simp [hi,h,hn]

lemma getLsbD_low_ones (v : BitVec w) {i : Nat} (hi : i<w) :
    (v-1#w ^^^ v).getLsbD i=true ↔ i≤trailingOne v := by
  rw [getLsbD_sub_one_xor v hi,decide_eq_true_eq]
  by_cases hv : v=0
  . subst hv
    rw [trailingOne_zero]
    constructor
    . intro _
      omega
    intro _ j _
    simp
  obtain ⟨_,hbit,hlow⟩ := trailingOne_spec hv
  constructor
  . intro h
    by_contra hlt
    rw [h _ (by omega)] at hbit
    cases hbit
  intro h j hj
  exact hlow j (by omega)

lemma sub_leadingOne_eq (v : BitVec w) (hw : 0<w) : w-leadingOne (v-1#w ^^^ v)-1=trailingOne v := by
  have hlt : trailingOne v<w := by
    by_cases hv : v=0
    . rw [hv,trailingOne_zero]
      omega
    exact (trailingOne_spec hv).1
  have hbit : (v-1#w ^^^ v).getLsbD (trailingOne v)=true := (getLsbD_low_ones v hlt).mpr le_rfl
  obtain ⟨hl,hlead,hhigh⟩ := leadingOne_spec (ne_zero_of_getLsbD hbit)
  rw [BitVec.getMsbD_eq_getLsbD,Bool.and_eq_true] at hlead
  have hle := (getLsbD_low_ones v (by omega)).mp hlead.2
  by_contra hne
  have hfalse := hhigh (w-1-trailingOne v) (by omega)
  rw [BitVec.getMsbD_eq_getLsbD,show w-1-(w-1-trailingOne v)=trailingOne v by omega,hbit] at hfalse
  simp at hfalse
  omega

def bitSet (b : Nat → BitVec w) (p : Nat) : Nat → BitVec w :=
  update b (p/w) (b (p/w) ||| BitVec.twoPow w (p%w))

def bitClear (b : Nat → BitVec w) (p : Nat) : Nat → BitVec w :=
  update b (p/w) (b (p/w) &&& ~~~ BitVec.twoPow w (p%w))

def bitAt (b : Nat → BitVec w) (p : Nat) : Bool := (b (p/w)).getLsbD (p%w)

lemma div_mod_inj {p q : Nat} (hd : p/w=q/w) (hm : p%w=q%w) : p=q := by
  rw [← Nat.div_add_mod p w,← Nat.div_add_mod q w,hd,hm]

lemma bitAt_set (b : Nat → BitVec w) (hw : 0<w) (p q : Nat) :
    bitAt (bitSet b p) q=(bitAt b q || decide (p=q)) := by
  unfold bitAt bitSet
  by_cases hd : p/w=q/w
  . rw [hd,update_self,getLsbD_or_twoPow _ (Nat.mod_lt p hw)]
    congr 1
    by_cases hm : p%w=q%w
    . simp [div_mod_inj hd hm]
    have hne : p≠q := fun h => hm (by rw [h])
    simp [hm,hne]
  have hne : p≠q := fun h => hd (by rw [h])
  rw [update_of_ne (fun h => hd h.symm)]
  simp [hne]

lemma bitAt_clear (b : Nat → BitVec w) (p q : Nat) :
    bitAt (bitClear b p) q=(bitAt b q && decide (p≠q)) := by
  unfold bitAt bitClear
  by_cases hd : p/w=q/w
  . rw [hd,update_self,getLsbD_clear_twoPow]
    congr 1
    by_cases hm : p%w=q%w
    . simp [div_mod_inj hd hm]
    have hne : p≠q := fun h => hm (by rw [h])
    simp [hm,hne]
  have hne : p≠q := fun h => hd (by rw [h])
  rw [update_of_ne (fun h => hd h.symm)]
  simp [hne]

/-- The first word that is not zero gives the first set bit. -/
def firstBit (b : Nat → BitVec w) (size : Nat) : Option Nat :=
  ((List.range size).find? fun i => decide (b i≠0)).map fun i => trailingOne (b i)+w*i

lemma firstBit_some {b : Nat → BitVec w} {size p : Nat} (h : firstBit b size=some p) :
    p<w*size ∧ bitAt b p=true ∧ ∀ q<p, bitAt b q=false := by
  obtain ⟨i,hi,rfl⟩ := Option.map_eq_some_iff.mp h
  obtain ⟨hne,hsize,hmin⟩ := List.find?_range_eq_some.mp hi
  obtain ⟨hlt,hbit,hlow⟩ := trailingOne_spec (decide_eq_true_eq.mp hne)
  have hdiv : (trailingOne (b i)+w*i)/w=i := by
    rw [Nat.add_mul_div_left _ _ (by omega),Nat.div_eq_of_lt hlt,Nat.zero_add]
  have hmod : (trailingOne (b i)+w*i)%w=trailingOne (b i) := by
    rw [Nat.add_mul_mod_self_left,Nat.mod_eq_of_lt hlt]
  refine ⟨?_,?_,?_⟩
  . have hsucc : w*(i+1)≤w*size := Nat.mul_le_mul_left w (mem_range.mp hsize)
    rw [Nat.mul_succ] at hsucc
    omega
  . rw [bitAt,hdiv,hmod,hbit]
  intro q hq
  have hle : q/w ≤ i := hdiv ▸ Nat.div_le_div_right hq.le
  rcases hle.lt_or_eq with hword | hword
  . -- an earlier word is zero
    have hzero : b (q/w)=0 := by simpa using hmin _ hword
    simp [bitAt,hzero]
  rw [bitAt,hword]
  apply hlow
  have hq' := Nat.div_add_mod q w
  rw [hword] at hq'
  omega

lemma firstBit_none {b : Nat → BitVec w} {size : Nat} (h : firstBit b size=none) :
    ∀ q<w*size, bitAt b q=false := by
  intro q hq
  have hnone := Option.map_eq_none_iff.mp h
  rw [List.find?_eq_none] at hnone
  have hzero := hnone (q/w) (mem_range.mpr (Nat.div_lt_of_lt_mul hq))
  have hzero' : b (q/w)=0 := by simpa using hzero
  simp [bitAt,hzero']

end UniProton.Framework
