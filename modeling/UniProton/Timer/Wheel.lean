import UniProton.Timer.Swtmr

namespace UniProton

open Framework Function

section Packed

variable (x : BitVec 32) {v : BitVec 32}

lemma toNat_uwRollNum : (uwRollNum x).toNat=x.toNat%2^26 := by
  exact Nat.and_two_pow_sub_one_eq_mod x.toNat 26

lemma toNat_uwSortIndex : (uwSortIndex x).toNat=x.toNat/2^26 := by
  unfold uwSortIndex
  rw [BitVec.toNat_ushiftRight,Nat.shiftRight_eq_div_pow]

private lemma toNat_and_high : (x &&& 0xfc000000#32).toNat=2^26*(x.toNat/2^26) := by
  have hmask : ∀ k : Fin 32, (0xfc000000#32).getLsbD k=decide (26≤k.val) := by decide
  have hx : x &&& 0xfc000000#32=x >>> 26 <<< 26 := by
    apply BitVec.eq_of_getLsbD_eq
    intro k hk
    rw [BitVec.getLsbD_and,hmask ⟨k,hk⟩,BitVec.getLsbD_shiftLeft,BitVec.getLsbD_ushiftRight]
    by_cases h : 26≤k
    . have hback : 26+(k-26)=k := by omega
      simp [h,hk,hback,Nat.not_lt.mpr h]
    simp [h,Nat.lt_of_not_le h]
  rw [hx,BitVec.toNat_shiftLeft,BitVec.toNat_ushiftRight,Nat.shiftRight_eq_div_pow,
    Nat.shiftLeft_eq,Nat.mod_eq_of_lt (by omega),Nat.mul_comm]

lemma toNat_evaluateL (hv : v.toNat<2^26) : (evaluateL x v).toNat=2^26*(x.toNat/2^26)+v.toNat := by
  unfold evaluateL
  rw [BitVec.toNat_or,toNat_and_high,← Nat.two_pow_add_eq_or_of_lt hv]

lemma toNat_evaluateH (hv : v.toNat<2^6) : (evaluateH x v).toNat=2^26*v.toNat+x.toNat%2^26 := by
  have hlow : x.toNat%2^26<2^26 := Nat.mod_lt _ (by decide)
  have hfit : v.toNat*2^26<2^32 := by omega
  have hx : (x &&& 0x03ffffff#32).toNat=x.toNat%2^26 := toNat_uwRollNum x
  unfold evaluateH
  rw [BitVec.toNat_or,hx,BitVec.toNat_shiftLeft,Nat.shiftLeft_eq,Nat.mod_eq_of_lt hfit,
    Nat.or_comm,Nat.mul_comm,← Nat.two_pow_add_eq_or_of_lt hlow]

lemma evaluateL_parts (hv : v.toNat<2^26) :
    uwRollNum (evaluateL x v)=v ∧ uwSortIndex (evaluateL x v)=uwSortIndex x := by
  constructor
  . apply BitVec.eq_of_toNat_eq
    rw [toNat_uwRollNum,toNat_evaluateL x hv]
    omega
  apply BitVec.eq_of_toNat_eq
  rw [toNat_uwSortIndex,toNat_uwSortIndex,toNat_evaluateL x hv]
  omega

lemma evaluateH_parts (hv : v.toNat<2^6) :
    uwRollNum (evaluateH x v)=uwRollNum x ∧ uwSortIndex (evaluateH x v)=v := by
  constructor
  . apply BitVec.eq_of_toNat_eq
    rw [toNat_uwRollNum,toNat_uwRollNum,toNat_evaluateH x hv]
    omega
  apply BitVec.eq_of_toNat_eq
  rw [toNat_uwSortIndex,toNat_evaluateH x hv]
  omega

lemma uwRollNumSub_parts (y : BitVec 32) (h : (uwRollNum y).toNat≤(uwRollNum x).toNat) :
    (uwRollNum (uwRollNumSub x y)).toNat=(uwRollNum x).toNat-(uwRollNum y).toNat ∧
      uwSortIndex (uwRollNumSub x y)=uwSortIndex x := by
  have hx : (uwRollNum x).toNat<2^26 := by
    rw [toNat_uwRollNum]
    exact Nat.mod_lt _ (by decide)
  have hsub : (uwRollNum x-uwRollNum y).toNat=(uwRollNum x).toNat-(uwRollNum y).toNat :=
    BitVec.toNat_sub_of_le (BitVec.le_def.mpr h)
  obtain ⟨hroll,hslot⟩ := evaluateL_parts x (v:=uwRollNum x-uwRollNum y) (by omega)
  exact ⟨(congrArg BitVec.toNat hroll).trans hsub,hslot⟩

lemma uwRollNumAdd_parts (y : BitVec 32) (h : (uwRollNum x).toNat+(uwRollNum y).toNat<2^26) :
    (uwRollNum (uwRollNumAdd x y)).toNat=(uwRollNum x).toNat+(uwRollNum y).toNat ∧
      uwSortIndex (uwRollNumAdd x y)=uwSortIndex x := by
  have hadd : (uwRollNum x+uwRollNum y).toNat=(uwRollNum x).toNat+(uwRollNum y).toNat := by
    exact Nat.mod_eq_of_lt (by omega)
  obtain ⟨hroll,hslot⟩ := evaluateL_parts x (v:=uwRollNum x+uwRollNum y) (by omega)
  exact ⟨(congrArg BitVec.toNat hroll).trans hadd,hslot⟩

lemma uwRollNumDec_parts (h : 0<(uwRollNum x).toNat) :
    (uwRollNum (uwRollNumDec x)).toNat=(uwRollNum x).toNat-1 ∧
      uwSortIndex (uwRollNumDec x)=uwSortIndex x := by
  rw [toNat_uwRollNum] at h
  have hdec : (uwRollNumDec x).toNat=x.toNat-1 := by
    unfold uwRollNumDec
    rw [BitVec.toNat_sub_of_le (BitVec.le_def.mpr (by change 1≤x.toNat; omega))]
    rfl
  constructor
  . rw [toNat_uwRollNum,toNat_uwRollNum,hdec]
    omega
  apply BitVec.eq_of_toNat_eq
  rw [toNat_uwSortIndex,toNat_uwSortIndex,hdec]
  omega

end Packed

namespace SwTmrs

def gap (cb : Nat → SwTmrCtrl) (i : Nat) : Nat := (uwRollNum (cb i).idxRollNum).toNat

def slot (cb : Nat → SwTmrCtrl) (i : Nat) : Nat := (uwSortIndex (cb i).idxRollNum).toNat

lemma slot_lt (cb : Nat → SwTmrCtrl) (i : Nat) : slot cb i<64 := by
  unfold slot
  rw [toNat_uwSortIndex]
  omega

/-- Scans until the cursor meets the slot. -/
def ahead (cursor slot : Nat) : Nat := if slot≤cursor then slot+64-cursor else slot-cursor

/-- Scans until a running timer expires. -/
def remain (t : SwTmrs) (i : Nat) : Nat :=
  64 * Delta.due (gap t.cb) (t.sortLink (slot t.cb i)) i+ahead t.cursor (slot t.cb i)

def Rerolled (cb cb' : Nat → SwTmrCtrl) : Prop :=
  ∀ j, ∃ v, cb' j={cb j with idxRollNum:=v} ∧ slot cb' j=slot cb j

namespace Rerolled

variable {cb cb' cb'' : Nat → SwTmrCtrl}

lemma refl : Rerolled cb cb := fun j => ⟨(cb j).idxRollNum,rfl,rfl⟩

lemma trans (h : Rerolled cb cb') (h' : Rerolled cb' cb'') : Rerolled cb cb'' := by
  intro j
  obtain ⟨v,hv,hs⟩ := h j
  obtain ⟨v',hv',hs'⟩ := h' j
  exact ⟨v',by rw [hv',hv],hs'.trans hs⟩

lemma update {i : Nat} {v : BitVec 32} (hv : uwSortIndex v=uwSortIndex (cb i).idxRollNum) :
    Rerolled cb (update cb i {cb i with idxRollNum:=v}) := by
  intro j
  by_cases hj : j=i
  . subst hj
    exact ⟨v,by simp,by simp [slot,hv]⟩
  exact ⟨(cb j).idxRollNum,by simp [hj],by simp [slot,hj]⟩

end Rerolled

lemma gap_update (cb : Nat → SwTmrCtrl) (i : Nat) (s : SwTmrCtrl) :
    gap (update cb i s)=update (gap cb) i (uwRollNum s.idxRollNum).toNat := by
  funext j
  by_cases hj : j=i
  . subst hj
    simp [gap]
  simp [gap,hj]

section Insert

variable {b : Nat → SwTmrCtrl} {i : Nat} {l : List Nat}

lemma sortLinkInsert_rerolled : Rerolled b (sortLinkInsert b i l).1 := by
  induction l generalizing b with
  | nil => exact Rerolled.refl
  | cons temp l ih =>
    unfold sortLinkInsert
    split
    . rename_i hlt
      exact Rerolled.update (uwRollNumSub_parts _ _ (Nat.le_of_lt hlt)).2
    rename_i hge
    exact (Rerolled.update (uwRollNumSub_parts _ _ (Nat.le_of_not_lt hge)).2).trans ih

lemma sortLinkInsert_place : gap (sortLinkInsert b i l).1=(Delta.place (gap b) i l).1 ∧
      (sortLinkInsert b i l).2=(Delta.place (gap b) i l).2 := by
  induction l generalizing b with
  | nil => exact ⟨rfl,rfl⟩
  | cons temp l ih =>
    by_cases hlt : uwRollNum (b i).idxRollNum<uwRollNum (b temp).idxRollNum
    . have hgap : gap b i<gap b temp := hlt
      have hsub := (uwRollNumSub_parts _ _ (Nat.le_of_lt hgap)).1
      simp only [sortLinkInsert,Delta.place,if_pos hlt,if_pos hgap,gap_update,hsub,and_true]
      rfl
    have hgap : ¬gap b i<gap b temp := hlt
    have hsub := (uwRollNumSub_parts _ _ (Nat.le_of_not_lt hgap)).1
    have hrest := ih (b:=update b i { b i with
      idxRollNum := uwRollNumSub (b i).idxRollNum (b temp).idxRollNum })
    rw [gap_update,hsub] at hrest
    simp only [sortLinkInsert,Delta.place,if_neg hlt,if_neg hgap]
    exact ⟨hrest.1,congrArg (temp :: ·) hrest.2⟩

lemma sortLinkInsert_of_notMem {j : Nat} (hi : j≠i) (hj : j∉l) :
    (sortLinkInsert b i l).1 j=b j := by
  induction l generalizing b with
  | nil => rfl
  | cons temp l ih =>
    have hne : j≠temp := (ne_of_mem_of_not_mem List.mem_cons_self hj).symm
    unfold sortLinkInsert
    split
    . exact update_of_ne hne _ _
    exact (ih fun h => hj (List.mem_cons_of_mem temp h)).trans (update_of_ne hi _ _)

end Insert

end SwTmrs

end UniProton
