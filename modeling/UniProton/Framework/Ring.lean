import Mathlib

namespace UniProton.Framework.Ring

open Function List

variable {α β : Type*} {holds : α → β → Prop} {free : α → Prop} {n head tail i j : Nat}
  {f : Nat → α} {a : α} {b : β} {l : List β}

/-- The index `j` places behind `head` in a ring of `n`, for `head < n` and `j ≤ n`. -/
def slot (n head j : Nat) : Nat := if head+j<n then head+j else head+j-n

def next (n i : Nat) : Nat := if i+1=n then 0 else i+1

def prev (n i : Nat) : Nat := (if i=0 then n else i)-1

lemma slot_lt (hh : head<n) (hj : j≤n) : slot n head j<n := by
  unfold slot
  split <;> omega

lemma slot_inj (hi : i<n) (hj : j<n) (h : slot n head i=slot n head j) : i=j := by
  unfold slot at h
  split at h <;> split at h <;> omega

lemma slot_zero (hh : head<n) : slot n head 0=head := by
  unfold slot
  split <;> omega

lemma slot_eq_mod (hh : head<n) (hj : j≤n) : slot n head j=(head+j)%n := by
  unfold slot
  split
  . next h => exact (Nat.mod_eq_of_lt h).symm
  rw [Nat.mod_eq_sub_mod (by omega),Nat.mod_eq_of_lt (by omega)]

lemma next_slot (hh : head<n) (hj : j<n) : next n (slot n head j)=slot n head (j+1) := by
  unfold next slot
  split <;> split <;> split <;> omega

lemma slot_next (hj : j<n) : slot n (next n head) j=slot n head (j+1) := by
  unfold next slot
  split <;> split <;> split <;> omega

lemma slot_prev (hh : head<n) (hj : j<n) : slot n (prev n head) (j+1)=slot n head j := by
  unfold prev slot
  split <;> split <;> split <;> omega

lemma prev_lt (hh : head<n) : prev n head<n := by
  unfold prev
  split <;> omega

lemma next_lt (hh : head<n) : next n head<n := by
  unfold next
  split <;> omega

/-- The places from `head` on hold the list, and the others are free. -/
structure Shows (holds : α → β → Prop) (free : α → Prop) (n : Nat) (f : Nat → α)
    (head tail : Nat) (l : List β) : Prop where
  head_lt : head<n
  fits : l.length≤n
  tail_eq : tail=slot n head l.length
  full : ∀ j b, l[j]? = some b → holds (f (slot n head j)) b
  rest : ∀ j, l.length≤j → j<n → free (f (slot n head j))

namespace Shows

lemma empty (hn : 0<n) (hf : ∀ j, free (f j)) : Shows holds free n f 0 0 [] where
  head_lt := hn
  fits := Nat.zero_le _
  tail_eq := (slot_zero hn).symm
  full := nofun
  rest _ _ _ := hf _

lemma pushBack (h : Shows holds free n f head tail l) (hl : l.length<n) (ha : holds a b) :
    Shows holds free n (update f tail a) head (next n tail) (l++[b]) := by
  have hne {j : Nat} (hj : j<n) (hjl : j≠l.length) : slot n head j≠tail := by
    rw [h.tail_eq]
    exact fun he => hjl (slot_inj hj hl he)
  refine ⟨h.head_lt,?_,?_,fun j c hc => ?_,fun j hle hj => ?_⟩
  . rw [length_append,length_singleton]
    omega
  . rw [h.tail_eq,next_slot h.head_lt hl,length_append,length_singleton]
  . rcases Nat.lt_trichotomy j l.length with hj | rfl | hj
    . rw [getElem?_append_left hj] at hc
      rw [update_of_ne (hne (by omega) (by omega))]
      exact h.full j c hc
    . rw [getElem?_concat_length] at hc
      cases hc
      rw [← h.tail_eq,update_self]
      exact ha
    rw [getElem?_eq_none (by rw [length_append,length_singleton]; omega)] at hc
    cases hc
  rw [length_append,length_singleton] at hle
  rw [update_of_ne (hne hj (by omega))]
  exact h.rest j (by omega) hj

lemma pushFront (h : Shows holds free n f head tail l) (hl : l.length<n) (ha : holds a b) :
    Shows holds free n (update f (prev n head) a) (prev n head) tail (b::l) := by
  have hp := prev_lt h.head_lt
  have hne {j : Nat} (hj : j+1<n) : slot n head j≠prev n head := by
    rw [← slot_prev h.head_lt (by omega)]
    intro he
    have hz := slot_zero hp
    have := slot_inj hj (by omega) (he.trans hz.symm)
    omega
  refine ⟨hp,hl,?_,fun j c hc => ?_,fun j hle hj => ?_⟩
  . rw [h.tail_eq,length_cons,slot_prev h.head_lt hl]
  . cases j with
    | zero =>
      cases hc
      rw [slot_zero hp,update_self]
      exact ha
    | succ j =>
      have hj : j<l.length := by
        by_contra hge
        rw [getElem?_cons_succ,getElem?_eq_none (by omega)] at hc
        cases hc
      rw [slot_prev h.head_lt (by omega),update_of_ne (hne (by omega))]
      exact h.full j c hc
  cases j with
  | zero => cases hle
  | succ j =>
    rw [slot_prev h.head_lt (by omega),update_of_ne (hne hj)]
    exact h.rest j (by simpa using hle) (by omega)

lemma front (h : Shows holds free n f head tail (b::l)) : holds (f head) b := by
  rw [← slot_zero h.head_lt]
  exact h.full 0 b rfl

lemma popFront (h : Shows holds free n f head tail (b::l)) (ha : free a) :
    Shows holds free n (update f head a) (next n head) tail l := by
  have hfits : l.length+1≤n := h.fits
  have hne {j : Nat} (hj : j+1<n) : slot n head (j+1)≠head := by
    intro he
    have := slot_inj hj (by omega) (he.trans (slot_zero h.head_lt).symm)
    omega
  refine ⟨next_lt h.head_lt,by omega,?_,fun j c hc => ?_,fun j hle hj => ?_⟩
  . rw [h.tail_eq,length_cons,slot_next (by omega)]
  . have hj : j<l.length := by
      by_contra hge
      rw [getElem?_eq_none (by omega)] at hc
      cases hc
    rw [slot_next (by omega),update_of_ne (hne (by omega))]
    exact h.full (j+1) c hc
  rw [slot_next hj]
  rcases Nat.lt_or_ge (j+1) n with hlt | hge
  . rw [update_of_ne (hne hlt)]
    exact h.rest (j+1) (by rw [length_cons]; omega) hlt
  -- the place in front of the new head is the one that was given up
  obtain rfl : n=j+1 := by omega
  have hlast : slot (j+1) head (j+1)=head := by
    unfold slot
    split <;> omega
  rw [hlast,update_self]
  exact ha

lemma length_eq (h : Shows holds free n f head tail l) (hl : l≠[]) :
    (if head<tail then tail-head else n-head+tail)=l.length := by
  have hpos : 0<l.length := length_pos_iff.mpr hl
  have hh := h.head_lt
  have hf := h.fits
  rw [h.tail_eq]
  unfold slot
  split <;> split <;> omega

lemma slots_perm (h : Shows holds free n f head tail l) :
    (range n).Perm ((range n).map (slot n head)) := by
  have hnd : ((range n).map (slot n head)).Nodup := by
    refine .map_on (fun i hi j hj he => ?_) nodup_range
    exact slot_inj (mem_range.mp hi) (mem_range.mp hj) he
  have hsub : (range n).map (slot n head) ⊆ range n := by
    intro i hi
    obtain ⟨j,hj,rfl⟩ := mem_map.mp hi
    exact mem_range.mpr (slot_lt h.head_lt (Nat.le_of_lt (mem_range.mp hj)))
  exact ((subperm_of_subset hnd hsub).perm_of_length_le (by simp)).symm

lemma countP_range (h : Shows holds free n f head tail l) {p : α → Bool} {r : β → Bool}
    (hp : ∀ a, ∀ b∈l, holds a b → p a=r b) (hf : ∀ a, free a → p a=false) :
    (range n).countP (fun i => p (f i))=l.countP r := by
  obtain ⟨m,rfl⟩ := Nat.exists_eq_add_of_le h.fits
  have hfull : (range l.length).map (fun j => p (f (slot (l.length+m) head j)))=l.map r := by
    apply ext_getElem
    . simp
    intro j hj _
    have hjl : j<l.length := by simpa using hj
    simp only [getElem_map,getElem_range]
    exact hp _ _ (getElem_mem hjl) (h.full j _ (getElem?_eq_getElem hjl))
  have hrest : ((range m).map (l.length + ·)).countP
      (fun j => p (f (slot (l.length+m) head j)))=0 := by
    rw [countP_eq_zero]
    intro j hj
    obtain ⟨i,hi,rfl⟩ := mem_map.mp hj
    have := mem_range.mp hi
    rw [hf _ (h.rest _ (Nat.le_add_right _ _) (by omega))]
    nofun
  calc (range (l.length+m)).countP (fun i => p (f i))
      = (range (l.length+m)).countP (fun j => p (f (slot (l.length+m) head j))) := by
        rw [h.slots_perm.countP_eq,countP_map]
        rfl
    _ = ((range l.length).map (fun j => p (f (slot (l.length+m) head j)))).countP id := by
        rw [range_add,countP_append,hrest,Nat.add_zero,countP_map]
        rfl
    _ = l.countP r := by
        rw [hfull,countP_map]
        rfl

end Shows

def copyIn (f : Nat → α) : Nat → List α → Nat → α
  | _, [] => f
  | i, a::as => copyIn (update f i a) (i+1) as

def copyOut (f : Nat → α) : Nat → Nat → List α
  | _, 0 => []
  | i, k+1 => f i::copyOut f (i+1) k

/-- The place behind a block; behind the last one comes the first. -/
def turn (n i : Nat) : Nat := if i=n then 0 else i

/-- The places from `head` on are the list. -/
abbrev Is (n : Nat) (f : Nat → α) (head tail : Nat) (l : List α) : Prop :=
  Shows (· = ·) (fun _ => True) n f head tail l

lemma Shows.copyIn {m l : List α} (h : Is n f head tail l) (hl : l.length+m.length≤n)
    (ht : tail+m.length≤n) : Is n (copyIn f tail m) head (turn n (tail+m.length)) (l++m) := by
  induction m generalizing f tail l with
  | nil =>
    have hlt : tail<n := h.tail_eq ▸ slot_lt h.head_lt h.fits
    simpa [Ring.copyIn,turn,Nat.ne_of_lt hlt] using h
  | cons a m ih =>
    simp only [length_cons] at hl ht
    have hpush := h.pushBack (by omega) (rfl : a=a)
    cases m with
    | nil => exact hpush
    | cons b bs =>
      have hnext : next n tail=tail+1 := if_neg (by simp at ht; omega)
      rw [hnext] at hpush
      have hih := ih hpush (by simp at hl ⊢; omega) (by omega)
      rw [append_assoc,singleton_append,Nat.add_right_comm] at hih
      exact hih

lemma Shows.copyOut {as l : List α} (h : Is n f head tail (as++l)) (hh : head+as.length≤n) :
    copyOut f head as.length=as ∧ Is n f (turn n (head+as.length)) tail l := by
  induction as generalizing head with
  | nil =>
    have hlt := h.head_lt
    simpa [Ring.copyOut,turn,Nat.ne_of_lt hlt] using h
  | cons a as ih =>
    simp only [length_cons] at hh
    have hpop := h.popFront (a:=f head) trivial
    rw [update_eq_self] at hpop
    have hfront : f head=a := h.front
    cases as with
    | nil => exact ⟨by rw [← hfront]; rfl,hpop⟩
    | cons b bs =>
      have hnext : next n head=head+1 := if_neg (by simp at hh; omega)
      rw [hnext] at hpop
      obtain ⟨hout,hih⟩ := ih hpop (by omega)
      rw [Nat.add_right_comm] at hih
      exact ⟨by rw [← hfront]; exact congrArg (f head :: ·) hout,hih⟩

/-- A block that is copied in two parts, up to the last place and from the first one on. -/
lemma Shows.wrapIn {m l : List α} (h : Is n f head tail l) (hl : l.length+m.length≤n) :
    let k := min m.length (n-tail)
    ∃ t, Is n (Ring.copyIn (Ring.copyIn f tail (m.take k)) 0 (m.drop k)) head t (l++m) := by
  intro k
  have hlt : tail<n := h.tail_eq ▸ slot_lt h.head_lt h.fits
  have hk : (m.take k).length=k := by
    rw [length_take]
    omega
  have h1 := h.copyIn (m:=m.take k) (by omega) (by omega)
  rcases Nat.le_total m.length (n-tail) with hle | hle
  . have hall : k=m.length := Nat.min_eq_left hle
    rw [hall,take_length] at h1 ⊢
    rw [drop_length]
    exact ⟨_,h1⟩
  have hwrap : turn n (tail+(m.take k).length)=0 := if_pos (by omega)
  rw [hwrap] at h1
  have h2 := h1.copyIn (m:=m.drop k) (by simp only [length_append,length_drop]; omega)
    (by rw [length_drop]; omega)
  rw [append_assoc,take_append_drop] at h2
  exact ⟨_,h2⟩

lemma Shows.wrapOut {m l : List α} (h : Is n f head tail (m++l)) :
    let k := min m.length (n-head)
    Ring.copyOut f head k++Ring.copyOut f 0 (m.length-k)=m ∧
      Is n f (slot n head m.length) tail l := by
  intro k
  have hlt := h.head_lt
  have hfits := h.fits
  rw [length_append] at hfits
  have hk : (m.take k).length=k := by
    rw [length_take]
    omega
  have hsplit := h
  rw [← take_append_drop k m,append_assoc] at hsplit
  obtain ⟨hout,h1⟩ := hsplit.copyOut (by omega)
  rw [hk] at hout h1
  rw [hout]
  rcases Nat.lt_or_ge m.length (n-head) with hle | hle
  . have hall : k=m.length := Nat.min_eq_left (Nat.le_of_lt hle)
    rw [hall,drop_length,nil_append,turn,if_neg (by omega)] at h1
    rw [slot,if_pos (by omega),hall,Nat.sub_self,take_length]
    exact ⟨append_nil _,h1⟩
  have hall : k=n-head := Nat.min_eq_right hle
  rw [turn,if_pos (by omega)] at h1
  obtain ⟨hrest,h2⟩ := h1.copyOut (by rw [length_drop]; omega)
  rw [length_drop,Nat.zero_add,turn,if_neg (by omega)] at h2
  rw [length_drop] at hrest
  rw [hrest,take_append_drop,slot,if_neg (by omega),show head+m.length-n=m.length-k by omega]
  exact ⟨rfl,h2⟩

end UniProton.Framework.Ring
