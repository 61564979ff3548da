import UniProton.Mem.FscHeap

namespace UniProton

open Framework List

lemma osGetLmb1_from {v : BitVec 32} {idx : Nat} (hidx : idx≤31) (hlast : v.getMsbD 31=true) :
    idx≤osGetLmb1 (v <<< idx >>> idx) ∧ osGetLmb1 (v <<< idx >>> idx)≤31 ∧
      v.getMsbD (osGetLmb1 (v <<< idx >>> idx))=true ∧
      ∀ j, idx≤j → j<osGetLmb1 (v <<< idx >>> idx) → v.getMsbD j=false := by
  have hbit : ∀ j<32, (v <<< idx >>> idx).getMsbD j=(decide (idx≤j) && v.getMsbD j) := by
    intro j hj
    by_cases hij : idx≤j
    . have hsub : j-idx+idx=j := by omega
      have hlt : ¬j < idx := by omega
      simp [hij,hlt,hj,hsub]
    have hlt : j < idx := by omega
    simp [hij,hlt]
  have hne : v <<< idx >>> idx≠0 := by
    intro h0
    have := hbit 31 (by omega)
    rw [h0,hlast] at this
    simp at this
    omega
  obtain ⟨hlt,hset,hmin⟩ := leadingOne_spec hne
  unfold osGetLmb1
  generalize leadingOne (v <<< idx >>> idx)=k at *
  rw [hbit k hlt,Bool.and_eq_true,decide_eq_true_eq] at hset
  refine ⟨hset.1,by omega,hset.2,?_⟩
  intro j hij hjk
  have := hmin j hjk
  rw [hbit j (by omega)] at this
  simpa [hij] using this

namespace FscCfg

variable {c : FscCfg} {s : Fsc} {bs : List Blk} {fl : Nat → List Nat} {m : Memory}

lemma searchList_eq {size a z fuel : Nat} {l : List Nat}
    (h : Chained (c.get m .next) (c.get m .prev) a l z) (hz : z∉l) (hfuel : l.length<fuel) :
    c.searchList m size z fuel (c.get m .next a) =
      some ((l.find? fun x => decide (size≤c.get m .size x % 2^32)).getD 0) := by
  induction l generalizing a fuel with
  | nil =>
    obtain ⟨fuel,rfl⟩ : ∃ k, fuel=k+1 := ⟨fuel-1,by omega⟩
    simp [searchList,h.1]
  | cons y l ih =>
    obtain ⟨hy,-,hl⟩ := h
    simp only [length_cons] at hfuel
    simp only [mem_cons,not_or] at hz
    obtain ⟨fuel,rfl⟩ : ∃ k, fuel=k+1 := ⟨fuel-1,by omega⟩
    rw [hy,searchList,if_neg (Ne.symm hz.1)]
    by_cases hsize : size≤c.get m .size y % 2^32
    . simp only [if_pos hsize,List.find?_cons,decide_eq_true hsize,Option.getD_some]
    rw [if_neg hsize,ih hl hz.2 (by omega)]
    simp only [List.find?_cons,decide_eq_false hsize]

/-- Nothing but the bits of empty lists is given up, a found block is large enough and on its list,
and without one there is none. -/
structure SearchOk (c : FscCfg) (s : Fsc) (bs : List Blk) (fl : Nat → List Nat) (size : Nat)
    (r : Found) : Prop where
  heap : ∃ bitMap, r.heap={s with fscMemBitMap:=bitMap}
  cleared : ∀ i<32, s.fscMemBitMap.getMsbD i=true → r.heap.fscMemBitMap.getMsbD i=false →
    i<osFscMemLastIdx ∧ fl i=[]
  unset : ∀ i<32, r.heap.fscMemBitMap.getMsbD i=true → s.fscMemBitMap.getMsbD i=true
  found : r.blk≠0 → r.blk∈fl r.idx ∧ ∃ b∈bs, b.addr=r.blk ∧ b.kind=.free r.idx ∧ size≤b.size
  none : r.blk=0 → ∀ b∈bs, b.kind≠.used → b.size<size
  indexed : ∀ i∈r.indexed, i<osFscMemLastIdx

lemma SearchOk.heapOk {size : Nat} {r : Found} (h : c.HeapOk s bs fl)
    (hr : c.SearchOk s bs fl size r) : c.HeapOk r.heap bs fl := by
  obtain ⟨bitMap,hheap⟩ := hr.heap
  have hc := hr.cleared
  rw [hheap] at hc ⊢
  refine {h with bits := ?_, last := ?_}
  . intro b hb i hk
    have hi := h.rep.idx b hb i hk
    by_contra hbit
    obtain ⟨-,hnil⟩ := hc i (by omega) (h.bits b hb i hk) (by simpa using hbit)
    have hmem := (h.rep.listed i hi b.addr).mpr ⟨b,hb,rfl,hk⟩
    simp [hnil] at hmem
  by_contra hbit
  have := (hc osFscMemLastIdx (by decide) h.last (by simpa using hbit)).1
  omega

/-- A block of the list `i` is at least as large as its class, so it serves every request of a
lower class. -/
lemma HeapOk.class_le (h : c.HeapOk s bs fl) {b : Blk} (hb : b∈bs) {i : Nat}
    (hk : b.kind=.free i) : i=Nat.log2 b.size ∧ 2^i≤b.size := by
  have hw := c.word_pos
  have hb0 := (h.rep.fits b hb).1
  rcases h.kinds b hb with hu | hf
  . simp [hk] at hu
  rw [hk] at hf
  simp only [BlkKind.free.injEq] at hf
  exact ⟨hf,hf ▸ Nat.log2_self_le (by omega)⟩

lemma HeapOk.own_class (h : c.HeapOk s bs fl) {size sta : Nat} (hsta : sta<31)
    (hle : 2^sta ≤ size ∨ sta=0) (hhigh : ∀ b∈bs, ∀ j, b.kind=.free j → ¬sta<j) {blk : Nat}
    (hblk : blk=((fl sta).find? fun x => decide (size≤c.get s.mem .size x % 2^32)).getD 0) :
    (blk≠0 → blk∈fl sta ∧ ∃ b∈bs, b.addr=blk ∧ b.kind=.free sta ∧ size≤b.size) ∧
      (blk=0 → ∀ b∈bs, b.kind≠.used → b.size<size) := by
  have hread : ∀ b∈bs, b.kind=.free sta → c.get s.mem .size b.addr % 2^32=b.size := by
    intro b hb hk
    have := h.size_lt hb
    rw [h.rep.size b hb (by simp [hk]),Nat.mod_eq_of_lt (by omega)]
  subst hblk
  cases hfind : (fl sta).find? fun x => decide (size≤c.get s.mem .size x % 2^32) with
  | some x =>
    have hx := mem_of_find?_eq_some hfind
    have hsz := List.find?_some hfind
    obtain ⟨b,hb,rfl,hk⟩ := (h.rep.listed sta hsta x).mp hx
    simp only [hread b hb hk,decide_eq_true_eq] at hsz
    refine ⟨fun _ => ⟨hx,b,hb,rfl,hk,hsz⟩,fun h0 => ?_⟩
    have := h.rep.tiled.bounds hb
    have := h.rep.room.pos
    simp only [Option.getD_some] at h0
    omega
  | none =>
    refine ⟨fun h0 => absurd rfl h0,fun _ b hb hu => ?_⟩
    have hk := (h.kinds b hb).resolve_left hu
    have hnot := hhigh b hb _ hk
    by_contra hlt
    have heq : Nat.log2 b.size=sta := by
      rcases hle with hle | rfl
      . have hb0 : b.size≠0 := by
          have := Nat.two_pow_pos sta
          omega
        have : sta≤Nat.log2 b.size := (Nat.le_log2 hb0).mpr (by omega)
        omega
      omega
    rw [heq] at hk
    have hmem := (h.rep.listed sta hsta b.addr).mpr ⟨b,hb,rfl,hk⟩
    have := List.find?_eq_none.mp hfind b.addr hmem
    simp only [hread b hb hk,decide_eq_true_eq] at this
    omega

lemma last_kept (h : c.HeapOk s bs fl) {bitMap : BitVec 32}
    (hcl : ∀ i<32, s.fscMemBitMap.getMsbD i=true → bitMap.getMsbD i=false →
      i<osFscMemLastIdx ∧ fl i=[]) : bitMap.getMsbD osFscMemLastIdx=true := by
  by_contra hbit
  have := (hcl osFscMemLastIdx (by decide) h.last (by simpa using hbit)).1
  omega

/-- `n` bounds the rounds left; the bits between the class and `low` are off. -/
lemma searchFrom_ok (h : c.HeapOk s bs fl) {size sta : Nat} (hsta : sta<31)
    (hle : 2^sta ≤ size ∨ sta=0) (hlt : size<2 ^ (sta+1)) {n : Nat} :
    ∀ (bitMap : BitVec 32) (idx low : Nat) (seen : List Nat),
      (∀ i<32, s.fscMemBitMap.getMsbD i=true → bitMap.getMsbD i=false →
        i<osFscMemLastIdx ∧ fl i=[]) →
      (∀ i<32, bitMap.getMsbD i=true → s.fscMemBitMap.getMsbD i=true) →
      sta < idx → idx≤low → idx≤31 → 32-low≤n → (∀ j, sta<j → j<low → bitMap.getMsbD j=false) →
      (∀ i∈seen, i<osFscMemLastIdx) →
      ∃ r, c.SearchOk s bs fl size r ∧ ∀ fuel, n+(fl sta).length+1<fuel →
        c.searchFrom size sta fuel {s with fscMemBitMap:=bitMap} idx seen=some r := by
  induction n with
  | zero =>
    intro bitMap idx low seen hcl hun hidx hlow h31 hn hoff hseen
    have hlast : bitMap.getMsbD 31=true := last_kept h hcl
    obtain ⟨hik,hk31,hkbit,-⟩ := osGetLmb1_from h31 hlast
    have := hoff (osGetLmb1 (bitMap <<< idx >>> idx)) (by omega) (by omega)
    rw [hkbit] at this
    simp at this
  | succ n ih =>
    intro bitMap idx low seen hcl hun hidx hlow h31 hn hoff hseen
    have hlast : bitMap.getMsbD 31=true := last_kept h hcl
    obtain ⟨hik,hk31,hkbit,hkmin⟩ := osGetLmb1_from h31 hlast
    generalize hkdef : osGetLmb1 (bitMap <<< idx >>> idx)=k at hik hk31 hkbit hkmin
    have hlowk : low≤k := by
      by_contra hlt
      have := hoff k (by omega) (by omega)
      simp [hkbit] at this
    have hoff' : ∀ j, sta<j → j<k → bitMap.getMsbD j=false := by
      intro j hj hjk
      by_cases hjl : j<low
      . exact hoff j hj hjl
      exact hkmin j (by omega) hjk
    by_cases hk : osFscMemLastIdx≤k
    . -- only the sentinel bit is left: the request's own list is searched
      have hhigh : ∀ b∈bs, ∀ j, b.kind=.free j → ¬sta<j := by
        intro b hb j hbk hj
        have hj31 := h.rep.idx b hb j hbk
        have hjk : j<k := by unfold osFscMemLastIdx at hk; omega
        obtain ⟨-,hnil⟩ := hcl j (by omega) (h.bits b hb j hbk) (hoff' j hj hjk)
        have := (h.rep.listed j hj31 b.addr).mpr ⟨b,hb,rfl,hbk⟩
        simp [hnil] at this
      obtain ⟨hfound,hnone⟩ := h.own_class hsta hle hhigh rfl
      refine ⟨{ heap := {s with fscMemBitMap:=bitMap}, blk := _, idx := sta,
                indexed := sta::seen },
        { heap := ⟨bitMap,rfl⟩, cleared := hcl, unset := hun, found := hfound, none := hnone,
          indexed := ?_ },?_⟩
      . intro i hi
        rcases mem_cons.mp hi with rfl | hi
        . exact hsta
        exact hseen i hi
      intro fuel hfuel
      obtain ⟨fuel,rfl⟩ : ∃ f, fuel=f+1 := ⟨fuel-1,by omega⟩
      have hring := h.rep.ring sta hsta
      rw [searchFrom]
      simp only [hkdef,if_pos hk]
      rw [searchList_eq hring.chained (nodup_cons.mp hring.nodup).1 (by omega)]
      rfl
    have hk31' : k<31 := by unfold osFscMemLastIdx at hk; omega
    have hring := h.rep.ring k hk31'
    by_cases hnil : fl k=[]
    . -- a stale bit is cleared, and the search goes on behind it
      have hbits : ∀ i<32, (bitMap &&& ~~~ osFscMemIdx2bit k).getMsbD i=true ↔
          k≠i ∧ bitMap.getMsbD i=true := fun i hi =>
        PrioMap.getMsbD_and_not_msbBit bitMap k i (by omega) hi
      obtain ⟨r,hr,hrun⟩ := ih (bitMap &&& ~~~ osFscMemIdx2bit k) k (k+1) (k::seen) (by
          intro i hi hsi hbi
          by_cases hki : k=i
          . exact hki ▸ ⟨hk31',hnil⟩
          apply hcl i hi hsi
          by_contra hbit
          rw [(hbits i hi).mpr ⟨hki,by simpa using hbit⟩] at hbi
          simp at hbi)
        (fun i hi hbi => hun i hi ((hbits i hi).mp hbi).2) (by omega) (by omega) hk31 (by omega)
        (by
          intro j hj hjk
          by_contra hbit
          obtain ⟨hkj,hbj⟩ := (hbits j (by omega)).mp (by simpa using hbit)
          rw [hoff' j hj (by omega)] at hbj
          simp at hbj)
        (by
          intro i hi
          rcases mem_cons.mp hi with rfl | hi
          . exact hk31'
          exact hseen i hi)
      refine ⟨r,hr,?_⟩
      intro fuel hfuel
      obtain ⟨fuel,rfl⟩ : ∃ f, fuel=f+1 := ⟨fuel-1,by omega⟩
      rw [searchFrom]
      simp only [hkdef,if_neg hk,if_pos (hring.nil_iff.mpr hnil)]
      exact hrun fuel (by omega)
    obtain ⟨x,l,hl⟩ := exists_cons_of_ne_nil hnil
    have hx : x∈fl k := by simp [hl]
    have hnext : c.get s.mem .next (c.head k)=x := by
      have := hring.chained
      rw [hl] at this
      exact this.1
    obtain ⟨b,hb,hba,hbk⟩ := (h.rep.listed k hk31' x).mp hx
    have hpow : 2 ^ (sta+1)≤2^k := Nat.pow_le_pow_right (by omega) (by omega)
    have hbk' := (h.class_le hb hbk).2
    refine ⟨{ heap := {s with fscMemBitMap:=bitMap}, blk := x, idx := k,
              indexed := k::seen },
      { heap := ⟨bitMap,rfl⟩, cleared := hcl, unset := hun,
        found := fun _ => ⟨hx,b,hb,hba,hbk,by omega⟩, none := ?_, indexed := ?_ },?_⟩
    . intro h0
      have := h.rep.tiled.bounds hb
      have := h.rep.room.pos
      dsimp only at h0
      omega
    . intro i hi
      rcases mem_cons.mp hi with rfl | hi
      . exact hk31'
      exact hseen i hi
    intro fuel hfuel
    obtain ⟨fuel,rfl⟩ : ∃ f, fuel=f+1 := ⟨fuel-1,by omega⟩
    rw [searchFrom]
    simp only [hkdef,if_neg hk]
    rw [if_neg (fun he => hnil (hring.nil_iff.mp he)),hnext]

lemma search_ok (h : c.HeapOk s bs fl) {size : Nat} (hsize : size<c.maxval) :
    ∃ r, c.SearchOk s bs fl size r ∧
      ∀ fuel, 33+(fl (Nat.log2 size)).length<fuel → c.osFscMemSearch s fuel size=some r := by
  have hlt : size<2^31 := by
    unfold maxval osFscMemLastIdx at hsize
    omega
  have hsz : osFscMemSz2idx size=Nat.log2 size := osFscMemSz2idx_eq (by omega)
  have hsta : Nat.log2 size<31 := by
    rcases Nat.eq_zero_or_pos size with rfl | hpos
    . decide
    exact (Nat.log2_lt (by omega)).mpr hlt
  have hle : 2^Nat.log2 size ≤ size ∨ Nat.log2 size=0 := by
    rcases Nat.eq_zero_or_pos size with rfl | hpos
    . exact .inr (by decide)
    exact .inl (Nat.log2_self_le (by omega))
  obtain ⟨r,hr,hrun⟩ := searchFrom_ok h hsta hle Nat.lt_log2_self (n:=32)
    s.fscMemBitMap (Nat.log2 size+1) (Nat.log2 size+1) []
    (fun i _ hset hoff => by simp [hset] at hoff) (fun _ _ hi => hi) (by omega) (by omega) (by omega)
    (by omega) (fun j _ _ => by omega) (by simp)
  refine ⟨r,hr,?_⟩
  intro fuel hfuel
  unfold osFscMemSearch
  simp only [hsz]
  exact hrun fuel (by omega)

end FscCfg

end UniProton
