import UniProton.Mem.FscMoves

namespace UniProton

open Framework Function List

lemma osFscMemSz2idx_eq {size : Nat} (hs : size<2^32) : osFscMemSz2idx size=Nat.log2 size := by
  rcases Nat.eq_zero_or_pos size with rfl | hpos
  . decide +kernel
  have hv : BitVec.ofNat 32 size≠0 := by
    intro h
    have := congrArg BitVec.toNat h
    simp at this
    omega
  obtain ⟨hlt,hbit,hmin⟩ := leadingOne_spec hv
  unfold osFscMemSz2idx osGetLmb1
  generalize leadingOne (BitVec.ofNat 32 size)=k at *
  have htest : ∀ j<32, (BitVec.ofNat 32 size).getMsbD j=size.testBit (31-j) := by
    intro j hj
    simp only [BitVec.getMsbD,BitVec.getLsbD_ofNat,hj,decide_true,Bool.true_and]
    simp
    omega
  symm
  rw [Nat.log2_eq_iff (by omega)]
  constructor
  . rw [htest k hlt] at hbit
    exact Nat.ge_two_pow_of_testBit hbit
  apply Nat.lt_pow_two_of_testBit
  intro j hj
  by_cases hj32 : j<32
  . have := hmin (31-j) (by omega)
    rw [htest _ (by omega)] at this
    rwa [show 31-(31-j)=j by omega] at this
  exact Nat.testBit_lt_two_pow (Nat.lt_of_lt_of_le hs (Nat.pow_le_pow_right (by omega) (by omega)))

/-- What the block behind finds in its `prevSize`. -/
def Blk.back (b : Blk) : Nat :=
  match b.kind with
  | .free _ => b.size
  | _ => 0

def usedBlks (l : List Blk) : List Blk := l.filter fun b => b.kind=.used

def usedSize (l : List Blk) : Nat := ((usedBlks l).map Blk.size).sum

lemma mem_usedBlks {b : Blk} {l : List Blk} : b∈usedBlks l ↔ b∈l ∧ b.kind=.used := by
  simp [usedBlks]

@[simp] lemma usedBlks_append (l1 l2 : List Blk) :
    usedBlks (l1++l2)=usedBlks l1++usedBlks l2 := filter_append ..

lemma usedBlks_cons (b : Blk) (l : List Blk) :
    usedBlks (b::l) = if b.kind=.used then b::usedBlks l else usedBlks l := by
  by_cases hb : b.kind=.used <;> simp [usedBlks,hb]

namespace FscCfg

variable {c : FscCfg} {m m' : Memory} {p : Nat} {l l1 l2 bs : List Blk} {s : Fsc}
  {fl : Nat → List Nat} {lo hi a : Nat}

/-- Every block knows the size of a free block in front of it, and free blocks do not touch. -/
def Linked (c : FscCfg) (m : Memory) : Nat → List Blk → Prop
  | _, [] => True
  | p, b::l => c.get m .prevSize b.addr=p ∧ (p=0 ∨ b.back=0) ∧ Linked c m b.back l

def lastBack : Nat → List Blk → Nat
  | p, [] => p
  | _, b::l => lastBack b.back l

lemma lastBack_concat (p : Nat) (l : List Blk) (b : Blk) : lastBack p (l++[b])=b.back := by
  induction l generalizing p with
  | nil => rfl
  | cons y l ih => exact ih _

lemma linked_append : c.Linked m p (l1++l2) ↔ c.Linked m p l1 ∧ c.Linked m (lastBack p l1) l2 := by
  induction l1 generalizing p with
  | nil => simp [Linked,lastBack]
  | cons b l ih => simp [Linked,lastBack,ih,and_assoc]

lemma Linked.congr (h : c.Linked m p l)
    (hm : ∀ b∈l, c.get m' .prevSize b.addr=c.get m .prevSize b.addr) : c.Linked m' p l := by
  induction l generalizing p with
  | nil => trivial
  | cons b l ih =>
    obtain ⟨hp,hfree,hl⟩ := h
    refine ⟨(hm b (by simp)).trans hp,hfree,ih hl ?_⟩
    intro b' hb'
    exact hm b' (mem_cons_of_mem _ hb')

/-- The representation invariant of the heap. -/
structure HeapOk (c : FscCfg) (s : Fsc) (bs : List Blk) (fl : Nat → List Nat) : Prop where
  rep : c.Rep s.mem s.memStartAddr (s.memStartAddr+s.memTotalSize) bs fl
  linked : c.Linked s.mem 0 bs
  kinds : ∀ b∈bs, b.kind=.used ∨ b.kind=.free (Nat.log2 b.size)
  bits : ∀ b∈bs, ∀ i, b.kind=.free i → s.fscMemBitMap.getMsbD i=true
  last : s.fscMemBitMap.getMsbD osFscMemLastIdx=true
  usage : s.memUsage=usedSize bs
  total : s.memTotalSize+c.usedHeadSize≤c.maxval

lemma HeapOk.size_lt (h : c.HeapOk s bs fl) {b : Blk} (hb : b∈bs) : b.size<2^31 := by
  have hb' := h.rep.tiled.bounds hb
  have ht := h.total
  have hw := c.word_pos
  unfold maxval sizeAlign osFscMemLastIdx usedHeadSize at ht
  omega

variable {pre post : List Blk} {y : Blk} {addr : Nat}

lemma node_change {k : BlkKind}
    (ha : c.Node (pre++y::post) hi a) : c.Node (pre ++ {y with kind:=k} :: post) hi a := by
  refine ha.mono fun b hb => ?_
  rcases mem_middle.mp hb with rfl | hb
  . exact ⟨{b with kind:=k},by simp,rfl⟩
  exact ⟨b,mem_rest hb,rfl⟩

lemma mem_change {b : Blk} {k : BlkKind} (hb : b∈pre++y::post)
    (hne : b.kind≠y.kind) : b∈pre ++ {y with kind:=k} :: post := by
  rcases mem_middle.mp hb with rfl | hb
  . exact absurd rfl hne
  exact mem_rest hb

/-- The bits of the lists are only added to. -/
structure Insert (c : FscCfg) (s s' : Fsc) (idx : Nat) : Prop where
  same : s'={s with mem:=s'.mem, fscMemBitMap:=s'.fscMemBitMap}
  kept : ∀ i, s.fscMemBitMap.getMsbD i=true → s'.fscMemBitMap.getMsbD i=true
  bit : s'.fscMemBitMap.getMsbD idx=true

lemma insert_ok (h : c.Rep s.mem lo hi (pre++y::post) fl)
    (hk : y.kind=.loose) (hlt : y.size<2^31) : (∃ fl', c.Rep (c.osFscMemInsert s y.addr).mem lo hi
      (pre ++ {y with kind:=.free (Nat.log2 y.size)} :: post) fl') ∧
      c.Spares (pre++y::post) hi s.mem (c.osFscMemInsert s y.addr).mem ∧
      c.Insert s (c.osFscMemInsert s y.addr) (Nat.log2 y.size) ∧
      c.Bodies (pre++y::post) hi s.mem (c.osFscMemInsert s y.addr).mem := by
  have hw := c.word_pos
  have hy := (h.fits y (by simp)).1
  have hidx : Nat.log2 y.size<31 := (Nat.log2_lt (by omega)).mpr hlt
  have hsz : osFscMemSz2idx (c.get s.mem .size y.addr)=Nat.log2 y.size := by
    rw [h.size y (by simp) (by simp [hk]),osFscMemSz2idx_eq (by omega)]
  obtain ⟨hrep,hspare⟩ := h.link hidx hk
  unfold osFscMemInsert
  simp only [hsz]
  refine ⟨hrep,hspare,⟨rfl,?_,?_⟩,h.bodies_link (by simp) hidx⟩
  . intro i hi
    exact (PrioMap.getMsbD_or_msbBit _ _ _ (by omega)).mpr (.inr hi)
  exact (PrioMap.getMsbD_or_msbBit _ _ _ (by omega)).mpr (.inl rfl)

lemma get_initLists {n i : Nat} (hn : n≤31) (hi : i<n) :
    c.get (c.initLists m n) .next (c.head i)=c.head i ∧
      c.get (c.initLists m n) .prev (c.head i)=c.head i := by
  induction n with
  | zero => omega
  | succ n ih =>
    have hv : c.head n<256^c.word := by
      have := c.head_lt (i:=n) (by omega)
      have := c.fits
      have := c.word_pos
      omega
    simp only [initLists]
    rcases Nat.lt_succ_iff_lt_or_eq.mp hi with hlt | rfl
    . have hap : c.Apart (c.head n) (c.head i) := .inr (.inr (c.head_apart hlt))
      have hne : c.head i≠c.head n := fun he => by
        have := c.head_inj he
        omega
      simp only [get_set_of_ne hap (.inr hne)]
      exact ih (by omega) hlt
    have hap : c.Apart (c.head i) (c.head i) := .inl rfl
    rw [get_set_self hv,get_set_of_ne hap (.inl (by simp)),get_set_self hv]
    exact ⟨rfl,rfl⟩

lemma get_initBlock {size hd : Nat} (hhd : c.head (osFscMemSz2idx size)=hd)
    (haddr : addr<256^c.word) (hhdv : hd<256^c.word) (hsize : size<256^c.word)
    (hah : c.Apart hd addr) (hea : c.Apart (addr+size) addr) (hne : addr≠addr+size)
    (ha : c.Apart addr a) (hh : c.Apart hd a) (he : c.Apart (addr+size) a) :
    c.get (c.initBlock m addr size) .next a=update (update
      (update (c.get m .next) addr hd) hd addr) (addr+size) osFscMemMagicUsed a ∧
    c.get (c.initBlock m addr size) .prev a=update (update (c.get m .prev) addr hd) hd addr a ∧
    c.get (c.initBlock m addr size) .size addr=size ∧
    c.get (c.initBlock m addr size) .prevSize addr=0 := by
  have hself : c.Apart addr addr := .inl rfl
  have hread : ∀ m0 : Memory, c.get (c.set (c.set (c.set (c.set m0 .size addr size) .prev addr
      hd) .next hd addr) .prev hd addr) .size addr=size := by
    intro m0
    rw [get_set_of_ne hah (.inl (by simp)),get_set_of_ne hah (.inl (by simp)),
      get_set_of_ne hself (.inl (by simp)),get_set_self hsize]
  unfold initBlock
  simp only [hhd,hread]
  refine ⟨?_,?_,?_,?_⟩
  . rw [get_set_of_ne he (.inl (by simp)),get_set (Rep.magic_lt c) he]
    by_cases hae : a=addr+size
    . subst hae
      simp
    rw [update_of_ne hae,update_of_ne hae,get_set_of_ne hh (.inl (by simp)),get_set haddr hh]
    by_cases hahd : a=hd
    . subst hahd
      simp
    rw [update_of_ne hahd,update_of_ne hahd,
      get_set_of_ne ha (.inl (by simp)),get_set_of_ne ha (.inl (by simp)),
      get_set_of_ne ha (.inl (by simp)),get_set hhdv ha]
  . rw [get_set_of_ne he (.inl (by simp)),get_set_of_ne he (.inl (by simp)),get_set haddr hh]
    by_cases hahd : a=hd
    . subst hahd
      simp
    rw [update_of_ne hahd,update_of_ne hahd,get_set_of_ne hh (.inl (by simp)),get_set hhdv ha]
    by_cases haa : a=addr
    . subst haa
      simp
    rw [update_of_ne haa,update_of_ne haa,get_set_of_ne ha (.inl (by simp)),
      get_set_of_ne ha (.inl (by simp)),get_set_of_ne ha (.inl (by simp))]
  . rw [get_set_of_ne hea (.inr hne),get_set_of_ne hea (.inl (by simp)),hread]
  rw [get_set_of_ne hea (.inl (by simp)),get_set_of_ne hea (.inl (by simp)),
    get_set_of_ne hah (.inl (by simp)),get_set_of_ne hah (.inl (by simp)),
    get_set_of_ne hself (.inl (by simp)),get_set_of_ne hself (.inl (by simp)),
    get_set_self (Nat.pos_of_ne_zero (by simp))]

lemma rep_initBlock {size : Nat} (hroom : c.Room addr (addr+size))
    (hsize : 4*c.word ≤ size) (hmod : size%c.word=0) (hlt : size<2^31)
    (hlists : ∀ i<31, c.get m .next (c.head i)=c.head i ∧ c.get m .prev (c.head i)=c.head i) :
    c.Rep (c.initBlock m addr size) addr (addr+size) [⟨addr,size,.free (Nat.log2 size)⟩]
        (update (fun _ => []) (Nat.log2 size) [addr]) ∧
      c.get (c.initBlock m addr size) .prevSize addr=0 := by
  have hw := c.word_pos
  have htop := hroom.top
  have hidx : Nat.log2 size<31 := (Nat.log2_lt (by omega)).mpr hlt
  have hsz : osFscMemSz2idx size=Nat.log2 size := osFscMemSz2idx_eq (by omega)
  have hout : ∀ i<31, c.head i+4*c.word≤addr ∨ addr+size+4*c.word≤c.head i := by
    intro i hi
    have := c.head_lt hi
    have := hroom.apart
    omega
  have hhead : ∀ i<31, c.head i<256^c.word := by
    intro i hi
    have := c.head_lt hi
    have := c.fits
    omega
  have hapart : ∀ i<31, ∀ j<31, c.Apart (c.head i) (c.head j) := by
    intro i hi j hj
    rcases Nat.lt_trichotomy i j with hij | rfl | hij
    . exact .inr (.inl (c.head_apart hij))
    . exact .inl rfl
    exact .inr (.inr (c.head_apart hij))
  have hhd := hout _ hidx
  have hnode : ∀ a, (∃ i<31, a=c.head i) ∨ a=addr ∨ a=addr+size →
      c.Apart addr a ∧ c.Apart (c.head (Nat.log2 size)) a ∧ c.Apart (addr+size) a := by
    rintro a (⟨i,hi,rfl⟩ | rfl | rfl)
    . have := hout i hi
      have := hapart _ hidx i hi
      unfold Apart at this ⊢
      omega
    . unfold Apart
      omega
    unfold Apart
    omega
  have hget : ∀ a, (∃ i<31, a=c.head i) ∨ a=addr ∨ a=addr+size → _ := fun a ha =>
    get_initBlock (m:=m) (a:=a) (congrArg c.head hsz) (by omega : addr<256^c.word)
      (hhead _ hidx) (by omega) (hnode addr (.inr (.inl rfl))).2.1
      (hnode addr (.inr (.inl rfl))).2.2 (by omega) (hnode a ha).1 (hnode a ha).2.1
      (hnode a ha).2.2
  refine ⟨{ room := hroom, tiled := ⟨rfl,rfl⟩, fits := ?_, size := ?_, used := ?_, ring := ?_,
            listed := ?_, idx := ?_, sentinel := ?_ },(hget addr (.inr (.inl rfl))).2.2.2⟩
  . simpa using ⟨hsize,hmod⟩
  . simpa using (hget addr (.inr (.inl rfl))).2.2.1
  . simp
  . intro i hi
    have hi' := hout i hi
    by_cases hii : i=Nat.log2 size
    . subst hii
      rw [update_self]
      have h1 := hget _ (.inl ⟨_,hi,rfl⟩)
      have h2 := hget addr (.inr (.inl rfl))
      have hne : c.head (Nat.log2 size)≠addr+size := by omega
      have hne' : addr≠c.head (Nat.log2 size) := by omega
      have hne'' : addr≠addr+size := by omega
      refine ⟨⟨?_,?_,?_,?_⟩,?_⟩
      . simp [h1.1,hne]
      . simp [h2.2.1,hne']
      . rw [h2.1,update_of_ne hne'',update_of_ne hne',update_self]
      . simp [h1.2.1]
      simpa using hne'.symm
    rw [update_of_ne hii]
    have h1 := hget _ (.inl ⟨i,hi,rfl⟩)
    have hne : c.head i≠c.head (Nat.log2 size) := fun he => hii (c.head_inj he)
    refine ⟨⟨?_,?_⟩,by simp⟩
    . rw [h1.1,update_of_ne (by omega),update_of_ne hne,update_of_ne (by omega),(hlists i hi).1]
    rw [h1.2.1,update_of_ne hne,update_of_ne (by omega),(hlists i hi).2]
  . intro i hi a
    by_cases hii : i=Nat.log2 size
    . subst hii
      simp [eq_comm]
    rw [update_of_ne hii]
    simp [Ne.symm hii]
  . intro b hb i hk
    simp only [mem_singleton] at hb
    subst hb
    simp only [BlkKind.free.injEq] at hk
    exact hk ▸ hidx
  rw [(hget _ (.inr (.inr rfl))).1,update_self]

/-- The region handed to the heap is memory of its own. -/
structure Region (c : FscCfg) (addr n : Nat) : Prop where
  top : addr+n≤256^c.word
  apart : c.nodeList+31*(4*c.word)≤addr ∨ addr+n≤c.nodeList

lemma osFscMemInit_ok {size : UInt32} {s' : Fsc}
    (h : c.osFscMemInit s addr size=(s',.osOk)) :
    0<addr ∧ addr%c.word=0 ∧ size.toNat%c.word=0 ∧ c.usedHeadSize ≤ size.toNat ∧
      size.toNat≤c.maxval ∧ s'={s with
        fscMemBitMap := s.fscMemBitMap ||| osFscMemIdx2bit osFscMemLastIdx |||
          osFscMemIdx2bit (osFscMemSz2idx (size.toNat-c.usedHeadSize))
        mem := c.initBlock (c.initLists (s.mem.fill addr size.toNat 0) osFscMemLastIdx) addr
          (size.toNat-c.usedHeadSize)
        memTotalSize := size.toNat-c.usedHeadSize
        memStartAddr := addr} := by
  unfold osFscMemInit at h
  split at h
  . simp at h
  split at h
  . simp at h
  split at h
  . simp at h
  split at h
  . simp at h
  split at h
  . simp at h
  simp only [Prod.mk.injEq,and_true] at h
  refine ⟨by omega,by omega,by omega,by omega,by omega,h.symm⟩

lemma init_heapOk {size : UInt32} {s' : Fsc}
    (h : c.osFscMemInit s addr size=(s',.osOk)) (hreg : c.Region addr size.toNat)
    (hsize : 2*c.usedHeadSize ≤ size.toNat) (husage : s.memUsage=0) : c.HeapOk s'
      [⟨addr,size.toNat-c.usedHeadSize,.free (Nat.log2 (size.toNat-c.usedHeadSize))⟩]
      (update (fun _ => []) (Nat.log2 (size.toNat-c.usedHeadSize)) [addr]) := by
  obtain ⟨hpos,hal,hmod,hmin,hmax,rfl⟩ := osFscMemInit_ok h
  have hw := c.word_pos
  obtain ⟨htop,hapart⟩ := hreg
  have hlt : size.toNat-c.usedHeadSize<2^31 := by
    unfold maxval osFscMemLastIdx usedHeadSize at *
    omega
  have hidx : Nat.log2 (size.toNat-c.usedHeadSize)<31 := by
    unfold usedHeadSize at *
    exact (Nat.log2_lt (by omega)).mpr hlt
  have hsub : (size.toNat-c.usedHeadSize)%c.word=0 := by
    unfold usedHeadSize
    rw [Nat.mul_comm,Nat.sub_mul_mod (by unfold usedHeadSize at hmin; omega),hmod]
  have hroom : c.Room addr (addr+(size.toNat-c.usedHeadSize)) := by
    unfold usedHeadSize at *
    exact ⟨hpos,hal,by omega,by omega⟩
  obtain ⟨hrep,hback⟩ := rep_initBlock (m:=c.initLists (s.mem.fill addr size.toNat 0) 31) hroom
    (by unfold usedHeadSize at *; omega) hsub hlt (fun i hi => get_initLists (Nat.le_refl _) hi)
  refine { rep := hrep, linked := ⟨hback,.inl rfl,trivial⟩, kinds := ?_, bits := ?_,
           last := ?_, usage := ?_, total := ?_ }
  . simp
  . intro b hb i hk
    simp only [mem_singleton] at hb
    subst hb
    simp only [BlkKind.free.injEq] at hk
    subst hk
    rw [osFscMemSz2idx_eq (by omega)]
    unfold osFscMemIdx2bit
    rw [PrioMap.getMsbD_or_msbBit _ _ _ (by omega)]
    exact .inl rfl
  . unfold osFscMemIdx2bit osFscMemLastIdx
    rw [osFscMemSz2idx_eq (by omega),PrioMap.getMsbD_or_msbBit _ _ _ (by omega),
      PrioMap.getMsbD_or_msbBit _ _ _ (by omega)]
    exact .inr (.inl rfl)
  . simpa [usedSize,usedBlks] using husage
  dsimp only
  omega

def build64 : FscCfg where
  word := 8
  nodeList := 0x1000
  word_ok := .inr rfl
  aligned := rfl
  fits := by decide

def blank : Fsc := {mem:=⟨fun _ => 0⟩}

def fresh : Fsc := (build64.osFscMemInit blank 0x10000 1024).1

lemma fresh_eq : build64.osFscMemInit blank 0x10000 1024=(fresh,.osOk) := Prod.ext rfl (by decide)

lemma fresh_region : build64.Region 0x10000 1024 := ⟨by decide,.inl (by decide)⟩

lemma fresh_heapOk : build64.HeapOk fresh [⟨0x10000,992,.free 9⟩]
    (update (fun _ => []) 9 [0x10000]) :=
  init_heapOk fresh_eq fresh_region (by decide) rfl

end FscCfg

end UniProton
