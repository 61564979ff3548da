import UniProton.Mem.FscAlloc

namespace UniProton

open Framework List

/-- The two ways to ask for memory. -/
inductive AllocCall where
  | alloc
  | allocAlign (alignPow : Nat)

/-- The powers that `OsMemAllocAlign` admits. -/
def AllocCall.admitted : AllocCall → Prop
  | .alloc => True
  | .allocAlign alignPow => 2≤alignPow ∧ alignPow≤14

namespace FscCfg

variable {c : FscCfg} {s s' : Fsc} {bs bs' : List Blk} {fl : Nat → List Nat} {m m' : Memory}
  {live : List (Nat×Nat)} {b y : Blk}

def allocate (c : FscCfg) (s : Fsc) (fuel : Nat) (size : UInt32) : AllocCall → Option (Fsc×Nat)
  | .alloc => c.osMemAlloc s fuel size
  | .allocAlign alignPow => c.osMemAllocAlign s fuel size alignPow

def alignOf (c : FscCfg) : AllocCall → Nat
  | .alloc => c.word
  | .allocAlign alignPow => c.raiseAlign (2^alignPow)

lemma raiseAlign_word (c : FscCfg) : c.raiseAlign c.sizeAlign=c.word := by
  simp [raiseAlign,sizeAlign]

lemma alignOf_ok (c : FscCfg) {call : AllocCall} (h : call.admitted) :
    c.word ∣ c.alignOf call ∧ 0<c.alignOf call ∧ c.alignOf call≤2^14 := by
  cases call with
  | alloc =>
    have hw := c.word_le
    exact ⟨Nat.dvd_refl _,c.word_pos,Nat.le_trans hw (by decide)⟩
  | allocAlign pow =>
    obtain ⟨hlow,hhigh⟩ := h
    have hmax : 2^pow≤2^14 := Nat.pow_le_pow_right (by omega) hhigh
    have hw := c.word_le
    simp only [alignOf,raiseAlign]
    split
    . exact ⟨Nat.dvd_refl _,c.word_pos,by omega⟩
    refine ⟨?_,Nat.two_pow_pos pow,hmax⟩
    rcases c.word_ok with hw | hw
    . rw [hw]
      exact Nat.pow_dvd_pow 2 hlow
    have h3 : 3≤pow := by
      by_contra hlt
      obtain rfl : pow=2 := by omega
      omega
    rw [hw]
    exact Nat.pow_dvd_pow 2 h3

lemma HeapOk.allocate (h : c.HeapOk s bs fl) (size : UInt32) {call : AllocCall}
    (hc : call.admitted) :
    ∃ s' usr, (∀ fuel, 33+bs.length<fuel → c.allocate s fuel size call=some (s',usr)) ∧
      ((usr=0 ∧ ¬c.Serves bs size (c.alignOf call) ∧ c.HeapOk s' bs fl ∧
          ∃ bitMap, s'={s with fscMemBitMap:=bitMap}) ∨
        (usr≠0 ∧ c.Serves bs size (c.alignOf call) ∧
          ∃ bs' y, c.Allocated s s' bs bs' y size.toNat (c.alignOf call) usr)) := by
  obtain ⟨hal,hpos,hmax⟩ := c.alignOf_ok hc
  cases call with
  | alloc =>
    have halign : c.alignOf .alloc=c.raiseAlign c.sizeAlign := c.raiseAlign_word.symm
    rw [halign] at hal hpos hmax ⊢
    exact h.allocInner size hal hpos hmax
  | allocAlign pow =>
    obtain ⟨s',usr,hrun,hcases⟩ := h.allocInner size hal hpos hmax
    refine ⟨s',usr,?_,hcases⟩
    intro fuel hfuel
    obtain ⟨hlow,hhigh⟩ := hc
    unfold FscCfg.allocate osMemAllocAlign
    simp only
    rw [if_neg (by omega),hrun fuel hfuel]

/-- The addresses and sizes that users hold, against the used blocks. -/
structure LiveOk (c : FscCfg) (m : Memory) (bs : List Blk) (live : List (Nat×Nat)) : Prop where
  placed : ∀ p∈live, ∃ b∈usedBlks bs, c.osMemGetHeadAddr m p.1=b.addr ∧
    b.addr+c.usedHeadSize≤p.1 ∧ p.1+p.2+c.tailSize≤b.addr+b.size
  owners : (live.map fun p => c.osMemGetHeadAddr m p.1).Perm ((usedBlks bs).map Blk.addr)

lemma LiveOk.heads_nodup (hl : c.LiveOk m bs live) (hinc : bs.Pairwise fun b b' => b.addr<b'.addr) :
    (live.map fun p => c.osMemGetHeadAddr m p.1).Nodup := by
  rw [hl.owners.nodup_iff]
  exact pairwise_map.mpr ((hinc.sublist filter_sublist).imp Nat.ne_of_lt)

lemma getHeadAddr_same {usr : Nat} (hm : m.Same m' (b.addr+3*c.word) (b.size-3*c.word))
    (hlow : b.addr+c.usedHeadSize≤usr) (hhigh : usr≤b.addr+b.size) :
    c.osMemGetHeadAddr m' usr=c.osMemGetHeadAddr m usr := by
  have hw := c.word_ge
  unfold usedHeadSize at hlow
  unfold osMemGetHeadAddr
  rw [(hm.sub (by omega) (by omega)).read]

lemma LiveOk.allocated (hl : c.LiveOk s.mem bs live) {size align usr : Nat}
    (ha : c.Allocated s s' bs bs' y size align usr) : c.LiveOk s'.mem bs' ((usr,size)::live) := by
  obtain ⟨l1,l2,hused,hused'⟩ := ha.used
  have hkeep : ∀ p∈live, c.osMemGetHeadAddr s'.mem p.1=c.osMemGetHeadAddr s.mem p.1 := by
    intro p hp
    obtain ⟨b,hb,-,hlow,hhigh⟩ := hl.placed p hp
    exact getHeadAddr_same (ha.inner b hb) hlow (by omega)
  constructor
  . intro p hp
    rcases mem_cons.mp hp with rfl | hp
    . refine ⟨y,?_,ha.head,ha.low,ha.high⟩
      simp [hused']
    obtain ⟨b,hb,hhead,hlow,hhigh⟩ := hl.placed p hp
    refine ⟨b,?_,(hkeep p hp).trans hhead,hlow,hhigh⟩
    rw [hused,mem_append] at hb
    simp only [hused',mem_append,mem_cons]
    tauto
  have hmap : live.map (fun p => c.osMemGetHeadAddr s'.mem p.1) =
      live.map (fun p => c.osMemGetHeadAddr s.mem p.1) := map_congr_left hkeep
  have hown := hl.owners
  rw [hused,map_append] at hown
  rw [map_cons,hmap,ha.head,hused',map_append,map_cons]
  exact (hown.cons y.addr).trans perm_middle.symm

/-- Where a user's bytes are: aligned, between the header and the tail word of a used block, apart
from what other users hold and from every header. -/
structure Placed (c : FscCfg) (bs : List Blk) (live : List (Nat×Nat)) (usr size align : Nat) :
    Prop where
  pointer : c.word≤align
  aligned : usr%align=0
  block : ∃ b∈bs, b.kind=.used ∧ b.addr+c.usedHeadSize≤usr ∧ usr+size+c.tailSize≤b.addr+b.size
  apart : ∀ p∈live, usr+size≤p.1 ∨ p.1+p.2≤usr
  headers : ∀ b∈bs, usr+size≤b.addr ∨ b.addr+c.usedHeadSize≤usr

lemma LiveOk.place (hl : c.LiveOk s.mem bs live) {size align usr : Nat}
    (hal : c.word ∣ align) (hpos : 0<align)
    (ha : c.Allocated s s' bs bs' y size align usr) : c.Placed bs' live usr size align := by
  obtain ⟨l1,l2,hused,hused'⟩ := ha.used
  obtain ⟨fl',hheap⟩ := ha.heap
  have hy := ha.mem
  have hlow := ha.low
  have hhigh := ha.high
  have hinc : (l1++y::l2).Pairwise fun b b' => b.addr<b'.addr :=
    hused' ▸ hheap.rep.increasing.sublist filter_sublist
  refine ⟨Nat.le_of_dvd hpos hal,ha.aligned,⟨y,hy,ha.kind,hlow,hhigh⟩,?_,?_⟩
  . intro p hp
    obtain ⟨b,hb,-,hblow,hbhigh⟩ := hl.placed p hp
    have hb' : b∈l1++l2 := hused ▸ hb
    have hbs : b∈bs' := by
      have : b∈usedBlks bs' := by
        rw [hused']
        simp only [mem_append,mem_cons] at hb' ⊢
        tauto
      exact (mem_usedBlks.mp this).1
    have hne : b.addr≠y.addr := by
      obtain ⟨-,hl2,hl1⟩ := pairwise_append.mp hinc
      rcases mem_append.mp hb' with hb' | hb'
      . have := hl1 b hb' y (by simp)
        omega
      have := (pairwise_cons.mp hl2).1 b hb'
      omega
    rcases hheap.rep.tiled.apart hbs hy with rfl | he | he
    . exact absurd rfl hne
    . omega
    omega
  intro b hb
  rcases hheap.rep.tiled.apart hb hy with rfl | he | he
  . exact .inr hlow
  . omega
  omega

end FscCfg

end UniProton
