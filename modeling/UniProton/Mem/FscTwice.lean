import UniProton.Mem.FscRun

namespace UniProton

open Framework List

def Fsc.SameRegion (s' s : Fsc) : Prop :=
  s'.memStartAddr=s.memStartAddr ∧ s'.memTotalSize=s.memTotalSize

namespace FscCfg

variable {c : FscCfg} {s : Fsc} {bs bs' : List Blk} {fl : Nat → List Nat} {m m' : Memory}
  {live : List (Nat×Nat)} {b y z : Blk} {lo hi p q : Nat}

def freeAll (c : FscCfg) (s : Fsc) : List Nat → Fsc
  | [] => s
  | p::ps => c.freeAll (c.osFscMemFree s p).1 ps

/-- The block `b` has been given back and is part of a free one. If its user's address stood behind
padding, the distance to the header is still in front of that address. -/
structure Gone (c : FscCfg) (m : Memory) (bs : List Blk) (b : Blk) (p : Nat) : Prop where
  block : ∃ z∈bs, z.kind≠.used ∧ c.Within m z b
  dist : b.addr+c.usedHeadSize+2≤p → m.read (p-2) 2=p-(b.addr+c.usedHeadSize)

lemma Within.keep (h : c.Within m z b) (hrep : c.Rep m lo hi bs fl) (hz : z∈bs)
    (hb : 4*c.word≤b.size) (hm : c.Bodies bs hi m m') : c.Within m' z b :=
  .trans hrep hz h hb hm (.start rfl (Nat.le_refl _))

lemma Gone.takes (h : c.Gone m bs b p) (hrep : c.Rep m lo hi bs fl) (hb : 4*c.word≤b.size)
    (hp : p≤b.addr+b.size) {bs1 : List Blk} {b' : Blk} (hy : y∈bs') (hyu : y.kind≠.used)
    (hsub : ∀ z∈bs1, z∈bs') (ht : c.Takes hi m m' bs b' bs1 y) : c.Gone m' bs' b p := by
  obtain ⟨z,hz,hzu,hin⟩ := h.block
  constructor
  . rcases ht.into z hz with hz' | hz'
    . exact ⟨z,hsub z hz',hzu,hin.keep hrep hz hb ht.bodies⟩
    exact ⟨y,hy,hyu,.trans hrep hz hin hb ht.bodies hz'⟩
  intro hpad
  have hlow := hin.low
  have hhigh := hin.high
  unfold usedHeadSize at hpad
  rw [(hrep.same_body ht.bodies hz (x:=p-2) (n:=2) (by omega) (by omega)).read]
  exact h.dist hpad

lemma live_erase {n : Nat} {qs : List Nat} (hqs : ∀ q∈qs, q∈live.map Prod.fst)
    (hnot : p∉qs) : ∀ q∈qs, q∈(live.erase (p,n)).map Prod.fst := by
  intro q hq
  obtain ⟨⟨q,k⟩,hqk,rfl⟩ := mem_map.mp (hqs q hq)
  refine mem_map.mpr ⟨(q,k),(mem_erase_of_ne fun he => ?_).mpr hqk,rfl⟩
  exact hnot ((Prod.mk.inj he).1 ▸ hq)

lemma Gone.freeAll (qs : List Nat) (h : c.HeapOk s bs fl) (hl : c.LiveOk s.mem bs live)
    (hg : c.Gone s.mem bs b p) (hb : 4*c.word≤b.size) (hp : p≤b.addr+b.size)
    (hlive : ∀ q∈qs, q∈live.map Prod.fst) (hnd : qs.Nodup) :
    ∃ bs' fl', c.HeapOk (c.freeAll s qs) bs' fl' ∧ (c.freeAll s qs).SameRegion s ∧
      c.Gone (c.freeAll s qs).mem bs' b p := by
  induction qs generalizing s bs fl live with
  | nil => exact ⟨bs,fl,h,⟨rfl,rfl⟩,hg⟩
  | cons q qs ih =>
    obtain ⟨hq,hqs⟩ := forall_mem_cons.mp hlive
    obtain ⟨hnot,hrest⟩ := nodup_cons.mp hnd
    obtain ⟨⟨q,n⟩,hqn,rfl⟩ := mem_map.mp hq
    obtain ⟨s',bs',fl',hfree,hheap,hregion,hlive',b',y,bs1,-,-,-,-,hy,hyu,hsub,ht⟩ := h.free hl hqn
    have hg' := hg.takes h.rep hb hp hy hyu hsub ht
    unfold FscCfg.freeAll
    rw [hfree]
    obtain ⟨bs2,fl2,h2,hregion2,hg2⟩ := ih hheap hlive' hg' (live_erase hqs hnot) hrest
    exact ⟨bs2,fl2,h2,⟨hregion2.1.trans hregion.1,hregion2.2.trans hregion.2⟩,hg2⟩

def twiceInputs : List FscInput := [.alloc 100 .alloc,.alloc 64 .alloc,.alloc 32 .alloc]

end FscCfg

end UniProton
