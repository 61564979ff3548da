import UniProton.Mem.FscSearch

namespace UniProton

open Framework Function List

lemma alignUp_mod {x n : Nat} : alignUp x n%n=0 := by
  unfold alignUp
  rw [← Nat.mul_div_self_eq_mod_sub_self]
  exact Nat.mul_mod_right _ _

lemma le_alignUp {x n : Nat} (hn : 0<n) : x≤alignUp x n := by
  have := Nat.mod_lt (x+n-1) hn
  unfold alignUp
  omega

lemma alignUp_lt {x n : Nat} (hn : 0<n) : alignUp x n<x+n := by
  unfold alignUp
  omega

lemma alignUp_le {x n w : Nat} (hn : 0<n) (hx : w ∣ x) (hw : w ∣ n) : alignUp x n+w≤x+n := by
  have hlt := alignUp_lt (x:=x) hn
  have hd : w ∣ alignUp x n := Nat.dvd_trans hw (Nat.dvd_of_mod_eq_zero alignUp_mod)
  have hgap : w ∣ x+n-alignUp x n := Nat.dvd_sub (Nat.dvd_add hx hw) hd
  have := Nat.le_of_dvd (by omega) hgap
  omega

namespace FscCfg

variable {c : FscCfg} {s s' : Fsc} {bs pre post : List Blk} {fl fl' : Nat → List Nat}
  {m : Memory} {b y : Blk} {lo hi p q i n : Nat}

/-- A block ready to be marked: off the lists, all else as in a well-formed heap. -/
structure Ready (c : FscCfg) (s s' : Fsc) (bs pre : List Blk) (y : Blk) (post : List Blk)
    (fl : Nat → List Nat) : Prop where
  rep : c.Rep s'.mem s.memStartAddr (s.memStartAddr+s.memTotalSize) (pre++y::post) fl
  loose : y.kind=.loose
  front : c.Linked s'.mem 0 pre
  back : c.get s'.mem .prevSize y.addr=lastBack 0 pre
  rest : ∃ q, c.Linked s'.mem q post
  kinds : ∀ b∈pre++post, b.kind=.used ∨ b.kind=.free (Nat.log2 b.size)
  bits : ∀ b∈pre++post, ∀ i, b.kind=.free i → s'.fscMemBitMap.getMsbD i=true
  last : s'.fscMemBitMap.getMsbD osFscMemLastIdx=true
  used : usedBlks (pre++post)=usedBlks bs
  inner : ∀ b∈usedBlks bs, s.mem.Same s'.mem (b.addr+3*c.word) (b.size-3*c.word)
  same : s'={s with mem:=s'.mem, fscMemBitMap:=s'.fscMemBitMap}

lemma Linked.free (h : c.Linked m p (pre++y::post)) (hk : y.kind=.free i) (hy : 0<y.size) :
    c.Linked m p pre ∧ c.get m .prevSize y.addr=0 ∧ lastBack p pre=0 ∧ c.Linked m y.size post := by
  obtain ⟨hpre,hprev,hfree,hpost⟩ := linked_append.mp h
  have hback : y.back=y.size := by simp [Blk.back,hk]
  rw [hback] at hfree hpost
  have h0 : lastBack p pre=0 := by omega
  exact ⟨hpre,hprev.trans h0,h0,hpost⟩

lemma HeapOk.takeWhole (h : c.HeapOk s bs fl) (hb : b∈bs) (hk : b.kind=.free i) :
    ∃ pre post fl', c.Ready s {s with mem:=c.osFscMemDelete s.mem b.addr} bs pre
      {b with kind:=.loose} post fl' := by
  obtain ⟨pre,post,rfl⟩ := append_of_mem hb
  have hw := c.word_pos
  have hb0 := (h.rep.fits b hb).1
  obtain ⟨⟨fl',hrep⟩,hspare⟩ := h.rep.delete hk
  obtain ⟨hpre,hprev,h0,hpost⟩ := h.linked.free hk (by omega)
  refine ⟨pre,post,fl',?_⟩
  refine { rep := hrep, loose := rfl, front := ?_, back := ?_, rest := ?_,
           kinds := fun b' hb' => h.kinds b' (mem_rest hb'),
           bits := fun b' hb' => h.bits b' (mem_rest hb'), last := h.last, used := ?_,
           inner := ?_, same := rfl }
  . apply hpre.congr
    intro b' hb'
    exact hspare.prevSize _ (Rep.node_block (by simp [hb']))
  . rw [hspare.prevSize _ (Rep.node_block hb),hprev,h0]
  . refine ⟨b.size,hpost.congr ?_⟩
    intro b' hb'
    exact hspare.prevSize _ (Rep.node_block (by simp [hb']))
  . simp [usedBlks_cons,hk]
  intro b' hb'
  obtain ⟨hin,hu⟩ := mem_usedBlks.mp hb'
  exact hspare.inner b' hin hu

lemma reclass_ok (h : c.Rep s.mem lo hi (pre++y::post) fl) (hk : y.kind=.free i)
    (hlt : y.size<2^31) (hbit : s.fscMemBitMap.getMsbD i=true) :
    (∃ fl', c.Rep (c.reclass s y.addr i).mem lo hi
      (pre ++ {y with kind:=.free (Nat.log2 y.size)} :: post) fl') ∧
      c.Spares (pre++y::post) hi s.mem (c.reclass s y.addr i).mem ∧
      c.Insert s (c.reclass s y.addr i) (Nat.log2 y.size) := by
  have hsize := h.size y (by simp) (by simp [hk])
  unfold reclass
  rw [hsize,osFscMemSz2idx_eq (by omega)]
  by_cases hi' : i=Nat.log2 y.size
  . rw [if_neg (by simpa using hi'),← hi',← hk]
    exact ⟨⟨fl,h⟩,⟨fun _ _ => rfl,fun _ _ _ _ _ _ => rfl⟩,rfl,fun _ hj => hj,hbit⟩
  rw [if_pos hi']
  obtain ⟨⟨fl1,h1⟩,hspare1⟩ := h.delete hk
  obtain ⟨h2,hspare2,hins,-⟩ :=
    insert_ok (s:={s with mem:=c.osFscMemDelete s.mem y.addr}) h1 rfl hlt
  refine ⟨h2,hspare1.trans ⟨fun a ha => hspare2.prevSize a (node_change ha),?_⟩,?_⟩
  . intro b hb hu
    exact hspare2.inner b (mem_change hb (by simp [hu,hk])) hu
  exact ⟨hins.same,hins.kept,hins.bit⟩

lemma HeapOk.takeTail (h : c.HeapOk s bs fl) (hb : b∈bs) (hk : b.kind=.free i)
    (hn : n+c.minSize≤b.size) (hn4 : 4*c.word≤n) (hmod : n%c.word=0) :
    (c.splitTail s b.addr i n).2=b.addr+(b.size-n) ∧
      ∃ pre post fl', c.Ready s (c.splitTail s b.addr i n).1 bs pre
        ⟨b.addr+(b.size-n),n,.loose⟩ post fl' := by
  obtain ⟨pre,post,rfl⟩ := append_of_mem hb
  have hw := c.word_pos
  have hb31 := h.size_lt hb
  unfold minSize usedHeadSize sizeAlign at hn
  have hrest : (b.size-n)%c.word=0 :=
    Nat.mod_eq_zero_of_dvd (Nat.dvd_sub (Nat.dvd_of_mod_eq_zero (h.rep.fits b hb).2)
      (Nat.dvd_of_mod_eq_zero hmod))
  have hsize := h.rep.size b hb (by simp [hk])
  obtain ⟨hpre,hprev,h0,hpost⟩ := h.linked.free hk (by omega)
  -- the shrunken block, and the part behind it whose header is not written yet
  obtain ⟨h1,hspare1⟩ := h.rep.resize [] [⟨b.addr+(b.size-n),n,.raw⟩] b.kind
    (b.size-n) (by simp) (by simp [hk]) (by simp [hk]) (by simp) (by simp)
    (by
      intro e he
      obtain rfl : b.addr+b.size=e := he
      exact ⟨rfl,by simp only [Tiled]; omega⟩)
    (by
      intro b' hb'
      rcases mem_cons.mp hb' with rfl | hb'
      . exact ⟨by dsimp only; omega,hrest⟩
      rw [mem_singleton] at hb'
      subst hb'
      exact ⟨hn4,hmod⟩)
  obtain ⟨⟨fl2,h2⟩,hspare2,hins⟩ := reclass_ok
    (s:={s with mem:=c.set s.mem .size b.addr (b.size-n)}) h1 hk
    (by dsimp only; omega) (h.bits b hb i hk)
  unfold splitTail
  simp only [hsize]
  generalize c.reclass _ b.addr i=s2 at h2 hspare2 hins ⊢
  have hsize2 : c.get s2.mem .size b.addr=b.size-n :=
    h2.size ⟨b.addr,b.size-n,.free (Nat.log2 (b.size-n))⟩ (by simp) (by simp)
  simp only [hsize2,true_and]
  have hassoc : ∀ b' z : Blk, pre++b'::([z]++post)=pre++[b']++z::post := by simp
  rw [hassoc] at h1 h2 hspare2
  have hnode : ∀ k, ∀ a, c.Node (pre++b::post) (s.memStartAddr+s.memTotalSize) a →
      c.Node (pre++[⟨b.addr,b.size-n,k⟩]++⟨b.addr+(b.size-n),n,.raw⟩::post)
        (s.memStartAddr+s.memTotalSize) a := by
    intro k a ha
    refine ha.mono fun b' hb' => ?_
    rcases mem_middle.mp hb' with rfl | hb'
    . exact ⟨⟨b'.addr,b'.size-n,k⟩,by simp,rfl⟩
    exact ⟨b',mem_rest (by simp only [mem_append] at hb' ⊢; tauto),rfl⟩
  have hplot : c.Node (pre++[⟨b.addr,b.size-n,.free (Nat.log2 (b.size-n))⟩] ++
      ⟨b.addr+(b.size-n),n,.raw⟩::post) (s.memStartAddr+s.memTotalSize)
      (b.addr+(b.size-n)) := .inr (.inl ⟨⟨b.addr+(b.size-n),n,.raw⟩,by simp,rfl⟩)
  have h3 := h2.setPrevSize (v:=b.size-n) hplot
  obtain ⟨h4,hspare4⟩ := h3.resize [] [] .loose n (by simp) (by simp) (by simp) (by simp)
    (by simp) (fun e he => he) (by simpa using ⟨hn4,hmod⟩)
  have hplotSize : c.get (c.set (c.set s2.mem .prevSize (b.addr+(b.size-n)) (b.size-n))
      .size (b.addr+(b.size-n)) n) .prevSize (b.addr+(b.size-n))=b.size-n := by
    rw [hspare4.prevSize _ hplot,get_set_self]
    have := h2.node_lt hplot
    omega
  have hprev4 : ∀ a, c.Node (pre++b::post) (s.memStartAddr+s.memTotalSize) a → a≠b.addr+(b.size-n) →
      c.get (c.set (c.set s2.mem .prevSize (b.addr+(b.size-n)) (b.size-n)) .size
        (b.addr+(b.size-n)) n) .prevSize a=c.get s.mem .prevSize a := by
    intro a ha hne
    rw [hspare4.prevSize a (hnode _ a ha),get_set_of_ne (h2.node_apart hplot (hnode _ a ha))
      (.inr hne),hspare2.prevSize a (hnode _ a ha),hspare1.prevSize a ha]
  have hmem : ∀ b'∈pre++post, b'∈pre++b::post := fun b' => mem_rest
  have hpost4 : ∀ b'∈post, b'.addr≠b.addr+(b.size-n) := by
    intro b' hb'
    have := h.rep.tiled.after hb'
    omega
  have hpre4 : ∀ b'∈pre, b'.addr≠b.addr+(b.size-n) := by
    intro b' hb'
    have := h.rep.tiled.before hb'
    omega
  refine ⟨pre++[⟨b.addr,b.size-n,.free (Nat.log2 (b.size-n))⟩],post,fl2,?_⟩
  refine { rep := h4, loose := rfl, front := ?_, back := ?_, rest := ⟨b.size,?_⟩, kinds := ?_,
           bits := ?_, last := hins.kept _ h.last, used := ?_, inner := ?_, same := ?_ }
  . refine linked_append.mpr ⟨hpre.congr ?_,?_,.inl h0,trivial⟩
    . intro b' hb'
      exact hprev4 _ (Rep.node_block (hmem b' (by simp [hb']))) (hpre4 b' hb')
    exact (hprev4 _ (Rep.node_block hb) (by omega)).trans (hprev.trans h0.symm)
  . rw [lastBack_concat]
    exact hplotSize
  . apply hpost.congr
    intro b' hb'
    exact hprev4 _ (Rep.node_block (hmem b' (by simp [hb']))) (hpost4 b' hb')
  . intro b' hb'
    simp only [mem_append,mem_singleton] at hb'
    rcases hb' with (hb' | rfl) | hb'
    . exact h.kinds b' (hmem b' (by simp [hb']))
    . exact .inr rfl
    exact h.kinds b' (hmem b' (by simp [hb']))
  . intro b' hb' j hj
    simp only [mem_append,mem_singleton] at hb'
    rcases hb' with (hb' | rfl) | hb'
    . exact hins.kept _ (h.bits b' (hmem b' (by simp [hb'])) j hj)
    . simp only [BlkKind.free.injEq] at hj
      exact hj ▸ hins.bit
    exact hins.kept _ (h.bits b' (hmem b' (by simp [hb'])) j hj)
  . simp [hk,usedBlks]
  . intro b' hb'
    obtain ⟨hin,hu⟩ := mem_usedBlks.mp hb'
    have hin' : b'∈pre++post := by
      apply (mem_middle.mp hin).resolve_left
      rintro rfl
      simp [hk] at hu
    have hin2 : ∀ z w : Blk, b'∈pre++[z]++w::post := by
      intro z w
      simp only [mem_append,mem_cons] at hin' ⊢
      tauto
    exact (((hspare1.inner b' hin hu).trans (hspare2.inner b' (hin2 _ _) hu)).trans
      (h2.inner_setPrevSize (hin2 _ _) hplot)).trans (hspare4.inner b' (hin2 _ _) hu)
  rw [hins.same]

lemma Ready.settle (hr : c.Ready s s' bs pre y post fl) {k : BlkKind} {t : Fsc}
    (hregion : t.memStartAddr=s.memStartAddr ∧ t.memTotalSize=s.memTotalSize)
    (hrep : c.Rep t.mem s.memStartAddr (s.memStartAddr+s.memTotalSize)
      (pre ++ {y with kind:=k} :: post) fl')
    (hprev : ∀ b∈pre++y::post, c.get t.mem .prevSize b.addr=update
      (c.get s'.mem .prevSize) (y.addr+y.size) {y with kind:=k}.back b.addr)
    (hk : k=.used ∨ k=.free (Nat.log2 y.size))
    (hfree : lastBack 0 pre=0 ∨ {y with kind:=k}.back=0)
    (hsolid : {y with kind:=k}.back=0 ∨ ∀ z∈post.head?, z.kind=.used)
    (hkept : ∀ i, s'.fscMemBitMap.getMsbD i=true → t.fscMemBitMap.getMsbD i=true)
    (hbit : ∀ i, k=.free i → t.fscMemBitMap.getMsbD i=true)
    (husage : t.memUsage=usedSize (pre ++ {y with kind:=k} :: post))
    (htotal : s.memTotalSize+c.usedHeadSize≤c.maxval) :
    c.HeapOk t (pre ++ {y with kind:=k} :: post) fl' := by
  have hw := c.word_pos
  have hy : y∈pre++y::post := by simp
  have hy4 := (hr.rep.fits y hy).1
  refine { rep := ?_, linked := ?_, kinds := ?_, bits := ?_, last := hkept _ hr.last,
           usage := husage, total := hregion.2 ▸ htotal }
  . rw [hregion.1,hregion.2]
    exact hrep
  . refine linked_append.mpr ⟨hr.front.congr ?_,?_,hfree,?_⟩
    . intro b hb
      have := hr.rep.tiled.before hb
      rw [hprev b (by simp [hb]),update_of_ne (by omega)]
    . rw [hprev y hy,update_of_ne (by omega),hr.back]
    obtain ⟨q,hq⟩ := hr.rest
    cases post with
    | nil => trivial
    | cons z post =>
      have hz := hr.rep.tiled.middle.2.1
      refine ⟨?_,hsolid.imp_right fun hz => ?_,hq.2.2.congr ?_⟩
      . rw [hprev z (by simp),hz,update_self]
      . simp [Blk.back,hz z (by simp)]
      intro b hb
      have hzb := hr.rep.tiled.middle.2.2.bounds hb
      have := (hr.rep.fits z (by simp)).1
      rw [hprev b (by simp [hb]),update_of_ne (by omega)]
  . intro b hb
    rcases mem_middle.mp hb with rfl | hb
    . exact hk
    exact hr.kinds b hb
  intro b hb i hi
  rcases mem_middle.mp hb with rfl | hb
  . exact hbit i hi
  exact hkept _ (hr.bits b hb i hi)

lemma Ready.finish (hr : c.Ready s s' bs pre y post fl') (h : c.HeapOk s bs fl)
    (peak : Nat) (hfive : 5*c.word≤y.size) {usr : Nat} (hlow : y.addr+c.usedHeadSize≤usr)
    (hhigh : usr+c.tailSize≤y.addr+y.size) (hdist : usr-(y.addr+c.usedHeadSize)<2^16)
    (hm : m=osMemSetHeadAddr (c.markUsed s'.mem y.addr) usr (y.addr+c.usedHeadSize)) :
    c.get m .size y.addr=y.size ∧ c.HeapOk {s' with
        mem := m
        memUsage := s'.memUsage+y.size
        memPeakUsage := peak} (pre ++ {y with kind:=.used} :: post) fl' ∧
      (∀ b∈usedBlks bs, s.mem.Same m (b.addr+3*c.word) (b.size-3*c.word)) ∧
      c.osMemGetHeadAddr m usr=y.addr := by
  have hw := c.word_ge
  have hy : y∈pre++y::post := by simp
  obtain ⟨hrep1,hprev1,hinner1⟩ := hr.rep.markUsed hr.loose hfive
  unfold usedHeadSize tailSize at *
  have hout : ∀ a k, a+k≤usr-2 ∨ usr-2+2≤a → (c.markUsed s'.mem y.addr).Same m a k := by
    intro a k hak
    rw [hm]
    exact Memory.same_write hak
  have hrep2 : c.Rep m s.memStartAddr (s.memStartAddr+s.memTotalSize)
      (pre ++ {y with kind:=.used} :: post) fl' := by
    apply hrep1.inside (b:={y with kind:=.used}) (by simp) (x:=usr-2) (n:=2) _ hout
    refine .inl ⟨rfl,?_,?_⟩
    . dsimp only
      omega
    dsimp only [tailSize]
    omega
  have hprev2 : ∀ a, c.Node (pre++y::post) (s.memStartAddr+s.memTotalSize) a →
      c.get m .prevSize a=update (c.get s'.mem .prevSize) (y.addr+y.size) 0 a := by
    intro a ha
    rw [← hprev1 a ha]
    apply Memory.Same.read
    apply hout
    have := hr.rep.body_apart hy ha
    simp only [FscField.pos]
    omega
  have hsame := hr.same
  refine ⟨hrep2.size {y with kind:=.used} (by simp) (by simp),?_,?_,?_⟩
  . refine hr.settle ?_ hrep2 (fun b hb => hprev2 _ (Rep.node_block hb)) (.inl rfl) (.inr rfl)
      (.inl rfl) (fun _ => id) (by simp) ?_ h.total
    . rw [hsame]
      exact ⟨rfl,rfl⟩
    have husage : s'.memUsage=usedSize bs := by
      rw [hsame]
      exact h.usage
    have hused := hr.used
    simp only [usedSize,usedBlks_append,usedBlks_cons,if_true,map_append,map_cons,
      sum_append,sum_cons] at husage ⊢
    rw [husage,← hused]
    simp only [usedBlks_append,map_append,sum_append]
    omega
  . intro b hb
    have hb' : b∈pre++y::post ∧ b.kind=.used := by
      rw [← hr.used] at hb
      exact ⟨mem_rest (mem_usedBlks.mp hb).1,(mem_usedBlks.mp hb).2⟩
    have hne : b≠y := by
      rintro rfl
      have := hr.loose
      simp [hb'.2] at this
    refine ((hr.inner b hb).trans (hinner1 b hb'.1 hb'.2)).trans (hout _ _ ?_)
    rcases hr.rep.tiled.apart hb'.1 hy with he | he | he
    . exact absurd he hne
    . omega
    omega
  have hbounds := hr.rep.tiled.bounds hy
  have htop := hr.rep.room.top
  rw [getHeadAddr_eq_iff hlow (by omega),hm,osMemSetHeadAddr,
    Memory.read_write_of_lt _ _ (by simpa using hdist)]
  rfl

/-- What a successful allocation does: a block is marked used, and the user's bytes lie between its
header and its tail word. -/
structure Allocated (c : FscCfg) (s s' : Fsc) (bs bs' : List Blk) (y : Blk) (size align usr : Nat) :
    Prop where
  heap : ∃ fl, c.HeapOk s' bs' fl
  region : s'.memStartAddr=s.memStartAddr ∧ s'.memTotalSize=s.memTotalSize
  mem : y∈bs'
  kind : y.kind=.used
  used : ∃ l1 l2, usedBlks bs=l1++l2 ∧ usedBlks bs'=l1++y::l2
  inner : ∀ b∈usedBlks bs, s.mem.Same s'.mem (b.addr+3*c.word) (b.size-3*c.word)
  aligned : usr%align=0
  low : y.addr+c.usedHeadSize≤usr
  high : usr+size+c.tailSize≤y.addr+y.size
  head : c.osMemGetHeadAddr s'.mem usr=y.addr

lemma Ready.allocated (hr : c.Ready s s' bs pre y post fl') (h : c.HeapOk s bs fl)
    (peak : Nat) {size align : Nat} (hal : c.word ∣ align) (hpos : 0<align) (hmax : align≤2^14)
    (hn : c.allocSum size align≤y.size) (hm : m=osMemSetHeadAddr (c.markUsed s'.mem y.addr)
      (alignUp (y.addr+c.usedHeadSize) align) (y.addr+c.usedHeadSize)) :
    c.get m .size y.addr=y.size ∧ c.Allocated s {s' with
        mem := m
        memUsage := s'.memUsage+y.size
        memPeakUsage := peak} bs (pre ++ {y with kind:=.used} :: post)
      {y with kind:=.used} size align (alignUp (y.addr+c.usedHeadSize) align) := by
  have hw := c.word_pos
  have hy : y∈pre++y::post := by simp
  have haddr : c.word ∣ y.addr+c.usedHeadSize := by
    have := (hr.rep.tiled.aligned (fun b hb => (hr.rep.fits b hb).2) hr.rep.room.aligned).2 y hy
    exact Nat.dvd_add (Nat.dvd_of_mod_eq_zero this) (Nat.dvd_mul_left _ _)
  have hle := alignUp_le hpos haddr hal
  have hge := le_alignUp (x:=y.addr+c.usedHeadSize) hpos
  have hsize := le_alignUp (x:=size) hw
  unfold allocSum sizeAlign tailSize at hn
  obtain ⟨hsz,hheap,hinner,hhead⟩ := hr.finish h peak
    (by unfold usedHeadSize at hn; omega) hge (by unfold tailSize; omega) (by omega) hm
  refine ⟨hsz,⟨fl',hheap⟩,?_,by simp,rfl,?_,hinner,alignUp_mod,hge,
    by unfold tailSize; dsimp only; omega,hhead⟩
  . rw [hr.same]
    exact ⟨rfl,rfl⟩
  refine ⟨usedBlks pre,usedBlks post,?_,?_⟩
  . rw [← hr.used,usedBlks_append]
  simp [usedBlks_cons]

lemma HeapOk.allocFrom (h : c.HeapOk s bs fl) (hb : b∈bs) (hk : b.kind=.free i)
    {size align : Nat} (hal : c.word ∣ align) (hpos : 0<align) (hmax : align≤2^14)
    (hn : c.allocSum size align=n) (hle : n≤b.size) :
    ∃ bs' y, c.Allocated s (c.allocFrom s b.addr i n align).1 bs bs' y size align
      (c.allocFrom s b.addr i n align).2 := by
  have hb31 := h.size_lt hb
  have hread : c.get s.mem .size b.addr % 2^32=b.size := by
    rw [h.rep.size b hb (by simp [hk]),Nat.mod_eq_of_lt (by omega)]
  have hmod : n%c.word=0 := by
    apply Nat.mod_eq_zero_of_dvd
    rw [← hn]
    exact Nat.dvd_add (Nat.dvd_add (Nat.dvd_add (Nat.dvd_of_mod_eq_zero alignUp_mod)
      (Nat.dvd_sub hal (Nat.dvd_refl _))) (Nat.dvd_mul_left _ _)) (Nat.dvd_refl _)
  have hn4 : 4*c.word≤n := by
    rw [← hn]
    unfold allocSum usedHeadSize
    omega
  unfold FscCfg.allocFrom
  rw [hread]
  by_cases hsplit : n+c.minSize≤b.size
  . obtain ⟨hblk,pre,post,fl',hr⟩ := h.takeTail hb hk hsplit hn4 hmod
    rw [if_pos hsplit]
    dsimp only
    rw [hblk]
    obtain ⟨hsz,hall⟩ := hr.allocated h _ hal hpos hmax (Nat.le_of_eq hn) rfl
    rw [hsz]
    exact ⟨_,_,hall⟩
  obtain ⟨pre,post,fl',hr⟩ := h.takeWhole hb hk
  rw [if_neg hsplit]
  dsimp only
  obtain ⟨hsz,hall⟩ := hr.allocated h _ hal hpos hmax (Nat.le_trans (Nat.le_of_eq hn) hle) rfl
  rw [hsz]
  exact ⟨_,_,hall⟩

/-- The block size that a request comes to, unless it is refused by its size. -/
def request (c : FscCfg) (size : UInt32) (align : Nat) : Option Nat :=
  let n := c.allocSum size.toNat align % 2^32
  if size=0 ∨ n<size.toNat ∨ c.maxval-c.usedHeadSize-c.tailSize≤n then none else some n

lemma request_eq {size : UInt32} {align : Nat} (hmax : align≤2^14)
    (h : c.request size align=some n) :
    n=c.allocSum size.toNat align ∧ c.allocSum size.toNat align<2^32 ∧ 0<size.toNat ∧
      n<c.maxval ∧ n+c.minSize<2^32 := by
  have hw := c.word_le
  unfold request at h
  simp only [Option.ite_none_left_eq_some,Option.some.injEq,not_or] at h
  obtain ⟨⟨h0,hge,hlim⟩,rfl⟩ := h
  have hpos : 0<size.toNat := by
    rcases Nat.eq_zero_or_pos size.toNat with hz | hz
    . exact absurd (UInt32.toNat_inj.mp (by simpa using hz)) h0
    exact hz
  have hup := alignUp_lt (x:=size.toNat) c.word_pos
  have hsum : c.allocSum size.toNat align<2^32 := by
    unfold allocSum sizeAlign usedHeadSize tailSize at hge ⊢
    omega
  unfold maxval sizeAlign osFscMemLastIdx usedHeadSize tailSize minSize at *
  unfold usedHeadSize sizeAlign at *
  omega

def Serves (c : FscCfg) (bs : List Blk) (size : UInt32) (align : Nat) : Prop :=
  ∃ n, c.request size align=some n ∧ ∃ b∈bs, b.kind≠.used ∧ n≤b.size

lemma osFscMemAllocInner_eq (fuel : Nat) (size : UInt32) (align : Nat) :
    c.osFscMemAllocInner s fuel size align = match c.request size (c.raiseAlign align) with
      | none => some (s,0)
      | some n => (c.osFscMemSearch s fuel n).map fun r =>
          if r.blk=0 then (r.heap,0)
          else c.allocFrom r.heap r.blk r.idx n (c.raiseAlign align) := by
  unfold osFscMemAllocInner request
  by_cases h0 : size=0
  . simp [h0]
  simp only [h0,if_false,false_or]
  split
  . rfl
  rfl

lemma Rep.length_le (h : c.Rep m lo hi bs fl) (hi31 : i<31) : (fl i).length≤bs.length := by
  have hnd := (nodup_cons.mp (h.ring i hi31).nodup).2
  have hsub : fl i ⊆ bs.map Blk.addr := by
    intro a ha
    obtain ⟨b,hb,rfl,-⟩ := (h.listed i hi31 a).mp ha
    exact mem_map_of_mem hb
  simpa using (subperm_of_subset hnd hsub).length_le

/-- `OsFscMemAllocInner` comes to an end; it succeeds exactly when a free block can serve the
request. -/
lemma HeapOk.allocInner (h : c.HeapOk s bs fl) (size : UInt32) {align : Nat}
    (hal : c.word ∣ c.raiseAlign align) (hpos : 0<c.raiseAlign align)
    (hmax : c.raiseAlign align≤2^14) : ∃ s' usr, (∀ fuel, 33+bs.length<fuel →
        c.osFscMemAllocInner s fuel size align=some (s',usr)) ∧
      ((usr=0 ∧ ¬c.Serves bs size (c.raiseAlign align) ∧ c.HeapOk s' bs fl ∧
          ∃ bitMap, s'={s with fscMemBitMap:=bitMap}) ∨
        (usr≠0 ∧ c.Serves bs size (c.raiseAlign align) ∧
          ∃ bs' y, c.Allocated s s' bs bs' y size.toNat (c.raiseAlign align) usr)) := by
  cases hreq : c.request size (c.raiseAlign align) with
  | none =>
    refine ⟨s,0,?_,.inl ⟨rfl,?_,h,s.fscMemBitMap,rfl⟩⟩
    . intro fuel _
      simp [osFscMemAllocInner_eq,hreq]
    rintro ⟨n,hn,-⟩
    simp [hreq] at hn
  | some n =>
    obtain ⟨hn,-,hpos',hmaxval,-⟩ := request_eq hmax hreq
    obtain ⟨r,hr,hrun⟩ := search_ok h hmaxval
    have hlog : Nat.log2 n<31 := by
      have hn0 : n≠0 := by
        have := le_alignUp (x:=size.toNat) c.word_pos
        unfold allocSum sizeAlign at hn
        omega
      unfold maxval osFscMemLastIdx at hmaxval
      exact (Nat.log2_lt hn0).mpr (by omega)
    have hlen := h.rep.length_le hlog
    have hheap := SearchOk.heapOk h hr
    obtain ⟨bitMap,hr'⟩ := hr.heap
    by_cases hblk : r.blk=0
    . refine ⟨r.heap,0,?_,.inl ⟨rfl,?_,hheap,bitMap,hr'⟩⟩
      . intro fuel hfuel
        simp [osFscMemAllocInner_eq,hreq,hrun fuel (by omega),hblk]
      rintro ⟨n',hn',b,hb,hu,hle⟩
      rw [hreq] at hn'
      simp only [Option.some.injEq] at hn'
      have := hr.none hblk b hb hu
      omega
    obtain ⟨-,b,hb,hba,hk,hle⟩ := hr.found hblk
    obtain ⟨bs',y,hall⟩ := hheap.allocFrom hb hk hal hpos hmax hn.symm hle
    rw [hba] at hall
    refine ⟨(c.allocFrom r.heap r.blk r.idx n (c.raiseAlign align)).1,
      (c.allocFrom r.heap r.blk r.idx n (c.raiseAlign align)).2,?_,
      .inr ⟨?_,⟨n,hreq,b,hb,by simp [hk],hle⟩,bs',y,?_⟩⟩
    . intro fuel hfuel
      simp [osFscMemAllocInner_eq,hreq,hrun fuel (by omega),hblk]
    . have hy := hall.low
      obtain ⟨fl',hheap'⟩ := hall.heap
      have := hheap'.rep.tiled.bounds hall.mem
      have := hheap'.rep.room.pos
      omega
    have hmem : r.heap.mem=s.mem := by rw [hr']
    have hregion := hall.region
    rw [show r.heap.memStartAddr=s.memStartAddr by rw [hr'],
      show r.heap.memTotalSize=s.memTotalSize by rw [hr']] at hregion
    exact {hall with inner:=hmem ▸ hall.inner, region:=hregion}

end FscCfg

end UniProton
