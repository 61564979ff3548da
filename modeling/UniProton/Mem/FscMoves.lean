import UniProton.Mem.FscRep

namespace UniProton

open Framework Function List

namespace FscCfg

variable {c : FscCfg} {m m' : Memory} {lo hi a x v n : Nat} {f : FscField}
  {bs pre post : List Blk} {fl fl' : Nat → List Nat} {b b' y : Blk}

lemma delete_eq (hx : c.Apart (c.get m .next x) x) : c.osFscMemDelete m x =
      c.set (c.set m .prev (c.get m .next x) (c.get m .prev x)) .next
        (c.get m .prev x) (c.get m .next x) := by
  have hprev : c.get (c.set m .prev (c.get m .next x) (c.get m .prev x)) .prev x =
      c.get m .prev x := by
    by_cases hxn : x=c.get m .next x
    . rw [← hxn]
      exact get_set_self (c.get_lt _ _ _)
    exact get_set_of_ne hx (.inr hxn)
  have hnext : c.get (c.set m .prev (c.get m .next x) (c.get m .prev x)) .next x =
      c.get m .next x := get_set_of_ne hx (.inl (by simp))
  simp only [osFscMemDelete,hprev,hnext]

lemma get_delete (hx : c.Apart (c.get m .next x) x) (hna : c.Apart (c.get m .next x) a)
    (hpa : c.Apart (c.get m .prev x) a) : c.get (c.osFscMemDelete m x) .next a =
      update (c.get m .next) (c.get m .prev x) (c.get m .next x) a ∧
    c.get (c.osFscMemDelete m x) .prev a =
      update (c.get m .prev) (c.get m .next x) (c.get m .prev x) a ∧
    c.get (c.osFscMemDelete m x) .size a=c.get m .size a ∧
    c.get (c.osFscMemDelete m x) .prevSize a=c.get m .prevSize a := by
  have hlt := c.get_lt m
  rw [delete_eq hx]
  refine ⟨?_,?_,?_,?_⟩
  . rw [get_set (hlt _ _) hpa]
    by_cases hap : a=c.get m .prev x
    . subst hap
      simp
    rw [update_of_ne hap,update_of_ne hap]
    exact get_set_of_ne hna (.inl (by simp))
  . rw [get_set_of_ne hpa (.inl (by simp)),get_set (hlt _ _) hna]
  . rw [get_set_of_ne hpa (.inl (by simp)),get_set_of_ne hna (.inl (by simp))]
  rw [get_set_of_ne hpa (.inl (by simp)),get_set_of_ne hna (.inl (by simp))]

lemma same_delete (hx : c.Apart (c.get m .next x) x)
    (hn : a+n≤c.get m .next x ∨ c.get m .next x+4*c.word≤a)
    (hp : a+n≤c.get m .prev x ∨ c.get m .prev x+4*c.word≤a) :
    m.Same (c.osFscMemDelete m x) a n := by
  rw [delete_eq hx]
  exact (same_set hn).trans (same_set hp)

variable {hd : Nat}

lemma linkFirst_eq (hxh : c.Apart x hd) (hne : hd≠x) : c.linkFirst m x hd =
      c.set (c.set (c.set (c.set m .prev x hd) .next x (c.get m .next hd)) .prev
        (c.get m .next hd) x) .next hd x := by
  have h1 : c.get (c.set m .prev x hd) .next hd=c.get m .next hd :=
    get_set_of_ne hxh (.inl (by simp))
  have h2 : c.get (c.set (c.set m .prev x hd) .next x (c.get m .next hd)) .next hd =
      c.get m .next hd := by
    rw [get_set_of_ne hxh (.inr hne),h1]
  simp only [linkFirst,h1,h2]

lemma get_linkFirst (hxh : c.Apart x hd) (hne : hd≠x) (hxa : c.Apart x a)
    (hha : c.Apart hd a) (hna : c.Apart (c.get m .next hd) a) (hx : x<256^c.word)
    (hhd : hd<256^c.word) : c.get (c.linkFirst m x hd) .next a =
      update (update (c.get m .next) x (c.get m .next hd)) hd x a ∧
    c.get (c.linkFirst m x hd) .prev a =
      update (update (c.get m .prev) x hd) (c.get m .next hd) x a ∧
    c.get (c.linkFirst m x hd) .size a=c.get m .size a ∧
    c.get (c.linkFirst m x hd) .prevSize a=c.get m .prevSize a := by
  have hlt := c.get_lt m
  rw [linkFirst_eq hxh hne]
  refine ⟨?_,?_,?_,?_⟩
  . rw [get_set hx hha]
    by_cases hah : a=hd
    . subst hah
      simp
    rw [update_of_ne hah,update_of_ne hah,get_set_of_ne hna (.inl (by simp)),get_set (hlt _ _) hxa]
    by_cases hax : a=x
    . subst hax
      simp
    rw [update_of_ne hax,update_of_ne hax,get_set_of_ne hxa (.inl (by simp))]
  . rw [get_set_of_ne hha (.inl (by simp)),get_set hx hna]
    by_cases han : a=c.get m .next hd
    . subst han
      simp
    rw [update_of_ne han,update_of_ne han,get_set_of_ne hxa (.inl (by simp)),get_set hhd hxa]
  . rw [get_set_of_ne hha (.inl (by simp)),get_set_of_ne hna (.inl (by simp)),
      get_set_of_ne hxa (.inl (by simp)),get_set_of_ne hxa (.inl (by simp))]
  rw [get_set_of_ne hha (.inl (by simp)),get_set_of_ne hna (.inl (by simp)),
    get_set_of_ne hxa (.inl (by simp)),get_set_of_ne hxa (.inl (by simp))]

lemma same_linkFirst (hxh : c.Apart x hd) (hne : hd≠x)
    (hx : a+n≤x ∨ x+4*c.word≤a) (hh : a+n≤hd ∨ hd+4*c.word≤a)
    (hn : a+n≤c.get m .next hd ∨ c.get m .next hd+4*c.word≤a) :
    m.Same (c.linkFirst m x hd) a n := by
  rw [linkFirst_eq hxh hne]
  exact (((same_set hx).trans (same_set hx)).trans (same_set hn)).trans (same_set hh)

namespace Rep

lemma rest_ne (h : c.Rep m lo hi (pre++y::post) fl) (hb : b∈pre++post) : b.addr≠y.addr := by
  have hw := c.word_pos
  rcases mem_append.mp hb with hb | hb
  . have := h.tiled.before hb
    have := (h.fits b (by simp [hb])).1
    omega
  have := h.tiled.after hb
  have := (h.fits y (by simp)).1
  omega

lemma change (h : c.Rep m lo hi (pre++y::post) fl) (k : BlkKind)
    (hsize : ∀ b∈pre++y::post, c.get m' .size b.addr=c.get m .size b.addr)
    (hraw : k≠.raw → y.kind≠.raw) (hothers : ∀ b∈pre++post, b.kind=.used →
      c.get m' .next b.addr=c.get m .next b.addr ∧ m.Same m' (b.addr+b.size-c.tailSize) 4)
    (hused : k=.used → 5*c.word≤y.size ∧ c.get m' .next y.addr=osFscMemMagicUsed ∧
      m'.read (y.addr+y.size-c.tailSize) 4=osFscMemTailMagic)
    (hring : ∀ i<31, Ringed (c.get m' .next) (c.get m' .prev) (c.head i) (fl' i))
    (hlisted : ∀ i<31, ∀ a, a∈fl' i ↔ a∈fl i ∧ a≠y.addr ∨ a=y.addr ∧ k=.free i)
    (hidx : ∀ i, k=.free i → i<31) (hsent : c.get m' .next hi=c.get m .next hi) :
    c.Rep m' lo hi (pre ++ {y with kind:=k} :: post) fl' where
  room := h.room
  tiled := by
    have htile : Tiled y.addr [{y with kind:=k}] (y.addr+y.size) := ⟨rfl,rfl⟩
    simpa using h.tiled.set_middle htile
  fits := by
    intro b hb
    rcases mem_middle.mp hb with rfl | hb
    . exact h.fits y (by simp)
    exact h.fits b (mem_rest hb)
  size := by
    intro b hb hk
    rcases mem_middle.mp hb with rfl | hb
    . exact (hsize y (by simp)).trans (h.size y (by simp) (hraw hk))
    exact (hsize b (mem_rest hb)).trans (h.size b (mem_rest hb) hk)
  used := by
    intro b hb hk
    rcases mem_middle.mp hb with rfl | hb
    . exact hused hk
    obtain ⟨hnext,htail⟩ := hothers b hb hk
    obtain ⟨hfive,hn,ht⟩ := h.used b (mem_rest hb) hk
    exact ⟨hfive,hnext.trans hn,htail.read.trans ht⟩
  ring := hring
  listed := by
    intro i hi31 a
    rw [hlisted i hi31,h.listed i hi31]
    constructor
    . rintro (⟨⟨b,hb,rfl,hk⟩,hne⟩ | ⟨rfl,rfl⟩)
      . rcases mem_middle.mp hb with rfl | hb
        . exact absurd rfl hne
        exact ⟨b,mem_rest hb,rfl,hk⟩
      exact ⟨{y with kind:=.free i},by simp,rfl,rfl⟩
    rintro ⟨b,hb,rfl,hk⟩
    rcases mem_middle.mp hb with rfl | hb
    . exact .inr ⟨rfl,hk⟩
    exact .inl ⟨⟨b,mem_rest hb,rfl,hk⟩,h.rest_ne hb⟩
  idx := by
    intro b hb i hk
    rcases mem_middle.mp hb with rfl | hb
    . exact hidx i hk
    exact h.idx b (mem_rest hb) i hk
  sentinel := hsent.trans h.sentinel

variable {i : Nat}

lemma links_mem (h : c.Rep m lo hi bs fl) (hb : b∈bs) (hk : b.kind=.free i) :
    c.get m .next b.addr∈c.head i::fl i ∧ c.get m .prev b.addr∈c.head i::fl i := by
  have hi31 := h.idx b hb i hk
  obtain ⟨l1,l2,hl⟩ := append_of_mem ((h.listed i hi31 _).mpr ⟨b,hb,rfl,hk⟩)
  have hring := h.ring i hi31
  rw [hl] at hring ⊢
  exact ⟨hring.next_mem,hring.prev_mem⟩

lemma delete (h : c.Rep m lo hi (pre++y::post) fl) (hk : y.kind=.free i) :
    (∃ fl', c.Rep (c.osFscMemDelete m y.addr) lo hi
      (pre ++ {y with kind:=.loose} :: post) fl') ∧
      c.Spares (pre++y::post) hi m (c.osFscMemDelete m y.addr) := by
  have hy : y∈pre++y::post := by simp
  have hi31 := h.idx y hy i hk
  have hin : y.addr∈fl i := (h.listed i hi31 _).mpr ⟨y,hy,rfl,hk⟩
  obtain ⟨l1,l2,hl⟩ := append_of_mem hin
  have hring := h.ring i hi31
  rw [hl] at hring
  obtain ⟨hnext,hprev⟩ := h.links_mem hy hk
  have hnode := fun a ha => h.node_of_ring (a:=a) hi31 ha
  have hapart : ∀ a, c.Node (pre++y::post) hi a → _ := fun a ha =>
    get_delete (h.node_apart (hnode _ hnext) (node_block hy)) (h.node_apart (hnode _ hnext) ha)
      (h.node_apart (hnode _ hprev) ha)
  refine ⟨⟨update fl i (l1++l2),h.change .loose ?_ (by simp [hk]) ?_ (by simp)
    ?_ ?_ (by simp) ?_⟩,fun a ha => (hapart a ha).2.2.2,fun b hb hu => ?_⟩
  . intro b hb
    exact (hapart _ (node_block hb)).2.2.1
  . intro b hb hu
    have hb' : b∈pre++y::post := mem_rest hb
    constructor
    . rw [(hapart _ (node_block hb')).1,update_of_ne]
      exact h.ring_ne_used hi31 hprev hb' hu
    apply same_delete (h.node_apart (hnode _ hnext) (node_block hy))
    . exact h.tail_out hb' hu (hnode _ hnext)
    exact h.tail_out hb' hu (hnode _ hprev)
  . intro j hj31
    by_cases hji : j=i
    . subst hji
      rw [update_self]
      apply hring.unlink.congr
      . intro a ha
        apply (hapart a _).1
        apply hnode
        rw [hl]
        simp only [mem_cons,mem_append] at ha ⊢
        tauto
      intro a ha
      apply (hapart a _).2.1
      apply hnode
      rw [hl]
      simp only [mem_cons,mem_append] at ha ⊢
      tauto
    rw [update_of_ne hji]
    apply (h.ring j hj31).congr
    . intro a ha
      rw [(hapart a (h.node_of_ring hj31 ha)).1,update_of_ne]
      rintro rfl
      exact h.ring_disjoint hi31 hj31 (Ne.symm hji) hprev ha
    intro a ha
    rw [(hapart a (h.node_of_ring hj31 ha)).2.1,update_of_ne]
    rintro rfl
    exact h.ring_disjoint hi31 hj31 (Ne.symm hji) hnext ha
  . intro j hj31 a
    have hnd := (nodup_cons.mp hring.nodup).2
    by_cases hji : j=i
    . subst hji
      rw [update_self,hl]
      have hy1 : y.addr∉l1++l2 := (nodup_middle.mp hnd |> nodup_cons.mp).1
      simp only [mem_append,mem_cons,reduceCtorEq,and_false,or_false]
      constructor
      . intro ha
        refine ⟨by tauto,?_⟩
        rintro rfl
        exact hy1 (by simpa using ha)
      rintro ⟨ha,hne⟩
      tauto
    rw [update_of_ne hji]
    simp only [reduceCtorEq,and_false,or_false,iff_self_and]
    rintro ha rfl
    exact h.ring_disjoint hi31 hj31 (Ne.symm hji) (mem_cons_of_mem _ hin) (mem_cons_of_mem _ ha)
  . rw [(hapart _ node_end).1,update_of_ne]
    exact h.ring_ne_end hi31 hprev
  apply same_delete (h.node_apart (hnode _ hnext) (node_block hy))
  . exact h.inner_out hb (hnode _ hnext) (h.ring_ne_used hi31 hnext hb hu)
  exact h.inner_out hb (hnode _ hprev) (h.ring_ne_used hi31 hprev hb hu)

lemma bodies_delete (h : c.Rep m lo hi bs fl) (hb : b∈bs) (hk : b.kind=.free i) :
    c.Bodies bs hi m (c.osFscMemDelete m b.addr) := by
  have hi31 := h.idx b hb i hk
  obtain ⟨hnext,hprev⟩ := h.links_mem hb hk
  rw [delete_eq (h.node_apart (h.node_of_ring hi31 hnext) (node_block hb))]
  exact (bodies_set (h.node_of_ring hi31 hnext)).trans (bodies_set (h.node_of_ring hi31 hprev))

lemma bodies_link (h : c.Rep m lo hi bs fl) (hb : b∈bs) (hi31 : i<31) :
    c.Bodies bs hi m (c.linkFirst m b.addr (c.head i)) := by
  have hne : c.head i≠b.addr := by
    intro he
    have := h.head_out hi31
    have := h.tiled.bounds hb
    have := c.word_pos
    omega
  have hy : c.Node bs hi b.addr := node_block hb
  have hnext := h.node_of_ring hi31 (h.ring i hi31).head_next_mem
  rw [linkFirst_eq (h.node_apart hy (node_head hi31)) hne]
  exact (((bodies_set hy).trans (bodies_set hy)).trans (bodies_set hnext)).trans
    (bodies_set (node_head hi31))

lemma link (h : c.Rep m lo hi (pre++y::post) fl) (hi31 : i<31) (hk : y.kind=.loose) :
    (∃ fl', c.Rep (c.linkFirst m y.addr (c.head i)) lo hi
      (pre ++ {y with kind:=.free i} :: post) fl') ∧
      c.Spares (pre++y::post) hi m (c.linkFirst m y.addr (c.head i)) := by
  have hy : y∈pre++y::post := by simp
  have hoff : ∀ {j}, j<31 → y.addr∉c.head j::fl j := by
    intro j hj31 hmem
    have := h.kind_of_ring hj31 hmem hy
    simp [hk] at this
  have hring := h.ring i hi31
  have hnext : c.get m .next (c.head i)∈c.head i::fl i := hring.head_next_mem
  have hnode := fun a ha => h.node_of_ring (a:=a) hi31 ha
  have hhead : c.Node (pre++y::post) hi (c.head i) := node_head hi31
  have hne : c.head i≠y.addr := fun he => hoff hi31 (by simp [← he])
  have hxh := h.node_apart (node_block hy) hhead
  have hapart : ∀ a, c.Node (pre++y::post) hi a → _ := fun a ha =>
    get_linkFirst (m:=m) hxh hne (h.node_apart (node_block hy) ha) (h.node_apart hhead ha)
      (h.node_apart (hnode _ hnext) ha) (h.node_lt (node_block hy)) (h.node_lt hhead)
  refine ⟨⟨update fl i (y.addr::fl i),h.change (.free i) ?_ (by simp [hk]) ?_
    (by simp) ?_ ?_ ?_ ?_⟩,fun a ha => (hapart a ha).2.2.2,fun b hb hu => ?_⟩
  . intro b hb
    exact (hapart _ (node_block hb)).2.2.1
  . intro b hb hu
    have hb' : b∈pre++y::post := mem_rest hb
    constructor
    . rw [(hapart _ (node_block hb')).1,update_of_ne,update_of_ne (h.rest_ne hb)]
      exact h.ring_ne_used hi31 (by simp) hb' hu
    apply same_linkFirst hxh hne
    . exact h.tail_out hb' hu (node_block hy)
    . exact h.tail_out hb' hu hhead
    exact h.tail_out hb' hu (hnode _ hnext)
  . intro j hj31
    by_cases hji : j=i
    . subst hji
      rw [update_self]
      have hmem : ∀ a∈c.head j::y.addr::fl j, c.Node (pre++y::post) hi a := by
        intro a ha
        simp only [mem_cons] at ha
        rcases ha with rfl | rfl | ha
        . exact hhead
        . exact node_block hy
        exact hnode a (mem_cons_of_mem _ ha)
      apply (hring.link (hoff hj31)).congr
      . intro a ha
        exact (hapart a (hmem a ha)).1
      intro a ha
      exact (hapart a (hmem a ha)).2.1
    rw [update_of_ne hji]
    have hay : ∀ a∈c.head j::fl j, a≠y.addr := by
      rintro a ha rfl
      exact hoff hj31 ha
    apply (h.ring j hj31).congr
    . intro a ha
      rw [(hapart a (h.node_of_ring hj31 ha)).1,update_of_ne,update_of_ne (hay a ha)]
      rintro rfl
      exact h.ring_disjoint hi31 hj31 (Ne.symm hji) (by simp) ha
    intro a ha
    rw [(hapart a (h.node_of_ring hj31 ha)).2.1,update_of_ne,update_of_ne (hay a ha)]
    rintro rfl
    exact h.ring_disjoint hi31 hj31 (Ne.symm hji) hnext ha
  . intro j hj31 a
    have hya : a∈fl j → a≠y.addr := by
      rintro ha rfl
      exact hoff hj31 (mem_cons_of_mem _ ha)
    by_cases hji : j=i
    . subst hji
      simp only [update_self,mem_cons,and_true]
      tauto
    rw [update_of_ne hji]
    simp only [BlkKind.free.injEq,Ne.symm hji,and_false,or_false]
    tauto
  . rintro j hj
    simp only [BlkKind.free.injEq] at hj
    exact hj ▸ hi31
  . have hbounds := h.tiled.bounds hy
    have hsz := (h.fits y hy).1
    have hw := c.word_pos
    rw [(hapart _ node_end).1,update_of_ne (h.ring_ne_end hi31 (by simp)),update_of_ne (by omega)]
  apply same_linkFirst hxh hne
  . exact h.inner_out hb (node_block hy) (h.addr_ne hb hy (by simp [hu,hk]))
  . exact h.inner_out hb hhead (h.ring_ne_used hi31 (by simp) hb hu)
  exact h.inner_out hb (hnode _ hnext) (h.ring_ne_used hi31 hnext hb hu)

lemma listed_of_off (h : c.Rep m lo hi (pre++y::post) fl) {k : BlkKind}
    (hy : ∀ i, y.kind≠.free i) (hk : ∀ i, k≠.free i) (hi31 : i<31) :
    a∈fl i ↔ a∈fl i ∧ a≠y.addr ∨ a=y.addr ∧ k=.free i := by
  simp only [hk,and_false,or_false,iff_self_and]
  rintro ha rfl
  exact hy i (h.kind_of_ring hi31 (mem_cons_of_mem _ ha) (by simp))

lemma release (h : c.Rep m lo hi (pre++y::post) fl) (hk : y.kind=.used) :
    c.Rep m lo hi (pre ++ {y with kind:=.loose} :: post) fl := by
  apply h.change .loose (by simp) (by simp [hk])
  . intro b hb hu
    exact ⟨rfl,fun _ _ _ => rfl⟩
  . simp
  . exact h.ring
  . intro i hi31 a
    exact h.listed_of_off (by simp [hk]) (by simp) hi31
  . simp
  rfl

lemma node_after (h : c.Rep m lo hi (pre++y::post) fl) :
    c.Node (pre++y::post) hi (y.addr+y.size) := by
  have htile := h.tiled.middle.2
  cases post with
  | nil => exact .inr (.inr htile)
  | cons z post => exact .inr (.inl ⟨z,by simp,htile.1⟩)

lemma magic_lt (c : FscCfg) : osFscMemMagicUsed<256^c.word := by
  rcases c.word_ok with hw | hw <;> rw [hw] <;> decide

lemma tail_apart (h : c.Rep m lo hi bs fl) (hy : y∈bs) (hb : b∈bs) (hne : b.addr≠y.addr)
    (hfive : 5*c.word≤y.size) {n : Nat} (hn : n≤b.size) : b.addr+b.size≤y.addr+y.size-c.tailSize ∨
      y.addr+y.size-c.tailSize+4≤b.addr+b.size-n := by
  have hw := c.word_ge
  unfold tailSize
  rcases h.tiled.apart hb hy with rfl | he | he
  . exact absurd rfl hne
  . omega
  omega

lemma magics (h : c.Rep m lo hi (pre++y::post) fl) (hk : y.kind=.loose)
    (hfive : 5*c.word≤y.size) {t : Nat} (ht : t=y.addr+y.size-c.tailSize)
    (hm' : m'=(c.set m .next y.addr osFscMemMagicUsed).write t 4 osFscMemTailMagic) :
    c.Rep m' lo hi (pre ++ {y with kind:=.used} :: post) fl ∧
      ∀ f a, c.Node (pre++y::post) hi a → f≠.next → c.get m' f a=c.get m f a := by
  subst hm' ht
  have hy : y∈pre++y::post := by simp
  have hw := c.word_ge
  have hbody : ∀ f a, c.Node (pre++y::post) hi a →
      c.get ((c.set m .next y.addr osFscMemMagicUsed).write (y.addr+y.size-c.tailSize) 4
        osFscMemTailMagic) f a=c.get (c.set m .next y.addr osFscMemMagicUsed) f a := by
    intro f a ha
    apply get_of_same
    apply Memory.same_write
    have := h.body_apart hy ha
    unfold tailSize
    omega
  have hget : ∀ f a, c.Node (pre++y::post) hi a → (f≠.next ∨ a≠y.addr) →
      c.get ((c.set m .next y.addr osFscMemMagicUsed).write (y.addr+y.size-c.tailSize) 4
        osFscMemTailMagic) f a=c.get m f a := by
    intro f a ha hne
    rw [hbody f a ha,get_set_of_ne (h.node_apart (node_block hy) ha) hne]
  have hoff : ∀ {i}, i<31 → ∀ a∈c.head i::fl i, a≠y.addr := by
    rintro i hi31 a ha rfl
    have := h.kind_of_ring hi31 ha hy
    simp [hk] at this
  refine ⟨?_,fun f a ha hf => hget f a ha (.inl hf)⟩
  apply h.change .used
  . intro b hb
    exact hget _ _ (node_block hb) (.inl (by simp))
  . simp [hk]
  . intro b hb hu
    have hb' : b∈pre++y::post := mem_rest hb
    have hb5 := (h.used b hb' hu).1
    constructor
    . exact hget _ _ (node_block hb') (.inr (h.rest_ne hb))
    refine (same_set (h.tail_out hb' hu (node_block hy))).trans (Memory.same_write ?_)
    have := h.tail_apart hy hb' (h.rest_ne hb) hfive (n:=c.word) (by omega)
    unfold tailSize at this ⊢
    omega
  . intro _
    refine ⟨hfive,?_,Memory.read_write_of_lt _ _ (by decide)⟩
    rw [hbody _ _ (node_block hy),get_set_self (magic_lt c)]
  . intro i hi31
    apply (h.ring i hi31).congr
    . intro a ha
      exact hget _ _ (h.node_of_ring hi31 ha) (.inr (hoff hi31 a ha))
    intro a ha
    exact hget _ _ (h.node_of_ring hi31 ha) (.inl (by simp))
  . intro i hi31 a
    exact h.listed_of_off (by simp [hk]) (by simp) hi31
  . simp
  have := h.tiled.bounds hy
  exact hget _ _ node_end (.inr (by omega))

lemma inner_setPrevSize (h : c.Rep m lo hi bs fl) (hb : b∈bs) (hx : c.Node bs hi x) :
    m.Same (c.set m .prevSize x v) (b.addr+3*c.word) (b.size-3*c.word) := by
  by_cases hbx : b.addr=x
  . apply Memory.same_write
    right
    simp only [FscField.pos]
    omega
  exact same_set (h.inner_out hb hx hbx)

lemma markUsed (h : c.Rep m lo hi (pre++y::post) fl) (hk : y.kind=.loose)
    (hfive : 5*c.word≤y.size) :
    c.Rep (c.markUsed m y.addr) lo hi (pre ++ {y with kind:=.used} :: post) fl ∧
      (∀ a, c.Node (pre++y::post) hi a →
        c.get (c.markUsed m y.addr) .prevSize a=update (c.get m .prevSize) (y.addr+y.size) 0 a) ∧
      ∀ b∈pre++y::post, b.kind=.used →
        m.Same (c.markUsed m y.addr) (b.addr+3*c.word) (b.size-3*c.word) := by
  have hy : y∈pre++y::post := by simp
  have hsize := h.size y hy (by simp [hk])
  have h1 := h.setPrevSize (v:=0) h.node_after
  have hsize1 : c.get (c.set (c.set m .prevSize (y.addr+y.size) 0) .next y.addr
      osFscMemMagicUsed) .size y.addr=y.size := by
    rw [get_set_of_ne (.inl rfl) (.inl (by simp)),
      get_set_of_ne (h.node_apart h.node_after (node_block hy)) (.inl (by simp)),hsize]
  obtain ⟨h2,hget2⟩ := h1.magics hk hfive (t:=_) rfl rfl
  unfold FscCfg.markUsed tailAddr
  simp only [hsize,hsize1]
  refine ⟨?_,?_,?_⟩
  . apply h2.inside (b:={y with kind:=.used}) (by simp)
      (.inl ⟨rfl,Nat.le_refl (y.addr+3*c.word),?_⟩)
    . intro a k hak
      exact Memory.same_write hak
    dsimp only [tailSize]
    omega
  . intro a ha
    rw [get_set_of_ne (h.node_apart (node_block hy) ha) (.inl (by simp)),
      hget2 _ _ ha (by simp),get_set (Nat.pos_of_ne_zero (by simp)) (h.node_apart h.node_after ha)]
  intro b hb hu
  have hby : b.addr≠y.addr := h.addr_ne hb hy (by simp [hu,hk])
  have hout := h.inner_out hb (node_block hy) hby
  have htail : (c.set (c.set m .prevSize (y.addr+y.size) 0) .next y.addr
      osFscMemMagicUsed).Same _ (b.addr+3*c.word) (b.size-3*c.word) :=
    Memory.same_write (a:=y.addr+y.size-c.tailSize) (n:=4) (v:=osFscMemTailMagic) (by
      have hb5 := (h.used b hb hu).1
      have := h.tail_apart hy hb hby hfive (n:=b.size-3*c.word) (by omega)
      omega)
  exact ((h.inner_setPrevSize hb h.node_after).trans (same_set hout)).trans
    (htail.trans (same_set hout))

/-- The size word of a block that is not in use decides how far it goes: the loose blocks `old`
behind it are taken in, or a part `new` is cut off. -/
lemma resize (old : List Blk) (h : c.Rep m lo hi (pre++y::(old++post)) fl)
    (new : List Blk) (k : BlkKind) (v : Nat)
    (hk : ∀ i, k=.free i ↔ y.kind=.free i) (hyu : y.kind≠.used) (hku : k≠.used)
    (hold : ∀ b∈old, b.kind=.loose) (hnew : ∀ b∈new, b.kind=.raw)
    (htile : ∀ e, Tiled (y.addr+y.size) old e → Tiled (y.addr+v) new e)
    (hfits : ∀ b ∈ {y with size:=v, kind:=k} :: new,4*c.word≤b.size ∧ b.size%c.word=0) :
    c.Rep (c.set m .size y.addr v) lo hi
      (pre ++ {y with size:=v, kind:=k} :: (new++post)) fl ∧
      c.Spares (pre++y::(old++post)) hi m (c.set m .size y.addr v) := by
  have hy : y∈pre++y::(old++post) := by simp
  have hw := c.word_pos
  obtain ⟨e,hold_e,hpost⟩ := Tiled.append_iff.mp h.tiled.middle.2
  have hnew_e := htile e hold_e
  have hv : v<256^c.word := by
    have := hnew_e.le
    have := hpost.le
    have := h.room.top
    omega
  have hget : ∀ f a, c.Node (pre++y::(old++post)) hi a → (f≠.size ∨ a≠y.addr) →
      c.get (c.set m .size y.addr v) f a=c.get m f a :=
    fun f a ha hne => get_set_of_ne (h.node_apart (node_block hy) ha) hne
  have hstay : ∀ b∈pre++post, b∈pre++y::(old++post) ∧ b.addr≠y.addr := by
    intro b hb
    have hb' : b∈pre++(old++post) := by
      simp only [mem_append] at hb ⊢
      tauto
    exact ⟨mem_rest hb',h.rest_ne hb'⟩
  have hcases : ∀ b∈pre ++ {y with size:=v, kind:=k} :: (new++post),
      b∈pre++post ∨ b={y with size:=v, kind:=k} ∨ b∈new := by
    intro b hb
    simp only [mem_append,mem_cons] at hb ⊢
    tauto
  refine ⟨{ room := h.room, tiled := ?_, fits := ?_, size := ?_, used := ?_, ring := ?_,
            listed := ?_, idx := ?_, sentinel := ?_ },
    fun a ha => hget _ _ ha (.inl (by simp)),fun b hb hu => ?_⟩
  . refine Tiled.append_iff.mpr ⟨y.addr,h.tiled.middle.1,rfl,?_⟩
    exact Tiled.append_iff.mpr ⟨e,hnew_e,hpost⟩
  . intro b hb
    rcases hcases b hb with hb | rfl | hb
    . exact h.fits b (hstay b hb).1
    . exact hfits _ (by simp)
    exact hfits b (by simp [hb])
  . intro b hb hraw
    rcases hcases b hb with hb | rfl | hb
    . rw [hget _ _ (node_block (hstay b hb).1) (.inr (hstay b hb).2),h.size b (hstay b hb).1 hraw]
    . exact get_set_self hv
    exact absurd (hnew b hb) hraw
  . intro b hb hu
    rcases hcases b hb with hb | rfl | hb
    . obtain ⟨hin,hne⟩ := hstay b hb
      obtain ⟨hfive,hnext,htail⟩ := h.used b hin hu
      rw [hget _ _ (node_block hin) (.inr hne)]
      refine ⟨hfive,hnext,?_⟩
      rw [(same_set (h.tail_out hin hu (node_block hy))).read,htail]
    . exact absurd hu hku
    simp [hnew b hb] at hu
  . intro i hi31
    apply (h.ring i hi31).congr
    . intro a ha
      exact hget _ _ (h.node_of_ring hi31 ha) (.inl (by simp))
    intro a ha
    exact hget _ _ (h.node_of_ring hi31 ha) (.inl (by simp))
  . intro i hi31 a
    rw [h.listed i hi31]
    constructor
    . rintro ⟨b,hb,rfl,hbk⟩
      simp only [mem_append,mem_cons] at hb
      rcases hb with hb | rfl | hb | hb
      . exact ⟨b,by simp [hb],rfl,hbk⟩
      . exact ⟨{b with size:=v, kind:=k},by simp,rfl,(hk i).mpr hbk⟩
      . simp [hold b hb] at hbk
      exact ⟨b,by simp [hb],rfl,hbk⟩
    rintro ⟨b,hb,rfl,hbk⟩
    rcases hcases b hb with hb | rfl | hb
    . exact ⟨b,(hstay b hb).1,rfl,hbk⟩
    . exact ⟨y,hy,rfl,(hk i).mp hbk⟩
    simp [hnew b hb] at hbk
  . intro b hb i hbk
    rcases hcases b hb with hb | rfl | hb
    . exact h.idx b (hstay b hb).1 i hbk
    . exact h.idx y hy i ((hk i).mp hbk)
    simp [hnew b hb] at hbk
  . rw [hget _ _ node_end (.inl (by simp)),h.sentinel]
  apply same_set
  apply h.inner_out hb (node_block hy)
  intro he
  exact hyu (h.eq_of_addr hb hy he ▸ hu)

lemma takeIn {w z : Blk} (h : c.Rep m lo hi (pre++w::z::post) fl) (hwu : w.kind≠.used)
    (hz : z.kind=.loose) : c.Rep (c.set m .size w.addr (w.size+z.size)) lo hi
      (pre ++ {w with size:=w.size+z.size} :: post) fl ∧
      c.Spares (pre++w::z::post) hi m (c.set m .size w.addr (w.size+z.size)) := by
  have hw4 := h.fits w (by simp)
  have hz4 := h.fits z (by simp)
  refine resize [z] h [] w.kind (w.size+z.size) (fun i => .rfl) hwu hwu (by simpa using hz)
    (by simp) ?_ ?_
  . rintro e ⟨-,he⟩
    rwa [Nat.add_assoc] at he
  intro b hb
  obtain rfl := mem_singleton.mp hb
  refine ⟨Nat.le_trans hw4.1 (Nat.le_add_right _ _),?_⟩
  rw [Nat.add_mod,hw4.2,hz4.2]
  rfl

lemma wipe (h : c.Rep m lo hi bs fl) (hb : b∈bs) (hk : b.kind≠.used)
    (hlow : b.addr+4*c.word≤x) (hhigh : x+n≤b.addr+b.size) :
    c.Rep (m.fill x n 0) lo hi bs fl ∧ c.Spares bs hi m (m.fill x n 0) := by
  refine ⟨h.inside hb (.inr ⟨hk,hlow,hhigh⟩) fun _ _ => Memory.same_fill,?_,?_⟩
  . intro a ha
    apply get_of_same
    apply Memory.same_fill
    have := h.body_apart hb ha
    omega
  intro b' hb' hu
  apply Memory.same_fill
  rcases h.tiled.apart hb hb' with rfl | he | he
  . exact absurd hu hk
  . omega
  omega

end Rep

end FscCfg

end UniProton
