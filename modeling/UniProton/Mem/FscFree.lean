import UniProton.Mem.FscLive

namespace UniProton

open Framework Function List

namespace FscCfg

variable {c : FscCfg} {s s' : Fsc} {bs pre post : List Blk} {fl : Nat → List Nat} {m : Memory}
  {b y : Blk} {lo hi i : Nat}

lemma Rep.next_ne_magic (h : c.Rep m lo hi bs fl) (hb : b∈bs) (hk : b.kind=.free i) :
    c.get m .next b.addr≠osFscMemMagicUsed := by
  have hi31 := h.idx b hb i hk
  have hmem := (h.links_mem hb hk).1
  have h4 : 4 ∣ c.word := by
    rcases c.word_ok with hw | hw <;> omega
  have hdvd : c.word ∣ c.get m .next b.addr := by
    rcases mem_cons.mp hmem with hh | hh
    . rw [hh]
      exact Nat.dvd_add (Nat.dvd_of_mod_eq_zero c.aligned)
        (Nat.dvd_mul_left_of_dvd (Nat.dvd_mul_left _ _) _)
    obtain ⟨b',hb',hba,-⟩ := (h.listed i hi31 _).mp hh
    rw [← hba]
    exact Nat.dvd_of_mod_eq_zero
      ((h.tiled.aligned (fun b hb => (h.fits b hb).2) h.room.aligned).2 b' hb')
  intro he
  rw [he] at hdvd
  exact absurd (Nat.dvd_trans h4 hdvd) (by decide)

lemma HeapOk.release (h : c.HeapOk s (pre++b::post) fl) (hk : b.kind=.used) :
    c.Ready s s (pre++post) pre {b with kind:=.loose} post fl := by
  obtain ⟨hpre,hprev,-,hpost⟩ := linked_append.mp h.linked
  exact { rep := h.rep.release hk, loose := rfl, front := hpre, back := hprev,
          rest := ⟨_,hpost⟩, kinds := fun b' hb' => h.kinds b' (mem_rest hb'),
          bits := fun b' hb' => h.bits b' (mem_rest hb'), last := h.last, used := rfl,
          inner := fun _ _ _ _ _ => rfl, same := rfl }

/-- Block `z` is a part of `y`; a header inside is cleared. -/
structure Within (c : FscCfg) (m : Memory) (y z : Blk) : Prop where
  low : y.addr≤z.addr
  high : z.addr+z.size≤y.addr+y.size
  head : z.addr=y.addr ∨ y.addr+4*c.word≤z.addr ∧ ∀ x, z.addr≤x → x<z.addr+4*c.word → m.byte x=0

/-- The freed block `y` has grown to `y'` over some of its neighbours. -/
structure Takes (c : FscCfg) (hi : Nat) (m m' : Memory) (bs : List Blk) (y : Blk)
    (bs' : List Blk) (y' : Blk) : Prop where
  bodies : c.Bodies bs hi m m'
  addrs : ∀ z∈y'::bs', ∃ b∈bs, b.addr=z.addr
  into : ∀ z∈bs, z∈bs' ∨ c.Within m' y' z
  cur : c.Within m' y' y

variable {y' w z w' : Blk} {m' : Memory}

lemma Within.start (haddr : y.addr=y'.addr) (hsize : y.size≤y'.size) : c.Within m y' y :=
  ⟨Nat.le_of_eq haddr.symm,by omega,.inl haddr⟩

lemma Within.cleared (hz : z.addr=w.addr+w.size) (haddr : w.addr=y'.addr)
    (hsize : y'.size=w.size+z.size) (hw : 4*c.word≤w.size) :
    c.Within (m.fill z.addr c.usedHeadSize 0) y' z := by
  refine ⟨by omega,by omega,.inr ⟨by omega,fun x hx hx' => ?_⟩⟩
  simp [Memory.fill,usedHeadSize,hx,hx']

lemma Takes.same {hi : Nat} (haddr : y.addr=y'.addr)
    (hsize : y.size=y'.size) (hm : c.Bodies (pre++y::post) hi m m') :
    c.Takes hi m m' (pre++y::post) y (pre++post) y' where
  bodies := hm
  addrs := forall_mem_cons.mpr ⟨⟨y,by simp,haddr⟩,fun z hz => ⟨z,mem_rest hz,rfl⟩⟩
  into z hz := by
    rcases mem_middle.mp hz with rfl | hz
    . exact .inr (.start haddr (Nat.le_of_eq hsize))
    exact .inl hz
  cur := .start haddr (Nat.le_of_eq hsize)

lemma Takes.refl {hi : Nat} (m : Memory) (pre : List Blk) (y : Blk) (post : List Blk) :
    c.Takes hi m m (pre++y::post) y (pre++post) y :=
  .same rfl rfl fun _ _ => rfl

lemma Within.trans (hrep : c.Rep m lo hi bs fl) (hy : y∈bs)
    (h : c.Within m y z) (hz : 4*c.word≤z.size) (hm : c.Bodies bs hi m m')
    (h' : c.Within m' y' y) : c.Within m' y' z where
  low := Nat.le_trans h'.low h.low
  high := Nat.le_trans h.high h'.high
  head := by
    have hlow := h'.low
    rcases h.head with he | ⟨hin,hzero⟩
    . rw [he]
      exact h'.head
    refine .inr ⟨by omega,fun x hx hx' => ?_⟩
    have hhigh := h.high
    rw [hrep.same_body hm hy (n:=1) (x:=x) (by omega) (by omega) x (by omega) (by omega)]
    exact hzero x hx hx'

lemma Takes.trans {m1 m2 : Memory} {bs' : List Blk} {y1 y2 : Blk}
    (h : c.Takes hi m m1 bs y (pre++post) y1) (hrep : c.Rep m1 lo hi (pre++y1::post) fl)
    (hfits : ∀ z∈bs, 4*c.word≤z.size) (hy : y∈bs)
    (h' : c.Takes hi m1 m2 (pre++y1::post) y1 bs' y2) : c.Takes hi m m2 bs y bs' y2 := by
  have hsub : ∀ b∈pre++y1::post, ∃ b'∈bs, b'.addr=b.addr := fun b hb =>
    h.addrs b (mem_cons.mpr (mem_middle.mp hb))
  have hin {z : Blk} (hz : z∈bs) (hw : c.Within m1 y1 z) : c.Within m2 y2 z :=
    .trans hrep (mem_middle.mpr (.inl rfl)) hw (hfits z hz) h'.bodies h'.cur
  refine ⟨h.bodies.trans (h'.bodies.mono hsub),fun z hz => ?_,fun z hz => ?_,hin hy h.cur⟩
  . obtain ⟨b,hb,hbz⟩ := h'.addrs z hz
    obtain ⟨b',hb',hbb⟩ := hsub b hb
    exact ⟨b',hb',hbb.trans hbz⟩
  rcases h.into z hz with hz' | hz'
  . exact h'.into z (mem_rest hz')
  exact .inr (hin hz hz')

lemma Ready.step {pre' post' : List Blk} {fl' : Nat → List Nat}
    (hr : c.Ready s s' bs pre y post fl)
    (hrep : c.Rep m s.memStartAddr (s.memStartAddr+s.memTotalSize) (pre'++y'::post') fl')
    (hloose : y'.kind=.loose)
    (hspare : c.Spares (pre'++y'::post') (s.memStartAddr+s.memTotalSize) s'.mem m)
    (hfront : c.Linked s'.mem 0 pre') (hback : c.get s'.mem .prevSize y'.addr=lastBack 0 pre')
    (hrest : ∃ q, c.Linked s'.mem q post') (hsub : ∀ b∈pre'++post', b∈pre++post)
    (hused : usedBlks (pre'++post')=usedBlks (pre++post)) :
    c.Ready s {s' with mem:=m} bs pre' y' post' fl' := by
  obtain ⟨q,hq⟩ := hrest
  have hprev : ∀ b∈pre'++y'::post', _ := fun b hb => hspare.prevSize _ (Rep.node_block hb)
  refine { rep := hrep, loose := hloose, front := ?_, back := ?_, rest := ⟨q,?_⟩,
           kinds := fun b hb => hr.kinds b (hsub b hb),
           bits := fun b hb => hr.bits b (hsub b hb), last := hr.last,
           used := hused.trans hr.used, inner := ?_, same := ?_ }
  . apply hfront.congr
    intro b hb
    exact hprev b (by simp [hb])
  . rw [hprev y' (by simp),hback]
  . apply hq.congr
    intro b hb
    exact hprev b (by simp [hb])
  . intro b hb
    obtain ⟨hin,hu⟩ := mem_usedBlks.mp (hused.trans hr.used ▸ hb)
    exact (hr.inner b hb).trans (hspare.inner b (mem_rest hin) hu)
  rw [hr.same]

lemma joined_addr {v : Blk} (l : List Blk) (hw : w.addr=v.addr) :
    ∀ b∈pre++v::post, ∃ b'∈pre++w::(l++post), b'.addr=b.addr := by
  intro b hb
  rcases mem_middle.mp hb with rfl | hb
  . exact ⟨w,by simp,hw⟩
  refine ⟨b,mem_rest ?_,rfl⟩
  simp only [mem_append] at hb ⊢
  tauto

lemma joined_used (l : List Blk) (hw : w'.kind=.loose) :
    ∀ b∈pre++w'::post, b.kind=.used → b∈pre++w::(l++post) := by
  intro b hb hu
  rcases mem_middle.mp hb with rfl | hb
  . simp [hw] at hu
  apply mem_rest
  simp only [mem_append] at hb ⊢
  tauto

lemma joined_from (hw : w.addr=w'.addr) :
    ∀ b∈w'::(pre++post), ∃ b'∈pre++w::z::post, b'.addr=b.addr :=
  fun b hb => joined_addr [z] hw b (mem_middle.mpr (mem_cons.mp hb))

lemma joined_into (hw : c.Within m w' w) (hz : c.Within m w' z) :
    ∀ b∈pre++w::z::post, b∈pre++post ∨ c.Within m w' b := by
  intro b hb
  rcases mem_middle.mp hb with rfl | hb
  . exact .inr hw
  rcases mem_middle.mp hb with rfl | hb
  . exact .inr hz
  exact .inl hb

lemma Ready.mergeNext (hr : c.Ready s s' bs pre y post fl) :
    ∃ y' post' fl', y'.addr=y.addr ∧ (∀ z∈post'.head?, z.kind=.used) ∧
      c.Ready s {s' with mem:=c.mergeNext s'.mem y.addr (y.addr+y.size)} bs pre y' post' fl' ∧
      c.Takes (s.memStartAddr+s.memTotalSize) s'.mem
        (c.mergeNext s'.mem y.addr (y.addr+y.size)) (pre++y::post) y (pre++post') y' := by
  have hw := c.word_pos
  have hnoop : c.get s'.mem .next (y.addr+y.size)=osFscMemMagicUsed →
      c.mergeNext s'.mem y.addr (y.addr+y.size)=s'.mem := by
    intro hmagic
    unfold FscCfg.mergeNext
    rw [if_neg (by simpa using hmagic)]
  cases hpost : post with
  | nil =>
    subst hpost
    have hend : y.addr+y.size=s.memStartAddr+s.memTotalSize := hr.rep.tiled.middle.2
    rw [hnoop (hend ▸ hr.rep.sentinel)]
    exact ⟨y,[],fl,rfl,by simp,hr,.refl _ _ _ _⟩
  | cons z post =>
    subst hpost
    have hz : z.addr=y.addr+y.size := hr.rep.tiled.middle.2.1
    have hzin : z∈pre++y::z::post := by simp
    rcases hr.kinds z (by simp) with hu | hf
    . rw [hnoop (hz ▸ (hr.rep.used z hzin hu).2.1)]
      exact ⟨y,z::post,fl,rfl,by simpa using hu,hr,.refl _ _ _ _⟩
    -- the block behind leaves its list, and its extent goes to the current one
    have hsplit : pre++y::z::post=(pre++[y])++z::post := by simp
    have hrep := hr.rep
    rw [hsplit] at hrep
    obtain ⟨⟨fl1,h1⟩,hspare1⟩ := hrep.delete hf
    rw [← hsplit] at hspare1
    replace h1 : c.Rep (c.osFscMemDelete s'.mem z.addr) s.memStartAddr
        (s.memStartAddr+s.memTotalSize) (pre++y :: {z with kind:=.loose} :: post)
        fl1 := by simpa using h1
    have hy4 := (hr.rep.fits y (by simp)).1
    have hz4 := (hr.rep.fits z hzin).1
    obtain ⟨h2,hspare2⟩ := h1.takeIn (by simp [hr.loose]) rfl
    obtain ⟨h3,hspare3⟩ := h2.wipe (b:={y with size:=y.size+z.size})
      (x:=z.addr) (n:=c.usedHeadSize) (by simp) (by simp [hr.loose]) (by dsimp only; omega)
      (by dsimp only; unfold usedHeadSize; omega)
    have hread : c.get (c.osFscMemDelete s'.mem z.addr) .size y.addr=y.size ∧
        c.get (c.osFscMemDelete s'.mem z.addr) .size z.addr=z.size :=
      ⟨h1.size y (by simp) (by simp [hr.loose]),
        h1.size {z with kind:=.loose} (by simp) (by simp)⟩
    have hmerge : c.mergeNext s'.mem y.addr (y.addr+y.size) =
        (c.set (c.osFscMemDelete s'.mem z.addr) .size y.addr (y.size+z.size)).fill z.addr
          c.usedHeadSize 0 := by
      unfold FscCfg.mergeNext
      rw [← hz,if_pos (hr.rep.next_ne_magic hzin hf)]
      simp only [hread]
    rw [hmerge]
    obtain ⟨q,-,-,hrest⟩ := hr.rest
    have hfirst : c.Within ((c.set (c.osFscMemDelete s'.mem z.addr) .size y.addr
        (y.size+z.size)).fill z.addr c.usedHeadSize 0) {y with size:=y.size+z.size} y :=
      .start rfl (Nat.le_add_right _ _)
    refine ⟨{y with size:=y.size+z.size},post,fl1,rfl,?_,?_,?_,joined_from rfl,
      joined_into hfirst (.cleared hz rfl rfl hy4),hfirst⟩
    . -- a block behind a free one is in use
      intro w hw'
      obtain ⟨post',rfl⟩ : ∃ l, post=w::l := by
        cases post with
        | nil => simp at hw'
        | cons v l => exact ⟨l,by simpa using hw'⟩
      have hback : z.back≠0 := by
        simp only [Blk.back,hf]
        omega
      rcases hr.kinds w (by simp) with hu | hwf
      . exact hu
      have hw0 := hrest.2.1.resolve_left hback
      simp only [Blk.back,hwf] at hw0
      have := (hr.rep.fits w (by simp)).1
      omega
    . refine hr.step h3 hr.loose ?_ hr.front hr.back ⟨_,hrest⟩ ?_ (by simp [usedBlks_cons,hf])
      . have h12 := (hspare1.mono (joined_addr (v:={y with size:=y.size+z.size}) [z] rfl)
          (joined_used [z] hr.loose)).trans (hspare2.mono (joined_addr [_] rfl)
            (joined_used [_] hr.loose))
        exact h12.trans hspare3
      exact fun b => mem_rest
    exact ((hr.rep.bodies_delete hzin hf).trans
      (bodies_set (Rep.node_block (b:=y) (by simp)))).trans (bodies_fill (Rep.node_block hzin))

lemma Ready.mergePrev (hr : c.Ready s s' bs pre y post fl) :
    ∃ pre' y' fl', (c.mergePrev s'.mem y.addr).2=y'.addr ∧ lastBack 0 pre'=0 ∧
      c.Ready s {s' with mem:=(c.mergePrev s'.mem y.addr).1} bs pre' y' post fl' ∧
      c.Takes (s.memStartAddr+s.memTotalSize) s'.mem (c.mergePrev s'.mem y.addr).1
        (pre++y::post) y (pre'++post) y' := by
  have hy : y∈pre++y::post := by simp
  unfold FscCfg.mergePrev
  by_cases h0 : lastBack 0 pre=0
  . rw [if_neg (by simp [hr.back,h0])]
    exact ⟨pre,y,fl,rfl,h0,hr,.refl _ _ _ _⟩
  rw [if_pos (by rw [hr.back]; exact h0)]
  rcases eq_nil_or_concat pre with rfl | ⟨pre',w,rfl⟩
  . simp [lastBack] at h0
  rw [concat_eq_append] at *
  rw [lastBack_concat] at h0
  have hwin : w∈pre'++[w]++y::post := by simp
  have hwf : w.kind=.free (Nat.log2 w.size) := by
    rcases hr.kinds w (by simp) with hu | hf
    . simp [Blk.back,hu] at h0
    exact hf
  have hback : c.get s'.mem .prevSize y.addr=w.size := by
    rw [hr.back,lastBack_concat]
    simp [Blk.back,hwf]
  have hrep : c.Rep s'.mem s.memStartAddr (s.memStartAddr+s.memTotalSize)
      (pre'++w::y::post) fl := by simpa using hr.rep
  have hwaddr : y.addr=w.addr+w.size := hrep.tiled.middle.2.1
  have hy4 := (hr.rep.fits y hy).1
  have hw4 := (hr.rep.fits w hwin).1
  obtain ⟨hfront,hwprev,hfree,-⟩ := linked_append.mp hr.front
  have hlast : lastBack 0 pre'=0 := hfree.resolve_right h0
  obtain ⟨h1,hspare1⟩ := hrep.takeIn (by simp [hwf]) hr.loose
  obtain ⟨⟨fl2,h2⟩,hspare2⟩ := h1.delete hwf
  obtain ⟨h3,hspare3⟩ := h2.wipe
    (b:={w with size:=w.size+y.size, kind:=.loose}) (x:=y.addr)
    (n:=c.usedHeadSize) (by simp) (by simp) (by dsimp only; omega)
    (by dsimp only; unfold usedHeadSize; omega)
  have hprevBlk : y.addr-c.get s'.mem .prevSize y.addr=w.addr := by omega
  have hsizes : c.get s'.mem .size w.addr=w.size ∧ c.get s'.mem .size y.addr=y.size :=
    ⟨hr.rep.size w hwin (by simp [hwf]),hr.rep.size y hy (by simp [hr.loose])⟩
  simp only [hprevBlk,hsizes]
  have hlist : pre'++[w]++y::post=pre'++w::y::post := by simp
  have hlast' : c.Within ((c.osFscMemDelete (c.set s'.mem .size w.addr (w.size+y.size))
      w.addr).fill y.addr c.usedHeadSize 0) {w with size:=w.size+y.size, kind:=.loose} y :=
    .cleared hwaddr rfl rfl hw4
  refine ⟨pre',{w with size:=w.size+y.size, kind:=.loose},fl2,rfl,hlast,?_,?_,?_,?_,hlast'⟩
  . refine hr.step h3 rfl ?_ hfront hwprev hr.rest ?_ (by simp [usedBlks,hwf])
    . have h12 := (hspare1.mono (joined_addr (v:={w with
        size := w.size+y.size, kind := .loose}) [y] rfl) (joined_used [y] rfl)).trans
        (hspare2.mono (joined_addr [] rfl) (joined_used [] rfl))
      exact h12.trans hspare3
    intro b hb
    simp only [mem_append,mem_singleton] at hb ⊢
    tauto
  . rw [hlist]
    exact ((bodies_set (Rep.node_block (b:=w) (by simp))).trans
      ((h1.bodies_delete (mem_middle.mpr (.inl rfl)) hwf).mono (joined_addr (w:=w) [y] rfl))).trans
      (bodies_fill (Rep.node_block (b:=y) (by simp)))
  . rw [hlist]
    exact joined_from rfl
  rw [hlist]
  exact joined_into (.start rfl (Nat.le_add_right _ _)) hlast'

lemma Ready.insert (hr : c.Ready s s' bs pre y post fl) (h0 : lastBack 0 pre=0)
    (hsolid : ∀ z∈post.head?, z.kind=.used) (htotal : s.memTotalSize+c.usedHeadSize≤c.maxval) :
    c.get (c.osFscMemInsert s' y.addr).mem .size y.addr=y.size ∧
      ∃ fl', c.HeapOk { c.osFscMemInsert s' y.addr with
          mem := c.set (c.osFscMemInsert s' y.addr).mem .prevSize (y.addr+y.size) y.size
          memUsage := usedSize bs }
        (pre ++ {y with kind:=.free (Nat.log2 y.size)} :: post) fl' ∧
        (∀ b∈usedBlks bs, s.mem.Same (c.set (c.osFscMemInsert s' y.addr).mem .prevSize
          (y.addr+y.size) y.size) (b.addr+3*c.word) (b.size-3*c.word)) ∧
        c.Takes (s.memStartAddr+s.memTotalSize) s'.mem (c.set (c.osFscMemInsert s' y.addr).mem
          .prevSize (y.addr+y.size) y.size) (pre++y::post) y (pre++post)
          {y with kind:=.free (Nat.log2 y.size)} := by
  have hw := c.word_pos
  have hy : y∈pre++y::post := by simp
  have hbounds := hr.rep.tiled.bounds hy
  have hlt : y.size<2^31 := by
    unfold maxval usedHeadSize osFscMemLastIdx at htotal
    omega
  obtain ⟨⟨fl',hrep⟩,hspare,hins,hbodies⟩ := insert_ok hr.rep hr.loose hlt
  have hnode := hrep.node_after
  have hprev : ∀ b∈pre++y::post,
      c.get (c.set (c.osFscMemInsert s' y.addr).mem .prevSize (y.addr+y.size) y.size) .prevSize
        b.addr=update (c.get s'.mem .prevSize) (y.addr+y.size) y.size b.addr := by
    intro b hb
    have hb' : c.Node (pre ++ {y with kind:=.free (Nat.log2 y.size)} :: post)
        (s.memStartAddr+s.memTotalSize) b.addr := node_change (Rep.node_block hb)
    have hval : y.size<256^c.word := by
      have := hr.rep.room.top
      omega
    rw [get_set hval (hrep.node_apart hnode hb')]
    by_cases hbn : b.addr=y.addr+y.size
    . rw [hbn,update_self,update_self]
    rw [update_of_ne hbn,update_of_ne hbn,hspare.prevSize _ (Rep.node_block hb)]
  refine ⟨hrep.size {y with kind:=.free (Nat.log2 y.size)} (by simp) (by simp),fl',?_,?_,
    .same rfl rfl (hbodies.trans (bodies_set hr.rep.node_after))⟩
  . refine hr.settle ?_ (hrep.setPrevSize hnode) hprev (.inr rfl) (.inl h0) (.inr hsolid) hins.kept
      ?_ ?_ htotal
    . rw [hins.same,hr.same]
      exact ⟨rfl,rfl⟩
    . intro i hk
      simp only [BlkKind.free.injEq] at hk
      exact hk ▸ hins.bit
    have hused := hr.used
    simp only [usedSize,usedBlks_append,usedBlks_cons,reduceCtorEq,if_false] at hused ⊢
    rw [hused]
  intro b hb
  have hb' := mem_usedBlks.mp (hr.used ▸ hb)
  have hin : b∈pre++y::post := mem_rest hb'.1
  refine ((hr.inner b hb).trans (hspare.inner b hin hb'.2)).trans
    (hrep.inner_setPrevSize (mem_change hin (by simp [hb'.2,hr.loose])) hnode)

variable {live : List (Nat×Nat)} {p : Nat×Nat}

lemma usedSize_middle (hk : b.kind=.used) :
    usedSize (pre++b::post)=usedSize (pre++post)+b.size := by
  simp only [usedSize,usedBlks_append,usedBlks_cons,hk,if_true,map_append,map_cons,
    sum_append,sum_cons]
  omega

lemma LiveOk.freed {bs' : List Blk} (hl : c.LiveOk m (pre++b::post) live)
    (hinc : (pre++b::post).Pairwise fun b b' => b.addr<b'.addr) (hk : b.kind=.used)
    (hp : p∈live) (hhead : c.osMemGetHeadAddr m p.1=b.addr)
    (hused : usedBlks bs'=usedBlks (pre++post))
    (hinner : ∀ b∈usedBlks (pre++post),m.Same m' (b.addr+3*c.word) (b.size-3*c.word)) :
    c.LiveOk m' bs' (live.erase p) := by
  have hnd := hl.heads_nodup hinc
  have hplaced : ∀ q∈live.erase p, q∈live ∧ ∃ b'∈usedBlks (pre++post),
      c.osMemGetHeadAddr m q.1=b'.addr ∧ b'.addr+c.usedHeadSize≤q.1 ∧
        q.1+q.2+c.tailSize≤b'.addr+b'.size := by
    intro q hq
    have hql := mem_of_mem_erase hq
    obtain ⟨b',hb',hh,hlow,hhigh⟩ := hl.placed q hql
    refine ⟨hql,b',?_,hh,hlow,hhigh⟩
    have hne : b'≠b := by
      rintro rfl
      obtain rfl := inj_on_of_nodup_map hnd hql hp (hh.trans hhead.symm)
      exact (List.Nodup.of_map _ hnd).not_mem_erase hq
    obtain ⟨hin,hu⟩ := mem_usedBlks.mp hb'
    exact mem_usedBlks.mpr ⟨(mem_middle.mp hin).resolve_left hne,hu⟩
  have hkeep : ∀ q∈live.erase p, c.osMemGetHeadAddr m' q.1=c.osMemGetHeadAddr m q.1 := by
    intro q hq
    obtain ⟨-,b',hb',-,hlow,hhigh⟩ := hplaced q hq
    exact getHeadAddr_same (hinner b' hb') hlow (by omega)
  constructor
  . intro q hq
    obtain ⟨-,b',hb',hh,hlow,hhigh⟩ := hplaced q hq
    exact ⟨b',hused ▸ hb',(hkeep q hq).trans hh,hlow,hhigh⟩
  rw [hused,map_congr_left hkeep]
  have hperm : (p::live.erase p).Perm live := (perm_cons_erase hp).symm
  have h1 := (hperm.map fun p => c.osMemGetHeadAddr m p.1).trans hl.owners
  have h2 : ((usedBlks (pre++b::post)).map Blk.addr).Perm
      (b.addr::(usedBlks (pre++post)).map Blk.addr) := by
    simp only [usedBlks_append,usedBlks_cons,hk,if_true,map_append,map_cons]
    exact perm_middle
  rw [map_cons,hhead] at h1
  exact (h1.trans h2).cons_inv

lemma HeapOk.free (h : c.HeapOk s bs fl) (hl : c.LiveOk s.mem bs live) (hp : p∈live) :
    ∃ s' bs' fl', c.osFscMemFree s p.1=(s',.osOk) ∧ c.HeapOk s' bs' fl' ∧
      (s'.memStartAddr=s.memStartAddr ∧ s'.memTotalSize=s.memTotalSize) ∧
      c.LiveOk s'.mem bs' (live.erase p) ∧ ∃ b y bs1, b∈bs ∧ c.osMemGetHeadAddr s.mem p.1=b.addr ∧
        b.addr+c.usedHeadSize≤p.1 ∧ p.1≤b.addr+b.size ∧ y∈bs' ∧ y.kind≠.used ∧ (∀ z∈bs1, z∈bs') ∧
        c.Takes (s.memStartAddr+s.memTotalSize) s.mem s'.mem bs b bs1 y := by
  obtain ⟨b,hb,hhead,hlow,hhigh⟩ := hl.placed p hp
  obtain ⟨hbs,hk⟩ := mem_usedBlks.mp hb
  have hw := c.word_pos
  have hpos := h.rep.room.pos
  have hbounds := h.rep.tiled.bounds hbs
  obtain ⟨hfive,hmagic,htail⟩ := h.rep.used b hbs hk
  have hsize := h.rep.size b hbs (by simp [hk])
  obtain ⟨pre,post,rfl⟩ := append_of_mem hbs
  obtain ⟨y1,post1,fl1,hy1,hsolid,hr1,ht1⟩ := (h.release hk).mergeNext
  obtain ⟨pre2,y2,fl2,hy2,hlast,hr2,ht2⟩ := hr1.mergePrev
  obtain ⟨hsz,fl3,hheap,hinner,ht3⟩ := hr2.insert hlast hsolid h.total
  have husage : s.memUsage-b.size=usedSize (pre++post) := by
    rw [h.usage,usedSize_middle hk]
    omega
  have hfree : c.osFscMemFree s p.1=({ c.osFscMemInsert {s with
      mem := (c.mergePrev (c.mergeNext s.mem b.addr (b.addr+b.size)) y1.addr).1} y2.addr with
      mem := c.set (c.osFscMemInsert {s with
        mem := (c.mergePrev (c.mergeNext s.mem b.addr (b.addr+b.size)) y1.addr).1}
        y2.addr).mem .prevSize (y2.addr+y2.size) y2.size
      memUsage := usedSize (pre++post) },.osOk) := by
    have hsz' := hsz
    rw [hy1] at hy2 hsz' ⊢
    unfold osFscMemFree tailAddr
    rw [if_neg (by omega),hhead]
    simp only [hsize]
    rw [if_neg (by omega),if_neg (by simpa using htail)]
    simp only [hy2,hsz']
    rw [← husage]
    rfl
  have hfits : ∀ z∈pre ++ {b with kind:=.loose} :: post, 4*c.word≤z.size := fun z hz =>
    ((h.release hk).rep.fits z hz).1
  have ht := (ht1.trans hr1.rep hfits (by simp) ht2).trans hr2.rep hfits (by simp) ht3
  have hcur : c.Within _ _ b := ⟨ht.cur.low,ht.cur.high,ht.cur.head⟩
  refine ⟨_,_,fl3,hfree,hheap,⟨rfl,rfl⟩,hl.freed h.rep.increasing hk hp hhead ?_ hinner,
    b,_,_,hbs,hhead,hlow,by omega,mem_middle.mpr (.inl rfl),nofun,fun z => mem_rest,
    ht.bodies.mono ?_,fun z hz => ?_,fun z hz => ?_,hcur⟩
  . rw [← hr2.used]
    simp [usedBlks]
  . intro z hz
    rcases mem_middle.mp hz with rfl | hz
    . exact ⟨b,by simp,rfl⟩
    exact ⟨z,mem_rest hz,rfl⟩
  . obtain ⟨b',hb',hz'⟩ := ht.addrs z hz
    rcases mem_middle.mp hb' with rfl | hb'
    . exact ⟨b,by simp,hz'⟩
    exact ⟨b',mem_rest hb',hz'⟩
  rcases mem_middle.mp hz with rfl | hz
  . exact .inr hcur
  exact ht.into z (mem_rest hz)

end FscCfg

end UniProton
