import UniProton.Framework.Dlist
import UniProton.Mem.Fsc

namespace UniProton

open Framework Function List

/-- How a block stands: `raw` before its header is written, `loose` while it is neither on a
free list nor marked used. -/
inductive BlkKind where
  | raw | loose | used
  | free (idx : Nat)
  deriving DecidableEq

/-- A block of the heap, in use or free. -/
structure Blk where
  addr : Nat
  size : Nat
  kind : BlkKind

lemma mem_middle {b y : Blk} {l1 l2 : List Blk} : b∈l1++y::l2 ↔ b=y ∨ b∈l1++l2 := by
  rw [perm_middle.mem_iff,mem_cons]

lemma mem_rest {b y : Blk} {l1 l2 : List Blk} (hb : b∈l1++l2) : b∈l1++y::l2 :=
  mem_middle.mpr (.inr hb)

def Tiled : Nat → List Blk → Nat → Prop
  | a, [], e => a=e
  | a, b::l, e => b.addr=a ∧ Tiled (a+b.size) l e

namespace Tiled

variable {a e : Nat} {l l1 l2 : List Blk} {b b' x : Blk}

lemma append_iff : Tiled a (l1++l2) e ↔ ∃ y, Tiled a l1 y ∧ Tiled y l2 e := by
  induction l1 generalizing a with
  | nil => simp [Tiled]
  | cons b l ih => simp [Tiled,ih,and_assoc]

lemma le (h : Tiled a l e) : a≤e := by
  induction l generalizing a with
  | nil => exact Nat.le_of_eq h
  | cons b l ih =>
    have := ih h.2
    omega

lemma bounds (h : Tiled a l e) (hb : b∈l) : a≤b.addr ∧ b.addr+b.size≤e := by
  induction l generalizing a with
  | nil => simp at hb
  | cons y l ih =>
    obtain ⟨hy,hl⟩ := h
    rcases mem_cons.mp hb with rfl | hb'
    . have := hl.le
      omega
    have := ih hl hb'
    omega

lemma middle (h : Tiled a (l1++x::l2) e) : Tiled a l1 x.addr ∧ Tiled (x.addr+x.size) l2 e := by
  obtain ⟨y,h1,rfl,h2⟩ := append_iff.mp h
  exact ⟨h1,h2⟩

lemma before (h : Tiled a (l1++x::l2) e) (hb : b∈l1) : b.addr+b.size≤x.addr :=
  (h.middle.1.bounds hb).2

lemma after (h : Tiled a (l1++x::l2) e) (hb : b∈l2) : x.addr+x.size≤b.addr :=
  (h.middle.2.bounds hb).1

lemma apart (h : Tiled a l e) (hb : b∈l) (hb' : b'∈l) :
    b=b' ∨ b.addr+b.size≤b'.addr ∨ b'.addr+b'.size≤b.addr := by
  obtain ⟨l1,l2,rfl⟩ := append_of_mem hb
  rcases mem_append.mp hb' with hl | hl
  . exact .inr (.inr (h.before hl))
  rcases mem_cons.mp hl with rfl | hl
  . exact .inl rfl
  exact .inr (.inl (h.after hl))

lemma aligned {n : Nat} (h : Tiled a l e) (hn : ∀ b∈l, b.size%n=0) (ha : a%n=0) :
    e%n=0 ∧ ∀ b∈l, b.addr%n=0 := by
  induction l generalizing a with
  | nil =>
    obtain rfl : a=e := h
    simp [ha]
  | cons y l ih =>
    obtain ⟨hy,hl⟩ := h
    have hy0 := hn y (by simp)
    have hnext : (a+y.size)%n=0 := by
      rw [Nat.add_mod,ha,hy0]
      simp
    obtain ⟨he,hrest⟩ := ih hl (fun b hb => hn b (mem_cons_of_mem _ hb)) hnext
    refine ⟨he,?_⟩
    intro b hb
    rcases mem_cons.mp hb with rfl | hb'
    . rw [hy,ha]
    exact hrest b hb'

lemma increasing (h : Tiled a l e) (hpos : ∀ b∈l, 0<b.size) :
    l.Pairwise fun b b' => b.addr<b'.addr := by
  induction l generalizing a with
  | nil => exact .nil
  | cons y l ih =>
    obtain ⟨hy,hl⟩ := h
    refine pairwise_cons.mpr ⟨?_,ih hl fun b hb => hpos b (mem_cons_of_mem _ hb)⟩
    intro b hb
    have := (hl.bounds hb).1
    have := hpos y (by simp)
    omega

lemma set_middle {new : List Blk} (h : Tiled a (l1++x::l2) e)
    (hnew : Tiled x.addr new (x.addr+x.size)) : Tiled a (l1++new++l2) e := by
  rw [append_iff]
  exact ⟨_,append_iff.mpr ⟨_,h.middle.1,hnew⟩,h.middle.2⟩

end Tiled

namespace FscCfg

variable {c : FscCfg} {m m' : Memory} {lo hi a x v n : Nat} {f g : FscField}

def Apart (c : FscCfg) (x a : Nat) : Prop := x=a ∨ x+4*c.word≤a ∨ a+4*c.word≤x

lemma get_lt (c : FscCfg) (m : Memory) (f : FscField) (a : Nat) :
    c.get m f a<256^c.word := m.read_lt _ _

lemma getHeadAddr_eq_iff {usr : Nat} (hlow : a+c.usedHeadSize≤usr) (htop : usr<256^c.word) :
    c.osMemGetHeadAddr m usr=a ↔ m.read (usr-2) 2=usr-(a+c.usedHeadSize) := by
  have hoff := m.read_lt (usr-2) 2
  have hword : 256^4≤256^c.word ∧ c.usedHeadSize≤32 := by
    unfold usedHeadSize
    rcases c.word_ok with hw | hw <;> rw [hw] <;> decide
  unfold osMemGetHeadAddr
  generalize m.read (usr-2) 2=off at *
  generalize c.usedHeadSize=head at *
  generalize 256^c.word=top at *
  by_cases hle : off+head≤usr
  . rw [show usr+top-(off+head)=usr-(off+head)+top by omega,Nat.add_mod_right,
      Nat.mod_eq_of_lt (by omega)]
    omega
  rw [Nat.mod_eq_of_lt (by omega)]
  omega

lemma get_set_self (hv : v<256^c.word) : c.get (c.set m f x v) f x=v := m.read_write_of_lt _ hv

lemma get_set_of_ne (ha : c.Apart x a) (hne : f≠g ∨ a≠x) :
    c.get (c.set m g x v) f a=c.get m f a := by
  apply Memory.read_write_of_disjoint
  rcases ha with rfl | ha
  . have hfg : f≠g := hne.resolve_right (fun h => h rfl)
    cases f <;> cases g <;> simp only [FscField.pos] <;> first | omega | exact absurd rfl hfg
  cases f <;> cases g <;> simp only [FscField.pos] <;> omega

lemma get_set (hv : v<256^c.word) (ha : c.Apart x a) :
    c.get (c.set m f x v) f a=update (c.get m f) x v a := by
  by_cases hax : a=x
  . subst hax
    rw [get_set_self hv,update_self]
  rw [get_set_of_ne ha (.inr hax),update_of_ne hax]

lemma same_set (h : a+n≤x ∨ x+4*c.word≤a) : m.Same (c.set m f x v) a n := by
  apply Memory.same_write
  cases f <;> simp only [FscField.pos] <;> omega

lemma get_of_same (h : m.Same m' a (4*c.word)) : c.get m' f a=c.get m f a := by
  apply Memory.Same.read
  apply h.sub
  . omega
  cases f <;> simp only [FscField.pos] <;> omega

/-- The memory given to the heap: a region of its own below the top of the address space. -/
structure Room (c : FscCfg) (lo hi : Nat) : Prop where
  pos : 0<lo
  aligned : lo%c.word=0
  top : hi+4*c.word≤256^c.word
  apart : c.nodeList+31*(4*c.word)≤lo ∨ hi+4*c.word≤c.nodeList

/-- The memory holds the blocks `bs` and the free lists `fl`. -/
structure Rep (c : FscCfg) (m : Memory) (lo hi : Nat) (bs : List Blk) (fl : Nat → List Nat) :
    Prop where
  room : c.Room lo hi
  tiled : Tiled lo bs hi
  fits : ∀ b∈bs, 4*c.word≤b.size ∧ b.size%c.word=0
  size : ∀ b∈bs, b.kind≠.raw → c.get m .size b.addr=b.size
  used : ∀ b∈bs, b.kind=.used → 5*c.word≤b.size ∧
    c.get m .next b.addr=osFscMemMagicUsed ∧
    m.read (b.addr+b.size-c.tailSize) 4=osFscMemTailMagic
  ring : ∀ i<31, Ringed (c.get m .next) (c.get m .prev) (c.head i) (fl i)
  listed : ∀ i<31, ∀ a, a∈fl i ↔ ∃ b∈bs, b.addr=a ∧ b.kind=.free i
  idx : ∀ b∈bs, ∀ i, b.kind=.free i → i<31
  sentinel : c.get m .next hi=osFscMemMagicUsed

def Node (c : FscCfg) (bs : List Blk) (hi a : Nat) : Prop :=
  (∃ i<31, a=c.head i) ∨ (∃ b∈bs, b.addr=a) ∨ a=hi

lemma word_ge (c : FscCfg) : 4≤c.word := by
  rcases c.word_ok with h | h <;> omega

lemma word_le (c : FscCfg) : c.word≤8 := by
  rcases c.word_ok with h | h <;> omega

lemma word_pos (c : FscCfg) : 0<c.word := Nat.lt_of_lt_of_le (by decide) c.word_ge

lemma head_lt (c : FscCfg) {i : Nat} (hi : i<31) :
    c.nodeList≤c.head i ∧ c.head i+4*c.word≤c.nodeList+31*(4*c.word) := by
  have h : i*(4*c.word)+4*c.word≤31*(4*c.word) := by
    rw [← Nat.succ_mul]
    exact Nat.mul_le_mul_right _ hi
  unfold head usedHeadSize
  omega

lemma head_apart (c : FscCfg) {i j : Nat} (hij : i<j) : c.head i+4*c.word≤c.head j := by
  have h : i*(4*c.word)+4*c.word≤j*(4*c.word) := by
    rw [← Nat.succ_mul]
    exact Nat.mul_le_mul_right _ hij
  unfold head usedHeadSize
  omega

lemma head_inj (c : FscCfg) {i j : Nat} (h : c.head i=c.head j) : i=j := by
  have hw := c.word_pos
  rcases Nat.lt_trichotomy i j with hij | hij | hij
  . have := c.head_apart hij
    omega
  . exact hij
  have := c.head_apart hij
  omega

/-- All back sizes stay, and so do the used blocks from their last header word on. -/
structure Spares (c : FscCfg) (bs : List Blk) (hi : Nat) (m m' : Memory) : Prop where
  prevSize : ∀ a, c.Node bs hi a → c.get m' .prevSize a=c.get m .prevSize a
  inner : ∀ b∈bs, b.kind=.used → m.Same m' (b.addr+3*c.word) (b.size-3*c.word)

def Bodies (c : FscCfg) (bs : List Blk) (hi : Nat) (m m' : Memory) : Prop :=
  ∀ x, (∀ a, c.Node bs hi a → x<a ∨ a+4*c.word≤x) → m'.byte x=m.byte x

variable {bs bs' : List Blk} {fl : Nat → List Nat} {b b' y : Blk} {m'' : Memory}

lemma Bodies.trans (h : c.Bodies bs hi m m') (h' : c.Bodies bs hi m' m'') : c.Bodies bs hi m m'' :=
  fun x hx => (h' x hx).trans (h x hx)

lemma bodies_set (hx : c.Node bs hi x) : c.Bodies bs hi m (c.set m f x v) :=
  fun a ha => same_set (n:=1) (ha x hx) a (Nat.le_refl _) (Nat.lt_succ_self _)

lemma bodies_fill (hx : c.Node bs hi x) : c.Bodies bs hi m (m.fill x c.usedHeadSize 0) :=
  fun a ha => Memory.same_fill (k:=1) (ha x hx) a (Nat.le_refl _) (Nat.lt_succ_self _)

lemma Spares.trans (h : c.Spares bs hi m m') (h' : c.Spares bs hi m' m'') :
    c.Spares bs hi m m'' where
  prevSize a ha := (h'.prevSize a ha).trans (h.prevSize a ha)
  inner b hb hk := (h.inner b hb hk).trans (h'.inner b hb hk)

lemma Node.mono (hsub : ∀ b∈bs, ∃ b'∈bs', b'.addr=b.addr) (ha : c.Node bs hi a) :
    c.Node bs' hi a := by
  rcases ha with ha | ⟨b,hb,rfl⟩ | ha
  . exact .inl ha
  . exact .inr (.inl (hsub b hb))
  exact .inr (.inr ha)

lemma Bodies.mono (h : c.Bodies bs hi m m') (hsub : ∀ b∈bs, ∃ b'∈bs', b'.addr=b.addr) :
    c.Bodies bs' hi m m' :=
  fun x hx => h x fun a ha => hx a (ha.mono hsub)

lemma Spares.mono (h : c.Spares bs hi m m') (hsub : ∀ b∈bs', ∃ b'∈bs, b'.addr=b.addr)
    (hu : ∀ b∈bs', b.kind=.used → b∈bs) : c.Spares bs' hi m m' where
  prevSize a ha := h.prevSize a (ha.mono hsub)
  inner b hb hk := h.inner b (hu b hb hk) hk

namespace Rep

lemma node_block (hb : b∈bs) : c.Node bs hi b.addr := .inr (.inl ⟨b,hb,rfl⟩)

variable {i : Nat}

lemma node_head (h : i<31) : c.Node bs hi (c.head i) := .inl ⟨i,h,rfl⟩

lemma node_end : c.Node bs hi hi := .inr (.inr rfl)

lemma head_out (h : c.Rep m lo hi bs fl) (h31 : i<31) :
    c.head i+4*c.word≤lo ∨ hi+4*c.word≤c.head i := by
  have := c.head_lt h31
  have := h.room.apart
  omega

lemma node_apart (h : c.Rep m lo hi bs fl) (hx : c.Node bs hi x) (ha : c.Node bs hi a) :
    c.Apart x a := by
  unfold Apart
  have hle := h.tiled.le
  rcases hx with ⟨i,hi31,rfl⟩ | ⟨b,hb,rfl⟩ | rfl <;>
    rcases ha with ⟨j,hj31,rfl⟩ | ⟨b',hb',rfl⟩ | rfl
  . rcases Nat.lt_trichotomy i j with hij | rfl | hij
    . exact .inr (.inl (c.head_apart hij))
    . exact .inl rfl
    exact .inr (.inr (c.head_apart hij))
  . have := h.head_out hi31
    have := h.tiled.bounds hb'
    omega
  . have := h.head_out hi31
    omega
  . have := h.head_out hj31
    have := h.tiled.bounds hb
    omega
  . have := (h.fits b hb).1
    have := (h.fits b' hb').1
    rcases h.tiled.apart hb hb' with rfl | hbb | hbb
    . exact .inl rfl
    . omega
    omega
  . have := h.tiled.bounds hb
    have := (h.fits b hb).1
    omega
  . have := h.head_out hj31
    omega
  . have := h.tiled.bounds hb'
    have := (h.fits b' hb').1
    omega
  exact .inl rfl

lemma body_apart (h : c.Rep m lo hi bs fl) (hb : b∈bs) (ha : c.Node bs hi a) :
    a+4*c.word≤b.addr+4*c.word ∨ b.addr+b.size≤a := by
  have hbb := h.tiled.bounds hb
  rcases ha with ⟨i,hi31,rfl⟩ | ⟨b',hb',rfl⟩ | rfl
  . have := h.head_out hi31
    omega
  . rcases h.tiled.apart hb hb' with rfl | hbb | hbb <;> omega
  omega

lemma same_body (h : c.Rep m lo hi bs fl) (hm : c.Bodies bs hi m' m'') (hb : b∈bs) {n : Nat}
    (hlow : b.addr+4*c.word≤x) (hhigh : x+n≤b.addr+b.size) : m'.Same m'' x n := by
  intro z hz hzn
  apply hm
  intro a ha
  have := h.body_apart hb ha
  omega

lemma eq_of_addr (h : c.Rep m lo hi bs fl) (hb : b∈bs) (hb' : b'∈bs)
    (he : b.addr=b'.addr) : b=b' := by
  have hw := c.word_pos
  have := (h.fits b hb).1
  have := (h.fits b' hb').1
  rcases h.tiled.apart hb hb' with hbb | hbb | hbb
  . exact hbb
  . omega
  omega

lemma addr_ne (h : c.Rep m lo hi bs fl) (hb : b∈bs) (hb' : b'∈bs)
    (hk : b.kind≠b'.kind) : b.addr≠b'.addr :=
  fun he => hk (congrArg Blk.kind (h.eq_of_addr hb hb' he))

lemma increasing (h : c.Rep m lo hi bs fl) : bs.Pairwise fun b b' => b.addr<b'.addr := by
  apply h.tiled.increasing
  intro b hb
  have := (h.fits b hb).1
  have := c.word_pos
  omega

lemma node_lt (h : c.Rep m lo hi bs fl) (ha : c.Node bs hi a) : a<256^c.word := by
  have hw := c.word_pos
  have htop := h.room.top
  rcases ha with ⟨i,hi31,rfl⟩ | ⟨b,hb,rfl⟩ | rfl
  . have := c.head_lt hi31
    have := c.fits
    omega
  . have := h.tiled.bounds hb
    omega
  omega

lemma tail_out (h : c.Rep m lo hi bs fl) (hb : b∈bs) (hu : b.kind=.used) (hx : c.Node bs hi x) :
    b.addr+b.size-c.tailSize+4≤x ∨ x+4*c.word≤b.addr+b.size-c.tailSize := by
  have hbody := h.body_apart hb hx
  have hfive := (h.used b hb hu).1
  have hw := c.word_ge
  unfold tailSize
  omega

lemma inner_out (h : c.Rep m lo hi bs fl) (hb : b∈bs) (hx : c.Node bs hi x) (hne : b.addr≠x) :
    b.addr+3*c.word+(b.size-3*c.word)≤x ∨ x+4*c.word≤b.addr+3*c.word := by
  have hbody := h.body_apart hb hx
  have hapart := h.node_apart (node_block hb) hx
  unfold Apart at hapart
  omega

lemma kind_of_ring (h : c.Rep m lo hi bs fl) (hi31 : i<31)
    (ha : b.addr∈c.head i::fl i) (hb : b∈bs) : b.kind=.free i := by
  rcases mem_cons.mp ha with hh | hh
  . have := h.head_out hi31
    have := h.tiled.bounds hb
    have := c.word_pos
    omega
  obtain ⟨b',hb',hba,hk⟩ := (h.listed i hi31 _).mp hh
  rw [← h.eq_of_addr hb' hb hba,hk]

lemma node_of_ring (h : c.Rep m lo hi bs fl) (hi31 : i<31)
    (ha : a∈c.head i::fl i) : c.Node bs hi a := by
  rcases mem_cons.mp ha with rfl | ha
  . exact node_head hi31
  obtain ⟨b,hb,rfl,-⟩ := (h.listed i hi31 a).mp ha
  exact node_block hb

lemma ring_ne_used (h : c.Rep m lo hi bs fl) (hi31 : i<31)
    (ha : a∈c.head i::fl i) (hb : b∈bs) (hu : b.kind=.used) : b.addr≠a := by
  rintro rfl
  rw [h.kind_of_ring hi31 ha hb] at hu
  simp at hu

lemma ring_ne_end (h : c.Rep m lo hi bs fl) (hi31 : i<31) (ha : a∈c.head i::fl i) : hi≠a := by
  have hw := c.word_pos
  have hle := h.tiled.le
  rintro rfl
  rcases mem_cons.mp ha with hh | hh
  . have := h.head_out hi31
    omega
  obtain ⟨b,hb,hba,-⟩ := (h.listed i hi31 _).mp hh
  have := h.tiled.bounds hb
  have := (h.fits b hb).1
  omega

lemma ring_disjoint (h : c.Rep m lo hi bs fl) {j : Nat} (hi31 : i<31) (hj31 : j<31)
    (hij : i≠j) (ha : a∈c.head i::fl i) : a∉c.head j::fl j := by
  intro haj
  rcases mem_cons.mp ha with rfl | hai
  . rcases mem_cons.mp haj with haj | haj
    . exact hij (c.head_inj haj)
    obtain ⟨b,hb,hba,-⟩ := (h.listed j hj31 _).mp haj
    have hbi := h.kind_of_ring hi31 (hba ▸ ha) hb
    have hbj := h.kind_of_ring hj31 (hba ▸ mem_cons_of_mem _ haj) hb
    rw [hbi] at hbj
    exact hij (by simpa using hbj)
  obtain ⟨b,hb,rfl,hbi⟩ := (h.listed i hi31 a).mp hai
  have hbj := h.kind_of_ring hj31 haj hb
  rw [hbi] at hbj
  exact hij (by simpa using hbj)

lemma frame (h : c.Rep m lo hi bs fl) (hget : ∀ f a, c.Node bs hi a → f≠.prevSize →
      (f=.prev → ∀ b∈bs, b.addr=a → b.kind≠.used) → c.get m' f a=c.get m f a)
    (htail : ∀ b∈bs, b.kind=.used →
      m.Same m' (b.addr+b.size-c.tailSize) 4) : c.Rep m' lo hi bs fl := by
  refine {h with size := ?_, used := ?_, ring := ?_, sentinel := ?_}
  . intro b hb hraw
    exact (hget .size _ (node_block hb) (by simp) (by simp)).trans (h.size b hb hraw)
  . intro b hb hu
    obtain ⟨hfive,hnext,hmagic⟩ := h.used b hb hu
    exact ⟨hfive,(hget .next _ (node_block hb) (by simp) (by simp)).trans hnext,
      (htail b hb hu).read.trans hmagic⟩
  . intro i hi31
    apply (h.ring i hi31).congr
    . intro y hy
      exact hget _ _ (h.node_of_ring hi31 hy) (by simp) (by simp)
    intro y hy
    apply hget _ _ (h.node_of_ring hi31 hy) (by simp)
    intro _ b hb hby hu
    exact h.ring_ne_used hi31 hy hb hu hby
  exact (hget .next _ node_end (by simp) (by simp)).trans h.sentinel

lemma setPrevSize (h : c.Rep m lo hi bs fl) (hx : c.Node bs hi x) :
    c.Rep (c.set m .prevSize x v) lo hi bs fl := by
  apply h.frame
  . intro f a ha hf _
    exact get_set_of_ne (h.node_apart hx ha) (.inl hf)
  intro b hb hu
  exact same_set (h.tail_out hb hu hx)

lemma inside (h : c.Rep m lo hi bs fl) (hb : b∈bs) {x n : Nat}
    (hin : b.kind=.used ∧ b.addr+3*c.word≤x ∧ x+n≤b.addr+b.size-c.tailSize ∨
      b.kind≠.used ∧ b.addr+4*c.word≤x ∧ x+n≤b.addr+b.size)
    (hm : ∀ a k, a+k≤x ∨ x+n≤a → m.Same m' a k) : c.Rep m' lo hi bs fl := by
  have hw := c.word_pos
  apply h.frame
  . intro f a ha hf hprev
    by_cases hab : a=b.addr
    . apply Memory.Same.read
      apply hm
      rcases hin with ⟨hu,hin⟩ | ⟨-,hin⟩
      . cases f <;> simp only [FscField.pos] <;> first | omega | simp_all
      cases f <;> simp only [FscField.pos] <;> omega
    apply get_of_same
    apply hm
    have := h.body_apart hb ha
    have := h.node_apart (node_block hb) ha
    unfold Apart at this
    rcases hin with ⟨-,hin⟩ | ⟨-,hin⟩
    . omega
    omega
  intro b' hb' hu'
  apply hm
  have hfive := (h.used b' hb' hu').1
  unfold tailSize at hin ⊢
  rcases h.tiled.apart hb hb' with rfl | hbb | hbb
  . rcases hin with ⟨-,hin⟩ | ⟨hu,-⟩
    . omega
    exact absurd hu' hu
  . rcases hin with ⟨-,hin⟩ | ⟨-,hin⟩ <;> omega
  rcases hin with ⟨-,hin⟩ | ⟨-,hin⟩ <;> omega

end Rep

end FscCfg

end UniProton
