import UniProton.Framework.Run
import UniProton.Mem.FscFree

namespace UniProton

open Framework List

/-- The heap between calls, with what its users hold. -/
structure FscRun where
  heap : Fsc
  live : List (Nat×Nat)
  hung : Bool

/-- The calls, and the user's own writes. -/
inductive FscInput where
  | alloc (size : UInt32) (call : AllocCall)
  | free (usr : Nat)
  | write (addr : Nat) (v : UInt8)

namespace FscCfg

variable (c : FscCfg)

def searchFuel (s : Fsc) : Nat := s.memTotalSize+64

def fscStep (r : FscRun) : FscInput → FscRun
  | .alloc size call =>
    match c.allocate r.heap (searchFuel r.heap) size call with
    | none => {r with hung:=true}
    | some (s,usr) =>
      {r with heap:=s, live:=if usr=0 then r.live else (usr,size.toNat)::r.live}
  | .free usr =>
    match c.osFscMemFree r.heap usr with
    | (s,.osOk) => {r with
        heap := s
        live := match r.live.find? fun p => p.1=usr with
          | some p => r.live.erase p
          | none => r.live}
    | (s,_) => {r with heap:=s}
  | .write addr v => {r with heap:={r.heap with mem:=r.heap.mem.write addr 1 v.toNat}}

/-- Users free what they hold, and write into the bytes they asked for. -/
def fair (r : FscRun) : FscInput → Prop
  | .alloc _ _ => True
  | .free usr => ∃ n, (usr,n)∈r.live
  | .write addr _ => ∃ p∈r.live, p.1≤addr ∧ addr<p.1+p.2

/-- Runs of a heap that `OsFscMemInit` has accepted, over any former memory. -/
def fscMachine (addr : Nat) (size : UInt32) : Machine FscRun FscInput where
  start r := ∃ m : Memory, ∃ s, c.osFscMemInit {mem:=m} addr size=(s,.osOk) ∧ r=⟨s,[],false⟩
  step := c.fscStep

variable {c} {r : FscRun} {addr : Nat} {size : UInt32} {s : Fsc} {bs : List Blk}
  {fl : Nat → List Nat} {live : List (Nat×Nat)}

/-- What holds between calls. -/
structure RunOk (c : FscCfg) (addr total : Nat) (r : FscRun) : Prop where
  heap : ∃ bs fl, c.HeapOk r.heap bs fl ∧ c.LiveOk r.heap.mem bs r.live
  start : r.heap.memStartAddr=addr
  total : r.heap.memTotalSize=total
  ends : r.hung=false

lemma length_le_total {a e : Nat} {l : List Blk} (h : Tiled a l e)
    (hpos : ∀ b∈l, 0<b.size) : a+l.length≤e := by
  induction l generalizing a with
  | nil => exact Nat.le_of_eq h
  | cons b l ih =>
    have := ih h.2 fun b hb => hpos b (mem_cons_of_mem _ hb)
    have := hpos b (by simp)
    simp only [length_cons]
    omega

lemma HeapOk.fuel_ok (h : c.HeapOk s bs fl) : 33+bs.length<searchFuel s := by
  have hlen := length_le_total h.rep.tiled fun b hb => by
    have := (h.rep.fits b hb).1
    have := c.word_pos
    omega
  unfold searchFuel
  omega

lemma allocate_of_not_admitted {fuel : Nat} {call : AllocCall} (hc : ¬call.admitted) :
    c.allocate s fuel size call=some (s,0) := by
  cases call with
  | alloc => exact absurd trivial hc
  | allocAlign pow =>
    have : 15≤pow ∨ pow<2 := by
      simp only [AllocCall.admitted] at hc
      omega
    rw [allocate,osMemAllocAlign,if_pos this]

lemma LiveOk.userWrite (hl : c.LiveOk s.mem bs live) (h : c.HeapOk s bs fl) {p : Nat×Nat}
    (hp : p∈live) {a : Nat} (hlow : p.1≤a) (hhigh : a<p.1+p.2) (v : Nat) :
    c.HeapOk {s with mem:=s.mem.write a 1 v} bs fl ∧
      c.LiveOk (s.mem.write a 1 v) bs live := by
  obtain ⟨b,hb,hhead,hblow,hbhigh⟩ := hl.placed p hp
  obtain ⟨hbs,hk⟩ := mem_usedBlks.mp hb
  unfold usedHeadSize tailSize at *
  have hrep : c.Rep (s.mem.write a 1 v) s.memStartAddr (s.memStartAddr+s.memTotalSize) bs fl := by
    apply h.rep.inside hbs (x:=a) (n:=1) _ fun _ _ => Memory.same_write
    unfold tailSize
    exact .inl ⟨hk,by omega,by omega⟩
  have hkeep : ∀ q∈live, c.osMemGetHeadAddr (s.mem.write a 1 v) q.1 =
      c.osMemGetHeadAddr s.mem q.1 := by
    intro q hq
    obtain ⟨b',hb',hhead',hblow',hbhigh'⟩ := hl.placed q hq
    unfold osMemGetHeadAddr
    rw [Memory.read_write_of_disjoint]
    have hw4 := c.word_ge
    rcases h.rep.tiled.apart hbs (mem_usedBlks.mp hb').1 with rfl | he | he
    . obtain rfl := inj_on_of_nodup_map (hl.heads_nodup h.rep.increasing) hq hp
        (hhead'.trans hhead.symm)
      omega
    . omega
    omega
  refine ⟨{h with rep:=hrep, linked:=h.linked.congr ?_},?_,?_⟩
  . intro b' hb'
    apply get_of_same
    apply Memory.same_write
    have := h.rep.body_apart hbs (Rep.node_block hb')
    omega
  . intro q hq
    obtain ⟨b',hb',hhead',hrest⟩ := hl.placed q hq
    exact ⟨b',hb',(hkeep q hq).trans hhead',hrest⟩
  rw [map_congr_left hkeep]
  exact hl.owners

lemma RunOk.step {total : Nat} {i : FscInput} (h : c.RunOk addr total r) (hi : fair r i) :
    c.RunOk addr total (c.fscStep r i) := by
  obtain ⟨⟨bs,fl,hheap,hlive⟩,hstart,htotal,hends⟩ := h
  cases i with
  | alloc size call =>
    by_cases hc : call.admitted
    . obtain ⟨s',usr,hrun,hcases⟩ := hheap.allocate size hc
      simp only [fscStep,hrun _ hheap.fuel_ok]
      rcases hcases with ⟨rfl,-,hheap',bitMap,hs'⟩ | ⟨hne,-,bs',y,ha⟩
      . refine ⟨⟨bs,fl,hheap',?_⟩,?_,?_,hends⟩ <;> rw [hs']
        . exact hlive
        . exact hstart
        exact htotal
      obtain ⟨fl',hheap'⟩ := ha.heap
      rw [if_neg hne]
      exact ⟨⟨bs',fl',hheap',hlive.allocated ha⟩,ha.region.1.trans hstart,
        ha.region.2.trans htotal,hends⟩
    simp only [fscStep,allocate_of_not_admitted hc,if_true]
    exact ⟨⟨bs,fl,hheap,hlive⟩,hstart,htotal,hends⟩
  | free usr =>
    obtain ⟨n,hn⟩ := hi
    cases hfind : r.live.find? fun p => p.1=usr with
    | none =>
      have := List.find?_eq_none.mp hfind _ hn
      simp at this
    | some p =>
      obtain rfl : p.1=usr := by simpa using List.find?_some hfind
      obtain ⟨s',bs',fl',hfree,hheap',hregion,hlive',-⟩ :=
        hheap.free hlive (mem_of_find?_eq_some hfind)
      simp only [fscStep,hfree,hfind]
      exact ⟨⟨bs',fl',hheap',hlive'⟩,hregion.1.trans hstart,hregion.2.trans htotal,hends⟩
  | write a v =>
    obtain ⟨p,hp,hlow,hhigh⟩ := hi
    obtain ⟨hheap',hlive'⟩ := hlive.userWrite hheap hp hlow hhigh v.toNat
    exact ⟨⟨bs,fl,hheap',hlive'⟩,hstart,htotal,hends⟩

lemma runOk_of_reaches (hreg : c.Region addr size.toNat)
    (hsize : 2*c.usedHeadSize ≤ size.toNat) (h : (c.fscMachine addr size).Reaches fair r) :
    c.RunOk addr (size.toNat-c.usedHeadSize) r := by
  apply h.invariant
  . rintro r ⟨m,s,hinit,rfl⟩
    have hheap := init_heapOk hinit hreg hsize rfl
    obtain ⟨-,-,-,-,-,rfl⟩ := osFscMemInit_ok hinit
    exact ⟨⟨_,_,hheap,by simp,by simp [usedBlks]⟩,rfl,rfl,rfl⟩
  intro r i hr hi
  exact hr.step hi

/-- A heap whose region holds two control blocks keeps its invariant in every run. -/
theorem heap_invariant (c : FscCfg) (addr : Nat) (size : UInt32) (r : FscRun)
    (hreg : c.Region addr size.toNat) (hsize : 2*c.usedHeadSize ≤ size.toNat)
    (h : (c.fscMachine addr size).Reaches fair r) : r.hung=false ∧ r.heap.memStartAddr=addr ∧
      r.heap.memTotalSize=size.toNat-c.usedHeadSize ∧ ∃ bs fl, c.HeapOk r.heap bs fl := by
  obtain ⟨⟨bs,fl,hheap,-⟩,hstart,htotal,hends⟩ := runOk_of_reaches hreg hsize h
  exact ⟨hends,hstart,htotal,bs,fl,hheap⟩

lemma fresh_reaches : (build64.fscMachine 0x10000 1024).Reaches fair ⟨fresh,[],false⟩ :=
  .start ⟨_,fresh,fresh_eq,rfl⟩

/-- The search ends with a free block of the size asked for, or there is none, and gives up only the
bits of empty lists. -/
theorem search_complete (c : FscCfg) (s : Fsc) (bs : List Blk) (fl : Nat → List Nat)
    (h : c.HeapOk s bs fl) (size : Nat) (hsize : size<c.maxval) : ∃ r, c.SearchOk s bs fl size r ∧
      ∃ n, ∀ fuel > n, c.osFscMemSearch s fuel size=some r := by
  obtain ⟨r,hr,hrun⟩ := search_ok h hsize
  exact ⟨r,hr,_,hrun⟩

/-- What the search finds does not depend on the fuel. -/
lemma HeapOk.allocate_fuel (h : c.HeapOk s bs fl) (size : UInt32) (call : AllocCall)
    (hc : call.admitted) {fuel : Nat} (hf : searchFuel s ≤ fuel) :
    c.allocate s fuel size call=c.allocate s (searchFuel s) size call := by
  obtain ⟨s',usr,hrun,-⟩ := h.allocate size hc
  rw [hrun _ h.fuel_ok,hrun _ (Nat.lt_of_lt_of_le h.fuel_ok hf)]

def mixedInputs : List FscInput :=
  [.alloc 600 .alloc,.alloc 100 .alloc,.alloc 64 .alloc,.free 65776]

/-- Two blocks in use and free ones in the lists 6 and 7, while the bitmap still has 8 and 9. -/
def mixed : FscRun := (build64.fscMachine 0x10000 1024).run ⟨fresh,[],false⟩ mixedInputs

lemma mixed_live : mixed.live=[(65672,64),(65920,600)] := by decide +kernel

lemma mixed_ok : ∃ bs fl, build64.HeapOk mixed.heap bs fl ∧
    build64.LiveOk mixed.heap.mem bs mixed.live := by
  refine (runOk_of_reaches fresh_region (by decide) (fresh_reaches.run mixedInputs ?_)).heap
  refine ⟨trivial,trivial,trivial,⟨100,?_⟩,trivial⟩
  decide +kernel

theorem search_complete_mixed :
    mixed.heap.fscMemBitMap.getMsbD 9=true ∧
      build64.get mixed.heap.mem .next (build64.head 9)=build64.head 9 ∧
      ∃ bs fl, build64.HeapOk mixed.heap bs fl ∧ ∃ r, build64.SearchOk mixed.heap bs fl 130 r ∧
        ∃ n, ∀ fuel > n, build64.osFscMemSearch mixed.heap fuel 130=some r := by
  obtain ⟨bs,fl,h,-⟩ := mixed_ok
  refine ⟨by decide +kernel,by decide +kernel,bs,fl,h,?_⟩
  exact search_complete build64 mixed.heap bs fl h 130 (by decide)

/-- Every allocation that succeeds has bytes of its own, large enough and aligned. The one sum that
32 bits may not hold is refused. -/
theorem alloc_placed (c : FscCfg) (s : Fsc) (bs : List Blk) (fl : Nat → List Nat)
    (live : List (Nat×Nat)) (h : c.HeapOk s bs fl) (hl : c.LiveOk s.mem bs live) (size : UInt32)
    (call : AllocCall) (hc : call.admitted) :
    ∃ s' usr n, (∀ fuel > n, c.allocate s fuel size call=some (s',usr)) ∧
      (2^32≤c.allocSum size.toNat (c.alignOf call) → usr=0) ∧
      (usr≠0 → c.allocSum size.toNat (c.alignOf call)+c.minSize<2^32 ∧
        ∃ bs' fl', c.HeapOk s' bs' fl' ∧ c.LiveOk s'.mem bs' ((usr,size.toNat)::live) ∧
          c.Placed bs' live usr size.toNat (c.alignOf call)) := by
  obtain ⟨hal,hpos,hmax⟩ := c.alignOf_ok hc
  obtain ⟨s',usr,hrun,hcases⟩ := h.allocate size hc
  refine ⟨s',usr,_,hrun,?_,?_⟩
  . intro hwrap
    rcases hcases with ⟨h0,-⟩ | ⟨-,⟨n,hreq,-⟩,-⟩
    . exact h0
    have := (request_eq hmax hreq).2.1
    omega
  intro h0
  rcases hcases with ⟨h0',-⟩ | ⟨-,⟨n,hreq,-⟩,bs',y,ha⟩
  . exact absurd h0' h0
  obtain ⟨hn,-,-,-,hmin⟩ := request_eq hmax hreq
  obtain ⟨fl',hheap⟩ := ha.heap
  exact ⟨hn ▸ hmin,bs',fl',hheap,hl.allocated ha,hl.place hal hpos ha⟩

theorem alloc_placed_mixed :
    ∃ s' usr, usr≠0 ∧ (∃ n, ∀ fuel > n, build64.allocate mixed.heap fuel 40 .alloc=some (s',usr)) ∧
      ∃ bs fl, build64.HeapOk s' bs fl ∧
        build64.LiveOk s'.mem bs [(usr,40),(65672,64),(65920,600)] ∧
        build64.Placed bs [(65672,64),(65920,600)] usr 40 (build64.alignOf .alloc) := by
  obtain ⟨bs,fl,h,hl⟩ := mixed_ok
  obtain ⟨s',usr,n,hrun,-,hplaced⟩ := alloc_placed build64 mixed.heap bs fl _ h hl 40 .alloc trivial
  have hne : usr≠0 := by
    have hfuel := h.allocate_fuel 40 .alloc trivial (Nat.le_add_left _ (n+1))
    rw [hrun _ (by omega)] at hfuel
    have hserved : (build64.allocate mixed.heap (searchFuel mixed.heap) 40 .alloc).map Prod.snd≠
        some 0 := by decide +kernel
    rw [← hfuel] at hserved
    exact fun h0 => hserved (congrArg some h0)
  obtain ⟨-,bs',fl',hheap,hlive,hplace⟩ := hplaced hne
  rw [mixed_live] at hlive hplace
  exact ⟨s',usr,hne,⟨n,hrun⟩,bs',fl',hheap,hlive,hplace⟩

/-- The sum for the largest size is 2^32 + 40, and its low 32 bits are 40. -/
theorem alloc_sum_wraps :
    ¬ ∀ size : UInt32, build64.allocSum size.toNat (build64.alignOf .alloc) % 2^32 =
      build64.allocSum size.toNat (build64.alignOf .alloc) := by
  intro h
  have := h 0xFFFFFFFF
  revert this
  decide

def heapInputs : List FscInput :=
  [.alloc 100 .alloc,.alloc 64 (.allocAlign 6),.free 66416,.write 66304 7]

lemma heapInputs_fair :
    (build64.fscMachine 0x10000 1024).Allowed fair ⟨fresh,[],false⟩ heapInputs := by
  refine ⟨trivial,trivial,⟨100,?_⟩,⟨(66304,64),?_,by decide,by decide⟩,trivial⟩
  . decide +kernel
  decide +kernel

theorem heap_invariant_inputs : ∃ bs fl, build64.HeapOk
      ((build64.fscMachine 0x10000 1024).run ⟨fresh,[],false⟩ heapInputs).heap bs fl :=
  (heap_invariant build64 0x10000 1024 _ fresh_region (by decide)
    (fresh_reaches.run _ heapInputs_fair)).2.2.2

/-- Five words are accepted, and the end sentinel is written over the size of the only block. -/
def cramped : Fsc := (build64.osFscMemInit blank 0x10000 40).1

lemma cramped_eq : build64.osFscMemInit blank 0x10000 40=(cramped,.osOk) := Prod.ext rfl (by decide)

lemma cramped_size : build64.get cramped.mem .size 0x10000=osFscMemMagicUsed := by decide +kernel

lemma cramped_not_tiled (bs : List Blk) (fl : Nat → List Nat) : ¬build64.HeapOk cramped bs fl := by
  intro h
  have htile : Tiled 0x10000 bs (0x10000+8) := h.rep.tiled
  cases bs with
  | nil =>
    have : 0x10000=0x10000+8 := htile
    omega
  | cons b l =>
    have haddr : b.addr=0x10000 := htile.1
    have hbound := htile.bounds (b:=b) (by simp)
    have hraw : b.kind≠.raw := by
      rcases h.kinds b (by simp) with hk | hk <;> simp [hk]
    have hsize := h.rep.size b (by simp) hraw
    rw [haddr,cramped_size] at hsize
    unfold osFscMemMagicUsed at hsize
    omega

theorem heap_invariant_lost_by_small_region :
    ∃ r, (build64.fscMachine 0x10000 40).Reaches fair r ∧ ∀ bs fl, ¬build64.HeapOk r.heap bs fl :=
  ⟨⟨cramped,[],false⟩,.start ⟨_,cramped,cramped_eq,rfl⟩,cramped_not_tiled⟩

lemma HeapOk.single (h : c.HeapOk s bs fl) (hused : usedBlks bs=[]) (htotal : 0<s.memTotalSize) :
    bs=[⟨s.memStartAddr,s.memTotalSize,.free (Nat.log2 s.memTotalSize)⟩] := by
  have hw := c.word_pos
  have hfree : ∀ b∈bs, b.kind=.free (Nat.log2 b.size) := by
    intro b hb
    apply (h.kinds b hb).resolve_left
    intro hu
    have := mem_usedBlks.mpr ⟨hb,hu⟩
    simp [hused] at this
  have htile := h.rep.tiled
  match bs, h, hfree, htile with
  | [], _, _, htile =>
    have : s.memStartAddr=s.memStartAddr+s.memTotalSize := htile
    omega
  | [b], _, hfree, htile =>
    obtain ⟨haddr,hend⟩ := htile
    have hend : s.memStartAddr+b.size=s.memStartAddr+s.memTotalSize := hend
    cases b
    simp_all
  | b::b'::l, h, hfree, _ =>
    obtain ⟨-,-,-,hadj,-⟩ := h.linked
    have h1 := (h.rep.fits b (by simp)).1
    have h2 := (h.rep.fits b' (by simp)).1
    have hb := hfree b (by simp)
    have hb' := hfree b' (by simp)
    simp only [Blk.back,hb,hb'] at hadj
    omega

/-- The request is served, whatever fuel beyond some bound the search gets. -/
def Succeeds (c : FscCfg) (s : Fsc) (size : UInt32) (call : AllocCall) : Prop :=
  ∃ n, ∀ fuel > n, ∃ s' usr, usr≠0 ∧ c.allocate s fuel size call=some (s',usr)

lemma HeapOk.succeeds_iff (h : c.HeapOk s bs fl) {call : AllocCall} :
    c.Succeeds s size call ↔ call.admitted ∧ c.Serves bs size (c.alignOf call) := by
  by_cases hc : call.admitted
  . obtain ⟨s',usr,hrun,hcases⟩ := h.allocate size hc
    constructor
    . rintro ⟨n,hn⟩
      obtain ⟨s1,usr1,hne,heq⟩ := hn (n+33+bs.length+1) (by omega)
      rw [hrun _ (by omega)] at heq
      simp only [Option.some.injEq,Prod.mk.injEq] at heq
      rcases hcases with ⟨h0,-⟩ | ⟨-,hserves,-⟩
      . exact absurd (heq.2.symm.trans h0) hne
      exact ⟨hc,hserves⟩
    rintro ⟨-,hserves⟩
    rcases hcases with ⟨-,hnot,-⟩ | ⟨hne,-,-⟩
    . exact absurd hserves hnot
    exact ⟨_,fun fuel hf => ⟨s',usr,hne,hrun fuel hf⟩⟩
  constructor
  . rintro ⟨n,hn⟩
    obtain ⟨s1,usr1,hne,heq⟩ := hn (n+1) (by omega)
    rw [allocate_of_not_admitted hc] at heq
    simp only [Option.some.injEq,Prod.mk.injEq] at heq
    exact absurd heq.2.symm hne
  rintro ⟨h,-⟩
  exact absurd h hc

/-- When everything is given back, in whatever order, the heap is one free block again and serves
what it served at first. -/
theorem full_coalescing (c : FscCfg) (addr : Nat) (size : UInt32) (r : FscRun) (m : Memory) (s : Fsc)
    (hreg : c.Region addr size.toNat) (hsize : 2*c.usedHeadSize ≤ size.toNat)
    (hinit : c.osFscMemInit {mem:=m} addr size=(s,.osOk))
    (h : (c.fscMachine addr size).Reaches fair r) (hlive : r.live=[]) :
    (∃ fl, c.HeapOk r.heap [⟨addr,size.toNat-c.usedHeadSize,
        .free (Nat.log2 (size.toNat-c.usedHeadSize))⟩] fl) ∧
      r.heap.memUsage=0 ∧
      ∀ n call, c.Succeeds s n call → c.Succeeds r.heap n call := by
  obtain ⟨⟨bs,fl,hheap,hl⟩,hstart,htotal,-⟩ := runOk_of_reaches hreg hsize h
  have hw := c.word_pos
  have hused : usedBlks bs=[] := by
    have := hl.owners
    rw [hlive] at this
    simpa using this.symm.eq_nil
  have hpos : 0<r.heap.memTotalSize := by
    unfold usedHeadSize at hsize htotal
    omega
  have hbs := hheap.single hused hpos
  rw [hstart,htotal] at hbs
  subst hbs
  refine ⟨⟨fl,hheap⟩,?_,?_⟩
  . simpa [usedSize,usedBlks] using hheap.usage
  intro n call hs
  exact hheap.succeeds_iff.mpr ((init_heapOk hinit hreg hsize rfl).succeeds_iff.mp hs)

def returnInputs : List FscInput :=
  [.alloc 100 .alloc,.alloc 64 (.allocAlign 6),.free 66416,.free 66304]

lemma returnInputs_fair :
    (build64.fscMachine 0x10000 1024).Allowed fair ⟨fresh,[],false⟩ returnInputs := by
  refine ⟨trivial,trivial,⟨100,?_⟩,⟨64,?_⟩,trivial⟩
  . decide +kernel
  decide +kernel

theorem full_coalescing_returned :
    (∃ fl, build64.HeapOk ((build64.fscMachine 0x10000 1024).run ⟨fresh,[],false⟩
        returnInputs).heap [⟨0x10000,992,.free 9⟩] fl) ∧
      ((build64.fscMachine 0x10000 1024).run ⟨fresh,[],false⟩ returnInputs).heap.memUsage=0 ∧
      ∀ n call, build64.Succeeds fresh n call → build64.Succeeds
        ((build64.fscMachine 0x10000 1024).run ⟨fresh,[],false⟩ returnInputs).heap n call :=
  full_coalescing build64 0x10000 1024 _ ⟨fun _ => 0⟩ fresh fresh_region (by decide) fresh_eq
    (fresh_reaches.run _ returnInputs_fair) (by decide +kernel)

theorem coalescing_lost_by_small_region :
    ∃ r, (build64.fscMachine 0x10000 40).Reaches fair r ∧ r.live=[] ∧
      ∀ fl, ¬build64.HeapOk r.heap [⟨0x10000,8,.free 3⟩] fl :=
  ⟨⟨cramped,[],false⟩,.start ⟨_,cramped,cramped_eq,rfl⟩,rfl,cramped_not_tiled _⟩

end FscCfg

end UniProton
