import UniProton.Timer.Pointers

namespace UniProton

open Framework Function List Pool

namespace LinkedTmrs

variable {c : TmrCfg} {t : LinkedTmrs} {a : SwTmrs} {first : Ptr Nat Nat} {out out' : List Nat}
  {i : Nat}

/-- The pointers are those of the lists of `a`, and `first` begins the chain `out`. -/
structure Rep (t : LinkedTmrs) (first : Ptr Nat Nat) (a : SwTmrs) (out : List Nat) : Prop where
  cb : t.cb=a.cb
  cursor : t.cursor=a.cursor
  uniTicks : t.uniTicks=a.uniTicks
  pool : t.pool.Holds (Pool.places a.sortLink a.freeList out) first
    fun i => (a.cb i).state=.created

lemma Rep.ring (hr : t.Rep first a out) (s : Nat) :
    Ringed t.pool.next t.pool.prev (.head s) ((a.sortLink s).map .node) := hr.pool.ring s

lemma Rep.ring_spans (hr : t.Rep first a out) (s : Nat) :
    Spans t.pool.next (t.pool.next (.head s)) ((a.sortLink s).map .node) (.head s) :=
  hr.pool.ring_spans s

def Filed (c : TmrCfg) (a : SwTmrs) : Prop := ∀ s, ∀ j∈a.sortLink s, j<c.maxNum

lemma Filed.of_wheelOk (h : a.WheelOk c out') : Filed c a := by
  intro s j hj
  exact h.known j (by simp [((h.linked s j).mp hj).1])

lemma Filed.length_le (h : Filed c a) {s : Nat} (hnd : (a.sortLink s).Nodup) :
    (a.sortLink s).length≤c.maxNum := by
  have hsub : a.sortLink s ⊆ List.range c.maxNum := by
    intro j hj
    exact mem_range.mpr (h s j hj)
  have hle := (subperm_of_subset hnd hsub).length_le
  rwa [length_range] at hle

section Walks

variable {p : Pool Nat Nat} {l : List Nat} {n s : Nat} {b : Nat → SwTmrCtrl}

lemma findPlace_eq (hn : l.length≤n) (hs : Spans p.next (front l (.head s))
    (l.map .node) (.head s)) : ∃ l1 l2, l=l1++l2 ∧ (SwTmrs.sortLinkInsert b i l).2=l1++i::l2 ∧
      findPlace p i n b (front l (.head s)) =
        ((SwTmrs.sortLinkInsert b i l).1,front l2 (.head s)) := by
  induction l generalizing n b with
  | nil =>
    refine ⟨[],[],rfl,rfl,?_⟩
    cases n <;> rfl
  | cons temp l ih =>
    obtain ⟨n,rfl⟩ : ∃ m, n=m+1 := ⟨n-1,by simp at hn; omega⟩
    have hrest := hs.2
    have hnext : p.next (.node temp)=front l (.head s) := eq_front_of_spans hrest
    by_cases hlt : uwRollNum (b i).idxRollNum<uwRollNum (b temp).idxRollNum
    . refine ⟨[],temp::l,rfl,?_,?_⟩
      . rw [SwTmrs.sortLinkInsert,if_pos hlt]
        rfl
      rw [front,findPlace,SwTmrs.sortLinkInsert,if_pos hlt,if_pos hlt]
    rw [hnext] at hrest
    obtain ⟨l1,l2,hl,hins,hfind⟩ := ih (n:=n) (Nat.le_of_succ_le_succ hn) hrest
    refine ⟨temp::l1,l2,congrArg (temp :: ·) hl,?_,?_⟩
    . rw [SwTmrs.sortLinkInsert,if_neg hlt]
      exact congrArg (temp :: ·) hins
    rw [front,findPlace,SwTmrs.sortLinkInsert,if_neg hlt,if_neg hlt,hnext]
    exact hfind

lemma prevRolls_eq {x : Nat} {r : BitVec 32} {next : Ptr Nat Nat → Ptr Nat Nat}
    (hn : l.length<n) (hc : Chained next p.prev (.head s) (l.map .node) (.node x)) :
    prevRolls p b n (.node x) r =
      (x::l.reverse).foldl (fun r j => r+uwRollNum (b j).idxRollNum) r := by
  induction l using List.reverseRecOn generalizing n x r with
  | nil =>
    obtain ⟨n,rfl⟩ : ∃ m, n=m+1 := ⟨n-1,by omega⟩
    have hprev : p.prev (.node x)=.head s := hc.2
    rw [prevRolls,hprev]
    cases n <;> rfl
  | append_singleton l y ih =>
    obtain ⟨n,rfl⟩ : ∃ m, n=m+1 := ⟨n-1,by omega⟩
    rw [map_append,map_singleton] at hc
    obtain ⟨hc1,hc2⟩ := Chained.append_iff.mp hc
    have hprev : p.prev (.node x)=.node y := hc2.2
    rw [prevRolls,hprev,ih (by simp at hn; omega) hc1]
    simp

variable {r : Spot Nat → List Nat} {d : List Nat} {I : Nat → Prop}

lemma scanLoop_eq (hp : p.Holds r first I) (hl : r (.ring s)=d++l) (hn : l.length≤n) :
    scanLoop p (.head s) n b (back (.head s) d) (front (d++l) .null) =
      ((SwTmrs.scanSlot b l).1,back (.head s) (d++(SwTmrs.scanSlot b l).2.1),
        front (d++(SwTmrs.scanSlot b l).2.1) .null) := by
  have hbetween := hp.between hl
  induction l generalizing n b d with
  | nil =>
    rw [SwTmrs.scanSlot,append_nil]
    cases n with
    | zero => rfl
    | succ n =>
      rw [scanLoop,hbetween.1]
      rfl
  | cons i l ih =>
    obtain ⟨n,rfl⟩ : ∃ m, n=m+1 := ⟨n-1,by simp at hn; omega⟩
    have hnext : p.next (back (.head s) d)=.node i := hbetween.1
    have hprev : p.prev (.node i)=back (.head s) d := hbetween.2
    rw [scanLoop,hnext]
    by_cases hroll : 0<uwRollNum (b i).idxRollNum
    . simp only [SwTmrs.scanSlot,hroll,if_true,hprev,append_nil]
      rcases eq_nil_or_concat' d with rfl | ⟨l',o,rfl⟩
      . rw [back,if_pos rfl]
        rfl
      rw [back_append,if_neg (by simp)]
      cases l' <;> rfl
    simp only [SwTmrs.scanSlot,hroll,if_false]
    have hl' : r (.ring s)=(d++[i])++l := by rw [hl,append_assoc]; rfl
    have hih := ih (n:=n) (b:=update b i { b i with
      overrun := if (b i).overrun<0xFF then (b i).overrun+1 else (b i).overrun
      state := .expired .default }) hl' (Nat.le_of_succ_le_succ hn) (hp.between hl')
    rw [back_append] at hih
    simpa using hih

end Walks

section Start

variable (hr : t.Rep first a out) (hfiled : Filed c a)
  (hfresh : ∀ q, i∉places a.sortLink a.freeList out q) (n : BitVec 32)

include hr hfiled

lemma Rep.start_place :
    ∃ l1 l2, a.sortLink (uwSortIndex (SwTmrs.startCb c a i n).idxRollNum).toNat=l1++l2 ∧
      (SwTmrs.sortLinkInsert (update a.cb i (SwTmrs.startCb c a i n)) i (l1++l2)).2=l1++i::l2 ∧
      t.osSwTmrStart c i n={t with
          cb := (SwTmrs.sortLinkInsert (update a.cb i (SwTmrs.startCb c a i n)) i (l1++l2)).1
          pool := t.pool.linkBefore i
            (front l2 (.head (uwSortIndex (SwTmrs.startCb c a i n).idxRollNum).toNat))} := by
  have hcb : SwTmrs.startCb c a i n = { t.cb i with
      expectedTick := if c.tickless then (n.toNat+t.uniTicks)%2^64 else (t.cb i).expectedTick
      idxRollNum := SwTmrs.startIndex t.cursor (t.cb i).idxRollNum n
      overrun := 0
      state := .running } := by
    rw [SwTmrs.startCb,hr.cb,hr.cursor,hr.uniTicks]
  simp only [osSwTmrStart,← hcb]
  generalize SwTmrs.startCb c a i n=b at hcb ⊢
  have hidx : SwTmrs.startIndex t.cursor (t.cb i).idxRollNum n=b.idxRollNum := by rw [hcb]
  rw [hidx]
  have hring := hr.ring (uwSortIndex b.idxRollNum).toNat
  have hspan := hr.ring_spans (uwSortIndex b.idxRollNum).toNat
  have hlen := hfiled.length_le (hr.pool.once (.ring (uwSortIndex b.idxRollNum).toNat))
  generalize (uwSortIndex b.idxRollNum).toNat=s at hring hspan hlen ⊢
  by_cases hempty : t.pool.next (.head s)=.head s
  . have hnil : a.sortLink s=[] := by simpa using hring.nil_iff.mp hempty
    refine ⟨[],[],hnil,rfl,?_⟩
    rw [hnil] at hring
    have hprev : t.pool.prev (.head s)=.head s := hring.chained.2
    rw [if_pos hempty,hr.cb]
    simp only [linkBefore,front,hprev]
    rfl
  have hfront := eq_front_of_spans hspan
  rw [hfront] at hspan
  obtain ⟨l1,l2,hl,hins,hfind⟩ := findPlace_eq (i:=i) (b:=update t.cb i b) hlen hspan
  refine ⟨l1,l2,hl,?_,?_⟩
  . rw [← hl,← hr.cb]
    exact hins
  rw [if_neg hempty,hfront,hfind,← hl,hr.cb]

include hfresh

lemma Rep.start : (t.osSwTmrStart c i n).Rep first (a.osSwTmrStart c i n) out := by
  obtain ⟨l1,l2,hl,hins,heq⟩ := hr.start_place hfiled (i:=i) n
  have hpool := hr.pool.linkBefore hfresh hl
  rw [update_ring] at hpool
  have hslot : SwTmrs.slot (update a.cb i (SwTmrs.startCb c a i n)) i =
      (uwSortIndex (SwTmrs.startCb c a i n).idxRollNum).toNat := by
    rw [SwTmrs.slot,update_self]
  have hidle : ∀ j, ((a.link i (SwTmrs.startCb c a i n)).cb j).state=.created →
      j≠i ∧ (a.cb j).state=.created := by
    intro j hj
    rw [SwTmrs.link_state] at hj
    by_cases hji : j=i
    . subst hji
      rw [update_self] at hj
      cases hj
    rw [update_of_ne hji] at hj
    exact ⟨hji,hj⟩
  rw [heq,SwTmrs.osSwTmrStart_eq]
  refine ⟨?_,hr.cursor,hr.uniTicks,?_⟩
  . simp only [SwTmrs.link,hslot,hl]
  have hnew := hpool.weaken hidle
  simp only [SwTmrs.link,hslot,hl,hins] at hnew ⊢
  exact hnew

end Start

section Stop

variable (hr : t.Rep first a out) (h : a.WheelOk c out') (hrun : (a.cb i).state=.running)

lemma after_append {l1 l2 : List Nat} (hi : i∉l1) : Delta.after (l1++i::l2) i=l2.head? := by
  induction l1 with
  | nil =>
    cases l2 with
    | nil => rfl
    | cons y l => simp [Delta.after]
  | cons x l ih =>
    obtain ⟨hx,hl⟩ : i≠x ∧ i∉l := by simpa using hi
    have hstep : Delta.after (x::(l++i::l2)) i=Delta.after (l++i::l2) i := by
      cases l with
      | nil | cons => simp [Delta.after,Ne.symm hx]
    exact hstep.trans (ih hl)

lemma Rep.remainTick (hr : t.Rep first a out) (hrun : (a.cb i).state=.running)
    {l1 l2 : List Nat} (hl : a.sortLink (SwTmrs.slot a.cb i)=l1++i::l2) (hi : i∉l1)
    (hlen : (l1++i::l2).length≤c.maxNum) :
    t.osSwTmrGetRemainTick c i=a.osSwTmrGetRemainTick i := by
  have hchain := (hr.ring (SwTmrs.slot a.cb i)).chained
  rw [hl,map_append,map_cons] at hchain
  have hprev := prevRolls_eq (r:=0) (b:=a.cb) (n:=c.maxNum)
    (by simp at hlen; omega) (Chained.append_iff.mp hchain).1
  have hfront : SwTmrs.prevChain (a.sortLink (SwTmrs.slot a.cb i)) i=i::l1.reverse := by
    rw [SwTmrs.prevChain,hl,takeWhile_append_of_pos]
    . simp
    intro j hj
    simpa using ne_of_mem_of_not_mem hj hi
  simp only [osSwTmrGetRemainTick,SwTmrs.osSwTmrGetRemainTick,hr.cb,hrun,osSwTmrGetRemain,
    SwTmrs.osSwTmrGetRemain,hr.cursor,hprev]
  rw [← hfront]
  rfl

include h hrun

lemma running_split : ∃ l1 l2, a.sortLink (SwTmrs.slot a.cb i)=l1++i::l2 ∧ i∉l1 := by
  have hi : i∈a.sortLink (SwTmrs.slot a.cb i) := (h.linked _ i).mpr ⟨hrun,rfl⟩
  obtain ⟨l1,l2,hl,hnot⟩ := eq_append_cons_of_mem hi
  exact ⟨l1,l2,hl,hnot⟩

include hr

lemma Rep.rollToNext : (t.rollToNext i).Rep first (a.rollToNext i) out := by
  obtain ⟨l1,l2,hl,hi⟩ := running_split h hrun
  have hnext : t.pool.next (.node i)=front l2 (.head (SwTmrs.slot a.cb i)) := by
    have hsplit : a.sortLink (SwTmrs.slot a.cb i)=(l1++[i])++l2 := by simp [hl]
    have hbetween := (hr.pool.between hsplit).1
    rwa [back_append] at hbetween
  have hafter : Delta.after (a.sortLink (SwTmrs.slot a.cb i)) i=l2.head? := by
    rw [hl]
    exact after_append hi
  cases l2 with
  | nil =>
    have heq : t.rollToNext i=t := by
      rw [LinkedTmrs.rollToNext,hnext]
      rfl
    rw [heq,SwTmrs.rollToNext_none hafter]
    exact hr
  | cons j l =>
    have heq : t.rollToNext i=t.modCb j fun s => {s with
        idxRollNum := uwRollNumAdd s.idxRollNum (t.cb i).idxRollNum} := by
      rw [LinkedTmrs.rollToNext,hnext]
      rfl
    rw [heq,SwTmrs.rollToNext_some hafter]
    refine ⟨?_,hr.cursor,hr.uniTicks,hr.pool.weaken fun k hk => ?_⟩
    . simp only [modCb,SwTmrs.modCb,hr.cb]
    by_cases hkj : k=j
    . subst hkj
      simpa [SwTmrs.modCb] using hk
    simpa [SwTmrs.modCb,hkj] using hk

lemma Rep.stop (b : Bool) : (t.osSwTmrStop c i b).Rep first (a.osSwTmrStop i b) out ∧
      ∀ q, i∉places (a.osSwTmrStop i b).sortLink (a.osSwTmrStop i b).freeList out q := by
  obtain ⟨l1,l2,hl,hi⟩ := running_split h hrun
  have hroll := hr.rollToNext h hrun
  obtain ⟨hlinks,-,hfree⟩ := SwTmrs.rollToNext_links (t:=a) (i:=i)
  have hself : (a.rollToNext i).cb i=a.cb i := h.rollToNext_cb_self
  have hslot : SwTmrs.slot (a.rollToNext i).cb i=SwTmrs.slot a.cb i := by
    rw [SwTmrs.slot,hself,SwTmrs.slot]
  have hl' : (a.rollToNext i).sortLink (SwTmrs.slot a.cb i)=l1++i::l2 := by
    rw [hlinks,hl]
  have hremain := hroll.remainTick (c:=c) (by rw [hself,hrun]) (hslot ▸ hl') hi (by
    rw [← hl]
    exact (Filed.of_wheelOk h).length_le (h.nodup _))
  have herase : (a.sortLink (SwTmrs.slot a.cb i)).erase i=l1++l2 := by
    rw [hl,erase_append_right _ hi,erase_cons_head]
  have hpool := hroll.pool.unlink hl'
  rw [update_ring] at hpool
  rw [SwTmrs.osSwTmrStop_eq]
  have hlink : (a.unlink i (if b then ((a.rollToNext i).cb i).idxRollNum
      else (a.rollToNext i).osSwTmrGetRemainTick i)).sortLink =
      update (a.rollToNext i).sortLink (SwTmrs.slot a.cb i) (l1++l2) := by
    rw [SwTmrs.unlink,herase,hlinks]
  rw [hlink]
  refine ⟨⟨?_,?_,?_,?_⟩,(hpool.idle i (.inl rfl)).1⟩
  . simp only [osSwTmrStop,SwTmrs.unlink]
    cases b with
    | true => simp [modCb,hroll.cb]
    | false => simp [modCb,hroll.cb,hremain]
  . cases b <;> exact hroll.cursor
  . cases b <;> exact hroll.uniTicks
  have hptr : (t.osSwTmrStop c i b).pool=(t.rollToNext i).pool.unlink i := by
    cases b <;> rfl
  rw [hlink,hptr]
  refine hpool.weaken fun j hj => ?_
  by_cases hji : j=i
  . exact .inl hji
  obtain ⟨w,hw,-⟩ := h.unlink_cb_of_ne hji
  obtain ⟨v,hv,-⟩ := h.rerolled_rollToNext j
  rw [hw] at hj
  rw [hv]
  exact .inr hj

end Stop

lemma Rep.modCb (hr : t.Rep first a out) (f : SwTmrCtrl → SwTmrCtrl)
    (hf : (f (a.cb i)).state=.created →
      (∀ q, i∉places a.sortLink a.freeList out q) ∧ t.pool.Idle i) :
    (t.modCb i f).Rep first (a.modCb i f) out := by
  refine ⟨?_,hr.cursor,hr.uniTicks,{hr.pool with idle:=fun j hj => ?_}⟩
  . rw [LinkedTmrs.modCb,SwTmrs.modCb,hr.cb]
  change (update a.cb i (f (a.cb i)) j).state=.created at hj
  by_cases hji : j=i
  . subst hji
    rw [update_self] at hj
    exact hf hj
  rw [update_of_ne hji] at hj
  exact hr.pool.idle j hj

lemma Rep.note (hr : t.Rep first a out) (i : Nat) (pre : TmrPre) :
    (t.modCb i fun s => {s with state:=.expired pre}).Rep first
      (a.modCb i fun s => {s with state:=.expired pre}) out :=
  hr.modCb _ nofun

section Fresh

variable (hr : t.Rep first a out) (hfresh : ∀ q, i∉places a.sortLink a.freeList out q)

include hr hfresh

lemma Rep.delete : (t.osSwTmrDelete i).Rep first (a.osSwTmrDelete i) out := by
  have hmod := hr.modCb (i:=i) (fun s => {s with state:=.free}) nofun
  have hpool := hr.pool.release hfresh
  rw [update_free] at hpool
  refine ⟨hmod.cb,hmod.cursor,hmod.uniTicks,hpool.weaken fun j hj => ?_⟩
  change (update a.cb i {a.cb i with state:=.free} j).state=.created at hj
  by_cases hji : j=i
  . subst hji
    rw [update_self] at hj
    cases hj
  rw [update_of_ne hji] at hj
  exact ⟨hji,hj⟩

lemma Rep.clear : {t with pool:=t.pool.clear i}.Rep first a out :=
  ⟨hr.cb,hr.cursor,hr.uniTicks,(hr.pool.clear hfresh).weaken fun _ => .inr⟩

lemma Rep.cbInit (p : TimerCreatePara) (mode : TmrMode) (f : TmrProcFunc) (n : BitVec 32) :
    (t.osSwTmrCreateTimerCbInit i p mode f n).Rep first
      (a.osSwTmrCreateTimerCbInit i p mode f n) out :=
  (hr.clear hfresh).modCb (fun s => {s with
    handler := f, mode := mode, interval := n, idxRollNum := n, overrun := 0, arg1 := p.arg1
    arg2 := p.arg2, arg3 := p.arg3, arg4 := p.arg4, state := .created})
    fun _ => ⟨hfresh,t.pool.clear_idle i⟩

end Fresh

section Calls

variable (hr : t.Rep first a out) (h : a.WheelOk c out)

include hr h

lemma Rep.startTimer (i : Nat) :
    (t.osSwTmrStartTimer c i).2.Rep first (a.osSwTmrStartTimer c i).2 out := by
  rw [LinkedTmrs.osSwTmrStartTimer,SwTmrs.osSwTmrStartTimer,hr.cb]
  by_cases hi : c.maxNum ≤ i
  . rw [if_pos hi,if_pos hi]
    exact hr
  rw [if_neg hi,if_neg hi]
  cases hst : (a.cb i).state with
  | free | running => exact hr
  | expired pre => exact hr.note i .preRunning
  | created =>
    have hidle := hr.pool.idle i hst
    have hmod := hr.modCb (i:=i) (fun s => {s with idxRollNum:=SwTmrs.startCount (a.cb i)})
      fun _ => hidle
    have hfiled := Filed.of_wheelOk h
    exact hmod.start hfiled hidle.1 _

lemma Rep.stopTimer (i : Nat) :
    (t.osSwTmrStopTimer c i).2.Rep first (a.osSwTmrStopTimer c i).2 out := by
  rw [LinkedTmrs.osSwTmrStopTimer,SwTmrs.osSwTmrStopTimer,hr.cb]
  by_cases hi : c.maxNum ≤ i
  . rw [if_pos hi,if_pos hi]
    exact hr
  rw [if_neg hi,if_neg hi]
  cases hst : (a.cb i).state with
  | free | created => exact hr
  | expired pre => exact hr.note i .preCreated
  | running => exact (hr.stop h hst false).1

lemma Rep.restartTimer (i : Nat) :
    (t.osSwTmrRestartTimer c i).2.Rep first (a.osSwTmrRestartTimer c i).2 out := by
  rw [LinkedTmrs.osSwTmrRestartTimer,SwTmrs.osSwTmrRestartTimer,hr.cb]
  by_cases hi : c.maxNum ≤ i
  . rw [if_pos hi,if_pos hi]
    exact hr
  rw [if_neg hi,if_neg hi]
  cases hst : (a.cb i).state with
  | free => exact hr
  | created => exact hr.start (Filed.of_wheelOk h) (hr.pool.idle i hst).1 _
  | expired pre => exact hr.note i .preRunning
  | running =>
    obtain ⟨hstop,hfresh⟩ := hr.stop h hst true
    have hok : (a.osSwTmrStop i true).WheelOk c out := by
      rw [SwTmrs.osSwTmrStop_eq]
      exact h.unlink hst
    exact hstop.start (Filed.of_wheelOk hok) hfresh _

lemma Rep.deleteTimer (i : Nat) :
    (t.osSwTmrDeleteTimer c i).2.Rep first (a.osSwTmrDeleteTimer c i).2 out := by
  rw [LinkedTmrs.osSwTmrDeleteTimer,SwTmrs.osSwTmrDeleteTimer,hr.cb]
  by_cases hi : c.maxNum ≤ i
  . rw [if_pos hi,if_pos hi]
    exact hr
  rw [if_neg hi,if_neg hi]
  cases hst : (a.cb i).state with
  | free => exact hr
  | created => exact hr.delete (hr.pool.idle i hst).1
  | expired pre => exact hr.note i .preFree
  | running =>
    obtain ⟨hstop,hfresh⟩ := hr.stop h hst true
    exact hstop.delete hfresh

end Calls

lemma Rep.create (hr : t.Rep first a out) (p : TimerCreatePara) :
    (t.prtTimerCreate c p).2.2.Rep first (a.prtTimerCreate c p).2.2 out := by
  rw [LinkedTmrs.prtTimerCreate,SwTmrs.prtTimerCreate]
  by_cases h0 : p.interval=0
  . rw [if_pos h0,if_pos h0]
    exact hr
  rw [if_neg h0,if_neg h0]
  cases hl : a.freeList with
  | nil =>
    have hfree : t.pool.free=.null := by
      have hfreed := hr.pool.linked .free
      rw [places,hl] at hfreed
      exact hfreed
    rw [hfree]
    cases p.mode with
    | none => exact hr
    | some mode =>
      by_cases hchk : SwTmrs.osSwTmrCreateTimerParaChk c p=.ok <;> cases p.callBackFunc <;>
        simpa only [hchk,if_true,if_false] using hr
  | cons i l =>
    obtain ⟨hfree,htake,hfresh⟩ := hr.pool.take hl
    rw [update_free] at htake hfresh
    rw [hfree]
    cases p.mode with
    | none => exact hr
    | some mode =>
      by_cases hchk : SwTmrs.osSwTmrCreateTimerParaChk c p=.ok
      . cases p.callBackFunc with
        | none => simpa only [hchk,if_true] using hr
        | some f =>
          simp only [hchk,if_true]
          have htaken : {t with pool:={t.pool with free:=t.pool.next (.node i)}}.Rep first
              {a with freeList:=l} out := ⟨hr.cb,hr.cursor,hr.uniTicks,htake⟩
          exact htaken.cbInit hfresh p mode f _
      cases p.callBackFunc <;> simpa only [hchk,if_false] using hr

lemma scanSlot_append (cb : Nat → SwTmrCtrl) (l : List Nat) :
    l=(SwTmrs.scanSlot cb l).2.1++(SwTmrs.scanSlot cb l).2.2 := by
  rw [SwTmrs.scanSlot_lapse.2]
  exact Delta.lapse_append.symm

lemma Rep.scan_eq (hr : t.Rep .null a []) (hfiled : Filed c a)
    (hne : a.sortLink (SwTmrs.nextSlot a)≠[]) : t.osSwTmrScanOneSlot c=({t with
        cursor := SwTmrs.nextSlot a
        cb := a.osSwTmrScanOneSlot.1.cb
        pool := t.pool.cut (SwTmrs.nextSlot a)
          (back (.head (SwTmrs.nextSlot a)) a.osSwTmrScanOneSlot.2)},
        front a.osSwTmrScanOneSlot.2 .null) := by
  have hspan := eq_front_of_spans (hr.ring_spans (SwTmrs.nextSlot a))
  have hloop := scanLoop_eq (b:=a.cb) (d:=[]) (l:=a.sortLink (SwTmrs.nextSlot a))
    hr.pool rfl (hfiled.length_le (hr.pool.once (.ring _)))
  have hfront : front (a.sortLink (SwTmrs.nextSlot a)) (.head (SwTmrs.nextSlot a)) =
      (front (a.sortLink (SwTmrs.nextSlot a)) .null : Ptr Nat Nat) := by
    cases hl : a.sortLink (SwTmrs.nextSlot a) with
    | nil => exact absurd hl hne
    | cons i l => rfl
  have hsome : t.pool.next (.head (SwTmrs.nextSlot a))≠.head (SwTmrs.nextSlot a) := by
    intro he
    exact hne (by simpa using (hr.ring _).nil_iff.mp he)
  have hcursor : (t.cursor+1)%osSwtmrSortLinkLen=SwTmrs.nextSlot a := by rw [hr.cursor]
  simp only [back,nil_append] at hloop
  rw [osSwTmrScanOneSlot]
  simp only [hcursor,if_neg hsome]
  rw [hspan,hr.cb,hfront,hloop]
  rfl

lemma Rep.scan (hr : t.Rep .null a []) (h : a.WheelOk c []) :
    (t.osSwTmrScanOneSlot c).1.Rep (t.osSwTmrScanOneSlot c).2 a.osSwTmrScanOneSlot.1
      a.osSwTmrScanOneSlot.2 := by
  have hfiled := Filed.of_wheelOk h
  by_cases hnil : a.sortLink (SwTmrs.nextSlot a)=[]
  . have hring := hr.ring (SwTmrs.nextSlot a)
    have hempty : t.pool.next (.head ((t.cursor+1)%osSwtmrSortLinkLen)) =
        .head ((t.cursor+1)%osSwtmrSortLinkLen) := by
      rw [hr.cursor]
      exact hring.nil_iff.mpr (by simp [hnil])
    have hlinks : update a.sortLink (SwTmrs.nextSlot a) []=a.sortLink := by
      rw [← hnil]
      exact update_eq_self _ _
    rw [osSwTmrScanOneSlot,SwTmrs.osSwTmrScanOneSlot]
    simp only [hempty,if_true,hnil,SwTmrs.scanSlot,hlinks]
    exact ⟨hr.cb,by rw [hr.cursor],hr.uniTicks,hr.pool⟩
  rw [hr.scan_eq hfiled hnil]
  have hpool := hr.pool.cut (scanSlot_append a.cb (a.sortLink (SwTmrs.nextSlot a)))
  rw [update_ring,update_chain] at hpool
  refine ⟨rfl,rfl,hr.uniTicks,hpool.weaken fun j hj => ?_⟩
  have hout : j∉a.osSwTmrScanOneSlot.2 := by
    intro hm
    rw [h.out_scan_state hm] at hj
    cases hj
  obtain ⟨w,hw,-⟩ := SwTmrs.scan_cb_of_notMem_out hout
  rw [hw] at hj
  exact hj

lemma Rep.osSwtmrProc {pre : TmrPre} (hr : t.Rep first a out) (hfiled : Filed c a)
    (hidle : (∀ q, i∉places a.sortLink a.freeList out q) ∧ t.pool.Idle i)
    (hpre : (a.cb i).state=.expired pre) :
    (t.osSwtmrProc c i).Rep first (a.osSwtmrProc c i) out := by
  rw [LinkedTmrs.osSwtmrProc,SwTmrs.osSwtmrProc,hr.cb,hpre]
  cases pre with
  | preRunning => exact hr.start hfiled hidle.1 (a.cb i).interval
  | preCreated =>
    exact hr.modCb (i:=i) (fun s => {s with idxRollNum:=0, overrun:=0, state:=.created})
      fun _ => hidle
  | preFree => exact hr.delete hidle.1
  | default =>
    cases (a.cb i).mode with
    | once =>
      exact hr.modCb (i:=i)
        (fun s => {s with overrun:=0, idxRollNum:=0, state:=.created}) fun _ => hidle
    | loop =>
      have hmod := hr.modCb (i:=i) (fun s => {s with overrun:=0}) fun _ => hidle
      exact hmod.start hfiled hidle.1 (a.cb i).interval

lemma Rep.handled (hr : t.Rep first a (i::out)) (h : a.WheelOk c (i::out)) :
    ({t with pool:=t.pool.clear i}.osSwtmrProc c i).Rep (t.pool.next (.node i))
      (a.osSwtmrProc c i) out := by
  obtain ⟨-,hpop,hfresh⟩ := hr.pool.pop (m:=out) rfl
  rw [update_chain] at hpop hfresh
  obtain ⟨pre,hpre⟩ := (h.expired i).mp mem_cons_self
  have hbase : t.Rep (t.pool.next (.node i)) a out := ⟨hr.cb,hr.cursor,hr.uniTicks,hpop⟩
  exact (hbase.clear hfresh).osSwtmrProc (Filed.of_wheelOk h) ⟨hfresh,clear_idle _ _⟩ hpre

lemma init_spans (c : TmrCfg) (k n : Nat) (hn : k+n=c.maxNum) :
    Spans (init c).pool.next (if k<c.maxNum then .node k else .null)
      ((List.range' k n).map .node) .null := by
  induction n generalizing k with
  | zero =>
    rw [if_neg (by omega)]
    rfl
  | succ n ih =>
    rw [if_pos (by omega)]
    exact ⟨rfl,ih (k+1) (by omega)⟩

lemma Rep.init (c : TmrCfg) : (LinkedTmrs.init c).Rep .null (SwTmrs.init c) [] where
  cb := rfl
  cursor := rfl
  uniTicks := rfl
  pool :=
    { linked := fun
        | .ring s => ⟨⟨rfl,rfl⟩,by simp [places,SwTmrs.init]⟩
        | .free => by
          have hspan := init_spans c 0 c.maxNum (Nat.zero_add _)
          rw [← range_eq_range'] at hspan
          exact hspan
        | .chain => rfl
      once := fun
        | .ring s => nodup_nil
        | .free => nodup_range
        | .chain => nodup_nil
      one := fun
        | .free, .free, _, _, _ => rfl
        | .free, .ring s, _, _, h | .free, .chain, _, _, h => absurd h not_mem_nil
        | .ring s, _, _, h, _ | .chain, _, _, h, _ => absurd h not_mem_nil
      idle := by simp [SwTmrs.init] }

end LinkedTmrs

namespace LinkedRun

variable {c : TmrCfg} {r : LinkedRun} {w : WheelRun}

/-- A run on the pointers goes along with one on the lists. -/
structure Follows (r : LinkedRun) (w : WheelRun) : Prop where
  rep : r.tmrs.Rep r.swtmr w.tmrs w.outLink
  called : r.called=w.called
  saved : r.called=true → r.temp=Pool.front w.outLink.tail .null
  listObject : ∀ i, r.listObject≠.node i

lemma Follows.swtmr (hf : Follows r w) : r.swtmr=front w.outLink .null :=
  eq_front_of_spans (hf.rep.pool.linked .chain)

lemma Follows.ended_iff (hf : Follows r w) : r.ended ↔ w.outLink=[] := by
  rw [ended,hf.swtmr]
  cases w.outLink with
  | nil => simp [front]
  | cons i l => simp [front,Ne.symm (hf.listObject i)]

lemma Follows.mod (hf : Follows r w) {t : LinkedTmrs} {a : SwTmrs}
    (ht : t.Rep r.swtmr a w.outLink) : Follows {r with tmrs:=t} {w with tmrs:=a} :=
  ⟨ht,hf.called,hf.saved,hf.listObject⟩

lemma Follows.step (hf : Follows r w) (h : w.RunOk c) (x : TmrInput) :
    Follows (r.step c x) (w.step c x) := by
  have hswtmr := hf.swtmr
  have hended := hf.ended_iff
  cases x with
  | create p => exact hf.mod (hf.rep.create p)
  | start i => exact hf.mod (hf.rep.startTimer h.wheel i)
  | stop i => exact hf.mod (hf.rep.stopTimer h.wheel i)
  | restart i => exact hf.mod (hf.rep.restartTimer h.wheel i)
  | delete i => exact hf.mod (hf.rep.deleteTimer h.wheel i)
  | tick =>
    cases hout : w.outLink with
    | nil =>
      have hnull : r.swtmr=.null := by rw [hswtmr,hout]; rfl
      have hrep := hf.rep
      have hwheel := h.wheel
      rw [hout] at hrep hwheel
      rw [hnull] at hrep
      have hticked : {r.tmrs with uniTicks:=(r.tmrs.uniTicks+1)%2^64}.Rep .null
          {w.tmrs with uniTicks:=(w.tmrs.uniTicks+1)%2^64} [] :=
        ⟨hrep.cb,hrep.cursor,by rw [hrep.uniTicks],hrep.pool⟩
      have hcalled : r.called=false := by
        rw [hf.called]
        cases hc : w.called with
        | false => rfl
        | true => exact absurd hout (h.called hc)
      rw [WheelRun.step_tick_of_nil c hout,LinkedRun.step,if_pos (hended.mpr hout)]
      refine ⟨hticked.scan {hwheel with},hf.called,fun hc => ?_,nofun⟩
      exact absurd hc (by simp [hcalled])
    | cons i l =>
      rw [WheelRun.step_tick_of_cons c hout,LinkedRun.step,if_neg (by simp [hended,hout])]
      exact hf
  | call =>
    cases hout : w.outLink with
    | nil =>
      rw [WheelRun.step_call_of_nil c hout,LinkedRun.step,if_pos (.inl (hended.mpr hout))]
      exact hf
    | cons i l =>
      cases hc : w.called with
      | true =>
        rw [WheelRun.step_call_of_called c hc,LinkedRun.step,if_pos (.inr (hf.called.trans hc))]
        exact hf
      | false =>
        rw [WheelRun.step_call c hout hc,LinkedRun.step,if_neg (by simp [hended,hout,hf.called,hc])]
        refine ⟨hf.rep,rfl,fun _ => ?_,hf.listObject⟩
        obtain ⟨hfirst,hpop,-⟩ := hf.rep.pool.pop hout
        rw [hout,hfirst]
        exact eq_front_of_spans (hpop.linked .chain)
  | handled =>
    cases hout : w.outLink with
    | nil =>
      rw [WheelRun.step_handled_of_nil c hout,LinkedRun.step,hswtmr,hout]
      exact hf
    | cons i l =>
      have hnode : r.swtmr=.node i := by rw [hswtmr,hout]; rfl
      cases hc : w.called with
      | false =>
        rw [WheelRun.step_handled_of_not_called c hc,LinkedRun.step,hnode,hf.called,hc]
        exact hf
      | true =>
        have hrep := hf.rep
        have hwheel := h.wheel
        rw [hout] at hrep hwheel
        have hnew := hrep.handled hwheel
        have hnext : r.temp=r.tmrs.pool.next (.node i) := by
          rw [hf.saved (hf.called.trans hc),hout]
          exact (eq_front_of_spans ((hrep.pool.pop rfl).2.1.linked .chain)).symm
        rw [WheelRun.step_handled c hout hc,LinkedRun.step,hnode,hf.called,hc]
        refine ⟨?_,rfl,nofun,hf.listObject⟩
        rw [hnext]
        exact hnew

lemma follows_of_reaches (hr : (machine c).Reaches (fun _ _ => True) r) :
    ∃ w, (WheelRun.machine c).Reaches (fun _ _ => True) w ∧ Follows r w := by
  induction hr with
  | start hs => exact ⟨_,.start rfl,hs ▸ ⟨LinkedTmrs.Rep.init c,rfl,nofun,nofun⟩⟩
  | step _ _ ih =>
    obtain ⟨w,hw,hf⟩ := ih
    exact ⟨_,.step hw trivial,hf.step (WheelRun.runOk_of_reaches hw) _⟩

def Placed (r : LinkedRun) (slots : Nat → List Nat) (free chain : List Nat) (i : Nat) : Prop :=
  match (r.tmrs.cb i).state with
  | .free => i∈free ∧ i∉chain ∧ ∀ s, i∉slots s
  | .running => i∉free ∧ i∉chain ∧ ∀ s, i∈slots s ↔ s=(uwSortIndex (r.tmrs.cb i).idxRollNum).toNat
  | .expired _ => i∉free ∧ i∈chain ∧ ∀ s, i∉slots s
  | .created => i∉free ∧ i∉chain ∧ (∀ s, i∉slots s) ∧
    r.tmrs.pool.next (.node i)=.null ∧ r.tmrs.pool.prev (.node i)=.null

/-- The pointers make up rings, a free list and the chain of the scan, which hold every control
block once. -/
structure Stored (c : TmrCfg) (r : LinkedRun) (slots : Nat → List Nat) (free chain : List Nat) :
    Prop where
  ring : ∀ s, Ringed r.tmrs.pool.next r.tmrs.pool.prev (.head s) ((slots s).map .node)
  freed : Spans r.tmrs.pool.next r.tmrs.pool.free (free.map .node) .null
  freeOnce : free.Nodup
  chained : Spans r.tmrs.pool.next r.swtmr (chain.map .node) .null
  chainOnce : chain.Nodup
  saved : r.called=true → ∃ i l, chain=i::l ∧ r.swtmr=.node i ∧
    Spans r.tmrs.pool.next r.temp (l.map .node) .null
  placed : ∀ i<c.maxNum, r.Placed slots free chain i

lemma Follows.placed (hf : Follows r w) (h : w.RunOk c) {i : Nat} (hi : i<c.maxNum) :
    r.Placed w.tmrs.sortLink w.tmrs.freeList w.outLink i := by
  have hfree := h.wheel.free i
  have hexpired := h.wheel.expired i
  have hlinked := fun s => h.wheel.linked s i
  rw [Placed,hf.rep.cb]
  cases hst : (w.tmrs.cb i).state with
  | free =>
    simp only [hst] at hfree hexpired hlinked
    simp [hfree,hexpired,hlinked,hi]
  | running =>
    simp only [hst] at hfree hexpired hlinked
    simp [hfree,hexpired,hlinked,SwTmrs.slot,eq_comm]
  | expired pre =>
    simp only [hst] at hfree hexpired hlinked
    simp [hfree,hexpired,hlinked]
  | created =>
    have hidle := (hf.rep.pool.idle i hst).2
    simp only [hst] at hfree hexpired hlinked
    simp [hfree,hexpired,hlinked,hidle.1,hidle.2]

/-- Whatever the tasks and the handlers call, and also while a handler runs. -/
theorem timer_storage (hr : (machine c).Reaches (fun _ _ => True) r) :
    ∃ slots free chain, Stored c r slots free chain := by
  obtain ⟨w,hw,hf⟩ := follows_of_reaches hr
  have hok := WheelRun.runOk_of_reaches hw
  refine ⟨w.tmrs.sortLink,w.tmrs.freeList,w.outLink,hf.rep.pool.ring,hf.rep.pool.linked .free,
    hok.wheel.freeNodup,hf.rep.pool.linked .chain,hok.wheel.outNodup,fun hc => ?_,
    fun i hi => hf.placed hok hi⟩
  cases hout : w.outLink with
  | nil => exact absurd hout (hok.called (hf.called ▸ hc))
  | cons i l =>
    obtain ⟨hfirst,hpop,-⟩ := hf.rep.pool.pop hout
    have hspan : Spans r.tmrs.pool.next _ (l.map .node) .null := hpop.linked .chain
    refine ⟨i,l,rfl,hfirst,?_⟩
    rw [hf.saved hc,hout,tail_cons,← Pool.eq_front_of_spans hspan]
    exact hspan

def twoTimersCfg : TmrCfg := ⟨2,1000,TmrCfg.pos_thousand,false⟩

def everyTick : TimerCreatePara := ⟨some .loop,1,0,some (.user 0),0,0,0,0⟩

def chainInputs : List TmrInput :=
  [.create everyTick,.create everyTick,.start 0,.start 1,.tick,.call,.delete 1,.stop 0]

theorem timer_storage_called :
    let r := (machine twoTimersCfg).run ⟨LinkedTmrs.init twoTimersCfg,.null,.null,.null,false⟩
      chainInputs
    r.called=true ∧ r.swtmr=.node 0 ∧ r.temp=.node 1 ∧
      ∃ slots free chain, Stored twoTimersCfg r slots free chain :=
  ⟨by decide +kernel,by decide +kernel,by decide +kernel,
    timer_storage (Machine.Reaches.run (.start rfl) chainInputs
      (by simp [Machine.Allowed,chainInputs]))⟩

end LinkedRun

end UniProton
