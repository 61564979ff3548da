import UniProton.Timer.Countdown
import UniProton.Timer.Wheel

namespace UniProton

open Framework Function List Delta

namespace SwTmrs

def view (t : SwTmrs) (i : Nat) : Countdown where
  phase := match (t.cb i).state with
    | .free => .free
    | .created => .created (t.cb i).idxRollNum.toNat
    | .running => .running (t.remain i)
    | .expired pre => .expired pre
  mode := (t.cb i).mode
  interval := (t.cb i).interval.toNat
  handler := (t.cb i).handler
  arg1 := (t.cb i).arg1

lemma phase_created {t : SwTmrs} {i n : Nat} (hn : (t.view i).phase=.created n) :
    (t.cb i).state=.created := by
  unfold view at hn
  cases hst : (t.cb i).state <;> simp_all

lemma phase_running {t : SwTmrs} {i n : Nat} (hn : (t.view i).phase=.running n) :
    (t.cb i).state=.running ∧ t.remain i=n := by
  unfold view at hn
  cases hst : (t.cb i).state <;> simp_all

/-- The wheel between two operations; `out` are the expired timers whose handlers have not
returned. -/
structure WheelOk (c : TmrCfg) (t : SwTmrs) (out : List Nat) : Prop where
  linked : ∀ s i, i∈t.sortLink s ↔ (t.cb i).state=.running ∧ slot t.cb i=s
  nodup : ∀ s, (t.sortLink s).Nodup
  cursor : t.cursor<64
  fits : ∀ i, (t.cb i).state=.running → t.remain i<2^32
  known : ∀ i, (t.cb i).state≠.free → i<c.maxNum
  timed : ∀ i, (t.cb i).state≠.free → (t.cb i).interval≠0
  free : ∀ i, i∈t.freeList ↔ (t.cb i).state=.free ∧ i<c.maxNum
  freeNodup : t.freeList.Nodup
  outNodup : out.Nodup
  expired : ∀ i, i∈out ↔ ∃ pre, (t.cb i).state=.expired pre

lemma ahead_pos {cursor s : Nat} (hc : cursor<64) : 0<ahead cursor s := by
  unfold ahead
  split <;> omega

section StartIndex

variable {cursor : Nat} (hc : cursor<64) (x : BitVec 32) {n : BitVec 32} (hn : 0<n.toNat)

private lemma toNat_and_slots (m : BitVec 32) : (m &&& 0x3f#32).toNat=m.toNat%64 :=
  Nat.and_two_pow_sub_one_eq_mod m.toNat 6

include hn in
private lemma toNat_startRolls :
    (if 0<n &&& 0x3f#32 then n/64 else n/64-1).toNat=(n.toNat-1)/64 := by
  have hdiv : (n/64).toNat=n.toNat/64 := rfl
  have hpos : 0<n &&& 0x3f#32 ↔ 0<n.toNat%64 := by
    rw [BitVec.lt_def,toNat_and_slots]
    rfl
  by_cases h : 0<n.toNat%64
  . rw [if_pos (hpos.mpr h),hdiv]
    omega
  have hle : (1 : BitVec 32)≤n/64 := by
    rw [BitVec.le_def,hdiv]
    change 1≤_
    omega
  rw [if_neg (fun h' => h (hpos.mp h')),BitVec.toNat_sub_of_le hle,hdiv]
  change n.toNat/64-1=_
  omega

include hc in
private lemma toNat_startSlot : (((n &&& 0x3f#32)+BitVec.ofNat 32 cursor) &&& 0x3f#32).toNat =
      (n.toNat%64+cursor)%64 := by
  have hcur : (BitVec.ofNat 32 cursor).toNat=cursor := Nat.mod_eq_of_lt (by omega)
  rw [toNat_and_slots,BitVec.toNat_add,toNat_and_slots,hcur]
  omega

include hc hn

lemma startIndex_ahead : 64*(uwRollNum (startIndex cursor x n)).toNat +
      ahead cursor (uwSortIndex (startIndex cursor x n)).toNat=n.toNat := by
  have hrolls := toNat_startRolls hn
  have hslot := toNat_startSlot hc (n:=n)
  obtain ⟨hroll,hindex⟩ := evaluateH_parts (evaluateL x (if 0<n &&& 0x3f#32 then n/64 else n/64-1))
    (v:=((n &&& 0x3f#32)+BitVec.ofNat 32 cursor) &&& 0x3f#32) (by omega)
  rw [(evaluateL_parts x (by omega)).1] at hroll
  have hroll' : (uwRollNum (startIndex cursor x n)).toNat=(n.toNat-1)/64 :=
    (congrArg BitVec.toNat hroll).trans hrolls
  have hindex' : (uwSortIndex (startIndex cursor x n)).toNat=(n.toNat%64+cursor)%64 :=
    (congrArg BitVec.toNat hindex).trans hslot
  unfold ahead
  split <;> omega

end StartIndex

variable {c : TmrCfg} {t : SwTmrs} {out : List Nat} {i j : Nat}

lemma view_eq {t' : SwTmrs} {w : BitVec 32} (hw : t'.cb j={t.cb j with idxRollNum:=w})
    (hc : (t.cb j).state=.created → t'.cb j=t.cb j)
    (hr : (t.cb j).state=.running → t'.remain j=t.remain j) : t'.view j=t.view j := by
  unfold view
  cases h : (t.cb j).state with
  | created => rw [hc h,h]
  | running => rw [hr h,hw,h]
  | _ => rw [hw,h]

lemma WheelOk.change (h : WheelOk c t out) {t' : SwTmrs} {out' : List Nat}
    (linked : ∀ s i, i∈t'.sortLink s ↔ (t'.cb i).state=.running ∧ slot t'.cb i=s)
    (nodup : ∀ s, (t'.sortLink s).Nodup) (cursor : t'.cursor<64)
    (fits : ∀ i, (t'.cb i).state=.running → t'.remain i<2^32) (hfree : t'.freeList=t.freeList)
    (hsame : ∀ i, ((t'.cb i).state=.free ↔ (t.cb i).state=.free) ∧
      (t'.cb i).interval=(t.cb i).interval)
    (outNodup : out'.Nodup) (expired : ∀ i, i∈out' ↔ ∃ pre, (t'.cb i).state=.expired pre) :
    WheelOk c t' out' where
  linked := linked
  nodup := nodup
  cursor := cursor
  fits := fits
  known i hi := h.known i (mt (hsame i).1.mpr hi)
  timed i hi := by
    rw [(hsame i).2]
    exact h.timed i (mt (hsame i).1.mpr hi)
  free i := by rw [hfree,h.free,(hsame i).1]
  freeNodup := hfree ▸ h.freeNodup
  outNodup := outNodup
  expired := expired

def link (t : SwTmrs) (i : Nat) (s : SwTmrCtrl) : SwTmrs :=
  let cb := update t.cb i s
  let r := sortLinkInsert cb i (t.sortLink (slot cb i))
  {t with cb:=r.1, sortLink:=update t.sortLink (slot cb i) r.2}

section Link

variable {s : SwTmrCtrl} (h : WheelOk c t out) (hi : (t.cb i).state≠.running)

lemma link_same : ∃ v, (t.link i s).cb j={update t.cb i s j with idxRollNum:=v} ∧
    slot (t.link i s).cb j=slot (update t.cb i s) j :=
  sortLinkInsert_rerolled j

lemma link_state : ((t.link i s).cb j).state=(update t.cb i s j).state := by
  obtain ⟨v,hv,-⟩ := link_same (t:=t) (i:=i) (j:=j) (s:=s)
  rw [hv]

lemma link_slot : slot (t.link i s).cb j=slot (update t.cb i s) j := by
  obtain ⟨v,-,hv⟩ := link_same (t:=t) (i:=i) (j:=j) (s:=s)
  exact hv

include h hi

lemma WheelOk.notMem_sortLink (k : Nat) : i∉t.sortLink k := fun hk => hi ((h.linked k i).mp hk).1

lemma WheelOk.gap_update_of_mem {k : Nat} (hj : j∈t.sortLink k) :
    gap (update t.cb i s) j=gap t.cb j := by
  have hne : j≠i := ne_of_mem_of_not_mem hj (h.notMem_sortLink hi k)
  simp [gap,hne]

lemma WheelOk.remain_link_self : (t.link i s).remain i =
      64*(uwRollNum s.idxRollNum).toNat+ahead t.cursor (uwSortIndex s.idxRollNum).toNat := by
  have hslot : slot (update t.cb i s) i=(uwSortIndex s.idxRollNum).toNat := by simp [slot]
  have hgap : gap (update t.cb i s) i=(uwRollNum s.idxRollNum).toNat := by simp [gap]
  obtain ⟨hplaced,hlist⟩ := sortLinkInsert_place (b:=update t.cb i s) (i:=i)
    (l:=t.sortLink (slot (update t.cb i s) i))
  have hdue := due_place_new (g:=gap (update t.cb i s)) (h.nodup _)
    (h.notMem_sortLink hi (slot (update t.cb i s) i))
  unfold remain
  rw [link_slot,← hslot,← hgap,← hdue,← hplaced,← hlist]
  simp [link]

lemma WheelOk.remain_link_of_ne (hj : j≠i) (hr : (t.cb j).state=.running) :
    (t.link i s).remain j=t.remain j := by
  have hmem : j∈t.sortLink (slot t.cb j) := (h.linked _ _).mpr ⟨hr,rfl⟩
  have hslot : slot (update t.cb i s) j=slot t.cb j := by simp [slot,hj]
  obtain ⟨hplaced,hlist⟩ := sortLinkInsert_place (b:=update t.cb i s) (i:=i)
    (l:=t.sortLink (slot (update t.cb i s) i))
  have hcursor : (t.link i s).cursor=t.cursor := rfl
  unfold remain
  rw [link_slot,hslot,hcursor]
  by_cases hsame : slot t.cb j=slot (update t.cb i s) i
  . rw [hsame] at hmem ⊢
    have hdue := due_place_of_mem (g:=gap (update t.cb i s)) (h.nodup _)
      (h.notMem_sortLink hi (slot (update t.cb i s) i)) hmem
    rw [← hplaced,← hlist,due_congr fun a ha => h.gap_update_of_mem hi ha] at hdue
    rw [← hdue]
    simp [link]
  have hother : (t.link i s).sortLink (slot t.cb j)=t.sortLink (slot t.cb j) := by simp [link,hsame]
  rw [hother,due_congr]
  intro a ha
  have hne : a≠i := ne_of_mem_of_not_mem ha (h.notMem_sortLink hi _)
  have hout : a∉t.sortLink (slot (update t.cb i s) i) := by
    intro ha'
    exact hsame (((h.linked _ _).mp ha).2.symm.trans ((h.linked _ _).mp ha').2)
  have hcb : (t.link i s).cb a=update t.cb i s a := sortLinkInsert_of_notMem hne hout
  simp [gap,hcb,hne]

omit h hi in
lemma link_perm (k : Nat) : (t.link i s).sortLink k |>.Perm
    (if k=slot (update t.cb i s) i then i::t.sortLink k else t.sortLink k) := by
  split
  . rename_i hk
    have hlist : (t.link i s).sortLink k = (place (gap (update t.cb i s)) i (t.sortLink k)).2 := by
      rw [hk]
      simp [SwTmrs.link,sortLinkInsert_place.2]
    rw [hlist]
    exact place_perm
  rename_i hk
  simp [SwTmrs.link,hk]

lemma WheelOk.mem_link (hs : s.state=.running) (k : Nat) : j∈(t.link i s).sortLink k ↔
      (update t.cb i s j).state=.running ∧ slot (update t.cb i s) j=k := by
  have hold := h.linked k j
  rw [(link_perm k).mem_iff]
  by_cases hj : j=i
  . split
    . simp_all
    simp_all [eq_comm]
  split <;> simp [hj,hold,slot]

lemma WheelOk.nodup_link (k : Nat) : ((t.link i s).sortLink k).Nodup := by
  rw [(link_perm k).nodup_iff]
  split
  . exact nodup_cons.mpr ⟨h.notMem_sortLink hi k,h.nodup k⟩
  exact h.nodup k

lemma WheelOk.link (hs : s.state=.running) (hiv : s.interval=(t.cb i).interval)
    (hnf : (t.cb i).state≠.free) (hfit : 64*(uwRollNum s.idxRollNum).toNat +
      ahead t.cursor (uwSortIndex s.idxRollNum).toNat<2^32) :
    WheelOk c (t.link i s) (out.erase i) := by
  refine h.change ?_ (h.nodup_link hi) h.cursor ?_ rfl ?_ (h.outNodup.erase i) ?_
  . intro k j
    rw [h.mem_link hi hs,link_state,link_slot]
  . intro j hj
    by_cases hji : j=i
    . rw [hji,h.remain_link_self hi]
      exact hfit
    rw [link_state,update_of_ne hji] at hj
    rw [h.remain_link_of_ne hi hji hj]
    exact h.fits j hj
  . intro j
    obtain ⟨v,hv,-⟩ := link_same (t:=t) (i:=i) (j:=j) (s:=s)
    rw [hv]
    by_cases hji : j=i
    . subst hji
      simp [hs,hiv,hnf]
    simp [hji]
  intro j
  rw [h.outNodup.mem_erase_iff,h.expired,link_state]
  by_cases hji : j=i
  . subst hji
    simp [hs]
  simp [hji]

lemma WheelOk.view_link (hs : s.state=.running) : (t.link i s).view=update t.view i
      ⟨.running (64*(uwRollNum s.idxRollNum).toNat +
        ahead t.cursor (uwSortIndex s.idxRollNum).toNat),s.mode,s.interval.toNat,s.handler,
        s.arg1⟩ := by
  funext j
  obtain ⟨v,hv,-⟩ := link_same (t:=t) (i:=i) (j:=j) (s:=s)
  by_cases hji : j=i
  . subst hji
    rw [update_self] at hv ⊢
    unfold view
    rw [hv,hs,h.remain_link_self hi]
  rw [update_of_ne hji] at hv ⊢
  refine view_eq hv ?_ (h.remain_link_of_ne hi hji)
  intro hcr
  have hout : j∉t.sortLink (slot (update t.cb i s) i) := h.notMem_sortLink (by rw [hcr]; decide) _
  exact (sortLinkInsert_of_notMem hji hout).trans (update_of_ne hji _ _)

end Link

section Start

variable {n : BitVec 32} (h : WheelOk c t out) (hi : (t.cb i).state≠.running)
  (hn : 0<n.toNat)

def startCb (c : TmrCfg) (t : SwTmrs) (i : Nat) (n : BitVec 32) : SwTmrCtrl :=
  { t.cb i with
    expectedTick := if c.tickless then (n.toNat+t.uniTicks)%2^64 else (t.cb i).expectedTick
    idxRollNum := startIndex t.cursor (t.cb i).idxRollNum n
    overrun := 0
    state := .running }

lemma osSwTmrStart_eq : t.osSwTmrStart c i n=t.link i (startCb c t i n) := by
  unfold osSwTmrStart startCb
  cases c.tickless
  . simp [osSwTmrStartInner,modCb,link,slot]
  simp [osSwTmrStartInner,modCb,link,slot]

include h hi hn

lemma WheelOk.start (hnf : (t.cb i).state≠.free) :
    WheelOk c (t.osSwTmrStart c i n) (out.erase i) := by
  have hlt := n.isLt
  have hahead := startIndex_ahead h.cursor (t.cb i).idxRollNum hn
  rw [osSwTmrStart_eq]
  exact h.link hi rfl rfl hnf (hahead ▸ hlt)

lemma WheelOk.view_start : (t.osSwTmrStart c i n).view =
      update t.view i {t.view i with phase:=.running n.toNat} := by
  have hahead := startIndex_ahead h.cursor (t.cb i).idxRollNum hn
  have hlink := h.view_link hi (s:=startCb c t i n) rfl
  rw [osSwTmrStart_eq,hlink]
  unfold startCb view
  rw [hahead]

end Start

section Remain

private lemma toNat_foldl_add (f : Nat → BitVec 32) (l : List Nat) (r : BitVec 32)
    (h : r.toNat+(l.map fun j => (f j).toNat).sum<2^32) :
    (l.foldl (fun r j => r+f j) r).toNat=r.toNat+(l.map fun j => (f j).toNat).sum := by
  induction l generalizing r with
  | nil => simp
  | cons j l ih =>
    simp only [map_cons,sum_cons] at h ⊢
    have hadd : (r+f j).toNat=r.toNat+(f j).toNat := by exact Nat.mod_eq_of_lt (by omega)
    rw [foldl_cons,ih _ (by omega),hadd,Nat.add_assoc]

private lemma toNat_ahead {cursor : Nat} {s : BitVec 32} (hc : cursor<64) (hs : s.toNat<64) :
    ((if s≤BitVec.ofNat 32 cursor then s+64 else s)-BitVec.ofNat 32 cursor).toNat =
      ahead cursor s.toNat := by
  have hcur : (BitVec.ofNat 32 cursor).toNat=cursor := Nat.mod_eq_of_lt (by omega)
  have hadd : (s+64).toNat=s.toNat+64 := by
    exact Nat.mod_eq_of_lt (by change s.toNat+64<2^32; omega)
  unfold ahead
  by_cases h : s.toNat≤cursor
  . have hle : s≤BitVec.ofNat 32 cursor := by
      rw [BitVec.le_def,hcur]
      exact h
    have hsub : BitVec.ofNat 32 cursor ≤ s+64 := by
      rw [BitVec.le_def,hcur,hadd]
      omega
    rw [if_pos hle,if_pos h,BitVec.toNat_sub_of_le hsub,hadd,hcur]
  have hle : ¬s≤BitVec.ofNat 32 cursor := by
    rw [BitVec.le_def,hcur]
    exact h
  have hsub : BitVec.ofNat 32 cursor ≤ s := by
    rw [BitVec.le_def,hcur]
    omega
  rw [if_neg hle,if_neg h,BitVec.toNat_sub_of_le hsub,hcur]

lemma WheelOk.toNat_osSwTmrGetRemain (h : WheelOk c t out) (hr : (t.cb i).state=.running) :
    (t.osSwTmrGetRemain i).toNat=t.remain i := by
  have hmem : i∈t.sortLink (slot t.cb i) := (h.linked _ _).mpr ⟨hr,rfl⟩
  have hfit := h.fits i hr
  have hcursor := h.cursor
  have hslot := slot_lt t.cb i
  have hsum : ((prevChain (t.sortLink (slot t.cb i)) i).map fun j =>
      (uwRollNum (t.cb j).idxRollNum).toNat).sum = due (gap t.cb) (t.sortLink (slot t.cb i)) i := by
    rw [due_eq_sum hmem]
    simp [prevChain,sum_reverse,gap]
    rfl
  unfold remain at hfit ⊢
  have hrolls := toNat_foldl_add (fun j => uwRollNum (t.cb j).idxRollNum)
    (prevChain (t.sortLink (slot t.cb i)) i) 0 (by
      change 0+_<_
      omega)
  have hword : (t.osSwTmrGetRemain i).toNat =
      (((prevChain (t.sortLink (slot t.cb i)) i).foldl
        (fun r j => r+uwRollNum (t.cb j).idxRollNum) 0).toNat*64%2^32 +
          ahead t.cursor (slot t.cb i))%2^32 := by
    have htemp : _=ahead t.cursor (slot t.cb i) := toNat_ahead hcursor hslot
    unfold osSwTmrGetRemain
    rw [BitVec.toNat_add,htemp,BitVec.toNat_mul]
    rfl
  have hzero : (0 : BitVec 32).toNat=0 := rfl
  omega

end Remain

section Stop

variable (h : WheelOk c t out) (hr : (t.cb i).state=.running)

lemma rollToNext_none (ha : after (t.sortLink (slot t.cb i)) i=none) : t.rollToNext i=t := by
  unfold rollToNext
  rw [← slot,ha]

lemma rollToNext_some (ha : after (t.sortLink (slot t.cb i)) i=some j) :
    t.rollToNext i=t.modCb j fun s => {s with
      idxRollNum := uwRollNumAdd s.idxRollNum (t.cb i).idxRollNum} := by
  unfold rollToNext
  rw [← slot,ha]

lemma rollToNext_links : (t.rollToNext i).sortLink=t.sortLink ∧
    (t.rollToNext i).cursor=t.cursor ∧ (t.rollToNext i).freeList=t.freeList := by
  cases ha : after (t.sortLink (slot t.cb i)) i with
  | none =>
    rw [rollToNext_none ha]
    exact ⟨rfl,rfl,rfl⟩
  | some j =>
    rw [rollToNext_some ha]
    exact ⟨rfl,rfl,rfl⟩

include h

private lemma WheelOk.rolls_fit (ha : after (t.sortLink (slot t.cb i)) i=some j) :
    (uwRollNum (t.cb j).idxRollNum).toNat+(uwRollNum (t.cb i).idxRollNum).toNat<2^26 := by
  have hle := gap_add_le_due (g:=gap t.cb) (h.nodup (slot t.cb i)) ha
  obtain ⟨hrun,hslot⟩ := (h.linked _ _).mp (after_mem ha)
  have hfit := h.fits j hrun
  have hpos := ahead_pos (s:=slot t.cb j) h.cursor
  unfold remain at hfit
  rw [hslot] at hfit hpos
  unfold gap at hle hfit
  omega

lemma WheelOk.rerolled_rollToNext : Rerolled t.cb (t.rollToNext i).cb := by
  cases ha : after (t.sortLink (slot t.cb i)) i with
  | none =>
    rw [rollToNext_none ha]
    exact Rerolled.refl
  | some j =>
    rw [rollToNext_some ha]
    exact Rerolled.update (uwRollNumAdd_parts _ _ (h.rolls_fit ha)).2

lemma WheelOk.gap_rollToNext :
    gap (t.rollToNext i).cb=bequeath (gap t.cb) (t.sortLink (slot t.cb i)) i := by
  unfold bequeath
  cases ha : after (t.sortLink (slot t.cb i)) i with
  | none => rw [rollToNext_none ha]
  | some j =>
    have hadd := (uwRollNumAdd_parts _ _ (h.rolls_fit ha)).1
    rw [rollToNext_some ha]
    unfold modCb
    rw [gap_update,hadd]
    rfl

omit h in
lemma rollToNext_cb_of_notMem (hj : j∉t.sortLink (slot t.cb i)) : (t.rollToNext i).cb j=t.cb j := by
  cases ha : after (t.sortLink (slot t.cb i)) i with
  | none => rw [rollToNext_none ha]
  | some b =>
    rw [rollToNext_some ha]
    exact update_of_ne (ne_of_mem_of_not_mem (after_mem ha) hj).symm _ _

lemma WheelOk.rollToNext_cb_of_mem (hj : j∈prevChain (t.sortLink (slot t.cb i)) i) :
    (t.rollToNext i).cb j=t.cb j := by
  cases ha : after (t.sortLink (slot t.cb i)) i with
  | none => rw [rollToNext_none ha]
  | some b =>
    have hb : b∉prevChain (t.sortLink (slot t.cb i)) i := by
      have hfront := after_notMem_front (h.nodup (slot t.cb i)) ha
      have hne := after_ne (h.nodup (slot t.cb i)) ha
      simp only [prevChain,mem_cons,mem_reverse,not_or]
      exact ⟨hne,hfront⟩
    rw [rollToNext_some ha]
    exact update_of_ne (ne_of_mem_of_not_mem hj hb) _ _

lemma WheelOk.rollToNext_cb_self : (t.rollToNext i).cb i=t.cb i :=
  h.rollToNext_cb_of_mem mem_cons_self

include hr

lemma WheelOk.toNat_remainTick_rollToNext :
    ((t.rollToNext i).osSwTmrGetRemainTick i).toNat=t.remain i := by
  obtain ⟨hlink,hcursor,-⟩ := rollToNext_links (t:=t) (i:=i)
  have hself := h.rollToNext_cb_self (i:=i)
  have hget : (t.rollToNext i).osSwTmrGetRemainTick i=t.osSwTmrGetRemain i := by
    unfold osSwTmrGetRemainTick
    rw [hself,hr]
    unfold osSwTmrGetRemain
    simp only [hself,hlink,hcursor]
    congr 2
    apply foldl_ext
    intro r j hj
    rw [h.rollToNext_cb_of_mem hj]
  rw [hget]
  exact h.toNat_osSwTmrGetRemain hr

end Stop

def unlink (t : SwTmrs) (i : Nat) (v : BitVec 32) : SwTmrs :=
  let t1 := t.rollToNext i
  {t1 with
    cb := update t1.cb i {t1.cb i with idxRollNum:=v, state:=.created}
    sortLink := update t.sortLink (slot t.cb i) ((t.sortLink (slot t.cb i)).erase i)}

lemma osSwTmrStop_eq (b : Bool) : t.osSwTmrStop i b=t.unlink i
    (if b then ((t.rollToNext i).cb i).idxRollNum
      else (t.rollToNext i).osSwTmrGetRemainTick i) := by
  obtain ⟨hlink,-,-⟩ := rollToNext_links (t:=t) (i:=i)
  unfold osSwTmrStop unlink
  cases b <;> simp [modCb,hlink,slot]

section Unlink

variable {v : BitVec 32} (h : WheelOk c t out) (hr : (t.cb i).state=.running)

include h

lemma WheelOk.unlink_cb_of_ne (hj : j≠i) : ∃ w, (t.unlink i v).cb j =
    {t.cb j with idxRollNum:=w} ∧ slot (t.unlink i v).cb j=slot t.cb j := by
  obtain ⟨w,hw,hslot⟩ := h.rerolled_rollToNext (i:=i) j
  refine ⟨w,?_,?_⟩
  . rw [← hw]
    exact update_of_ne hj _ _
  rw [← hslot]
  simp [slot,unlink,hj]

lemma WheelOk.unlink_cb_self :
    (t.unlink i v).cb i={t.cb i with idxRollNum:=v, state:=.created} := by
  simp [unlink,h.rollToNext_cb_self]

include hr

lemma WheelOk.remain_unlink (hj : j≠i) (hjr : (t.cb j).state=.running) :
    (t.unlink i v).remain j=t.remain j := by
  obtain ⟨-,hcursor,-⟩ := rollToNext_links (t:=t) (i:=i)
  obtain ⟨w,-,hslot⟩ := h.unlink_cb_of_ne hj (v:=v)
  have hmem : j∈t.sortLink (slot t.cb j) := (h.linked _ _).mpr ⟨hjr,rfl⟩
  have hi : i∈t.sortLink (slot t.cb i) := (h.linked _ _).mpr ⟨hr,rfl⟩
  have hgap : ∀ a, a≠i → gap (t.unlink i v).cb a=gap (t.rollToNext i).cb a := by
    intro a ha
    simp [gap,unlink,ha]
  have hcur : (t.unlink i v).cursor=t.cursor := hcursor
  unfold remain
  rw [hslot,hcur]
  by_cases hsame : slot t.cb j=slot t.cb i
  . have hlist : (t.unlink i v).sortLink (slot t.cb i)=(t.sortLink (slot t.cb i)).erase i := by
      simp [unlink]
    have hdue := due_erase (g:=gap t.cb) (h.nodup _) hi (hsame ▸ hmem) hj
    rw [← h.gap_rollToNext] at hdue
    rw [hsame,hlist,← hdue,due_congr]
    intro a ha
    exact hgap a ((h.nodup _).mem_erase_iff.mp ha).1
  have hlist : (t.unlink i v).sortLink (slot t.cb j)=t.sortLink (slot t.cb j) := by
    simp [unlink,hsame]
  rw [hlist,due_congr]
  intro a ha
  have hout : a∉t.sortLink (slot t.cb i) := by
    intro ha'
    exact hsame (((h.linked _ _).mp ha).2.symm.trans ((h.linked _ _).mp ha').2)
  rw [hgap a (ne_of_mem_of_not_mem hi hout).symm]
  simp [gap,rollToNext_cb_of_notMem hout]

lemma WheelOk.mem_unlink (k : Nat) : j∈(t.unlink i v).sortLink k ↔
    ((t.unlink i v).cb j).state=.running ∧ slot (t.unlink i v).cb j=k := by
  have hold := h.linked k j
  have hlist : (t.unlink i v).sortLink k = if k=slot t.cb i then (t.sortLink k).erase i
      else t.sortLink k := by
    by_cases hk : k=slot t.cb i
    . rw [if_pos hk,hk]
      simp [unlink]
    simp [unlink,hk]
  rw [hlist]
  by_cases hj : j=i
  . subst hj
    rw [h.unlink_cb_self]
    by_cases hk : k=slot t.cb j
    . simp [hk,(h.nodup _).mem_erase_iff]
    simpa [hk,hr,Ne.symm hk] using hold
  obtain ⟨w,hw,hslot⟩ := h.unlink_cb_of_ne hj (v:=v)
  rw [hw,hslot,← hold]
  by_cases hk : k=slot t.cb i
  . simp [hk,(h.nodup _).mem_erase_iff,hj]
  simp [hk]

lemma WheelOk.unlink : WheelOk c (t.unlink i v) out := by
  obtain ⟨-,hcursor,hfree⟩ := rollToNext_links (t:=t) (i:=i)
  refine h.change (fun k j => h.mem_unlink hr k) ?_ (hcursor ▸ h.cursor) ?_ hfree ?_ h.outNodup ?_
  . intro k
    by_cases hk : k=slot t.cb i
    . subst hk
      simpa [SwTmrs.unlink] using (h.nodup _).erase i
    simpa [SwTmrs.unlink,hk] using h.nodup k
  . intro j hj
    by_cases hji : j=i
    . rw [hji,h.unlink_cb_self] at hj
      cases hj
    obtain ⟨w,hw,-⟩ := h.unlink_cb_of_ne hji (v:=v)
    rw [hw] at hj
    rw [h.remain_unlink hr hji hj]
    exact h.fits j hj
  . intro j
    by_cases hji : j=i
    . rw [hji,h.unlink_cb_self,hr]
      simp
    obtain ⟨w,hw,-⟩ := h.unlink_cb_of_ne hji (v:=v)
    rw [hw]
    simp
  intro j
  rw [h.expired]
  by_cases hji : j=i
  . rw [hji,h.unlink_cb_self,hr]
    simp
  obtain ⟨w,hw,-⟩ := h.unlink_cb_of_ne hji (v:=v)
  rw [hw]

lemma WheelOk.view_unlink : (t.unlink i v).view =
    update t.view i {t.view i with phase:=.created v.toNat} := by
  funext j
  by_cases hji : j=i
  . subst hji
    rw [update_self]
    unfold view
    rw [h.unlink_cb_self]
  obtain ⟨w,hw,-⟩ := h.unlink_cb_of_ne hji (v:=v)
  rw [update_of_ne hji]
  refine view_eq hw ?_ (h.remain_unlink hr hji)
  intro hcr
  have hout : j∉t.sortLink (slot t.cb i) := h.notMem_sortLink (by rw [hcr]; decide) _
  exact (update_of_ne hji _ _).trans (rollToNext_cb_of_notMem hout)

end Unlink

section Scan

variable {b : Nat → SwTmrCtrl} {l : List Nat}

lemma scanSlot_lapse : gap (scanSlot b l).1=(lapse (gap b) l).1 ∧
    (scanSlot b l).2=(lapse (gap b) l).2 := by
  induction l generalizing b with
  | nil => exact ⟨rfl,rfl⟩
  | cons i l ih =>
    by_cases hpos : 0<uwRollNum (b i).idxRollNum
    . have hgap : 0<gap b i := hpos
      have hdec := (uwRollNumDec_parts _ hgap).1
      simp only [scanSlot,lapse,if_pos hpos,if_pos hgap,gap_update,hdec,and_true]
      rfl
    have hgap : ¬0<gap b i := hpos
    have hrest := ih (b:=update b i { b i with
      overrun := if (b i).overrun<0xFF then (b i).overrun+1 else (b i).overrun
      state := .expired .default })
    have hsame : gap (update b i { b i with
        overrun := if (b i).overrun<0xFF then (b i).overrun+1 else (b i).overrun
        state := .expired .default })=gap b := by
      rw [gap_update]
      exact update_eq_self i (gap b)
    rw [hsame] at hrest
    simp only [scanSlot,lapse,if_neg hpos,if_neg hgap]
    exact ⟨hrest.1,congrArg (fun r : List Nat×List Nat => (i::r.1,r.2)) hrest.2⟩

lemma scanSlot_of_notMem (hj : j∉l) : (scanSlot b l).1 j=b j := by
  induction l generalizing b with
  | nil => rfl
  | cons i l ih =>
    have hne : j≠i := (ne_of_mem_of_not_mem mem_cons_self hj).symm
    unfold scanSlot
    split
    . exact update_of_ne hne _ _
    exact (ih fun h => hj (mem_cons_of_mem i h)).trans (update_of_ne hne _ _)

lemma scanSlot_of_mem_out (hl : l.Nodup) (hj : j∈(scanSlot b l).2.1) :
    ∃ o, (scanSlot b l).1 j={b j with overrun:=o, state:=.expired .default} := by
  induction l generalizing b with
  | nil => cases hj
  | cons i l ih =>
    obtain ⟨hi,hnd⟩ := nodup_cons.mp hl
    unfold scanSlot at hj ⊢
    split at hj
    . cases hj
    rename_i hpos
    rw [if_neg hpos]
    by_cases hji : j=i
    . subst hji
      refine ⟨_,(scanSlot_of_notMem hi).trans (update_self ..)⟩
    obtain ⟨o,ho⟩ := ih hnd ((mem_cons.mp hj).resolve_left hji)
    rw [update_of_ne hji] at ho
    exact ⟨o,ho⟩

lemma scanSlot_of_notMem_out (hj : j∉(scanSlot b l).2.1) :
    ∃ w, (scanSlot b l).1 j={b j with idxRollNum:=w} ∧
      slot (scanSlot b l).1 j=slot b j := by
  induction l generalizing b with
  | nil => exact ⟨_,rfl,rfl⟩
  | cons i l ih =>
    unfold scanSlot at hj ⊢
    split at hj
    . rename_i hpos
      rw [if_pos hpos]
      exact Rerolled.update (uwRollNumDec_parts _ hpos).2 j
    rename_i hpos
    rw [if_neg hpos]
    have hji : j≠i := (ne_of_mem_of_not_mem mem_cons_self hj).symm
    obtain ⟨w,hw,hslot⟩ := ih fun h => hj (mem_cons_of_mem i h)
    rw [update_of_ne hji] at hw
    refine ⟨w,hw,hslot.trans ?_⟩
    simp [slot,hji]

variable (h : WheelOk c t [])

abbrev nextSlot (t : SwTmrs) : Nat := (t.cursor+1)%osSwtmrSortLinkLen

lemma scan_out : t.osSwTmrScanOneSlot.2=(lapse (gap t.cb) (t.sortLink (nextSlot t))).2.1 := by
  rw [← scanSlot_lapse.2]
  rfl

lemma scan_left : t.osSwTmrScanOneSlot.1.sortLink (nextSlot t) =
    (lapse (gap t.cb) (t.sortLink (nextSlot t))).2.2 := by
  rw [← scanSlot_lapse.2]
  exact update_self ..

include h

lemma WheelOk.out_scan_running (hj : j∈t.osSwTmrScanOneSlot.2) :
    (t.cb j).state=.running ∧ slot t.cb j=nextSlot t := by
  apply (h.linked _ _).mp
  have hout := scan_out ▸ hj
  rw [← lapse_append (g:=gap t.cb) (l:=t.sortLink (nextSlot t))]
  exact mem_append_left _ hout

lemma WheelOk.remain_of_mem_out (hj : j∈t.osSwTmrScanOneSlot.2) : t.remain j=1 := by
  obtain ⟨-,hslot⟩ := h.out_scan_running hj
  have hout := scan_out ▸ hj
  have hdue := due_of_mem_lapsed (h.nodup _) hout
  have hcursor := h.cursor
  unfold remain
  rw [hslot,hdue]
  unfold ahead nextSlot osSwtmrSortLinkLen
  split <;> omega

lemma WheelOk.remain_of_notMem_out (hr : (t.cb j).state=.running)
    (hj : j∉t.osSwTmrScanOneSlot.2) : t.osSwTmrScanOneSlot.1.remain j+1=t.remain j ∧
      0<t.osSwTmrScanOneSlot.1.remain j := by
  have hcursor := h.cursor
  have hmem : j∈t.sortLink (slot t.cb j) := (h.linked _ _).mpr ⟨hr,rfl⟩
  obtain ⟨w,-,hslot⟩ := scanSlot_of_notMem_out (b:=t.cb) (l:=t.sortLink (nextSlot t)) hj
  have hslot' : slot t.osSwTmrScanOneSlot.1.cb j=slot t.cb j := hslot
  have hlt := slot_lt t.cb j
  unfold remain
  rw [hslot']
  by_cases hsame : slot t.cb j=nextSlot t
  . have hleft : j∈(lapse (gap t.cb) (t.sortLink (nextSlot t))).2.2 :=
      (mem_left_iff (h.nodup _)).mpr ⟨hsame ▸ hmem,scan_out ▸ hj⟩
    have hdue := due_of_mem_left (h.nodup _) hleft
    have hgap : gap t.osSwTmrScanOneSlot.1.cb =
        (lapse (gap t.cb) (t.sortLink (nextSlot t))).1 := scanSlot_lapse.1
    have hcur : t.osSwTmrScanOneSlot.1.cursor=nextSlot t := rfl
    rw [hsame,scan_left,hgap,hcur,← hdue]
    unfold ahead nextSlot osSwtmrSortLinkLen
    split <;> split <;> omega
  have hlist : t.osSwTmrScanOneSlot.1.sortLink (slot t.cb j)=t.sortLink (slot t.cb j) :=
    update_of_ne hsame _ _
  have hcur : t.osSwTmrScanOneSlot.1.cursor=nextSlot t := rfl
  rw [hlist,due_congr (g:=gap t.cb),hcur]
  . revert hsame
    unfold ahead nextSlot osSwtmrSortLinkLen
    intro hsame
    split <;> split <;> omega
  intro a ha
  have hout : a∉t.sortLink (nextSlot t) := by
    intro ha'
    exact hsame (((h.linked _ _).mp ha).2.symm.trans ((h.linked _ _).mp ha').2)
  have hcb : t.osSwTmrScanOneSlot.1.cb a=t.cb a := scanSlot_of_notMem hout
  simp [gap,hcb]

lemma WheelOk.out_scan_cb (hj : j∈t.osSwTmrScanOneSlot.2) :
    ∃ o, t.osSwTmrScanOneSlot.1.cb j={t.cb j with overrun:=o, state:=.expired .default} :=
  scanSlot_of_mem_out (h.nodup _) hj

lemma WheelOk.out_scan_state (hj : j∈t.osSwTmrScanOneSlot.2) :
    (t.osSwTmrScanOneSlot.1.cb j).state=.expired .default := by
  obtain ⟨o,ho⟩ := h.out_scan_cb hj
  rw [ho]

omit h in
lemma scan_cb_of_notMem_out (hj : j∉t.osSwTmrScanOneSlot.2) :
    ∃ w, t.osSwTmrScanOneSlot.1.cb j={t.cb j with idxRollNum:=w} ∧
      slot t.osSwTmrScanOneSlot.1.cb j=slot t.cb j :=
  scanSlot_of_notMem_out hj

lemma WheelOk.mem_scan (k : Nat) : j∈t.osSwTmrScanOneSlot.1.sortLink k ↔
    (t.osSwTmrScanOneSlot.1.cb j).state=.running ∧ slot t.osSwTmrScanOneSlot.1.cb j=k := by
  have hold := h.linked k j
  have hlist : j∈t.osSwTmrScanOneSlot.1.sortLink k ↔
      j∈t.sortLink k ∧ (k=nextSlot t → j∉t.osSwTmrScanOneSlot.2) := by
    by_cases hk : k=nextSlot t
    . rw [hk,scan_left,mem_left_iff (h.nodup _),scan_out]
      simp
    have hsame : t.osSwTmrScanOneSlot.1.sortLink k=t.sortLink k := update_of_ne hk _ _
    simp [hsame,hk]
  rw [hlist,hold]
  by_cases hj : j∈t.osSwTmrScanOneSlot.2
  . obtain ⟨-,hslot⟩ := h.out_scan_running hj
    rw [h.out_scan_state hj,hslot]
    constructor
    . rintro ⟨⟨-,hk⟩,hnot⟩
      exact absurd hj (hnot hk.symm)
    rintro ⟨hrun,-⟩
    cases hrun
  obtain ⟨w,hw,hslot⟩ := scan_cb_of_notMem_out hj
  rw [hw,hslot]
  simp [hj]

lemma WheelOk.scan : WheelOk c t.osSwTmrScanOneSlot.1 t.osSwTmrScanOneSlot.2 := by
  refine h.change (fun k j => h.mem_scan k) ?_ (Nat.mod_lt _ (by decide)) ?_ rfl ?_ ?_ ?_
  . intro k
    have hsub : List.Sublist (t.osSwTmrScanOneSlot.1.sortLink k) (t.sortLink k) := by
      by_cases hk : k=nextSlot t
      . rw [hk,scan_left]
        nth_rewrite 2 [← lapse_append (g:=gap t.cb) (l:=t.sortLink (nextSlot t))]
        exact sublist_append_right _ _
      have hsame : t.osSwTmrScanOneSlot.1.sortLink k=t.sortLink k := update_of_ne hk _ _
      rw [hsame]
    exact (h.nodup k).sublist hsub
  . intro j hj
    by_cases hout : j∈t.osSwTmrScanOneSlot.2
    . rw [h.out_scan_state hout] at hj
      cases hj
    obtain ⟨w,hw,-⟩ := scan_cb_of_notMem_out hout
    rw [hw] at hj
    have hfit := h.fits j hj
    have hless := (h.remain_of_notMem_out hj hout).1
    omega
  . intro j
    by_cases hout : j∈t.osSwTmrScanOneSlot.2
    . obtain ⟨o,ho⟩ := h.out_scan_cb hout
      simp [ho,(h.out_scan_running hout).1]
    obtain ⟨w,hw,-⟩ := scan_cb_of_notMem_out hout
    rw [hw]
    simp
  . have hnd := h.nodup (nextSlot t)
    rw [← lapse_append (g:=gap t.cb) (l:=t.sortLink (nextSlot t))] at hnd
    rw [scan_out]
    exact (nodup_append.mp hnd).1
  intro j
  by_cases hout : j∈t.osSwTmrScanOneSlot.2
  . simp [hout,h.out_scan_state hout]
  obtain ⟨w,hw,-⟩ := scan_cb_of_notMem_out hout
  have hold := h.expired j
  rw [hw]
  simpa [hout] using hold

lemma WheelOk.view_scan : t.osSwTmrScanOneSlot.1.view = fun j => (t.view j).tick := by
  funext j
  by_cases hj : j∈t.osSwTmrScanOneSlot.2
  . obtain ⟨hr,-⟩ := h.out_scan_running hj
    obtain ⟨o,hcb⟩ := h.out_scan_cb hj
    have hone := h.remain_of_mem_out hj
    unfold view Countdown.tick
    rw [hcb,hr]
    simp [hone]
  obtain ⟨w,hcb,-⟩ := scan_cb_of_notMem_out hj
  have hcr : (t.cb j).state=.created → w=(t.cb j).idxRollNum := by
    intro hcr
    have hout : j∉t.sortLink (nextSlot t) := h.notMem_sortLink (by rw [hcr]; decide) _
    have hsame : t.osSwTmrScanOneSlot.1.cb j=t.cb j := scanSlot_of_notMem hout
    rw [← hsame,hcb]
  unfold view Countdown.tick
  rw [hcb]
  cases hst : (t.cb j).state with
  | free => rfl
  | created => rw [hcr hst]
  | expired pre => rfl
  | running =>
    obtain ⟨hless,hpos⟩ := h.remain_of_notMem_out hst hj
    have hne : t.remain j≠1 := by omega
    have hpred : t.osSwTmrScanOneSlot.1.remain j=t.remain j-1 := by omega
    simp [hne,hpred]

end Scan

def idlePhase (s : SwTmrCtrl) : Phase :=
  match s.state with
  | .created => .created s.idxRollNum.toNat
  | .expired pre => .expired pre
  | _ => .free

section Idle

variable {s : SwTmrCtrl} {f : List Nat} (h : WheelOk c t out) (hi : (t.cb i).state≠.running)
  (hs : s.state≠.running)

include h hi

lemma WheelOk.remain_idle (hr : (t.cb j).state=.running) :
    {t with cb:=update t.cb i s, freeList:=f}.remain j=t.remain j := by
  have hj : j≠i := fun hj => hi (hj ▸ hr)
  have hslot : slot (update t.cb i s) j=slot t.cb j := by simp [slot,hj]
  unfold remain
  rw [hslot,due_congr]
  intro a ha
  exact h.gap_update_of_mem hi ha

include hs

lemma WheelOk.view_idle : {t with cb:=update t.cb i s, freeList:=f}.view =
    update t.view i ⟨idlePhase s,s.mode,s.interval.toNat,s.handler,s.arg1⟩ := by
  funext j
  by_cases hji : j=i
  . unfold view idlePhase
    cases hst : s.state <;> simp_all
  rw [update_of_ne hji]
  have hcb : update t.cb i s j=t.cb j := update_of_ne hji _ _
  exact view_eq hcb (fun _ => hcb) (h.remain_idle hi)

lemma WheelOk.idle {out' : List Nat} (hk : i<c.maxNum) (hiv : s.state≠.free → s.interval≠0)
    (hfl : ∀ j, j≠i → (j∈f ↔ j∈t.freeList)) (hfi : i∈f ↔ s.state=.free) (hfln : f.Nodup)
    (hout : ∀ j, j≠i → (j∈out' ↔ j∈out)) (hoi : i∈out' ↔ ∃ pre, s.state=.expired pre)
    (houtn : out'.Nodup) : WheelOk c {t with cb:=update t.cb i s, freeList:=f} out' where
  linked k j := by
    have hold := h.linked k j
    by_cases hji : j=i
    . subst hji
      simpa [hs,hi] using hold
    simpa [hji,slot] using hold
  nodup := h.nodup
  cursor := h.cursor
  fits j hj := by
    have hji : j≠i := by
      intro hji
      subst hji
      exact hs (by simpa using hj)
    have hjr : (t.cb j).state=.running := by simpa [hji] using hj
    rw [h.remain_idle hi hjr]
    exact h.fits j hjr
  known j hj := by
    by_cases hji : j=i
    . exact hji ▸ hk
    exact h.known j (by simpa [hji] using hj)
  timed j hj := by
    by_cases hji : j=i
    . subst hji
      simpa using hiv (by simpa using hj)
    simpa [hji] using h.timed j (by simpa [hji] using hj)
  free j := by
    by_cases hji : j=i
    . subst hji
      simp [hfi,hk]
    simp [hfl j hji,h.free,hji]
  freeNodup := hfln
  outNodup := houtn
  expired j := by
    by_cases hji : j=i
    . subst hji
      simp [hoi]
    simp [hout j hji,h.expired,hji]

end Idle

end SwTmrs

end UniProton
