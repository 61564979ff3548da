import UniProton.Timer.WheelRun

namespace UniProton

open Framework Function List

namespace SwTmrs

variable (c : TmrCfg) (t : SwTmrs)

def expires (i : Nat) : Bool :=
  (t.cb i).state≠.free && (t.cb i).state≠.created && decide ((t.cb i).expectedTick≤t.uniTicks)

def ticklessExpire (i : Nat) : SwTmrs :=
  let s := slot t.cb i
  { t.modCb i fun s => {s with state:=.expired .default} with
    sortLink := update t.sortLink s ((t.sortLink s).erase i) }

def nextExpired (idx : Nat) : Option Nat :=
  (List.range c.maxNum).find? fun i => decide (idx ≤ i) && t.expires i

end SwTmrs

/-- The timers of a tickless build: `scanning` is the timer whose handler `OsSwTmrScan` has
called. -/
structure TicklessRun where
  tmrs : SwTmrs
  scanning : Option Nat

/-- Timer calls, ticks, jumps of the tick count, and the end of a handler. -/
inductive TicklessInput
  | create (p : TimerCreatePara)
  | start (i : Nat) | stop (i : Nat) | restart (i : Nat) | delete (i : Nat)
  | tick
  | countUpdate (ticks : Int)
  | handled
  deriving DecidableEq

namespace TicklessRun

variable (c : TmrCfg) (w : TicklessRun)

/-- The loop of `OsSwTmrScan` from `idx` up to the next handler or its end. -/
def scanFrom (t : SwTmrs) (idx : Nat) : TicklessRun :=
  match t.nextExpired c idx with
  | some i => ⟨t.ticklessExpire i,some i⟩
  | none => ⟨t,none⟩

/-- `g_uniTicks` after `PRT_TickCountUpdate` of a light sleep; it is refused below zero. -/
def countAfter (uniTicks : Nat) (ticks : Int) : Nat :=
  if (uniTicks : Int)+ticks<0 then uniTicks else ((uniTicks : Int)+ticks).toNat%2^64

def step : TicklessInput → TicklessRun
  | .create p => {w with tmrs:=(w.tmrs.prtTimerCreate c p).2.2}
  | .start i => {w with tmrs:=(w.tmrs.osSwTmrStartTimer c i).2}
  | .stop i => {w with tmrs:=(w.tmrs.osSwTmrStopTimer c i).2}
  | .restart i => {w with tmrs:=(w.tmrs.osSwTmrRestartTimer c i).2}
  | .delete i => {w with tmrs:=(w.tmrs.osSwTmrDeleteTimer c i).2}
  | .tick =>
    match w.scanning with
    | none => scanFrom c {w.tmrs with uniTicks:=(w.tmrs.uniTicks+1)%2^64} 0
    | some _ => w
  | .countUpdate ticks =>
    {w with tmrs:={w.tmrs with uniTicks:=countAfter w.tmrs.uniTicks ticks}}
  | .handled =>
    match w.scanning with
    | some i => scanFrom c (w.tmrs.osSwtmrProc c i) (i+1)
    | none => w

def machine : Machine TicklessRun TicklessInput where
  start w := w=⟨SwTmrs.init c,none⟩
  step := step c

end TicklessRun

namespace SwTmrs

variable {c : TmrCfg} {t : SwTmrs} {out : List Nat} {i j : Nat} {n : BitVec 32}

section Expire

variable (h : WheelOk c t out) (hr : (t.cb i).state=.running)

include h

lemma WheelOk.remain_ticklessExpire (hj : j≠i) : (t.ticklessExpire i).remain j≤t.remain j ∧
      (gap t.cb i=0 → (t.ticklessExpire i).remain j=t.remain j) := by
  have hslot : slot (t.ticklessExpire i).cb j=slot t.cb j := by simp [slot,ticklessExpire,modCb,hj]
  have hgap : gap (t.ticklessExpire i).cb=gap t.cb := by
    change gap (update _ _ _)=_
    rw [gap_update]
    exact update_eq_self i (gap t.cb)
  have hcursor : (t.ticklessExpire i).cursor=t.cursor := rfl
  unfold remain
  rw [hslot,hgap,hcursor]
  by_cases hsame : slot t.cb j=slot t.cb i
  . have hlist : (t.ticklessExpire i).sortLink (slot t.cb j)=(t.sortLink (slot t.cb j)).erase i := by
      simp [ticklessExpire,hsame]
    have hle := Delta.due_erase_le (g:=gap t.cb) (h.nodup (slot t.cb j)) hj
    rw [hlist]
    refine ⟨by omega,fun h0 => ?_⟩
    rw [Delta.due_erase_of_gap_zero (h.nodup _) hj h0]
  have hlist : (t.ticklessExpire i).sortLink (slot t.cb j)=t.sortLink (slot t.cb j) := by
    simp [ticklessExpire,hsame]
  rw [hlist]
  exact ⟨Nat.le_refl _,fun _ => rfl⟩

include hr

lemma WheelOk.ticklessExpire : WheelOk c (t.ticklessExpire i) (i::out) where
  linked k j := by
    have hold := h.linked k j
    by_cases hji : j=i
    . subst hji
      by_cases hk : k=slot t.cb j
      . simp [SwTmrs.ticklessExpire,modCb,hk,(h.nodup _).mem_erase_iff]
      have hnot : j∉t.sortLink k := fun hmem => hk ((h.linked k j).mp hmem).2.symm
      simp [SwTmrs.ticklessExpire,modCb,hk,hnot]
    by_cases hk : k=slot t.cb i
    . subst hk
      simpa [SwTmrs.ticklessExpire,modCb,hji,slot,(h.nodup _).mem_erase_iff] using hold
    have hlist : (t.ticklessExpire i).sortLink k=t.sortLink k := update_of_ne hk _ _
    rw [hlist]
    simpa [SwTmrs.ticklessExpire,modCb,hji,slot] using hold
  nodup k := by
    by_cases hk : k=slot t.cb i
    . subst hk
      simpa [SwTmrs.ticklessExpire] using (h.nodup _).erase i
    simpa [SwTmrs.ticklessExpire,hk] using h.nodup k
  cursor := h.cursor
  fits j hj := by
    have hji : j≠i := by
      rintro rfl
      simp [SwTmrs.ticklessExpire,modCb] at hj
    have hjr : (t.cb j).state=.running := by simpa [SwTmrs.ticklessExpire,modCb,hji] using hj
    exact Nat.lt_of_le_of_lt (h.remain_ticklessExpire hji).1 (h.fits j hjr)
  known j hj := by
    by_cases hji : j=i
    . exact hji ▸ h.known i (by simp [hr])
    exact h.known j (by simpa [SwTmrs.ticklessExpire,modCb,hji] using hj)
  timed j hj := by
    by_cases hji : j=i
    . subst hji
      simpa [SwTmrs.ticklessExpire,modCb] using h.timed j (by simp [hr])
    simpa [SwTmrs.ticklessExpire,modCb,hji] using
      h.timed j (by simpa [SwTmrs.ticklessExpire,modCb,hji] using hj)
  free j := by
    have hold := h.free j
    by_cases hji : j=i
    . subst hji
      simpa [SwTmrs.ticklessExpire,modCb,hr] using hold
    simpa [SwTmrs.ticklessExpire,modCb,hji] using hold
  freeNodup := h.freeNodup
  outNodup := nodup_cons.mpr ⟨h.notMem_out hr (by simp),h.outNodup⟩
  expired j := by
    have hold := h.expired j
    by_cases hji : j=i
    . subst hji
      simp [SwTmrs.ticklessExpire,modCb]
    simpa [SwTmrs.ticklessExpire,modCb,hji] using hold

end Expire

section Clock

/-- The other deadlines stay, and a timer that is started gets that of its count. -/
structure Clocked (t : SwTmrs) (i : Nat) (t' : SwTmrs) : Prop where
  ticks : t'.uniTicks=t.uniTicks
  others : ∀ j, j≠i → (t'.cb j).expectedTick=(t.cb j).expectedTick
  self : ∀ n, (t'.view i).phase=.running n →
    (t.view i).phase=.running n ∧ (t'.cb i).expectedTick=(t.cb i).expectedTick ∨
      (t'.cb i).expectedTick=(n+t.uniTicks)%2^64

lemma Clocked.refl : Clocked t i t := ⟨rfl,fun _ _ => rfl,fun _ hn => .inl ⟨hn,rfl⟩⟩

lemma Clocked.of_idle {s : SwTmrCtrl} {f : List Nat} (hs : s.state≠.running) :
    Clocked t i {t with cb:=update t.cb i s, freeList:=f} where
  ticks := rfl
  others j hj := by simp [hj]
  self n hn := by
    unfold view at hn
    split at hn
    all_goals simp_all

lemma Clocked.trans {t1 t2 : SwTmrs} (h1 : Clocked t i t1) (h2 : Clocked t1 i t2) :
    Clocked t i t2 where
  ticks := h2.ticks.trans h1.ticks
  others j hj := (h2.others j hj).trans (h1.others j hj)
  self n hn := by
    rcases h2.self n hn with ⟨hrun,heq⟩ | heq
    . rcases h1.self n hrun with ⟨hrun',heq'⟩ | heq'
      . exact .inl ⟨hrun',heq.trans heq'⟩
      exact .inr (heq.trans heq')
    exact .inr (h1.ticks ▸ heq)

variable (hc : c.tickless=true) (h : WheelOk c t out)

include hc

lemma expectedTick_start (j : Nat) : ((t.osSwTmrStart c i n).cb j).expectedTick =
      if j=i then (n.toNat+t.uniTicks)%2^64 else (t.cb j).expectedTick := by
  obtain ⟨v,hv,-⟩ := link_same (t:=t) (i:=i) (j:=j) (s:=startCb c t i n)
  rw [osSwTmrStart_eq,hv]
  by_cases hj : j=i
  . subst hj
    simp [startCb,hc]
  simp [hj]

include h

lemma WheelOk.clockedStart (hi : (t.cb i).state≠.running) (hn : 0<n.toNat) :
    Clocked t i (t.osSwTmrStart c i n) where
  ticks := by
    rw [osSwTmrStart_eq]
    rfl
  others j hj := by rw [expectedTick_start hc,if_neg hj]
  self m hm := by
    rw [h.view_start hi hn,update_self] at hm
    cases hm
    exact .inr (by rw [expectedTick_start hc,if_pos rfl])

omit hc

lemma WheelOk.expectedTick_stop (b : Bool) (j : Nat) :
    ((t.osSwTmrStop i b).cb j).expectedTick=(t.cb j).expectedTick := by
  rw [osSwTmrStop_eq]
  by_cases hj : j=i
  . rw [hj,h.unlink_cb_self]
  obtain ⟨v,hv,-⟩ := h.unlink_cb_of_ne hj (v:=if b then ((t.rollToNext i).cb i).idxRollNum
    else (t.rollToNext i).osSwTmrGetRemainTick i)
  rw [hv]

lemma WheelOk.clockedStop (hr : (t.cb i).state=.running) (b : Bool) :
    Clocked t i (t.osSwTmrStop i b) where
  ticks := by
    rw [osSwTmrStop_eq]
    change (t.rollToNext i).uniTicks=t.uniTicks
    unfold rollToNext
    cases Delta.after _ i <;> rfl
  others j _ := h.expectedTick_stop b j
  self n hn := by
    rw [osSwTmrStop_eq,h.view_unlink hr,update_self] at hn
    cases hn

include hc

lemma WheelOk.clockedTouchStart {s : SwTmrCtrl} (hi : (t.cb i).state≠.running)
    (hst : s.state=(t.cb i).state) (hiv : s.interval=(t.cb i).interval)
    (hnf : (t.cb i).state≠.free) (hn : 0<n.toNat) :
    Clocked t i ({t with cb:=update t.cb i s}.osSwTmrStart c i n) := by
  have hsi : (update t.cb i s i).state=(t.cb i).state := by simp [hst]
  have hidle : Clocked t i {t with cb:=update t.cb i s} :=
    Clocked.of_idle (f:=t.freeList) (hst ▸ hi)
  exact hidle.trans ((h.touch hi hst hiv hnf).clockedStart hc (hsi ▸ hi) hn)

lemma WheelOk.clockedStartTimer : Clocked t i (t.osSwTmrStartTimer c i).2 := by
  unfold osSwTmrStartTimer
  split
  . exact Clocked.refl
  cases hst : (t.cb i).state with
  | free | running => exact Clocked.refl
  | expired pre => exact Clocked.of_idle (f:=t.freeList) (by simp)
  | created =>
    have hnf : (t.cb i).state≠.free := by simp [hst]
    have hpos := h.interval_pos hnf
    have hn : 0<(startCount (t.cb i)).toNat := by
      rw [toNat_startCount]
      split <;> omega
    exact h.clockedTouchStart hc (by simp [hst]) rfl rfl hnf hn

omit hc in
lemma WheelOk.clockedStopTimer : Clocked t i (t.osSwTmrStopTimer c i).2 := by
  unfold osSwTmrStopTimer
  split
  . exact Clocked.refl
  cases hst : (t.cb i).state with
  | free | created => exact Clocked.refl
  | expired pre => exact Clocked.of_idle (f:=t.freeList) (by simp)
  | running => exact h.clockedStop hst false

lemma WheelOk.clockedRestartTimer : Clocked t i (t.osSwTmrRestartTimer c i).2 := by
  unfold osSwTmrRestartTimer
  split
  . exact Clocked.refl
  cases hst : (t.cb i).state with
  | free => exact Clocked.refl
  | expired pre => exact Clocked.of_idle (f:=t.freeList) (by simp)
  | created =>
    have hnf : (t.cb i).state≠.free := by simp [hst]
    exact h.clockedStart hc (by simp [hst]) (h.interval_pos hnf)
  | running =>
    have hnf : (t.cb i).state≠.free := by simp [hst]
    obtain ⟨left,hoff,hcr⟩ := h.movedOff hst
    exact (h.clockedStop hst true).trans
      (hoff.ok.clockedStart hc (by simp [hcr]) (h.interval_pos hnf))

omit hc in
lemma WheelOk.clockedDeleteTimer : Clocked t i (t.osSwTmrDeleteTimer c i).2 := by
  unfold osSwTmrDeleteTimer
  split
  . exact Clocked.refl
  cases hst : (t.cb i).state with
  | free => exact Clocked.refl
  | expired pre => exact Clocked.of_idle (f:=t.freeList) (by simp)
  | created => exact Clocked.of_idle (f:=i::t.freeList) (by simp)
  | running => exact (h.clockedStop hst true).trans (Clocked.of_idle (f:=i::_) (by simp))

lemma WheelOk.clockedProc {pre : TmrPre} (hst : (t.cb i).state=.expired pre) :
    Clocked t i (t.osSwtmrProc c i) := by
  have hi : (t.cb i).state≠.running := by simp [hst]
  have hnf : (t.cb i).state≠.free := by simp [hst]
  unfold osSwtmrProc
  rw [hst]
  cases pre with
  | preRunning => exact h.clockedStart hc hi (h.interval_pos hnf)
  | preCreated => exact Clocked.of_idle (f:=t.freeList) (by simp)
  | preFree => exact Clocked.of_idle (f:=i::t.freeList) (by simp)
  | default =>
    cases hm : (t.cb i).mode with
    | loop => exact h.clockedTouchStart hc hi rfl rfl hnf (h.interval_pos hnf)
    | once => exact Clocked.of_idle (f:=t.freeList) (by simp)

end Clock

end SwTmrs

namespace TicklessRun

variable {c : TmrCfg} {w : TicklessRun} {x : TicklessInput} {i : Nat}

/-- The wheel is in order, and the time left of every running timer is the distance of its
deadline, if that is still to come. -/
structure RunOk (c : TmrCfg) (w : TicklessRun) : Prop where
  wheel : w.tmrs.WheelOk c w.scanning.toList
  ticks : w.tmrs.uniTicks<2^64
  left : ∀ i n, (w.tmrs.view i).phase=.running n →
    w.tmrs.uniTicks<(w.tmrs.cb i).expectedTick → (w.tmrs.cb i).expectedTick=w.tmrs.uniTicks+n

/-- The tick count never moves past the deadline of a running timer, and a timer still to be expired
behind a handler has no rounds left. -/
def Steady (w : TicklessRun) : TicklessInput → Prop
  | .tick => ∀ i, (w.tmrs.cb i).state=.running →
      (w.tmrs.cb i).expectedTick≤(w.tmrs.uniTicks+1)%2^64
  | .countUpdate ticks => countAfter w.tmrs.uniTicks ticks=w.tmrs.uniTicks ∨
      ∀ i, (w.tmrs.cb i).state=.running →
        (w.tmrs.cb i).expectedTick≤countAfter w.tmrs.uniTicks ticks
  | .handled => ∀ i, (w.tmrs.cb i).state=.running →
      (w.tmrs.cb i).expectedTick≤w.tmrs.uniTicks → SwTmrs.gap w.tmrs.cb i=0
  | _ => True

lemma RunOk.steady_tick {c : TmrCfg} {w : TicklessRun} (h : RunOk c w)
    (hp : ∀ i<c.maxNum, (w.tmrs.cb i).state=.running →
      (w.tmrs.cb i).expectedTick≤(w.tmrs.uniTicks+1)%2^64) : w.Steady .tick :=
  fun i hr => hp i (h.wheel.known i (by simp [hr])) hr

lemma RunOk.steady_handled {c : TmrCfg} {w : TicklessRun} (h : RunOk c w)
    (hp : ∀ i<c.maxNum, (w.tmrs.cb i).state=.running →
      (w.tmrs.cb i).expectedTick≤w.tmrs.uniTicks → SwTmrs.gap w.tmrs.cb i=0) :
    w.Steady .handled :=
  fun i hr => hp i (h.wheel.known i (by simp [hr])) hr

lemma deadline_of_lt {n u : Nat} (hn : n<2^32) (hu : u<2^64) (h : u<(n+u)%2^64) :
    (n+u)%2^64=u+n := by
  omega

lemma left_of_clocked (h : RunOk c w) {k : Countdown} {t' : SwTmrs} {out' : List Nat}
    (hm : SwTmrs.Moved c w.tmrs i k t' out') (hclk : SwTmrs.Clocked w.tmrs i t') (j n : Nat)
    (hn : (t'.view j).phase=.running n) (hlt : t'.uniTicks<(t'.cb j).expectedTick) :
    (t'.cb j).expectedTick=t'.uniTicks+n := by
  rw [hclk.ticks] at hlt ⊢
  by_cases hj : j=i
  . subst hj
    rcases hclk.self n hn with ⟨hrun,heq⟩ | heq
    . rw [heq] at hlt ⊢
      exact h.left j n hrun hlt
    have hfit := SwTmrs.phase_running hn
    rw [heq] at hlt ⊢
    exact deadline_of_lt (hfit.2 ▸ hm.ok.fits j hfit.1) h.ticks hlt
  rw [hclk.others j hj] at hlt ⊢
  rw [hm.view,update_of_ne hj] at hn
  exact h.left j n hn hlt

lemma RunOk.moved (h : RunOk c w) {k : Countdown} {t' : SwTmrs}
    (hm : SwTmrs.Moved c w.tmrs i k t' w.scanning.toList) (hclk : SwTmrs.Clocked w.tmrs i t') :
    RunOk c {w with tmrs:=t'} where
  wheel := hm.ok
  ticks := by
    rw [hclk.ticks]
    exact h.ticks
  left := left_of_clocked h hm hclk

lemma RunOk.scanFrom {t : SwTmrs} {idx : Nat} (hw : t.WheelOk c []) (hu : t.uniTicks<2^64)
    (hleft : ∀ i n, (t.view i).phase=.running n → t.uniTicks<(t.cb i).expectedTick →
      (t.cb i).expectedTick=t.uniTicks+n)
    (hrolls : ∀ i, idx ≤ i → (t.cb i).state=.running → (t.cb i).expectedTick≤t.uniTicks →
      SwTmrs.gap t.cb i=0 ∨ ∀ j, (t.cb j).state=.running → (t.cb j).expectedTick≤t.uniTicks) :
    RunOk c (scanFrom c t idx) := by
  unfold TicklessRun.scanFrom
  cases hnext : t.nextExpired c idx with
  | none => exact ⟨hw,hu,hleft⟩
  | some i =>
    have hexp := List.find?_some hnext
    simp only [Bool.and_eq_true,decide_eq_true_eq] at hexp
    have hst : (t.cb i).state=.running ∧ (t.cb i).expectedTick≤t.uniTicks := by
      have hno := hw.expired i
      have hexp' := hexp.2
      unfold SwTmrs.expires at hexp'
      cases hst : (t.cb i).state <;> simp_all
    refine ⟨hw.ticklessExpire hst.1,hu,fun j n hn hlt => ?_⟩
    obtain ⟨hrun,hrem⟩ := SwTmrs.phase_running hn
    have hji : j≠i := by
      rintro rfl
      simp [SwTmrs.ticklessExpire,SwTmrs.modCb] at hrun
    have hcb : (t.ticklessExpire i).cb j=t.cb j := update_of_ne hji _ _
    rw [hcb] at hlt hrun ⊢
    rcases hrolls i hexp.1 hst.1 hst.2 with h0 | hall
    . refine hleft j n ?_ hlt
      rw [← hrem,(hw.remain_ticklessExpire hji).2 h0]
      simp [SwTmrs.view,hrun]
    exact absurd (hall j hrun) (Nat.not_le.mpr hlt)

lemma gap_proc_le {t : SwTmrs} {j : Nat} (hj : j≠i) :
    SwTmrs.gap (t.osSwtmrProc c i).cb j≤SwTmrs.gap t.cb j := by
  have hlink (u : SwTmrs) (n : BitVec 32) (hu : u.cb j=t.cb j) :
      SwTmrs.gap (u.osSwTmrStart c i n).cb j≤SwTmrs.gap t.cb j := by
    rw [SwTmrs.osSwTmrStart_eq]
    have hle := Delta.place_gap_le (l:=u.sortLink (SwTmrs.slot (update u.cb i
      (SwTmrs.startCb c u i n)) i)) (g:=SwTmrs.gap (update u.cb i (SwTmrs.startCb c u i n))) hj
    rw [← SwTmrs.sortLinkInsert_place.1] at hle
    refine Nat.le_trans hle (Nat.le_of_eq ?_)
    simp [SwTmrs.gap,hj,hu]
  unfold SwTmrs.osSwtmrProc
  split
  . exact hlink t _ rfl
  . simp [SwTmrs.gap,SwTmrs.modCb,hj]
  . simp [SwTmrs.gap,SwTmrs.osSwTmrDelete,SwTmrs.modCb,hj]
  split
  . exact hlink _ _ (update_of_ne hj _ _)
  simp [SwTmrs.gap,SwTmrs.modCb,hj]

lemma RunOk.step (hc : c.tickless=true) (h : RunOk c w) (hx : Steady w x) :
    RunOk c (w.step c x) := by
  cases x with
  | create p =>
    unfold TicklessRun.step
    rcases SwTmrs.prtTimerCreate_cases (c:=c) (t:=w.tmrs) p with
      ⟨i,l,mode,f,hl,h0,hchk,-,heq⟩ | ⟨-,heq⟩
    . simp only [heq]
      have hn := SwTmrs.ticks_ne_zero h0 hchk
      exact h.moved (h.wheel.movedCreate hl hn) (SwTmrs.Clocked.of_idle (by simp))
    simp only [heq]
    exact h
  | start i => exact h.moved h.wheel.startTimer (h.wheel.clockedStartTimer hc)
  | stop i => exact h.moved h.wheel.stopTimer h.wheel.clockedStopTimer
  | restart i => exact h.moved h.wheel.restartTimer (h.wheel.clockedRestartTimer hc)
  | delete i => exact h.moved h.wheel.deleteTimer h.wheel.clockedDeleteTimer
  | tick =>
    cases hscan : w.scanning with
    | some i =>
      have hsame : w.step c .tick=w := by simp [TicklessRun.step,hscan]
      rw [hsame]
      exact h
    | none =>
      have hstep : w.step c .tick=TicklessRun.scanFrom c
          {w.tmrs with uniTicks:=(w.tmrs.uniTicks+1)%2^64} 0 := by
        simp [TicklessRun.step,hscan]
      have hwheel : w.tmrs.WheelOk c [] := by simpa [hscan] using h.wheel
      rw [hstep]
      refine RunOk.scanFrom {hwheel with} (Nat.mod_lt _ (by decide)) ?_ ?_
      . intro i n hn hlt
        exact absurd (hx i (SwTmrs.phase_running hn).1) (Nat.not_le.mpr hlt)
      exact fun i _ _ _ => .inr hx
  | countUpdate ticks =>
    refine ⟨{h.wheel with},?_,?_⟩
    . have hu := h.ticks
      change countAfter w.tmrs.uniTicks ticks<2^64
      unfold countAfter
      split
      . exact hu
      exact Nat.mod_lt _ (by decide)
    intro i n hn hlt
    rcases hx with hsame | hall
    . change countAfter w.tmrs.uniTicks ticks<_ at hlt
      change _=countAfter w.tmrs.uniTicks ticks+n
      rw [hsame] at hlt ⊢
      exact h.left i n hn hlt
    exact absurd (hall i (SwTmrs.phase_running hn).1) (Nat.not_le.mpr hlt)
  | handled =>
    cases hscan : w.scanning with
    | none =>
      have hsame : w.step c .handled=w := by simp [TicklessRun.step,hscan]
      rw [hsame]
      exact h
    | some i =>
      have hstep : w.step c .handled=TicklessRun.scanFrom c (w.tmrs.osSwtmrProc c i) (i+1) := by
        simp [TicklessRun.step,hscan]
      have hwheel : w.tmrs.WheelOk c [i] := by simpa [hscan] using h.wheel
      obtain ⟨pre,hpre⟩ := (hwheel.expired i).mp mem_cons_self
      have hm := hwheel.proc hpre
      have hclk := hwheel.clockedProc hc hpre
      rw [erase_cons_head] at hm
      rw [hstep]
      apply RunOk.scanFrom hm.ok (hclk.ticks ▸ h.ticks) (left_of_clocked h hm hclk)
      intro j hij hrun hle
      left
      have hji : j≠i := by omega
      have hview : (w.tmrs.osSwtmrProc c i).view j=w.tmrs.view j := by
        rw [hm.view,update_of_ne hji]
      rw [hclk.others j hji,hclk.ticks] at hle
      have hrun' : (w.tmrs.cb j).state=.running := by
        have hphase : (w.tmrs.view j).phase=.running ((w.tmrs.osSwtmrProc c i).remain j) := by
          rw [← hview]
          simp [SwTmrs.view,hrun]
        exact (SwTmrs.phase_running hphase).1
      have h0 := hx j hrun' hle
      have hgap := gap_proc_le (c:=c) (t:=w.tmrs) hji
      omega

lemma runOk_of_reaches (hc : c.tickless=true) (hw : (machine c).Reaches Steady w) : RunOk c w := by
  refine hw.invariant (fun s hs => ?_) fun _ x h hx => h.step hc hx
  have hstart := (WheelRun.RunOk.start (c:=c)).wheel
  rw [hs]
  refine ⟨hstart,by simp [SwTmrs.init],fun i n hn _ => ?_⟩
  have hrun := (SwTmrs.phase_running hn).1
  simp [SwTmrs.init] at hrun

def Rests (i : Nat) : TicklessInput → Prop
  | .start j | .restart j | .delete j => j≠i
  | _ => True

instance (i : Nat) (x : TicklessInput) : Decidable (Rests i x) := by
  cases x <;> unfold Rests <;> infer_instance

lemma view_scanFrom {t : SwTmrs} {idx r : Nat} (hcr : (t.view i).phase=.created r) :
    ((scanFrom c t idx).tmrs.view i).phase=.created r := by
  have hst := SwTmrs.phase_created hcr
  unfold TicklessRun.scanFrom
  cases hnext : t.nextExpired c idx with
  | none => exact hcr
  | some j =>
    have hexp := List.find?_some hnext
    have hij : i≠j := by
      rintro rfl
      simp [SwTmrs.expires,hst] at hexp
    have hcb : (t.ticklessExpire j).cb i=t.cb i := update_of_ne hij _ _
    rw [← hcr]
    simp [SwTmrs.view,hcb,hst]

lemma RunOk.created_step (h : RunOk c w) {r : Nat}
    (hcr : (w.tmrs.view i).phase=.created r) (hk : Rests i x) :
    ((w.step c x).tmrs.view i).phase=.created r := by
  have other {j : Nat} {k : Countdown} {t' : SwTmrs} {out' : List Nat}
      (hm : SwTmrs.Moved c w.tmrs j k t' out') (hj : j≠i) :
      (t'.view i).phase=.created r := by
    rw [hm.view,update_of_ne (Ne.symm hj)]
    exact hcr
  cases x with
  | create p =>
    unfold TicklessRun.step
    rcases SwTmrs.prtTimerCreate_cases (c:=c) (t:=w.tmrs) p with
      ⟨j,l,mode,f,hl,h0,hchk,-,heq⟩ | ⟨-,heq⟩
    . simp only [heq]
      have hn := SwTmrs.ticks_ne_zero h0 hchk
      apply other (h.wheel.movedCreate hl hn)
      rintro rfl
      obtain ⟨hst,-⟩ := (h.wheel.free j).mp (hl ▸ mem_cons_self)
      simp [SwTmrs.view,hst] at hcr
    simp only [heq]
    exact hcr
  | start j => exact other h.wheel.startTimer hk
  | stop j =>
    by_cases hj : j=i
    . subst hj
      have hm := h.wheel.stopTimer (i:=j)
      change ((w.tmrs.osSwTmrStopTimer c j).2.view j).phase=_
      rw [hm.view,update_self]
      simp [Countdown.stop,hcr]
    exact other h.wheel.stopTimer hj
  | restart j => exact other h.wheel.restartTimer hk
  | delete j => exact other h.wheel.deleteTimer hk
  | tick =>
    unfold TicklessRun.step
    cases w.scanning with
    | some j => exact hcr
    | none => exact view_scanFrom hcr
  | countUpdate ticks => exact hcr
  | handled =>
    cases hscan : w.scanning with
    | none =>
      have hsame : w.step c .handled=w := by simp [TicklessRun.step,hscan]
      rw [hsame]
      exact hcr
    | some j =>
      have hstep : w.step c .handled=TicklessRun.scanFrom c (w.tmrs.osSwtmrProc c j) (j+1) := by
        simp [TicklessRun.step,hscan]
      have hwheel : w.tmrs.WheelOk c [j] := by simpa [hscan] using h.wheel
      obtain ⟨pre,hpre⟩ := (hwheel.expired j).mp mem_cons_self
      rw [hstep]
      refine view_scanFrom (other (hwheel.proc hpre) ?_)
      rintro rfl
      simp [SwTmrs.view,hpre] at hcr

lemma RunOk.created_run (hc : c.tickless=true) (h : RunOk c w) {r : Nat}
    (hcr : (w.tmrs.view i).phase=.created r) (js : List TicklessInput)
    (hok : (machine c).Allowed Steady w js) (hk : ∀ x∈js, Rests i x) :
    RunOk c ((machine c).run w js) ∧ (((machine c).run w js).tmrs.view i).phase=.created r := by
  induction js generalizing w with
  | nil => exact ⟨h,hcr⟩
  | cons x js ih =>
    exact ih (h.step hc hok.1) (h.created_step hcr (hk x mem_cons_self)) hok.2
      fun y hy => hk y (mem_cons_of_mem x hy)

/-- In every run whose steps are steady the time left of a running timer is the distance of its
deadline, and a timer that is stopped and started again gets that distance. -/
theorem tickless_remain (hc : c.tickless=true) (hw : (machine c).Reaches Steady w)
    (hr : (w.tmrs.cb i).state=.running) (hlt : w.tmrs.uniTicks<(w.tmrs.cb i).expectedTick) :
    (w.tmrs.osSwTmrGetRemainTick i).toNat=(w.tmrs.cb i).expectedTick-w.tmrs.uniTicks ∧
    ∀ js : List TicklessInput, (machine c).Allowed Steady (w.step c (.stop i)) js →
      (∀ x∈js, Rests i x) →
      ((((machine c).run w (.stop i::js)).step c (.start i)).tmrs.cb i).state=.running ∧
      ((((machine c).run w (.stop i::js)).step c (.start i)).tmrs.cb i).expectedTick =
        ((w.tmrs.cb i).expectedTick-w.tmrs.uniTicks +
          ((machine c).run w (.stop i::js)).tmrs.uniTicks)%2^64 := by
  have h := runOk_of_reaches hc hw
  have hphase : (w.tmrs.view i).phase=.running (w.tmrs.remain i) := by simp [SwTmrs.view,hr]
  have hleft := h.left i _ hphase hlt
  have hrem : w.tmrs.remain i=(w.tmrs.cb i).expectedTick-w.tmrs.uniTicks := by omega
  constructor
  . unfold SwTmrs.osSwTmrGetRemainTick
    rw [hr]
    exact (h.wheel.toNat_osSwTmrGetRemain hr).trans hrem
  intro js hok hk
  have hstop : ((w.step c (.stop i)).tmrs.view i).phase=.created (w.tmrs.remain i) := by
    have hm := h.wheel.stopTimer (i:=i)
    change ((w.tmrs.osSwTmrStopTimer c i).2.view i).phase=_
    rw [hm.view,update_self]
    simp [Countdown.stop,hphase]
  obtain ⟨h1,hcr⟩ := (h.step hc (x:=.stop i) trivial).created_run hc hstop js hok hk
  change RunOk c ((machine c).run w (.stop i::js)) at h1
  change (((machine c).run w (.stop i::js)).tmrs.view i).phase=_ at hcr
  generalize (machine c).run w (.stop i::js)=w1 at h1 hcr ⊢
  have hrun : ((w1.step c (.start i)).tmrs.view i).phase=.running (w.tmrs.remain i) := by
    have hm := h1.wheel.startTimer (i:=i)
    change ((w1.tmrs.osSwTmrStartTimer c i).2.view i).phase=_
    rw [hm.view,update_self]
    have hpos : w.tmrs.remain i≠0 := by omega
    simp [Countdown.start,hcr,hpos]
  refine ⟨(SwTmrs.phase_running hrun).1,?_⟩
  rcases (h1.wheel.clockedStartTimer hc (i:=i)).self _ hrun with ⟨hbad,-⟩ | heq
  . rw [hcr] at hbad
    cases hbad
  rw [← hrem]
  exact heq

def oneTimer : TmrCfg := ⟨1,1000,TmrCfg.pos_thousand,true⟩

def tenTicks : TimerCreatePara := ⟨some .once,10,0,some (.user 1),0,0,0,0⟩

def started : TicklessRun :=
  (machine oneTimer).run ⟨SwTmrs.init oneTimer,none⟩ [.create tenTicks,.start 0]

def pair : TmrCfg := ⟨2,1000,TmrCfg.pos_thousand,true⟩

def oneTick : TimerCreatePara := ⟨some .once,1,0,some (.user 2),0,0,0,0⟩

-- Only timer 1 runs while the tick count moves.
def elapsed : TicklessRun :=
  (machine pair).run ⟨SwTmrs.init pair,none⟩
    [.create tenTicks,.create oneTick,.start 1,.tick,.handled,.start 0]

lemma elapsed_reaches : (machine pair).Reaches Steady elapsed := by
  have h3 : (machine pair).Reaches Steady ((machine pair).run ⟨SwTmrs.init pair,none⟩
      [.create tenTicks,.create oneTick,.start 1]) :=
    (Machine.Reaches.start rfl).run _ ⟨trivial,trivial,trivial,trivial⟩
  have h4 := h3.step ((runOk_of_reaches rfl h3).steady_tick (by decide +kernel))
  have h5 := h4.step ((runOk_of_reaches rfl h4).steady_handled (by decide +kernel))
  exact h5.step (show Steady _ (.start 0) from trivial)

lemma elapsed_allowed :
    (machine pair).Allowed Steady (elapsed.step pair (.stop 0)) [.start 1,.tick,.handled] := by
  have h1 := elapsed_reaches.step (show Steady _ (.stop 0) from trivial)
  have h2 := h1.step (show Steady _ (.start 1) from trivial)
  have htick := (runOk_of_reaches rfl h2).steady_tick (by decide +kernel)
  have h3 := h2.step htick
  exact ⟨trivial,htick,(runOk_of_reaches rfl h3).steady_handled (by decide +kernel),trivial⟩

theorem tickless_remain_elapsed :
    let w := (machine pair).run elapsed [.stop 0,.start 1,.tick,.handled]
    (elapsed.tmrs.osSwTmrGetRemainTick 0).toNat=10 ∧ elapsed.tmrs.uniTicks=1 ∧
      w.tmrs.uniTicks=2 ∧ ((w.step pair (.start 0)).tmrs.cb 0).expectedTick=12 := by
  obtain ⟨hrem,hagain⟩ := tickless_remain rfl elapsed_reaches
    (by decide +kernel : (elapsed.tmrs.cb 0).state=.running) (by decide +kernel)
  have hstart := (hagain [.start 1,.tick,.handled] elapsed_allowed (by decide)).2
  refine ⟨hrem.trans (by decide +kernel),by decide +kernel,by decide +kernel,?_⟩
  exact hstart.trans (by decide +kernel)

/-- One of the ten ticks has passed: nine are left, and ten are reported and saved by a stop. -/
theorem tickless_remain_stale : ((started.step oneTimer .tick).tmrs.cb 0).state=.running ∧
    ((started.step oneTimer .tick).tmrs.cb 0).expectedTick -
      (started.step oneTimer .tick).tmrs.uniTicks=9 ∧
    ((started.step oneTimer .tick).tmrs.osSwTmrGetRemainTick 0).toNat=10 ∧
    ((((started.step oneTimer .tick).step oneTimer (.stop 0)).step oneTimer
      (.start 0)).tmrs.cb 0).expectedTick=11 := by
  decide +kernel

end TicklessRun

end UniProton
