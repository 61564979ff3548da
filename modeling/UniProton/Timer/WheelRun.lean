import UniProton.Framework.Run
import UniProton.Timer.WheelSteps

namespace UniProton

open Framework Function List SwTmrs

namespace SwTmrs

/-- A call leaves the wheel in order, and only timer `i` looks different: as `k`. -/
structure Moved (c : TmrCfg) (t : SwTmrs) (i : Nat) (k : Countdown) (t' : SwTmrs)
    (out' : List Nat) : Prop where
  ok : WheelOk c t' out'
  view : t'.view=update t.view i k

variable {c : TmrCfg} {t : SwTmrs} {out : List Nat} {i : Nat} {p : TimerCreatePara}

lemma Moved.of_eq {k k' : Countdown} {t' : SwTmrs} (h : Moved c t i k t' out) (hk : k'=k) :
    Moved c t i k' t' out := by
  rw [hk]
  exact h

lemma WheelOk.unmoved (h : WheelOk c t out) {k : Countdown} (hk : k=t.view i) :
    Moved c t i k t out := by
  rw [hk]
  exact ⟨h,(update_eq_self i t.view).symm⟩

section Moves

variable (h : WheelOk c t out)

include h

lemma WheelOk.notMem_out {st : TmrState} (hst : (t.cb i).state=st)
    (hne : ∀ pre, st≠.expired pre) : i∉out := by
  intro hi
  obtain ⟨pre,hpre⟩ := (h.expired i).mp hi
  exact hne pre (hst ▸ hpre)

lemma WheelOk.erase_out {st : TmrState} (hst : (t.cb i).state=st)
    (hne : ∀ pre, st≠.expired pre) : out.erase i=out :=
  erase_of_not_mem (h.notMem_out hst hne)

lemma WheelOk.mem_erase {j : Nat} (hj : j≠i) : j∈out.erase i ↔ j∈out := by
  simp [h.outNodup.mem_erase_iff,hj]

variable {pre : TmrPre} {n : BitVec 32}

lemma WheelOk.movedPre {pre' : TmrPre} (hst : (t.cb i).state=.expired pre) :
    Moved c t i {t.view i with phase:=.expired pre'}
      (t.modCb i fun s => {s with state:=.expired pre'}) out := by
  have hi : (t.cb i).state≠.running := by simp [hst]
  have hnf : (t.cb i).state≠.free := by simp [hst]
  constructor
  . exact h.idle hi (by simp) (h.known i hnf) (fun _ => h.timed i hnf) (fun _ _ => Iff.rfl)
      (by simp [h.free,hst]) h.freeNodup (fun _ _ => Iff.rfl) (by simp [h.expired,hst]) h.outNodup
  exact h.view_idle hi (by simp)

lemma WheelOk.movedStart (hi : (t.cb i).state≠.running)
    (hnf : (t.cb i).state≠.free) (hn : 0<n.toNat) :
    Moved c t i {t.view i with phase:=.running n.toNat} (t.osSwTmrStart c i n) (out.erase i) :=
  ⟨h.start hi hn hnf,h.view_start hi hn⟩

lemma WheelOk.movedStop (hr : (t.cb i).state=.running) :
    Moved c t i {t.view i with phase:=.created (t.remain i)} (t.osSwTmrStop i false) out := by
  rw [osSwTmrStop_eq]
  refine ⟨h.unlink hr,?_⟩
  rw [h.view_unlink hr]
  simp [h.toNat_remainTick_rollToNext hr]

lemma WheelOk.movedFree (hi : (t.cb i).state≠.running) (hnf : (t.cb i).state≠.free) :
    Moved c t i {t.view i with phase:=.free} (t.osSwTmrDelete i) (out.erase i) := by
  constructor
  . refine h.idle hi (by simp) (h.known i hnf) (by simp) (fun j hj => by simp [hj]) (by simp) ?_
      (fun j hj => h.mem_erase hj) (by simp [h.outNodup.mem_erase_iff]) (h.outNodup.erase i)
    refine nodup_cons.mpr ⟨?_,h.freeNodup⟩
    rw [h.free]
    exact fun hf => hnf hf.1
  exact h.view_idle hi (by simp)

lemma WheelOk.movedSettle (hst : (t.cb i).state=.expired pre) :
    Moved c t i {t.view i with phase:=.created 0}
      (t.modCb i fun s => {s with idxRollNum:=0, overrun:=0, state:=.created})
      (out.erase i) := by
  have hi : (t.cb i).state≠.running := by simp [hst]
  have hnf : (t.cb i).state≠.free := by simp [hst]
  constructor
  . exact h.idle hi (by simp) (h.known i hnf) (fun _ => h.timed i hnf) (fun _ _ => Iff.rfl)
      (by simp [h.free,hst]) h.freeNodup (fun j hj => h.mem_erase hj)
      (by simp [h.outNodup.mem_erase_iff]) (h.outNodup.erase i)
  exact h.view_idle hi (by simp)

lemma WheelOk.movedCreate {l : List Nat} {m : TmrMode}
    {f : TmrProcFunc} (hl : t.freeList=i::l) (hn : n≠0) :
    Moved c t i ⟨.created n.toNat,m,n.toNat,f,p.arg1⟩
      ({t with freeList:=l}.osSwTmrCreateTimerCbInit i p m f n) out := by
  obtain ⟨hst,hk⟩ := (h.free i).mp (hl ▸ mem_cons_self)
  have hi : (t.cb i).state≠.running := by simp [hst]
  obtain ⟨hnot,hnd⟩ := nodup_cons.mp (hl ▸ h.freeNodup)
  constructor
  . exact h.idle hi (by simp) hk (fun _ => hn) (fun j hj => by simp [hl,hj]) (by simp [hnot]) hnd
      (fun _ _ => Iff.rfl) (by simp [h.expired,hst]) h.outNodup
  exact h.view_idle hi (by simp)

lemma WheelOk.free_of_le (hi : c.maxNum ≤ i) : (t.cb i).state=.free := by
  by_contra hne
  exact absurd (h.known i hne) (Nat.not_lt.mpr hi)

lemma WheelOk.interval_pos (hnf : (t.cb i).state≠.free) : 0<(t.cb i).interval.toNat := by
  rcases Nat.eq_zero_or_pos (t.cb i).interval.toNat with h0 | hpos
  . exact absurd (BitVec.eq_of_toNat_eq h0) (h.timed i hnf)
  exact hpos

lemma WheelOk.touch {s : SwTmrCtrl} (hi : (t.cb i).state≠.running)
    (hst : s.state=(t.cb i).state) (hiv : s.interval=(t.cb i).interval)
    (hnf : (t.cb i).state≠.free) : WheelOk c {t with cb:=update t.cb i s} out := by
  exact h.idle (f:=t.freeList) hi (hst ▸ hi) (h.known i hnf) (fun _ => hiv ▸ h.timed i hnf)
    (fun _ _ => Iff.rfl) (by simp [h.free,hst,hnf]) h.freeNodup (fun _ _ => Iff.rfl)
    (by simp [h.expired,hst]) h.outNodup

lemma WheelOk.movedTouchStart {s : SwTmrCtrl} (hi : (t.cb i).state≠.running)
    (hst : s.state=(t.cb i).state) (hiv : s.interval=(t.cb i).interval)
    (hm : s.mode=(t.cb i).mode) (hh : s.handler=(t.cb i).handler)
    (ha : s.arg1=(t.cb i).arg1) (hnf : (t.cb i).state≠.free) (hn : 0<n.toNat) :
    Moved c t i {t.view i with phase:=.running n.toNat}
      ({t with cb:=update t.cb i s}.osSwTmrStart c i n) (out.erase i) := by
  have hview := h.view_idle (f:=t.freeList) hi (s:=s) (hst ▸ hi)
  have hsi : (update t.cb i s i).state=(t.cb i).state := by simp [hst]
  have hmoved := (h.touch hi hst hiv hnf).movedStart (n:=n) (hsi ▸ hi) (hsi ▸ hnf) hn
  refine ⟨hmoved.ok,hmoved.view.trans ?_⟩
  rw [hview,update_idem,update_self]
  simp [view,hm,hiv,hh,ha]

omit h in
lemma toNat_startCount (s : SwTmrCtrl) : (startCount s).toNat =
    if s.idxRollNum.toNat=0 then s.interval.toNat else s.idxRollNum.toNat := by
  have hzero : s.idxRollNum=0 ↔ s.idxRollNum.toNat=0 :=
    ⟨fun h0 => by simp [h0],fun h0 => BitVec.eq_of_toNat_eq h0⟩
  unfold startCount
  simp only [hzero,apply_ite BitVec.toNat]

lemma WheelOk.startTimer : Moved c t i (t.view i).start (t.osSwTmrStartTimer c i).2 out := by
  unfold osSwTmrStartTimer
  split
  . rename_i hle
    exact h.unmoved (by simp [Countdown.start,view,h.free_of_le hle])
  cases hst : (t.cb i).state with
  | free => exact h.unmoved (by simp [Countdown.start,view,hst])
  | running => exact h.unmoved (by simp [Countdown.start,view,hst])
  | expired pre => exact (h.movedPre hst).of_eq (by simp [Countdown.start,view,hst])
  | created =>
    have hnf : (t.cb i).state≠.free := by simp [hst]
    have hpos := h.interval_pos hnf
    have hcount := toNat_startCount (t.cb i)
    have hn : 0<(startCount (t.cb i)).toNat := by
      rw [hcount]
      split <;> omega
    have hrun : (t.view i).start =
        {t.view i with phase:=.running (startCount (t.cb i)).toNat} := by
      rw [hcount]
      simp [Countdown.start,view,hst]
    have hmoved := h.movedTouchStart (n:=startCount (t.cb i))
      (s:={t.cb i with idxRollNum:=startCount (t.cb i)}) (by simp [hst]) rfl rfl rfl rfl rfl
      hnf hn
    rw [h.erase_out hst (by simp)] at hmoved
    exact hmoved.of_eq hrun

lemma WheelOk.stopTimer : Moved c t i (t.view i).stop (t.osSwTmrStopTimer c i).2 out := by
  unfold osSwTmrStopTimer
  split
  . rename_i hle
    exact h.unmoved (by simp [Countdown.stop,view,h.free_of_le hle])
  cases hst : (t.cb i).state with
  | free => exact h.unmoved (by simp [Countdown.stop,view,hst])
  | created => exact h.unmoved (by simp [Countdown.stop,view,hst])
  | expired pre => exact (h.movedPre hst).of_eq (by simp [Countdown.stop,view,hst])
  | running => exact (h.movedStop hst).of_eq (by simp [Countdown.stop,view,hst])

lemma WheelOk.movedOff (hr : (t.cb i).state=.running) :
    ∃ left, Moved c t i {t.view i with phase:=.created left} (t.osSwTmrStop i true) out ∧
      ((t.osSwTmrStop i true).cb i).state=.created := by
  rw [osSwTmrStop_eq]
  refine ⟨_,⟨h.unlink hr,h.view_unlink hr⟩,?_⟩
  rw [h.unlink_cb_self]

lemma WheelOk.restartTimer : Moved c t i (t.view i).restart (t.osSwTmrRestartTimer c i).2 out := by
  unfold osSwTmrRestartTimer
  split
  . rename_i hle
    exact h.unmoved (by simp [Countdown.restart,view,h.free_of_le hle])
  cases hst : (t.cb i).state with
  | free => exact h.unmoved (by simp [Countdown.restart,view,hst])
  | expired pre => exact (h.movedPre hst).of_eq (by simp [Countdown.restart,view,hst])
  | created =>
    have hnf : (t.cb i).state≠.free := by simp [hst]
    have hre : (t.view i).restart =
        {t.view i with phase:=.running (t.cb i).interval.toNat} := by
      simp [Countdown.restart,Countdown.rearm,view,hst]
    have hmoved := h.movedStart (n:=(t.cb i).interval) (by simp [hst]) hnf (h.interval_pos hnf)
    rw [h.erase_out hst (by simp)] at hmoved
    exact hmoved.of_eq hre
  | running =>
    have hnf : (t.cb i).state≠.free := by simp [hst]
    have hre : (t.view i).restart =
        {t.view i with phase:=.running (t.cb i).interval.toNat} := by
      simp [Countdown.restart,Countdown.rearm,view,hst]
    obtain ⟨left,hoff,hcr⟩ := h.movedOff hst
    have hmoved := hoff.ok.movedStart (i:=i) (n:=(t.cb i).interval) (by simp [hcr])
      (by simp [hcr]) (h.interval_pos hnf)
    rw [h.erase_out hst (by simp)] at hmoved
    refine ⟨hmoved.ok,hmoved.view.trans ?_⟩
    rw [hoff.view,update_idem,update_self,hre]

lemma WheelOk.deleteTimer : Moved c t i (t.view i).delete (t.osSwTmrDeleteTimer c i).2 out := by
  unfold osSwTmrDeleteTimer
  split
  . rename_i hle
    exact h.unmoved (by simp [Countdown.delete,view,h.free_of_le hle])
  cases hst : (t.cb i).state with
  | free => exact h.unmoved (by simp [Countdown.delete,view,hst])
  | expired pre => exact (h.movedPre hst).of_eq (by simp [Countdown.delete,view,hst])
  | created =>
    have hmoved := h.movedFree (i:=i) (by simp [hst]) (by simp [hst])
    rw [h.erase_out hst (by simp)] at hmoved
    exact hmoved.of_eq (by simp [Countdown.delete,view,hst])
  | running =>
    have hdel : (t.view i).delete={t.view i with phase:=.free} := by
      simp [Countdown.delete,view,hst]
    obtain ⟨left,hoff,hcr⟩ := h.movedOff hst
    have hmoved := hoff.ok.movedFree (i:=i) (by simp [hcr]) (by simp [hcr])
    rw [h.erase_out hst (by simp)] at hmoved
    refine ⟨hmoved.ok,hmoved.view.trans ?_⟩
    rw [hoff.view,update_idem,update_self,hdel]

lemma WheelOk.proc (hst : (t.cb i).state=.expired pre) :
    Moved c t i (t.view i).handled (t.osSwtmrProc c i) (out.erase i) := by
  have hi : (t.cb i).state≠.running := by simp [hst]
  have hnf : (t.cb i).state≠.free := by simp [hst]
  unfold osSwtmrProc
  cases pre with
  | preRunning =>
    have hre : (t.view i).handled =
        {t.view i with phase:=.running (t.cb i).interval.toNat} := by
      simp [Countdown.handled,Countdown.rearm,view,hst]
    rw [hst,hre]
    exact h.movedStart hi hnf (h.interval_pos hnf)
  | preCreated =>
    have hre : (t.view i).handled={t.view i with phase:=.created 0} := by
      simp [Countdown.handled,view,hst]
    rw [hst,hre]
    exact h.movedSettle hst
  | preFree =>
    have hre : (t.view i).handled={t.view i with phase:=.free} := by
      simp [Countdown.handled,view,hst]
    rw [hst,hre]
    exact h.movedFree hi hnf
  | default =>
    cases hm : (t.cb i).mode with
    | loop =>
      have hre : (t.view i).handled =
          {t.view i with phase:=.running (t.cb i).interval.toNat} := by
        simp [Countdown.handled,Countdown.rearm,view,hst,hm]
      rw [hst,hre]
      exact h.movedTouchStart hi rfl rfl rfl rfl rfl hnf (h.interval_pos hnf)
    | once =>
      have hre : (t.view i).handled={t.view i with phase:=.created 0} := by
        simp [Countdown.handled,view,hst,hm]
      rw [hst,hre]
      exact h.movedSettle hst

end Moves

lemma paraChk_ok (hchk : osSwTmrCreateTimerParaChk c p=.ok) :
    c.tickPerSecond*p.interval.toNat%1000=0 ∧ p.interval.toNat≤1000*(2^32-1)/c.tickPerSecond := by
  unfold osSwTmrCreateTimerParaChk at hchk
  split at hchk
  . cases hchk
  split at hchk
  . cases hchk
  split at hchk
  . cases hchk
  split at hchk
  . cases hchk
  rename_i hmod hover
  exact ⟨Decidable.not_not.mp hmod,Nat.not_lt.mp hover⟩

lemma toNat_ticks (hp : p.interval≠0)
    (hchk : osSwTmrCreateTimerParaChk c p=.ok) :
    (BitVec.ofNat 32 (c.tickPerSecond*p.interval.toNat/1000)).toNat =
      c.tickPerSecond*p.interval.toNat/1000 ∧ 0<c.tickPerSecond*p.interval.toNat/1000 := by
  have hpos : 0<p.interval.toNat := by
    rcases Nat.eq_zero_or_pos p.interval.toNat with h0 | h0
    . exact absurd (BitVec.eq_of_toNat_eq h0) hp
    exact h0
  obtain ⟨hmod,hover⟩ := paraChk_ok hchk
  have hprod : 0<c.tickPerSecond*p.interval.toNat := Nat.mul_pos c.tickInit hpos
  have hle : c.tickPerSecond*p.interval.toNat≤1000*(2^32-1) :=
    Nat.le_trans (Nat.mul_le_mul_left _ hover) (Nat.mul_div_le _ _)
  generalize c.tickPerSecond * p.interval.toNat=ticks at *
  constructor
  . exact Nat.mod_eq_of_lt (by omega)
  omega

lemma ticks_ne_zero (hp : p.interval≠0)
    (hchk : osSwTmrCreateTimerParaChk c p=.ok) :
    BitVec.ofNat 32 (c.tickPerSecond*p.interval.toNat/1000)≠0 := by
  obtain ⟨hticks,hpos⟩ := toNat_ticks hp hchk
  intro hz
  rw [hz] at hticks
  exact absurd hticks (Nat.ne_of_lt hpos)

def created (c : TmrCfg) (t : SwTmrs) (p : TimerCreatePara) : Option (Nat×Countdown) :=
  match p.mode, p.callBackFunc with
  | some mode, some f =>
    if (t.prtTimerCreate c p).1=.ok then
      let ticks := c.tickPerSecond*p.interval.toNat / 1000
      some ((t.prtTimerCreate c p).2.1,⟨.created ticks,mode,ticks,f,p.arg1⟩)
    else none
  | _, _ => none

lemma prtTimerCreate_cases (p : TimerCreatePara) : (∃ i l mode f, t.freeList=i::l ∧ p.interval≠0 ∧
      osSwTmrCreateTimerParaChk c p=.ok ∧
      t.created c p=some (i,⟨.created (c.tickPerSecond*p.interval.toNat/1000),mode,
        c.tickPerSecond*p.interval.toNat/1000,f,p.arg1⟩) ∧
      (t.prtTimerCreate c p).2.2={t with freeList:=l}.osSwTmrCreateTimerCbInit i p mode f
        (BitVec.ofNat 32 (c.tickPerSecond*p.interval.toNat/1000))) ∨
    (t.created c p=none ∧ (t.prtTimerCreate c p).2.2=t) := by
  by_cases h0 : p.interval=0#32
  . right
    cases hm : p.mode <;> cases hf : p.callBackFunc <;>
      simp [created,prtTimerCreate,h0,hm,hf]
  cases hm : p.mode with
  | none => simp [created,prtTimerCreate,h0,hm]
  | some mode =>
    by_cases hchk : osSwTmrCreateTimerParaChk c p=.ok
    . cases hf : p.callBackFunc with
      | none => simp [osSwTmrCreateTimerParaChk,hf] at hchk
      | some f =>
        cases hl : t.freeList with
        | nil => simp [created,prtTimerCreate,h0,hm,hf,hl,hchk]
        | cons i l =>
          left
          refine ⟨i,l,mode,f,rfl,h0,hchk,?_,?_⟩
          . simp [created,prtTimerCreate,h0,hm,hf,hl,hchk]
          simp [prtTimerCreate,h0,hm,hf,hl,hchk]
    right
    cases hf : p.callBackFunc <;> cases hl : t.freeList <;>
      simp [created,prtTimerCreate,h0,hm,hf,hl,hchk]

end SwTmrs

/-- The software timers over time: `outLink` are the expired timers that `OsSwTmrScanProcess` is not
done with, `called` says that the first one's handler was entered. `scans` and `calls` are history.
-/
structure WheelRun where
  tmrs : SwTmrs
  outLink : List Nat
  called : Bool
  scans : Nat
  calls : List (Nat×Nat)

/-- Timer calls, ticks, and the call and the end of a handler. -/
inductive TmrInput
  | create (p : TimerCreatePara)
  | start (i : Nat) | stop (i : Nat) | restart (i : Nat) | delete (i : Nat)
  | tick
  | call
  | handled
  deriving DecidableEq

namespace WheelRun

variable (c : TmrCfg) (w : WheelRun)

/-- Interrupts are open while a handler runs; a tick that comes then is only counted, and its scan
follows. -/
def step : TmrInput → WheelRun
  | .create p => {w with tmrs:=(w.tmrs.prtTimerCreate c p).2.2}
  | .start i => {w with tmrs:=(w.tmrs.osSwTmrStartTimer c i).2}
  | .stop i => {w with tmrs:=(w.tmrs.osSwTmrStopTimer c i).2}
  | .restart i => {w with tmrs:=(w.tmrs.osSwTmrRestartTimer c i).2}
  | .delete i => {w with tmrs:=(w.tmrs.osSwTmrDeleteTimer c i).2}
  | .tick =>
    match w.outLink with
    | [] =>
      let t := {w.tmrs with uniTicks:=(w.tmrs.uniTicks+1)%2^64}
      {w with
        tmrs := t.osSwTmrScanOneSlot.1
        outLink := t.osSwTmrScanOneSlot.2
        scans := w.scans+1}
    | _::_ => w
  | .call =>
    match w.outLink, w.called with
    | i::_, false => {w with called:=true, calls:=(w.scans,i)::w.calls}
    | _, _ => w
  | .handled =>
    match w.outLink, w.called with
    | i::l, true => {w with tmrs:=w.tmrs.osSwtmrProc c i, outLink:=l, called:=false}
    | _, _ => w

section Steps

variable {w} {j : Nat} {l : List Nat}

lemma step_tick_of_nil (h : w.outLink=[]) : w.step c .tick={w with
      tmrs := {w.tmrs with uniTicks:=(w.tmrs.uniTicks+1)%2^64}.osSwTmrScanOneSlot.1
      outLink := {w.tmrs with uniTicks:=(w.tmrs.uniTicks+1)%2^64}.osSwTmrScanOneSlot.2
      scans := w.scans+1} := by
  simp [step,h]

lemma step_tick_of_cons (h : w.outLink=j::l) : w.step c .tick=w := by simp [step,h]

lemma step_call (h : w.outLink=j::l) (hc : w.called=false) :
    w.step c .call={w with called:=true, calls:=(w.scans,j)::w.calls} := by
  simp [step,h,hc]

lemma step_call_of_nil (h : w.outLink=[]) : w.step c .call=w := by simp [step,h]

lemma step_call_of_called (hc : w.called=true) : w.step c .call=w := by
  cases h : w.outLink <;> simp [step,h,hc]

lemma step_handled (h : w.outLink=j::l) (hc : w.called=true) : w.step c .handled =
    {w with tmrs:=w.tmrs.osSwtmrProc c j, outLink:=l, called:=false} := by
  simp [step,h,hc]

lemma step_handled_of_nil (h : w.outLink=[]) : w.step c .handled=w := by simp [step,h]

lemma step_handled_of_not_called (hc : w.called=false) : w.step c .handled=w := by
  cases h : w.outLink <;> simp [step,h,hc]

lemma step_tick_cases : w.outLink=[] ∨ w.step c .tick=w := by
  cases hout : w.outLink with
  | nil => exact .inl rfl
  | cons j l => exact .inr (step_tick_of_cons c hout)

lemma step_call_cases : (∃ j l, w.outLink=j::l ∧ w.called=false ∧
    w.step c .call={w with called:=true, calls:=(w.scans,j)::w.calls}) ∨
      w.step c .call=w := by
  cases hout : w.outLink with
  | nil => exact .inr (step_call_of_nil c hout)
  | cons j l =>
    cases hc : w.called with
    | true => exact .inr (step_call_of_called c hc)
    | false => exact .inl ⟨j,l,rfl,rfl,hout ▸ step_call c hout hc⟩

lemma step_handled_cases : (∃ j l, w.outLink=j::l ∧ w.called=true ∧ w.step c .handled =
    {w with tmrs:=w.tmrs.osSwtmrProc c j, outLink:=l, called:=false}) ∨
      (∀ i, ¬(w.outLink.head? = some i ∧ w.called=true)) ∧ w.step c .handled=w := by
  cases hout : w.outLink with
  | nil => exact .inr ⟨by simp,step_handled_of_nil c hout⟩
  | cons j l =>
    cases hc : w.called with
    | false => exact .inr ⟨by simp,step_handled_of_not_called c hc⟩
    | true => exact .inl ⟨j,l,rfl,rfl,step_handled c hout hc⟩

end Steps

def machine : Machine WheelRun TmrInput where
  start w := w=⟨SwTmrs.init c,[],false,0,[]⟩
  step := step c

def event (x : TmrInput) (i : Nat) : TmrEvent :=
  match x with
  | .create p =>
    match w.tmrs.created c p with
    | some (j,new) => if j=i then .create new else .other
    | none => .other
  | .start j => if j=i then .start else .other
  | .stop j => if j=i then .stop else .other
  | .restart j => if j=i then .restart else .other
  | .delete j => if j=i then .delete else .other
  | .tick => if w.outLink=[] then .tick else .other
  | .call => .other
  | .handled => if w.outLink.head? = some i ∧ w.called=true then .handled else .other

def Enters (w : WheelRun) (x : TmrInput) (i : Nat) : Prop :=
  x=.call ∧ w.outLink.head? = some i ∧ w.called=false

/-- The scans in which the handler of a timer was called, the last one first. -/
def callsOf (i : Nat) : List Nat := (w.calls.filter (·.2=i)).map (·.1)

structure RunOk : Prop where
  wheel : w.tmrs.WheelOk c w.outLink
  called : w.called=true → w.outLink≠[]

variable {c w} {x : TmrInput} {i : Nat}

lemma callsOf_step_of_enters (h : w.Enters x i) :
    (w.step c x).callsOf i=w.scans::w.callsOf i ∧ (w.step c x).called=true ∧
      (w.step c x).outLink=w.outLink ∧ (w.step c x).scans=w.scans := by
  obtain ⟨rfl,hhead,hcalled⟩ := h
  cases hout : w.outLink with
  | nil => simp [hout] at hhead
  | cons j l =>
    have hji : j=i := by simpa [hout] using hhead
    subst hji
    simp [step,callsOf,hout,hcalled]

lemma callsOf_step_of_not_enters (h : ¬w.Enters x i) : (w.step c x).callsOf i=w.callsOf i := by
  cases x with
  | call =>
    rcases step_call_cases c (w:=w) with ⟨j,l,hout,hc,heq⟩ | heq
    . have hji : j≠i := fun hji => h ⟨rfl,by simp [hout,hji],hc⟩
      simp [heq,callsOf,hji]
    rw [heq]
  | tick =>
    unfold step
    cases w.outLink <;> rfl
  | handled =>
    rcases step_handled_cases c (w:=w) with ⟨j,l,-,-,heq⟩ | ⟨-,heq⟩
    . rw [heq]
      rfl
    rw [heq]
  | _ => rfl

/-- The inputs behind an event. -/
inductive Seen (c : TmrCfg) (w : WheelRun) (i : Nat) : TmrInput → TmrEvent → Prop
  | other (x : TmrInput) : Seen c w i x .other
  | create (p : TimerCreatePara) (new : Countdown) (h : w.tmrs.created c p=some (i,new)) :
      Seen c w i (.create p) (.create new)
  | start : Seen c w i (.start i) .start
  | stop : Seen c w i (.stop i) .stop
  | restart : Seen c w i (.restart i) .restart
  | delete : Seen c w i (.delete i) .delete
  | tick (h : w.outLink=[]) : Seen c w i .tick .tick
  | handled (h : w.outLink.head? = some i) (hc : w.called=true) : Seen c w i .handled .handled

lemma seen_event : Seen c w i x (w.event c x i) := by
  cases x <;> simp only [event] <;> grind [Seen]

lemma RunOk.start : RunOk c ⟨init c,[],false,0,[]⟩ where
  wheel :=
    { linked := by simp [init]
      nodup := by simp [init]
      cursor := by simp [init]
      fits := by simp [init]
      known := by simp [init]
      timed := by simp [init]
      free := by simp [init]
      freeNodup := nodup_range
      outNodup := nodup_nil
      expired := by simp [init] }
  called := by simp

lemma RunOk.step (h : RunOk c w) (x : TmrInput) : RunOk c (w.step c x) ∧
      ∀ i, (w.step c x).tmrs.view i=(w.tmrs.view i).act (w.event c x i) := by
  have lift {j : Nat} {e : TmrEvent} {t' : SwTmrs}
      (hm : Moved c w.tmrs j ((w.tmrs.view j).act e) t' w.outLink) :
      RunOk c {w with tmrs:=t'} ∧
        ∀ i, t'.view i=(w.tmrs.view i).act (if j=i then e else .other) := by
    refine ⟨⟨hm.ok,h.called⟩,fun i => ?_⟩
    rw [hm.view]
    by_cases hji : j=i
    . subst hji
      simp
    rw [update_of_ne (Ne.symm hji),if_neg hji]
    rfl
  cases x with
  | create p =>
    unfold WheelRun.step event
    rcases prtTimerCreate_cases (c:=c) (t:=w.tmrs) p with
      ⟨i,l,mode,f,hl,h0,hchk,hcr,heq⟩ | ⟨hcr,heq⟩
    . simp only [hcr,heq]
      apply lift
      have hmoved := h.wheel.movedCreate (p:=p) (m:=mode) (f:=f)
        (n:=BitVec.ofNat 32 (c.tickPerSecond*p.interval.toNat/1000)) hl
        (ticks_ne_zero h0 hchk)
      rw [(toNat_ticks h0 hchk).1] at hmoved
      exact hmoved
    simp only [hcr,heq]
    exact ⟨h,fun i => rfl⟩
  | start i => exact lift h.wheel.startTimer
  | stop i => exact lift h.wheel.stopTimer
  | restart i => exact lift h.wheel.restartTimer
  | delete i => exact lift h.wheel.deleteTimer
  | tick =>
    cases hout : w.outLink with
    | nil =>
      have hw : {w.tmrs with uniTicks:=(w.tmrs.uniTicks+1)%2^64}.WheelOk c [] := by
        have hwheel := hout ▸ h.wheel
        exact {hwheel with}
      have hcalled : w.called=false := by
        cases hc : w.called with
        | false => rfl
        | true => exact absurd hout (h.called hc)
      rw [step_tick_of_nil c hout]
      refine ⟨⟨hw.scan,fun hc => absurd hc (by simp [hcalled])⟩,fun i => ?_⟩
      rw [hw.view_scan]
      simp only [event,hout,if_true]
      rfl
    | cons j l =>
      rw [step_tick_of_cons c hout]
      exact ⟨h,fun i => by simp [event,hout,Countdown.act]⟩
  | call =>
    rcases step_call_cases c (w:=w) with ⟨j,l,hout,hc,heq⟩ | heq
    . rw [heq]
      exact ⟨⟨h.wheel,fun _ => by simp [hout]⟩,fun i => rfl⟩
    rw [heq]
    exact ⟨h,fun i => rfl⟩
  | handled =>
    rcases step_handled_cases c (w:=w) with ⟨j,l,hout,hc,heq⟩ | ⟨hno,heq⟩
    . have hwheel := hout ▸ h.wheel
      obtain ⟨pre,hpre⟩ := (hwheel.expired j).mp mem_cons_self
      have hm := hwheel.proc hpre
      rw [erase_cons_head] at hm
      rw [heq]
      refine ⟨⟨hm.ok,by simp⟩,fun i => ?_⟩
      rw [hm.view]
      by_cases hji : j=i
      . subst hji
        simp [event,hout,hc,Countdown.act]
      rw [update_of_ne (Ne.symm hji)]
      simp [event,hout,hji,Countdown.act]
    rw [heq]
    exact ⟨h,fun i => by simp only [event,if_neg (hno i)]; rfl⟩

lemma RunOk.run (h : RunOk c w) (is : List TmrInput) : RunOk c ((machine c).run w is) := by
  induction is generalizing w with
  | nil => exact h
  | cons x is ih => exact ih (h.step x).1

lemma runOk_of_reaches (hw : (machine c).Reaches (fun _ _ => True) w) : RunOk c w :=
  hw.invariant (fun _ hs => hs ▸ RunOk.start) fun _ x h _ => (h.step x).1

end WheelRun

end UniProton
