import UniProton.Timer.Period
import UniProton.Timer.Tidy

namespace UniProton

open Framework Function Countdown

namespace PeriodRun

variable {c : TmrCfg} {s s' : PeriodRun} {tsk : BitVec 32} {i : Nat} {x : TmrInput}

/-- A timer call that is on no timer of a periodic task, and does not imitate one. -/
def Plain (s : PeriodRun) : TmrInput → Prop
  | .create p => p.callBackFunc≠some .osDelieverSigPeriod
  | .start i | .stop i | .restart i | .delete i => (s.wheel.tmrs.cb i).handler≠.osDelieverSigPeriod
  | _ => True

/-- Nothing comes between the parts of a call; a call names its task, its release lies ahead and
does not wrap to 0, a millisecond is a number of ticks, and the timer is not expired; a task waits
after every release. -/
def Regular (c : TmrCfg) (s : PeriodRun) : PeriodInput → Prop
  | .timer x => s.calls=[] ∧ s.Plain x
  | .setPeriodic caller taskPid idate period =>
    s.calls=[] ∧ (taskPid≠0 ∨ caller=0) ∧ period≠0 ∧ (idate=0 ∧ s.now+period≠0 ∨ s.now < idate) ∧
      c.tickPerSecond%1000=0 ∧ c.tickPerSecond<2^32 ∧
      ∀ i, s.itimer (tskOf caller taskPid)=some i → i∉s.wheel.outLink
  | .waitPeriod tsk => s.passed tsk≤1
  | _ => True

def Owned (k : Countdown) (tsk : BitVec 32) : Prop :=
  k.Lasting ∧ k.handler=.osDelieverSigPeriod ∧ k.arg1=tsk

/-- Where a call stands whose first release is to come when the tick count is `e`. -/
def Reached (s : PeriodRun) (k : SetCall) (i : Nat) (e : BitVec 32) : Prop :=
  match k.stage with
  | .check => k.idate=0 ∧ e=s.now+k.period ∨ s.now<k.idate ∧ k.idate=e
  | .stop => k.idate=e
  | .clock => k.idate=e ∧ ∃ r, (s.wheel.tmrs.view i).phase=.created r
  | .write now => k.idate=e ∧ now=s.now ∧ ∃ r, (s.wheel.tmrs.view i).phase=.created r
  | .start => s.wheel.tmrs.view i =
      ⟨.created (e-s.now).toNat,.loop,k.period.toNat,.osDelieverSigPeriod,k.tsk⟩

structure InCall (s : PeriodRun) (k : SetCall) (i : Nat) (e : BitVec 32) : Prop where
  timer : s.itimer k.tsk=some i
  period : k.period≠0
  wrap : e≠0
  ahead : e≠s.now
  still : i∉s.wheel.outLink
  reached : Reached s k i e

structure Kept (c : TmrCfg) (s : PeriodRun) : Prop where
  ok : s.wheel.RunOk c
  clean : s.wheel.Clean
  flag : ∀ tsk, s.setPeriodic tsk=(s.itimer tsk).isSome
  mine : ∀ tsk i, s.itimer tsk=some i → Owned (s.wheel.tmrs.view i) tsk
  only : ∀ i, (s.wheel.tmrs.view i).phase≠.free →
    (s.wheel.tmrs.view i).handler=.osDelieverSigPeriod →
    s.itimer (s.wheel.tmrs.view i).arg1=some i
  call : s.calls=[] ∨ ∃ k i e, s.calls=[k] ∧ InCall s k i e

lemma Kept.tsk_eq (h : Kept c s) {tsk' : BitVec 32} (hi : s.itimer tsk=some i)
    (hi' : s.itimer tsk'=some i) : tsk'=tsk := by
  rw [← (h.mine tsk i hi).2.2,← (h.mine tsk' i hi').2.2]

lemma Kept.phase_cases (h : Kept c s) (hi : s.itimer tsk=some i) (ho : i∉s.wheel.outLink) :
    (∃ r, (s.wheel.tmrs.view i).phase=.created r) ∨
      ∃ r, (s.wheel.tmrs.view i).phase=.running r := by
  obtain ⟨⟨hf,-⟩,-,-⟩ := h.mine tsk i hi
  cases hp : (s.wheel.tmrs.view i).phase with
  | free => exact absurd hp hf
  | created r => exact .inl ⟨r,rfl⟩
  | running r => exact .inr ⟨r,rfl⟩
  | expired pre => exact absurd (h.ok.mem_outLink.mpr ⟨pre,hp⟩) ho

/-- The timers after a part of a call that is on timer `i`. -/
def onTimer (s : PeriodRun) (t : SwTmrs) (calls : List SetCall) (rets : List PeriodRet) :
    PeriodRun :=
  {s with wheel:={s.wheel with tmrs:=t}, calls:=calls, rets:=rets}

lemma now_onTimer {t : SwTmrs} {calls : List SetCall} {rets : List PeriodRet}
    (ht : SwTmrs.Tidy s.wheel.tmrs t) : (s.onTimer t calls rets).now=s.now := by
  unfold now tickCount onTimer
  rw [ht.ticks]

lemma Kept.onTimer (h : Kept c s) {t : SwTmrs} {m : Countdown} {calls : List SetCall}
    {rets : List PeriodRet} (hi : s.itimer tsk=some i)
    (hm : SwTmrs.Moved c s.wheel.tmrs i m t s.wheel.outLink)
    (ht : SwTmrs.Tidy s.wheel.tmrs t) (hown : Owned m tsk)
    (hcall : calls=[] ∨ ∃ k i e, calls=[k] ∧ InCall (s.onTimer t calls rets) k i e) :
    Kept c (s.onTimer t calls rets) where
  ok := ⟨hm.ok,h.ok.called⟩
  clean := h.clean.of_tidy ht rfl
  flag := h.flag
  mine := by
    intro tsk' j hj
    change Owned (t.view j) tsk'
    rw [hm.view]
    by_cases hji : j=i
    . subst hji
      rw [update_self,h.tsk_eq hi hj]
      exact hown
    rw [update_of_ne hji]
    exact h.mine tsk' j hj
  only := by
    intro j
    change (t.view j).phase≠_ → (t.view j).handler=_ → s.itimer (t.view j).arg1=some j
    rw [hm.view]
    by_cases hji : j=i
    . subst hji
      rw [update_self,hown.2.2]
      exact fun _ _ => hi
    rw [update_of_ne hji]
    exact h.only j
  call := hcall

def partsLeft : SetStage → Nat
  | .check => 5
  | .stop => 4
  | .clock => 3
  | .write _ => 2
  | .start => 1

/-- What one more part makes of a call. -/
inductive Advanced (c : TmrCfg) (s : PeriodRun) (k : SetCall) (i : Nat) (e : BitVec 32) : Prop
  | further (k' : SetCall) (t : SwTmrs) (m : Countdown)
      (heq : s.go c 0=s.onTimer t [k'] s.rets)
      (hsame : k'.tsk=k.tsk ∧ k'.period=k.period)
      (hleft : partsLeft k'.stage+1=partsLeft k.stage)
      (hm : SwTmrs.Moved c s.wheel.tmrs i m t s.wheel.outLink)
      (ht : SwTmrs.Tidy s.wheel.tmrs t) (hown : Owned m k.tsk)
      (hreach : Reached (s.onTimer t [k'] s.rets) k' i e)
  | done (t : SwTmrs) (heq : s.go c 0=s.onTimer t [] (.ok::s.rets))
      (hleft : partsLeft k.stage=1)
      (hm : SwTmrs.Moved c s.wheel.tmrs i
        ⟨.running (e-s.now).toNat,.loop,k.period.toNat,.osDelieverSigPeriod,k.tsk⟩
        t s.wheel.outLink)
      (ht : SwTmrs.Tidy s.wheel.tmrs t)

section Call

variable {k : SetCall} {e : BitVec 32}

lemma go_of_idle {n : Nat} (hc : s.calls=[]) : s.go c n=s := by simp [go,hc]

lemma go_succ {n : Nat} (hc : s.calls=[k]) : s.go c (n+1)=s := by simp [go,hc]

lemma go_eq_of_next {w : WheelRun} {k' : SetCall} (hc : s.calls=[k])
    (hn : s.next c k=(w,.inl k')) : s.go c 0={s with wheel:=w, calls:=[k']} := by
  simp [go,hc,hn]

lemma go_eq_of_ret {w : WheelRun} {ret : PeriodRet} (hc : s.calls=[k])
    (hn : s.next c k=(w,.inr ret)) :
    s.go c 0={s with wheel:=w, calls:=[], rets:=ret::s.rets} := by
  simp [go,hc,hn]

variable (hk : Kept c s) (hc : s.calls=[k]) (h : InCall s k i e)

include hk hc h

lemma InCall.goCheck (hs : k.stage=.check) : Advanced c s k i e := by
  have hreach := h.reached
  simp only [Reached,hs] at hreach
  have hown := hk.mine k.tsk i h.timer
  rcases hreach with ⟨hz,he⟩ | ⟨hlt,he⟩
  . have hn : s.next c k=(s.wheel,.inl {k with idate:=s.now+k.period, stage:=.stop}) := by
      simp [next,h.timer,hs,hz]
    exact .further _ s.wheel.tmrs _ (go_eq_of_next hc hn) ⟨rfl,rfl⟩ (by simp [partsLeft,hs])
      (hk.ok.wheel.unmoved rfl) .refl hown he.symm
  have hz : k.idate≠0#32 := he ▸ h.wrap
  have hn : s.next c k=(s.wheel,.inl {k with stage:=.stop}) := by
    simp [next,h.timer,hs,hz,BitVec.not_lt.mpr (BitVec.le_of_lt hlt)]
  exact .further _ s.wheel.tmrs _ (go_eq_of_next hc hn) ⟨rfl,rfl⟩ (by simp [partsLeft,hs])
    (hk.ok.wheel.unmoved rfl) .refl hown he

lemma InCall.goStop (hs : k.stage=.stop) : Advanced c s k i e := by
  have hreach : k.idate=e := by simpa only [Reached,hs] using h.reached
  have hz : k.idate≠0#32 := hreach ▸ h.wrap
  have hown := hk.mine k.tsk i h.timer
  have hknown : ¬c.maxNum ≤ i := by
    have hst : (s.wheel.tmrs.cb i).state≠.free := by
      intro hst
      exact hown.1.1 (by simp [SwTmrs.view,hst])
    exact Nat.not_le.mpr (hk.ok.wheel.known i hst)
  have hm := hk.ok.wheel.stopTimer (i:=i)
  obtain ⟨r,hret,hview⟩ : ∃ r, ((s.wheel.tmrs.osSwTmrStopTimer c i).1=.ok ∨
      (s.wheel.tmrs.osSwTmrStopTimer c i).1=.unstart) ∧
      (s.wheel.tmrs.view i).stop={s.wheel.tmrs.view i with phase:=.created r} := by
    rcases hk.phase_cases h.timer h.still with ⟨r,hr⟩ | ⟨r,hr⟩
    . refine ⟨r,.inr ?_,by simp [stop,hr]; rw [← hr]⟩
      simp [SwTmrs.osSwTmrStopTimer,hknown,SwTmrs.phase_created hr]
    refine ⟨r,.inl ?_,by simp [stop,hr]⟩
    simp [SwTmrs.osSwTmrStopTimer,hknown,(SwTmrs.phase_running hr).1]
  have hn : s.next c k=(s.wheel.step c (.stop i),.inl {k with stage:=.clock}) := by
    rcases hret with hret | hret <;> simp [next,h.timer,hs,hz,hret]
  rw [hview] at hm
  refine .further _ (s.wheel.tmrs.osSwTmrStopTimer c i).2 _ (go_eq_of_next hc hn) ⟨rfl,rfl⟩
    (by simp [partsLeft,hs]) hm hk.ok.wheel.tidy_stopTimer ?_ ⟨hreach,r,?_⟩
  . exact ⟨⟨by simp,by simp⟩,hown.2⟩
  change ((s.wheel.tmrs.osSwTmrStopTimer c i).2.view i).phase=_
  rw [hm.view,update_self]

lemma InCall.goClock (hs : k.stage=.clock) : Advanced c s k i e := by
  have hreach : k.idate=e ∧ ∃ r, (s.wheel.tmrs.view i).phase=.created r := by
    simpa only [Reached,hs] using h.reached
  have hn : s.next c k=(s.wheel,.inl {k with stage:=.write s.now}) := by simp [next,h.timer,hs]
  exact .further _ s.wheel.tmrs _ (go_eq_of_next hc hn) ⟨rfl,rfl⟩ (by simp [partsLeft,hs])
    (hk.ok.wheel.unmoved rfl) .refl (hk.mine k.tsk i h.timer) ⟨hreach.1,rfl,hreach.2⟩

lemma InCall.goWrite {n : BitVec 32} (hs : k.stage=.write n) : Advanced c s k i e := by
  have hreach : k.idate=e ∧ n=s.now ∧ ∃ r, (s.wheel.tmrs.view i).phase=.created r := by
    simpa only [Reached,hs] using h.reached
  obtain ⟨he,hnow,r,hr⟩ := hreach
  have hst := SwTmrs.phase_created hr
  have hnf : (s.wheel.tmrs.cb i).state≠.free := by simp [hst]
  have hnr : (s.wheel.tmrs.cb i).state≠.running := by simp [hst]
  obtain ⟨-,hh,ha⟩ := hk.mine k.tsk i h.timer
  have hp : k.period≠0#32 := h.period
  have hm : SwTmrs.Moved c s.wheel.tmrs i
      ⟨.created (e-s.now).toNat,.loop,k.period.toNat,.osDelieverSigPeriod,k.tsk⟩
      (s.wheel.tmrs.modCb i fun b => rewrite b n k.idate k.period) s.wheel.outLink := by
    constructor
    . exact hk.ok.wheel.idle hnr (by simp [rewrite,hst]) (hk.ok.wheel.known i hnf)
        (fun _ => by simp [rewrite,hp]) (fun _ _ => Iff.rfl)
        (by simp [rewrite,hk.ok.wheel.free,hst]) hk.ok.wheel.freeNodup (fun _ _ => Iff.rfl)
        (by simp [rewrite,hk.ok.wheel.expired,hst]) hk.ok.wheel.outNodup
    have hview := hk.ok.wheel.view_idle (f:=s.wheel.tmrs.freeList) hnr
      (s:=rewrite (s.wheel.tmrs.cb i) n k.idate k.period) (by simp [rewrite,hst])
    refine hview.trans (congrArg (update s.wheel.tmrs.view i) ?_)
    rw [← hh,← ha,← he,← hnow]
    simp [rewrite,SwTmrs.idlePhase,hst,hp,SwTmrs.view]
  have hn : s.next c k=({s.wheel with
      tmrs := s.wheel.tmrs.modCb i fun b => rewrite b n k.idate k.period},
      .inl {k with stage:=.start}) := by
    simp [next,h.timer,hs]
  have ht : SwTmrs.Tidy s.wheel.tmrs (s.wheel.tmrs.modCb i fun b => rewrite b n k.idate k.period) :=
    SwTmrs.tidy_update (f:=s.wheel.tmrs.freeList) fun _ => by simp [SwTmrs.Served,rewrite]
  refine .further _ _ _ (go_eq_of_next hc hn) ⟨rfl,rfl⟩ (by simp [partsLeft,hs]) hm ht
    ⟨⟨by simp,by simp⟩,rfl,rfl⟩ ?_
  change (s.wheel.tmrs.modCb i fun b => rewrite b n k.idate k.period).view i=_
  rw [hm.view,update_self,now_onTimer ht]

lemma InCall.goStart (hs : k.stage=.start) : Advanced c s k i e := by
  have hreach : s.wheel.tmrs.view i =
      ⟨.created (e-s.now).toNat,.loop,k.period.toNat,.osDelieverSigPeriod,k.tsk⟩ := by
    simpa only [Reached,hs] using h.reached
  have hst := SwTmrs.phase_created (congrArg phase hreach)
  have hknown : ¬c.maxNum ≤ i := Nat.not_le.mpr (hk.ok.wheel.known i (by simp [hst]))
  have hleft : (e-s.now).toNat≠0 := by
    intro hz
    have hsub : e-s.now=0#32 := BitVec.eq_of_toNat_eq hz
    exact h.ahead (BitVec.sub_eq_iff_eq_add.mp hsub |>.trans (BitVec.zero_add _))
  have hn : s.next c k=(s.wheel.step c (.start i),.inr .ok) := by
    simp [next,h.timer,hs,SwTmrs.osSwTmrStartTimer,hknown,hst]
  have hm := hk.ok.wheel.startTimer (i:=i)
  rw [hreach] at hm
  simp only [start,if_neg hleft] at hm
  exact .done _ (go_eq_of_ret hc hn) (by simp [partsLeft,hs]) hm SwTmrs.tidy_startTimer

lemma InCall.go : Advanced c s k i e := by
  cases hs : k.stage with
  | check => exact h.goCheck hk hc hs
  | stop => exact h.goStop hk hc hs
  | clock => exact h.goClock hk hc hs
  | write n => exact h.goWrite hk hc hs
  | start => exact h.goStart hk hc hs

omit hk hc in
lemma InCall.further {k' : SetCall} {t : SwTmrs} (hsame : k'.tsk=k.tsk ∧ k'.period=k.period)
    (ht : SwTmrs.Tidy s.wheel.tmrs t) (hreach : Reached (s.onTimer t [k'] s.rets) k' i e) :
    InCall (s.onTimer t [k'] s.rets) k' i e where
  timer := by rw [hsame.1]; exact h.timer
  period := by rw [hsame.2]; exact h.period
  wrap := h.wrap
  ahead := by rw [now_onTimer ht]; exact h.ahead
  still := h.still
  reached := hreach

lemma InCall.kept_go : Kept c (s.go c 0) := by
  cases h.go hk hc with
  | further k' t m heq hsame hleft hm ht hown hreach =>
    rw [heq]
    exact hk.onTimer h.timer hm ht hown (.inr ⟨k',i,e,rfl,h.further hsame ht hreach⟩)
  | done t heq hleft hm ht =>
    rw [heq]
    exact hk.onTimer h.timer hm ht ⟨⟨by simp,by simp⟩,rfl,rfl⟩ (.inl rfl)

omit hk hc h

lemma InCall.finish (n : Nat) (hk : Kept c s) (hc : s.calls=[k]) (h : InCall s k i e)
    (hn : partsLeft k.stage=n) :
    ∃ t, (machine c).run s (List.replicate n (.go 0))=s.onTimer t [] (.ok::s.rets) ∧
      t.view i=⟨.running (e-s.now).toNat,.loop,k.period.toNat,.osDelieverSigPeriod,k.tsk⟩ ∧
      SwTmrs.Tidy s.wheel.tmrs t := by
  induction n generalizing s k with
  | zero => cases hs : k.stage <;> simp [partsLeft,hs] at hn
  | succ n ih =>
    have hrun : (machine c).run s (List.replicate (n+1) (.go 0)) =
        (machine c).run (s.go c 0) (List.replicate n (.go 0)) := rfl
    cases h.go hk hc with
    | further k' t m heq hsame hleft hm ht hown hreach =>
      have hkept := h.kept_go hk hc
      rw [heq] at hrun hkept
      obtain ⟨t',hend,hview,ht'⟩ := ih hkept rfl (h.further hsame ht hreach) (by omega)
      rw [now_onTimer ht,hsame.1,hsame.2] at hview
      exact ⟨t',hrun.trans hend,hview,ht.trans ht'⟩
    | done t heq hleft hm ht =>
      have hz : n=0 := by omega
      subst hz
      refine ⟨t,hrun.trans heq,?_,ht⟩
      rw [hm.view,update_self]

end Call

lemma Kept.start (ticksOffset : BitVec 64) : Kept c (init c ticksOffset) where
  ok := WheelRun.RunOk.start
  clean := ⟨fun j => by simp [SwTmrs.Served,init,SwTmrs.init],rfl⟩
  flag _ := rfl
  mine _ _ h := by cases h
  only i hf := absurd rfl hf
  call := .inl rfl

lemma Kept.go (h : Kept c s) (n : Nat) : Kept c (s.go c n) := by
  rcases h.call with hc | ⟨k,i,e,hc,hin⟩
  . rw [go_of_idle hc]
    exact h
  cases n with
  | zero => exact hin.kept_go h hc
  | succ n =>
    rw [go_succ hc]
    exact h

lemma event_create_handler {new : Countdown}
    (he : s.wheel.event c x i=.create new) (hx : s.Plain x) :
    new.handler≠.osDelieverSigPeriod := by
  cases x with
  | create p =>
    cases hcr : s.wheel.tmrs.created c p with
    | none => simp [WheelRun.event,hcr] at he
    | some r =>
      have hnew : r.2=new := by
        simp only [WheelRun.event,hcr] at he
        split at he
        . exact TmrEvent.create.inj he
        cases he
      rintro hh
      have hf := SwTmrs.created_handler hcr
      rw [hnew,hh] at hf
      exact hx hf
  | call => cases he
  | _ =>
    simp only [WheelRun.event] at he
    split at he <;> simp at he

lemma event_spares (hx : s.Plain x)
    (hh : (s.wheel.tmrs.view i).handler=.osDelieverSigPeriod) : WheelRun.Keeps i x := by
  cases x with
  | stop | restart | delete => exact fun hji => hx (hji ▸ hh)
  | _ => trivial

lemma timer_rest (x : TmrInput) : (s.timer c x).wheel=s.wheel.step c x ∧
    (s.timer c x).itimer=s.itimer ∧ (s.timer c x).setPeriodic=s.setPeriodic ∧
    (s.timer c x).calls=s.calls ∧ (s.timer c x).rets=s.rets ∧
    (s.timer c x).ticksOffset=s.ticksOffset := by
  unfold timer
  cases s.released x <;> exact ⟨rfl,rfl,rfl,rfl,rfl,rfl⟩

lemma Kept.timer (h : Kept c s) (hx : Regular c s (.timer x)) :
    Kept c (s.timer c x) := by
  obtain ⟨hidle,hplain⟩ := hx
  obtain ⟨hwheel,hitimer,hflag,hcalls,-,-⟩ := timer_rest (c:=c) (s:=s) x
  obtain ⟨hok,hview⟩ := h.ok.step x
  refine ⟨hwheel ▸ hok,hwheel ▸ h.clean.step h.ok,?_,?_,?_,.inl (hcalls.trans hidle)⟩
  . rw [hflag,hitimer]
    exact h.flag
  . rw [hitimer,hwheel]
    intro tsk i hi
    obtain ⟨hlast,hh,ha⟩ := h.mine tsk i hi
    have hnew : ∀ new, s.wheel.event c x i≠.create new :=
      fun new he => hlast.1 (h.ok.event_create he)
    have hkeeps := WheelRun.event_of_keeps (c:=c) (w:=s.wheel) (event_spares hplain hh)
    obtain ⟨hsh,hsa,-⟩ := act_static (k:=s.wheel.tmrs.view i) hnew
    rw [hview i]
    exact ⟨act_lasting hlast hnew hkeeps.2.2,hsh.trans hh,hsa.trans ha⟩
  rw [hitimer,hwheel]
  intro i
  rw [hview i]
  by_cases hcr : ∃ new, s.wheel.event c x i=.create new
  . obtain ⟨new,he⟩ := hcr
    rw [he]
    exact fun _ hh => absurd hh (event_create_handler he hplain)
  obtain ⟨hsh,hsa,hfree⟩ := act_static (k:=s.wheel.tmrs.view i) fun new he => hcr ⟨new,he⟩
  rw [hsh,hsa]
  exact fun hf hh => h.only i (fun h0 => hf (hfree h0)) hh

lemma Kept.overrun (h : Kept c s) (hi : s.itimer tsk=some i) (ho : s.wheel.outLink=[]) :
    (s.wheel.tmrs.cb i).overrun=0 := by
  apply h.clean.served i
  have hcases := h.phase_cases hi (by simp [ho])
  unfold SwTmrs.view at hcases
  cases hst : (s.wheel.tmrs.cb i).state <;> simp_all

lemma Kept.wait_eq (h : Kept c s) (hi : s.itimer tsk=some i)
    (hp : s.sigPending tsk=true) (ho : s.wheel.outLink=[]) :
    s.prtTaskWaitPeriod tsk=(some (.ok,some 0),{s with
      sigPending := update s.sigPending tsk false
      passed := update s.passed tsk 0}) := by
  have hover := h.overrun hi ho
  have hflag : s.setPeriodic tsk=true := by rw [h.flag,hi]; rfl
  have hsame : (s.wheel.tmrs.modCb i fun b => {b with overrun:=0})=s.wheel.tmrs := by
    have hcb : {s.wheel.tmrs.cb i with overrun:=0} = s.wheel.tmrs.cb i := by
      rw [← hover]
    have hall := (congrArg (update s.wheel.tmrs.cb i) hcb).trans (update_eq_self i s.wheel.tmrs.cb)
    exact congrArg (fun cb => {s.wheel.tmrs with cb:=cb}) hall
  unfold prtTaskWaitPeriod
  rw [if_neg (by simp [hflag]),if_pos ⟨hp,ho⟩]
  simp only [hi,hsame,hover,if_true]

lemma Kept.wait_cases (h : Kept c s) (tsk : BitVec 32) :
    (s.itimer tsk=none ∧ s.prtTaskWaitPeriod tsk=(some (.ewouldblock,none),s)) ∨
    (s.prtTaskWaitPeriod tsk=(none,s)) ∨ s.prtTaskWaitPeriod tsk=(some (.ok,some 0),{s with
      sigPending := update s.sigPending tsk false
      passed := update s.passed tsk 0}) := by
  cases hi : s.itimer tsk with
  | none => exact .inl ⟨rfl,by simp [prtTaskWaitPeriod,h.flag,hi]⟩
  | some i =>
    right
    by_cases hgo : s.sigPending tsk=true ∧ s.wheel.outLink=[]
    . exact .inr (h.wait_eq hi hgo.1 hgo.2)
    exact .inl (by simp [prtTaskWaitPeriod,h.flag,hi,hgo])

lemma Kept.of_signals (h : Kept c s) (sp : BitVec 32 → Bool) (ps : BitVec 32 → Nat) :
    Kept c {s with sigPending:=sp, passed:=ps} where
  ok := h.ok
  clean := h.clean
  flag := h.flag
  mine := h.mine
  only := h.only
  call := by
    rcases h.call with hc | ⟨k,i,e,hc,hin⟩
    . exact .inl hc
    refine .inr ⟨k,i,e,hc,{hin with reached := ?_}⟩
    have hr := hin.reached
    exact hr

section Enter

variable {caller taskPid idate period : BitVec 32}

lemma tskOf_eq (h : taskPid≠0 ∨ caller=0) : tskOf caller taskPid=taskPid := by
  unfold tskOf
  split
  . rename_i h0
    rw [h0]
    exact h.resolve_left (fun hne => hne h0)
  rfl

def firstRelease (s : PeriodRun) (idate period : BitVec 32) : BitVec 32 :=
  if idate=0 then s.now+period else idate

lemma paraChk_period (taskPid : BitVec 32) (hr : c.tickPerSecond%1000=0) (hlt : c.tickPerSecond<2^32) :
    SwTmrs.osSwTmrCreateTimerParaChk c (periodPara taskPid)=.ok := by
  have hfit : ¬1000*(2^32-1)/c.tickPerSecond<1 := by
    have hpos := c.tickInit
    rw [Nat.div_lt_iff_lt_mul hpos]
    omega
  simp only [SwTmrs.osSwTmrCreateTimerParaChk,periodPara,Option.isNone_some]
  simp [hr] at hfit ⊢
  omega

/-- A call that has begun: its task has a timer, and nothing else has happened. -/
structure Entered (c : TmrCfg) (s s' : PeriodRun) (tsk idate period : BitVec 32) (i : Nat) :
    Prop where
  kept : Kept c s'
  calls : s'.calls=[⟨tsk,idate,period,.check⟩]
  inCall : InCall s' ⟨tsk,idate,period,.check⟩ i (s.firstRelease idate period)
  wheel : s'.wheel=s.wheel ∨ s'.wheel=s.wheel.step c (.create (periodPara tsk))
  scans : s'.wheel.scans=s.wheel.scans
  handled : s'.wheel.calls=s.wheel.calls
  now : s'.now=s.now
  rets : s'.rets=s.rets
  sigalrms : s'.sigalrms=s.sigalrms
  others : ∀ u, u≠tsk → s'.itimer u=s.itimer u

lemma inCall_check (hp : period≠0)
    (hd : idate=0 ∧ s.now+period≠0 ∨ s.now < idate) (hnow : s'.now=s.now)
    (hi : s'.itimer tsk=some i) (ho : i∉s'.wheel.outLink) :
    InCall s' ⟨tsk,idate,period,.check⟩ i (s.firstRelease idate period) := by
  have hp' : period≠0#32 := hp
  unfold firstRelease
  rcases hd with ⟨h0,hwrap⟩ | hlt
  . rw [if_pos h0]
    refine ⟨hi,hp,hwrap,?_,ho,.inl ⟨h0,by rw [hnow]⟩⟩
    rw [hnow]
    intro heq
    exact hp' (by simpa using heq)
  have h0 : idate≠0 := by
    rintro rfl
    exact absurd hlt (BitVec.not_lt_zero)
  rw [if_neg h0]
  refine ⟨hi,hp,h0,?_,ho,.inr ⟨by rw [hnow]; exact hlt,rfl⟩⟩
  rw [hnow]
  exact (BitVec.ne_of_lt hlt).symm

lemma Kept.enter_old (h : Kept c s) (hx : Regular c s (.setPeriodic caller taskPid idate period))
    (hi : s.itimer taskPid=some i) :
    Entered c s (s.enter c caller taskPid idate period) taskPid idate period i := by
  obtain ⟨hidle,hpid,hp,hd,-,-,hout⟩ := hx
  rw [tskOf_eq hpid] at hout
  have heq : s.enter c caller taskPid idate period =
      s.onTimer s.wheel.tmrs [⟨taskPid,idate,period,.check⟩] s.rets := by
    simp [enter,tskOf_eq hpid,hi,hidle]
    rfl
  have hin : InCall (s.onTimer s.wheel.tmrs [⟨taskPid,idate,period,.check⟩] s.rets)
      ⟨taskPid,idate,period,.check⟩ i (s.firstRelease idate period) :=
    inCall_check hp hd rfl hi (hout i hi)
  rw [heq]
  exact ⟨h.onTimer hi (h.ok.wheel.unmoved rfl) .refl (h.mine taskPid i hi)
    (.inr ⟨_,i,_,rfl,hin⟩),rfl,hin,.inl rfl,rfl,rfl,rfl,rfl,rfl,fun _ _ => rfl⟩

lemma Kept.enter_new (h : Kept c s) (hx : Regular c s (.setPeriodic caller taskPid idate period))
    (hi : s.itimer taskPid=none) {l : List Nat} (hl : s.wheel.tmrs.freeList=i::l) :
    Entered c s (s.enter c caller taskPid idate period) taskPid idate period i := by
  obtain ⟨hidle,hpid,hp,hd,hrate,hlt,-⟩ := hx
  have hchk := paraChk_period (c:=c) taskPid hrate hlt
  have hcreate : s.wheel.tmrs.prtTimerCreate c (periodPara taskPid) =
      (.ok,i,{s.wheel.tmrs with freeList:=l}.osSwTmrCreateTimerCbInit i
        (periodPara taskPid) .loop .osDelieverSigPeriod
        (BitVec.ofNat 32 (c.tickPerSecond*(periodPara taskPid).interval.toNat/1000))) := by
    simp [SwTmrs.prtTimerCreate,hl,hchk]
    simp [periodPara]
  have heq : s.enter c caller taskPid idate period={s with
      wheel := s.wheel.step c (.create (periodPara taskPid))
      itimer := update s.itimer taskPid (some i)
      setPeriodic := update s.setPeriodic taskPid true
      calls := [⟨taskPid,idate,period,.check⟩]} := by
    simp [enter,tskOf_eq hpid,hi,hidle,h.flag,hcreate]
  have hcreated : s.wheel.tmrs.created c (periodPara taskPid)=some (i,
      ⟨.created (c.tickPerSecond/1000),.loop,c.tickPerSecond/1000,.osDelieverSigPeriod,
        taskPid⟩) := by
    simp [SwTmrs.created,hcreate]
    simp [periodPara]
  obtain ⟨hok,hview⟩ := h.ok.step (.create (periodPara taskPid))
  have hnew : (s.wheel.step c (.create (periodPara taskPid))).tmrs.view i =
      ⟨.created (c.tickPerSecond/1000),.loop,c.tickPerSecond/1000,.osDelieverSigPeriod,
        taskPid⟩ := by
    rw [hview]
    simp [WheelRun.event,hcreated,act]
  have hold (j : Nat) (hj : j≠i) : (s.wheel.step c (.create (periodPara taskPid))).tmrs.view j =
      s.wheel.tmrs.view j := by
    rw [hview]
    simp [WheelRun.event,hcreated,act,Ne.symm hj]
  have hfree : (s.wheel.tmrs.view i).phase=.free := by
    obtain ⟨hst,-⟩ := (h.ok.wheel.free i).mp (hl ▸ List.mem_cons_self)
    simp [SwTmrs.view,hst]
  have hout : i∉s.wheel.outLink := by
    intro hmem
    obtain ⟨pre,hpre⟩ := h.ok.mem_outLink.mp hmem
    rw [hfree] at hpre
    cases hpre
  have hnow : (s.enter c caller taskPid idate period).now=s.now := by
    rw [heq]
    exact congrArg (fun n => (s.tickCount n).setWidth 32)
      (SwTmrs.tidy_create (c:=c) (t:=s.wheel.tmrs) (periodPara taskPid)).ticks
  have hin : InCall (s.enter c caller taskPid idate period) ⟨taskPid,idate,period,.check⟩ i
      (s.firstRelease idate period) :=
    inCall_check hp hd hnow (by rw [heq]; exact update_self ..) (by rw [heq]; exact hout)
  have hcalls : (s.enter c caller taskPid idate period).calls =
      [⟨taskPid,idate,period,.check⟩] := by rw [heq]
  have hkept : Kept c (s.enter c caller taskPid idate period) := by
    have hcall : (s.enter c caller taskPid idate period).calls=[] ∨
        ∃ k i e, (s.enter c caller taskPid idate period).calls=[k] ∧
          InCall (s.enter c caller taskPid idate period) k i e :=
      .inr ⟨_,i,_,hcalls,hin⟩
    rw [heq] at hcall ⊢
    refine ⟨hok,h.clean.step (x:=.create (periodPara taskPid)) h.ok,?_,?_,?_,hcall⟩
    . intro u
      by_cases hu : u=taskPid
      . subst hu
        simp
      simpa [hu] using h.flag u
    . intro u j hj
      by_cases hu : u=taskPid
      . subst hu
        have hji : i=j := by simpa using hj
        subst hji
        rw [hnew]
        exact ⟨⟨by simp,by simp⟩,rfl,rfl⟩
      have hj' : s.itimer u=some j := by simpa [hu] using hj
      have hown := h.mine u j hj'
      have hji : j≠i := by
        rintro rfl
        exact hown.1.1 hfree
      rw [hold j hji]
      exact hown
    intro j
    change ((s.wheel.step c (.create (periodPara taskPid))).tmrs.view j).phase≠_ →
      ((s.wheel.step c (.create (periodPara taskPid))).tmrs.view j).handler=_ →
      update s.itimer taskPid (some i)
        ((s.wheel.step c (.create (periodPara taskPid))).tmrs.view j).arg1=some j
    by_cases hji : j=i
    . subst hji
      rw [hnew]
      simp
    rw [hold j hji]
    intro hf hh
    have hj := h.only j hf hh
    have hne : (s.wheel.tmrs.view j).arg1≠taskPid := by
      intro heq'
      rw [heq',hi] at hj
      cases hj
    rw [update_of_ne hne]
    exact hj
  refine ⟨hkept,hcalls,hin,.inr ?_,?_,?_,hnow,?_,?_,?_⟩
  . rw [heq]
  . rw [heq]
    rfl
  . rw [heq]
    rfl
  . rw [heq]
  . rw [heq]
  intro u hu
  rw [heq]
  exact update_of_ne hu _ _

lemma Kept.enter_full (h : Kept c s) (hx : Regular c s (.setPeriodic caller taskPid idate period))
    (hi : s.itimer taskPid=none) (hl : s.wheel.tmrs.freeList=[]) :
    s.enter c caller taskPid idate period={s with rets:=.einval::s.rets} := by
  obtain ⟨-,hpid,-,-,hrate,hlt,-⟩ := hx
  have hchk := paraChk_period (c:=c) taskPid hrate hlt
  have hcreate : (s.wheel.tmrs.prtTimerCreate c (periodPara taskPid)).1=.maxSize := by
    simp [SwTmrs.prtTimerCreate,hl,hchk]
    simp [periodPara]
  simp [enter,tskOf_eq hpid,hi,h.flag,hcreate]

lemma Kept.enter (h : Kept c s) (hx : Regular c s (.setPeriodic caller taskPid idate period)) :
    (s.itimer taskPid=none ∧ s.wheel.tmrs.freeList=[] ∧
      s.enter c caller taskPid idate period={s with rets:=.einval::s.rets}) ∨
    (s.itimer taskPid≠none ∨ s.wheel.tmrs.freeList≠[]) ∧
      ∃ i, Entered c s (s.enter c caller taskPid idate period) taskPid idate period i := by
  cases hi : s.itimer taskPid with
  | some i => exact .inr ⟨.inl (by simp),i,h.enter_old hx hi⟩
  | none =>
    cases hl : s.wheel.tmrs.freeList with
    | nil => exact .inl ⟨rfl,rfl,h.enter_full hx hi hl⟩
    | cons i l => exact .inr ⟨.inr (by simp),i,h.enter_new hx hi hl⟩

end Enter

lemma Kept.step (h : Kept c s) {x : PeriodInput} (hx : Regular c s x) : Kept c (s.step c x) := by
  cases x with
  | timer x => exact h.timer hx
  | setPeriodic caller taskPid idate period =>
    rcases h.enter hx with ⟨-,-,heq⟩ | ⟨-,i,hent⟩
    . change Kept c (s.enter c caller taskPid idate period)
      rw [heq]
      exact {h with call:=.inl hx.1}
    exact hent.kept
  | go n => exact h.go n
  | waitPeriod tsk =>
    change Kept c (s.prtTaskWaitPeriod tsk).2
    rcases h.wait_cases tsk with ⟨-,heq⟩ | heq | heq
    . rw [heq]
      exact h
    . rw [heq]
      exact h
    rw [heq]
    exact h.of_signals _ _
  | sigHandled tsk => exact h.of_signals _ s.passed

lemma kept_of_reaches (hs : (machine c).Reaches (Regular c) s) : Kept c s :=
  hs.invariant (fun _ ⟨o,ho⟩ => ho ▸ Kept.start o) fun _ _ h hx => h.step hx

end PeriodRun

end UniProton
