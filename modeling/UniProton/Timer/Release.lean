import UniProton.Timer.PeriodSteps

namespace UniProton

open Framework

namespace PeriodRun

variable {c : TmrCfg} {s s' : PeriodRun} {tsk : BitVec 32} {i : Nat}

variable {x : TmrInput} {j : Nat}

lemma released_some (h : s.released x=some j) :
    s.wheel.Enters x j ∧ (s.wheel.tmrs.view j).handler=.osDelieverSigPeriod := by
  unfold released at h
  split at h
  . rename_i i l hout hcalled
    split at h
    . rename_i hh
      have hij := Option.some.inj h
      subst hij
      exact ⟨⟨rfl,by simp [hout],hcalled⟩,hh⟩
    cases h
  cases h

lemma released_of_enters (h : s.wheel.Enters x j)
    (hh : (s.wheel.tmrs.view j).handler=.osDelieverSigPeriod) : s.released x=some j := by
  obtain ⟨rfl,hhead,hcalled⟩ := h
  have hh' : (s.wheel.tmrs.cb j).handler=.osDelieverSigPeriod := hh
  cases hout : s.wheel.outLink with
  | nil => simp [hout] at hhead
  | cons i l =>
    have hij : i=j := by simpa [hout] using hhead
    subst hij
    simp [released,hout,hcalled,hh']

lemma sigalrmsOf_timer (x : TmrInput) (u : BitVec 32) : (s.timer c x).sigalrmsOf u =
    match s.released x with
    | some j =>
      if (s.wheel.tmrs.view j).arg1=u then s.wheel.scans::s.sigalrmsOf u else s.sigalrmsOf u
    | none => s.sigalrmsOf u := by
  unfold timer
  cases s.released x with
  | none => rfl
  | some j =>
    by_cases hu : (s.wheel.tmrs.cb j).arg1=u
    . simp [sigalrmsOf,prtSignalDeliver,SwTmrs.view,hu]
    simp [sigalrmsOf,prtSignalDeliver,SwTmrs.view,hu]

lemma Kept.released_owner (h : Kept c s) (hr : s.released x=some j) :
    s.itimer (s.wheel.tmrs.view j).arg1=some j := by
  obtain ⟨hent,hh⟩ := released_some hr
  obtain ⟨pre,hpre⟩ := h.ok.mem_outLink.mp hent.pending.1
  exact h.only j (by simp [hpre]) hh

def Leaves (tsk : BitVec 32) : PeriodInput → Prop
  | .setPeriodic caller taskPid _ _ => tskOf caller taskPid≠tsk
  | _ => True

/-- The timer of a task goes round, and every call of its handler is a release. -/
structure Beating (c : TmrCfg) (tsk : BitVec 32) (i d p : Nat) (base log : List Nat)
    (s : PeriodRun) : Prop where
  timer : s.itimer tsk=some i
  apart : ∀ k∈s.calls, k.tsk≠tsk
  cycle : ∃ k, WheelRun.Cycle c i d p base k s.wheel
  alarms : ∃ l, s.wheel.callsOf i=l++base ∧ s.sigalrmsOf tsk=l++log

section Beating

variable {d p : Nat} {base log : List Nat}

lemma Beating.stepTimer (hk : Kept c s) {x : TmrInput} (hx : s.Plain x)
    (h : Beating c tsk i d p base log s) : Beating c tsk i d p base log (s.timer c x) := by
  obtain ⟨hwheel,hitimer,-,hcalls,-,-⟩ := timer_rest (c:=c) (s:=s) x
  obtain ⟨-,hh,ha⟩ := hk.mine tsk i h.timer
  obtain ⟨k,hcycle⟩ := h.cycle
  obtain ⟨l,hl,hlog⟩ := h.alarms
  refine ⟨hitimer ▸ h.timer,hcalls ▸ h.apart,?_,?_⟩
  . exact hcycle.step hk.ok (event_spares hx hh)
  rw [hwheel,sigalrmsOf_timer]
  cases hr : s.released x with
  | none =>
    have hnot : ¬s.wheel.Enters x i := by
      intro hent
      rw [released_of_enters hent hh] at hr
      cases hr
    exact ⟨l,(WheelRun.callsOf_step_of_not_enters hnot).trans hl,hlog⟩
  | some j =>
    obtain ⟨hent,-⟩ := released_some hr
    have howner := hk.released_owner hr
    by_cases hji : j=i
    . subst hji
      refine ⟨s.wheel.scans::l,?_,?_⟩
      . rw [(WheelRun.callsOf_step_of_enters hent).1,hl]
        rfl
      simp only [ha,if_true,hlog]
      rfl
    have hne : (s.wheel.tmrs.view j).arg1≠tsk := by
      intro heq
      rw [heq,h.timer] at howner
      exact hji (Option.some.inj howner).symm
    have hnot : ¬s.wheel.Enters x i := by
      intro hent'
      have hhead := hent'.2.1
      rw [hent.2.1] at hhead
      exact hji (Option.some.inj hhead)
    simp only [hne,if_false]
    exact ⟨l,(WheelRun.callsOf_step_of_not_enters hnot).trans hl,hlog⟩

lemma Beating.onTimer {j : Nat} {t : SwTmrs} {m : Countdown} {calls : List SetCall}
    {rets : List PeriodRet} (h : Beating c tsk i d p base log s) (hj : j≠i)
    (hm : SwTmrs.Moved c s.wheel.tmrs j m t s.wheel.outLink) (hc : ∀ k∈calls, k.tsk≠tsk) :
    Beating c tsk i d p base log (s.onTimer t calls rets) := by
  obtain ⟨k,hcycle⟩ := h.cycle
  have hview : t.view i=s.wheel.tmrs.view i := by
    rw [hm.view,Function.update_of_ne (Ne.symm hj)]
  refine ⟨h.timer,hc,⟨k,?_,?_,?_⟩,h.alarms⟩
  . change (t.view i).mode=_
    rw [hview]
    exact hcycle.loop
  . change (t.view i).interval=_
    rw [hview]
    exact hcycle.interval
  have hstage := hcycle.stage
  rw [← hview] at hstage
  exact hstage

lemma Beating.stepGo (hk : Kept c s) (n : Nat) (h : Beating c tsk i d p base log s) :
    Beating c tsk i d p base log (s.go c n) := by
  rcases hk.call with hc | ⟨k,j,e,hc,hin⟩
  . rw [go_of_idle hc]
    exact h
  have hne : k.tsk≠tsk := h.apart k (by simp [hc])
  have hji : j≠i := by
    rintro rfl
    exact hne (hk.tsk_eq h.timer hin.timer)
  cases n with
  | zero =>
    cases hin.go hk hc with
    | further k' t m heq hsame hleft hm ht hown hreach =>
      rw [heq]
      refine h.onTimer hji hm fun k'' hk'' => ?_
      rw [List.mem_singleton.mp hk'',hsame.1]
      exact hne
    | done t heq hleft hm ht =>
      rw [heq]
      exact h.onTimer hji hm (by simp)
  | succ n =>
    rw [go_succ hc]
    exact h

lemma Beating.step (hk : Kept c s) {x : PeriodInput} (hx : Regular c s x) (hl : Leaves tsk x)
    (h : Beating c tsk i d p base log s) : Beating c tsk i d p base log (s.step c x) := by
  cases x with
  | timer x => exact h.stepTimer hk hx.2
  | setPeriodic caller taskPid idate period =>
    have hne : taskPid≠tsk := tskOf_eq hx.2.1 ▸ hl
    rcases hk.enter hx with ⟨-,-,heq⟩ | ⟨-,j,hent⟩
    . change Beating c tsk i d p base log (s.enter c caller taskPid idate period)
      rw [heq]
      exact ⟨h.timer,h.apart,h.cycle,h.alarms⟩
    obtain ⟨l,hcalls,hlog⟩ := h.alarms
    refine ⟨(hent.others tsk (Ne.symm hne)).trans h.timer,?_,?_,l,?_,?_⟩
    . intro k hkmem
      rw [show (s.step c (.setPeriodic caller taskPid idate period)).calls=_ from hent.calls,
        List.mem_singleton] at hkmem
      rw [hkmem]
      exact hne
    . rcases hent.wheel with heq | heq
      . change ∃ k, WheelRun.Cycle c i d p base k (s.enter c caller taskPid idate period).wheel
        rw [heq]
        exact h.cycle
      obtain ⟨k,hcycle⟩ := h.cycle
      change ∃ k, WheelRun.Cycle c i d p base k (s.enter c caller taskPid idate period).wheel
      rw [heq]
      exact hcycle.step hk.ok trivial
    . exact (congrArg (fun l => (l.filter (·.2=i)).map (·.1)) hent.handled).trans hcalls
    exact (congrArg (fun l => (l.filter (·.2=tsk)).map (·.1)) hent.sigalrms).trans hlog
  | go n => exact h.stepGo hk n
  | waitPeriod u =>
    change Beating c tsk i d p base log (s.prtTaskWaitPeriod u).2
    rcases hk.wait_cases u with ⟨-,heq⟩ | heq | heq
    . rw [heq]
      exact h
    . rw [heq]
      exact h
    rw [heq]
    exact ⟨h.timer,h.apart,h.cycle,h.alarms⟩
  | sigHandled u => exact ⟨h.timer,h.apart,h.cycle,h.alarms⟩

lemma Beating.run (hk : Kept c s) (h : Beating c tsk i d p base log s) (is : List PeriodInput)
    (his : (machine c).Allowed (fun s x => Regular c s x ∧ Leaves tsk x) s is) :
    Kept c ((machine c).run s is) ∧ Beating c tsk i d p base log ((machine c).run s is) :=
  his.invariant (P:=fun s => Kept c s ∧ Beating c tsk i d p base log s) ⟨hk,h⟩
    fun _ _ ⟨hk,h⟩ ⟨hx,hl⟩ => ⟨hk.step hx,h.step hk hx hl⟩

end Beating

lemma Kept.step_of_not_periodic (h : Kept c s) {x : PeriodInput} (hx : Regular c s x)
    (hu : (s.step c x).setPeriodic tsk=false) :
    s.setPeriodic tsk=false ∧ (s.step c x).sigalrmsOf tsk=s.sigalrmsOf tsk := by
  cases x with
  | timer x =>
    have hflag : s.setPeriodic tsk=false := by
      rw [← hu]
      exact (congrFun (timer_rest (c:=c) x).2.2.1 tsk).symm
    refine ⟨hflag,(sigalrmsOf_timer x tsk).trans ?_⟩
    cases hr : s.released x with
    | none => rfl
    | some j =>
      have howner := h.released_owner hr
      have hne : (s.wheel.tmrs.view j).arg1≠tsk := by
        intro heq
        rw [h.flag,← heq,howner] at hflag
        cases hflag
      simp only [hne,if_false]
  | setPeriodic caller taskPid idate period =>
    rcases h.enter hx with ⟨-,-,heq⟩ | ⟨-,j,hent⟩
    . have hu' : (s.enter c caller taskPid idate period).setPeriodic tsk=false := hu
      rw [heq] at hu'
      refine ⟨hu',?_⟩
      change (s.enter c caller taskPid idate period).sigalrmsOf tsk=_
      rw [heq]
      rfl
    have hnone : (s.enter c caller taskPid idate period).itimer tsk=none := by
      have hflag := hent.kept.flag tsk
      rw [show (s.enter c caller taskPid idate period).setPeriodic tsk=false from hu] at hflag
      exact Option.not_isSome_iff_eq_none.mp (by simp [← hflag])
    have hne : tsk≠taskPid := by
      rintro rfl
      rw [hent.inCall.timer] at hnone
      cases hnone
    refine ⟨?_,?_⟩
    . rw [h.flag,← hent.others tsk hne,hnone]
      rfl
    exact congrArg (fun l => (l.filter (·.2=tsk)).map (·.1)) hent.sigalrms
  | go n =>
    change (s.go c n).setPeriodic tsk=false at hu
    change _ ∧ (s.go c n).sigalrmsOf tsk=_
    rcases h.call with hc | ⟨k,j,e,hc,hin⟩
    . rw [go_of_idle hc] at hu ⊢
      exact ⟨hu,rfl⟩
    cases n with
    | zero =>
      cases hin.go h hc with
      | further k' t m heq =>
        rw [heq] at hu ⊢
        exact ⟨hu,rfl⟩
      | done t heq =>
        rw [heq] at hu ⊢
        exact ⟨hu,rfl⟩
    | succ n =>
      rw [go_succ hc] at hu ⊢
      exact ⟨hu,rfl⟩
  | waitPeriod u =>
    change (s.prtTaskWaitPeriod u).2.setPeriodic tsk=false at hu
    change _ ∧ (s.prtTaskWaitPeriod u).2.sigalrmsOf tsk=_
    rcases h.wait_cases u with ⟨-,heq⟩ | heq | heq <;>
      rw [heq] at hu ⊢ <;> exact ⟨hu,rfl⟩
  | sigHandled u => exact ⟨hu,rfl⟩

lemma Kept.run_of_not_periodic (h : Kept c s) (is : List PeriodInput)
    (his : (machine c).Allowed (Regular c) s is)
    (hu : ((machine c).run s is).setPeriodic tsk=false) :
    s.setPeriodic tsk=false ∧ ((machine c).run s is).sigalrmsOf tsk=s.sigalrmsOf tsk := by
  induction is generalizing s with
  | nil => exact ⟨hu,rfl⟩
  | cons x is ih =>
    obtain ⟨hx,hrest⟩ := his
    obtain ⟨hmid,hsame⟩ := ih (h.step hx) hrest hu
    obtain ⟨hstart,hfirst⟩ := h.step_of_not_periodic hx hmid
    exact ⟨hstart,hsame.trans hfirst⟩

lemma tickCount_release (h : s.wheel.Clean) (e : BitVec 32) :
    (s.tickCount (s.wheel.scans+(e-s.now).toNat)).setWidth 32=e := by
  have hnow : s.now=(s.tickCount s.wheel.scans).setWidth 32 := by
    unfold now tickCount
    rw [h.ticks]
    apply BitVec.eq_of_toNat_eq
    simp only [BitVec.toNat_setWidth,BitVec.toNat_add,BitVec.toNat_ofNat]
    omega
  have hadd : (s.tickCount (s.wheel.scans+(e-s.now).toNat)).setWidth 32=s.now+(e-s.now) := by
    rw [hnow]
    generalize hdiff : e-BitVec.setWidth 32 (s.tickCount s.wheel.scans)=diff
    unfold tickCount
    apply BitVec.eq_of_toNat_eq
    simp only [BitVec.toNat_setWidth,BitVec.toNat_add,BitVec.toNat_ofNat]
    omega
  rw [hadd]
  apply BitVec.eq_of_toNat_eq
  simp only [BitVec.toNat_add,BitVec.toNat_sub]
  omega

section Calls

variable {caller taskPid idate period : BitVec 32}

lemma allowed_go (n : Nat) : ∀ s, (machine c).Allowed (Regular c) s (List.replicate n (.go 0)) := by
  induction n with
  | zero => exact fun _ => trivial
  | succ n ih => exact fun s => ⟨trivial,ih _⟩

lemma run_go_idle (hc : s.calls=[]) (n : Nat) : (machine c).run s (List.replicate n (.go 0))=s := by
  induction n with
  | zero => rfl
  | succ n ih =>
    change (machine c).run (s.go c 0) (List.replicate n (.go 0))=s
    rw [go_of_idle hc]
    exact ih

/-- How a whole call ends. -/
inductive Answered (c : TmrCfg) (s s' : PeriodRun) (tsk idate period : BitVec 32) : Prop
  | failed (heq : s'={s with rets:=.einval::s.rets}) (hi : s.itimer tsk=none)
      (hl : s.wheel.tmrs.freeList=[])
  | set (i : Nat) (hrets : s'.rets=.ok::s.rets) (hi : s'.itimer tsk=some i)
      (hscans : s'.wheel.scans=s.wheel.scans) (hcalls : s'.wheel.calls=s.wheel.calls)
      (hsig : s'.sigalrms=s.sigalrms)
      (hview : s'.wheel.tmrs.view i=⟨.running (s.firstRelease idate period-s.now).toNat,.loop,
        period.toNat,.osDelieverSigPeriod,tsk⟩)

lemma Kept.setCall (h : Kept c s) (hx : Regular c s (.setPeriodic caller taskPid idate period)) :
    ((machine c).run s (setCall caller taskPid idate period)).calls=[] ∧
      Answered c s ((machine c).run s (setCall caller taskPid idate period)) taskPid idate
        period := by
  have hrun : (machine c).run s (PeriodRun.setCall caller taskPid idate period) =
      (machine c).run (s.enter c caller taskPid idate period) (List.replicate 5 (.go 0)) := rfl
  rw [hrun]
  rcases h.enter hx with ⟨hi,hl,heq⟩ | ⟨-,i,hent⟩
  . have hidle : {s with rets:=.einval::s.rets}.calls=[] := hx.1
    rw [heq,run_go_idle hidle]
    exact ⟨hx.1,.failed rfl hi hl⟩
  obtain ⟨t,hend,hview,-⟩ := hent.inCall.finish 5 hent.kept hent.calls rfl
  rw [hend]
  rw [hent.now] at hview
  exact ⟨rfl,.set i (congrArg (PeriodRet.ok :: ·) hent.rets) hent.inCall.timer hent.scans
    hent.handled hent.sigalrms hview⟩

end Calls

/-- From `s` to `e` the task got `SIGALRM` in scan `d` and every `p` scans from there, in each of
them and in no other. -/
def ReleasedAt (s e : PeriodRun) (tsk : BitVec 32) (d p : Nat) : Prop :=
  ∃ k, e.sigalrmsOf tsk=WheelRun.firings d p k++s.sigalrmsOf tsk ∧
    e.wheel.scans≤d+k*p ∧ (e.wheel.outLink=[] → e.wheel.scans<d+k*p)

/-- After a call at `s` that left `s'`: the first release comes when the tick count is next what was
asked for, and tasks that are not periodic get none. -/
def KeepsTime (c : TmrCfg) (s s' : PeriodRun) (tsk idate period : BitVec 32) : Prop :=
  ∃ d, s.wheel.scans<d ∧ d<s.wheel.scans+2^32 ∧
    (s.tickCount d).setWidth 32=s.firstRelease idate period ∧
    ∀ is, (machine c).Allowed (fun s x => Regular c s x ∧ Leaves tsk x) s' is →
      ReleasedAt s ((machine c).run s' is) tsk d period.toNat ∧
      ∀ u, ((machine c).run s' is).setPeriodic u=false →
        ((machine c).run s' is).sigalrmsOf u=s.sigalrmsOf u

/-- The task is not periodic, and a later call succeeds when a timer is free. -/
def LeftAlone (c : TmrCfg) (s : PeriodRun) (tsk : BitVec 32) : Prop :=
  s.setPeriodic tsk=false ∧ s.itimer tsk=none ∧
    ∀ is caller taskPid idate period, (machine c).Allowed (Regular c) s is →
      Regular c ((machine c).run s is) (.setPeriodic caller taskPid idate period) →
      tskOf caller taskPid=tsk → ((machine c).run s is).wheel.tmrs.freeList≠[] →
      ((machine c).run ((machine c).run s is) (setCall caller taskPid idate period)).rets =
        .ok::((machine c).run s is).rets

lemma Kept.leftAlone (h : Kept c s) (hi : s.itimer tsk=none) : LeftAlone c s tsk := by
  refine ⟨by rw [h.flag,hi]; rfl,hi,?_⟩
  intro is caller taskPid idate period his hx _ hfree
  have hend : Kept c ((machine c).run s is) := his.invariant h fun _ _ hk hx => hk.step hx
  cases (hend.setCall hx).2 with
  | failed heq hi' hl => exact absurd hl hfree
  | set i hrets => exact hrets

lemma Kept.beating {idate period : BitVec 32} (hidle : s'.calls=[])
    (hi : s'.itimer tsk=some i) (hscans : s'.wheel.scans=s.wheel.scans)
    (hcalls : s'.wheel.calls=s.wheel.calls) (hsig : s'.sigalrms=s.sigalrms)
    (hview : s'.wheel.tmrs.view i=⟨.running (s.firstRelease idate period-s.now).toNat,.loop,
      period.toNat,.osDelieverSigPeriod,tsk⟩) :
    Beating c tsk i (s.wheel.scans+(s.firstRelease idate period-s.now).toNat) period.toNat
      (s.wheel.callsOf i) (s.sigalrmsOf tsk) s' := by
  have hcallsOf : s'.wheel.callsOf i=s.wheel.callsOf i :=
    congrArg (fun l => (l.filter (·.2=i)).map (·.1)) hcalls
  have hsigOf : s'.sigalrmsOf tsk=s.sigalrmsOf tsk :=
    congrArg (fun l => (l.filter (·.2=tsk)).map (·.1)) hsig
  have hphase := congrArg Countdown.phase hview
  refine ⟨hi,by simp [hidle],⟨0,?_,?_,.inl ⟨_,hphase,?_,hcallsOf⟩⟩,[],hcallsOf,hsigOf⟩
  . rw [hview]
  . rw [hview]
  omega

lemma Kept.keepsTime (h : Kept c s) (h' : Kept c s') {idate period : BitVec 32}
    (hidle : s'.calls=[]) (hi : s'.itimer tsk=some i)
    (hscans : s'.wheel.scans=s.wheel.scans) (hcalls : s'.wheel.calls=s.wheel.calls)
    (hsig : s'.sigalrms=s.sigalrms)
    (hview : s'.wheel.tmrs.view i=⟨.running (s.firstRelease idate period-s.now).toNat,.loop,
      period.toNat,.osDelieverSigPeriod,tsk⟩) : KeepsTime c s s' tsk idate period := by
  have hpos := h'.ok.left_pos (congrArg Countdown.phase hview)
  refine ⟨s.wheel.scans+(s.firstRelease idate period-s.now).toNat,by omega,by omega,
    tickCount_release h.clean _,fun is his => ⟨?_,fun u hu => ?_⟩⟩
  . obtain ⟨hkend,hbend⟩ := (Kept.beating hidle hi hscans hcalls hsig hview).run h' is his
    obtain ⟨l,hl,hlog⟩ := hbend.alarms
    obtain ⟨k,hcycle⟩ := hbend.cycle
    obtain ⟨n,hfir,hle,hend⟩ := hcycle.calls hkend.ok
    refine ⟨n,?_,hle,hend⟩
    rw [hlog,List.append_cancel_right (hl.symm.trans hfir)]
  have hreg : (machine c).Allowed (Regular c) s' is := his.mono fun _ _ hx => hx.1
  rw [(h'.run_of_not_periodic is hreg hu).2]
  exact congrArg (fun l => (l.filter (·.2=u)).map (·.1)) hsig

/-- In a regular run a call that answers `OS_OK` makes its task get `SIGALRM` at the tick asked for
and every period from there; a failed call leaves its task as it was; a wait reports the releases
since the last one but for its own. -/
theorem periodic_release (hs : (machine c).Reaches (Regular c) s) :
    (∀ caller taskPid idate period, Regular c s (.setPeriodic caller taskPid idate period) →
      ((machine c).run s (setCall caller taskPid idate period)).calls=[] ∧
      ∃ ret, ((machine c).run s (setCall caller taskPid idate period)).rets=ret::s.rets ∧
        (ret=.ok → KeepsTime c s ((machine c).run s (setCall caller taskPid idate period))
          (tskOf caller taskPid) idate period) ∧
        (ret≠.ok → LeftAlone c ((machine c).run s (setCall caller taskPid idate period))
          (tskOf caller taskPid))) ∧ ∀ tsk ret overruns, Regular c s (.waitPeriod tsk) →
      (s.prtTaskWaitPeriod tsk).1=some (ret,some overruns) →
      ret=.ok ∧ overruns.toNat=s.passed tsk-1 := by
  have hk := kept_of_reaches hs
  refine ⟨fun caller taskPid idate period hx => ?_,fun tsk ret overruns hx hw => ?_⟩
  . obtain ⟨hidle,hans⟩ := hk.setCall hx
    have hk' := kept_of_reaches (hs.run (setCall caller taskPid idate period) ⟨hx,allowed_go 5 _⟩)
    rw [tskOf_eq hx.2.1]
    refine ⟨hidle,?_⟩
    cases hans with
    | failed heq hi hl =>
      refine ⟨.einval,by rw [heq],by simp,fun _ => hk'.leftAlone ?_⟩
      rw [heq]
      exact hi
    | set i hrets hi hscans hcalls hsig hview =>
      exact ⟨.ok,hrets,fun _ => hk.keepsTime hk' hidle hi hscans hcalls hsig hview,by simp⟩
  have hle : s.passed tsk≤1 := hx
  rcases hk.wait_cases tsk with ⟨-,heq⟩ | heq | heq
  . simp [heq] at hw
  . simp [heq] at hw
  rw [heq] at hw
  obtain ⟨hret,hover⟩ := Prod.mk.inj (Option.some.inj hw)
  refine ⟨hret.symm,?_⟩
  rw [← Option.some.inj hover]
  change 0=_
  omega

theorem periodic_release_every_two :
    Regular thousandTicks (init thousandTicks 0) (.setPeriodic 7 7 0 2) ∧
    KeepsTime thousandTicks (init thousandTicks 0)
      ((machine thousandTicks).run (init thousandTicks 0) (setCall 7 7 0 2)) 7 0 2 := by
  have hx : Regular thousandTicks (init thousandTicks 0) (.setPeriodic 7 7 0 2) := by
    refine ⟨rfl,.inl (by decide),by decide,.inl ⟨rfl,by decide⟩,rfl,by decide,?_⟩
    intro i hi
    cases hi
  obtain ⟨-,ret,hrets,hok,-⟩ := (periodic_release (Machine.Reaches.start ⟨0,rfl⟩)).1 7 7 0 2 hx
  have hans : ((machine thousandTicks).run (init thousandTicks 0) (setCall 7 7 0 2)).rets =
      [.ok] := by
    decide +kernel
  have hret : ret=.ok := (List.cons.inj (hrets.symm.trans hans)).1
  exact ⟨hx,hok hret⟩

end PeriodRun

end UniProton
