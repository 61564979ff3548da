import UniProton.Timer.WheelRun

namespace UniProton

open Framework List SwTmrs

namespace WheelRun

variable {c : TmrCfg} {w : WheelRun} {i : Nat} {x : TmrInput}

def Keeps (i : Nat) : TmrInput → Prop
  | .stop j | .restart j | .delete j => j≠i
  | _ => True

instance (i : Nat) (x : TmrInput) : Decidable (Keeps i x) := by
  cases x <;> unfold Keeps <;> infer_instance

lemma RunOk.mem_outLink (h : RunOk c w) :
    i∈w.outLink ↔ ∃ pre, (w.tmrs.view i).phase=.expired pre := by
  rw [h.wheel.expired]
  unfold view
  cases (w.tmrs.cb i).state <;> simp

variable {r d p k : Nat} {base : List Nat} {w' : WheelRun}

lemma RunOk.left_pos (h : RunOk c w) (hr : (w.tmrs.view i).phase=.running r) : 0<r := by
  have hpos := ahead_pos (s:=slot w.tmrs.cb i) h.wheel.cursor
  rw [← (phase_running hr).2]
  unfold remain
  omega

lemma RunOk.event_create (h : RunOk c w) {new : Countdown}
    (he : w.event c x i=.create new) : (w.tmrs.view i).phase=.free := by
  have hseen := seen_event (c:=c) (w:=w) (x:=x) (i:=i)
  rw [he] at hseen
  cases hseen with
  | create p new hcr =>
    rcases prtTimerCreate_cases (c:=c) (t:=w.tmrs) p with
      ⟨j,l,m,f,hl,-,-,hcr',-⟩ | ⟨hcr',-⟩
    . rw [hcr'] at hcr
      cases hcr
      obtain ⟨hst,-⟩ := (h.wheel.free i).mp (hl ▸ mem_cons_self)
      simp [view,hst]
    simp [hcr'] at hcr

/-- The timer has expired and its handler is still to be called. -/
def Pending (w : WheelRun) (i : Nat) : Prop :=
  i∈w.outLink ∧ ¬(w.called=true ∧ w.outLink.head? = some i)

lemma Enters.pending (h : w.Enters x i) : w.Pending i := by
  obtain ⟨-,hhead,hcalled⟩ := h
  exact ⟨mem_of_mem_head? hhead,fun hc => by simp [hcalled] at hc⟩

lemma pending_step (h : w.Pending i) (hx : ¬w.Enters x i) :
    (w.step c x).Pending i ∧ (w.step c x).scans=w.scans := by
  obtain ⟨hmem,hnot⟩ := h
  cases x with
  | tick =>
    rcases step_tick_cases c (w:=w) with hout | heq
    . simp [hout] at hmem
    rw [heq]
    exact ⟨⟨hmem,hnot⟩,rfl⟩
  | call =>
    rcases step_call_cases c (w:=w) with ⟨j,l,hout,hc,heq⟩ | heq
    . have hji : j≠i := fun hji => hx ⟨rfl,by simp [hout,hji],hc⟩
      rw [heq]
      exact ⟨⟨hmem,by simp [hout,hji]⟩,rfl⟩
    rw [heq]
    exact ⟨⟨hmem,hnot⟩,rfl⟩
  | handled =>
    rcases step_handled_cases c (w:=w) with ⟨j,l,hout,hc,heq⟩ | ⟨-,heq⟩
    . have hji : j≠i := fun hji => hnot ⟨hc,by simp [hout,hji]⟩
      rw [hout] at hmem
      rw [heq]
      exact ⟨⟨(mem_cons.mp hmem).resolve_left (Ne.symm hji),by simp⟩,rfl⟩
    rw [heq]
    exact ⟨⟨hmem,hnot⟩,rfl⟩
  | _ => exact ⟨⟨hmem,hnot⟩,rfl⟩

lemma RunOk.notPending_step (h : RunOk c w) (hp : ¬w.Pending i) : (w.step c x).scans=w.scans+1 ∨
      ¬(w.step c x).Pending i ∧ (w.step c x).scans=w.scans := by
  have hnd := h.wheel.outNodup
  cases x with
  | tick =>
    rcases step_tick_cases c (w:=w) with hout | heq
    . rw [step_tick_of_nil c hout]
      exact .inl rfl
    rw [heq]
    exact .inr ⟨hp,rfl⟩
  | call =>
    rcases step_call_cases c (w:=w) with ⟨j,l,hout,hc,heq⟩ | heq
    . rw [heq]
      exact .inr ⟨fun hp' => hp ⟨hp'.1,by simp [hc]⟩,rfl⟩
    rw [heq]
    exact .inr ⟨hp,rfl⟩
  | handled =>
    rcases step_handled_cases c (w:=w) with ⟨j,l,hout,hc,heq⟩ | ⟨-,heq⟩
    . rw [hout] at hnd
      have hl : i∉l := by
        intro hl
        by_cases hji : j=i
        . exact (nodup_cons.mp hnd).1 (hji ▸ hl)
        exact hp ⟨by simp [hout,hl],by simp [hout,hji]⟩
      rw [heq]
      exact .inr ⟨fun hp' => hl hp'.1,rfl⟩
    rw [heq]
    exact .inr ⟨hp,rfl⟩
  | _ => exact .inr ⟨hp,rfl⟩

lemma event_of_keeps (hk : Keeps i x) : w.event c x i≠.stop ∧ w.event c x i≠.restart ∧
    w.event c x i≠.delete := by
  have hseen := seen_event (c:=c) (w:=w) (x:=x) (i:=i)
  generalize w.event c x i=e at hseen ⊢
  cases hseen <;> simp_all [Keeps]

lemma event_handled (he : w.event c x i=.handled) :
    x=.handled ∧ w.outLink.head? = some i ∧ w.called=true := by
  have hseen := seen_event (c:=c) (w:=w) (x:=x) (i:=i)
  rw [he] at hseen
  cases hseen with
  | handled hhead hcalled => exact ⟨rfl,hhead,hcalled⟩

lemma event_tick_iff : w.event c x i=.tick ↔ x=.tick ∧ w.outLink=[] := by
  constructor
  . intro he
    have hseen := seen_event (c:=c) (w:=w) (x:=x) (i:=i)
    rw [he] at hseen
    cases hseen with
    | tick hout => exact ⟨rfl,hout⟩
  rintro ⟨rfl,hout⟩
  simp [event,hout]

lemma scans_step : (w.step c x).scans = if x=.tick ∧ w.outLink=[] then w.scans+1 else w.scans := by
  cases x with
  | tick =>
    cases hout : w.outLink with
    | nil => simp [step_tick_of_nil c hout]
    | cons j l => simp [step_tick_of_cons c hout]
  | call => rcases step_call_cases c (w:=w) with ⟨j,l,-,-,heq⟩ | heq <;> simp [heq]
  | handled => rcases step_handled_cases c (w:=w) with ⟨j,l,-,-,heq⟩ | ⟨-,heq⟩ <;> simp [heq]
  | _ => simp [step]

lemma RunOk.running_step (h : RunOk c w) (hr : (w.tmrs.view i).phase=.running r)
    (hk : Keeps i x) : (w.outLink=[] ∧ (w.step c x).tmrs.view i=(w.tmrs.view i).tick ∧
      (w.step c x).scans=w.scans+1) ∨
    ((w.step c x).tmrs.view i=w.tmrs.view i ∧ (w.step c x).scans=w.scans) := by
  have hview := (h.step x).2 i
  obtain ⟨hstop,hrestart,hdelete⟩ := event_of_keeps (c:=c) (w:=w) hk
  have hscans := scans_step (c:=c) (w:=w) (x:=x)
  by_cases htick : w.event c x i=.tick
  . left
    have hx := event_tick_iff.mp htick
    rw [htick] at hview
    rw [if_pos hx] at hscans
    exact ⟨hx.2,hview,hscans⟩
  right
  rw [if_neg fun hx => htick (event_tick_iff.mpr hx)] at hscans
  refine ⟨hview.trans ?_,hscans⟩
  cases he : w.event c x i with
  | create new =>
    rw [h.event_create he] at hr
    cases hr
  | start => simp [Countdown.act,Countdown.start,hr]
  | stop => exact absurd he hstop
  | restart => exact absurd he hrestart
  | delete => exact absurd he hdelete
  | tick => exact absurd he htick
  | handled =>
    obtain ⟨-,hhead,-⟩ := event_handled he
    obtain ⟨pre,hpre⟩ := h.mem_outLink.mp (mem_of_mem_head? hhead)
    rw [hpre] at hr
    cases hr
  | other => rfl

lemma RunOk.running_next (h : RunOk c w) (hr : (w.tmrs.view i).phase=.running r)
    (hk : Keeps i x) : (w.step c x).callsOf i=w.callsOf i ∧
    ((∃ r', (w.step c x).tmrs.view i={w.tmrs.view i with phase:=.running r'} ∧
        (w.step c x).scans+r'=w.scans+r) ∨
      ((w.step c x).tmrs.view i={w.tmrs.view i with phase:=.expired .default} ∧
        (w.step c x).Pending i ∧ (w.step c x).scans=w.scans+r)) := by
  have hnot : ¬w.Enters x i := by
    intro hx
    obtain ⟨pre,hpre⟩ := h.mem_outLink.mp hx.pending.1
    rw [hpre] at hr
    cases hr
  refine ⟨callsOf_step_of_not_enters hnot,?_⟩
  rcases h.running_step hr hk with ⟨hout,hview,hscans⟩ | ⟨hview,hscans⟩
  . by_cases hone : r=1
    . right
      have hexp : (w.step c x).tmrs.view i =
          {w.tmrs.view i with phase:=.expired .default} := by
        rw [hview]
        simp [Countdown.tick,hr,hone]
      have hmem := (h.step x).1.mem_outLink.mpr ⟨_,congrArg Countdown.phase hexp⟩
      have hcalled : (w.step c x).called=false := by
        have hx : x=.tick ∧ w.outLink=[] := by
          by_contra hx
          rw [scans_step,if_neg hx] at hscans
          omega
        rw [hx.1,step_tick_of_nil c hout]
        cases hc : w.called with
        | false => rfl
        | true => exact absurd hout (h.called hc)
      exact ⟨hexp,⟨hmem,by simp [hcalled]⟩,by omega⟩
    left
    have hpos := h.left_pos hr
    refine ⟨r-1,?_,by omega⟩
    rw [hview]
    simp [Countdown.tick,hr,hone]
  left
  refine ⟨r,?_,by omega⟩
  rw [hview,← hr]

/-- Where a timer with deadline `d` is, `base` being the calls of its handler before. -/
inductive Due (c : TmrCfg) (i d : Nat) (base : List Nat) (w : WheelRun) : Prop
  | running (r : Nat) (hr : (w.tmrs.view i).phase=.running r) (hd : w.scans+r=d)
      (hcalls : w.callsOf i=base)
  | pending (hp : w.Pending i) (hd : w.scans=d) (hcalls : w.callsOf i=base)
  | called (new : List Nat) (hd : d≤w.scans) (hcalls : w.callsOf i=new++d::base)
      (hnew : w.scans=d → new=[] ∧ ¬w.Pending i)

lemma Due.step (hw : RunOk c w) (h : Due c i d base w)
    (hk : Keeps i x) : Due c i d base (w.step c x) := by
  cases h with
  | running r hr hd hcalls =>
    obtain ⟨hsame,⟨r',hview,hscans⟩ | ⟨-,hp,hscans⟩⟩ := hw.running_next hr hk
    . exact .running r' (congrArg Countdown.phase hview) (by omega) (hsame.trans hcalls)
    exact .pending hp (by omega) (hsame.trans hcalls)
  | pending hp hd hcalls =>
    by_cases hx : w.Enters x i
    . obtain ⟨hnew,hcalled,hout,hscans⟩ := callsOf_step_of_enters (c:=c) hx
      refine .called [] (by omega) (by rw [hnew,hcalls,hd]; rfl) fun _ => ⟨rfl,fun hp' => ?_⟩
      exact hp'.2 ⟨hcalled,hout ▸ hx.2.1⟩
    obtain ⟨hp',hscans⟩ := pending_step (c:=c) hp hx
    exact .pending hp' (by omega) ((callsOf_step_of_not_enters hx).trans hcalls)
  | called new hd hcalls hnew =>
    have hscans := scans_step (c:=c) (w:=w) (x:=x)
    have hle : w.scans≤(w.step c x).scans := by
      rw [hscans]
      split <;> omega
    by_cases hx : w.Enters x i
    . obtain ⟨hadd,-,-,hsame⟩ := callsOf_step_of_enters (c:=c) hx
      refine .called (w.scans::new) (by omega) (by rw [hadd,hcalls]; rfl) fun hd' => ?_
      exact absurd hx.pending (hnew (by omega)).2
    refine .called new (by omega) ((callsOf_step_of_not_enters hx).trans hcalls) fun hd' => ?_
    have hnow : w.scans=d := by omega
    refine ⟨(hnew hnow).1,?_⟩
    rcases hw.notPending_step (x:=x) (hnew hnow).2 with hnext | ⟨hp',-⟩
    . omega
    exact hp'

lemma Due.run (hw : RunOk c w) (h : Due c i d base w)
    (is : List TmrInput) (hk : ∀ x∈is, Keeps i x) : Due c i d base ((machine c).run w is) := by
  induction is generalizing w with
  | nil => exact h
  | cons x is ih =>
    exact ih (hw.step x).1 (h.step hw (hk x mem_cons_self)) fun y hy => hk y (mem_cons_of_mem x hy)

lemma Due.calls_before (h : Due c i d base w) (hd : w.scans<d) : w.callsOf i=base := by
  cases h with
  | running r hr hd' hcalls => exact hcalls
  | pending hp hd' hcalls => exact hcalls
  | called new hd' hcalls hnew => omega

lemma Due.calls_at (hw : RunOk c w) (h : Due c i d base w)
    (hd : w.scans=d) (hout : w.outLink=[]) : w.callsOf i=d::base := by
  cases h with
  | running r hr hd' hcalls =>
    have hpos := hw.left_pos hr
    omega
  | pending hp hd' hcalls =>
    have hmem := hp.1
    simp [hout] at hmem
  | called new hd' hcalls hnew => rw [hcalls,(hnew hd).1,nil_append]

lemma Due.calls_after (h : Due c i d base w) (hd : d<w.scans) :
    ∃ new, w.callsOf i=new++d::base := by
  cases h with
  | running | pending => omega
  | called new hd' hcalls hnew => exact ⟨new,hcalls⟩

/-- The scans `d`, `d + p`, ..., `k` of them, the last one first. -/
def firings (d p k : Nat) : List Nat := ((List.range k).map fun m => d+m*p).reverse

lemma firings_succ (d p k : Nat) : firings d p (k+1)=(d+k*p)::firings d p k := by
  simp [firings,range_succ]

/-- A loop timer in its round `k`. -/
structure Cycle (c : TmrCfg) (i d p : Nat) (base : List Nat) (k : Nat) (w : WheelRun) : Prop where
  loop : (w.tmrs.view i).mode=.loop
  interval : (w.tmrs.view i).interval=p
  stage :
    (∃ r, (w.tmrs.view i).phase=.running r ∧ w.scans+r=d+k*p ∧ w.callsOf i=firings d p k++base) ∨
    (∃ pre, (w.tmrs.view i).phase=.expired pre ∧ (pre=.default ∨ pre=.preRunning) ∧
      w.scans=d+k*p ∧ (w.Pending i ∧ w.callsOf i=firings d p k++base ∨
        ¬w.Pending i ∧ w.callsOf i=firings d p (k+1)++base))

lemma RunOk.expired_step (h : RunOk c w) {pre : TmrPre}
    (hpre : (w.tmrs.view i).phase=.expired pre) (hk : Keeps i x) : (w.step c x).scans=w.scans ∧
      ((w.outLink.head? = some i ∧ w.called=true ∧
        (w.step c x).tmrs.view i=(w.tmrs.view i).handled) ∨
      (w.step c x).tmrs.view i=w.tmrs.view i ∨
      (w.step c x).tmrs.view i={w.tmrs.view i with phase:=.expired .preRunning}) := by
  have hview := (h.step x).2 i
  have hmem := h.mem_outLink.mpr ⟨pre,hpre⟩
  have hscans := scans_step (c:=c) (w:=w) (x:=x)
  have hnotick : ¬(x=.tick ∧ w.outLink=[]) := by
    rintro ⟨-,hout⟩
    simp [hout] at hmem
  rw [if_neg hnotick] at hscans
  obtain ⟨hstop,hrestart,hdelete⟩ := event_of_keeps (c:=c) (w:=w) hk
  refine ⟨hscans,?_⟩
  rw [hview]
  cases he : w.event c x i with
  | create new =>
    rw [h.event_create he] at hpre
    cases hpre
  | start => exact .inr (.inr (by simp [Countdown.act,Countdown.start,hpre]))
  | stop => exact absurd he hstop
  | restart => exact absurd he hrestart
  | delete => exact absurd he hdelete
  | tick => exact absurd (event_tick_iff.mp he) hnotick
  | handled =>
    obtain ⟨-,hhead,hcalled⟩ := event_handled he
    exact .inl ⟨hhead,hcalled,rfl⟩
  | other => exact .inr (.inl rfl)

lemma Cycle.step (hw : RunOk c w)
    (h : Cycle c i d p base k w) (hk : Keeps i x) : ∃ k', Cycle c i d p base k' (w.step c x) := by
  obtain ⟨hloop,hint,⟨r,hr,hd,hcalls⟩ | ⟨pre,hpre,hor,hd,hstage⟩⟩ := h
  . obtain ⟨hsame,⟨r',hview,hscans⟩ | ⟨hview,hp,hscans⟩⟩ := hw.running_next hr hk
    . refine ⟨k,by rw [hview]; exact hloop,by rw [hview]; exact hint,.inl ⟨r',?_⟩⟩
      exact ⟨congrArg Countdown.phase hview,by omega,hsame.trans hcalls⟩
    refine ⟨k,by rw [hview]; exact hloop,by rw [hview]; exact hint,.inr ⟨.default,?_⟩⟩
    exact ⟨congrArg Countdown.phase hview,.inl rfl,by omega,.inl ⟨hp,hsame.trans hcalls⟩⟩
  obtain ⟨hscans,⟨hhead,hcalled,hview⟩ | hrest⟩ := hw.expired_step hpre hk
  . -- the handler has returned: the next round begins
    have hnp : ¬w.Pending i := fun hp => hp.2 ⟨hcalled,hhead⟩
    have hcalls : w.callsOf i=firings d p (k+1)++base := by
      rcases hstage with ⟨hp,-⟩ | ⟨-,hcalls⟩
      . exact absurd hp hnp
      exact hcalls
    have hrearm : (w.step c x).tmrs.view i=(w.tmrs.view i).rearm := by
      rw [hview]
      rcases hor with rfl | rfl <;> simp [Countdown.handled,hpre,hloop]
    have hsame := callsOf_step_of_not_enters (c:=c) fun hx : w.Enters x i => hnp hx.pending
    refine ⟨k+1,by rw [hrearm]; exact hloop,by rw [hrearm]; exact hint,.inl ⟨p,?_⟩⟩
    refine ⟨by rw [hrearm,← hint]; rfl,?_,hsame.trans hcalls⟩
    rw [hscans,hd,Nat.add_assoc,Nat.succ_mul]
  have hparts : ((w.step c x).tmrs.view i).mode=.loop ∧ ((w.step c x).tmrs.view i).interval=p ∧
      ∃ pre, ((w.step c x).tmrs.view i).phase=.expired pre ∧ (pre=.default ∨ pre=.preRunning) := by
    rcases hrest with hview | hview
    . rw [hview]
      exact ⟨hloop,hint,pre,hpre,hor⟩
    rw [hview]
    exact ⟨hloop,hint,.preRunning,rfl,.inr rfl⟩
  obtain ⟨hloop',hint',pre',hpre',hor'⟩ := hparts
  refine ⟨k,hloop',hint',.inr ⟨pre',hpre',hor',hscans.trans hd,?_⟩⟩
  rcases hstage with ⟨hp,hcalls⟩ | ⟨hnp,hcalls⟩
  . by_cases hx : w.Enters x i
    . obtain ⟨hnew,hcalled,hout,-⟩ := callsOf_step_of_enters (c:=c) hx
      refine .inr ⟨fun hp' => hp'.2 ⟨hcalled,hout ▸ hx.2.1⟩,?_⟩
      rw [hnew,hcalls,firings_succ,hd]
      rfl
    obtain ⟨hp',-⟩ := pending_step (c:=c) hp hx
    exact .inl ⟨hp',(callsOf_step_of_not_enters hx).trans hcalls⟩
  have hsame := callsOf_step_of_not_enters (c:=c) fun hx : w.Enters x i => hnp hx.pending
  rcases hw.notPending_step (x:=x) hnp with hnext | ⟨hnp',-⟩
  . omega
  exact .inr ⟨hnp',hsame.trans hcalls⟩

lemma Cycle.run (hw : RunOk c w) (h : Cycle c i d p base k w)
    (is : List TmrInput) (hk : ∀ x∈is, Keeps i x) :
    ∃ k', Cycle c i d p base k' ((machine c).run w is) := by
  induction is generalizing w k with
  | nil => exact ⟨k,h⟩
  | cons x is ih =>
    obtain ⟨k',h'⟩ := h.step hw (hk x mem_cons_self)
    exact ih (hw.step x).1 h' fun y hy => hk y (mem_cons_of_mem x hy)

lemma Cycle.calls (hw : RunOk c w) (h : Cycle c i d p base k w) :
    ∃ k, w.callsOf i=firings d p k++base ∧ w.scans≤d+k*p ∧ (w.outLink=[] → w.scans<d+k*p) := by
  rcases h.stage with ⟨r,hr,hd,hcalls⟩ | ⟨pre,hpre,-,hd,hstage⟩
  . have hpos := hw.left_pos hr
    exact ⟨k,hcalls,by omega,fun _ => by omega⟩
  have hout : w.outLink≠[] := ne_nil_of_mem (hw.mem_outLink.mpr ⟨pre,hpre⟩)
  rcases hstage with ⟨-,hcalls⟩ | ⟨-,hcalls⟩
  . exact ⟨k,hcalls,by omega,fun h0 => absurd h0 hout⟩
  have hnext : k*p≤(k+1)*p := Nat.mul_le_mul_right p (Nat.le_succ k)
  exact ⟨k+1,hcalls,by omega,fun h0 => absurd h0 hout⟩

/-- The ticks with which an input starts a timer, where it does. -/
def startsWith (w : WheelRun) (x : TmrInput) (i : Nat) : Option (BitVec 32) :=
  match x with
  | .start j =>
    if j=i ∧ (w.tmrs.cb i).state=.created then some (SwTmrs.startCount (w.tmrs.cb i)) else none
  | .restart j =>
    if j=i ∧ ((w.tmrs.cb i).state=.created ∨ (w.tmrs.cb i).state=.running) then
      some (w.tmrs.cb i).interval
    else none
  | .handled =>
    if w.outLink.head? = some i ∧ w.called=true ∧
        ((w.tmrs.cb i).state=.expired .preRunning ∨
          (w.tmrs.cb i).state=.expired .default ∧ (w.tmrs.cb i).mode=.loop) then
      some (w.tmrs.cb i).interval
    else none
  | _ => none

lemma RunOk.started (h : RunOk c w) {n : BitVec 32} (hs : w.startsWith x i=some n) :
    (w.step c x).tmrs.view i={w.tmrs.view i with phase:=.running n.toNat} ∧
      (w.step c x).scans=w.scans ∧ (w.step c x).callsOf i=w.callsOf i := by
  have hview := (h.step x).2 i
  cases x with
  | start j =>
    simp only [startsWith,Option.ite_none_right_eq_some,Option.some.injEq] at hs
    obtain ⟨⟨rfl,hst⟩,rfl⟩ := hs
    refine ⟨hview.trans ?_,rfl,rfl⟩
    rw [toNat_startCount]
    simp [event,Countdown.act,Countdown.start,view,hst]
  | restart j =>
    simp only [startsWith,Option.ite_none_right_eq_some,Option.some.injEq] at hs
    obtain ⟨⟨rfl,hst⟩,rfl⟩ := hs
    refine ⟨hview.trans ?_,rfl,rfl⟩
    rcases hst with hst | hst <;>
      simp [event,Countdown.act,Countdown.restart,Countdown.rearm,view,hst]
  | handled =>
    simp only [startsWith,Option.ite_none_right_eq_some,Option.some.injEq] at hs
    obtain ⟨⟨hhead,hcalled,hst⟩,rfl⟩ := hs
    have hscans := scans_step (c:=c) (w:=w) (x:=.handled)
    have hcalls := callsOf_step_of_not_enters (c:=c) (i:=i)
      fun hx : w.Enters .handled i => by cases hx.1
    refine ⟨hview.trans ?_,by simpa using hscans,hcalls⟩
    rcases hst with hst | ⟨hst,hm⟩
    . simp [event,hhead,hcalled,Countdown.act,Countdown.handled,Countdown.rearm,view,hst]
    simp [event,hhead,hcalled,Countdown.act,Countdown.handled,Countdown.rearm,view,hst,hm]
  | _ => cases hs

/-- From `w` to `w'` the handler of timer `i` is called in scan `d` and in none before; while scan
`d` is under way the call may still be to come. -/
structure FiresAt (w w' : WheelRun) (i d : Nat) : Prop where
  before : w'.scans<d → w'.callsOf i=w.callsOf i
  during : w'.scans=d → w'.callsOf i=d::w.callsOf i ∨ w'.Pending i ∧ w'.callsOf i=w.callsOf i
  done : w'.scans=d → w'.outLink=[] → w'.callsOf i=d::w.callsOf i
  after : d<w'.scans → ∃ new, w'.callsOf i=new++d::w.callsOf i

lemma Due.firesAt (hw : RunOk c w') (h : Due c i d (w.callsOf i) w') :
    FiresAt w w' i d where
  before := h.calls_before
  during hd := by
    cases h with
    | running r hr hd' hcalls =>
      have hpos := hw.left_pos hr
      omega
    | pending hp hd' hcalls => exact .inr ⟨hp,hcalls⟩
    | called new hd' hcalls hnew =>
      left
      rw [hcalls,(hnew hd).1,nil_append]
  done := h.calls_at hw
  after := h.calls_after

/-- A timer started with `n` ticks and then left alone fires in the `n`-th scan, and a loop timer
every interval from there on, whatever happens to other timers. -/
theorem timer_exact (hw : (machine c).Reaches (fun _ _ => True) w) {n : BitVec 32}
    (hs : w.startsWith x i=some n) (is : List TmrInput) (hk : ∀ y∈is, Keeps i y) : 0<n.toNat ∧
    FiresAt w ((machine c).run w (x::is)) i (w.scans+n.toNat) ∧ ((w.tmrs.cb i).mode=.loop →
      ∃ k, ((machine c).run w (x::is)).callsOf i =
          firings (w.scans+n.toNat) (w.tmrs.cb i).interval.toNat k++w.callsOf i ∧
        ((machine c).run w (x::is)).scans≤w.scans+n.toNat+k*(w.tmrs.cb i).interval.toNat ∧
        (((machine c).run w (x::is)).outLink=[] → ((machine c).run w (x::is)).scans <
            w.scans+n.toNat+k*(w.tmrs.cb i).interval.toNat)) := by
  have hok := runOk_of_reaches hw
  obtain ⟨hview,hscans,hcalls⟩ := hok.started hs
  have hok' := (hok.step x).1
  have hphase : ((w.step c x).tmrs.view i).phase=.running n.toNat := congrArg Countdown.phase hview
  refine ⟨hok'.left_pos hphase,?_,fun hloop => ?_⟩
  . have hdue : Due c i (w.scans+n.toNat) (w.callsOf i) (w.step c x) :=
      .running n.toNat hphase (by rw [hscans]) hcalls
    exact (hdue.run hok' is hk).firesAt (hok'.run is)
  have hcycle : Cycle c i (w.scans+n.toNat) (w.tmrs.cb i).interval.toNat (w.callsOf i) 0
      (w.step c x) := by
    refine ⟨by rw [hview]; exact hloop,by rw [hview]; rfl,.inl ⟨n.toNat,hphase,?_,?_⟩⟩
    . omega
    simpa [firings] using hcalls
  obtain ⟨k,hend⟩ := hcycle.run hok' is hk
  exact hend.calls (hok'.run is)

def twoTimers : TmrCfg := ⟨2,1000,TmrCfg.pos_thousand,false⟩

def para (mode : TmrMode) (interval : BitVec 32) : TimerCreatePara :=
  ⟨some mode,interval,0,some (.user 1),0,0,0,0⟩

def after (is : List TmrInput) : WheelRun :=
  (machine twoTimers).run ⟨SwTmrs.init twoTimers,[],false,0,[]⟩ is

lemma reaches_after (is : List TmrInput) :
    (machine twoTimers).Reaches (fun _ _ => True) (after is) := by
  have hall (w : WheelRun) : (machine twoTimers).Allowed (fun _ _ => True) w is := by
    induction is generalizing w with
    | nil => trivial
    | cons x is ih => exact ⟨trivial,ih _⟩
  exact (Machine.Reaches.start rfl).run is (hall _)

theorem timer_exact_loop :
    (after [.create (para .loop 130),.create (para .once 2),.start 1]).startsWith (.start 0) 0 =
      some 130#32 ∧ FiresAt (after [.create (para .loop 130),.create (para .once 2),.start 1])
      ((machine twoTimers).run (after [.create (para .loop 130),.create (para .once 2),.start 1])
        [.start 0,.tick,.tick,.call,.stop 1,.handled]) 0 130 := by
  have hstart : (after [.create (para .loop 130),.create (para .once 2),
      .start 1]).startsWith (.start 0) 0=some 130#32 := by
    decide +kernel
  have hexact := timer_exact (reaches_after _) hstart
    [.tick,.tick,.call,.stop 1,.handled] (by decide)
  exact ⟨hstart,hexact.2.1⟩

example : (after ([.create (para .loop 130),.start 0]++List.replicate 130 .tick ++
    [.call,.handled]++List.replicate 130 .tick ++ [.call])).callsOf 0=[260,130] := by
  decide +kernel

def Rests (i : Nat) : TmrInput → Prop
  | .start j | .restart j | .delete j => j≠i
  | _ => True

instance (i : Nat) (x : TmrInput) : Decidable (Rests i x) := by
  cases x <;> unfold Rests <;> infer_instance

lemma event_of_rests (hk : Rests i x) : w.event c x i≠.start ∧ w.event c x i≠.restart ∧
    w.event c x i≠.delete := by
  have hseen := seen_event (c:=c) (w:=w) (x:=x) (i:=i)
  generalize w.event c x i=e at hseen ⊢
  cases hseen <;> simp_all [Rests]

lemma RunOk.created_step (h : RunOk c w) (hr : (w.tmrs.view i).phase=.created r)
    (hk : Rests i x) : (w.step c x).tmrs.view i=w.tmrs.view i := by
  rw [(h.step x).2 i]
  obtain ⟨hstart,hrestart,hdelete⟩ := event_of_rests (c:=c) (w:=w) hk
  cases he : w.event c x i with
  | create new =>
    rw [h.event_create he] at hr
    cases hr
  | start => exact absurd he hstart
  | stop => simp [Countdown.act,Countdown.stop,hr]
  | restart => exact absurd he hrestart
  | delete => exact absurd he hdelete
  | tick => simp [Countdown.act,Countdown.tick,hr]
  | handled => simp [Countdown.act,Countdown.handled,hr]
  | other => rfl

lemma RunOk.created_run (h : RunOk c w) (hr : (w.tmrs.view i).phase=.created r)
    (js : List TmrInput) (hk : ∀ x∈js, Rests i x) :
    (((machine c).run w js).tmrs.view i).phase=.created r := by
  induction js generalizing w with
  | nil => exact hr
  | cons x js ih =>
    refine ih (h.step x).1 ?_ fun y hy => hk y (mem_cons_of_mem x hy)
    exact (congrArg Countdown.phase (h.created_step hr (hk x mem_cons_self))).trans hr

lemma RunOk.toNat_remainTick (h : RunOk c w) (hr : (w.tmrs.cb i).state=.running) :
    (w.tmrs.osSwTmrGetRemainTick i).toNat=w.tmrs.remain i := by
  unfold osSwTmrGetRemainTick
  rw [hr]
  exact h.wheel.toNat_osSwTmrGetRemain hr

lemma state_of_view {j : Nat} (hv : w'.tmrs.view j=w.tmrs.view j)
    (hr : (w.tmrs.cb j).state=.running) : (w'.tmrs.cb j).state=.running := by
  have hp := congrArg Countdown.phase hv
  unfold view at hp
  rw [hr] at hp
  cases hst : (w'.tmrs.cb j).state <;> simp [hst] at hp ⊢

lemma RunOk.remainTick_of_view {j : Nat} (h : RunOk c w) (h' : RunOk c w')
    (hv : w'.tmrs.view j=w.tmrs.view j) (hr : (w.tmrs.cb j).state=.running) :
    w'.tmrs.osSwTmrGetRemainTick j=w.tmrs.osSwTmrGetRemainTick j := by
  have hr' := state_of_view hv hr
  apply BitVec.eq_of_toNat_eq
  rw [h.toNat_remainTick hr,h'.toNat_remainTick hr']
  have hp := congrArg Countdown.phase hv
  simpa [view,hr,hr'] using hp

/-- The time left of a running timer is the number of scans until it fires; it is kept over a
stop, and the stop and the start leave the other timers their time. -/
theorem remain_exact (hw : (machine c).Reaches (fun _ _ => True) w)
    (hr : (w.tmrs.cb i).state=.running) : 0<(w.tmrs.osSwTmrGetRemainTick i).toNat ∧
    (w.tmrs.osSwTmrGetRemainTick i).toNat≤2^32-1 ∧ (∀ is : List TmrInput, (∀ x∈is, Keeps i x) →
      FiresAt w ((machine c).run w is) i (w.scans+(w.tmrs.osSwTmrGetRemainTick i).toNat)) ∧
    (∀ js is : List TmrInput, (∀ x∈js, Rests i x) → (∀ x∈is, Keeps i x) →
      FiresAt ((machine c).run w (.stop i::js))
        ((machine c).run ((machine c).run w (.stop i::js)) (.start i::is)) i
        (((machine c).run w (.stop i::js)).scans+(w.tmrs.osSwTmrGetRemainTick i).toNat)) ∧
    (∀ j, j≠i → (w.tmrs.cb j).state=.running → ((w.step c (.stop i)).tmrs.cb j).state=.running ∧
      (w.step c (.stop i)).tmrs.osSwTmrGetRemainTick j=w.tmrs.osSwTmrGetRemainTick j) ∧
    (∀ js : List TmrInput, ∀ j, j≠i → (((machine c).run w js).tmrs.cb j).state=.running →
      ((((machine c).run w js).step c (.start i)).tmrs.cb j).state=.running ∧
      (((machine c).run w js).step c (.start i)).tmrs.osSwTmrGetRemainTick j =
        ((machine c).run w js).tmrs.osSwTmrGetRemainTick j) := by
  have hok := runOk_of_reaches hw
  have hrem := hok.toNat_remainTick hr
  have hphase : (w.tmrs.view i).phase=.running (w.tmrs.remain i) := by simp [SwTmrs.view,hr]
  have hpos := hok.left_pos hphase
  refine ⟨by omega,Nat.le_pred_of_lt (BitVec.isLt _),fun is hk => ?_,fun js is hjs hk => ?_,
    fun j hj hjr => ?_,fun js j hj hjr => ?_⟩
  . have hdue : Due c i (w.scans+(w.tmrs.osSwTmrGetRemainTick i).toNat) (w.callsOf i) w :=
      .running (w.tmrs.remain i) hphase (by omega) rfl
    exact (hdue.run hok is hk).firesAt (hok.run is)
  . -- stopped with its count, which is then what it starts with
    have hstop : ((w.step c (.stop i)).tmrs.view i).phase=.created (w.tmrs.remain i) := by
      rw [(hok.step (.stop i)).2 i]
      simp [event,Countdown.act,Countdown.stop,hphase]
    have hok1 := hok.run (.stop i::js)
    have hcr : (((machine c).run w (.stop i::js)).tmrs.view i).phase=_ :=
      (hok.step (.stop i)).1.created_run hstop js hjs
    generalize (machine c).run w (.stop i::js)=w1 at hok1 hcr ⊢
    have hrun : ((w1.step c (.start i)).tmrs.view i).phase=.running (w.tmrs.remain i) := by
      rw [(hok1.step (.start i)).2 i]
      simp [event,Countdown.act,Countdown.start,hcr,Nat.ne_of_gt hpos]
    have hdue : Due c i (w1.scans+(w.tmrs.osSwTmrGetRemainTick i).toNat) (w1.callsOf i)
        (w1.step c (.start i)) := by
      refine .running (w.tmrs.remain i) hrun ?_ rfl
      rw [hrem]
      rfl
    have hok2 := (hok1.step (.start i)).1
    exact (hdue.run hok2 is hk).firesAt (hok2.run is)
  . have hview : (w.step c (.stop i)).tmrs.view j=w.tmrs.view j := by
      rw [(hok.step (.stop i)).2 j]
      simp [event,Ne.symm hj,Countdown.act]
    exact ⟨state_of_view hview hjr,hok.remainTick_of_view (hok.step (.stop i)).1 hview hjr⟩
  have hok1 := hok.run js
  generalize (machine c).run w js=w1 at hok1 hjr ⊢
  have hview : (w1.step c (.start i)).tmrs.view j=w1.tmrs.view j := by
    rw [(hok1.step (.start i)).2 j]
    simp [event,Ne.symm hj,Countdown.act]
  exact ⟨state_of_view hview hjr,hok1.remainTick_of_view (hok1.step (.start i)).1 hview hjr⟩

theorem remain_exact_second_round :
    ((after [.create (para .loop 130),.start 0,.tick]).tmrs.cb 0).state=.running ∧
    FiresAt (after [.create (para .loop 130),.start 0,.tick])
      ((machine twoTimers).run (after [.create (para .loop 130),.start 0,.tick])
        (List.replicate 129 .tick)) 0 130 := by
  have hrun : ((after [.create (para .loop 130),.start 0,.tick]).tmrs.cb 0).state=.running := by
    decide +kernel
  have hfires := (remain_exact (reaches_after _) hrun).2.2.1 (List.replicate 129 .tick) (by
    intro x hx
    rw [eq_of_mem_replicate hx]
    trivial)
  exact ⟨hrun,hfires⟩

end WheelRun

end UniProton
