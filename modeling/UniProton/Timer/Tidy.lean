import UniProton.Timer.WheelRun

namespace UniProton

open Framework

namespace SwTmrs

variable {c : TmrCfg} {t : SwTmrs} {out : List Nat} {i : Nat}

def Served (b : SwTmrCtrl) : Prop := b.state=.created ∨ b.state=.running → b.overrun=0

/-- A call leaves the tick count alone and no overruns behind. -/
structure Tidy (t t' : SwTmrs) : Prop where
  ticks : t'.uniTicks=t.uniTicks
  served : (∀ j, Served (t.cb j)) → ∀ j, Served (t'.cb j)

lemma Tidy.refl : Tidy t t := ⟨rfl,fun h => h⟩

lemma Tidy.trans {t1 t2 : SwTmrs} (h1 : Tidy t t1) (h2 : Tidy t1 t2) : Tidy t t2 :=
  ⟨h2.ticks.trans h1.ticks,fun h => h2.served (h1.served h)⟩

lemma tidy_update {s : SwTmrCtrl} {f : List Nat} (hs : Served (t.cb i) → Served s) :
    Tidy t {t with cb:=Function.update t.cb i s, freeList:=f} := by
  refine ⟨rfl,fun h j => ?_⟩
  by_cases hji : j=i
  . subst hji
    simpa using hs (h j)
  simpa [hji] using h j

lemma tidy_start {n : BitVec 32} : Tidy t (t.osSwTmrStart c i n) := by
  rw [osSwTmrStart_eq]
  refine ⟨rfl,fun h j => ?_⟩
  obtain ⟨v,hv,-⟩ := link_same (t:=t) (i:=i) (j:=j) (s:=startCb c t i n)
  rw [hv]
  by_cases hji : j=i
  . subst hji
    simp [Served,startCb]
  simpa [Served,hji] using h j

lemma WheelOk.tidy_stop (h : WheelOk c t out) (hr : (t.cb i).state=.running) (b : Bool) :
    Tidy t (t.osSwTmrStop i b) := by
  rw [osSwTmrStop_eq]
  constructor
  . change (t.rollToNext i).uniTicks=t.uniTicks
    unfold rollToNext
    split <;> rfl
  intro hs j
  by_cases hji : j=i
  . subst hji
    rw [h.unlink_cb_self]
    exact fun _ => hs j (.inr hr)
  obtain ⟨w,hw,-⟩ := h.unlink_cb_of_ne hji
  rw [hw]
  exact hs j

lemma tidy_startTimer : Tidy t (t.osSwTmrStartTimer c i).2 := by
  unfold osSwTmrStartTimer
  split
  . exact .refl
  cases hst : (t.cb i).state with
  | free | running => exact .refl
  | expired pre => exact tidy_update (f:=t.freeList) fun _ => by simp [Served]
  | created =>
    refine (tidy_update (f:=t.freeList) fun hs => ?_).trans tidy_start
    exact fun _ => hs (.inl hst)

lemma WheelOk.tidy_stopTimer (h : WheelOk c t out) : Tidy t (t.osSwTmrStopTimer c i).2 := by
  unfold osSwTmrStopTimer
  split
  . exact .refl
  cases hst : (t.cb i).state with
  | free | created => exact .refl
  | expired pre => exact tidy_update (f:=t.freeList) fun _ => by simp [Served]
  | running => exact h.tidy_stop hst false

lemma WheelOk.tidy_restartTimer (h : WheelOk c t out) : Tidy t (t.osSwTmrRestartTimer c i).2 := by
  unfold osSwTmrRestartTimer
  split
  . exact .refl
  cases hst : (t.cb i).state with
  | free => exact .refl
  | created => exact tidy_start
  | expired pre => exact tidy_update (f:=t.freeList) fun _ => by simp [Served]
  | running => exact (h.tidy_stop hst true).trans tidy_start

lemma tidy_delete : Tidy t (t.osSwTmrDelete i) :=
  tidy_update (f:=i::t.freeList) fun _ => by simp [Served]

lemma WheelOk.tidy_deleteTimer (h : WheelOk c t out) : Tidy t (t.osSwTmrDeleteTimer c i).2 := by
  unfold osSwTmrDeleteTimer
  split
  . exact .refl
  cases hst : (t.cb i).state with
  | free => exact .refl
  | created => exact tidy_delete
  | expired pre => exact tidy_update (f:=t.freeList) fun _ => by simp [Served]
  | running => exact (h.tidy_stop hst true).trans tidy_delete

lemma tidy_proc : Tidy t (t.osSwtmrProc c i) := by
  unfold osSwtmrProc
  split
  . exact tidy_start
  . exact tidy_update (f:=t.freeList) fun _ => by simp [Served]
  . exact tidy_delete
  split
  . exact (tidy_update (f:=t.freeList) fun _ => by simp [Served]).trans tidy_start
  exact tidy_update (f:=t.freeList) fun _ => by simp [Served]

lemma tidy_create (p : TimerCreatePara) : Tidy t (t.prtTimerCreate c p).2.2 := by
  rcases prtTimerCreate_cases (c:=c) (t:=t) p with ⟨i,l,m,f,-,-,-,-,heq⟩ | ⟨-,heq⟩
  . rw [heq]
    exact tidy_update (f:=l) fun _ => by simp [Served]
  rw [heq]
  exact .refl

lemma created_handler {p : TimerCreatePara} {r : Nat×Countdown}
    (h : t.created c p=some r) : p.callBackFunc=some r.2.handler := by
  unfold created at h
  split at h
  . rename_i hf
    split at h
    . rw [hf,← Option.some.inj h]
    cases h
  cases h

lemma WheelOk.served_scan (h : WheelOk c t []) (hs : ∀ j, Served (t.cb j)) (j : Nat) :
    Served (t.osSwTmrScanOneSlot.1.cb j) := by
  by_cases hj : j∈t.osSwTmrScanOneSlot.2
  . simp [Served,h.out_scan_state hj]
  obtain ⟨w,hw,-⟩ := scan_cb_of_notMem_out hj
  rw [hw]
  exact hs j

end SwTmrs

namespace WheelRun

variable {c : TmrCfg} {w : WheelRun} {x : TmrInput}

/-- Between two scans of a clean run no overrun is left. -/
structure Clean (w : WheelRun) : Prop where
  served : ∀ j, SwTmrs.Served (w.tmrs.cb j)
  ticks : w.tmrs.uniTicks=w.scans%2^64

lemma Clean.of_tidy {w' : WheelRun} (h : Clean w) (ht : SwTmrs.Tidy w.tmrs w'.tmrs)
    (hs : w'.scans=w.scans) : Clean w' := by
  refine ⟨ht.served h.served,?_⟩
  rw [ht.ticks,h.ticks,hs]

lemma Clean.step (hw : RunOk c w) (h : Clean w) : Clean (w.step c x) := by
  cases x with
  | create p => exact h.of_tidy (SwTmrs.tidy_create p) rfl
  | start i => exact h.of_tidy SwTmrs.tidy_startTimer rfl
  | stop i => exact h.of_tidy hw.wheel.tidy_stopTimer rfl
  | restart i => exact h.of_tidy hw.wheel.tidy_restartTimer rfl
  | delete i => exact h.of_tidy hw.wheel.tidy_deleteTimer rfl
  | tick =>
    cases hout : w.outLink with
    | nil =>
      have hwheel : {w.tmrs with uniTicks:=(w.tmrs.uniTicks+1)%2^64}.WheelOk c [] := by
        have hold := hout ▸ hw.wheel
        exact {hold with}
      rw [step_tick_of_nil c hout]
      refine ⟨hwheel.served_scan h.served,?_⟩
      change (w.tmrs.uniTicks+1)%2^64=(w.scans+1)%2^64
      rw [h.ticks]
      omega
    | cons j l =>
      rw [step_tick_of_cons c hout]
      exact h
  | call =>
    rcases step_call_cases c (w:=w) with ⟨j,l,-,-,heq⟩ | heq
    . rw [heq]
      exact h.of_tidy .refl rfl
    rw [heq]
    exact h
  | handled =>
    rcases step_handled_cases c (w:=w) with ⟨j,l,-,-,heq⟩ | ⟨-,heq⟩
    . rw [heq]
      exact h.of_tidy SwTmrs.tidy_proc rfl
    rw [heq]
    exact h

end WheelRun

namespace Countdown

variable {k : Countdown} {e : TmrEvent}

def Lasting (k : Countdown) : Prop := k.phase≠.free ∧ k.phase≠.expired .preFree

lemma act_lasting (h : k.Lasting) (hc : ∀ new, e≠.create new) (hd : e≠.delete) :
    (k.act e).Lasting := by
  obtain ⟨hf,hp⟩ := h
  cases e with
  | create new => exact absurd rfl (hc new)
  | delete => exact absurd rfl hd
  | other => exact ⟨hf,hp⟩
  | start => unfold Lasting act start; cases hk : k.phase <;> simp_all
  | stop => unfold Lasting act stop; cases hk : k.phase <;> simp_all
  | restart => unfold Lasting act restart rearm; cases hk : k.phase <;> simp_all
  | tick =>
    unfold Lasting act tick
    cases hk : k.phase with
    | running left => by_cases hl : left=1 <;> simp [hl]
    | _ => simp_all
  | handled =>
    unfold Lasting act handled rearm
    cases hk : k.phase with
    | expired pre => cases pre <;> cases hm : k.mode <;> simp_all
    | _ => simp_all

lemma act_static (hc : ∀ new, e≠.create new) :
    (k.act e).handler=k.handler ∧ (k.act e).arg1=k.arg1 ∧
      (k.phase=.free → (k.act e).phase=.free) := by
  cases e with
  | create new => exact absurd rfl (hc new)
  | other => exact ⟨rfl,rfl,fun h => h⟩
  | start => unfold act start; cases hk : k.phase <;> simp [hk]
  | stop => unfold act stop; cases hk : k.phase <;> simp [hk]
  | restart => unfold act restart rearm; cases hk : k.phase <;> simp [hk]
  | delete => unfold act delete; cases hk : k.phase <;> simp [hk]
  | tick => unfold act tick; cases hk : k.phase <;> simp [hk]
  | handled =>
    unfold act handled rearm
    cases hk : k.phase with
    | expired pre => cases pre <;> cases hm : k.mode <;> simp
    | _ => simp [hk]

end Countdown

end UniProton
