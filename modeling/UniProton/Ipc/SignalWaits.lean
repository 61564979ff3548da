import UniProton.Ipc.DelayList

namespace UniProton

open Framework TskStatus Function List

/-- The task is blocked in `PRT_SignalWait` or in `PRT_SigSuspend`. -/
def Cont.awaitsSignal : Cont → Bool
  | .signalWait _ | .sigSuspend _ => true
  | _ => false

/-- `PRT_SigSuspend` has opened the interrupts and is about to wait. -/
def Cont.entersWait : Cont → Bool
  | .sigSuspendEnter _ _ => true
  | _ => false

namespace Sched

/-- A task that is neither ready nor running and waits for no other object, in no list but that of
the delays. -/
structure Rests (s : Sched) (t : Nat) : Prop where
  engaged : (s.status t).engaged=false
  one : (s.status t).waitSignal=true → (s.status t).sigPause=false
  cont : (s.status t).waitSignal=true → (s.cont t).awaitsSignal=true
  pend : s.pend.loc t=none
  wait : s.wait.loc t=none
  running : s.cpu.runningTask≠t
  highest : s.highestTask≠some t
  real : t≠s.zombie

def AllRest (s : Sched) : Prop := ∀ t, (s.status t).parked=true → s.Rests t

namespace AllRest

variable {a s s' : Sched} {t : Nat}

lemma loose (h : s.AllRest) (ht : ¬s.Rests t) : (s.status t).parked=false := by
  by_contra hp
  exact ht (h t ((Bool.not_eq_false _).mp hp))

lemma frame (h : s.AllRest) (hs : SameTasks s s') : s'.AllRest := by
  have hst (t : Nat) : s'.status t=s.status t := by rw [status,hs.tcb,status]
  intro t ht
  rw [hst] at ht
  have hr := h t ht
  refine ⟨?_,?_,?_,?_,?_,?_,?_,?_⟩
  . rw [hst]
    exact hr.engaged
  . rw [hst]
    exact hr.one
  . rw [hst,hs.cont]
    exact hr.cont
  . rw [hs.pend]
    exact hr.pend
  . rw [hs.wait]
    exact hr.wait
  . rcases hs.running with he | he | he
    . rw [he]
      exact hr.running
    . rintro rfl
      exact hr.highest he
    rw [he]
    exact hr.real.symm
  . rcases hs.highest with he | he
    . rw [he]
      exact hr.highest
    intro hh
    exact he t hh hr.pend
  rw [zombie,hs.cfg]
  exact hr.real

lemma modTcb (h : s.AllRest) {f : TskCb → TskCb}
    (hf : Follows (s.status t) (f (s.tcb t)).taskStatus) : (s.modTcb t f).AllRest := by
  intro u hu
  by_cases hut : u=t
  . subst hut
    have hst : (s.modTcb u f).status u=(f (s.tcb u)).taskStatus := by simp [status,Sched.modTcb]
    rw [hst] at hu
    have hp : (s.status u).parked=true := by
      by_contra hn
      rw [hf.parked ((Bool.not_eq_true _).mp hn)] at hu
      cases hu
    have hr := h u hp
    refine ⟨?_,?_,?_,hr.pend,hr.wait,hr.running,hr.highest,hr.real⟩
    . rw [hst]
      rcases hf.engaged with hn | he
      . rw [hp] at hn
        cases hn
      by_contra hn
      have hc := he ((Bool.not_eq_false _).mp hn)
      rw [hr.engaged] at hc
      cases hc
    . rw [hst]
      intro hw
      by_contra hn
      have hc := hf.sigPause ((Bool.not_eq_false _).mp hn)
      rw [hr.one (hf.waitSignal hw)] at hc
      cases hc
    rw [hst]
    exact fun hw => hr.cont (hf.waitSignal hw)
  have hst : (s.modTcb t f).status u=s.status u := by simp [status,Sched.modTcb,hut]
  rw [hst] at hu
  have hr := h u hu
  exact ⟨hst ▸ hr.engaged,hst ▸ hr.one,hst ▸ hr.cont,hr.pend,hr.wait,hr.running,hr.highest,hr.real⟩

lemma others (h : s.AllRest) (htcb : s'.tcb=s.tcb) (hcpu : s'.cpu=s.cpu)
    (hcfg : s'.cfg=s.cfg) (hh : s'.highestTask=s.highestTask)
    (hc : ∀ u, s'.cont u=s.cont u ∨ (s.status u).parked=false)
    (hp : ∀ u, s'.pend.loc u=s.pend.loc u ∨ s'.pend.loc u=none ∨ (s.status u).parked=false)
    (hw : ∀ u, s'.wait.loc u=s.wait.loc u ∨ s'.wait.loc u=none ∨
      (s.status u).parked=false) : s'.AllRest := by
  have hst (t : Nat) : s'.status t=s.status t := by rw [status,htcb,status]
  intro t ht
  rw [hst] at ht
  have hr := h t ht
  have hfree {p : Prop} (hn : (s.status t).parked=false) : p := by
    rw [ht] at hn
    cases hn
  refine ⟨?_,?_,?_,?_,?_,?_,?_,?_⟩
  . rw [hst]
    exact hr.engaged
  . rw [hst]
    exact hr.one
  . rw [hst]
    rcases hc t with he | he
    . rw [he]
      exact hr.cont
    exact hfree he
  . rcases hp t with he | he | he
    . rw [he]
      exact hr.pend
    . exact he
    exact hfree he
  . rcases hw t with he | he | he
    . rw [he]
      exact hr.wait
    . exact he
    exact hfree he
  . rw [hcpu]
    exact hr.running
  . rw [hh]
    exact hr.highest
  rw [zombie,hcfg]
  exact hr.real

/-- The rest of a state is kept by everything that the scheduler does to tasks that do not wait for
a signal. -/
lemma handles : Handles AllRest (fun _ _ => True) fun a s => a.AllRest → s.AllRest where
  refl _ := id
  frame h hs ha := (h ha).frame hs
  modTcb _ _ h _ _ hf ha := (h ha).modTcb (hf ha)
  modSigs _ _ h _ _ hb ha := (h ha).modTcb (by
    rw [hb]
    exact .same rfl rfl rfl)
  birth _ _ h _ _ ha := (h ha).modTcb ⟨nofun,nofun,.inr nofun⟩
  toZombie {a s} t h _ ht ha := by
    have hn := ht ha
    simp only [parked,Bool.or_eq_false_iff] at hn
    refine (h ha).modTcb ⟨fun hw => ?_,fun hp => ?_,.inl ((h ha).loose fun hr => hr.real rfl)⟩
    . exact absurd (hn.1.symm.trans hw) (by decide)
    exact absurd (hn.2.symm.trans hp) (by decide)
  setCont t k h _ ht ha := by
    refine (h ha).others rfl rfl rfl rfl (fun u => ?_) (fun u => .inl rfl) fun u => .inl rfl
    by_cases hu : u=t
    . subst hu
      exact .inr (ht ha)
    exact .inl (update_of_ne hu _ _)
  pendInsert {_ s} t hd i h _ ht ha := by
    refine (h ha).others rfl rfl rfl rfl (fun u => .inl rfl) (fun u => ?_) fun u => .inl rfl
    rcases s.pend.insert_loc_or t u hd i with rfl | hu
    . exact .inr (.inr (ht ha))
    exact .inl hu
  pendDelete {_ s} t h ha := by
    refine (h ha).others rfl rfl rfl rfl (fun u => .inl rfl) (fun u => ?_) fun u => .inl rfl
    exact (s.pend.delete_loc_or t u).imp_right .inl
  timerDelete _ h ha := (h ha).others rfl rfl rfl rfl (fun _ => .inl rfl) (fun _ => .inl rfl)
    fun _ => .inl rfl
  waitInsert {_ s} t wq i fs h ht ha := by
    refine (h ha).others rfl rfl rfl rfl (fun u => .inl rfl) (fun u => .inl rfl) fun u => ?_
    rcases s.wait.insert_loc_or t u wq i with rfl | hu
    . exact .inr (.inr (ht ha))
    exact .inl hu
  waitDelete {_ s} t h ha := by
    refine (h ha).others rfl rfl rfl rfl (fun u => .inl rfl) (fun u => .inl rfl) fun u => ?_
    exact (s.wait.delete_loc_or t u).imp_right .inl
  ofPend h hl ha := (h ha).loose fun hr => hl hr.pend
  ofWait h hl ha := (h ha).loose fun hr => hl hr.wait
  ofRunning h ha := (h ha).loose fun hr => hr.running rfl
  ofHighest h hl ha := (h ha).loose fun hr => hr.highest hl
  ofEngaged h hl ha := (h ha).loose fun hr => by
    rw [hr.engaged] at hl
    cases hl

lemma steps : Steps AllRest (fun _ _ => True) (fun _ => True)
    (fun a s => a.AllRest → s.AllRest) fun a s => a.AllRest → s.AllRest where
  pre := handles
  post := handles
  weaken := id
  timerAdd {a s} n _ h _ ha := by
    have h1 : (s.modTcb a.cpu.runningTask fun c =>
        {c with expirationTick:=(s.cpu.uniTicks+n)%2^64}).AllRest :=
      (h ha).modTcb (.same rfl rfl rfl)
    exact h1.others rfl rfl rfl rfl (fun _ => .inl rfl) (fun _ => .inl rfl) fun _ => .inl rfl

end AllRest

lemma osTskSchedule_leaves {s : Sched} (hl : s.cpu.uniTaskLock=0)
    (hi : s.cpu.intActive=false) (hrun : s.pend.loc s.cpu.runningTask=none) :
    s.osTskSchedule.cpu.crashed=true ∨ ∃ (t : Nat) (s1 : Sched), s.pend.loc t≠none ∧
      s1.view=s.view ∧ s1.wait=s.wait ∧ s1.cfg=s.cfg ∧ s1.cpu.runningTask=s.cpu.runningTask ∧
      s1.highestTask=some t ∧ s.osTskSchedule=s1.switchTo t := by
  have hlink {t : Nat} (ht : s.osTskHighestSet.highestTask=some t) : s.pend.loc t≠none := by
    have hm : t∈s.readyList s.runQue.first := mem_of_mem_head? ht
    rw [(s.pend.mem_iff _ _).mp hm]
    nofun
  have hne : s.osTskHighestSet.highestTask≠some s.osTskHighestSet.cpu.runningTask :=
    fun he => hlink he hrun
  have heq : s.osTskSchedule =
      {s.osTskHighestSet with cpu:={s.osTskHighestSet.cpu with tskReq:=true}}.osMainSchedule := by
    unfold osTskSchedule
    rw [if_pos ⟨hne,hl⟩,if_neg]
    exact (Bool.not_eq_true _).mpr hi
  generalize hs1 : ({s.osTskHighestSet with
    cpu := {s.osTskHighestSet.cpu with tskReq:=true}} : Sched)=s1 at heq
  have hreq : s1.cpu.tskReq=true := by rw [← hs1]
  have hhigh : s1.highestTask=s.osTskHighestSet.highestTask := by rw [← hs1]
  rw [heq]
  cases hh : s.osTskHighestSet.highestTask with
  | none =>
    left
    rw [hh] at hhigh
    simp only [osMainSchedule,hreq,if_true,hhigh]
  | some t =>
    rw [hh] at hhigh
    refine .inr ⟨t,s1,hlink hh,?_,?_,?_,?_,hhigh,?_⟩
    . rw [← hs1]
      rfl
    . rw [← hs1]
      rfl
    . rw [← hs1]
      rfl
    . rw [← hs1]
      rfl
    simp only [osMainSchedule,hreq,if_true,hhigh]

/-- The caller has no mark of another wait and is in no wait queue. -/
structure CallerFree (s : Sched) : Prop where
  real : s.cpu.runningTask≠s.zombie
  marks : ({s.status s.cpu.runningTask with ready:=false, running:=false}).engaged=false
  wait : s.wait.loc s.cpu.runningTask=none

lemma AllRest.leave {s s1 : Sched} {v : TaskView} (h : s.AllRest) (hfree : s.CallerFree)
    (hl : s.cpu.uniTaskLock=0) (hi : s.cpu.intActive=false)
    (hv : s1.view=update s.view s.cpu.runningTask v) (hwait : s1.wait=s.wait)
    (hcpu : s1.cpu=s.cpu) (hcfg : s1.cfg=s.cfg) (hvloc : v.loc=none)
    (hmarks : ({v.bits with running:=false}).engaged=false)
    (hone : v.bits.waitSignal=true → v.bits.sigPause=false)
    (hcont : v.bits.waitSignal=true → v.cont.awaitsSignal=true)
    (halive : s1.osTskSchedule.cpu.crashed=false) : s1.osTskSchedule.AllRest := by
  have hself : s1.view s.cpu.runningTask=v := by rw [hv,update_self]
  have hview (u : Nat) (hu : u≠s.cpu.runningTask) : s1.view u=s.view u := by
    rw [hv,update_of_ne hu]
  have hloc : s1.pend.loc s.cpu.runningTask=none := by
    rw [← hvloc,← hself]
    rfl
  have hcaller : s1.status s.cpu.runningTask=v.bits := by
    rw [← hself]
    rfl
  have hgoes : s1.cont s.cpu.runningTask=v.cont := by
    rw [← hself]
    rfl
  obtain hc | ⟨t,s2,ht,hv2,hw2,hcfg2,hr2,hh2,he⟩ := osTskSchedule_leaves (s:=s1)
    (by rw [hcpu]; exact hl) (by rw [hcpu]; exact hi) (by rw [hcpu]; exact hloc)
  . rw [halive] at hc
    cases hc
  rw [he]
  rw [hcpu] at hr2
  -- nobody who waits for a signal is chosen
  have hloose (u : Nat) (hu : (s1.status u).parked=true) : u≠t := by
    rintro rfl
    by_cases hrun : u=s.cpu.runningTask
    . subst hrun
      exact ht hloc
    have hvu := hview u hrun
    have hp : (s.status u).parked=true := by
      have hbits := congrArg (fun v => v.bits.parked) hvu
      exact hbits.symm.trans hu
    have hlu := congrArg TaskView.loc hvu
    exact ht (hlu.trans (h u hp).pend)
  have hzombie : (s2.switchTo t).zombie=s.zombie := by
    change s2.cfg.tskMaxNum+1=s.cfg.tskMaxNum+1
    rw [hcfg2,hcfg]
  intro u hu
  have hvu : (s2.switchTo t).view u=(s1.view u).modStatus fun b =>
      { b with running := if u=t then true
          else if u=s.cpu.runningTask then false else b.running } := by
    rw [switchTo_view_eq,hv2,hr2]
  have hp : (s1.status u).parked=true := by
    have hbits := congrArg (fun v => v.bits.parked) hvu
    exact hbits.symm.trans hu
  have hut := hloose u hp
  have hst : (s2.switchTo t).status u = { s1.status u with
      running := if u=s.cpu.runningTask then false else (s1.status u).running } := by
    have hbits := congrArg TaskView.bits hvu
    simp only [if_neg hut] at hbits
    exact hbits
  have hcu : (s2.switchTo t).cont u=s1.cont u := congrArg TaskView.cont hvu
  have hpu : (s2.switchTo t).pend.loc u=s1.pend.loc u := congrArg TaskView.loc hvu
  have hwu : (s2.switchTo t).wait.loc u=s.wait.loc u := by
    change s2.wait.loc u=_
    rw [hw2,hwait]
  have hnext : (s2.switchTo t).cpu.runningTask≠u := Ne.symm hut
  have hchosen : (s2.switchTo t).highestTask≠some u := by
    change s2.highestTask≠some u
    rw [hh2]
    simpa using Ne.symm hut
  by_cases hrun : u=s.cpu.runningTask
  . subst hrun
    rw [if_pos rfl,hcaller] at hst
    refine ⟨?_,?_,?_,hpu.trans hloc,hwu.trans hfree.wait,hnext,hchosen,?_⟩
    . rw [hst]
      exact hmarks
    . rw [hst]
      exact hone
    . rw [hst,hcu,hgoes]
      exact hcont
    rw [hzombie]
    exact hfree.real
  have hold := hview u hrun
  have hbits : s1.status u=s.status u := congrArg TaskView.bits hold
  rw [if_neg hrun,hbits] at hst
  rw [hbits] at hp
  have hr := h u hp
  refine ⟨?_,?_,?_,?_,hwu.trans hr.wait,hnext,hchosen,?_⟩
  . rw [hst]
    exact hr.engaged
  . rw [hst]
    exact hr.one
  . have hco : s1.cont u=s.cont u := congrArg TaskView.cont hold
    rw [hst,hcu,hco]
    exact hr.cont
  . exact (hpu.trans (congrArg TaskView.loc hold)).trans hr.pend
  rw [hzombie]
  exact hr.real

variable {s : Sched}

lemma osEventTimeOutSet_view (s : Sched) (t n : Nat) : ∃ v : TaskView,
    (s.osEventTimeOutSet t n).view=update s.view t v ∧ v.loc=(s.view t).loc ∧
      v.cont=(s.view t).cont ∧ ∃ x, v.bits={s.status t with timeout:=x} := by
  unfold osEventTimeOutSet
  split
  . exact ⟨_,s.modStatus_view t _,rfl,rfl,false,rfl⟩
  refine ⟨((s.view t).modStatus fun b => {b with timeout:=true}).timerAdd
    ((s.cpu.uniTicks+n)%2^64),?_,rfl,rfl,true,rfl⟩
  rw [osTskTimerAdd_view,modStatus_view,update_self,update_idem]
  rfl

lemma osEventTimeOutSet_frame (s : Sched) (t n : Nat) :
    (s.osEventTimeOutSet t n).wait=s.wait ∧ (s.osEventTimeOutSet t n).cpu=s.cpu ∧
      (s.osEventTimeOutSet t n).cfg=s.cfg := by
  unfold osEventTimeOutSet
  split <;> exact ⟨rfl,rfl,rfl⟩

lemma AllRest.caller (h : s.AllRest) : (s.status s.cpu.runningTask).waitSignal=false ∧
    (s.status s.cpu.runningTask).sigPause=false := by
  have hp := h.loose fun hr => hr.running rfl
  simpa only [parked,Bool.or_eq_false_iff] using hp

lemma AllRest.osSignalWaitSche (h : s.AllRest) (hfree : s.CallerFree)
    (hi : s.cpu.intActive=false) (set : BitVec 64) (n : Nat) {c : Cont} (hc : c.awaitsSignal=true)
    (halive : (s.osSignalWaitSche set n c).1.cpu.crashed=false) :
    (s.osSignalWaitSche set n c).1.AllRest := by
  revert halive
  simp only [Sched.osSignalWaitSche]
  split
  . exact fun _ => h
  split
  . exact fun _ => h
  next hl =>
  intro halive
  generalize hs1 : (((s.setCont s.cpu.runningTask c).modTcb s.cpu.runningTask fun c =>
    {c with sigWaitMask:=set}).osTskReadyDel s.cpu.runningTask).modStatus s.cpu.runningTask
      (fun b => {b with waitSignal:=true})=s1 at halive ⊢
  obtain ⟨v,hview,hloc,hgo,x,hbits⟩ := s1.osEventTimeOutSet_view s.cpu.runningTask n
  obtain ⟨hwait,hcpu,hcfg⟩ := s1.osEventTimeOutSet_frame s.cpu.runningTask n
  have hview1 : ∃ w : TaskView, s1.view=update s.view s.cpu.runningTask w ∧ w.loc=none ∧ w.cont=c ∧
      w.bits={s.status s.cpu.runningTask with ready:=false, waitSignal:=true} := by
    rw [← hs1,modStatus_view,osTskReadyDel_view,modTcb_view,setCont_view]
    simp only [update_self,update_idem]
    exact ⟨_,rfl,rfl,rfl,rfl⟩
  obtain ⟨w,hview1,hloc1,hgo1,hbits1⟩ := hview1
  have hself : s1.view s.cpu.runningTask=w := by rw [hview1,update_self]
  have hst : v.bits = { s.status s.cpu.runningTask with
      ready := false, waitSignal := true, timeout := x } := by
    rw [hbits]
    change {(s1.view s.cpu.runningTask).bits with timeout:=x} = _
    rw [hself,hbits1]
  rw [hview1,update_idem] at hview
  rw [hself] at hloc hgo
  refine h.leave hfree (by simpa using hl) hi hview ?_ ?_ ?_ (hloc.trans hloc1) ?_ ?_ ?_ halive
  . rw [hwait,← hs1]
    rfl
  . rw [hcpu,← hs1]
    rfl
  . rw [hcfg,← hs1]
    rfl
  . rw [hst]
    exact hfree.marks
  . intro _
    rw [hst]
    exact h.caller.2
  intro _
  rw [hgo,hgo1]
  exact hc

lemma AllRest.prtSignalWait (h : s.AllRest) (hfree : s.CallerFree) (set : BitVec 64) (n : Nat)
    (halive : (s.prtSignalWait set n).1.cpu.crashed=false) : (s.prtSignalWait set n).1.AllRest := by
  revert halive
  simp only [Sched.prtSignalWait]
  split
  . exact fun _ => h
  split
  . exact fun _ => h
  next hi =>
  split
  . exact fun _ => handles.step_osSigWaitProcPendingSignal signals_any (handles.refl s) set h
  exact h.osSignalWaitSche hfree ((Bool.not_eq_true _).mp hi) set n rfl

lemma AllRest.pause (h : s.AllRest) (hfree : s.CallerFree) (hl : s.cpu.uniTaskLock=0)
    (hi : s.cpu.intActive=false) (halive : s.pause.cpu.crashed=false) : s.pause.AllRest := by
  have hview : ((s.modStatus s.cpu.runningTask fun b => {b with sigPause:=true}).osTskReadyDel
      s.cpu.runningTask).view=update s.view s.cpu.runningTask
        (((s.view s.cpu.runningTask).modStatus fun b => {b with sigPause:=true}).readyDel) := by
    rw [osTskReadyDel_view,modStatus_view,update_self,update_idem]
  refine h.leave hfree hl hi hview rfl rfl rfl rfl hfree.marks ?_ ?_ halive
  . intro hw
    exact absurd (h.caller.1.symm.trans hw) nofun
  intro hw
  exact absurd (h.caller.1.symm.trans hw) nofun

lemma AllRest.lapseTask (h : s.AllRest) {t : Nat} (ht : (s.status t).parked=false) :
    (s.lapseTask t).AllRest := by
  have hl : Loose AllRest s (s.osTaskExpire t) t := by
    apply Loose.osTaskExpire
    exact fun _ => ht
  have h1 := handles.step_osTaskExpire (t:=t) (handles.refl s) (.inl Touch.any_all)
  exact handles.step_readyAddUnlessSuspend h1 hl h

lemma lapseTask_parked (s : Sched) (t u : Nat) :
    ((s.lapseTask t).status u).parked=(s.status u).parked := by
  have hview := congrArg (fun v => (v u).bits.parked) (s.lapseTask_view t)
  apply hview.trans
  by_cases hu : u=t
  . subst hu
    simp only [update_self]
    exact TaskView.lapse_parked _
  simp only [update_of_ne hu]
  rfl

lemma AllRest.foldl_lapseTask (h : s.AllRest) (l : List Nat)
    (hl : ∀ t∈l, (s.status t).parked=false) : (l.foldl Sched.lapseTask s).AllRest := by
  induction l generalizing s with
  | nil => exact h
  | cons t l ih =>
    apply ih (h.lapseTask (hl t mem_cons_self))
    intro u hu
    rw [lapseTask_parked]
    exact hl u (mem_cons_of_mem _ hu)

lemma AllRest.osTaskScan (h : s.AllRest) (hl : ∀ t∈s.lapsed, (s.status t).parked=false) :
    s.osTaskScan.AllRest := by
  have h1 : (osTaskScanLoop s.delayList.length s false).1.AllRest := by
    rw [osTaskScanLoop_eq (Nat.le_refl _)]
    exact h.foldl_lapseTask _ hl
  simp only [Sched.osTaskScan]
  split
  . exact handles.step_osTskSchedule (handles.refl _) h1
  exact h1

lemma AllRest.tickScan (h : s.AllRest) (hdue : ∀ t∈s.delayList,
    (s.tcb t).expirationTick≤(s.cpu.uniTicks+1)%2^64 → (s.status t).parked=false) :
    s.tickScan.AllRest := by
  have h1 : {s with cpu := {s.cpu with
      uniTicks := (s.cpu.uniTicks+1)%2^64, tickPhase := .hooks}}.AllRest := by
    intro t ht
    have hr := h t ht
    exact ⟨hr.engaged,hr.one,hr.cont,hr.pend,hr.wait,hr.running,hr.highest,hr.real⟩
  apply h1.osTaskScan
  intro t ht
  have hmem : t∈s.delayList := (takeWhile_sublist _).subset ht
  exact hdue t hmem (by simpa using mem_takeWhile_imp ht)

lemma intActive_of_taskContext (h : s.cpu.taskContext=true) : s.cpu.intActive=false := by
  simp only [Cpu.taskContext,Bool.and_eq_true,Bool.not_eq_true'] at h
  simp [Cpu.intActive,h]

/-- How often a node that is in a list has been linked again by its `pendList`. -/
def relinks (s : Sched) : Nat := s.faults.count (.addLinked .pendList)

lemma osTskSchedule_faults (s : Sched) : s.osTskSchedule.faults=s.faults := by
  simp only [osTskSchedule,osMainSchedule]
  repeat' split
  all_goals rfl

lemma timeoutClear_relinks (s : Sched) (t : Nat) : (s.timeoutClear t).relinks=s.relinks := by
  unfold timeoutClear relinks
  split
  . unfold timerDelete
    split
    . rfl
    exact count_cons_of_ne (by decide)
  rfl

lemma readyAddUnlessSuspend_relinks {t : Nat} (h : s.pend.loc t=none) :
    (s.readyAddUnlessSuspend t).relinks=s.relinks := by
  unfold readyAddUnlessSuspend relinks
  split
  . rfl
  rw [osTskReadyAdd_faults h]

lemma timeoutClear_loc (s : Sched) (t : Nat) : (s.timeoutClear t).pend=s.pend := by
  unfold timeoutClear
  split <;> rfl

/-- The task neither runs nor waits in a list. -/
structure Idle (s : Sched) (t : Nat) : Prop where
  engaged : (s.status t).engaged=false
  running : s.cpu.runningTask≠t
  pend : s.pend.loc t=none
  wait : s.wait.loc t=none

/-- `OS_TSK_WAIT_SIGNAL` is set only while the task is blocked in a signal wait, and a waiting or
pausing task that `PRT_SignalDeliver` readies is in no list. -/
structure SignalWaitsOk (s : Sched) : Prop where
  waits : ∀ t, (s.status t).waitSignal=true → (s.cont t).awaitsSignal=true ∧ s.Idle t
  pauses : ∀ t, (s.status t).sigPause=true → s.Idle t
  delivers : ∀ t info memOk,
    (s.status t).parked=true ∨ s.kthreadStateTst t .interruptible=false →
      (s.prtSignalDeliver t info memOk).1.relinks=s.relinks

lemma AllRest.idle (h : s.AllRest) {t : Nat} (ht : (s.status t).parked=true) : s.Idle t := by
  have hr := h t ht
  exact ⟨hr.engaged,hr.running,hr.pend,hr.wait⟩

lemma osSignalWaitReSche_relinks {t : Nat} (h : s.pend.loc t=none) :
    (s.osSignalWaitReSche t).relinks=s.relinks := by
  unfold osSignalWaitReSche
  rw [relinks,osTskSchedule_faults]
  change ((s.timeoutClear t).readyAddUnlessSuspend t).relinks=_
  rw [readyAddUnlessSuspend_relinks,timeoutClear_relinks]
  rw [timeoutClear_loc]
  exact h

lemma signalHold_relinks {t signum : Nat} (hp : (s.status t).sigPause=true → s.pend.loc t=none)
    (hk : (s.status t).sigPause=true ∨ s.kthreadStateTst t .interruptible=false) :
    (s.signalHold t signum).relinks=s.relinks := by
  unfold signalHold
  rw [relinks,osTskSchedule_faults]
  have hst : ((s.modTcb t fun c => {c with
      holdSignal := signum, taskStatus := {c.taskStatus with holdSignal:=true}}).status
        t).sigPause=(s.status t).sigPause := by
    simp [status,modTcb]
  rw [hst]
  split
  . next hs =>
    rw [osTskReadyAdd_faults]
    . rfl
    exact hp hs
  split
  . next hs ht =>
    have hk' := hk.resolve_left hs
    simp [kthreadStateTst,modTcb] at ht hk'
    exact absurd ht hk'
  rfl

lemma AllRest.delivers (h : s.AllRest) (t : Nat) (info : SigInfo) (memOk : Bool)
    (hk : (s.status t).parked=true ∨ s.kthreadStateTst t .interruptible=false) :
    (s.prtSignalDeliver t info memOk).1.relinks=s.relinks := by
  unfold prtSignalDeliver
  split
  . rfl
  split
  . rfl
  split
  . rfl
  split
  . rfl
  next c hc =>
  obtain ⟨hst,-,-,-,hkt,-⟩ := TskCb.osAddSignalPendingFlag_some hc
  have hself : ((s.modTcb t fun _ => c).status t)=s.status t := by
    simpa [status,Sched.modTcb] using hst
  dsimp only
  rw [hself]
  split
  . next hw =>
    have hidle := h.idle (t:=t) (by simp [parked,hw.1])
    rw [osSignalWaitReSche_relinks]
    . rfl
    exact hidle.pend
  next hw =>
  split
  . rfl
  split
  . rfl
  split
  . next hb =>
    have hpark (hp : (s.status t).parked=true) : (s.status t).sigPause=true := by
      have he := (h t hp).engaged
      simp only [engaged,Bool.or_eq_false_iff] at he
      simp [he] at hb
      exact hb.1
    rw [signalHold_relinks]
    . rfl
    . rw [hself]
      intro hp
      exact (h.idle (t:=t) (by simp [parked,hp])).pend
    rw [hself]
    refine hk.imp hpark fun hk => ?_
    simpa [kthreadStateTst,Sched.modTcb,hkt] using hk
  rfl

lemma AllRest.signalWaitsOk (h : s.AllRest) : s.SignalWaitsOk := by
  refine ⟨fun t ht => ?_,fun t ht => ?_,h.delivers⟩
  . have hp : (s.status t).parked=true := by simp [parked,ht]
    exact ⟨(h t hp).cont ht,h.idle hp⟩
  exact h.idle (by simp [parked,ht])

end Sched

open Sched

/-- A task starts a signal wait with no mark of another wait and with the interrupts locked, is not
taken off the delay list before the signal, and is not resumed while it waits suspended. -/
def Input.signalSafe (k : Kernel) : Input → Prop
  | .call (.taskResume t) | .call (.wakeUpProcess t) =>
    (k.sched.status t).suspend=true → (k.sched.status t).parked=false
  | .call (.signalWait _ _) => k.sched.CallerFree
  | .call .pause => k.sched.CallerFree ∧ k.sched.cpu.uniTaskLock=0
  | .proceed => (k.sched.cont k.sched.cpu.runningTask).entersWait=false
  | .tickScan => ∀ t∈k.sched.delayList,
      (k.sched.tcb t).expirationTick≤(k.sched.cpu.uniTicks+1)%2^64 → (k.sched.status t).parked=false
  | _ => True

namespace Kernel

variable {k : Kernel} {i : Input}

lemma init_allRest (cfg : Cfg) : (init cfg).sched.AllRest := by
  intro t ht
  by_cases hz : t=cfg.tskMaxNum+1
  . subst hz
    simp [init,status,parked] at ht
  simp [init,status,parked,hz] at ht

lemma act_allRest (h : k.sched.AllRest) (hi : Suits AllRest (fun _ _ => True) k i)
    (ht : i≠.tickScan) : (k.act i).1.sched.AllRest :=
  AllRest.steps.act signals_any hi ht (fun _ => trivial) h

lemma step_allRest (h : k.sched.AllRest) (hen : k.enabled i=true) (hs : i.signalSafe k)
    (halive : (k.act i).1.sched.cpu.crashed=false) : (k.act i).1.sched.AllRest := by
  cases i with
  | tickScan => exact h.tickScan hs
  | proceed =>
    cases hc : k.sched.cont k.sched.cpu.runningTask with
    | sigSuspendEnter saved wait =>
      have hopen : (k.sched.cont k.sched.cpu.runningTask).entersWait=false := hs
      rw [hc] at hopen
      cases hopen
    | _ =>
      refine act_allRest h ?_ (by simp)
      simp only [Suits,hc]
  | call c =>
    cases c with
    | taskResume | wakeUpProcess => exact act_allRest h (fun hsus _ => hs hsus) (by simp)
    | signalDeliver t info memOk =>
      refine act_allRest h ⟨fun _ _ => trivial,fun _ hw => ?_⟩ (by simp)
      exact (h t (by simp [parked,hw])).one hw
    | signalWait set n => exact h.prtSignalWait hs set n halive
    | pause =>
      have hctx : k.sched.cpu.taskContext=true := by
        have huser : k.sched.userCode=true := by
          simp only [enabled,Call.early,Call.taskOnly,Bool.and_eq_true] at hen
          split at hen
          . simpa using hen.2
          exact absurd hen.2 (by simp)
        simp only [userCode,Bool.and_eq_true] at huser
        exact huser.1.1
      exact h.pause hs.1 hs.2 (intActive_of_taskContext hctx) halive
    | _ => exact act_allRest h trivial (by simp)
  | _ => exact act_allRest h trivial (by simp)

lemma allRest_of_reaches {cfg : Cfg}
    (hr : (kernelMachine cfg).Reaches (fun k i => i.signalSafe k) k) :
    k.sched.cpu.crashed=false → k.sched.AllRest := by
  induction hr with
  | start hs =>
    subst hs
    exact fun _ => init_allRest cfg
  | @step k i _ hi ih =>
    change (k.step i).sched.cpu.crashed=false → (k.step i).sched.AllRest
    unfold Kernel.step
    split
    . next hen =>
      have halive : k.sched.cpu.crashed=false := by
        simp only [enabled,Bool.and_eq_true] at hen
        simpa using hen.1
      exact step_allRest (ih halive) hen hi
    exact ih

theorem signal_waits_rest {cfg : Cfg}
    (hr : (kernelMachine cfg).Reaches (fun k i => i.signalSafe k) k)
    (halive : k.sched.cpu.crashed=false) : k.sched.SignalWaitsOk :=
  (allRest_of_reaches hr halive).signalWaitsOk

def answeredInputs : List Input :=
  [.call (.taskCreate (smallTask 3) true false),.call (.taskResume 0),
   .call (.taskCreate (smallTask 4) true false),.call (.taskResume 1),.activate true,
   .call (.signalWait 1 5),.hwiEnter,.tickIsr,.hwiExit,.tickScan,.tickEnd,
   .call (.signalDeliver 0 ⟨1,0⟩ true),.proceed,.call (.signalWait 1 osWaitForever)]

instance (s : Sched) : Decidable s.CallerFree :=
  decidable_of_iff (s.cpu.runningTask≠s.zombie ∧
    ({s.status s.cpu.runningTask with ready:=false, running:=false}).engaged=false ∧
    s.wait.loc s.cpu.runningTask=none) ⟨fun h => ⟨h.1,h.2.1,h.2.2⟩,fun h => ⟨h.1,h.2,h.3⟩⟩

def runOf (is : List Input) : Kernel := (kernelMachine smallCfg).run (init smallCfg) is

theorem signal_waits_rest_answered : ((runOf answeredInputs).sched.status 0).waitSignal=true ∧
      (runOf answeredInputs).sched.SignalWaitsOk := by
  have hrun : (kernelMachine smallCfg).Allowed (fun k i => i.signalSafe k) (init smallCfg)
      answeredInputs := by
    refine ⟨trivial,fun _ => ?_,trivial,fun _ => ?_,trivial,?_,trivial,trivial,trivial,
      ?_,trivial,trivial,?_,?_,trivial⟩
    . decide +kernel
    . decide +kernel
    . change Sched.CallerFree _
      decide +kernel
    . change ∀ t∈Sched.delayList _, _≤_ → parked _=false
      decide +kernel
    . change Cont.entersWait _=false
      decide +kernel
    change Sched.CallerFree _
    decide +kernel
  refine ⟨by decide +kernel,?_⟩
  exact signal_waits_rest (Machine.Reaches.run (.start rfl) answeredInputs hrun) (by decide +kernel)

/-- The limit runs out. The scan readies task 0 and clears its delay mark, not the other one. -/
def expiredInputs : List Input :=
  [.call (.taskCreate (smallTask 3) true false),.call (.taskResume 0),
   .call (.taskCreate (smallTask 4) true false),.call (.taskResume 1),.activate true,
   .call (.signalWait 1 1),.hwiEnter,.tickIsr,.hwiExit,.tickScan,.tickEnd,.proceed,
   .hwiEnter]

/-- The running task is marked, and a delivery links its node again. -/
theorem signal_wait_expired : (runOf expiredInputs).sched.cpu.crashed=false ∧
      (runOf expiredInputs).sched.cpu.runningTask=0 ∧
      ((runOf expiredInputs).sched.status 0).waitSignal=true ∧
      ((runOf expiredInputs).step (.call (.signalDeliver 0 ⟨1,0⟩ true))).sched.faults =
        [.addLinked .pendList] ∧ ¬(runOf expiredInputs).sched.SignalWaitsOk := by
  have hrun : (runOf expiredInputs).sched.cpu.runningTask=0 := by decide +kernel
  have hwait : ((runOf expiredInputs).sched.status 0).waitSignal=true := by decide +kernel
  refine ⟨by decide +kernel,hrun,hwait,by decide +kernel,fun h => ?_⟩
  exact (h.waits 0 hwait).2.running hrun

end Kernel

end UniProton
