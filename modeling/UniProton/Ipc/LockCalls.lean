import UniProton.Kernel.TaskCalls
import UniProton.Ipc.Event
import UniProton.Ipc.Rwlock
import UniProton.Osal.Linux

namespace UniProton

open Framework Function

namespace Sched

variable {c u d : Prop} {s : Sched} {t l timeOut : Nat} {write : Bool}

lemma Able.eventMask (h : Able c u s) (hc : s.cpu.taskContext=true)
    (hu : s.cont s.cpu.runningTask=.user) (mask : BitVec 32) (all : Bool) :
    let s1 := s.modTcb s.cpu.runningTask fun c =>
      {c with eventMask:=mask, taskStatus:={c.taskStatus with eventType:=all}}
    Leads c u d s s1 ∧ Able c u s1 := by
  obtain ⟨m,hr,hm,hself⟩ := h.self hc (d:=d)
  have he : (s.modTcb s.cpu.runningTask fun c => {c with eventMask:=mask}).modStatus
      s.cpu.runningTask (fun b => {b with eventType:=all}) =
      s.modTcb s.cpu.runningTask fun c =>
        {c with eventMask:=mask, taskStatus:={c.taskStatus with eventType:=all}} := by
    simp [Sched.modStatus,Sched.modTcb]
  have hm1 := hm.modTcb (f:=fun c => {c with eventMask:=mask}) rfl rfl rfl rfl hm.fits.orig
  have hq : ((s.modTcb s.cpu.runningTask fun c => {c with eventMask:=mask}).view
      s.cpu.runningTask).cont.queueOf=none := by
    change (s.cont s.cpu.runningTask).queueOf=none
    rw [hu]
    rfl
  have hm2 := hm1.settle hr hq hm1.fits.plain (hm1.fits.busy_of_cont hq) (fun hc' => (hm1.tight hc').cont)
    (modStatus_view _ _ fun b => {b with eventType:=all}) (hm1.rq.modStatus _) (fun _ => rfl)
    rfl rfl
  rw [he] at hm2
  apply hself hm2
  rw [modTcb_view,update_self]
  rfl

lemma osEventTake_leads (h : Able c u s) (hc : s.cpu.taskContext=true) (mask : BitVec 32) :
    Leads c u d s (s.osEventTake mask).1 ∧ Able c u (s.osEventTake mask).1 := by
  obtain ⟨m,hr,hm,hself⟩ := h.self hc (d:=d)
  have hm1 := hm.modTcb (f:=fun c => {c with event:=c.event &&& ~~~ mask}) rfl rfl rfl rfl
    hm.fits.orig
  refine hself hm1 ?_
  rw [osEventTake,modTcb_view,update_self]
  rfl

lemma osEventBlock_settles (h : Able c u s) (hb : s.cpu.bgdActive=true)
    (hc : s.cpu.taskContext=true) (hz : s.cpu.uniTaskLock=0) (hu : s.cont s.cpu.runningTask=.user)
    (hd : d → s.cpu.taskContext=true → s.cpu.runningTask≠s.cpu.idleTaskId) (mask : BitVec 32)
    (all : Bool) : Settles c u d s (s.osEventBlock mask all timeOut).osTskSchedule := by
  obtain ⟨ht,hm⟩ := h.enter hc hu (k:=.eventRead mask all) rfl rfl
  obtain ⟨hvc,-⟩ := enter_view (s:=s) (t:=s.cpu.runningTask) (.eventRead mask all)
  have hm1 : Moved c u s (s.osEventBlock mask all timeOut) s.cpu.runningTask .event :=
    hm.pendEvent hvc
  exact .switch (hm1.leads h.core h.tidy ht nofun fun hd' he => absurd he (hd hd' hc)) hb
    (.inr ⟨hc,hz⟩)

lemma prtEventRead_settles (h : Able c u s) (hb : s.cpu.bgdActive=true)
    (hu : s.cpu.taskContext=true → s.cont s.cpu.runningTask=.user)
    (hd : d → s.cpu.taskContext=true → s.cpu.runningTask≠s.cpu.idleTaskId)
    (mask flags : BitVec 32) (timeOut : Nat) :
    Settles c u d s (s.prtEventRead mask flags timeOut).1 := by
  simp only [prtEventRead]
  split
  . exact h.refl
  split
  . exact h.refl
  next hi =>
  have hc := taskContext_of hb hi
  obtain ⟨hl,ha⟩ := h.eventMask hc (hu hc) mask (decide (flags &&& osEventAll≠0)) (d:=d)
  have hu1 : (s.modTcb s.cpu.runningTask fun c =>
      {c with
        eventMask := mask
        taskStatus := {c.taskStatus with eventType:=decide (flags &&& osEventAll≠0)}}).cont
      s.cpu.runningTask=.user := hu hc
  have hh : (s.modTcb s.cpu.runningTask fun c =>
      {c with
        eventMask := mask
        taskStatus := {c.taskStatus with eventType:=decide (flags &&& osEventAll≠0)}}).highestTask
      = s.highestTask := rfl
  generalize (s.modTcb s.cpu.runningTask fun c =>
      {c with
        eventMask := mask
        taskStatus := {c.taskStatus with eventType:=decide (flags &&& osEventAll≠0)}})=s1
    at hl ha hu1 hh ⊢
  have hcpu := hl.cpu
  split
  . split
    . exact .keep hl ha.run fun _ => hh
    split
    . exact .keep hl ha.run fun _ => hh
    next hz =>
    refine hl.settles (osEventBlock_settles ha ?_ ?_ (not_not.mp hz) ?_ ?_ mask _) hh
    all_goals rw [hcpu]
    . exact hb
    . exact hc
    . exact hu1
    exact hd
  obtain ⟨hl',ha'⟩ := osEventTake_leads ha (by rw [hcpu]; exact hc) mask (d:=d)
  exact .keep (hl.trans hl') ha'.run fun _ => hh

lemma eventReadCont_settles (h : Able c u s) (hc : s.cpu.taskContext=true)
    {mask : BitVec 32} {all : Bool} (hu : s.cont s.cpu.runningTask=.eventRead mask all) :
    Settles c u d s (s.eventReadCont mask).1 := by
  have hq : (s.cont s.cpu.runningTask).queueOf=none := by
    rw [hu]
    rfl
  simp only [eventReadCont]
  split
  . obtain ⟨hl,ha⟩ := h.timedOut hc hq (d:=d)
    exact .keep hl ha.run fun _ => rfl
  next hto =>
  obtain ⟨hl,ha⟩ := h.goOn hc hq (k:=.user) rfl rfl (fun _ _ hc => absurd hc hto) (d:=d)
  obtain ⟨hl',ha'⟩ := osEventTake_leads ha hc mask (d:=d)
  exact .keep (hl.trans hl') ha'.run fun _ => rfl

lemma prtEventWrite_settles (h : Able c u s) (hb : s.cpu.bgdActive=true) (t : Nat)
    (events : BitVec 32) : Settles c u d s (s.prtEventWrite t events).1 := by
  unfold prtEventWrite
  split
  . exact h.refl
  next hov =>
  split
  . exact h.refl
  split
  . exact h.refl
  have ht := le_of_not_pidOverflow hov
  obtain ⟨m,hm,hout⟩ := h.start ht
  have hm1 := hm.modTcb (f:=fun c => {c with event:=c.event ||| events}) rfl rfl rfl rfl
    hm.fits.orig
  dsimp only
  split
  . next he =>
    obtain rfl := hm1.fits.eq_event he.1
    obtain ⟨m',hm',hr,hout',-⟩ := hm1.wakeEvent.readyAddUnlessSuspend
    have hne := h.run.ne_running ht hm.fits rfl
    refine .switch (hm'.leads h.core h.tidy ht hout' fun _ _ hr => ?_) hb
      (.inl (hm'.runOk h.run fun he => absurd he hne))
    exact absurd (hm.fits.ready.symm.trans hr) (by simp [TskMode.bits])
  refine .keep (hm1.leads h.core h.tidy ht (fun he => ?_) fun _ _ hr => hm.fits.eq_ready hr)
    (hm1.runOk h.run ?_) fun _ => rfl
  . rw [modTcb_view,update_self]
    exact hout he
  rintro rfl
  exact h.run.runnable_of hm.fits ht

lemma osRwLockPendSchedule_settles (h : Able c u s) (hb : s.cpu.bgdActive=true)
    (hc : s.cpu.taskContext=true) (hz : s.cpu.uniTaskLock=0) (hu : s.cont s.cpu.runningTask=.user)
    (hd : d → s.cpu.taskContext=true → s.cpu.runningTask≠s.cpu.idleTaskId)
    (hn : c → s.cpu.taskContext=true → timeOut=osWaitForever →
      (s.view s.cpu.runningTask).bits.timeout=false) :
    Settles c u d s (s.osRwLockPendSchedule l write timeOut).1 := by
  unfold osRwLockPendSchedule
  split
  . exact h.refl
  obtain ⟨ht,hm⟩ := h.enter hc hu (k:=.rwPend l write (hasLimit timeOut)) rfl rfl
  obtain ⟨hvc,hvt⟩ := enter_view (s:=s) (t:=s.cpu.runningTask)
    (.rwPend l write (hasLimit timeOut))
  have hm1 : Moved c u s (s.osRwLockPendPre l write timeOut) s.cpu.runningTask (.rw l write) := by
    refine hm.pendRw hvc _ ?_ fun hne => ?_
    . rw [hvt]
      exact fun hc' => hn hc' hc
    rw [hvc,hasLimit,decide_eq_true hne]
    rfl
  exact .switch (hm1.leads h.core h.tidy ht nofun fun hd' he => absurd he (hd hd' hc)) hb
    (.inr ⟨hc,hz⟩)

lemma rwPendCont_settles (h : Able c u s) (hc : s.cpu.taskContext=true) {timed : Bool}
    (hu : s.cont s.cpu.runningTask=.rwPend l write timed) :
    Settles c u d s (s.rwPendCont l write timed).1 := by
  have ht := h.run.real hc
  have hq : (s.cont s.cpu.runningTask).queueOf=none := by
    rw [hu]
    rfl
  cases timed with
  | true =>
    obtain ⟨hl,ha⟩ := h.goOn hc hq (k:=.rwCheck l write) rfl rfl (fun _ _ _ => rfl) (d:=d)
    exact .keep hl ha.run fun _ => rfl
  | false =>
    obtain ⟨hl,ha⟩ := h.goOn hc hq (k:=.user) rfl rfl (d:=d) fun hc' hu' hto => by
      have hcont : (s.cont s.cpu.runningTask).timed=true := ((h.tidy hc').tight _ ht).cont hu' hto
      rw [hu] at hcont
      cases hcont
    exact .keep hl ha.run fun _ => rfl

lemma rwCheckCont_settles (h : Able c u s) (hc : s.cpu.taskContext=true)
    (hu : s.cont s.cpu.runningTask=.rwCheck l write) : Settles c u d s s.rwCheckCont.1 := by
  have hq : (s.cont s.cpu.runningTask).queueOf=none := by
    rw [hu]
    rfl
  simp only [rwCheckCont]
  split
  . obtain ⟨hl,ha⟩ := h.timedOut hc hq (d:=d)
    exact .keep hl ha.run fun _ => rfl
  next hto =>
  obtain ⟨hl,ha⟩ := h.goOn hc hq (k:=.user) rfl rfl (fun _ _ hc => absurd hc hto) (d:=d)
  exact .keep hl ha.run fun _ => rfl

lemma osRwLockTaskWake_leads (h : Able c u s) (ht : s.pend.loc t=some (.rw l write)) :
    Leads c u d s (s.osRwLockTaskWake t) ∧ Able c u (s.osRwLockTaskWake t) := by
  have hle := h.core.le_of_loc ht
  obtain ⟨m,hm,-⟩ := h.start hle
  obtain rfl := hm.fits.eq_of_loc_rw ht
  obtain ⟨m',hm',hr,hout,-⟩ := hm.wakeRw.readyAddUnlessSuspend
  have hl : Leads c u d s (s.osRwLockTaskWake t) := hm'.leads h.core h.tidy hle hout fun _ _ hc =>
      absurd (hm.fits.ready.symm.trans hc) (by simp [TskMode.bits])
  exact ⟨hl,hm'.able h (h.run.ne_running hle hm.fits rfl) hl⟩

lemma osRwLockWakeReaders_leads (bound : Option Nat) (n : Nat) (s1 : Sched) (count : Int)
    (hl : Leads c u d s s1) (h : Able c u s1) :
    Leads c u d s (osRwLockWakeReaders l bound n s1 count).1 ∧
      Able c u (osRwLockWakeReaders l bound n s1 count).1 := by
  induction n generalizing s1 count with
  | zero => exact ⟨hl,h⟩
  | succ n ih =>
    unfold osRwLockWakeReaders
    split
    . exact ⟨hl,h⟩
    next t _ hlist =>
    split
    . exact ⟨hl,h⟩
    split
    . exact ⟨hl,h⟩
    obtain ⟨hl',ha⟩ := osRwLockTaskWake_leads h (Links.head_loc hlist) (d:=d)
    exact ih _ _ (hl.trans hl') ha

lemma osRwLockWakeReaders_full (bound : Option Nat) (n : Nat) (s : Sched) (count : Int)
    (hn : count+n ≤ s32Max-1) : (osRwLockWakeReaders l bound n s count).2.2=false := by
  induction n generalizing s count with
  | zero => rfl
  | succ n ih =>
    unfold osRwLockWakeReaders
    split
    . rfl
    split
    . rfl
    split
    . omega
    exact ih _ _ (by omega)

lemma Core.length_le (h : s.Core) (hd : PendHead) :
    (s.pend.lists hd).length ≤ s.cfg.tskMaxNum+1 := by
  have hsub : s.pend.lists hd ⊆ List.range (s.cfg.tskMaxNum+1) := by
    intro t ht
    have := h.le_of_mem ht
    exact List.mem_range.mpr (by omega)
  have hle := (List.Nodup.subperm (s.pend.nodup hd) hsub).length_le
  rwa [List.length_range] at hle

lemma kthreadStateSet_settles (h : Able c u s) (x : KthreadState) :
    Settles c u d s (s.kthreadStateSet s.cpu.runningTask x) := by
  by_cases ht : s.cpu.runningTask ≤ s.cfg.tskMaxNum
  . obtain ⟨m,hm,hout⟩ := h.start ht
    have hm1 := hm.kthreadStateSet x
    refine .keep (hm1.leads h.core h.tidy ht (fun he => ?_) fun _ _ hr => hm.fits.eq_ready hr)
      (hm1.runOk h.run fun _ => h.run.runnable_of hm.fits ht) fun _ => rfl
    rw [kthreadStateSet_view,update_self]
    exact hout he
  -- no list knows the zombie, and only its bits and its place would matter
  have hv : ∀ t, t ≤ s.cfg.tskMaxNum → (s.kthreadStateSet s.cpu.runningTask x).view t=s.view t := by
    intro t ht'
    rw [kthreadStateSet_view,update_of_ne (by omega)]
  have hz : ∀ t, ((s.kthreadStateSet s.cpu.runningTask x).view t).bits=(s.view t).bits := by
    intro t
    rw [kthreadStateSet_view]
    by_cases e : t=s.cpu.runningTask
    . subst e
      rw [update_self]
      rfl
    rw [update_of_ne e]
  refine .keep ⟨⟨?_,h.core.outside,?_,h.core.rq.kthreadStateSet x,?_⟩,rfl,rfl,?_,?_⟩
    ⟨fun hle => absurd hle ht,h.run.real,h.run.early,h.run.bound⟩ fun _ => rfl
  . intro t ht'
    rw [hv t ht']
    exact h.core.tasks t ht'
  . intro t ht'
    rw [hv t ht']
    exact h.core.pids t ht'
  . intro t ht'
    rw [hv t ht']
    exact h.core.running t ht'
  . refine fun hc => ⟨(h.tidy hc).faults,fun t ht' => ?_⟩
    rw [hv t ht']
    exact (h.tidy hc).tight t ht'
  intro _ hr
  rw [hz]
  exact hr

lemma scheduleTimeout_settles (h : Able c u s) (hb : s.cpu.bgdActive=true)
    (hk : s.cpu.taskContext=true → s.cont s.cpu.runningTask=.user)
    (hd : d → s.cpu.taskContext=true → s.cpu.runningTask≠s.cpu.idleTaskId) (hu : ¬u) {timeout : Int}
    (hn : c → s.cpu.taskContext=true → timeout=maxScheduleTimeout →
      (s.view s.cpu.runningTask).bits.timeout=false) :
    Settles c u d s (s.scheduleTimeout timeout) := by
  simp only [scheduleTimeout]
  split
  . exact kthreadStateSet_settles h _
  next hi =>
  split
  . exact prtTaskDelay_settles h hb hk hd 0
  push Not at hi
  have hc := taskContext_of hb hi.1
  obtain ⟨ht,hm⟩ := h.leave hc
  have hv := congrFun (s.osTskReadyDel_view s.cpu.runningTask) s.cpu.runningTask
  rw [update_self] at hv
  split
  . next he =>
    have hm1 := hm.pendDelayInt (hk hc) fun hc' => by
      rw [hv]
      exact hn hc' hc he
    exact .switch (hm1.leads h.core h.tidy ht nofun fun hd' he => absurd he (hd hd' hc)) hb
      (.inr ⟨hc,hi.2.1⟩)
  have hm1 := hm.pendDelayIntTimed (n:=timeout.toNat) (hk hc) hu
  exact .switch (hm1.leads h.core h.tidy ht nofun fun hd' he => absurd he (hd hd' hc)) hb
    (.inr ⟨hc,hi.2.1⟩)

lemma wakeUpProcess_settles (h : Able c u s) (t : Nat) : Settles c u d s (s.wakeUpProcess t) := by
  unfold wakeUpProcess
  split
  . exact prtTaskResume_settles h t
  . exact prtTaskResume_settles h t
  exact h.refl

end Sched

namespace Kernel

open Sched

variable {c u d : Prop} {k : Kernel} {l timeout : Nat}

lemma osRwLockCheck_ok (h : k.osRwLockCheck=.osOk) :
    k.sched.cpu.intActive=false ∧ k.sched.cpu.uniTaskLock=0 := by
  unfold osRwLockCheck at h
  split at h
  . cases h
  next hi =>
  split at h
  . cases h
  next hz => exact ⟨Bool.eq_false_iff.mpr hi,not_not.mp hz⟩

section calls

variable (h : Able c u k.sched) (hb : k.sched.cpu.bgdActive=true)
  (hu : k.sched.cpu.taskContext=true → k.sched.cont k.sched.cpu.runningTask=.user)
  (hd : d → k.sched.cpu.taskContext=true → k.sched.cpu.runningTask≠k.sched.cpu.idleTaskId)
  (hn : c → k.sched.cpu.taskContext=true → timeout=osWaitForever →
    (k.sched.view k.sched.cpu.runningTask).bits.timeout=false)

include h hb hu hd hn

lemma rwPendSchedule_settles (hok : k.osRwLockCheck=.osOk) (write : Bool) :
    Settles c u d k.sched (k.rwPendSchedule l write timeout).1.sched := by
  obtain ⟨hi,hz⟩ := osRwLockCheck_ok hok
  have hc := taskContext_of hb (by simp [hi])
  exact osRwLockPendSchedule_settles h hb hc hz (hu hc) hd hn

lemma osRwLockRdPend_settles (l : Nat) (try_ : Bool) :
    Settles c u d k.sched (k.osRwLockRdPend l timeout try_).1.sched := by
  simp only [osRwLockRdPend]
  split
  . exact h.refl
  next hok =>
  split
  . exact h.refl
  split
  . split
    . exact h.refl
    exact h.refl
  split
  . exact h.refl
  exact rwPendSchedule_settles h hb hu hd hn (not_not.mp hok) false

lemma osRwLockWrPend_settles (l : Nat) (try_ : Bool) :
    Settles c u d k.sched (k.osRwLockWrPend l timeout try_).1.sched := by
  simp only [osRwLockWrPend]
  split
  . exact h.refl
  next hok =>
  split
  . exact h.refl
  split
  . exact h.refl
  split
  . exact h.refl
  exact rwPendSchedule_settles h hb hu hd hn (not_not.mp hok) true

end calls

lemma osRwLockPostRead_leads (h : Able c u k.sched) {r : Nat} {rs : List Nat}
    (hlist : k.sched.pend.lists (.rw l false)=r::rs) (bound : Option Nat) :
    (k.osRwLockPostRead l bound r rs.length).2=(.osOk,true) ∧
      Leads c u d k.sched (k.osRwLockPostRead l bound r rs.length).1.sched ∧
      Able c u (k.osRwLockPostRead l bound r rs.length).1.sched := by
  obtain ⟨hl,ha⟩ := osRwLockTaskWake_leads h (Links.head_loc hlist) (d:=d)
  obtain ⟨hl',ha'⟩ := osRwLockWakeReaders_leads (l:=l) bound rs.length _ 1 hl ha
  have hfull : (osRwLockWakeReaders l bound rs.length (k.sched.osRwLockTaskWake r) 1).2.2 =
      false := by
    apply osRwLockWakeReaders_full bound _ _ _
    have hlen := h.core.length_le (.rw l false)
    have hmax := k.sched.cfg.tsk_lt
    rw [hlist,List.length_cons] at hlen
    simp only [s32Max]
    omega
  simp only [osRwLockPostRead]
  rw [hfull]
  exact ⟨rfl,hl',ha'⟩

lemma osRwLockPost_leads (h : Able c u k.sched) (l : Nat) :
    ((k.osRwLockPost l).1.sched=k.sched ∧ (k.osRwLockPost l).2.2=false) ∨
    ((k.osRwLockPost l).2=(.osOk,true) ∧ Leads c u d k.sched (k.osRwLockPost l).1.sched ∧
      Able c u (k.osRwLockPost l).1.sched) := by
  simp only [osRwLockPost]
  split
  . next hlist => exact .inr ⟨rfl,osRwLockTaskWake_leads h (Links.head_loc hlist)⟩
  . next hlist => exact .inr ⟨rfl,osRwLockTaskWake_leads h (Links.head_loc hlist)⟩
  . next hlist => exact .inr (osRwLockPostRead_leads (k:=k.modRw l fun _ => {}) h hlist _)
  . next hlist => exact .inr (osRwLockPostRead_leads (k:=k.modRw l fun _ => {}) h hlist _)
  exact .inl ⟨rfl,rfl⟩

lemma osRwLockUnlock_cases (k : Kernel) (l : Nat) :
    ((k.osRwLockUnlock l).1.sched=k.sched ∧ (k.osRwLockUnlock l).2.2=false) ∨
      k.osRwLockUnlock l=k.osRwLockPost l := by
  simp only [osRwLockUnlock]
  split
  . exact .inl ⟨rfl,rfl⟩
  split
  . exact .inl ⟨rfl,rfl⟩
  split
  . exact .inl ⟨rfl,rfl⟩
  split
  . exact .inl ⟨rfl,rfl⟩
  exact .inr rfl

lemma pthreadRwlockUnlock_settles (h : Able c u k.sched) (hb : k.sched.cpu.bgdActive=true)
    (l : Nat) : Settles c u d k.sched (k.pthreadRwlockUnlock l).1.sched := by
  have hun : ((k.osRwLockUnlock l).1.sched=k.sched ∧ (k.osRwLockUnlock l).2.2=false) ∨
      ((k.osRwLockUnlock l).2=(.osOk,true) ∧
        Leads c u d k.sched (k.osRwLockUnlock l).1.sched ∧
          Able c u (k.osRwLockUnlock l).1.sched) := by
    rcases osRwLockUnlock_cases k l with hk | he
    . exact .inl hk
    rw [he]
    exact osRwLockPost_leads h l
  unfold pthreadRwlockUnlock
  split
  . next k1 he =>
    rw [he] at hun
    rcases hun with ⟨-,hf⟩ | ⟨-,hl,ha⟩
    . cases hf
    exact .switch hl hb (.inl ha.run)
  next k1 e b hne he =>
  rw [he] at hun
  rcases hun with ⟨hs,-⟩ | ⟨hok,-,-⟩
  . rw [show k1.sched=k.sched from hs]
    exact h.refl
  obtain ⟨rfl,rfl⟩ := Prod.mk.inj hok
  exact absurd rfl (hne rfl)

end Kernel

end UniProton
