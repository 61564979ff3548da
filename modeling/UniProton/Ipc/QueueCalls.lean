import UniProton.Kernel.TaskCalls
import UniProton.Ipc.Queue

namespace UniProton

open Framework Function

namespace Kernel

open Sched

variable {c u d : Prop} {k : Kernel} {s : Sched} {q len timeOut t : Nat} {write : Bool} {x : Cont}

lemma osInnerPend_cases (k : Kernel) (q : Nat) (write : Bool) (timeOut : Nat) (x : Cont) :
    (0<k.queCnt q write ∧
      k.osInnerPend q write timeOut x=(k.queCntSet q write (k.queCnt q write-1),some .osOk)) ∨
    (∃ e, k.osInnerPend q write timeOut x=(k,some e) ∧ e≠.osOk) ∨
    (k.queCnt q write=0 ∧ k.sched.cpu.intActive=false ∧ k.sched.cpu.uniTaskLock=0 ∧
      k.osInnerPend q write timeOut x =
        (k.onSched fun s => (osQueueBlock s q write timeOut x).osTskSchedule,none)) := by
  unfold osInnerPend
  split
  . next hn => exact .inl ⟨hn,rfl⟩
  next hn =>
  split
  . exact .inr (.inl ⟨_,rfl,nofun⟩)
  split
  . exact .inr (.inl ⟨_,rfl,nofun⟩)
  next hi =>
  split
  . exact .inr (.inl ⟨_,rfl,nofun⟩)
  next hz =>
  exact .inr (.inr ⟨by omega,Bool.eq_false_iff.mpr hi,not_not.mp hz,rfl⟩)

lemma osQueueBlock_settles (h : Able c u s) (hb : s.cpu.bgdActive=true)
    (hi : s.cpu.intActive=false) (hz : s.cpu.uniTaskLock=0) (hu : s.cont s.cpu.runningTask=.user)
    (hd : d → s.cpu.taskContext=true → s.cpu.runningTask≠s.cpu.idleTaskId) (hx : x.queueOf=some (q,write))
    (hn : c → s.cpu.taskContext=true → timeOut=osWaitForever →
      (s.view s.cpu.runningTask).bits.timeout=false) :
    Settles c u d s (osQueueBlock s q write timeOut x).osTskSchedule := by
  have hc := taskContext_of hb (by simp [hi])
  obtain ⟨ht,hm⟩ := h.leave hc
  obtain ⟨m,-,hm0,-⟩ := h.self hc (d:=d)
  have hv := congrFun (s.osTskReadyDel_view s.cpu.runningTask) s.cpu.runningTask
  rw [update_self] at hv
  have hbusy : ((s.osTskReadyDel s.cpu.runningTask).view s.cpu.runningTask).bits.queueBusy =
      false := by
    rw [hv]
    apply hm0.fits.busy_of_cont
    change (s.cont s.cpu.runningTask).queueOf=none
    rw [hu]
    rfl
  have hm1 : Moved c u s (osQueueBlock s q write timeOut x) s.cpu.runningTask (.queue q write) := by
    apply hm.pendQueue hbusy hx
    rw [hv]
    exact fun hc' => hn hc' hc
  exact .switch (hm1.leads h.core h.tidy ht nofun fun hd' he => absurd he (hd hd' hc)) hb
    (.inr ⟨hc,hz⟩)

lemma osQueueWake_leads (h : Able c u s) (ht : s.pend.loc t=some (.queue q write)) :
    Leads c u d s (osQueueWake s t) ∧ Able c u (osQueueWake s t) := by
  have hle := h.core.le_of_loc ht
  obtain ⟨m,hm,-⟩ := h.start hle
  obtain rfl := hm.fits.eq_of_loc_queue ht
  obtain ⟨m',hm',hr,hout,-⟩ := hm.wakeQueue.readyAddUnlessSuspend
  have hl : Leads c u d s (osQueueWake s t) := hm'.leads h.core h.tidy hle hout fun _ _ hc =>
    absurd (hm.fits.ready.symm.trans hc) (by simp [TskMode.bits])
  exact ⟨hl,hm'.able h (h.run.ne_running hle hm.fits rfl) hl⟩

lemma queueGive_settles (hs : k.sched=s) (h : Able c u s) (hb : s.cpu.bgdActive=true)
    (q : Nat) (write : Bool) : Settles c u d s (k.queueGive q write).sched := by
  subst hs
  unfold queueGive osQueuePendNeedProc
  cases hlist : k.sched.pend.lists (.queue q write) with
  | nil => exact h.refl
  | cons t l =>
    obtain ⟨hl,ha⟩ := osQueueWake_leads h (Links.head_loc hlist) (d:=d)
    exact .switch hl hb (.inl ha.run)

lemma queueReadOut_settles (hs : k.sched=s) (h : Able c u s) (hb : s.cpu.bgdActive=true)
    (q len : Nat) : Settles c u d s (k.queueReadOut q len).sched := by
  refine queueGive_settles ?_ h hb q true
  exact hs

lemma queueWriteIn_settles (hs : k.sched=s) (h : Able c u s) (hb : s.cpu.bgdActive=true)
    (q : Nat) (data : List UInt8) (prio : Nat) :
    Settles c u d s (k.queueWriteIn q data prio).sched := by
  refine queueGive_settles ?_ h hb q false
  exact hs

lemma osInnerPendCont_leads (h : Able c u k.sched) (hc : k.sched.cpu.taskContext=true) :
    Leads c u d k.sched k.osInnerPendCont.1.sched ∧ Able c u k.osInnerPendCont.1.sched ∧
      k.osInnerPendCont.1.sched.highestTask=k.sched.highestTask := by
  obtain ⟨m,hr,hm,hself⟩ := h.self hc (d:=d)
  have hv : ∀ x : Bool, ((k.sched.modStatus k.sched.cpu.runningTask fun b =>
      {b with timeout:=x, queueBusy:=false}).setCont k.sched.cpu.runningTask .user).view =
      update k.sched.view k.sched.cpu.runningTask
        ⟨{ (k.sched.view k.sched.cpu.runningTask).tcb with taskStatus :=
          { (k.sched.view k.sched.cpu.runningTask).tcb.taskStatus with
            timeout := x, queueBusy := false } },
        .user,(k.sched.view k.sched.cpu.runningTask).loc,
        (k.sched.view k.sched.cpu.runningTask).timed⟩ := by
    intro x
    rw [setCont_view,modStatus_view,update_self,update_idem]
    rfl
  simp only [osInnerPendCont]
  split
  . have he : ((k.sched.modStatus k.sched.cpu.runningTask fun b =>
        {b with queueBusy:=false}).setCont k.sched.cpu.runningTask .user).modStatus
          k.sched.cpu.runningTask (fun b => {b with timeout:=false}) =
        (k.sched.modStatus k.sched.cpu.runningTask fun b =>
          {b with timeout:=false, queueBusy:=false}).setCont k.sched.cpu.runningTask
            .user := by
      simp [Sched.modStatus,Sched.modTcb,Sched.setCont]
    have hm1 := hm.settle hr (k:=.user) (x:=false) rfl rfl rfl (fun _ _ => (by simp)) (hv false)
      ((hm.rq.modStatus _).setCont _) (fun _ => rfl) rfl rfl
    obtain ⟨hl,ha⟩ := hself hm1 (by rw [hv,update_self]; rfl)
    rw [← he] at hl ha
    exact ⟨hl,ha,rfl⟩
  next hto =>
  have hx : (k.sched.view k.sched.cpu.runningTask).bits.timeout=false := by
    refine Bool.eq_false_iff.mpr fun ht => hto ?_
    change (k.sched.tcb k.sched.cpu.runningTask).taskStatus.timeout=true at ht
    simpa [onSched,Sched.status,Sched.modStatus,Sched.modTcb,Sched.setCont] using ht
  have hm1 := hm.settle hr (k:=.user) rfl rfl rfl
    (fun _ _ ht => absurd (hx.symm.trans ht) (by simp)) (hv _)
    ((hm.rq.modStatus _).setCont _) (fun _ => rfl) rfl rfl
  obtain ⟨hl,ha⟩ := hself hm1 (by rw [hv,update_self]; rfl)
  exact ⟨hl,ha,rfl⟩

section calls

variable (h : Able c u k.sched) (hb : k.sched.cpu.bgdActive=true)
  (hu : k.sched.cpu.taskContext=true → k.sched.cont k.sched.cpu.runningTask=.user)
  (hd : d → k.sched.cpu.taskContext=true → k.sched.cpu.runningTask≠k.sched.cpu.idleTaskId)
  (hn : c → k.sched.cpu.taskContext=true → timeOut=osWaitForever →
    (k.sched.view k.sched.cpu.runningTask).bits.timeout=false)

include h hb hu hd hn

lemma osInnerPend_settles (hx : x.queueOf=some (q,write)) (f : Kernel → Kernel)
    (hf : ∀ k', k'.sched=k.sched → Settles c u d k.sched (f k').sched) :
    Settles c u d k.sched (match k.osInnerPend q write timeOut x with
      | (k,some .osOk) => (f k,some Errno.osOk)
      | r => r).1.sched := by
  rcases osInnerPend_cases k q write timeOut x with ⟨-,he⟩ | ⟨e,he,hne⟩ | ⟨-,hi,hz,he⟩
  . rw [he]
    exact hf _ rfl
  . rw [he]
    split
    . next heq =>
      cases heq
      exact absurd rfl hne
    exact h.refl
  rw [he]
  exact osQueueBlock_settles h hb hi hz (hu (taskContext_of hb (by simp [hi]))) hd hx hn

lemma prtQueueRead_settles (queueId len : Nat) :
    Settles c u d k.sched (k.prtQueueRead queueId len timeOut).1.sched := by
  simp only [prtQueueRead]
  split
  . exact h.refl
  split
  . exact h.refl
  split
  . exact h.refl
  exact osInnerPend_settles h hb hu hd hn (x:=.queueRead (osQueueInnerId queueId) len) rfl
    (fun k => k.queueReadOut _ len) fun k' hs => queueReadOut_settles hs h hb _ len

lemma prtQueueWrite_settles (queueId : Nat) (data : List UInt8) (prio : Nat) :
    Settles c u d k.sched (k.prtQueueWrite queueId data timeOut prio).1.sched := by
  simp only [prtQueueWrite]
  split
  . exact h.refl
  split
  . exact h.refl
  split
  . exact h.refl
  exact osInnerPend_settles h hb hu hd hn (x:=.queueWrite (osQueueInnerId queueId) data prio)
    rfl (fun k => k.queueWriteIn _ data prio) fun k' hs => queueWriteIn_settles hs h hb _ data prio

end calls

lemma queueReadCont_settles (h : Able c u k.sched) (hb : k.sched.cpu.bgdActive=true)
    (hc : k.sched.cpu.taskContext=true) (q len : Nat) :
    Settles c u d k.sched (k.queueReadCont q len).1.sched := by
  obtain ⟨hl,ha,hh⟩ := osInnerPendCont_leads (d:=d) h hc
  unfold queueReadCont
  split
  . next k1 he =>
    rw [he] at hl ha hh
    exact hl.settles (queueReadOut_settles rfl ha (by rw [hl.cpu]; exact hb) q len) hh
  next k1 e he =>
  rw [he] at hl ha hh
  exact .keep hl ha.run fun _ => hh

lemma queueWriteCont_settles (h : Able c u k.sched) (hb : k.sched.cpu.bgdActive=true)
    (hc : k.sched.cpu.taskContext=true) (q : Nat) (data : List UInt8) (prio : Nat) :
    Settles c u d k.sched (k.queueWriteCont q data prio).1.sched := by
  obtain ⟨hl,ha,hh⟩ := osInnerPendCont_leads (d:=d) h hc
  unfold queueWriteCont
  split
  . next k1 he =>
    rw [he] at hl ha hh
    exact hl.settles (queueWriteIn_settles rfl ha (by rw [hl.cpu]; exact hb) q data prio) hh
  next k1 e he =>
  rw [he] at hl ha hh
  exact .keep hl ha.run fun _ => hh

lemma prtQueueCreate_sched (k : Kernel) (n size : UInt16) (memOk : Bool) :
    (k.prtQueueCreate n size memOk).1.sched=k.sched := by
  simp only [prtQueueCreate]
  split
  . rfl
  split
  . rfl
  split <;> rfl

lemma prtQueueDelete_sched (k : Kernel) (queueId : Nat) :
    (k.prtQueueDelete queueId).1.sched=k.sched := by
  simp only [prtQueueDelete]
  split
  . rfl
  split
  . rfl
  split
  . rfl
  split <;> rfl

end Kernel

end UniProton
