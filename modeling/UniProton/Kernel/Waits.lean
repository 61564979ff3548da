import UniProton.Kernel.Core

namespace UniProton

open Framework Function

namespace Sched

variable {c u : Prop} {s s1 s2 : Sched} {t n : Nat} {m : TskMode} {v : TaskView}

lemma RqOk.timeoutClear (h : s.RqOk) : (s.timeoutClear t).RqOk := by
  unfold Sched.timeoutClear
  split
  . exact (h.timerDelete).modStatus _
  exact h

lemma timeoutClear_view (h : (s.view t).bits.timeout=false → (s.view t).timed=false) :
    (s.timeoutClear t).view=update s.view t ⟨{ (s.view t).tcb with
          taskStatus := {(s.view t).tcb.taskStatus with timeout:=false} },
        (s.view t).cont,(s.view t).loc,false⟩ := by
  unfold timeoutClear
  split
  . simp only [modStatus_view,timerDelete_view,update_self,update_idem]
    rfl
  next hn =>
  have hb : (s.view t).bits.timeout=false := Bool.eq_false_iff.mpr hn
  have he : (s.view t).tcb.taskStatus =
      {(s.view t).tcb.taskStatus with timeout:=false} := by
    rw [← hb]
    rfl
  have hs : s.view t=⟨{ (s.view t).tcb with
      taskStatus := {(s.view t).tcb.taskStatus with timeout:=false} },
      (s.view t).cont,(s.view t).loc,false⟩ :=
    TaskView.ext (congrArg (fun b => {(s.view t).tcb with taskStatus:=b}) he) rfl rfl (h hb)
  rw [← hs,update_eq_self]

lemma timeoutClear_faults (h : (s.view t).bits.timeout=true → (s.view t).timed=true) :
    (s.timeoutClear t).faults=s.faults := by
  unfold timeoutClear
  split
  . next hb => exact timerDelete_faults (h hb)
  rfl

lemma timeoutClear_cfg : (s.timeoutClear t).cfg=s.cfg := by
  unfold timeoutClear
  split <;> rfl

lemma timeoutClear_cpu : (s.timeoutClear t).cpu=s.cpu := by
  unfold timeoutClear
  split <;> rfl

lemma Moved.limited (h : Moved c u s s1 t .out) (hv : s2.view=update s1.view t v)
    (hf : Fits s.cfg.prioLowest m v) (hm : m.timeable=true) (hq : s2.RqOk)
    (hfl : c → s2.faults=s1.faults) (hk : v.cont.timed=true) (hti : v.timed=(s1.view t).timed)
    (hs : Kept s1 s2 t v) :
    Moved c u s ((s2.modStatus t fun b => {b with timeout:=true}).osTskTimerAdd t n) t m := by
  have hvt : s2.view t=v := by rw [hv,update_self]
  refine h.step ?_ (hf.timeLimit hm (fun _ => hk) ((s2.cpu.uniTicks+n)%2^64))
    ((hq.modStatus _).osTskTimerAdd _) ?_ ?_
    ⟨hs.running,hs.pid,hs.cfg,hs.cpu⟩
  . rw [osTskTimerAdd_view,modStatus_view,hv]
    simp only [update_self,update_idem]
    rfl
  . intro hc'
    rw [← hfl hc']
    apply osTskTimerAdd_faults
    rw [modStatus_view,update_self,hvt]
    exact hti.trans (h.fits.timed_of_runnable rfl)
  intro hc'
  exact ⟨fun _ => rfl,fun _ _ => hk⟩

lemma Moved.unlimited (h : Moved c u s s1 t .out) (hv : s2.view=update s1.view t v)
    (hf : Fits s.cfg.prioLowest m v) (hm : m.timeable=true) (hq : s2.RqOk)
    (hfl : c → s2.faults=s1.faults) (hn : c → v.bits.timeout=false)
    (hs : Kept s1 s2 t v) : Moved c u s s2 t m := by
  refine h.step hv hf hq hfl ?_ hs
  intro hc'
  have hb := hn hc'
  refine ⟨?_,fun _ ht => absurd (hb.symm.trans ht) (by simp)⟩
  rintro (hd | ⟨_,ht⟩)
  . have hmd := hf.delay_iff.mp hd
    subst hmd
    cases hm
  exact absurd (hb.symm.trans ht) (by simp)

lemma Moved.limit (h : Moved c u s s1 t .out) (hv : s2.view=update s1.view t v)
    (hf : Fits s.cfg.prioLowest m v) (hm : m.timeable=true) (hq : s2.RqOk)
    (hfl : c → s2.faults=s1.faults) (hn : c → n=osWaitForever → v.bits.timeout=false)
    (hk : n≠osWaitForever → v.cont.timed=true) (hti : v.timed=(s1.view t).timed)
    (hs : Kept s1 s2 t v) : Moved c u s (s2.timeoutSet t n) t m := by
  unfold timeoutSet
  split
  . next he =>
    exact h.unlimited hv hf hm hq hfl (fun hc' => hn hc' he) hs
  next he =>
  exact h.limited hv hf hm hq hfl (hk he) hti hs

lemma Moved.pendSem (h : Moved c u s s1 t .out)
    (hq : (s1.view t).cont=.user ∨ (s1.view t).cont=.semPend) (i pos : Nat)
    (hn : c → n=osWaitForever → (s1.view t).bits.timeout=false)
    (hk : n≠osWaitForever → (s1.view t).cont.timed=true) : Moved c u s (((s1.modTcb t fun c =>
      {c with
               taskPend := some (.sem i),
               taskStatus := {c.taskStatus with pend:=true}}).pendInsert t (.sem i)
        pos).timeoutSet t n) t (.sem i) := by
  have hctx : (TskMode.sem i).Ctx (s1.view t).cont := hq
  have hf := h.fits.wait (m:=.sem i) (o:=some (.sem i)) rfl rfl hctx (h.fits.busy_of_ctx hctx rfl)
  refine h.limit ?_ hf rfl ((h.rq.modTcb _).pendInsert pos nofun) ?_ hn hk rfl ⟨rfl,rfl,rfl,rfl⟩
  . simp only [pendInsert_view,modTcb_view,update_self,update_idem]
    rfl
  intro _
  apply pendInsert_faults (s:=Sched.modTcb _ _ _)
  exact h.fits.loc

lemma Moved.resort {i : Nat} (h : Moved c u s s1 t (.sem i)) (pos : Nat) :
    Moved c u s ((s1.pendDelete t).pendInsert t (.sem i) pos) t (.sem i) := by
  have hl : (s1.view t).loc=some (.sem i) := h.fits.loc
  have hne : ∀ p, (s1.view t).loc≠some (.ready p) := by
    rw [hl]
    nofun
  refine h.step (v:=s1.view t) ?_ h.fits ((h.rq.pendDelete hne).pendInsert pos nofun) ?_ h.tight
    ⟨rfl,rfl,rfl,rfl⟩
  . simp only [pendInsert_view,pendDelete_view,update_self,update_idem]
    have hv : (s1.view t).unlink.link (.sem i)=s1.view t := by
      change {s1.view t with loc:=some (.sem i)} = s1.view t
      rw [← hl]
    rw [hv]
  intro _
  refine (pendInsert_faults (h:=.sem i) (s:=s1.pendDelete t) ?_).trans
    (pendDelete_faults (Option.isSome_of_eq_some hl))
  rw [pendDelete_view,update_self]
  rfl

lemma Moved.pendQueue (h : Moved c u s s1 t .out) (hb : (s1.view t).bits.queueBusy=false)
    {q : Nat} {w : Bool} {k : Cont} (hk : k.queueOf=some (q,w))
    (hn : c → n=osWaitForever → (s1.view t).bits.timeout=false) :
    Moved c u s ((((s1.modTcb t fun c => {c with
               taskPend := some (.queue q),
               taskStatus := {c.taskStatus with queuePend:=true}}).pendTailAdd t
        (.queue q w)).setCont t k).timeoutSet t n) t (.queue q w) := by
  have hkt : k.timed=true := by cases k <;> simp_all [Cont.queueOf,Cont.timed]
  have hf := h.fits.wait (m:=.queue q w) (o:=some (.queue q)) rfl trivial hk hb
  refine h.limit ?_ hf rfl
    (((h.rq.modTcb _).pendInsert _ (by nofun)).setCont k) ?_ hn (fun _ => hkt)
    rfl ⟨rfl,rfl,rfl,rfl⟩
  . simp only [setCont_view,pendTailAdd_view,modTcb_view,update_self,update_idem]
    rfl
  intro _
  apply pendTailAdd_faults (h:=.queue q w) (s:=Sched.modTcb _ _ _)
  exact h.fits.loc

lemma timeoutSet_pendInsert (hl : s.pend.loc t=none) (hd : PendHead) (i : Nat) :
    (s.timeoutSet t n).pendInsert t hd i=(s.pendInsert t hd i).timeoutSet t n := by
  unfold timeoutSet
  split
  . rfl
  simp [pendInsert,osTskTimerAdd,modStatus,modTcb,Links.linked,hl,delayList]

lemma Moved.pendRw (h : Moved c u s s1 t .out) {l : Nat} {w x : Bool}
    (hr : (s1.view t).cont=.rwPend l w x) (pos : Nat)
    (hn : c → n=osWaitForever → (s1.view t).bits.timeout=false)
    (hk : n≠osWaitForever → (s1.view t).cont.timed=true) :
    Moved c u s (((s1.modStatus t fun b => {b with rwPend:=true}).timeoutSet t n).pendInsert t
      (.rw l w) pos) t (.rw l w) := by
  have hl : (s1.view t).loc=none := h.fits.loc
  rw [timeoutSet_pendInsert (s:=s1.modStatus t _) hl]
  have hctx : (TskMode.rw l w).Ctx (s1.view t).cont := ⟨x,hr⟩
  have hf := h.fits.wait (m:=.rw l w) (o:=(s1.view t).tcb.taskPend) rfl trivial hctx
    (h.fits.busy_of_ctx hctx rfl)
  refine h.limit ?_ hf rfl ((h.rq.modStatus _).pendInsert pos nofun) ?_ hn hk rfl ⟨rfl,rfl,rfl,rfl⟩
  . simp only [pendInsert_view,modStatus_view,update_self,update_idem]
    rfl
  intro _
  apply pendInsert_faults (s:=Sched.modStatus _ _ _)
  exact hl

lemma Moved.pendEvent (h : Moved c u s s1 t .out) {mask : BitVec 32} {all : Bool}
    (hq : (s1.view t).cont=.eventRead mask all) :
    Moved c u s ((s1.modStatus t fun b => {b with eventPend:=true}).osEventTimeOutSet t n) t
      .event := by
  have hctx : TskMode.event.Ctx (s1.view t).cont := ⟨mask,all,hq⟩
  have hf := h.fits.wait (m:=.event) (o:=(s1.view t).tcb.taskPend) rfl trivial hctx
    (h.fits.busy_of_ctx hctx rfl)
  unfold osEventTimeOutSet
  split
  . refine h.unlimited ?_ (hf.noLimit rfl (h.fits.timed_of_runnable rfl)) rfl
      ((h.rq.modStatus _).modStatus _) (fun _ => rfl) (fun _ => rfl) ⟨rfl,rfl,rfl,rfl⟩
    simp only [modStatus_view,update_self,update_idem]
    rfl
  refine h.limited (s1.modStatus_view t _) hf rfl (h.rq.modStatus _) (fun _ => rfl) ?_ rfl
    ⟨rfl,rfl,rfl,rfl⟩
  change (s1.view t).cont.timed=true
  rw [hq]
  rfl

lemma Moved.pendDelay (h : Moved c u s s1 t .out) (hq : (s1.view t).cont=.user) :
    Moved c u s ((s1.modStatus t fun b => {b with delay:=true}).osTskTimerAdd t n) t
      .delay := by
  refine h.step ?_ (h.fits.pendDelay hq ((s1.cpu.uniTicks+n)%2^64))
    ((h.rq.modStatus _).osTskTimerAdd _) ?_ ?_ ⟨rfl,rfl,rfl,rfl⟩
  . rw [osTskTimerAdd_view,modStatus_view]
    simp only [update_self,update_idem]
    rfl
  . intro _
    apply osTskTimerAdd_faults (s:=Sched.modStatus _ _ _)
    exact h.fits.timed_of_runnable rfl
  intro hc
  exact ⟨fun _ => rfl,(h.tight hc).cont⟩

lemma Moved.fits_delayInt (h : Moved c u s s1 t .out) (hq : (s1.view t).cont=.user) :
    Fits s.cfg.prioLowest .delayInt
      ((s1.view t).modStatus fun b => {b with delayInterruptible:=true}) :=
  h.fits.wait rfl trivial hq (h.fits.busy_of_ctx (n:=.delayInt) hq rfl)

lemma Moved.pendDelayInt (h : Moved c u s s1 t .out) (hq : (s1.view t).cont=.user)
    (hn : c → (s1.view t).bits.timeout=false) :
    Moved c u s (s1.modStatus t fun b => {b with delayInterruptible:=true}) t .delayInt :=
  h.unlimited (s1.modStatus_view t _) (h.fits_delayInt hq) rfl (h.rq.modStatus _)
    (fun _ => rfl) hn ⟨rfl,rfl,rfl,rfl⟩

lemma Moved.pendDelayIntTimed (h : Moved c u s s1 t .out) (hq : (s1.view t).cont=.user) (hu : ¬u) :
    Moved c u s (((s1.modStatus t fun b => {b with delayInterruptible:=true}).osTskTimerAdd t
      n).modStatus t fun b => {b with timeout:=true}) t .delayInt := by
  have hf := h.fits_delayInt hq
  refine h.step ?_ (hf.timeLimit rfl (fun hn => absurd rfl hn) ((s1.cpu.uniTicks+n)%2^64))
    (((h.rq.modStatus _).osTskTimerAdd _).modStatus _) ?_ ?_ ⟨rfl,rfl,rfl,rfl⟩
  . rw [modStatus_view,osTskTimerAdd_view,modStatus_view]
    simp only [update_self,update_idem]
    rfl
  . intro _
    apply osTskTimerAdd_faults (s:=Sched.modStatus _ _ _)
    exact h.fits.timed_of_runnable rfl
  intro _
  exact ⟨fun _ => rfl,fun hu' => absurd hu' hu⟩

lemma Moved.clear (h : Moved c u s s1 t m) (hm : m.timeable=true)
    (hv : s2.view=update s1.view t v) (hfl : c → s2.faults=s1.faults)
    (hb : v.bits.timeout=(s1.view t).bits.timeout) (hti : v.timed=(s1.view t).timed) :
    (s2.timeoutClear t).view=update s1.view t
      ⟨{v.tcb with taskStatus:={v.tcb.taskStatus with timeout:=false}},v.cont,v.loc,false⟩ ∧
    (c → (s2.timeoutClear t).faults=s1.faults) := by
  have hvt : s2.view t=v := by rw [hv,update_self]
  constructor
  . rw [timeoutClear_view,hvt,hv,update_idem]
    rw [hvt,hb,hti]
    exact h.fits.timed_of_timeout_false hm
  intro hc
  rw [← hfl hc]
  apply timeoutClear_faults
  rw [hvt,hb,hti]
  intro ht
  exact (h.tight hc).timed (.inr ⟨h.fits.waiting_eq.trans hm,ht⟩)

lemma Moved.wakeSem {i : Nat} (h : Moved c u s s1 t (.sem i)) :
    Moved c u s (((s1.pendDelete t).timeoutClear t).modTcb t fun c =>
      {c with taskPend:=none, taskStatus:={c.taskStatus with pend:=false}}) t .out := by
  have hl : (s1.view t).loc=some (.sem i) := h.fits.loc
  obtain ⟨hv,hfl⟩ := h.clear rfl (s1.pendDelete_view t)
    (fun _ => pendDelete_faults (by rw [hl]; rfl)) rfl rfl
  have hf := h.fits.ended rfl nofun (o:=none) (x:=false) rfl rfl
  refine h.step ?_ hf (RqOk.timeoutClear (h.rq.pendDelete ?_) |>.modTcb _) hfl
    (fun _ => hf.tight_of_runnable rfl fun _ => nofun)
    ⟨rfl,rfl,timeoutClear_cfg,timeoutClear_cpu⟩
  . rw [modTcb_view,hv]
    simp only [update_self,update_idem]
    rfl
  rw [hl]
  nofun

lemma Moved.wakeQueue {q : Nat} {w : Bool} (h : Moved c u s s1 t (.queue q w)) :
    Moved c u s ((((s1.pendDelete t).modTcb t fun c => {c with
               taskPend := none,
               taskStatus := {c.taskStatus with queuePend:=false}}).timeoutClear t).modStatus t
        fun b => {b with queueBusy:=true}) t .out := by
  have hl : (s1.view t).loc=some (.queue q w) := h.fits.loc
  have hv1 : ((s1.pendDelete t).modTcb t fun c =>
      {c with taskPend:=none, taskStatus:={c.taskStatus with queuePend:=false}}).view =
      update s1.view t ⟨{ (s1.view t).tcb with
        taskPend := none
        taskStatus := {(s1.view t).tcb.taskStatus with queuePend:=false} },
        (s1.view t).cont,none,(s1.view t).timed⟩ := by
    rw [modTcb_view,pendDelete_view]
    simp only [update_self,update_idem]
    rfl
  obtain ⟨hv,hfl⟩ := h.clear rfl hv1 (fun _ => pendDelete_faults (by rw [hl]; rfl)) rfl rfl
  have hf := h.fits.ended rfl nofun (o:=none) (x:=false) (y:=true) rfl rfl
  refine h.step ?_ hf (RqOk.timeoutClear ((h.rq.pendDelete ?_).modTcb _) |>.modStatus _) hfl
    (fun _ => hf.tight_of_runnable rfl fun _ => nofun)
    ⟨rfl,rfl,timeoutClear_cfg,timeoutClear_cpu⟩
  . rw [modStatus_view,hv]
    simp only [update_self,update_idem]
    rfl
  rw [hl]
  nofun

lemma Moved.wakeEvent (h : Moved c u s s1 t .event) :
    Moved c u s ((s1.modStatus t fun b => {b with eventPend:=false}).timeoutClear t) t
      .out := by
  obtain ⟨hv,hfl⟩ := h.clear rfl (s1.modStatus_view t fun b => {b with eventPend:=false})
    (fun _ => rfl) rfl rfl
  have hf := h.fits.ended rfl nofun (o:=(s1.view t).tcb.taskPend) (x:=false) h.fits.loc rfl
  exact h.step hv hf (RqOk.timeoutClear (h.rq.modStatus _)) hfl
    (fun _ => hf.tight_of_runnable rfl fun _ => nofun)
    ⟨rfl,rfl,timeoutClear_cfg,timeoutClear_cpu⟩

lemma Moved.wakeRw {l : Nat} {w : Bool} (h : Moved c u s s1 t (.rw l w)) :
    Moved c u s (((s1.pendDelete t).timeoutClear t).modStatus t fun b =>
      {b with rwPend:=false}) t .out := by
  have hl : (s1.view t).loc=some (.rw l w) := h.fits.loc
  obtain ⟨hv,hfl⟩ := h.clear rfl (s1.pendDelete_view t)
    (fun _ => pendDelete_faults (by rw [hl]; rfl)) rfl rfl
  have hf := h.fits.ended rfl nofun (o:=(s1.view t).tcb.taskPend) (x:=false) rfl rfl
  refine h.step ?_ hf (RqOk.timeoutClear (h.rq.pendDelete ?_) |>.modStatus _) hfl
    (fun _ => hf.tight_of_runnable rfl fun _ => nofun)
    ⟨rfl,rfl,timeoutClear_cfg,timeoutClear_cpu⟩
  . rw [modStatus_view,hv]
    simp only [update_self,update_idem]
    rfl
  rw [hl]
  nofun

lemma Moved.wakeDelayInt (h : Moved c u s s1 t .delayInt) :
    Moved c u s ((s1.timeoutClear t).modStatus t fun b =>
      {b with delayInterruptible:=false}) t .out := by
  have hv1 : s1.view=update s1.view t (s1.view t) := (update_eq_self _ _).symm
  obtain ⟨hv,hfl⟩ := h.clear rfl hv1 (fun _ => rfl) rfl rfl
  have hf := h.fits.ended rfl nofun (o:=(s1.view t).tcb.taskPend) (x:=false) h.fits.loc rfl
  refine h.step ?_ hf (h.rq.timeoutClear.modStatus _) hfl
    (fun _ => hf.tight_of_runnable rfl fun _ => nofun)
    ⟨rfl,rfl,timeoutClear_cfg,timeoutClear_cpu⟩
  rw [modStatus_view,hv]
  simp only [update_self,update_idem]
  rfl

lemma Moved.expire (h : Moved c u s s1 t m) (ht : (s1.view t).timed=true) :
    Moved c u s (s1.osTaskExpire t) t .out := by
  have hT := h.fits.timer ht
  have hfd : (s1.timerDelete t).faults=s1.faults := timerDelete_faults ht
  have hne : ∀ {hd : PendHead}, (s1.view t).loc=some hd → (∀ p, hd≠.ready p) →
      ∀ p, (s1.view t).loc≠some (.ready p) := by
    intro hd hl hne p hp
    rw [hl] at hp
    exact hne p (Option.some.inj hp)
  have hu : ∀ {v : TaskView}, Fits s.cfg.prioLowest .out v →
      v.bits.timeout=(s1.view t).bits.timeout → v.cont=(s1.view t).cont → c → Tight u v := by
    intro v hv hb hk hc
    apply hv.tight_of_runnable rfl
    rw [hb,hk]
    exact (h.tight hc).cont
  -- a wait without and one with a place in a list
  have hfree : ∀ {f : TskStatus → TskStatus},
      let v := ((s1.view t).timerDel.modStatus f)
      Fits s.cfg.prioLowest .out v → v.bits.timeout=(s1.view t).bits.timeout →
      v.cont=(s1.view t).cont → Kept s1 ((s1.timerDelete t).modStatus t f) t v →
      Moved c u s ((s1.timerDelete t).modStatus t f) t .out := by
    intro f v hf hb hc hk
    refine h.step ?_ hf (h.rq.timerDelete.modStatus f) (fun _ => hfd) (hu hf hb hc) hk
    simp only [modStatus_view,timerDelete_view,update_self,update_idem]
    rfl
  have hlinked : ∀ {f : TskStatus → TskStatus} {hd : PendHead},
      let v := ((s1.view t).timerDel.unlink.modStatus f)
      (s1.view t).loc=some hd → (∀ p, hd≠.ready p) →
      Fits s.cfg.prioLowest .out v → v.bits.timeout=(s1.view t).bits.timeout →
      v.cont=(s1.view t).cont →
      Kept s1 (((s1.timerDelete t).pendDelete t).modStatus t f) t v →
      Moved c u s (((s1.timerDelete t).pendDelete t).modStatus t f) t .out := by
    intro f hd v hl hd' hf hb hc hk
    refine h.step ?_ hf ((h.rq.timerDelete.pendDelete (hne hl hd')).modStatus f) ?_ (hu hf hb hc) hk
    . simp only [pendDelete_view,modStatus_view,timerDelete_view,update_self,update_idem]
      rfl
    intro _
    exact (pendDelete_faults (s:=s1.timerDelete t) (Option.isSome_of_eq_some hl)).trans hfd
  have hp : ((s1.timerDelete t).status t).pend=m.bits.pend := h.fits.pend
  have he : ((s1.timerDelete t).status t).eventPend=m.bits.eventPend := h.fits.eventPend
  have hq : ((s1.timerDelete t).status t).queuePend=m.bits.queuePend := h.fits.queuePend
  have hr : ((s1.timerDelete t).status t).rwPend=m.bits.rwPend := h.fits.rwPend
  have hi : ((s1.timerDelete t).status t).delayInterruptible=m.bits.delayInterruptible :=
    h.fits.delayInterruptible
  have hl := h.fits.loc
  rw [osTaskExpire]
  cases m <;> simp only [hp,he,hq,hr,hi,TskMode.bits,if_true,Bool.false_eq_true,if_false]
  case unused | out | ready => exact absurd hT id
  case sem i =>
    have hf := h.fits.ended rfl (by simp) (o:=none) (x:=(s1.view t).bits.timeout) rfl rfl
    refine h.step ?_ hf (((h.rq.timerDelete.modStatus _).pendDelete (hne hl (by simp))).modTcb _) ?_
      (hu hf rfl rfl) ⟨rfl,rfl,rfl,rfl⟩
    . simp only [modTcb_view,pendDelete_view,modStatus_view,timerDelete_view,update_self,
        update_idem]
      rfl
    intro _
    exact (pendDelete_faults (s:=(s1.timerDelete t).modStatus t _)
      (Option.isSome_of_eq_some hl)).trans hfd
  case queue q w =>
    have hto : (s1.view t).bits.timeout=true := hT.1
    have hf := h.fits.ended rfl (by simp) (o:=(s1.view t).tcb.taskPend)
      (x:=(s1.view t).bits.timeout) (y:=(s1.view t).bits.queueBusy) rfl
      (by rw [hto,h.fits.busy_of_not_runnable rfl]; rfl)
    exact hlinked hl (by simp) hf rfl rfl ⟨rfl,rfl,rfl,rfl⟩
  case event => exact hfree (h.fits.ended rfl (by simp) hl rfl) rfl rfl ⟨rfl,rfl,rfl,rfl⟩
  case rw l w =>
    have hf := h.fits.ended rfl (by simp) (o:=(s1.view t).tcb.taskPend)
      (x:=(s1.view t).bits.timeout) rfl rfl
    exact hlinked hl (by simp) hf rfl rfl ⟨rfl,rfl,rfl,rfl⟩
  case delay => exact hfree (h.fits.ended rfl (by simp) hl rfl) rfl rfl ⟨rfl,rfl,rfl,rfl⟩
  case delayInt =>
    apply Moved.kthreadStateSet
    exact hfree (h.fits.ended rfl (by simp) hl rfl) rfl rfl ⟨rfl,rfl,rfl,rfl⟩

end Sched

end UniProton
