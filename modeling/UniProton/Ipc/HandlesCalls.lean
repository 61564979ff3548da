import UniProton.Ipc.LockCalls
import UniProton.Ipc.QueueCalls
import UniProton.Ipc.SemCalls
import UniProton.Kernel.Handles
import UniProton.Kernel.Machine

namespace UniProton

open Framework TskStatus

structure Signals (G : TskCb → TskCb → Prop) : Prop where
  trans : ∀ {c c' c''}, G c c' → G c' c'' → G c c''
  masks : ∀ c m w, G c {c with sigMask:=m, sigWaitMask:=w}
  take : ∀ c n, n∈c.sigInfoList → G c {c with
    sigInfoList := c.sigInfoList.erase n
    sigPending := c.sigPending &&& ~~~ sigBit n.signo}

namespace Signals

variable {G : TskCb → TskCb → Prop} (h : Signals G)

include h

lemma refl (c : TskCb) : G c c := h.masks c c.sigMask c.sigWaitMask

lemma sigMask (c : TskCb) (m : BitVec 64) : G c {c with sigMask:=m} := h.masks c m c.sigWaitMask

lemma sigWaitMask (c : TskCb) (w : BitVec 64) : G c {c with sigWaitMask:=w} :=
  h.masks c c.sigMask w

lemma osHandleOneSignal (c : TskCb) (signum : Nat) : G c (c.osHandleOneSignal signum) := by
  unfold TskCb.osHandleOneSignal
  split
  . exact h.refl c
  next n hn =>
  have hsig : n.signo=signum := by simpa using List.find?_some hn
  have ht := h.take c n (List.mem_of_find?_eq_some hn)
  rw [hsig] at ht
  exact ht

lemma osSigWaitProcPendingSignal (c : TskCb) (set : BitVec 64) :
    G c (c.osSigWaitProcPendingSignal set) := by
  unfold TskCb.osSigWaitProcPendingSignal
  split
  . exact h.sigWaitMask c 0
  next n hn =>
  have ht := h.take c n (List.mem_of_find?_eq_some hn)
  exact h.trans ht (h.sigWaitMask _ 0)

lemma osHandleUnBlockSignal (c : TskCb) : G c c.osHandleUnBlockSignal := by
  have hfold (l : List SigInfo) (c : TskCb) :
      G c (l.foldl (fun c n => c.osHandleOneSignal n.signo) c) := by
    induction l generalizing c with
    | nil => exact h.refl c
    | cons n l ih => exact h.trans (h.osHandleOneSignal c n.signo) (ih _)
  exact hfold _ c

lemma unblocked (c : TskCb) (saved : BitVec 64) :
    G c {c.osHandleUnBlockSignal with sigMask:=saved} :=
  h.trans (h.osHandleUnBlockSignal c) (h.sigMask _ saved)

end Signals

lemma signals_still : Signals fun c c' =>
    c'.expirationTick=c.expirationTick ∧ c'.taskStatus=c.taskStatus where
  trans h h' := ⟨h'.1.trans h.1,h'.2.trans h.2⟩
  masks _ _ _ := ⟨rfl,rfl⟩
  take _ _ _ := ⟨rfl,rfl⟩

def Sched.signalNotify (s : Sched) (t signum : Nat) : Sched :=
  let b := s.status t
  if b.waitSignal ∧ (s.tcb t).sigWaitMask &&& sigBit signum≠0 then
    (s.modStatus t fun b => {b with waitSignal:=false}).osSignalWaitReSche t
  else if (s.tcb t).sigMask &&& sigBit signum≠0 then s
  else if t=(s.tcb s.cpu.runningTask).taskPid then
    s.modTcb t fun c => c.osHandleOneSignal signum
  else if (b.ready || b.delay || b.sigPause || b.delayInterruptible) && !b.holdSignal then
    s.signalHold t signum
  else s

lemma Sched.prtSignalDeliver_cases (s : Sched) (t : Nat) (info : SigInfo) (memOk : Bool) :
    ((s.prtSignalDeliver t info memOk).1=s ∧ (s.prtSignalDeliver t info memOk).2≠.osOk) ∨
      sigValid info.signo=true ∧ ∃ c, (s.tcb t).osAddSignalPendingFlag info memOk=some c ∧
        s.prtSignalDeliver t info memOk =
          ((s.modTcb t fun _ => c).signalNotify t info.signo,.osOk) := by
  unfold Sched.prtSignalDeliver
  split
  . exact .inl ⟨rfl,nofun⟩
  split
  . exact .inl ⟨rfl,nofun⟩
  split
  . exact .inl ⟨rfl,nofun⟩
  next hv _ =>
  split
  . exact .inl ⟨rfl,nofun⟩
  next c hc =>
  refine .inr ⟨by simpa using hv,c,hc,?_⟩
  have ht : (s.modTcb t fun _ => c).tcb t=c := by simp [Sched.modTcb]
  simp only [Sched.signalNotify]
  rw [ht]
  split
  . rfl
  split
  . rfl
  split
  . rfl
  split <;> rfl

namespace Sched

variable {s : Sched} {t : Nat}

lemma Core.ctx_of_loc (h : s.Core) {hd : PendHead} (hl : s.pend.loc t=some hd) :
    (∀ i, hd=.sem i → s.cont t=.user ∨ s.cont t=.semPend) ∧
    (∀ q w, hd=.queue q w → (s.cont t).queueOf=some (q,w)) ∧
    (∀ l w, hd=.rw l w → ∃ timed, s.cont t=.rwPend l w timed) := by
  obtain ⟨m,hf,-⟩ := h.tasks t (h.le_of_loc hl)
  refine ⟨?_,?_,?_⟩
  . rintro i rfl
    obtain rfl := hf.eq_of_loc_sem hl
    exact hf.ctx
  . rintro q w rfl
    obtain rfl := hf.eq_of_loc_queue hl
    exact hf.ctx
  rintro l w rfl
  obtain rfl := hf.eq_of_loc_rw hl
  exact hf.ctx

end Sched

namespace Touch

variable {T : Touch} {t : Nat} {s : Sched}

lemma Free.of_sem (h : T.Any ∨ s.Core) {i : Nat} (hl : s.pend.loc t=some (.sem i)) :
    T.Free t (s.cont t) := by
  rcases h with h | h
  . exact h.free
  rcases (h.ctx_of_loc hl).1 i rfl with hk | hk
  . rw [hk]
    exact .user
  rw [hk]
  exact .of_none rfl rfl

lemma Free.of_queue (h : T.Any ∨ s.Core) {q : Nat} {w : Bool}
    (hl : s.pend.loc t=some (.queue q w)) : T.Free t (s.cont t) := by
  rcases h with h | h
  . exact h.free
  exact .of_queueOf ((h.ctx_of_loc hl).2.1 q w rfl)

lemma Free.of_rw (h : T.Any ∨ s.Core) (hT : T.rw) {l : Nat} {w : Bool}
    (hl : s.pend.loc t=some (.rw l w)) : T.Free t (s.cont t) := by
  rcases h with h | h
  . exact h.free
  obtain ⟨timed,hk⟩ := (h.ctx_of_loc hl).2.2 l w rfl
  rw [hk]
  exact ⟨.inr (.inl hT),.inr (.inr rfl)⟩

lemma Free.of_event (h : T.Any ∨ s.Core) (hT : T.event t) (hle : t ≤ s.cfg.tskMaxNum)
    (hp : (s.status t).eventPend=true) : T.Free t (s.cont t) := by
  rcases h with h | h
  . exact h.free
  obtain ⟨m,hf,-⟩ := h.tasks t hle
  obtain rfl := hf.eq_event hp
  obtain ⟨x,y,hk⟩ := hf.ctx
  change s.cont t=_ at hk
  rw [hk]
  exact ⟨.inr (.inr rfl),.inr (.inl hT)⟩

lemma Free.of_delayInt (h : T.Any ∨ s.Core) (hle : t ≤ s.cfg.tskMaxNum)
    (hd : (s.status t).delayInterruptible=true) : T.Free t (s.cont t) := by
  rcases h with h | h
  . exact h.free
  obtain ⟨m,hf,-⟩ := h.tasks t hle
  obtain rfl := hf.eq_delayInt hd
  have hk : s.cont t=.user := hf.ctx
  rw [hk]
  exact .user

end Touch

namespace Respects

variable {T : Touch} {I : Sched → Prop} {G : TskCb → TskCb → Prop} {R : Sched → Sched → Prop}
  (h : Respects T I G R) {a s : Sched} {k : Kernel} {t n i q l : Nat} {write : Bool}

include h

lemma loose_head {hd : PendHead} {ts : List Nat} (hs : R a s) (hl : s.pend.lists hd=t::ts) :
    Loose I a s t := h.ofPend hs (Links.head_linked hl)

lemma step_resume (hs : R a s) (hx : T.Ctx s.cpu.runningTask (s.cont s.cpu.runningTask) .user) :
    R a (s.setCont s.cpu.runningTask .user) ∧ T.Free s.cpu.runningTask
      ((s.setCont s.cpu.runningTask .user).cont s.cpu.runningTask) := by
  refine ⟨h.setCont _ _ hs hx (h.ofRunning hs),?_⟩
  rw [Sched.setCont_self]
  exact .user

section sem

lemma step_semBDelete (hs : R a k.sched) : R a (k.semBDelete i).sched := h.step_frame hs rfl

lemma step_semBTailAdd (hs : R a k.sched) : R a (k.semBTailAdd i t).sched := h.step_frame hs rfl

lemma step_priority (hs : R a s) (hp : T.prio) (p : Nat) :
    R a (s.modTcb t fun c => {c with priority:=p}) :=
  h.step_data hs (fun _ => rfl) (fun _ => rfl) (.priority hp _ _)

lemma step_reprioritise (hs : R a s) (ht : Loose I a s t) (hp : T.prio) (p : Nat) :
    R a (((s.osTskReadyDel t).modTcb t fun c => {c with priority:=p}).osTskReadyAdd t) := by
  apply h.step_osTskReadyAdd (h.step_priority (h.step_osTskReadyDel hs) hp p)
  exact ht.osTskReadyDel.modTcb _ (.same rfl rfl rfl)

lemma step_osPriorityInheritLoop (hp : T.prio) (hj : T.sem) (n : Nat) (k : Kernel) (o new : Nat)
    (hs : R a k.sched) : R a (Kernel.osPriorityInheritLoop n k o new).sched := by
  induction n generalizing k o with
  | zero => exact hs
  | succ n ih =>
    unfold Kernel.osPriorityInheritLoop
    split
    . exact hs
    split
    . next hr =>
      refine h.step_reprioritise hs (h.ofEngaged hs ?_) hp new
      simp [engaged,hr]
    have h1 : R a (k.setPriority o new).sched := h.step_priority hs hp new
    dsimp only
    split
    . next j hpend _ =>
      have h2 : R a (if ((k.setPriority o new).sems j).semMode=.prior
          then (k.setPriority o new).osResortSemList o j else k.setPriority o new).sched := by
        split
        . have hl : Loose I a (k.setPriority o new).sched o := by
            apply h.ofEngaged h1
            simp [engaged,hpend]
          exact h.pendInsert o (.sem j) _ (h.pendDelete o h1) hj hl
        exact h1
      generalize (if ((k.setPriority o new).sems j).semMode=.prior
        then (k.setPriority o new).osResortSemList o j else k.setPriority o new)=k2 at h2 ⊢
      split
      . exact ih _ _ h2
      exact h2
    exact h1

lemma step_osPriorityInherit (hp : T.prio) (hj : T.sem) (hs : R a k.sched) :
    R a (k.osPriorityInherit i t).sched := by
  unfold Kernel.osPriorityInherit
  split
  . exact h.step_osPriorityInheritLoop hp hj _ k _ _ hs
  exact hs

lemma step_osPriorityRestore (hp : T.prio) (hs : R a k.sched) :
    R a k.osPriorityRestore.1.sched := by
  simp only [Kernel.osPriorityRestore]
  split
  . exact hs
  split
  . exact hs
  apply h.step_readyAddUnlessSuspend (h.step_priority (h.step_osTskReadyDel hs) hp _)
  exact (h.ofRunning hs).osTskReadyDel.modTcb _ (.same rfl rfl rfl)

lemma step_osSemPendNotNeedSche {k' : Kernel} (hs : R a k.sched)
    (he : k.osSemPendNotNeedSche i=some k') : R a k'.sched := by
  unfold Kernel.osSemPendNotNeedSche at he
  dsimp only at he
  split at he
  . cases he
    exact hs
  split at he
  . cases he
    split
    . exact h.step_semBTailAdd hs
    exact hs
  cases he

lemma step_osSemWake (hs : R a s) (ht : Loose I a s t) (hf : T.Free t (s.cont t)) :
    R a (Kernel.osSemWake s t) := by
  have hl : Loose I a (s.pendDelete t) t := ht
  have h1 := h.step_timeoutClear (t:=t) (h.pendDelete t hs) hf
  have h2 := h.modTcb t (fun c =>
    {c with taskPend:=none, taskStatus:={c.taskStatus with pend:=false}}) h1 rfl
    (.of_mark rfl) fun hI => .of_loose (hl.timeoutClear hI) rfl rfl
  refine h.step_readyAddUnlessSuspend h2 fun hI => ?_
  have hp := hl.timeoutClear (u:=t) hI
  simpa [Sched.status,Sched.modTcb,parked] using hp

lemma step_osSemPendListGet (hp : T.prio) (hc : T.Any ∨ k.sched.Core) (hs : R a k.sched) :
    R a (k.osSemPendListGet i).sched := by
  unfold Kernel.osSemPendListGet
  split
  . exact hs
  next t _ hlist =>
  have h1 : R a (Kernel.osSemWake k.sched t) :=
    h.step_osSemWake hs (h.loose_head hs hlist) (.of_sem hc (Links.head_loc hlist))
  dsimp only
  split
  . apply h.step_osPriorityRestore hp
    exact h.step_semBTailAdd (h.step_semBDelete h1)
  exact h1

lemma semPendCont (k : Kernel) (hx : T.Ctx k.sched.cpu.runningTask
    (k.sched.cont k.sched.cpu.runningTask) .user) : R k.sched k.semPendCont.1.sched := by
  obtain ⟨h1,hf⟩ := h.step_resume (h.refl k.sched) hx
  simp only [Kernel.semPendCont]
  split
  . exact h.step_timeout h1 hf false
  exact h.step_osTskSchedule h1

lemma prtSemPost (k : Kernel) (hp : T.prio) (hc : T.Any ∨ k.sched.Core) :
    R k.sched (k.prtSemPost i).1.sched := by
  have hr := h.refl k.sched
  unfold Kernel.prtSemPost
  split
  . exact hr
  split
  . exact hr
  split
  . next k' he =>
    rw [Kernel.osSemPostIsInvalid_sched he]
    exact hr
  dsimp only
  split
  . refine h.step_osTskSchedule (h.step_osSemPendListGet
      (k:=k.logSem i (.posted k.sched.cpu.runningTask)) hp hc ?_)
    exact hr
  split
  . generalize hk1 : ((k.logSem i (.posted k.sched.cpu.runningTask)).modSem i fun c =>
      {c with semCount:=(c.semCount+1)%2^32, semOwner:=osInvalidOwnerId})=k1
    have h1 : R k.sched k1.sched := by
      rw [← hk1]
      exact hr
    have h2 := h.step_osPriorityRestore hp (h.step_semBDelete (i:=i) h1)
    generalize (k1.semBDelete i).osPriorityRestore=p at h2 ⊢
    split
    . exact h.step_osTskSchedule h2
    exact h2
  exact hr

lemma prtTaskSetPriority (k : Kernel) (hT : T.prio) (p : Nat) :
    R k.sched (k.prtTaskSetPriority t p).1.sched := by
  have hr := h.refl k.sched
  unfold Kernel.prtTaskSetPriority
  split
  . exact hr
  split
  . exact hr
  split
  . exact hr
  split
  . next hb =>
    have hl : Loose I k.sched k.sched t := by
      apply h.ofEngaged hr
      simp [engaged,hb]
    apply h.step_osTskSchedule
    exact h.step_data (h.step_reprioritise hr hl hT p) (fun _ => rfl) (fun _ => rfl)
      (.priority hT _ _)
  change R k.sched (k.sched.modTcb t fun c => {c with priority:=p, origPriority:=p})
  exact h.step_data hr (fun _ => rfl) (fun _ => rfl) (.priority hT _ _)

end sem

section queue

variable (hT : T.que)

include hT

lemma step_osQueueWake (hs : R a s) (ht : Loose I a s t) (hf : T.Free t (s.cont t)) :
    R a (Kernel.osQueueWake s t) := by
  have h1 := h.modTcb t (fun c =>
    {c with taskPend:=none, taskStatus:={c.taskStatus with queuePend:=false}})
    (h.pendDelete t hs) rfl (.of_mark rfl) fun hI => .of_loose (ht hI) rfl rfl
  have hl : Loose I a ((s.pendDelete t).modTcb t fun c =>
      {c with taskPend:=none, taskStatus:={c.taskStatus with queuePend:=false}}) t := by
    intro hI
    have hp := ht hI
    simpa [Sched.status,Sched.modTcb,Sched.pendDelete,parked] using hp
  have h2 := h.step_flag (t:=t) (h.step_timeoutClear (t:=t) h1 hf)
    (f:=fun b => {b with queueBusy:=true}) (.queueBusy hT true) (fun _ => rfl)
    (fun _ => rfl) fun _ => id
  exact h.step_readyAddUnlessSuspend h2 (hl.timeoutClear.modStatus _ fun _ => rfl)

lemma step_queueGive (hc : T.Any ∨ k.sched.Core) (hs : R a k.sched) :
    R a (k.queueGive q write).sched := by
  unfold Kernel.queueGive Kernel.osQueuePendNeedProc
  cases hl : k.sched.pend.lists (.queue q write) with
  | nil => exact hs
  | cons t ts =>
    refine h.step_osTskSchedule (h.step_osQueueWake hT hs (h.loose_head hs hl) ?_)
    exact .of_queue hc (Links.head_loc hl)

lemma step_queueReadOut (hc : T.Any ∨ k.sched.Core) (hs : R a k.sched) :
    R a (k.queueReadOut q n).sched := by
  apply h.step_queueGive hT
  . exact hc
  exact hs

lemma step_queueWriteIn (hc : T.Any ∨ k.sched.Core) (hs : R a k.sched) (data : List UInt8)
    (prio : Nat) : R a (k.queueWriteIn q data prio).sched := by
  apply h.step_queueGive hT
  . exact hc
  exact hs

lemma osInnerPendCont (k : Kernel) (hr : (k.sched.cont k.sched.cpu.runningTask).rwOf=none)
    (he : (k.sched.cont k.sched.cpu.runningTask).eventOf=none) :
    R k.sched k.osInnerPendCont.1.sched := by
  have h1 := h.step_flag (t:=k.sched.cpu.runningTask) (h.refl k.sched)
    (f:=fun b => {b with queueBusy:=false}) (.queueBusy hT false) (fun _ => rfl)
    (fun _ => rfl) fun _ => id
  obtain ⟨h2,hf⟩ := h.step_resume h1 (.of_que hT ⟨hr,rfl⟩ ⟨he,rfl⟩)
  simp only [Kernel.osInnerPendCont]
  split
  . exact h.step_timeout h2 hf false
  exact h2

omit h hT in
lemma innerPendCont_core
    (h0 : T.Any ∨ Sched.Able False False k.sched ∧ k.sched.cpu.taskContext=true) :
    T.Any ∨ k.osInnerPendCont.1.sched.Core :=
  h0.imp_right fun h0 => (Kernel.osInnerPendCont_leads (d:=False) h0.1 h0.2).1.core

lemma queueReadCont (k : Kernel)
    (h0 : T.Any ∨ Sched.Able False False k.sched ∧ k.sched.cpu.taskContext=true)
    (hr : (k.sched.cont k.sched.cpu.runningTask).rwOf=none)
    (he : (k.sched.cont k.sched.cpu.runningTask).eventOf=none) :
    R k.sched (k.queueReadCont q n).1.sched := by
  have h1 := h.osInnerPendCont hT k hr he
  have hc := innerPendCont_core h0
  unfold Kernel.queueReadCont
  generalize k.osInnerPendCont=p at h1 hc ⊢
  split
  . exact h.step_queueReadOut hT hc h1
  exact h1

lemma queueWriteCont (k : Kernel) (data : List UInt8) (prio : Nat)
    (h0 : T.Any ∨ Sched.Able False False k.sched ∧ k.sched.cpu.taskContext=true)
    (hr : (k.sched.cont k.sched.cpu.runningTask).rwOf=none)
    (he : (k.sched.cont k.sched.cpu.runningTask).eventOf=none) :
    R k.sched (k.queueWriteCont q data prio).1.sched := by
  have h1 := h.osInnerPendCont hT k hr he
  have hc := innerPendCont_core h0
  unfold Kernel.queueWriteCont
  generalize k.osInnerPendCont=p at h1 hc ⊢
  split
  . exact h.step_queueWriteIn hT hc h1 data prio
  exact h1

end queue

section event

lemma osEventTake (hs : R a s) (hT : T.event s.cpu.runningTask) (mask : BitVec 32) :
    R a (s.osEventTake mask).1 := by
  change R a (s.modTcb s.cpu.runningTask fun c => {c with event:=c.event &&& ~~~ mask})
  exact h.step_data hs (fun _ => rfl) (fun _ => rfl) (.eventData hT _ _ _ _)

lemma eventReadCont (a : Sched) (hT : T.event a.cpu.runningTask) (mask : BitVec 32)
    (hx : T.Ctx a.cpu.runningTask (a.cont a.cpu.runningTask) .user) :
    R a (a.eventReadCont mask).1 := by
  obtain ⟨h1,hf⟩ := h.step_resume (h.refl a) hx
  simp only [Sched.eventReadCont]
  split
  . exact h.step_timeout h1 hf false
  exact h.osEventTake h1 hT mask

lemma prtEventWrite (a : Sched) (hc : T.Any ∨ a.Core) (hT : T.event t) (events : BitVec 32) :
    R a (a.prtEventWrite t events).1 := by
  have hr := h.refl a
  unfold Sched.prtEventWrite
  split
  . exact hr
  next hov =>
  split
  . exact hr
  split
  . exact hr
  have h1 : R a (a.modTcb t fun c => {c with event:=c.event ||| events}) :=
    h.step_data hr (fun _ => rfl) (fun _ => rfl) (.eventData hT _ _ _ _)
  dsimp only
  split
  . next he =>
    have hb : ((a.modTcb t fun c => {c with event:=c.event ||| events}).status t).eventPend =
      true := he.1
    have hl : Loose I a (a.modTcb t fun c => {c with event:=c.event ||| events}) t := by
      refine h.ofEngaged h1 ?_
      simp [engaged,hb]
    have hf : T.Free t (a.cont t) := by
      refine .of_event hc hT (Sched.le_of_not_pidOverflow hov) ?_
      simpa [Sched.status,Sched.modTcb] using hb
    have h2 := h.modTcb t (fun c =>
      {c with taskStatus:={c.taskStatus with eventPend:=false}}) h1 rfl
      (.eventData hT _ _ false _) fun hI => .of_loose (hl hI) rfl rfl
    have hl2 := hl.modStatus (u:=t) (fun b => {b with eventPend:=false}) fun _ => rfl
    refine h.step_osTskSchedule ?_
    exact h.step_readyAddUnlessSuspend (h.step_timeoutClear h2 hf) hl2.timeoutClear
  exact h1

end event

section rwlock

variable (hT : T.rw)

include hT

lemma rwPendCont (a : Sched) (timed : Bool) (hk : a.cont a.cpu.runningTask=.rwPend l write timed) :
    R a (a.rwPendCont l write timed).1 := by
  have hr := h.refl a
  have hx (k : Cont) (hq : k.queueOf=none) (he : k.eventOf=none) :
      R a (a.setCont a.cpu.runningTask k) := by
    refine h.setCont _ _ hr ?_ (h.ofRunning hr)
    rw [hk]
    exact .of_rw hT ⟨rfl,hq⟩ ⟨rfl,he⟩
  unfold Sched.rwPendCont
  split
  . exact hx _ rfl rfl
  exact hx _ rfl rfl

lemma rwCheckCont (a : Sched) (hk : a.cont a.cpu.runningTask=.rwCheck l write) :
    R a a.rwCheckCont.1 := by
  have hx : T.Ctx a.cpu.runningTask (a.cont a.cpu.runningTask) .user := by
    rw [hk]
    exact .of_rw hT ⟨rfl,rfl⟩ ⟨rfl,rfl⟩
  obtain ⟨h1,hf⟩ := h.step_resume (h.refl a) hx
  simp only [Sched.rwCheckCont]
  split
  . exact h.step_timeout h1 hf false
  exact h1

lemma step_osRwLockTaskWake (hs : R a s) (ht : Loose I a s t) (hf : T.Free t (s.cont t)) :
    R a (s.osRwLockTaskWake t) := by
  have hl : Loose I a (s.pendDelete t) t := ht
  have h1 := h.modTcb t (fun c =>
    {c with taskStatus:={c.taskStatus with rwPend:=false}})
    (h.step_timeoutClear (t:=t) (h.pendDelete t hs) hf) rfl (.rwPend hT false)
    fun hI => .of_loose (hl.timeoutClear hI) rfl rfl
  exact h.step_readyAddUnlessSuspend h1 (hl.timeoutClear.modStatus _ fun _ => rfl)

lemma step_wakeHead {ts : List Nat} (hs : R a s) (h0 : T.Any ∨ Sched.Able False False s)
    (hlist : s.pend.lists (.rw l write)=t::ts) :
    R a (s.osRwLockTaskWake t) ∧ (T.Any ∨ Sched.Able False False (s.osRwLockTaskWake t)) := by
  have hl : s.pend.loc t=some (.rw l write) := Links.head_loc hlist
  have hf : T.Free t (s.cont t) := .of_rw (h0.imp_right fun h0 => h0.core) hT hl
  refine ⟨h.step_osRwLockTaskWake hT hs (h.loose_head hs hlist) hf,h0.imp_right fun h0 => ?_⟩
  exact (Sched.osRwLockTaskWake_leads (d:=False) h0 hl).2

lemma step_osRwLockWakeReaders (bound : Option Nat) (n : Nat) (count : Int) (hs : R a s)
    (h0 : T.Any ∨ Sched.Able False False s) :
    R a (Sched.osRwLockWakeReaders l bound n s count).1 := by
  induction n generalizing s count with
  | zero => exact hs
  | succ n ih =>
    unfold Sched.osRwLockWakeReaders
    split
    . exact hs
    next t _ hlist =>
    split
    . exact hs
    split
    . exact hs
    obtain ⟨h1,h2⟩ := h.step_wakeHead hT hs h0 hlist
    exact ih _ h1 h2

lemma step_osRwLockPostRead (bound : Option Nat) {r : Nat} {rs : List Nat} (hs : R a k.sched)
    (h0 : T.Any ∨ Sched.Able False False k.sched)
    (hlist : k.sched.pend.lists (.rw l false)=r::rs) :
    R a (k.osRwLockPostRead l bound r n).1.sched := by
  obtain ⟨h1,h2⟩ := h.step_wakeHead hT hs h0 hlist
  have h3 := h.step_osRwLockWakeReaders hT (l:=l) bound n 1 h1 h2
  simp only [Kernel.osRwLockPostRead]
  split <;> exact h3

lemma step_osRwLockPost (hs : R a k.sched) (h0 : T.Any ∨ Sched.Able False False k.sched) :
    R a (k.osRwLockPost l).1.sched := by
  simp only [Kernel.osRwLockPost]
  split
  . next hl => exact (h.step_wakeHead hT hs h0 hl).1
  . next hl => exact (h.step_wakeHead hT hs h0 hl).1
  . next hl => exact h.step_osRwLockPostRead (k:=k.modRw l fun _ => {}) hT _ hs h0 hl
  . next hl => exact h.step_osRwLockPostRead (k:=k.modRw l fun _ => {}) hT _ hs h0 hl
  exact hs

lemma rwUnlock (k : Kernel) (h0 : T.Any ∨ Sched.Able False False k.sched) :
    R k.sched (k.rwUnlock l).1.sched := by
  have h1 : R k.sched (k.osRwLockUnlock l).1.sched := by
    rcases k.osRwLockUnlock_cases l with ⟨hs,-⟩ | he
    . rw [hs]
      exact h.refl _
    rw [he]
    exact h.step_osRwLockPost hT (h.refl _) h0
  have h2 : R k.sched (k.pthreadRwlockUnlock l).1.sched := by
    unfold Kernel.pthreadRwlockUnlock
    generalize k.osRwLockUnlock l=p at h1 ⊢
    split
    . exact h.step_osTskSchedule h1
    exact h1
  simp only [Kernel.rwUnlock]
  split
  . exact h2
  exact h2

end rwlock

section signal

variable (hG : Signals G)

include hG

lemma step_signals (hs : R a s) {f : TskCb → TskCb}
    (hf : ∀ {G : TskCb → TskCb → Prop}, Signals G → ∀ c, G c (f c)) : R a (s.modTcb t f) :=
  h.modSigs t f hs (hf hG _) (hf signals_still _).1 (hf signals_still _).2

lemma step_unblocked (hs : R a s) (saved : BitVec 64) :
    R a (s.modTcb t fun c => {c.osHandleUnBlockSignal with sigMask:=saved}) :=
  h.step_signals hG hs fun hG c => hG.unblocked c saved

lemma step_osSigWaitProcPendingSignal (hs : R a s) (set : BitVec 64) :
    R a (s.modTcb t fun c => c.osSigWaitProcPendingSignal set) :=
  h.step_signals hG hs fun hG c => hG.osSigWaitProcPendingSignal c set

lemma step_osHandleOneSignal (hs : R a s) (signum : Nat) :
    R a (s.modTcb t fun c => c.osHandleOneSignal signum) :=
  h.step_signals hG hs fun hG c => hG.osHandleOneSignal c signum

lemma prtSignalMask (a : Sched) (how : SigHow) (set : BitVec 64) :
    R a (a.prtSignalMask how set) := by
  refine h.step_signals hG (h.refl a) fun hG c => ?_
  cases how with
  | block => exact hG.sigMask c _
  | unblock | setmask => exact hG.trans (hG.sigMask c _) (hG.osHandleUnBlockSignal _)

lemma osSignalEntry (a : Sched) : R a a.osSignalEntry := by
  have h1 : R a (a.modTcb a.cpu.runningTask fun c => c.osHandleOneSignal c.holdSignal) :=
    h.step_signals hG (h.refl a) fun hG c => hG.osHandleOneSignal c _
  have h2 := h.modTcb a.cpu.runningTask (fun c =>
    {c with holdSignal:=0, taskStatus:={c.taskStatus with holdSignal:=false}}) h1 rfl
    (.of_mark rfl) fun _ => .same rfl rfl rfl
  have heq : a.osSignalEntry=(a.modTcb a.cpu.runningTask fun c =>
      c.osHandleOneSignal c.holdSignal).modTcb a.cpu.runningTask fun c =>
        {c with holdSignal:=0, taskStatus:={c.taskStatus with holdSignal:=false}} := by
    simp [Sched.osSignalEntry,Sched.modTcb]
  rw [heq]
  exact h2

lemma prtSigSuspend (hT : T.Any) (a : Sched) (mask : BitVec 64) : R a (a.prtSigSuspend mask).1 := by
  have h1 : R a (a.modTcb a.cpu.runningTask fun c =>
      {c with sigMask:=mask, sigWaitMask:=0}) :=
    h.step_signals hG (h.refl a) fun hG c => hG.masks c mask 0
  simp only [Sched.prtSigSuspend]
  split
  . exact h.step_unblocked hG h1 _
  split
  . exact h1
  exact h.setCont _ _ h1 hT.ctx (h.ofRunning h1)

omit hG in
lemma osSignalWaitScheCont (hT : T.Any) (a : Sched) : R a a.osSignalWaitScheCont.1 := by
  obtain ⟨h1,hf⟩ := h.step_resume (h.refl a) hT.ctx
  simp only [Sched.osSignalWaitScheCont]
  split
  . exact h.step_timeout h1 hf false
  exact h1

lemma signalWaitCont (hT : T.Any) (a : Sched) (set : BitVec 64) : R a (a.signalWaitCont set).1 := by
  have h1 := h.osSignalWaitScheCont hT a
  unfold Sched.signalWaitCont
  generalize a.osSignalWaitScheCont=p at h1 ⊢
  split
  . exact h.step_osSigWaitProcPendingSignal hG h1 set
  exact h1

lemma sigSuspendCont (hT : T.Any) (a : Sched) (saved : BitVec 64) : R a (a.sigSuspendCont saved).1 := by
  have h1 := h.osSignalWaitScheCont hT a
  unfold Sched.sigSuspendCont
  generalize a.osSignalWaitScheCont=p at h1 ⊢
  split
  . exact h.step_unblocked hG h1 saved
  exact h1

omit hG in
lemma step_signalHold (hT : T.Any) (hs : R a s) (signum : Nat)
    (hw : I a → (s.status t).waitSignal=false) : R a (s.signalHold t signum) := by
  have h1 := h.modTcb t (fun c =>
    {c with holdSignal:=signum, taskStatus:={c.taskStatus with holdSignal:=true}}) hs rfl
    (.of_mark rfl) fun _ => .same rfl rfl rfl
  have hw1 : I a → ((s.modTcb t fun c => {c with
      holdSignal := signum
      taskStatus := {c.taskStatus with holdSignal:=true}}).status t).waitSignal=false := by
    intro hI
    simpa [Sched.status,Sched.modTcb] using hw hI
  unfold Sched.signalHold
  generalize (s.modTcb t fun c => {c with
    holdSignal := signum
    taskStatus := {c.taskStatus with holdSignal:=true}})=s1 at h1 hw1 ⊢
  apply h.step_osTskSchedule
  split
  . have h2 : R a (s1.modStatus t fun b => {b with sigPause:=false}) :=
      h.modTcb t _ h1 rfl (.of_mark rfl) fun _ => ⟨id,by simp,.inr id⟩
    refine h.step_osTskReadyAdd h2 fun hI => ?_
    have hb := hw1 hI
    simp only [Sched.status] at hb
    simp [parked,Sched.status,Sched.modStatus,Sched.modTcb,hb]
  split
  . next hp _ =>
    refine h.step_wakeUpProcess h1 (fun _ hI => ?_) fun _ _ => hT.free
    simp [parked,hw1 hI,hp]
  exact h1

lemma step_signalNotify (hT : T.Any) (hs : R a s) (signum : Nat)
    (hone : I a → (s.status t).waitSignal=true → (s.status t).sigPause=false) :
    R a (s.signalNotify t signum) := by
  simp only [Sched.signalNotify]
  split
  . next hw =>
    have h2 : R a (s.modStatus t fun b => {b with waitSignal:=false}) :=
      h.modTcb t _ hs rfl (.of_mark rfl) fun _ => ⟨nofun,id,.inr id⟩
    have hl2 : Loose I a (s.modStatus t fun b => {b with waitSignal:=false}) t := by
      intro hI
      have hp := hone hI hw.1
      simp only [Sched.status] at hp
      simp [parked,Sched.status,Sched.modStatus,Sched.modTcb,hp]
    apply h.step_osTskSchedule
    exact h.step_readyAddUnlessSuspend (h.step_timeoutClear h2 hT.free) hl2.timeoutClear
  split
  . exact hs
  split
  . exact h.step_osHandleOneSignal hG hs signum
  split
  . next hm =>
    apply h.step_signalHold hT hs signum
    intro hI
    -- a task that waits for another signal is neither ready nor asleep
    by_contra hw
    have hwait : (s.status t).waitSignal=true := (Bool.not_eq_false _).mp hw
    have hp : (s.status t).sigPause=false := hone hI hwait
    have heng : (s.status t).engaged=true := by
      simp only [hp,Bool.or_false,Bool.and_eq_true,Bool.or_eq_true] at hm
      rcases hm.1 with (hb | hb) | hb <;> simp [engaged,hb]
    have hloose := h.ofEngaged hs heng hI
    simp [parked,hwait] at hloose
  exact hs

lemma prtSignalDeliver (hT : T.Any) (a : Sched) (info : SigInfo) (memOk : Bool)
    (hadd : ∀ c, (a.tcb t).osAddSignalPendingFlag info memOk=some c → G (a.tcb t) c)
    (hone : I a → (a.status t).waitSignal=true → (a.status t).sigPause=false) :
    R a (a.prtSignalDeliver t info memOk).1 := by
  obtain ⟨he,-⟩ | ⟨-,c,hc,he⟩ := a.prtSignalDeliver_cases t info memOk
  . rw [he]
    exact h.refl a
  obtain ⟨hstatus,-,-,-,-,htick⟩ := TskCb.osAddSignalPendingFlag_some hc
  have h1 : R a (a.modTcb t fun _ => c) := h.modSigs t _ (h.refl a) (hadd c hc) htick hstatus
  have hst : (a.modTcb t fun _ => c).status t=a.status t := by
    simp [Sched.status,Sched.modTcb,hstatus]
  rw [he]
  apply h.step_signalNotify hG hT h1
  rw [hst]
  exact hone

omit hG in
lemma pause (hI : ¬I a) : R a a.pause := by
  refine h.step_osTskSchedule (h.step_osTskReadyDel ?_)
  exact h.modTcb _ _ (h.refl a) rfl (.of_mark rfl) fun hI' => absurd hI' hI

lemma sigSuspendEnterCont (hT : T.Any) (hI : ¬I a) (saved wait : BitVec 64) :
    R a (a.sigSuspendEnterCont saved wait).1 := by
  have h1 := h.setCont a.cpu.runningTask .user (h.refl a) hT.ctx (h.ofRunning (h.refl a))
  unfold Sched.sigSuspendEnterCont Sched.osSignalWaitSche
  split
  . exact h1
  split
  . exact h1
  have h2 := h.setCont a.cpu.runningTask (.sigSuspend saved) h1 hT.ctx fun hI' => absurd hI' hI
  have h3 := h.step_signals hG h2 (t:=a.cpu.runningTask)
    (f:=fun c => {c with sigWaitMask:=wait}) fun hG c => hG.sigWaitMask c wait
  have h4 := h.modTcb a.cpu.runningTask (fun c =>
    {c with taskStatus:={c.taskStatus with waitSignal:=true}})
    (h.step_osTskReadyDel (t:=a.cpu.runningTask) h3) rfl (.of_mark rfl) fun hI' => absurd hI' hI
  apply h.step_osTskSchedule
  exact h.step_timeout h4 hT.free false

end signal

section interrupts

lemma hwiEnter (a : Sched) : R a a.hwiEnter := h.step_frame (h.refl a) rfl

lemma tickIsr (a : Sched) : R a a.tickIsr := h.step_frame (h.refl a) rfl

lemma step_osHwiDispatchTail (hs : R a s) : R a s.osHwiDispatchTail := by
  unfold Sched.osHwiDispatchTail
  split
  . split
    . exact hs
    exact h.step_frame hs rfl
  exact h.step_osMainSchedule hs

lemma hwiExit (a : Sched) : R a a.hwiExit := by
  simp only [Sched.hwiExit]
  split
  . exact h.step_frame (h.refl a) rfl
  apply h.step_osHwiDispatchTail
  exact h.step_frame (h.refl a) rfl

lemma step_tickDone (hs : R a s) (n : Nat) : R a {s with cpu := {s.cpu with
    tickNoRespondCnt := n
    tickActive := false
    tickPhase := .none}} :=
  h.step_frame hs rfl

lemma step_tickAgain (hs : R a s) (n : Nat) : R a {s with cpu := {s.cpu with
    tickNoRespondCnt := n
    tickPhase := .scan}} :=
  h.step_frame hs rfl

lemma tickEnd (a : Sched) : R a a.tickEnd := by
  unfold Sched.tickEnd
  split
  . exact h.step_tickAgain (h.refl a) _
  exact h.step_osMainSchedule (h.step_tickDone (h.refl a) _)

end interrupts

end Respects

end UniProton
