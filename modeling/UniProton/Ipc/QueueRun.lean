import UniProton.Ipc.QueueSteps

namespace UniProton

open Framework Function

namespace Kernel

open Sched

variable {c u d e : Prop} {k : Kernel} {i : Input} {q n : Nat} {w : Bool} {x : Cont}

lemma osQueueBlock_view (s : Sched) (q : Nat) (w : Bool) (n : Nat) (x : Cont) :
    ∃ v : TaskView, (osQueueBlock s q w n x).view=update s.view s.cpu.runningTask v ∧
      v.cont=x ∧ v.loc=some (.queue q w) ∧
      v.bits.queueBusy=(s.status s.cpu.runningTask).queueBusy := by
  unfold osQueueBlock timeoutSet
  split
  . simp only [setCont_view,pendTailAdd_view,modTcb_view,osTskReadyDel_view,update_self,update_idem]
    exact ⟨_,rfl,rfl,rfl,rfl⟩
  simp only [osTskTimerAdd_view,modStatus_view,setCont_view,pendTailAdd_view,modTcb_view,
    osTskReadyDel_view,update_self,update_idem]
  exact ⟨_,rfl,rfl,rfl,rfl⟩

lemma osQueueBlock_cfg (s : Sched) (q : Nat) (w : Bool) (n : Nat) (x : Cont) :
    (osQueueBlock s q w n x).cfg=s.cfg := by
  unfold osQueueBlock timeoutSet
  split <;> rfl

lemma QueOk.block (h : k.QueOk none) (hc : k.sched.Core)
    (hle : k.sched.cpu.runningTask≤k.sched.cfg.tskMaxNum)
    (huser : k.sched.cont k.sched.cpu.runningTask=.user) (hu : (k.queues q).used=true)
    (hz : k.queCnt q w=0) (hx : ∀ data prio, x=.queueWrite q data prio →
      data.length≤(k.queues q).nodeSize-osQueueNodeHeadLen) :
    (k.onSched fun s => (osQueueBlock s q w n x).osTskSchedule).QueOk none := by
  obtain ⟨v,hview,hcont,hloc,hbusy⟩ := osQueueBlock_view k.sched q w n x
  have hold := (hc.busyAt_user hle huser).1
  obtain ⟨m,hf,-⟩ := hc.tasks _ hle
  have hv : v.busyAt=none := by
    apply TaskView.busyAt_of_idle
    rw [hbusy]
    exact hf.busy_of_cont (congrArg Cont.queueOf huser)
  have hblock : (k.onSched fun s => osQueueBlock s q w n x).QueOk none := by
    refine h.moveTask hle rfl rfl (osQueueBlock_cfg k.sched q w n x) hview (fun p v' => ?_)
      (fun p v' hp => ?_) fun p data prio hp hin => ?_
    . rw [hv,hold]
    . rw [hloc] at hp
      cases hp
      exact .inr ⟨hu,hz⟩
    rw [hv,hloc] at hin
    rcases hin with hin | hin
    . cases hin
      rw [hcont] at hp
      exact .inr (hx data prio hp)
    cases hin
  exact hblock.schedule

lemma osInnerPendCont_view (k : Kernel) : ∃ v : TaskView,
    k.osInnerPendCont.1.sched.view=update k.sched.view k.sched.cpu.runningTask v ∧
      v.cont=.user ∧ v.loc=k.sched.pend.loc k.sched.cpu.runningTask := by
  simp only [osInnerPendCont]
  split
  . simp only [onSched,setCont_view,modStatus_view,update_self,update_idem]
    exact ⟨_,rfl,rfl,rfl⟩
  simp only [onSched,setCont_view,modStatus_view,update_self,update_idem]
  exact ⟨_,rfl,rfl,rfl⟩

lemma osInnerPendCont_errno (k : Kernel) : k.osInnerPendCont.2 =
    if (k.sched.status k.sched.cpu.runningTask).timeout then .queueTimeout else .osOk := by
  have ht : (((k.sched.modStatus k.sched.cpu.runningTask fun b =>
      {b with queueBusy:=false}).setCont k.sched.cpu.runningTask .user).status
      k.sched.cpu.runningTask).timeout=(k.sched.status k.sched.cpu.runningTask).timeout := by
    simp [status,modStatus,modTcb,setCont]
  unfold osInnerPendCont
  simp only [onSched,ht]
  split <;> rfl

lemma QueOk.settle (h : k.QueOk none) (hab : Able c u k.sched) (hctx : k.sched.cpu.taskContext=true)
    (hq : (k.sched.cont k.sched.cpu.runningTask).queueOf=some (q,w)) :
    (k.osInnerPendCont.2=.osOk → k.sched.busyAt k.sched.cpu.runningTask=some (q,w) ∧
      k.osInnerPendCont.1.QueOk (some (q,w))) ∧
    (k.osInnerPendCont.2≠.osOk → k.osInnerPendCont.1.QueOk none) := by
  have hle := hab.run.real hctx
  obtain ⟨m,hf,hm⟩ := hab.run.runnable hle
  have hbusy : (k.sched.status k.sched.cpu.runningTask).queueBusy =
      !(k.sched.status k.sched.cpu.runningTask).timeout := by
    apply hf.handed hm
    change (k.sched.cont k.sched.cpu.runningTask).queueOf≠none
    rw [hq]
    nofun
  obtain ⟨v,hview,hcont,hloc⟩ := osInnerPendCont_view k
  obtain ⟨s,hs⟩ := osInnerPendCont_sched k
  have hcfg := (osInnerPendCont_leads (d:=False) hab hctx).1.cfg
  have hv : v.busyAt=none := TaskView.busyAt_of_cont (congrArg Cont.queueOf hcont)
  have hmove {o : Option (Nat×Bool)}
      (ho : ∀ p x, owes o p x=owes (k.sched.busyAt k.sched.cpu.runningTask) p x) :
      k.osInnerPendCont.1.QueOk o := by
    refine h.moveTask hle (by rw [hs]) (by rw [hs]) hcfg hview (fun p x => ?_)
      (fun p x hp => .inl (hloc.symm.trans hp)) fun p data prio hp _ => ?_
    . rw [hv,owes_none,ho,Nat.zero_add]
      rfl
    rw [hcont] at hp
    cases hp
  rw [osInnerPendCont_errno]
  cases hto : (k.sched.status k.sched.cpu.runningTask).timeout with
  | false =>
    rw [hto] at hbusy
    have hat : k.sched.busyAt k.sched.cpu.runningTask=some (q,w) := by
      change (if (k.sched.status k.sched.cpu.runningTask).queueBusy then
        (k.sched.cont k.sched.cpu.runningTask).queueOf else none)=_
      rw [hbusy,hq]
      rfl
    refine ⟨fun _ => ⟨hat,hmove fun p x => ?_⟩,fun hne => absurd rfl hne⟩
    rw [hat]
  | true =>
    rw [hto] at hbusy
    refine ⟨nofun,fun _ => hmove fun p x => ?_⟩
    rw [show k.sched.busyAt k.sched.cpu.runningTask=none from TaskView.busyAt_of_idle hbusy]

section calls

variable (h : k.QueOk none) (hab : Able c u k.sched)

include h hab

lemma QueOk.innerPend (hm : k.sched.cpu.taskContext=true →
      k.sched.cont k.sched.cpu.runningTask=.user) (hb : k.sched.cpu.bgdActive=true)
    (hu : (k.queues q).used=true) (hx : ∀ data prio, x=.queueWrite q data prio →
      data.length≤(k.queues q).nodeSize-osQueueNodeHeadLen) (f : Kernel → Kernel)
    (hf : (k.queCntSet q w (k.queCnt q w-1)).QueOk (some (q,w)) →
      (f (k.queCntSet q w (k.queCnt q w-1))).QueOk none) : (match k.osInnerPend q w n x with
      | (k,some .osOk) => (f k,some Errno.osOk)
      | r => r).1.QueOk none := by
  rcases osInnerPend_cases k q w n x with ⟨hn,he⟩ | ⟨e,he,hne⟩ | ⟨hz,hi,-,he⟩
  . rw [he]
    exact hf (h.takeCount hu hn)
  . rw [he]
    split
    . next heq =>
      cases heq
      exact absurd rfl hne
    exact h
  rw [he]
  have hctx := taskContext_of hb (by simp [hi])
  exact h.block hab.core (hab.run.real hctx) (hm hctx) hu hz hx

lemma QueOk.prtQueueRead (hm : k.sched.cpu.taskContext=true →
      k.sched.cont k.sched.cpu.runningTask=.user) (hb : k.sched.cpu.bgdActive=true)
    (id len n : Nat) : (k.prtQueueRead id len n).1.QueOk none := by
  simp only [Kernel.prtQueueRead]
  split
  . exact h
  split
  . exact h
  split
  . exact h
  next hu =>
  have hu' : (k.queues (osQueueInnerId id)).used=true := by simpa using hu
  refine h.innerPend (x:=.queueRead (osQueueInnerId id) len) hab hm hb hu' (by simp)
    (fun k => k.queueReadOut _ len) fun ht => ?_
  exact ht.readOut (by simpa [queCntSet,modQue] using hu') hab.core len

lemma QueOk.prtQueueWrite (hm : k.sched.cpu.taskContext=true →
      k.sched.cont k.sched.cpu.runningTask=.user) (hb : k.sched.cpu.bgdActive=true)
    (id : Nat) (data : List UInt8) (n prio : Nat) :
    (k.prtQueueWrite id data n prio).1.QueOk none := by
  simp only [Kernel.prtQueueWrite]
  split
  . exact h
  split
  . exact h
  next hu =>
  split
  . exact h
  next hd =>
  have hu' : (k.queues (osQueueInnerId id)).used=true := by simpa using hu
  have hd' := Nat.le_of_not_lt hd
  refine h.innerPend hab hm hb hu' (fun data' prio' he => ?_)
    (fun k => k.queueWriteIn _ data prio) fun ht => ?_
  . cases he
    exact hd'
  refine ht.writeIn ?_ hab.core ?_ prio
  . simpa [queCntSet,modQue] using hu'
  simpa [queCntSet,modQue] using hd'

lemma QueOk.queueReadCont (hctx : k.sched.cpu.taskContext=true) {len : Nat}
    (hc : k.sched.cont k.sched.cpu.runningTask=.queueRead q len) :
    (k.queueReadCont q len).1.QueOk none := by
  obtain ⟨hok,herr⟩ := h.settle hab hctx (q:=q) (w:=false) (by rw [hc]; rfl)
  obtain ⟨-,hab',-⟩ := osInnerPendCont_leads (d:=False) hab hctx
  unfold Kernel.queueReadCont
  split
  . next k1 he =>
    rw [he] at hok herr hab'
    obtain ⟨hat,hk⟩ := hok rfl
    have hu := h.used_of_inQueue (hab.run.real hctx) (.inr hat)
    obtain ⟨s,hs⟩ := osInnerPendCont_sched k
    rw [he] at hs
    obtain rfl : k1={k with sched:=s} := hs
    exact hk.readOut hu hab'.core len
  next k1 e hne he =>
  rw [he] at herr
  exact herr hne

lemma QueOk.queueWriteCont (hctx : k.sched.cpu.taskContext=true) {data : List UInt8}
    {prio : Nat} (hc : k.sched.cont k.sched.cpu.runningTask=.queueWrite q data prio) :
    (k.queueWriteCont q data prio).1.QueOk none := by
  obtain ⟨hok,herr⟩ := h.settle hab hctx (q:=q) (w:=true) (by rw [hc]; rfl)
  obtain ⟨-,hab',-⟩ := osInnerPendCont_leads (d:=False) hab hctx
  unfold Kernel.queueWriteCont
  split
  . next k1 he =>
    rw [he] at hok herr hab'
    obtain ⟨hat,hk⟩ := hok rfl
    have hle := hab.run.real hctx
    have hu := h.used_of_inQueue hle (.inr hat)
    obtain ⟨s,hs⟩ := osInnerPendCont_sched k
    rw [he] at hs
    obtain rfl : k1={k with sched:=s} := hs
    exact hk.writeIn hu hab'.core (h.data _ hle q data prio hc (.inr hat)) prio
  next k1 e hne he =>
  rw [he] at herr
  exact herr hne

omit hab in
lemma QueOk.prtQueueCreate (num size : UInt16) (memOk : Bool) :
    (k.prtQueueCreate num size memOk).1.QueOk none := by
  simp only [Kernel.prtQueueCreate]
  split
  . exact h
  next hpara =>
  split
  . exact h
  next q hfind =>
  split
  . exact h
  have hunused : (k.queues q).used=false := by
    have hp := List.find?_some hfind
    simpa using hp
  have hpara' : osQueueCreatParaCheck num.toNat size.toNat=.osOk := not_not.mp hpara
  unfold osQueueCreatParaCheck at hpara'
  split at hpara'
  . cases hpara'
  next hzero =>
  split at hpara'
  . cases hpara'
  next hbig =>
  have hnum : 0<num.toNat := by omega
  refine h.setQue (l:=[]) rfl rfl rfl rfl ?_ (fun p v _ => rfl) fun hu => ?_
  . refine ⟨rfl,Ring.Shows.empty hnum fun _ => rfl,fun v => ?_,fun v hne => ?_,rfl,?_⟩
    . obtain ⟨-,-,hb⟩ := h.unused q v hunused
      rw [hb,owes_none]
      cases v <;> rfl
    . exact absurd (h.unused q v hunused).2.1 hne
    exact Nat.le_of_not_lt hbig
  rw [hunused] at hu
  cases hu

omit hab in
lemma QueOk.delete_idle {id : Nat} (hok : (k.prtQueueDelete id).2=.osOk) (w : Bool) :
    k.sched.pend.lists (.queue (osQueueInnerId id) w)=[] ∧
      k.sched.busyCnt (osQueueInnerId id) w=0 := by
  unfold Kernel.prtQueueDelete at hok
  dsimp only at hok
  split at hok
  . cases hok
  split at hok
  . cases hok
  next hu =>
  split at hok
  . cases hok
  next hlist =>
  split at hok
  . cases hok
  next hsum =>
  obtain ⟨l,hl⟩ := h.used (osQueueInnerId id) (by simpa using hu)
  push Not at hlist
  have hr := hl.count false
  have hw := hl.count true
  have hfits := hl.shows.fits
  change (k.queues (osQueueInnerId id)).readableCnt+_+0=l.length at hr
  change (k.queues (osQueueInnerId id)).writableCnt+_+0 =
    (k.queues (osQueueInnerId id)).nodeNum-l.length at hw
  cases w with
  | false => exact ⟨hlist.2,by omega⟩
  | true => exact ⟨hlist.1,by omega⟩

omit hab in
lemma QueOk.close (hidle : ∀ w, k.sched.pend.lists (.queue q w)=[] ∧
    k.sched.busyCnt q w=0) : (k.modQue q fun c => {c with used:=false}).QueOk none := by
  have hsize (p : Nat) : ((k.modQue q fun c => {c with used:=false}).queues p).nodeSize =
      (k.queues p).nodeSize := by
    by_cases hp : p=q
    . subst hp
      simp [modQue]
    simp [modQue,hp]
  refine ⟨fun p hup => ?_,fun p w hup => ?_,fun t ht p data prio hc hin => ?_⟩
  . by_cases hp : p=q
    . subst hp
      simp [modQue] at hup
    simp only [modQue,update_of_ne hp] at hup ⊢
    exact h.used p hup
  . by_cases hp : p=q
    . subst hp
      exact ⟨owes_none _ _,hidle w⟩
    simp only [modQue,update_of_ne hp] at hup
    exact h.unused p w hup
  rw [hsize]
  exact h.data t ht p data prio hc hin

omit hab in
lemma QueOk.prtQueueDelete (id : Nat) : (k.prtQueueDelete id).1.QueOk none := by
  have hidle := @delete_idle _ h id
  revert hidle
  simp only [Kernel.prtQueueDelete]
  split
  . exact fun _ => h
  split
  . exact fun _ => h
  split
  . exact fun _ => h
  split
  . exact fun _ => h
  intro hidle
  exact h.close fun w => hidle rfl w

end calls

lemma QueOk.act (h : k.QueOk none) (hab : Able c u k.sched)
    (hk' : (k.act i).1.sched.Core) (hcfg : (k.act i).1.sched.cfg=k.sched.cfg)
    (hen : k.enabled i=true) (hk : InputOk c u d e k i) : (k.act i).1.QueOk none := by
  by_cases hq : k.inputPart i=.que
  swap
  . obtain ⟨hqs,hlog⟩ := (k.act_only i).queues hq
    exact h.same hqs hlog (act_queSame hab hk' hcfg hen hk hq)
  cases i with
  | call call =>
    have hm := (enabled_call hen).2
    cases call with
    | queueCreate num size memOk => exact h.prtQueueCreate num size memOk
    | queueDelete id => exact h.prtQueueDelete id
    | queueRead id len n => exact h.prtQueueRead hab hm.user (hm.bgd.resolve_right nofun) id len n
    | queueWrite id data n prio =>
      exact h.prtQueueWrite hab hm.user (hm.bgd.resolve_right nofun) id data n prio
    | _ => cases hq
  | proceed =>
    have hctx : k.sched.cpu.taskContext=true := by
      simp only [enabled,Bool.and_eq_true] at hen
      exact hen.2.1
    change (k.sched.cont k.sched.cpu.runningTask).part=.que at hq
    change k.proceed.1.QueOk none
    cases hc : k.sched.cont k.sched.cpu.runningTask with
    | queueRead q len =>
      simp only [proceed,hc]
      exact h.queueReadCont hab hctx hc
    | queueWrite q data prio =>
      simp only [proceed,hc]
      exact h.queueWriteCont hab hctx hc
    | _ =>
      rw [hc] at hq
      cases hq
  | _ => cases hq

lemma init_queOk (cfg : Cfg) : (init cfg).QueOk none := by
  have hnil (q : Nat) (w : Bool) : (init cfg).sched.pend.lists (.queue q w)=[] :=
    init_lists cfg nofun
  refine ⟨nofun,fun q w _ => ⟨owes_none q w,hnil q w,?_⟩,fun t ht q data prio hc => nomatch hc⟩
  refine List.countP_eq_zero.mpr fun t _ => ?_
  have hb : (init cfg).sched.busyAt t=none := TaskView.busyAt_of_cont rfl
  rw [hb]
  nofun

variable {cfg : Cfg}

lemma queOk_of_plain (hr : (kernelMachine cfg).Reaches (fun _ i => i.plain=true) k) :
    k.QueOk none := by
  refine hr.invariant_of (P:=fun k => k.QueOk none) (fun _ => fine_of_plain) ?_
    fun k i hf hk hi => ?_
  . rintro k rfl
    exact init_queOk cfg
  change (k.step i).QueOk none
  unfold Kernel.step
  split
  . next hen =>
    have hab := hf.able .none (enabled_alive hen)
    have hkeep := act_keeps hab hf.sem False.elim hen (Input.plain_ok hi k)
    exact hk.act hab hkeep.core hkeep.cfg hen (Input.plain_ok hi k)
  exact hk

/-- Each side counts what the queue has for it, up to the woken tasks that have not gone on; the
indices are in the ring; tasks wait only where nothing is counted; and a deletion that is not
refused finds nobody. -/
structure QueueAccount (k : Kernel) (q : Nat) : Prop where
  balance : (k.queLog q).countP (!QueEvent.isWrite ·)+QueEvent.stored (k.queLog q) =
    (k.queLog q).countP QueEvent.isWrite
  readable : (k.queues q).readableCnt+k.sched.busyCnt q false=QueEvent.stored (k.queLog q)
  writable : (k.queues q).writableCnt+k.sched.busyCnt q true =
    (k.queues q).nodeNum-QueEvent.stored (k.queLog q)
  fits : QueEvent.stored (k.queLog q)≤(k.queues q).nodeNum
  head : (k.queues q).queueHead<(k.queues q).nodeNum
  tail : (k.queues q).queueTail<(k.queues q).nodeNum
  ring : ((k.queues q).queueHead+QueEvent.stored (k.queLog q))%(k.queues q).nodeNum =
    (k.queues q).queueTail
  readers : k.sched.pend.lists (.queue q false)≠[] → (k.queues q).readableCnt=0
  writers : k.sched.pend.lists (.queue q true)≠[] → (k.queues q).writableCnt=0
  delete : ∀ id, osQueueInnerId id=q → (k.prtQueueDelete id).2=.osOk → ∀ w,
    k.sched.pend.lists (.queue q w)=[] ∧ k.sched.busyCnt q w=0

theorem queue_accounting (hr : (kernelMachine cfg).Reaches (fun _ i => i.plain=true) k)
    (hu : (k.queues q).used=true) : k.QueueAccount q := by
  have hk := queOk_of_plain hr
  obtain ⟨l,hl⟩ := hk.used q hu
  have hst := QueEvent.replay_stored hl.replay
  have hread := hl.count false
  have hwrite := hl.count true
  have hhead := hl.shows.head_lt
  have hfits := hl.shows.fits
  have htail := hl.shows.tail_eq
  refine ⟨?_,?_,?_,?_,hhead,?_,?_,hl.idle false,hl.idle true,fun id hid hok w => ?_⟩
  . rw [hst]
    exact (QueEvent.replay_length hl.replay).2
  . rw [hst]
    exact hread
  . rw [hst]
    exact hwrite
  . rw [hst]
    exact hfits
  . rw [htail]
    exact Ring.slot_lt hhead hfits
  . rw [hst,htail,Ring.slot_eq_mod hhead hfits]
  subst hid
  exact hk.delete_idle hok w

/-- Task 0 waits for a message, and task 1 writes one under the task lock, so that task 0 has not
gone on. -/
def handedInputs : List Input :=
  [.call (.taskCreate (smallTask 3) true false),.call (.taskResume 0),
   .call (.taskCreate (smallTask 4) true false),.call (.taskResume 1),
   .call (.queueCreate 2 8 true),.activate true,.call (.queueRead 1 4 osWaitForever),
   .call .taskLock,.call (.queueWrite 1 [7,9] 0 0)]

def handed : Kernel := (kernelMachine smallCfg).run (init smallCfg) handedInputs

theorem queue_accounting_handed :
    (handed.queues 0).used=true ∧ handed.sched.busyCnt 0 false=1 ∧ handed.QueueAccount 0 := by
  have hrun : (kernelMachine smallCfg).Allowed (fun _ i => i.plain=true) (init smallCfg)
      handedInputs := ⟨rfl,rfl,rfl,rfl,rfl,rfl,rfl,rfl,rfl,trivial⟩
  refine ⟨by decide +kernel,by decide +kernel,?_⟩
  exact queue_accounting (Machine.Reaches.run (.start rfl) handedInputs hrun) (by decide +kernel)

/-- What a call on a queue asks for: a read into a buffer, or a write. -/
inductive QueOp where
  | read (bufLen : Nat)
  | write (src : Option Nat) (urgent : Bool) (data : List UInt8)

def QueOp.Logs : QueOp → QueEvent → Prop
  | .read n, e => ∃ len data, e=.got n len data
  | .write src urgent data, e => e=.wrote src urgent data

/-- The queue that an input is about, and what it asks for; a call that had to wait goes on by
`proceed`. -/
def queueDoes (k : Kernel) : Input → Option (Nat×QueOp)
  | .call (.queueRead id len _) => some (osQueueInnerId id,.read len)
  | .call (.queueWrite id data _ prio) =>
    some (osQueueInnerId id,.write k.queSource (decide (prio≠0)) data)
  | .proceed =>
    match k.sched.cont k.sched.cpu.runningTask with
    | .queueRead q len => some (q,.read len)
    | .queueWrite q data prio => some (q,.write k.queSource (decide (prio≠0)) data)
    | _ => none
  | _ => none

structure QueKept (k k' : Kernel) (q : Nat) : Prop where
  log : k'.queLog q=k.queLog q
  num : (k'.queues q).nodeNum=(k.queues q).nodeNum
  queue : (k'.queues q).queue=(k.queues q).queue
  head : (k'.queues q).queueHead=(k.queues q).queueHead
  tail : (k'.queues q).queueTail=(k.queues q).queueTail

/-- A success makes one entry in the history of its queue, and nothing else makes one or changes the
messages. -/
structure QueueStep (k : Kernel) (q : Nat) (i : Input) : Prop where
  done : ∀ op, k.queueDoes i=some (q,op) → (k.act i).2=some .osOk →
    ∃ e, op.Logs e ∧ (k.act i).1.queLog q=e::k.queLog q
  other : (∀ op, k.queueDoes i=some (q,op) → (k.act i).2≠some .osOk) → QueKept k (k.act i).1 q

section steps

variable {k' k'' : Kernel} {p : Nat} {op : QueOp}

lemma QueKept.of_eq (hlog : k'.queLog p=k.queLog p) (hq : k'.queues p=k.queues p) :
    QueKept k k' p := by
  refine ⟨hlog,?_,?_,?_,?_⟩
  all_goals rw [hq]

lemma QueKept.trans (h : QueKept k k' p) (h' : QueKept k' k'' p) : QueKept k k'' p :=
  ⟨h'.log.trans h.log,h'.num.trans h.num,h'.queue.trans h.queue,h'.head.trans h.head,
    h'.tail.trans h.tail⟩

lemma queCntSet_kept (k : Kernel) (q : Nat) (w : Bool) (n p : Nat) :
    QueKept k (k.queCntSet q w n) p := by
  by_cases hp : p=q
  . subst hp
    refine ⟨rfl,?_,?_,?_,?_⟩
    all_goals
      simp only [queCntSet,modQue,update_self]
      split <;> rfl
  exact .of_eq rfl (update_of_ne hp _ _)

lemma queueGive_kept (k : Kernel) (q : Nat) (w : Bool) (p : Nat) :
    QueKept k (k.queueGive q w) p := by
  unfold queueGive osQueuePendNeedProc
  cases k.sched.pend.lists (.queue q w) with
  | nil => exact queCntSet_kept k q w _ p
  | cons t l => exact .of_eq rfl rfl

/-- What an operation does to the histories. -/
structure Copied (k k' : Kernel) (q : Nat) (op : QueOp) : Prop where
  entry : ∃ e, op.Logs e ∧ k'.queLog q=e::k.queLog q
  others : ∀ p, p≠q → QueKept k k' p

lemma Copied.after (h : Copied k' k'' q op) (hk : ∀ p, QueKept k k' p) : Copied k k'' q op := by
  obtain ⟨e,he,hlog⟩ := h.entry
  refine ⟨⟨e,he,?_⟩,fun p hp => (hk p).trans (h.others p hp)⟩
  rw [hlog,(hk q).log]

lemma copied_give {c : QueCb → QueCb} {e : QueEvent} (he : op.Logs e) :
    Copied k (((k.modQue q c).logQue q e).queueGive q w) q op := by
  have hgive := fun p => queueGive_kept ((k.modQue q c).logQue q e) q w p
  refine ⟨⟨e,he,?_⟩,fun p hp => ?_⟩
  . rw [(hgive q).log]
    exact update_self _ _ _
  refine .trans (.of_eq ?_ ?_) (hgive p)
  . exact update_of_ne hp _ _
  exact update_of_ne hp _ _

lemma queueReadOut_copied (k : Kernel) (q len : Nat) :
    Copied k (k.queueReadOut q len) q (.read len) :=
  copied_give ⟨_,_,rfl⟩

lemma queueWriteIn_copied (k : Kernel) (q : Nat) (data : List UInt8) (prio : Nat) :
    Copied k (k.queueWriteIn q data prio) q (.write k.queSource (decide (prio≠0)) data) :=
  copied_give rfl

lemma QueueStep.of_does (hdoes : k.queueDoes i=some (q,op))
    (h : ((k.act i).2=some .osOk ∧ Copied k (k.act i).1 q op) ∨
      ((k.act i).2≠some .osOk ∧ ∀ p, QueKept k (k.act i).1 p)) (p : Nat) : QueueStep k p i := by
  refine ⟨fun op' hop hok => ?_,fun hno => ?_⟩
  . rw [hdoes] at hop
    obtain ⟨rfl,rfl⟩ := Prod.mk.inj (Option.some.inj hop)
    rcases h with ⟨-,hc⟩ | ⟨hne,-⟩
    . exact hc.entry
    exact absurd hok hne
  rcases h with ⟨hok,hc⟩ | ⟨-,hkept⟩
  . refine hc.others p fun hp => ?_
    subst hp
    exact hno op hdoes hok
  exact hkept p

lemma QueueStep.of_none (hdoes : k.queueDoes i=none) (h : QueKept k (k.act i).1 q) :
    QueueStep k q i := by
  refine ⟨fun op hop => ?_,fun _ => h⟩
  rw [hdoes] at hop
  cases hop

lemma osInnerPend_copied (k : Kernel) (q : Nat) (w : Bool) (n : Nat) (x : Cont)
    (f : Kernel → Kernel) (hf : ∀ k', (∀ p, QueKept k k' p) → k'.queSource=k.queSource →
      Copied k' (f k') q op) :
    let r := match k.osInnerPend q w n x with
      | (k,some .osOk) => (f k,some Errno.osOk)
      | r => r
    (r.2=some .osOk ∧ Copied k r.1 q op) ∨ (r.2≠some .osOk ∧ ∀ p, QueKept k r.1 p) := by
  intro r
  rcases osInnerPend_cases k q w n x with ⟨-,he⟩ | ⟨e,he,hne⟩ | ⟨-,-,-,he⟩
  . have hr : r=(f (k.queCntSet q w (k.queCnt q w-1)),some .osOk) := by simp only [r,he]
    rw [hr]
    have hkept := fun p => queCntSet_kept k q w (k.queCnt q w-1) p
    exact .inl ⟨rfl,(hf _ hkept rfl).after hkept⟩
  . have hr : r=(k,some e) := by
      simp only [r,he]
      split
      . next heq =>
        cases heq
        exact absurd rfl hne
      rfl
    rw [hr]
    refine .inr ⟨fun h => hne (Option.some.inj h),fun p => .of_eq rfl rfl⟩
  have hr : r=(k.onSched fun s => (osQueueBlock s q w n x).osTskSchedule,none) := by
    simp only [r,he]
  rw [hr]
  exact .inr ⟨nofun,fun p => .of_eq rfl rfl⟩

lemma prtQueueRead_step (k : Kernel) (id len n p : Nat) :
    QueueStep k p (.call (.queueRead id len n)) := by
  refine .of_does rfl ?_ p
  have hsame : ∀ p, QueKept k k p := fun p => .of_eq rfl rfl
  change ((k.prtQueueRead id len n).2=_ ∧ Copied k (k.prtQueueRead id len n).1 _ _) ∨
    ((k.prtQueueRead id len n).2≠_ ∧ ∀ p, QueKept k (k.prtQueueRead id len n).1 p)
  simp only [prtQueueRead]
  split
  . exact .inr ⟨by simp,hsame⟩
  split
  . exact .inr ⟨by simp,hsame⟩
  split
  . exact .inr ⟨by simp,hsame⟩
  exact osInnerPend_copied k _ false n _ (fun k => k.queueReadOut _ len)
    fun k' _ _ => queueReadOut_copied k' _ len

lemma prtQueueWrite_step (k : Kernel) (id : Nat) (data : List UInt8) (n prio p : Nat) :
    QueueStep k p (.call (.queueWrite id data n prio)) := by
  refine .of_does rfl ?_ p
  have hsame : ∀ p, QueKept k k p := fun p => .of_eq rfl rfl
  change ((k.prtQueueWrite id data n prio).2=_ ∧ Copied k (k.prtQueueWrite id data n prio).1 _ _) ∨
    ((k.prtQueueWrite id data n prio).2≠_ ∧ ∀ p, QueKept k (k.prtQueueWrite id data n prio).1 p)
  simp only [prtQueueWrite]
  split
  . next he => exact .inr ⟨fun h => he (Option.some.inj h),hsame⟩
  split
  . exact .inr ⟨by simp,hsame⟩
  split
  . exact .inr ⟨by simp,hsame⟩
  refine osInnerPend_copied k _ true n _ (fun k => k.queueWriteIn _ data prio) fun k' _ hsrc => ?_
  rw [← hsrc]
  exact queueWriteIn_copied k' _ data prio

lemma osInnerPendCont_kept (k : Kernel) :
    (∀ p, QueKept k k.osInnerPendCont.1 p) ∧ k.osInnerPendCont.1.queSource=k.queSource := by
  simp only [osInnerPendCont,queSource]
  split
  . refine ⟨fun p => .of_eq rfl rfl,?_⟩
    simp [onSched,modStatus,modTcb,setCont]
  refine ⟨fun p => .of_eq rfl rfl,?_⟩
  simp [onSched,modStatus,modTcb,setCont]

lemma proceed_step (k : Kernel) (p : Nat) (hq : k.inputPart .proceed=.que) :
    QueueStep k p .proceed := by
  obtain ⟨hkept,hsrc⟩ := osInnerPendCont_kept k
  change (k.sched.cont k.sched.cpu.runningTask).part=.que at hq
  cases hc : k.sched.cont k.sched.cpu.runningTask with
  | queueRead q len =>
    have hdoes : k.queueDoes .proceed=some (q,.read len) := by simp only [queueDoes,hc]
    refine .of_does hdoes ?_ p
    simp only [act,proceed,hc]
    unfold queueReadCont
    split
    . next k1 he =>
      rw [he] at hkept
      exact .inl ⟨rfl,(queueReadOut_copied k1 q len).after hkept⟩
    next k1 e hne he =>
    rw [he] at hkept
    exact .inr ⟨fun h => hne (Option.some.inj h),hkept⟩
  | queueWrite q data prio =>
    have hdoes : k.queueDoes .proceed =
        some (q,.write k.queSource (decide (prio≠0)) data) := by simp only [queueDoes,hc]
    refine .of_does hdoes ?_ p
    simp only [act,proceed,hc]
    unfold queueWriteCont
    split
    . next k1 he =>
      rw [he] at hkept hsrc
      rw [← hsrc]
      exact .inl ⟨rfl,(queueWriteIn_copied k1 q data prio).after hkept⟩
    next k1 e hne he =>
    rw [he] at hkept
    exact .inr ⟨fun h => hne (Option.some.inj h),hkept⟩
  | _ =>
    rw [hc] at hq
    cases hq

lemma prtQueueCreate_kept (k : Kernel) (num size : UInt16) (memOk : Bool)
    (hu : (k.queues p).used=true) : QueKept k (k.prtQueueCreate num size memOk).1 p := by
  simp only [prtQueueCreate]
  split
  . exact .of_eq rfl rfl
  split
  . exact .of_eq rfl rfl
  next q hfind =>
  split
  . exact .of_eq rfl rfl
  have hp : p≠q := by
    rintro rfl
    have hf := List.find?_some hfind
    simp [hu] at hf
  exact .of_eq (update_of_ne hp _ _) (update_of_ne hp _ _)

lemma prtQueueDelete_kept (k : Kernel) (id p : Nat) : QueKept k (k.prtQueueDelete id).1 p := by
  simp only [prtQueueDelete]
  split
  . exact .of_eq rfl rfl
  split
  . exact .of_eq rfl rfl
  split
  . exact .of_eq rfl rfl
  split
  . exact .of_eq rfl rfl
  generalize osQueueInnerId id=q
  by_cases hp : p=q
  . subst hp
    refine ⟨rfl,?_,?_,?_,?_⟩
    all_goals simp only [modQue,update_self]
  exact .of_eq rfl (update_of_ne hp _ _)

lemma queueStep (i : Input) (hu : ∀ num size memOk,
    i=.call (.queueCreate num size memOk) → (k.queues q).used=true) : QueueStep k q i := by
  by_cases hq : k.inputPart i=.que
  swap
  . obtain ⟨hqs,hlog⟩ := (k.act_only i).queues hq
    refine .of_none ?_ (.of_eq (by rw [hlog]) (by rw [hqs]))
    cases i with
    | call call =>
      cases call with
      | queueRead | queueWrite => exact absurd rfl hq
      | _ => rfl
    | proceed =>
      change (k.sched.cont k.sched.cpu.runningTask).part≠.que at hq
      simp only [queueDoes]
      split
      . next hc =>
        rw [hc] at hq
        exact absurd rfl hq
      . next hc =>
        rw [hc] at hq
        exact absurd rfl hq
      rfl
    | _ => rfl
  cases i with
  | call call =>
    cases call with
    | queueCreate num size memOk =>
      exact .of_none rfl (prtQueueCreate_kept k num size memOk (hu num size memOk rfl))
    | queueDelete id => exact .of_none rfl (prtQueueDelete_kept k id q)
    | queueRead id len n => exact prtQueueRead_step k id len n q
    | queueWrite id data n prio => exact prtQueueWrite_step k id data n prio q
    | _ => cases hq
  | proceed => exact proceed_step k q hq
  | _ => cases hq

end steps

end Kernel

end UniProton
