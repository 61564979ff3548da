import UniProton.Ipc.Deque
import UniProton.Kernel.Lives

namespace UniProton

open Framework Function List

def owes (o : Option (Nat×Bool)) (q : Nat) (w : Bool) : Nat := if o=some (q,w) then 1 else 0

lemma countP_range_update {α : Type*} (p : α → Bool) (f : Nat → α) (x : α) {n t : Nat}
    (ht : t<n) : (List.range n).countP (fun i => p (update f t x i))+(p (f t)).toNat =
      (List.range n).countP (fun i => p (f i))+(p x).toNat := by
  induction n with
  | zero => cases ht
  | succ n ih =>
    rw [range_succ,countP_append,countP_append,countP_singleton,countP_singleton]
    by_cases e : t=n
    . subst e
      have hsame : (List.range t).countP (fun i => p (update f t x i)) =
          (List.range t).countP fun i => p (f i) := by
        refine countP_congr fun i hi => ?_
        rw [update_of_ne (Nat.ne_of_lt (mem_range.mp hi))]
      rw [hsame,update_self]
      cases p x <;> cases p (f t) <;> simp
    rw [update_of_ne (Ne.symm e)]
    omega

def TaskView.busyAt (v : TaskView) : Option (Nat×Bool) :=
  if v.bits.queueBusy then v.cont.queueOf else none

lemma TaskView.busyAt_of_idle {v : TaskView} (h : v.bits.queueBusy=false) : v.busyAt=none := by
  rw [busyAt,h]
  rfl

lemma TaskView.busyAt_of_cont {v : TaskView} (h : v.cont.queueOf=none) : v.busyAt=none := by
  rw [busyAt,h]
  split <;> rfl

namespace Sched

variable {s s' : Sched} {t q : Nat} {w : Bool} {X : Nat → Prop}

def busyAt (s : Sched) (t : Nat) : Option (Nat×Bool) := (s.view t).busyAt

/-- The number of woken tasks that have not gone on: readers, or with `true` writers. -/
def busyCnt (s : Sched) (q : Nat) (w : Bool) : Nat :=
  (List.range (s.cfg.tskMaxNum+1)).countP fun t => decide (s.busyAt t=some (q,w))

def InQueue (s : Sched) (t q : Nat) (w : Bool) : Prop :=
  s.pend.loc t=some (.queue q w) ∨ s.busyAt t=some (q,w)

lemma busyCnt_update {x : Option (Nat×Bool)} (hcfg : s'.cfg=s.cfg) (ht : t ≤ s.cfg.tskMaxNum)
    (h : ∀ u ≤ s.cfg.tskMaxNum, s'.busyAt u=update s.busyAt t x u) :
    s'.busyCnt q w+owes (s.busyAt t) q w=s.busyCnt q w+owes x q w := by
  have hcnt := countP_range_update (fun y => decide (y=some (q,w))) s.busyAt x
    (Nat.lt_succ_of_le ht)
  have hsame : s'.busyCnt q w=(List.range (s.cfg.tskMaxNum+1)).countP fun i =>
      decide (update s.busyAt t x i=some (q,w)) := by
    unfold busyCnt
    rw [hcfg]
    refine countP_congr fun i hi => ?_
    rw [h i (Nat.le_of_lt_succ (mem_range.mp hi))]
  have howes (y : Option (Nat×Bool)) : owes y q w=(decide (y=some (q,w))).toNat := by
    unfold owes
    split <;> simp_all
  rw [hsame,howes,howes]
  exact hcnt

lemma busyCnt_pos (ht : t ≤ s.cfg.tskMaxNum) (h : s.busyAt t=some (q,w)) : 0<s.busyCnt q w :=
  countP_pos_iff.mpr ⟨t,mem_range.mpr (Nat.lt_succ_of_le ht),by simpa using h⟩

structure QueStill (X : Nat → Prop) (s s' : Sched) : Prop where
  busy : ∀ t, ¬X t → (s'.status t).queueBusy=(s.status t).queueBusy
  cont : ∀ t, ¬X t → s'.cont t=s.cont t ∨ ((s.cont t).queueOf=none ∧ (s'.cont t).queueOf=none)
  loc : ∀ t q w, s'.pend.loc t=some (.queue q w) → s.pend.loc t=some (.queue q w)

lemma quiet_queue (X : Nat → Prop) :
    Quiet ⟨X,fun _ => True,True,True,False,True,fun _ => True,True⟩ (QueStill X) where
  refl s := ⟨fun _ _ => rfl,fun _ _ => .inl rfl,fun _ _ _ => id⟩
  trans h h' := by
    refine ⟨fun t ht => (h'.busy t ht).trans (h.busy t ht),fun t ht => ?_,
      fun t q w hl => h.loc t q w (h'.loc t q w hl)⟩
    rcases h.cont t ht with h1 | ⟨h1,h2⟩
    . rw [← h1]
      exact h'.cont t ht
    rcases h'.cont t ht with h3 | ⟨-,h3⟩
    . exact .inr ⟨h1,by rw [h3]; exact h2⟩
    exact .inr ⟨h1,h3⟩
  frame ht hc hp := by
    refine ⟨fun t _ => ?_,fun t _ => .inl ?_,fun t q w hl => ?_⟩
    . rw [status,ht,status]
    . rw [hc]
    rw [← hp]
    exact hl
  modTcb s t f hf := by
    refine ⟨fun u hu => ?_,fun _ _ => .inl rfl,fun _ _ _ => id⟩
    by_cases e : u=t
    . subst e
      simp only [status,modTcb,update_self]
      exact (hf.busy.resolve_left hu).resolve_left id
    simp only [status,modTcb,update_of_ne e]
  setCont s t k hk := by
    refine ⟨fun _ _ => rfl,fun u hu => ?_,fun _ _ _ => id⟩
    by_cases e : u=t
    . subst e
      rw [setCont_self]
      exact .inr ((hk.que.resolve_left hu).resolve_left id)
    exact .inl (update_of_ne e _ _)
  pendInsert s t h i hj := by
    refine ⟨fun _ _ => rfl,fun _ _ => .inl rfl,fun u q w hl => ?_⟩
    change (s.pend.insert t h i).loc u=_ at hl
    rw [Links.insert_loc_getD] at hl
    by_cases e : u=t
    . subst e
      rw [update_self] at hl
      cases hu : s.pend.loc u with
      | some x =>
        rw [hu] at hl
        exact hl
      | none =>
        rw [hu] at hl
        cases hl
        exact hj.elim
    rw [update_of_ne e] at hl
    exact hl
  pendDelete s t := by
    refine ⟨fun _ _ => rfl,fun _ _ => .inl rfl,fun u q w hl => ?_⟩
    change (s.pend.delete t).loc u=_ at hl
    rw [Links.delete_loc] at hl
    by_cases e : u=t
    . subst e
      rw [update_self] at hl
      cases hl
    rw [update_of_ne e] at hl
    exact hl

structure QueSame (s s' : Sched) : Prop where
  cfg : s'.cfg=s.cfg
  busy : ∀ t ≤ s.cfg.tskMaxNum, s'.busyAt t=s.busyAt t
  loc : ∀ t q w, s'.pend.loc t=some (.queue q w) → s.pend.loc t=some (.queue q w)
  cont : ∀ t ≤ s.cfg.tskMaxNum, ∀ q w, s'.InQueue t q w → s'.cont t=s.cont t

lemma QueStill.busyAt (h : QueStill X s s') (ht : ¬X t) : s'.busyAt t=s.busyAt t := by
  change (if (s'.status t).queueBusy then (s'.cont t).queueOf else none) =
    if (s.status t).queueBusy then (s.cont t).queueOf else none
  rw [h.busy t ht]
  rcases h.cont t ht with hc | ⟨hc,hc'⟩
  . rw [hc]
  rw [hc,hc']

lemma Core.queueOf (h : s.Core) (ht : t ≤ s.cfg.tskMaxNum) (hq : s.InQueue t q w) :
    (s.cont t).queueOf=some (q,w) := by
  rcases hq with hq | hq
  . obtain ⟨m,hf,-⟩ := h.tasks t ht
    obtain rfl := hf.eq_of_loc_queue hq
    exact hf.ctx
  change (if (s.status t).queueBusy then (s.cont t).queueOf else none)=_ at hq
  split at hq
  . exact hq
  cases hq

lemma Core.busyAt_unused (h : s.Core) (ht : t ≤ s.cfg.tskMaxNum)
    (hin : (s.status t).inuse=false) : (s.status t).queueBusy=false ∧
      s.busyAt t=none ∧ ∀ q w, s.pend.loc t≠some (.queue q w) := by
  obtain ⟨m,hf,-⟩ := h.tasks t ht
  obtain rfl : m=.unused := by
    have hi := hf.inuse.symm.trans hin
    cases m <;> first | rfl | cases hi
  have hb : (s.status t).queueBusy=false := congrArg TskStatus.queueBusy (hf.unused rfl)
  refine ⟨hb,TaskView.busyAt_of_idle hb,fun q w hl => ?_⟩
  rcases hf.loc with hl' | hl' <;> cases hl.symm.trans hl'

lemma Core.busyAt_user (h : s.Core) (ht : t ≤ s.cfg.tskMaxNum) (hu : s.cont t=.user) :
    s.busyAt t=none ∧ ∀ q w, s.pend.loc t≠some (.queue q w) := by
  refine ⟨TaskView.busyAt_of_cont (congrArg Cont.queueOf hu),fun q w hl => ?_⟩
  have hq := h.queueOf ht (.inl hl)
  rw [hu] at hq
  cases hq

lemma prtTaskDelete_busy (hb : (s.status t).queueBusy=true) :
    ((s.prtTaskDelete t).1.status t).queueBusy=true := by
  have hkeep : ((s.modTcb t fun c => {c with kthreadTsk:=none}).status t)=s.status t := by
    simp [status,modTcb]
  unfold prtTaskDelete
  split
  . exact hb
  split
  . exact hb
  dsimp only
  split
  . rw [hkeep]
    exact hb
  split
  . rw [hkeep]
    exact hb
  next hn =>
  exfalso
  apply hn
  unfold osTaskDelStatusCheck
  rw [hkeep,hb]
  split <;> simp

end Sched

def QueCb.cnt (c : QueCb) (w : Bool) : Nat := if w then c.writableCnt else c.readableCnt

/-- The created queue `q` holds the messages `l` of its history. What a side counts, with the woken
tasks and the right on its way, is what the queue has for it, and tasks wait only where nothing is
counted. -/
structure QueCb.Ok (c : QueCb) (log : List QueEvent) (s : Sched) (o : Option (Nat×Bool)) (q : Nat)
    (l : List QueMsg) : Prop where
  replay : QueEvent.replay c.nodeNum log=some l
  shows : c.Shows l
  count : ∀ w, c.cnt w+s.busyCnt q w+owes o q w=c.room l w
  idle : ∀ w, s.pend.lists (.queue q w)≠[] → c.cnt w=0
  peak : c.nodePeak=QueEvent.peak log
  size : c.nodeSize≤0xFFFF

namespace Kernel

open Sched

variable {c u d e : Prop} {k k' : Kernel} {i : Input} {o o' : Option (Nat×Bool)} {q : Nat}
  {w : Bool} {l : List QueMsg}

lemma act_deletes_busy {t : Nat} (hd : Deletes k.sched i t)
    (hb : (k.sched.status t).queueBusy=true) : ((k.act i).1.sched.status t).queueBusy=true := by
  cases i with
  | call call =>
    cases call with
    | taskDelete t' =>
      obtain rfl : t=t' := hd
      exact prtTaskDelete_busy hb
    | taskExit =>
      obtain rfl : t=k.sched.cpu.runningTask := hd
      exact prtTaskDelete_busy
        (s:={k.sched with cpu:={k.sched.cpu with uniTaskLock:=0}}) hb
    | _ => exact hd.elim
  | _ => exact hd.elim

lemma act_queSame (h : Sched.Able c u k.sched) (hk' : (k.act i).1.sched.Core)
    (hcfg : (k.act i).1.sched.cfg=k.sched.cfg) (hen : k.enabled i=true)
    (hk : InputOk c u d e k i) (hq : k.inputPart i≠.que) : QueSame k.sched (k.act i).1.sched := by
  have hstill := act_quiet (quiet_queue (k.Turns i)) h hen hk (within_turns
    (fun t ht => ⟨ht,trivial⟩) trivial trivial (fun hp => absurd hp hq) (fun _ _ => trivial)
    (fun _ => trivial) fun _ => trivial)
  -- a task whose life begins or ends is in no queue, before and after
  have hout : ∀ t≤k.sched.cfg.tskMaxNum, k.Turns i t → (k.act i).1.sched.busyAt t=k.sched.busyAt t ∧
        ∀ q w, (k.act i).1.sched.InQueue t q w → (k.act i).1.sched.cont t=k.sched.cont t := by
    intro t ht hX
    have hle : t≤(k.act i).1.sched.cfg.tskMaxNum := by
      rw [hcfg]
      exact ht
    have hnone (hold : k.sched.busyAt t=none) (hnew : (k.act i).1.sched.busyAt t=none ∧
        ∀ q w, (k.act i).1.sched.pend.loc t≠some (.queue q w)) :
        (k.act i).1.sched.busyAt t=k.sched.busyAt t ∧
          ∀ q w, (k.act i).1.sched.InQueue t q w → (k.act i).1.sched.cont t=k.sched.cont t := by
      refine ⟨hnew.1.trans hold.symm,fun q w hq => ?_⟩
      rcases hq with hq | hq
      . exact absurd hq (hnew.2 q w)
      cases hnew.1.symm.trans hq
    rcases hX with hin | hdel | rfl
    . obtain ⟨-,hold,-⟩ := h.core.busyAt_unused ht hin
      rcases act_born h hen hk ht hin with hin' | hborn
      . exact hnone hold (hk'.busyAt_unused hle hin').2
      exact hnone hold (hk'.busyAt_user hle hborn.cont)
    . rcases act_gone hdel with hin' | ⟨x,htcb,hcont⟩
      . obtain ⟨hbusy,hnew⟩ := hk'.busyAt_unused hle hin'
        refine hnone (TaskView.busyAt_of_idle ?_) hnew
        by_contra hb
        rw [act_deletes_busy hdel ((Bool.not_eq_false _).mp hb)] at hbusy
        cases hbusy
      refine ⟨?_,fun _ _ _ => hcont⟩
      change (if ((k.act i).1.sched.tcb t).taskStatus.queueBusy then
        ((k.act i).1.sched.cont t).queueOf else none)=_
      rw [htcb,hcont]
      rfl
    exact absurd ht (Nat.not_succ_le_self _)
  refine ⟨hcfg,fun t ht => ?_,hstill.loc,fun t ht q w hq => ?_⟩
  . by_cases hX : k.Turns i t
    . exact (hout t ht hX).1
    exact hstill.busyAt hX
  by_cases hX : k.Turns i t
  . exact (hout t ht hX).2 q w hq
  rcases hstill.cont t hX with hc | ⟨-,hc⟩
  . exact hc
  have hq' := hk'.queueOf (by rw [hcfg]; exact ht) hq
  rw [hc] at hq'
  cases hq'

/-- The invariant of the queues, while the right `o` is on its way. -/
structure QueOk (k : Kernel) (o : Option (Nat×Bool)) : Prop where
  used : ∀ q, (k.queues q).used=true → ∃ l, (k.queues q).Ok (k.queLog q) k.sched o q l
  unused : ∀ q w, (k.queues q).used=false → owes o q w=0 ∧
    k.sched.pend.lists (.queue q w)=[] ∧ k.sched.busyCnt q w=0
  data : ∀ t≤k.sched.cfg.tskMaxNum, ∀ q data prio, k.sched.cont t=.queueWrite q data prio →
    k.sched.InQueue t q true → data.length≤(k.queues q).nodeSize-osQueueNodeHeadLen

lemma QueOk.used_of_inQueue (h : k.QueOk o) {t : Nat} (ht : t≤k.sched.cfg.tskMaxNum)
    (hq : k.sched.InQueue t q w) : (k.queues q).used=true := by
  by_contra hu
  obtain ⟨-,hl,hb⟩ := h.unused q w ((Bool.not_eq_true _).mp hu)
  rcases hq with hq | hq
  . have hm := (k.sched.pend.mem_iff _ _).mpr hq
    rw [hl] at hm
    cases hm
  have hpos := busyCnt_pos ht hq
  omega

lemma QueOk.move (h : k.QueOk o) (hqs : k'.queues=k.queues) (hlog : k'.queLog=k.queLog)
    (hcfg : k'.sched.cfg=k.sched.cfg)
    (hcnt : ∀ q w, k'.sched.busyCnt q w+owes o' q w=k.sched.busyCnt q w+owes o q w)
    (hlist : ∀ q w, k'.sched.pend.lists (.queue q w)≠[] →
      k.sched.pend.lists (.queue q w)≠[] ∨ ((k.queues q).used=true ∧ k.queCnt q w=0))
    (hdata : ∀ t≤k.sched.cfg.tskMaxNum, ∀ q data prio,
      k'.sched.cont t=.queueWrite q data prio → k'.sched.InQueue t q true →
      (k.sched.InQueue t q true ∧ k.sched.cont t=.queueWrite q data prio) ∨
        data.length≤(k.queues q).nodeSize-osQueueNodeHeadLen) : k'.QueOk o' := by
  refine ⟨fun q hu => ?_,fun q w hu => ?_,fun t ht q data prio hc hin => ?_⟩
  . rw [hqs] at hu
    obtain ⟨l,hl⟩ := h.used q hu
    rw [hqs,hlog]
    refine ⟨l,hl.replay,hl.shows,fun w => ?_,fun w hne => ?_,hl.peak,hl.size⟩
    . rw [Nat.add_assoc,hcnt,← Nat.add_assoc]
      exact hl.count w
    rcases hlist q w hne with hne | ⟨-,hz⟩
    . exact hl.idle w hne
    exact hz
  . rw [hqs] at hu
    obtain ⟨ho,hl,hb⟩ := h.unused q w hu
    have hsum := hcnt q w
    refine ⟨by omega,?_,by omega⟩
    by_contra hne
    rcases hlist q w hne with hne | ⟨hu',-⟩
    . exact hne hl
    rw [hu] at hu'
    cases hu'
  rw [hcfg] at ht
  rw [hqs]
  rcases hdata t ht q data prio hc hin with ⟨hin,hc⟩ | hd
  . exact h.data t ht q data prio hc hin
  exact hd

lemma QueOk.same (h : k.QueOk o) (hqs : k'.queues=k.queues) (hlog : k'.queLog=k.queLog)
    (hs : QueSame k.sched k'.sched) : k'.QueOk o := by
  refine h.move hqs hlog hs.cfg (fun q w => ?_) (fun q w hne => .inl ?_)
    fun t ht q data prio hc hin => .inl ⟨?_,?_⟩
  . unfold busyCnt
    rw [hs.cfg]
    congr 1
    refine countP_congr fun t ht => ?_
    rw [hs.busy t (Nat.le_of_lt_succ (mem_range.mp ht))]
  . obtain ⟨t,ht⟩ := exists_mem_of_ne_nil _ hne
    have hl := hs.loc t q w ((k'.sched.pend.mem_iff _ _).mp ht)
    exact ne_nil_of_mem ((k.sched.pend.mem_iff _ _).mpr hl)
  . rcases hin with hl | hb
    . exact .inl (hs.loc t q true hl)
    exact .inr ((hs.busy t ht).symm.trans hb)
  rw [← hs.cont t ht q true hin]
  exact hc

lemma QueOk.setQue (h : k.QueOk o) {c : QueCb} {log : List QueEvent}
    (hs : k'.sched=k.sched) (hqs : k'.queues=update k.queues q c)
    (hlog : k'.queLog=update k.queLog q log) (hu : c.used=true)
    (hat : c.Ok log k.sched o' q l) (ho : ∀ p w, p≠q → owes o' p w=owes o p w)
    (hsize : (k.queues q).used=true → c.nodeSize=(k.queues q).nodeSize) : k'.QueOk o' := by
  have hother {p : Nat} (hp : p≠q) : k'.queues p=k.queues p ∧ k'.queLog p=k.queLog p := by
    rw [hqs,hlog]
    exact ⟨update_of_ne hp _ _,update_of_ne hp _ _⟩
  have hself : k'.queues q=c := by rw [hqs,update_self]
  refine ⟨fun p hup => ?_,fun p w hup => ?_,fun t ht p data prio hc hin => ?_⟩
  . by_cases hp : p=q
    . subst hp
      rw [hself,hlog,update_self,hs]
      exact ⟨l,hat⟩
    obtain ⟨hq,hl⟩ := hother hp
    rw [hq] at hup
    obtain ⟨l',h'⟩ := h.used p hup
    rw [hq,hl,hs]
    refine ⟨l',h'.replay,h'.shows,fun w => ?_,h'.idle,h'.peak,h'.size⟩
    rw [ho p w hp]
    exact h'.count w
  . by_cases hp : p=q
    . subst hp
      rw [hself,hu] at hup
      cases hup
    rw [(hother hp).1] at hup
    rw [hs,ho p w hp]
    exact h.unused p w hup
  rw [hs] at ht hc hin
  have hup := h.used_of_inQueue ht hin
  by_cases hp : p=q
  . subst hp
    rw [hself,hsize hup]
    exact h.data t ht p data prio hc hin
  rw [(hother hp).1]
  exact h.data t ht p data prio hc hin

lemma QueOk.moveTask (h : k.QueOk o) {t : Nat} {v : TaskView} (ht : t≤k.sched.cfg.tskMaxNum)
    (hqs : k'.queues=k.queues) (hlog : k'.queLog=k.queLog) (hcfg : k'.sched.cfg=k.sched.cfg)
    (hview : k'.sched.view=update k.sched.view t v)
    (hcnt : ∀ q w, owes v.busyAt q w+owes o' q w=owes (k.sched.busyAt t) q w+owes o q w)
    (hloc : ∀ q w, v.loc=some (.queue q w) → k.sched.pend.loc t=some (.queue q w) ∨
      ((k.queues q).used=true ∧ k.queCnt q w=0))
    (hdata : ∀ q data prio, v.cont=.queueWrite q data prio →
      v.loc=some (.queue q true) ∨ v.busyAt=some (q,true) →
      (k.sched.InQueue t q true ∧ k.sched.cont t=.queueWrite q data prio) ∨
        data.length≤(k.queues q).nodeSize-osQueueNodeHeadLen) : k'.QueOk o' := by
  have hself : k'.sched.view t=v := by rw [hview,update_self]
  have hother {u : Nat} (hu : u≠t) : k'.sched.view u=k.sched.view u := by
    rw [hview,update_of_ne hu]
  refine h.move hqs hlog hcfg (fun q w => ?_) (fun q w hne => ?_) fun u hu q data prio hc hin => ?_
  . have hupd := busyCnt_update (q:=q) (w:=w) (x:=v.busyAt) hcfg ht fun u _ => by
      by_cases e : u=t
      . subst e
        rw [update_self,← hself]
        rfl
      rw [update_of_ne e]
      exact congrArg TaskView.busyAt (hother e)
    have := hcnt q w
    omega
  . obtain ⟨u,hu⟩ := exists_mem_of_ne_nil _ hne
    have hl := (k'.sched.pend.mem_iff _ _).mp hu
    have hold : k.sched.pend.loc u=some (.queue q w) ∨
        ((k.queues q).used=true ∧ k.queCnt q w=0) := by
      by_cases e : u=t
      . subst e
        apply hloc
        rw [← hself]
        exact hl
      exact .inl ((congrArg TaskView.loc (hother e)).symm.trans hl)
    exact hold.imp_left fun hl => ne_nil_of_mem ((k.sched.pend.mem_iff _ _).mpr hl)
  by_cases e : u=t
  . subst e
    apply hdata
    . rw [← hself]
      exact hc
    rw [← hself]
    exact hin
  refine .inl ⟨hin.imp ?_ ?_,?_⟩
  . exact (congrArg TaskView.loc (hother e)).symm.trans
  . exact (congrArg TaskView.busyAt (hother e)).symm.trans
  exact (congrArg TaskView.cont (hother e)).symm.trans hc

lemma owes_self (q : Nat) (w : Bool) : owes (some (q,w)) q w=1 := if_pos rfl

lemma owes_other {p : Nat} {v : Bool} (h : (p,v)≠(q,w)) : owes (some (q,w)) p v=0 :=
  if_neg fun he => h (Option.some.inj he).symm

lemma owes_none (q : Nat) (w : Bool) : owes none q w=0 := if_neg nofun

lemma QueOk.setCnt (h : k.QueOk o) (hu : (k.queues q).used=true) {n : Nat}
    (hn : n+owes o' q w=k.queCnt q w+owes o q w)
    (ho : ∀ p v, (p,v)≠(q,w) → owes o' p v=owes o p v)
    (hidle : k.sched.pend.lists (.queue q w)≠[] → n=0) : (k.queCntSet q w n).QueOk o' := by
  obtain ⟨l,hl⟩ := h.used q hu
  have hside (v : Bool) : (if w then {k.queues q with writableCnt:=n}
      else {k.queues q with readableCnt:=n} : QueCb).cnt v =
      if v=w then n else (k.queues q).cnt v := by
    cases w <;> cases v <;> rfl
  have hcount (v : Bool) : (if v=w then n else (k.queues q).cnt v)+k.sched.busyCnt q v +
      owes o' q v=(k.queues q).room l v := by
    rw [← hl.count v]
    by_cases hv : v=w
    . subst hv
      rw [if_pos rfl]
      change n+owes o' q v=(k.queues q).cnt v+owes o q v at hn
      omega
    rw [if_neg hv,ho q v fun he => hv (congrArg Prod.snd he)]
  have hwait (v : Bool) (hne : k.sched.pend.lists (.queue q v)≠[]) :
      (if v=w then n else (k.queues q).cnt v)=0 := by
    by_cases hv : v=w
    . subst hv
      rw [if_pos rfl]
      exact hidle hne
    rw [if_neg hv]
    exact hl.idle v hne
  refine h.setQue (l:=l) rfl rfl (update_eq_self q k.queLog).symm ?_ ?_
    (fun p v hp => ho p v fun he => hp (congrArg Prod.fst he)) fun _ => ?_
  . cases w <;> exact hu
  . refine ⟨?_,?_,fun v => ?_,fun v hne => ?_,?_,?_⟩
    . cases w <;> exact hl.replay
    . cases w <;> exact hl.shows
    . rw [hside]
      cases w <;> exact hcount v
    . rw [hside]
      exact hwait v hne
    . cases w <;> exact hl.peak
    cases w <;> exact hl.size
  cases w <;> rfl

lemma QueOk.takeCount (h : k.QueOk none) (hu : (k.queues q).used=true) (hn : 0<k.queCnt q w) :
    (k.queCntSet q w (k.queCnt q w-1)).QueOk (some (q,w)) := by
  refine h.setCnt hu ?_ (fun p v hp => ?_) fun hne => ?_
  . rw [owes_self,owes_none]
    omega
  . rw [owes_other hp,owes_none]
  obtain ⟨l,hl⟩ := h.used q hu
  have hz : k.queCnt q w=0 := hl.idle w hne
  omega

lemma QueOk.giveCount (h : k.QueOk (some (q,w))) (hu : (k.queues q).used=true)
    (hnil : k.sched.pend.lists (.queue q w)=[]) :
    (k.queCntSet q w (k.queCnt q w+1)).QueOk none := by
  refine h.setCnt hu ?_ (fun p v hp => ?_) fun hne => absurd hnil hne
  . rw [owes_self,owes_none]
  rw [owes_other hp,owes_none]

lemma QueOk.copied (h : k.QueOk (some (q,w))) {c : QueCb} {e : QueEvent}
    (hu : c.used=true) (hsize : c.nodeSize=(k.queues q).nodeSize)
    (hok : c.Ok (e::k.queLog q) k.sched (some (q,!w)) q l) :
    ((k.modQue q fun _ => c).logQue q e).QueOk (some (q,!w)) := by
  refine h.setQue rfl rfl rfl hu hok (fun p v hp => ?_) fun _ => hsize
  rw [owes_other fun he => hp (congrArg Prod.fst he),owes_other fun he => hp (congrArg Prod.fst he)]

lemma QueOk.copyOut (h : k.QueOk (some (q,false))) (hu : (k.queues q).used=true) (len : Nat) :
    let c := k.queues q
    let node := c.queue c.queueHead
    let n := if node.size<len then node.size else len
    ((k.modQue q fun c =>
      {c with
        queue := update c.queue c.queueHead {node with srcPid:=osQueuePidInvalid}
        queueHead := c.next c.queueHead}).logQue q
      (.got len n (node.buf.take n))).QueOk (some (q,true)) := by
  intro c node n
  obtain ⟨l,hl⟩ := h.used q hu
  have hcnt := hl.count false
  rw [owes_self] at hcnt
  cases l with
  | nil =>
    change _=0 at hcnt
    omega
  | cons m l =>
    have hn : n=min len m.data.length := (hl.shows.read len).1
    have hbytes : node.buf.take n=m.data.take n := by
      rw [hn]
      exact (hl.shows.read len).2
    have hlog := QueEvent.replay_got hl.replay len
    rw [← hn,← hbytes] at hlog
    have hfits : l.length+1≤c.nodeNum := hl.shows.fits
    have hfree := hl.count true
    change c.cnt true+_+_=c.nodeNum-(l.length+1) at hfree
    rw [owes_other (by simp)] at hfree
    change c.cnt false+_+1=l.length+1 at hcnt
    refine h.copied (w:=false) hu rfl (l:=l)
      ⟨hlog,hl.shows.readOut,fun v => ?_,hl.idle,hl.peak,hl.size⟩
    cases v with
    | false =>
      change c.cnt false+k.sched.busyCnt q false+owes (some (q,true)) q false=l.length
      rw [owes_other (by simp)]
      omega
    | true =>
      change c.cnt true+k.sched.busyCnt q true+owes (some (q,true)) q true=c.nodeNum-l.length
      rw [owes_self]
      omega

lemma QueOk.copyIn (h : k.QueOk (some (q,true))) (hu : (k.queues q).used=true)
    (urgent : Bool) {data : List UInt8}
    (hd : data.length≤(k.queues q).nodeSize-osQueueNodeHeadLen) :
    ((k.modQue q fun c => (c.cpData urgent k.osGetSrcPid data).peakSet).logQue q
      (.wrote k.queSource urgent data)).QueOk (some (q,false)) := by
  obtain ⟨l,hl⟩ := h.used q hu
  have hsize := hl.size
  have hfree := hl.count true
  rw [owes_self] at hfree
  change (k.queues q).cnt true+_+1=(k.queues q).nodeNum-l.length at hfree
  have hcnt := hl.count false
  rw [owes_other (by simp)] at hcnt
  change (k.queues q).cnt false+_+0=l.length at hcnt
  have hlt : l.length<(k.queues q).nodeNum := by omega
  have hpid : k.osGetSrcPid=k.queSource.getD 0xFF := by
    unfold osGetSrcPid queSource
    split <;> rfl
  have hshows := hl.shows.cpData (m:=⟨k.queSource,data⟩) hlt
    (show data.length<2^16 by omega) urgent
  have hlog := QueEvent.replay_wrote (m:=⟨k.queSource,data⟩) hl.replay hlt urgent
  have hlen : (if urgent then ⟨k.queSource,data⟩::l else l++[⟨k.queSource,data⟩]).length =
      l.length+1 := by
    cases urgent <;> simp
  generalize (if urgent then ⟨k.queSource,data⟩::l else l++[⟨k.queSource,data⟩])=l'
    at hshows hlog hlen
  have hne : l'≠[] := by
    rintro rfl
    cases hlen
  have hpeak := hshows.peakSet hne
  rw [← hpid] at hshows hpeak
  generalize hc : (k.queues q).cpData urgent k.osGetSrcPid data=c at hshows hpeak
  have hsame : c.used=(k.queues q).used ∧ c.nodeNum=(k.queues q).nodeNum ∧
      c.nodeSize=(k.queues q).nodeSize ∧ c.nodePeak=(k.queues q).nodePeak ∧
      ∀ w, c.cnt w=(k.queues q).cnt w := by
    rw [← hc]
    cases urgent <;> exact ⟨rfl,rfl,rfl,rfl,fun _ => rfl⟩
  obtain ⟨hused,hnum,hsz,hpk,hside⟩ := hsame
  have hk : k.modQue q (fun c => (c.cpData urgent k.osGetSrcPid data).peakSet) =
      k.modQue q fun _ => {c with nodePeak:=max c.nodePeak l'.length} := by
    simp only [modQue]
    rw [hc,hpeak]
  rw [hk]
  refine h.copied (w:=true) (l:=l') (hused.trans hu) hsz ⟨?_,hshows,fun v => ?_,fun v => ?_,
    ?_,?_⟩
  . rw [hnum]
    exact hlog
  . change c.cnt v+k.sched.busyCnt q v+owes (some (q,false)) q v =
      if v then c.nodeNum-l'.length else l'.length
    rw [hside,hnum,hlen]
    cases v with
    | false =>
      rw [owes_self]
      simp only [Bool.false_eq_true,if_false]
      omega
    | true =>
      rw [owes_other (by simp)]
      simp only [if_true]
      omega
  . change _ → c.cnt v=0
    rw [hside]
    exact hl.idle v
  . change max c.nodePeak l'.length=max (QueEvent.peak (k.queLog q)) (QueEvent.stored _)
    rw [hpk,hl.peak,QueEvent.replay_stored hlog]
  rw [hsz]
  exact hsize

lemma QueOk.schedule (h : k.QueOk o) : (k.onSched fun s => s.osTskSchedule).QueOk o := by
  have hstill : QueStill (fun _ => False) k.sched k.sched.osTskSchedule :=
    (quiet_queue _).step_osTskSchedule ((quiet_queue _).refl _)
  refine h.same rfl rfl ⟨osTskSchedule_cfg,fun t _ => hstill.busyAt id,hstill.loc,
    fun t _ _ _ _ => ?_⟩
  exact congrFun (osTskSchedule_cont k.sched) t

lemma osQueueWake_view (s : Sched) (t : Nat) : ∃ v : TaskView,
    (osQueueWake s t).view=update s.view t v ∧ v.cont=s.cont t ∧
      v.bits.queueBusy=true ∧ ∀ q w, v.loc≠some (.queue q w) := by
  have hclear (s : Sched) : ∃ v : TaskView, (s.timeoutClear t).view=update s.view t v ∧
      v.cont=s.cont t ∧ v.loc=s.pend.loc t := by
    unfold timeoutClear
    split
    . refine ⟨((s.view t).timerDel).modStatus fun b => {b with timeout:=false},?_,rfl,rfl⟩
      rw [modStatus_view,timerDelete_view,update_self,update_idem]
    exact ⟨s.view t,(update_eq_self t s.view).symm,rfl,rfl⟩
  simp only [osQueueWake]
  generalize hs1 : (s.pendDelete t).modTcb t (fun c =>
    {c with taskPend:=none, taskStatus:={c.taskStatus with queuePend:=false}})=s1
  obtain ⟨v,hview,hcont,hloc⟩ := hclear s1
  have hview1 : s1.view=update s.view t (s1.view t) := by
    rw [← hs1,modTcb_view,pendDelete_view,update_self,update_idem,update_self]
  have hloc1 : s1.pend.loc t=none := by
    rw [← hs1]
    change (s.pend.delete t).loc t=none
    rw [Links.delete_loc,update_self]
  have hcont1 : s1.cont t=s.cont t := by
    rw [← hs1]
    rfl
  have hview2 : ((s1.timeoutClear t).modStatus t fun b => {b with queueBusy:=true}).view =
      update s.view t (v.modStatus fun b => {b with queueBusy:=true}) := by
    rw [modStatus_view,hview,update_self,update_idem,hview1,update_idem]
  unfold readyAddUnlessSuspend
  split
  . refine ⟨_,hview2,hcont.trans hcont1,rfl,fun q w hl => ?_⟩
    cases (hloc.trans hloc1).symm.trans hl
  refine ⟨(v.modStatus fun b => {b with queueBusy:=true}).readyAdd,?_,hcont.trans hcont1,
    rfl,fun q w hl => ?_⟩
  . rw [osTskReadyAdd_view,hview2,update_self,update_idem]
  change some (v.loc.getD (.ready _))=_ at hl
  rw [hloc.trans hloc1] at hl
  cases hl

lemma osQueueWake_cfg (s : Sched) (t : Nat) : (osQueueWake s t).cfg=s.cfg := by
  simp only [osQueueWake,readyAddUnlessSuspend,timeoutClear]
  split <;> split <;> rfl

lemma QueOk.wake (h : k.QueOk (some (q,w))) (hc : k.sched.Core) {t : Nat}
    (hl : k.sched.pend.loc t=some (.queue q w)) :
    (k.onSched fun s => osQueueWake s t).QueOk none := by
  have ht := hc.le_of_loc hl
  obtain ⟨v,hview,hcont,hbusy,hloc⟩ := osQueueWake_view k.sched t
  have hq : (k.sched.cont t).queueOf=some (q,w) := hc.queueOf ht (.inl hl)
  have hv : v.busyAt=some (q,w) := by
    rw [TaskView.busyAt,if_pos hbusy,hcont,hq]
  obtain ⟨m,hf,-⟩ := hc.tasks t ht
  obtain rfl := hf.eq_of_loc_queue hl
  have hold : k.sched.busyAt t=none := TaskView.busyAt_of_idle (hf.busy_of_not_runnable rfl)
  refine h.moveTask ht rfl rfl ?_ hview (fun p x => ?_) (fun p x hp => absurd hp (hloc p x))
    fun p data prio hp hin => .inl ?_
  . exact osQueueWake_cfg k.sched t
  . rw [hv,hold,Nat.add_comm]
  rcases hin with hin | hin
  . exact absurd hin (hloc p true)
  obtain ⟨rfl,rfl⟩ : q=p ∧ w=true := by
    rw [hv] at hin
    exact Prod.mk.inj (Option.some.inj hin)
  exact ⟨.inl hl,hcont.symm.trans hp⟩

lemma QueOk.give (h : k.QueOk (some (q,w))) (hu : (k.queues q).used=true)
    (hc : k.sched.Core) : (k.queueGive q w).QueOk none := by
  unfold queueGive osQueuePendNeedProc
  cases hlist : k.sched.pend.lists (.queue q w) with
  | nil => exact h.giveCount hu hlist
  | cons t l => exact (h.wake hc (Links.head_loc hlist)).schedule

lemma QueOk.readOut (h : k.QueOk (some (q,false))) (hu : (k.queues q).used=true)
    (hc : k.sched.Core) (len : Nat) : (k.queueReadOut q len).QueOk none := by
  refine (h.copyOut hu len).give ?_ hc
  simpa [modQue,logQue] using hu

lemma QueOk.writeIn (h : k.QueOk (some (q,true))) (hu : (k.queues q).used=true)
    (hc : k.sched.Core) {data : List UInt8}
    (hd : data.length≤(k.queues q).nodeSize-osQueueNodeHeadLen) (prio : Nat) :
    (k.queueWriteIn q data prio).QueOk none := by
  refine (h.copyIn hu _ hd).give ?_ hc
  simp only [modQue,logQue,update_self]
  cases decide (prio≠0) <;> exact hu

end Kernel

end UniProton
