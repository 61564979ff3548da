import UniProton.Kernel.Reach

namespace UniProton

open Framework Kernel

/-- Task creation, resumption, suspension, delays and priorities, and the calls on semaphores,
queues, events and rwlocks. -/
def Call.schedules : Call → Bool
  | .taskCreate .. | .taskResume _ | .taskSuspend _ | .taskDelay _ | .taskSetPriority ..
  | .semCreate _ | .mutexCreate _ | .semDelete _ | .semPend .. | .semPost _
  | .queueCreate .. | .queueDelete _ | .queueRead .. | .queueWrite ..
  | .eventRead .. | .eventWrite .. | .rwRead .. | .rwWrite .. | .rwUnlock _ => true
  | _ => false

/-- Those calls, by tasks and by handlers, with the start of the scheduler, interrupts and ticks. -/
def Input.schedules : Input → Bool
  | .call c => c.schedules
  | _ => true

/-- The ready queue agrees with the control blocks, and its bitmaps with its lists. -/
structure ReadyQueueOk (s : Sched) : Prop where
  linked : ∀ t ≤ s.cfg.tskMaxNum, ∀ p,
    t∈s.readyList p ↔ (s.status t).ready=true ∧ (s.tcb t).priority=p
  once : ∀ t p, t∈s.readyList p → t ≤ s.cfg.tskMaxNum ∧ (s.readyList p).count t=1
  block : ∀ t ≤ s.cfg.tskMaxNum, (s.status t).ready=true → (s.status t).block=false
  child : ∀ p<1024, (s.runQue.child (p/32)).getMsbD (p%32)=true ↔ s.readyList p≠[]
  root : ∀ i<32, s.runQue.root.getMsbD i=true ↔ s.runQue.child i≠0
  highest : ∀ p, s.readyList p≠[] → (∀ q<p, s.readyList q=[]) →
    s.osTskHighestSet.highestTask=(s.readyList p).head?
  faults : s.faults=[]

namespace Sched

variable {s : Sched} {t p : Nat}

lemma Core.mem_readyList (h : s.Core) (ht : t ≤ s.cfg.tskMaxNum) :
    t∈s.readyList p ↔ (s.status t).ready=true ∧ (s.tcb t).priority=p := by
  obtain ⟨m,hf,-⟩ := h.tasks t ht
  constructor
  . intro hm
    have hl : (s.view t).loc=some (.ready p) := (s.pend.mem_iff _ _).mp hm
    obtain ⟨rfl,hp⟩ := hf.eq_of_loc_ready hl
    exact ⟨hf.ready,hp.symm⟩
  rintro ⟨hr,rfl⟩
  obtain rfl := hf.eq_ready hr
  exact (s.pend.mem_iff _ _).mpr hf.loc

lemma Core.prio_of_mem (h : s.Core) (hm : t∈s.readyList p) : p<32*32 := by
  have ht := h.le_of_mem hm
  obtain ⟨m,hf,-⟩ := h.tasks t ht
  obtain ⟨-,rfl⟩ := (h.mem_readyList ht).mp hm
  exact s.prio_lt hf.prio

lemma first_eq_of_holds (hb : s.runQue.Holds fun p => s.readyList p≠[]) (hlt : p<32*32)
    (hp : s.readyList p≠[]) (hmin : ∀ q<p, s.readyList q=[]) : s.runQue.first=p := by
  obtain ⟨hne,-,hleast⟩ := hb.first_least hlt hp
  rcases lt_trichotomy s.runQue.first p with hlt | heq | hgt
  . exact absurd (hmin _ hlt) hne
  . exact heq
  exact absurd hp (hleast p hgt)

lemma Core.first_eq (h : s.Core) (hp : s.readyList p≠[])
    (hmin : ∀ q<p, s.readyList q=[]) : s.runQue.first=p := by
  obtain ⟨t,l,hl⟩ := List.exists_cons_of_ne_nil hp
  have hlt := h.prio_of_mem (t:=t) (p:=p) (by rw [hl]; exact List.mem_cons_self)
  exact first_eq_of_holds h.rq.bitmap hlt hp hmin

lemma Core.readyQueueOk (h : s.Core) (hf : s.faults=[]) : ReadyQueueOk s where
  linked t ht p := h.mem_readyList ht
  once t p hm := ⟨h.le_of_mem hm,List.count_eq_one_of_mem (s.pend.nodup _) hm⟩
  block t ht hr := by
    obtain ⟨m,hf,-⟩ := h.tasks t ht
    obtain rfl := hf.eq_ready hr
    change (s.view t).bits.block=false
    simp only [TskStatus.block,hf.delay,hf.pend,hf.suspend rfl,hf.queuePend,hf.eventPend,
      hf.waitqueuePend,hf.delayInterruptible,hf.rwPend]
    rfl
  child p hp := by
    have hb := h.rq.bitmap.child_iff (p/32) (by omega) (p%32) (by omega)
    rwa [Nat.div_add_mod' p 32] at hb
  root i hi := h.rq.bitmap.root_iff i hi
  highest p hp hmin := by
    change (s.readyList s.runQue.first).head? = _
    rw [h.first_eq hp hmin]
  faults := hf

end Sched

lemma Call.schedules_ok {k : Kernel} {call : Call} (h : Fine True True False True True k)
    (hc : call.schedules=true) (hen : k.enabled (.call call)=true) :
    CallOk True True False True k.sched call where
  plain := by
    cases call <;> first | rfl | cases hc
  lock := by
    rintro rfl
    cases hc
  delete t := by
    rintro rfl
    cases hc
  exit := by
    rintro rfl
    cases hc
  idle _ := False.elim
  sleep n := by
    rintro rfl
    cases hc
  stale _ _ ht := by
    obtain ⟨ha,hm⟩ := enabled_call hen
    by_contra hto
    have htight := (h.tidy trivial).tight _ ((h.run ha).real ht)
    have htimed := htight.cont trivial ((Bool.not_eq_false _).mp hto)
    change (k.sched.cont k.sched.cpu.runningTask).timed=true at htimed
    rw [hm.user ht] at htimed
    cases htimed

lemma fine_of_schedules {cfg : Cfg} {k : Kernel}
    (h : (kernelMachine cfg).Reaches (fun _ i => i.schedules=true) k) :
    Fine True True False True True k := by
  refine fine_of_reaches ⟨id,False.elim,id⟩ (fun k i hk hi hen => ?_) h
  cases i with
  | call call =>
    refine ⟨Call.schedules_ok hk hi hen,fun _ t hd => ?_⟩
    cases call <;> first | exact hd.elim | cases hi
  | _ => exact ⟨trivial,fun _ t hd => hd.elim⟩

/-- The ready-queue invariant. -/
theorem readyQueue_invariant {cfg : Cfg} {k : Kernel}
    (h : (kernelMachine cfg).Reaches (fun _ i => i.schedules=true) k) : ReadyQueueOk k.sched := by
  have hf := fine_of_schedules h
  exact hf.core.readyQueueOk ((hf.tidy trivial).faults.none trivial)

def semPendInputs : List Input :=
  [.call (.taskCreate (smallTask 5) true false),.call (.taskResume 0),
   .call (.taskCreate (smallTask 3) true false),.call (.taskResume 1),
   .call (.semCreate 0),.activate true,.call (.semPend 0 osWaitForever)]

theorem readyQueue_invariant_semPend :
    let k := (kernelMachine smallCfg).run (Kernel.init smallCfg) semPendInputs
    k.semList 0=[1] ∧ k.sched.readyList 5=[0] ∧ k.sched.cpu.runningTask=0 ∧
      ReadyQueueOk k.sched := by
  have hrun : (kernelMachine smallCfg).Reaches (fun _ i => i.schedules=true)
      ((kernelMachine smallCfg).run (Kernel.init smallCfg) semPendInputs) :=
    Machine.Reaches.run (.start rfl) _ ⟨rfl,rfl,rfl,rfl,rfl,rfl,rfl,trivial⟩
  refine ⟨?_,?_,?_,readyQueue_invariant hrun⟩
  all_goals decide +kernel

/-- What the bits of a task tell about its nodes: it waits for one thing at most, is linked there,
and is in the delay list only for a delay or a limited wait. -/
structure TaskLinked (s : Sched) (t : Nat) (b : TskStatus) : Prop where
  one : [b.ready,b.pend,b.queuePend,b.eventPend,b.rwPend,b.delay,b.delayInterruptible].count true≤1
  sem : b.pend=true ↔ ∃ i, t∈s.pend.lists (.sem i)
  queue : b.queuePend=true ↔ ∃ q w, t∈s.pend.lists (.queue q w)
  rw : b.rwPend=true ↔ ∃ l w, t∈s.pend.lists (.rw l w)
  free : b.inuse=false ↔ t∈s.pend.lists .free ∨ t∈s.pend.lists .recycle
  timer : t∈s.delayList → b.inuse=true ∧ b.ready=false ∧
    (b.delay=true ∨ b.timeout=true ∧ b.waiting=true)

theorem task_links_agree {cfg : Cfg} {k : Kernel} {t : Nat}
    (h : (kernelMachine cfg).Reaches (fun _ i => i.plain=true) k) (ht : t≤k.sched.cfg.tskMaxNum) :
    TaskLinked k.sched t (k.sched.status t) := by
  obtain ⟨m,hf,-⟩ := (fine_of_plain h).core.tasks t ht
  have hl : m.At _ (k.sched.pend.loc t) := hf.loc
  have ht : t∈k.sched.delayList → m.Timer _ _ := fun hm =>
    hf.timer (by simp [Sched.view,Links.linked,(k.sched.timer.mem_iff () t).mp hm])
  change TaskLinked _ _ (k.sched.view t).bits
  constructor
  all_goals simp only [TskStatus.waiting,hf.ready,hf.pend,hf.queuePend,hf.eventPend,hf.rwPend,
    hf.delay,hf.inuse,hf.delayInterruptible,Links.mem_iff]
  all_goals cases m with
    | unused => rcases hl with hl | hl <;> simp_all [TskMode.bits,TskMode.Timer]
    | _ => simp_all [TskMode.bits,TskMode.At,TskMode.Timer]

theorem task_links_agree_semPend :
    let k := (kernelMachine smallCfg).run (Kernel.init smallCfg) semPendInputs
    (k.sched.status 1).pend=true ∧ TaskLinked k.sched 1 (k.sched.status 1) :=
  ⟨by decide +kernel,@task_links_agree smallCfg _ 1 (Machine.Reaches.run (.start rfl) _
    ⟨rfl,rfl,rfl,rfl,rfl,rfl,rfl,trivial⟩) (by decide +kernel)⟩

end UniProton
