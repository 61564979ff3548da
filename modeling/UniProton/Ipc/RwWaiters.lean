import UniProton.Ipc.OwnerChain
import UniProton.Ipc.RwHolders

namespace UniProton

open Framework Function Sched

namespace Kernel

variable {k : Kernel} {i l n o t new : Nat} {write : Bool}

def rwParked (k : Kernel) (t : Nat) : Bool :=
  match k.sched.pend.loc t with
  | some (.rw _ _) => true
  | _ => false

lemma rwParked_iff : k.rwParked t=true ↔ ∃ l write, t∈k.rwList l write := by
  have hmem (l : Nat) (write : Bool) : t∈k.rwList l write ↔ k.sched.pend.loc t=some (.rw l write) :=
    k.sched.pend.mem_iff _ _
  simp only [hmem,rwParked]
  split
  . next l write hl =>
    rw [hl]
    simp
  next hne =>
  constructor
  . nofun
  rintro ⟨l,write,hl⟩
  exact absurd hl (hne l write)

lemma parked_of_mem (h : t∈k.rwList l write) : k.rwParked t=true := rwParked_iff.mpr ⟨l,write,h⟩

lemma parked_bits (hc : k.sched.Core) (h : k.rwParked t=true) : t≤k.sched.cfg.tskMaxNum ∧
    (k.sched.status t).inuse=true ∧ (k.sched.status t).rwPend=true := by
  obtain ⟨l,write,hm⟩ := rwParked_iff.mp h
  have hle := hc.le_of_mem hm
  obtain ⟨m,hf,-⟩ := hc.tasks t hle
  obtain rfl := hf.eq_of_loc_rw ((k.sched.pend.mem_iff _ _).mp hm)
  exact ⟨hle,hf.inuse,hf.rwPend⟩

lemma running_not_parked {c u : Prop} (hab : Able c u k.sched) :
    k.rwParked k.sched.cpu.runningTask=false := by
  by_contra hn
  obtain ⟨hle,-,hb⟩ := parked_bits hab.core (by simpa using hn)
  obtain ⟨m,hf,hr⟩ := hab.run.runnable hle
  have hp : (k.sched.status k.sched.cpu.runningTask).rwPend=m.bits.rwPend := hf.rwPend
  rw [hb] at hp
  rcases TskMode.eq_of_runnable hr with rfl | rfl <;> cases hp

lemma ne_running_of_parked {c u : Prop} (hab : Able c u k.sched)
    (ht : k.rwParked t=true) : t≠k.sched.cpu.runningTask := by
  rintro rfl
  rw [running_not_parked hab] at ht
  cases ht

section priorities

lemma osPriorityInheritLoop_offPath (n : Nat) (k : Kernel) (o : Nat)
    (ht : ¬OnPath k.ownerAfter (fun t => new<k.priority t) o t) :
    (osPriorityInheritLoop n k o new).priority t=k.priority t := by
  induction n generalizing k o with
  | zero => rfl
  | succ n ih =>
    by_cases hle : k.priority o≤new
    . rw [osPriorityInheritLoop,if_pos hle]
    have hlt : new<k.priority o := Nat.lt_of_not_le hle
    have hto : t≠o := by
      rintro rfl
      exact ht (.here hlt)
    have hraise : (k.raiseOwner o new).priority t=k.priority t := by
      rw [raiseOwner_priority,update_of_ne hto]
    rw [osPriorityInheritLoop_round hle]
    split
    . exact hraise
    next o' ho =>
    rw [← hraise]
    apply ih
    intro hpath
    rw [(raiseOwner_next ho new).1] at hpath
    refine ht (.step hlt ho (hpath.mono fun x hx => ?_))
    rw [raiseOwner_priority] at hx
    by_cases hxo : x=o
    . rw [hxo,update_self] at hx
      exact absurd hx (Nat.lt_irrefl new)
    rwa [update_of_ne hxo] at hx

lemma timeoutSet_other (s : Sched) (u n : Nat) (ht : t≠u) : (s.timeoutSet u n).tcb t=s.tcb t := by
  unfold timeoutSet
  split
  . rfl
  simp [osTskTimerAdd,modStatus,modTcb,ht]

lemma osSemBlock_other (k : Kernel) (i n : Nat) (ht : t≠k.sched.cpu.runningTask) :
    (k.osSemBlock i n).sched.tcb t=k.sched.tcb t := by
  have hleave : ((k.sched.osTskReadyDel k.sched.cpu.runningTask).modTcb
      k.sched.cpu.runningTask fun c =>
        {c with taskPend:=some (.sem i), taskStatus:={c.taskStatus with pend:=true}}).tcb
          t=k.sched.tcb t := by
    simp [modTcb,osTskReadyDel,osDequeueTaskAmp,osTskHighestSet,pendDelete,modStatus,ht]
  exact (timeoutSet_other _ _ n ht).trans hleave

lemma osSemBlock_priority (k : Kernel) (i n : Nat) : (k.osSemBlock i n).priority=k.priority := by
  funext t
  exact priority_of_prios (congrFun (osSemBlock_prios k i n) t)

def semChain (k : Kernel) (i t : Nat) : Prop :=
  OnPath k.ownerAfter (fun t => k.priority k.sched.cpu.runningTask<k.priority t)
    (k.sems i).semOwner t

lemma osSemPendListPut_offPath (ht : (k.sems i).semType.isBin=true → ¬k.semChain i t) :
    (k.osSemPendListPut i n).priority t=k.priority t := by
  have hblock := osSemBlock_priority k i n
  have hsame : (k.osSemBlock i n).priority t=k.priority t := congrFun hblock t
  unfold osSemPendListPut osPriorityInherit
  have hsems : (k.osSemBlock i n).sems=k.sems := rfl
  split
  . next hb =>
    rw [← hsame]
    apply osPriorityInheritLoop_offPath
    rw [hblock]
    intro hpath
    refine ht hb (hpath.of_next fun x hx => ?_)
    -- the caller is not above its own priority, and nobody else has begun to wait
    have hne : x≠k.sched.cpu.runningTask := by
      rintro rfl
      exact Nat.lt_irrefl _ hx
    unfold ownerAfter
    rw [osSemBlock_other k i n hne,hsems]
  exact hsame

lemma prtSemPend_offPath (ht : k.osSemPendNotNeedSche i=none →
    (k.sems i).semType.isBin=true → ¬k.semChain i t) :
    (k.prtSemPend i n).1.priority t=k.priority t := by
  unfold prtSemPend
  split
  . rfl
  split
  . rfl
  next hu =>
  split
  . rfl
  split
  . next k' he =>
    have hps := same_prios_quiet.respects.step_osSemPendNotNeedSche rfl he
    exact priority_of_prios (congrFun hps t)
  next hs =>
  split
  . rfl
  have hput := osSemPendListPut_offPath (n:=n)
    (k:=k.onSched fun s => s.setCont s.cpu.runningTask
      (if n=osWaitForever then .user else .semPend)) (i:=i) (t:=t) (ht hs)
  have hsched := same_prios_quiet.step_osTskSchedule (a:=((k.onSched fun s =>
    s.setCont s.cpu.runningTask (if n=osWaitForever then .user else .semPend)).osSemPendListPut
      i n).sched) rfl
  exact (priority_of_prios (congrFun hsched t)).trans hput

lemma osPriorityRestore_other (k : Kernel) (ht : t≠k.sched.cpu.runningTask) :
    k.osPriorityRestore.1.priority t=k.priority t := by
  simp only [osPriorityRestore]
  split
  . rfl
  split
  . rfl
  apply priority_of_prios
  exact (congrFun (requeue_prios (fun s => s.readyAddUnlessSuspend_prios _) _ _ _) t).trans
    (update_of_ne ht _ _)

lemma osSemPendListGet_other (k : Kernel) (i : Nat) (ht : t≠k.sched.cpu.runningTask) :
    (k.osSemPendListGet i).priority t=k.priority t := by
  unfold osSemPendListGet
  split
  . rfl
  next u _ _ =>
  have hwake : (osSemWake k.sched u).prios=k.sched.prios :=
    same_prios_quiet.respects.step_osSemWake rfl nofun ⟨.inl trivial,.inl trivial⟩
  have hprio : (k.onSched fun s => osSemWake s u).priority t=k.priority t :=
    priority_of_prios (congrFun hwake t)
  dsimp only
  split
  . refine (osPriorityRestore_other _ ?_).trans hprio
    change t≠(osSemWake k.sched u).cpu.runningTask
    rw [osSemWake_cpu]
    exact ht
  exact hprio

lemma prtSemPost_other (k : Kernel) (i : Nat) (ht : t≠k.sched.cpu.runningTask) :
    (k.prtSemPost i).1.priority t=k.priority t := by
  have hsched (k' : Kernel) : (k'.onSched fun s => s.osTskSchedule).priority t=k'.priority t :=
    priority_of_prios (congrFun (same_prios_quiet.step_osTskSchedule rfl) t)
  unfold prtSemPost
  split
  . rfl
  split
  . rfl
  split
  . next k' he =>
    rw [priority,osSemPostIsInvalid_sched he]
    rfl
  dsimp only
  split
  . exact (hsched _).trans (osSemPendListGet_other (k.logSem i _) i ht)
  split
  . have hrest := osPriorityRestore_other (t:=t) (((k.logSem i
      (.posted k.sched.cpu.runningTask)).modSem i fun c =>
        {c with semCount:=(c.semCount+1)%2^32, semOwner:=osInvalidOwnerId}).semBDelete i)
      ht
    generalize osPriorityRestore _=r at hrest ⊢
    split
    . exact (hsched _).trans hrest
    exact hrest
  rfl

lemma prtTaskSetPriority_other (k : Kernel) {u : Nat} (p : Nat) (ht : t≠u) :
    (k.prtTaskSetPriority u p).1.priority t=k.priority t := by
  unfold prtTaskSetPriority
  split
  . rfl
  split
  . rfl
  split
  . rfl
  split
  . have hadd := k.sched.requeue_prios (fun s => s.osTskReadyAdd_prios u) u p
    have hsched := same_prios_quiet.step_osTskSchedule (a:=(((k.sched.osTskReadyDel
      u).modTcb u fun c => {c with priority:=p}).osTskReadyAdd u).modTcb u fun c =>
        {c with origPriority:=p}) rfl
    apply priority_of_prios
    apply (congrFun hsched t).trans
    rw [modTcb_prios,update_of_ne ht,hadd,update_of_ne ht]
  have hmod := modTcb_prios k.sched u fun c => {c with priority:=p, origPriority:=p}
  apply priority_of_prios
  exact (congrFun hmod t).trans (update_of_ne ht _ _)

end priorities

end Kernel

/-- The input changes the priority of no task that waits for an rwlock. -/
def Input.sparesWaiters (k : Kernel) : Input → Prop
  | .call (.taskSetPriority t _) => k.rwParked t=false
  | .call (.semPend i _) => k.osSemPendNotNeedSche i=none →
      (k.sems i).semType.isBin=true → ∀ t, k.semChain i t → k.rwParked t=false
  | _ => True

namespace Kernel

variable {k : Kernel} {a : Input} {t l l' n : Nat} {write write' : Bool}

lemma act_priority (hf : Fine False False False False False k) (hp : a.plain=true)
    (hen : k.enabled a=true) (ha : a.sparesWaiters k) (ht : k.rwParked t=true) :
    (k.act a).1.priority t=k.priority t := by
  have hab := hf.able .none (enabled_alive hen)
  have hin := (parked_bits hab.core ht).2.1
  have hcalm : k.InputWithin (prioTouch fun t => (k.sched.status t).inuse=false) a →
      (k.act a).1.priority t=k.priority t := by
    intro hT
    have hq := act_quiet (prios_quiet _) hab hen (Input.plain_ok hp k) hT t
    refine priority_of_prios (hq.1 fun hn => ?_)
    rw [hin] at hn
    cases hn
  cases a with
  | call call =>
    cases call with
    | semPend i n =>
      apply prtSemPend_offPath
      intro hs hb hchain
      have hpark := ha hs hb t hchain
      rw [ht] at hpark
      cases hpark
    | semPost i => exact prtSemPost_other k i (ne_running_of_parked hab ht)
    | taskSetPriority u p =>
      apply prtTaskSetPriority_other
      rintro rfl
      have hpark : k.rwParked t=false := ha
      rw [ht] at hpark
      cases hpark
    | taskCreate p memOk kthread => exact hcalm fun t ht => ⟨trivial,ht⟩
    | taskDelete | taskExit => exact hcalm ⟨trivial,trivial⟩
    | _ => exact hcalm trivial
  | proceed => exact hcalm ⟨fun _ => trivial,fun _ => trivial,fun _ => trivial⟩
  | activate memOk => exact hcalm fun t ht => ⟨trivial,ht⟩
  | _ => exact hcalm trivial

section lists

lemma rwPendSchedule_list {c u : Prop} (hab : Able c u k.sched) (hn : n≠0) :
    (k.rwPendSchedule l write n).1.rwList l' write' = if l'=l ∧ write'=write then
        insertAt (k.sched.osRwLockPendFindPos k.sched.cpu.runningTask (.rw l write))
          k.sched.cpu.runningTask (k.rwList l write) else k.rwList l' write' := by
  have hrun : ∀ l write, k.sched.pend.loc k.sched.cpu.runningTask≠some (.rw l write) := by
    intro l write hl
    have hpark := parked_of_mem ((k.sched.pend.mem_iff _ _).mpr hl)
    rw [running_not_parked hab] at hpark
    cases hpark
  have hdel : ∀ l write, (k.sched.pend.delete k.sched.cpu.runningTask).lists (.rw l write) =
      k.rwList l write := fun l write => Links.delete_lists_ne _ (hrun l write)
  have hnone : (k.sched.pend.delete k.sched.cpu.runningTask).loc k.sched.cpu.runningTask=none := by
    rw [Links.delete_loc,update_self]
  unfold rwPendSchedule osRwLockPendSchedule rwList
  rw [if_neg hn]
  rw [osTskSchedule_pend,osRwLockPendPre_pend,Links.insert_lists _ _ _ hnone]
  split
  . next he =>
    rw [he.1,he.2,update_self,hdel]
    rfl
  next he =>
  rw [update_of_ne,hdel]
  . rfl
  intro heq
  cases heq
  exact he ⟨rfl,rfl⟩

def rdWaits (k : Kernel) (l : Nat) : Bool :=
  !(decide (0≤(k.rwlocks l).rwCount) &&
    k.sched.osRwlockPriCompare k.sched.cpu.runningTask (.rw l true))

def wrWaits (k : Kernel) (l : Nat) : Bool :=
  decide ((k.rwlocks l).rwCount≠0) &&
    !(decide ((k.rwlocks l).rwCount<0) &&
      decide ((k.rwlocks l).rwOwner=some k.sched.cpu.runningTask))

lemma osRwLockRdPend_cases (k : Kernel) (l n : Nat) (try_ : Bool) :
    (k.osRwLockRdPend l n try_).1.sched=k.sched ∨
      (k.osRwLockCheck=.osOk ∧ k.rdWaits l=true ∧ n≠0 ∧
        k.osRwLockRdPend l n try_=k.rwPendSchedule l false n) := by
  simp only [osRwLockRdPend]
  split
  . exact .inl rfl
  next hok =>
  split
  . exact .inl rfl
  split
  . split <;> exact .inl rfl
  next hslow =>
  split
  . exact .inl rfl
  by_cases hn : n=0
  . left
    rw [rwPendSchedule,osRwLockPendSchedule,if_pos hn]
  refine .inr ⟨not_not.mp hok,?_,hn,rfl⟩
  simp only [rdWaits,Bool.not_eq_true',Bool.and_eq_false_iff,decide_eq_false_iff_not]
  rcases not_and_or.mp hslow with h | h
  . exact .inl h
  exact .inr ((Bool.not_eq_true _).mp h)

lemma osRwLockWrPend_cases (k : Kernel) (l n : Nat) (try_ : Bool) :
    (k.osRwLockWrPend l n try_).1.sched=k.sched ∨
      (k.osRwLockCheck=.osOk ∧ k.wrWaits l=true ∧ n≠0 ∧
        k.osRwLockWrPend l n try_=k.rwPendSchedule l true n) := by
  simp only [osRwLockWrPend]
  split
  . exact .inl rfl
  next hok =>
  split
  . exact .inl rfl
  split
  . exact .inl rfl
  next hz =>
  split
  . exact .inl rfl
  next hown =>
  by_cases hn : n=0
  . left
    rw [rwPendSchedule,osRwLockPendSchedule,if_pos hn]
  refine .inr ⟨not_not.mp hok,?_,hn,rfl⟩
  simp only [wrWaits,Bool.and_eq_true,decide_eq_true_eq,Bool.not_eq_true',
    Bool.and_eq_false_iff,decide_eq_false_iff_not]
  exact ⟨hz,not_and_or.mp hown⟩

lemma rwUnlock_same (k : Kernel) (l : Nat) :
    (k.rwUnlock l).1.sched.pend=(k.osRwLockUnlock l).1.sched.pend ∧
      (k.rwUnlock l).1.rwlocks=(k.osRwLockUnlock l).1.rwlocks := by
  have hthread : (k.pthreadRwlockUnlock l).1.sched.pend=(k.osRwLockUnlock l).1.sched.pend ∧
      (k.pthreadRwlockUnlock l).1.rwlocks=(k.osRwLockUnlock l).1.rwlocks := by
    unfold pthreadRwlockUnlock
    split
    . next he =>
      rw [he]
      exact ⟨osTskSchedule_pend _,rfl⟩
    next he =>
    rw [he]
    exact ⟨rfl,rfl⟩
  simp only [rwUnlock]
  split <;> exact hthread

lemma proceed_rw (hpart : k.inputPart .proceed=.rw) :
    k.proceed.1.sched.pend=k.sched.pend ∧ k.proceed.1.rwlocks=k.rwlocks := by
  unfold inputPart at hpart
  unfold proceed
  cases hk : k.sched.cont k.sched.cpu.runningTask with
  | rwPend l write timed =>
    simp only [rwPendRest,rwPendCont]
    split <;> split <;> exact ⟨rfl,rfl⟩
  | rwCheck l write =>
    simp only [rwCheckRest,rwCheckCont]
    split <;> exact ⟨rfl,rfl⟩
  | _ => simp [hk,Cont.part] at hpart

lemma act_rw_sublist (hf : Fine False False False False False k) (hp : a.plain=true)
    (hen : k.enabled a=true) (hr : ∀ l n try_, a≠.call (.rwRead l n try_))
    (hw : ∀ l n try_, a≠.call (.rwWrite l n try_)) (l : Nat) (write : Bool) :
    ((k.act a).1.rwList l write).Sublist (k.rwList l write) := by
  have hab := hf.able .none (enabled_alive hen)
  have hcalm : k.InputWithin (rwTouch fun _ => True) a →
      ((k.act a).1.rwList l write).Sublist (k.rwList l write) := fun hT =>
    (act_quiet (rw_quiet _) hab hen (Input.plain_ok hp k) hT).lists l write
  cases a with
  | call call =>
    cases call with
    | rwRead l n try_ => exact absurd rfl (hr l n try_)
    | rwWrite l n try_ => exact absurd rfl (hw l n try_)
    | rwUnlock l1 =>
      have hpend : (k.act (.call (.rwUnlock l1))).1.rwList l write =
          (k.osRwLockUnlock l1).1.rwList l write := by
        unfold rwList
        rw [← (k.rwUnlock_same l1).1]
        rfl
      rw [hpend]
      rcases k.osRwLockUnlock_cases l1 with he | he
      . unfold rwList
        rw [he.1]
      rw [he]
      obtain ⟨-,⟨ws,hg,-⟩,-,-⟩ := osRwLockPost_released hab l1
      exact hg.lists l write
    | taskCreate p memOk kthread => exact hcalm fun t ht => ⟨trivial,trivial⟩
    | taskDelete | taskExit | semPend => exact hcalm ⟨trivial,trivial⟩
    | _ => exact hcalm trivial
  | activate memOk => exact hcalm fun t ht => ⟨trivial,trivial⟩
  | proceed =>
    by_cases hpart : k.inputPart .proceed=.rw
    . change (k.proceed.1.sched.pend.lists _).Sublist _
      rw [(proceed_rw hpart).1]
      exact .refl _
    exact hcalm ⟨fun _ => trivial,fun _ => trivial,fun hr => absurd hr hpart⟩
  | _ => exact hcalm trivial

structure Joins (k k' : Kernel) (l : Nat) (write : Bool) : Prop where
  list : ∀ l' write', k'.rwList l' write' = if l'=l ∧ write'=write then
      insertAt (k.sched.osRwLockPendFindPos k.sched.cpu.runningTask (.rw l write))
        k.sched.cpu.runningTask (k.rwList l write)
    else k.rwList l' write'
  prio : ∀ t, k'.priority t=k.priority t

lemma rwPendSchedule_joins {c u : Prop} (hab : Able c u k.sched) (hn : n≠0)
    (hu : k.sched.cont k.sched.cpu.runningTask=.user) :
    Joins k (k.rwPendSchedule l write n).1 l write where
  list _ _ := rwPendSchedule_list hab hn
  prio t := priority_of_prios
    (congrFun (same_prios_quiet.paces.rwPendSchedule trivial trivial k write (.inr hu)) t)

lemma enabled_rw_user {c : Call} (hen : k.enabled (.call c)=true) (he : c.early=false)
    (hok : k.osRwLockCheck=.osOk) : k.sched.cont k.sched.cpu.runningTask=.user := by
  have hm := (enabled_call hen).2
  have hb : k.sched.cpu.bgdActive=true := hm.bgd.resolve_right (by simp [he])
  exact hm.user (taskContext_of hb (by simp [(osRwLockCheck_ok hok).1]))

lemma act_rwRead_cases (hf : Fine False False False False False k) {try_ : Bool}
    (hen : k.enabled (.call (.rwRead l n try_))=true) :
    (k.act (.call (.rwRead l n try_))).1.sched=k.sched ∨
      (k.rdWaits l=true ∧ Joins k (k.act (.call (.rwRead l n try_))).1 l false) := by
  rcases k.osRwLockRdPend_cases l n try_ with he | ⟨hok,hwait,hn,he⟩
  . exact .inl he
  have hact : k.act (.call (.rwRead l n try_))=k.rwPendSchedule l false n := he
  rw [hact]
  exact .inr ⟨hwait,rwPendSchedule_joins (hf.able .none (enabled_alive hen)) hn
    (enabled_rw_user hen rfl hok)⟩

lemma act_rwWrite_cases (hf : Fine False False False False False k) {try_ : Bool}
    (hen : k.enabled (.call (.rwWrite l n try_))=true) :
    (k.act (.call (.rwWrite l n try_))).1.sched=k.sched ∨
      (k.wrWaits l=true ∧ Joins k (k.act (.call (.rwWrite l n try_))).1 l true) := by
  rcases k.osRwLockWrPend_cases l n try_ with he | ⟨hok,hwait,hn,he⟩
  . exact .inl he
  have hact : k.act (.call (.rwWrite l n try_))=k.rwPendSchedule l true n := he
  rw [hact]
  exact .inr ⟨hwait,rwPendSchedule_joins (hf.able .none (enabled_alive hen)) hn
    (enabled_rw_user hen rfl hok)⟩

lemma act_rw_cases (hf : Fine False False False False False k) (hp : a.plain=true)
    (hen : k.enabled a=true) :
    (∀ l write, ((k.act a).1.rwList l write).Sublist (k.rwList l write)) ∨
      (∃ l n try_, a=.call (.rwRead l n try_) ∧ k.rdWaits l=true ∧ Joins k (k.act a).1 l false) ∨
      ∃ l n try_, a=.call (.rwWrite l n try_) ∧ k.wrWaits l=true ∧ Joins k (k.act a).1 l true := by
  have hsame {k' : Kernel} (he : k'.sched=k.sched) (l : Nat) (write : Bool) :
      (k'.rwList l write).Sublist (k.rwList l write) := by
    unfold rwList
    rw [he]
  by_cases hr : ∃ l n try_, a=.call (.rwRead l n try_)
  . obtain ⟨l,n,try_,rfl⟩ := hr
    rcases act_rwRead_cases hf hen with he | ⟨hwait,hj⟩
    . exact .inl (hsame he)
    exact .inr (.inl ⟨l,n,try_,rfl,hwait,hj⟩)
  by_cases hw : ∃ l n try_, a=.call (.rwWrite l n try_)
  . obtain ⟨l,n,try_,rfl⟩ := hw
    rcases act_rwWrite_cases hf hen with he | ⟨hwait,hj⟩
    . exact .inl (hsame he)
    exact .inr (.inr ⟨l,n,try_,rfl,hwait,hj⟩)
  refine .inl (act_rw_sublist hf hp hen ?_ ?_)
  . intro l n try_ he
    exact hr ⟨l,n,try_,he⟩
  intro l n try_ he
  exact hw ⟨l,n,try_,he⟩

end lists

end Kernel

end UniProton
