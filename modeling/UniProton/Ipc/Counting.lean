import UniProton.Kernel.Reach

namespace UniProton

open Framework Function List

namespace Sched

variable {s : Sched} {t : Nat}

def Due (s : Sched) (t : Nat) : Prop :=
  t∈s.delayList ∧ (s.tcb t).expirationTick≤(s.cpu.uniTicks+1)%2^64

lemma osTaskExpire_frame (s : Sched) (t : Nat) : (s.osTaskExpire t).cpu=s.cpu ∧
    (s.osTaskExpire t).timer=s.timer.delete t ∧
    ∀ t', ((s.osTaskExpire t).tcb t').expirationTick=(s.tcb t').expirationTick := by
  simp only [osTaskExpire]
  repeat' split
  all_goals
    refine ⟨rfl,rfl,fun t' => ?_⟩
    by_cases e : t'=t
    . subst e
      simp [timerDelete,pendDelete,modStatus,modTcb,kthreadStateSet]
    simp [timerDelete,pendDelete,modStatus,modTcb,kthreadStateSet,e]

lemma osTaskExpire_sem (s : Sched) (t j : Nat) :
    (s.osTaskExpire t).pend.lists (.sem j)=s.pend.lists (.sem j) ∨
      (s.osTaskExpire t).pend.lists (.sem j)=(s.pend.lists (.sem j)).filter (· ≠ t) := by
  have hdel : (s.pend.delete t).lists (.sem j)=(s.pend.lists (.sem j)).filter (· ≠ t) := by
    rw [Links.delete_lists_eq,(s.pend.nodup _).erase_eq_filter]
    refine filter_congr fun x _ => ?_
    by_cases e : x=t <;> simp [e]
  simp only [osTaskExpire]
  repeat' split
  all_goals first | exact .inr hdel | exact .inl rfl

lemma osTaskScanLoop_sem (n : Nat) (s : Sched) (need : Bool) (j : Nat) :
    ∃ l : List Nat, (∀ t∈l, t∈s.delayList ∧ (s.tcb t).expirationTick ≤ s.cpu.uniTicks) ∧
      (osTaskScanLoop n s need).1.pend.lists (.sem j)=(s.pend.lists (.sem j)).filter (· ∉ l) := by
  have hnil : ∀ l : List Nat, l=l.filter (· ∉ ([] : List Nat)) := fun l => by simp
  induction n generalizing s need with
  | zero => exact ⟨[],nofun,hnil _⟩
  | succ n ih =>
    unfold osTaskScanLoop
    split
    . exact ⟨[],nofun,hnil _⟩
    next t rest hd =>
    split
    . exact ⟨[],nofun,hnil _⟩
    next hlt =>
    -- The rest of the loop starts from a state with the same times.
    have hrest : ∀ (s2 : Sched) (b : Bool), s2.timer=s.timer.delete t → s2.cpu=s.cpu →
        (∀ t', (s2.tcb t').expirationTick=(s.tcb t').expirationTick) →
        s2.pend.lists (.sem j)=(s.osTaskExpire t).pend.lists (.sem j) →
        ∃ l : List Nat, (∀ t∈l, t∈s.delayList ∧ (s.tcb t).expirationTick ≤ s.cpu.uniTicks) ∧
          (osTaskScanLoop n s2 b).1.pend.lists (.sem j) =
            (s.pend.lists (.sem j)).filter (· ∉ l) := by
      intro s2 b htm hcpu hex hp
      obtain ⟨l,hl,he⟩ := ih s2 b
      have hl' : ∀ t'∈l, t'∈s.delayList ∧ (s.tcb t').expirationTick ≤ s.cpu.uniTicks := by
        intro t' ht'
        obtain ⟨h1,h2⟩ := hl t' ht'
        rw [hex,hcpu] at h2
        refine ⟨?_,h2⟩
        rw [delayList,htm,Links.delete_lists_eq] at h1
        exact mem_of_mem_erase h1
      rw [he,hp]
      rcases s.osTaskExpire_sem t j with hs | hs
      . exact ⟨l,hl',by rw [hs]⟩
      refine ⟨t::l,forall_mem_cons.mpr ⟨⟨?_,not_lt.mp hlt⟩,hl'⟩,?_⟩
      . rw [hd]
        exact mem_cons_self
      rw [hs,filter_filter]
      refine filter_congr fun t' _ => ?_
      by_cases e : t'=t <;> simp [e]
    dsimp only
    obtain ⟨hcpu,htm,hex⟩ := s.osTaskExpire_frame t
    split
    . exact hrest _ _ htm hcpu hex rfl
    refine hrest _ _ htm hcpu (fun t' => ?_) (osTskReadyAdd_sem _ t j)
    rw [← hex t']
    by_cases e : t'=t
    . subst e
      simp [osTskReadyAdd,osEnqueueTaskAmp,osTskHighestSet,modStatus,modTcb,pendTailAdd,pendInsert]
    simp [osTskReadyAdd,osEnqueueTaskAmp,osTskHighestSet,modStatus,modTcb,pendTailAdd,pendInsert,e]

lemma tickScan_sem (s : Sched) (j : Nat) : ∃ l : List Nat, (∀ t∈l, s.Due t) ∧
      s.tickScan.pend.lists (.sem j)=(s.pend.lists (.sem j)).filter (· ∉ l) := by
  obtain ⟨l,hl,he⟩ := osTaskScanLoop_sem s.delayList.length
    {s with cpu:={s.cpu with uniTicks:=(s.cpu.uniTicks+1)%2^64, tickPhase:=.hooks}}
    false j
  refine ⟨l,hl,?_⟩
  rw [← he]
  simp only [tickScan,osTaskScan]
  split
  . rw [osTskSchedule_pend]
    rfl
  rfl

end Sched

namespace SemEvent

def initial : SemEvent → Nat
  | .created n => n
  | _ => 0

def isPost : SemEvent → Bool
  | .posted _ => true
  | _ => false

def isGrant : SemEvent → Bool
  | .acquired _ => true
  | _ => false

end SemEvent

namespace Kernel

variable {k k' : Kernel} {i : Nat} {a : SemAct}

def semInitial (k : Kernel) (i : Nat) : Nat := ((k.semLog i).map SemEvent.initial).sum

def semPosts (k : Kernel) (i : Nat) : Nat := (k.semLog i).countP SemEvent.isPost

/-- The successful pends since the creation of a semaphore. A waiting task is counted when a post
takes it off the list. -/
def semGrants (k : Kernel) (i : Nat) : Nat := (k.semLog i).countP SemEvent.isGrant

/-- The balance of the counting semaphores, and the order of arrival in their lists. -/
structure CountOk (k : Kernel) : Prop where
  sum : ∀ i, (k.sems i).used=true → (k.sems i).semType.isBin=false →
    k.semInitial i+k.semPosts i=(k.sems i).semCount+k.semGrants i
  stamp : ∀ i, ∀ t∈k.semList i, k.queuedAt t<k.clock
  arrival : ∀ i, (k.sems i).semMode=.fifo →
    (k.semList i).Pairwise fun t t' => k.queuedAt t<k.queuedAt t'

lemma SemStep.stamp (hs : SemStep k k' i a) (hk : k.SemOk) {j : Nat}
    (hm : (k.sems j).semMode=.fifo) {t : Nat} (ht : t∈k.semList j) :
    k'.queuedAt t=k.queuedAt t := by
  by_cases hw : a=.wait
  . subst hw
    cases hs with
    | wait _ _ _ _ _ _ _ _ _ _ _ hn ha =>
      rcases ha t with ⟨he,-⟩ | ⟨-,-,rfl | ⟨j',hj',hm'⟩⟩
      . exact he
      . exact absurd ht (hn j)
      have he := ((k.sched.pend.mem_iff _ _).mp ht).symm.trans ((k.sched.pend.mem_iff _ _).mp hj')
      obtain rfl : j=j' := PendHead.sem.inj (Option.some.inj he)
      cases hm.symm.trans hm'
  rw [(hs.lists hk hw).1]

lemma SemStep.sublist (hs : SemStep k k' i a) {j : Nat} (hj : j≠i)
    (hm : (k.sems j).semMode=.fifo) : (k'.semList j).Sublist (k.semList j) := by
  by_cases hw : a=.wait
  . subst hw
    cases hs with
    | wait _ _ _ _ _ _ _ _ _ _ hj' => rw [hj' j hj hm]
  exact (hs.other hj).2.2.2 hw

lemma CountOk.sum_step (h : k.CountOk) (hs : SemStep k k' i a) {j : Nat}
    (hu : (k'.sems j).used=true) (hb : (k'.sems j).semType.isBin=false) :
    k'.semInitial j+k'.semPosts j=(k'.sems j).semCount+k'.semGrants j := by
  have hold := h.sum j
  unfold semInitial semPosts semGrants at hold ⊢
  by_cases e : j=i
  swap
  . obtain ⟨he,hg,-⟩ := hs.other e
    rw [he] at hu hb ⊢
    rw [hg]
    exact hold hu hb
  subst e
  cases hs with
  | calm hs _ hg | wait _ _ _ hs _ _ hg =>
    rw [hs] at hu hb ⊢
    rw [hg]
    exact hold hu hb
  | create _ _ _ _ _ _ _ hk =>
    subst hk
    simp [SemEvent.initial,SemEvent.isPost,SemEvent.isGrant]
  | delete _ _ _ hk =>
    subst hk
    simp [modSem] at hu
  | reenter _ hr _ _ hk | undo _ hr _ _ _ hk =>
    subst hk
    simp [modSem,logSem,SemType.isBin_of_isRecur hr] at hb
  | take _ hu0 hz _ hk | hand _ _ _ hu0 _ _ _ hk | release _ hu0 _ _ _ _ _ hk =>
    subst hk
    simp only [update_self] at hb ⊢
    have hi := hold hu0 hb
    simp only [map_cons,sum_cons,countP_cons,SemEvent.initial,SemEvent.isPost,SemEvent.isGrant]
    simp
    omega

lemma CountOk.step (h : k.CountOk) (hk : k.SemOk) (hs : SemStep k k' i a) : k'.CountOk := by
  have hold := fun j => hs.stamp hk (j:=j)
  have hsum := fun j => h.sum_step hs (j:=j)
  by_cases hw : a=.wait
  swap
  . obtain ⟨hq,hc,hl,hcb⟩ := hs.lists hk hw
    refine ⟨fun j => hsum j,fun j t ht => ?_,fun j hj => ?_⟩
    . rw [hq,hc]
      exact h.stamp j t ((hl j).subset ht)
    rw [hq]
    by_cases hnil : k'.semList j=[]
    . rw [hnil]
      exact .nil
    rw [(hcb j hnil).2.1] at hj
    exact (h.arrival j hj).sublist (hl j)
  subst hw
  cases hs with
  | wait _ _ _ hs _ _ _ hi hi' hj hj' _ ha hc =>
    have hpair : ∀ j, (k.sems j).semMode=.fifo →
        (k.semList j).Pairwise fun t t' => k'.queuedAt t<k'.queuedAt t' := by
      intro j hm
      refine (h.arrival j hm).imp_of_mem fun ht ht' hlt => ?_
      rw [hold j hm ht,hold j hm ht']
      exact hlt
    refine ⟨fun j => hsum j,fun j t ht => ?_,fun j hm => ?_⟩
    . rcases ha t with ⟨he,hne⟩ | ⟨-,hlt,-⟩
      . rw [he]
        refine lt_of_lt_of_le (h.stamp j t ?_) hc
        by_cases e : j=i
        . subst e
          exact (mem_cons.mp (hi.mem_iff.mp ht)).resolve_left hne
        exact (hj j e).mem_iff.mp ht
      exact hlt
    rw [hs] at hm
    by_cases e : j=i
    . subst e
      rw [hi' hm]
      refine pairwise_append.mpr ⟨hpair j hm,pairwise_singleton _ _,?_⟩
      intro t ht t' ht'
      obtain rfl := mem_singleton.mp ht'
      rw [hold j hm ht]
      rcases ha k.sched.cpu.runningTask with ⟨-,hne⟩ | ⟨hle,-,-⟩
      . exact absurd rfl hne
      exact lt_of_lt_of_le (h.stamp j t ht) hle
    rw [hj' j e hm]
    exact hpair j hm

lemma init_countOk (cfg : Cfg) : (init cfg).CountOk := by
  refine ⟨nofun,fun i => ?_,fun i _ => ?_⟩
  . nofun
  exact .nil

/-- What one input does to a counting semaphore `i`. -/
structure CountStep (k : Kernel) (i : Nat) (a : Input) : Prop where
  post : a=.call (.semPost i) → (k.act a).2=some .osOk → k.semList i=[] →
    ((k.act a).1.sems i).semCount=(k.sems i).semCount+1 ∧ (k.act a).1.semList i=[] ∧
      (k.act a).1.semLog i=.posted k.sched.cpu.runningTask::k.semLog i
  hand : a=.call (.semPost i) → (k.act a).2=some .osOk → ∀ t l, k.semList i=t::l →
    ((k.act a).1.sems i).semCount=(k.sems i).semCount ∧ (k.act a).1.semList i=l ∧
      (k.act a).1.semLog i=.acquired t :: .posted k.sched.cpu.runningTask::k.semLog i
  refused : a=.call (.semPost i) → (k.act a).2≠some .osOk → (k.act a).1=k
  pend : ∀ n, a=.call (.semPend i n) → (k.act a).2=some .osOk →
    ((k.act a).1.sems i).semCount+1=(k.sems i).semCount ∧ (k.act a).1.semList i=k.semList i ∧
      (k.act a).1.semLog i=.acquired k.sched.cpu.runningTask::k.semLog i
  blocked : ∀ n, a=.call (.semPend i n) → (k.act a).2=none →
    ((k.act a).1.sems i).semCount=(k.sems i).semCount ∧
      (k.act a).1.semList i=k.semList i ++ [k.sched.cpu.runningTask] ∧
      (k.act a).1.semLog i=k.semLog i
  failed : ∀ n e, a=.call (.semPend i n) → (k.act a).2=some e → e≠.osOk → (k.act a).1=k
  expired : a=.tickScan → ∃ l : List Nat, (∀ t∈l, k.sched.Due t) ∧
    (k.act a).1.semList i=(k.semList i).filter (· ∉ l)
  rest : a=.proceed → k.sched.cont k.sched.cpu.runningTask=.semPend →
    (k.act a).1.semList i=k.semList i
  stamp : ∀ t∈k.semList i, (k.act a).1.queuedAt t=k.queuedAt t
  other : a≠.call (.semPost i) → (∀ n, a≠.call (.semPend i n)) → a≠.call (.semDelete i) →
    (k.act a).1.sems i=k.sems i ∧ (k.act a).1.semLog i=k.semLog i ∧
      ((k.act a).1.semList i).Sublist (k.semList i)

section counting

variable {c u : Prop} (h : Sched.Able c u k.sched) (hs : k.SemOk)
  (hb : (k.sems i).semType.isBin=false)

include hb in
lemma not_recur : (k.sems i).semType.isRecur≠true := by
  intro hr
  rw [SemType.isBin_of_isRecur hr] at hb
  cases hb

include hs hb in
lemma mode_fifo : (k.sems i).semMode=.fifo := by
  cases hm : (k.sems i).semMode with
  | fifo => rfl
  | prior =>
    rw [(hs.each i).mode.mp hm] at hb
    cases hb

include h hs hb

lemma post_counting (hbg : k.sched.cpu.bgdActive=true) :
    ((k.prtSemPost i).2≠.osOk ∧ (k.prtSemPost i).1=k) ∨
    ((k.prtSemPost i).2=.osOk ∧ (SemStep k (k.prtSemPost i).1 i .hand ∨
      SemStep k (k.prtSemPost i).1 i .release)) := by
  rcases prtSemPost_step h hbg hs i with ⟨he,hf⟩ | ⟨hok,ha | ha⟩
  . refine .inl ⟨fun hok => ?_,he⟩
    rw [(hf hok).1] at hb
    cases hb
  . cases ha with
    | undo _ hr => exact absurd hr (not_recur hb)
  exact .inr ⟨hok,ha⟩

lemma pend_counting (hbg : k.sched.cpu.bgdActive=true)
    (hc : k.sched.cpu.taskContext=true → k.sched.cont k.sched.cpu.runningTask=.user) (n : Nat) :
    ((k.prtSemPend i n).1=k ∧ ∃ e≠.osOk, (k.prtSemPend i n).2=some e) ∨
    ((k.prtSemPend i n).2=some .osOk ∧ SemStep k (k.prtSemPend i n).1 i .take) ∨
    ((k.prtSemPend i n).2=none ∧ SemStep k (k.prtSemPend i n).1 i .wait) := by
  rcases prtSemPend_step h hbg hs hc i n with he | ⟨hok,ha | ha⟩ | hw
  . exact .inl he
  . cases ha with
    | reenter _ hr => exact absurd hr (not_recur hb)
  . exact .inr (.inl ⟨hok,ha⟩)
  exact .inr (.inr hw)

end counting

lemma semPendCont_semList (k : Kernel) (j : Nat) : k.semPendCont.1.semList j=k.semList j := by
  simp only [semPendCont]
  split
  . rfl
  exact onSched_semList (Sched.osTskSchedule_pend _) j

lemma eq_of_semOf (h : k.SemOk) (hu : (k.sems i).used=true) {a : Input}
    (ha : k.semOf a=some i) :
    a=.call (.semPost i) ∨ (∃ n, a=.call (.semPend i n)) ∨ a=.call (.semDelete i) := by
  have hfree : k.unusedSem.head? ≠ some i := by
    intro he
    rw [h.free i (mem_of_mem_head? he)] at hu
    cases hu
  cases a with
  | call c =>
    cases c with
    | semPost j => exact .inl (by rw [Option.some.inj ha])
    | semPend j n => exact .inr (.inl ⟨n,by rw [Option.some.inj ha]⟩)
    | semDelete j => exact .inr (.inr (by rw [Option.some.inj ha]))
    | semCreate | mutexCreate => exact absurd ha hfree
    | _ => cases ha
  | _ => cases ha

lemma countStep (h : Fine False False False False False k) (hu : (k.sems i).used=true)
    (hb : (k.sems i).semType.isBin=false) {a : Input} (hp : a.plain=true)
    (hen : k.enabled a=true) : k.CountStep i a := by
  have hab := h.able .none (enabled_alive hen)
  have hm := mode_fifo h.sem hb
  have hbgd : ∀ {call}, a=.call call → call.early=false → k.sched.cpu.bgdActive=true := by
    rintro call rfl he
    exact (enabled_call hen).2.bgd.resolve_right (by simp [he])
  have hpost : a=.call (.semPost i) → _ := fun he => post_counting hab h.sem hb (hbgd he rfl)
  have hpend : ∀ n, a=.call (.semPend i n) → _ := fun n he =>
    pend_counting hab h.sem hb (hbgd he rfl) (by subst he; exact (enabled_call hen).2.user) n
  obtain ⟨x,hstep,-⟩ := act_semStep hab h.sem hen (Input.plain_ok hp k) ((k.semOf a).getD (i+1))
    fun j hj => by rw [hj]; rfl
  constructor
  . rintro rfl hok hnil
    rcases hpost rfl with ⟨hne,-⟩ | ⟨-,ha | ha⟩
    . exact absurd (Option.some.inj hok) hne
    . cases ha with
      | hand _ _ _ _ hi =>
        rw [hnil] at hi
        cases hi
    cases ha with
    | release _ _ _ _ _ _ _ hk hl =>
      rw [show (k.act (.call (.semPost i))).1=_ from hk]
      simp only [update_self]
      exact ⟨trivial,(hl i).trans hnil,trivial⟩
  . rintro rfl hok t l hi
    rcases hpost rfl with ⟨hne,-⟩ | ⟨-,ha | ha⟩
    . exact absurd (Option.some.inj hok) hne
    . cases ha with
      | hand _ t' l' _ hi' _ _ hk hl =>
        obtain ⟨rfl,rfl⟩ := List.cons.inj (hi.symm.trans hi')
        rw [show (k.act (.call (.semPost i))).1=_ from hk]
        simp only [update_self]
        exact ⟨trivial,(hl i).trans (if_pos rfl),trivial⟩
    cases ha with
    | release _ _ hi' =>
      rw [hi] at hi'
      cases hi'
  . rintro rfl hne
    rcases hpost rfl with ⟨-,he⟩ | ⟨hok,-⟩
    . exact he
    exact absurd (congrArg some hok) hne
  . rintro n rfl hok
    rcases hpend n rfl with ⟨-,e,hne,he⟩ | ⟨-,ha⟩ | ⟨hno,-⟩
    . exact absurd (Option.some.inj (he.symm.trans hok)) hne
    . cases ha with
      | take _ _ hz _ hk hl =>
        rw [show (k.act (.call (.semPend i n))).1=_ from hk]
        refine ⟨?_,hl i,update_self ..⟩
        simp only [update_self]
        omega
    cases hno.symm.trans hok
  . rintro n rfl hno
    rcases hpend n rfl with ⟨-,e,-,he⟩ | ⟨hok,-⟩ | ⟨-,ha⟩
    . cases he.symm.trans hno
    . cases hok.symm.trans hno
    cases ha with
    | wait _ _ _ hs _ _ hg _ hi' =>
      exact ⟨congrArg SemCb.semCount (congrFun hs i),hi' hm,congrFun hg i⟩
  . rintro n e rfl he hne
    rcases hpend n rfl with ⟨hk,-⟩ | ⟨hok,-⟩ | ⟨hno,-⟩
    . exact hk
    . exact absurd (Option.some.inj (he.symm.trans hok)) hne
    cases hno.symm.trans he
  . rintro rfl
    exact k.sched.tickScan_sem i
  . rintro rfl hc
    simp only [act,proceed,hc]
    exact k.semPendCont_semList i
  . exact fun t ht => hstep.stamp h.sem hm ht
  intro h1 h2 h3
  have hi : i≠(k.semOf a).getD (i+1) := by
    rcases hof : k.semOf a with _ | j
    . exact (Nat.succ_ne_self i).symm
    rintro rfl
    rcases eq_of_semOf h.sem hu hof with rfl | ⟨n,rfl⟩ | rfl
    . exact h1 rfl
    . exact h2 n rfl
    exact h3 rfl
  exact ⟨(hstep.other hi).1,(hstep.other hi).2.1,hstep.sublist hi hm⟩

end Kernel

open Kernel

/-- Conservation and order of a counting semaphore, in a state and for the inputs that it meets. -/
structure CountingOk (k : Kernel) (i : Nat) : Prop where
  sum : k.semInitial i+k.semPosts i=(k.sems i).semCount+k.semGrants i
  waiting : k.semList i≠[] → (k.sems i).semCount=0
  limit : (k.sems i).semCount≤osSemCountMax
  arrival : (k.semList i).Pairwise fun t t' => k.queuedAt t<k.queuedAt t'
  step : ∀ a : Input, a.plain=true → k.enabled a=true → k.CountStep i a

/-- Every counting semaphore, in every state that tasks, handlers and ticks can lead to. -/
theorem counting_conservation {cfg : Cfg} {k : Kernel}
    (h : (kernelMachine cfg).Reaches (fun _ a => a.plain=true) k) {i : Nat}
    (hu : (k.sems i).used=true) (ht : (k.sems i).semType=.count) : CountingOk k i := by
  have hf := fine_of_plain h
  have hb : (k.sems i).semType.isBin=false := by rw [ht]; rfl
  have hc : k.CountOk := by
    refine h.invariant_of (fun _ => fine_of_plain) ?_ fun k a hf hc ha => ?_
    . rintro k rfl
      exact init_countOk cfg
    change (k.step a).CountOk
    unfold Kernel.step
    split
    . next hen =>
      obtain ⟨j,x,hs,-⟩ := exists_semStep (hf.able .none (enabled_alive hen)) hf.sem hen
        (Input.plain_ok ha k)
      exact hc.step hf.sem hs
    exact hc
  refine ⟨hc.sum i hu hb,(hf.sem.each i).taken,?_,hc.arrival i (mode_fifo hf.sem hb),
    fun a hp hen => countStep hf hu hb hp hen⟩
  have hl := (hf.sem.each i).limit
  rw [ht] at hl
  exact hl

def countInputs : List Input :=
  [.call (.taskCreate (smallTask 3) true false),.call (.taskResume 0),
   .call (.taskCreate (smallTask 5) true false),.call (.taskResume 1),.call (.semCreate 0),
   .activate true,.call (.semPend 0 osWaitForever),.call (.semPend 0 7),.hwiEnter,
   .call (.semPost 0)]

theorem counting_conservation_handler :
    let k := (kernelMachine smallCfg).run (Kernel.init smallCfg) countInputs
    k.semList 0=[1] ∧ k.semPosts 0=1 ∧ CountingOk k 0 := by
  have hrun : (kernelMachine smallCfg).Reaches (fun _ a => a.plain=true)
      ((kernelMachine smallCfg).run (Kernel.init smallCfg) countInputs) :=
    Machine.Reaches.run (.start rfl) _ ⟨rfl,rfl,rfl,rfl,rfl,rfl,rfl,rfl,rfl,rfl,trivial⟩
  refine ⟨?_,?_,counting_conservation hrun ?_ ?_⟩
  all_goals decide +kernel

end UniProton
