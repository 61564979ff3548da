import UniProton.Kernel.Schedule

namespace UniProton

open Framework Function Links

/-- What the kernel records about a task: its control block, where it goes on, the list of its
`pendList` node, and whether its `timerList` node is in the delay list. -/
@[ext] structure TaskView where
  tcb : TskCb
  cont : Cont
  loc : Option PendHead
  timed : Bool

namespace TaskView

variable (v : TaskView)

def bits : TskStatus := v.tcb.taskStatus

def modTcb (f : TskCb → TskCb) : TaskView := {v with tcb:=f v.tcb}

def modStatus (f : TskStatus → TskStatus) : TaskView :=
  v.modTcb fun c => {c with taskStatus:=f c.taskStatus}

def link (h : PendHead) : TaskView := {v with loc:=some (v.loc.getD h)}

def unlink : TaskView := {v with loc:=none}

def readyAdd : TaskView :=
  (v.modStatus fun b => {b with ready:=true}).link (.ready v.tcb.priority)

def readyDel : TaskView := (v.modStatus fun b => {b with ready:=false}).unlink

def timerAdd (tick : Nat) : TaskView :=
  {v.modTcb fun c => {c with expirationTick:=tick} with timed:=true}

def timerDel : TaskView := {v with timed:=false}

attribute [simp] modTcb modStatus link unlink readyAdd readyDel timerAdd timerDel

end TaskView

namespace Sched

variable (s : Sched) (t u : Nat)

def view : TaskView := ⟨s.tcb t,s.cont t,s.pend.loc t,s.timer.linked t⟩

/-- The bitmaps tell the non-empty ready lists, and `g_highestTask` is up to date. -/
structure RqOk : Prop where
  bitmap : s.runQue.Holds fun p => s.readyList p≠[]
  highest : s.highestTask=(s.readyList s.runQue.first).head?

@[simp] lemma modTcb_view (f : TskCb → TskCb) :
    (s.modTcb t f).view=update s.view t ((s.view t).modTcb f) := by
  funext u
  by_cases h : u=t
  . subst h; simp [view,modTcb,TaskView.modTcb]
  simp [view,modTcb,h]

@[simp] lemma modStatus_view (f : TskStatus → TskStatus) :
    (s.modStatus t f).view=update s.view t ((s.view t).modStatus f) :=
  s.modTcb_view t _

@[simp] lemma setCont_view (k : Cont) :
    (s.setCont t k).view=update s.view t {s.view t with cont:=k} := by
  funext u
  by_cases h : u=t
  . subst h; simp [view,setCont]
  simp [view,setCont,h]

@[simp] lemma pendInsert_view (h : PendHead) (i : Nat) :
    (s.pendInsert t h i).view=update s.view t ((s.view t).link h) := by
  funext u
  by_cases hu : u=t
  . subst hu; simp [view,pendInsert,TaskView.link,insert_loc_getD]
  simp [view,pendInsert,insert_loc_getD,hu]

@[simp] lemma pendTailAdd_view (h : PendHead) :
    (s.pendTailAdd t h).view=update s.view t ((s.view t).link h) :=
  s.pendInsert_view t h _

@[simp] lemma pendDelete_view : (s.pendDelete t).view=update s.view t (s.view t).unlink := by
  funext u
  by_cases hu : u=t
  . subst hu; simp [view,pendDelete,TaskView.unlink]
  simp [view,pendDelete,hu]

@[simp] lemma timerDelete_view : (s.timerDelete t).view=update s.view t (s.view t).timerDel := by
  funext u
  by_cases hu : u=t
  . subst hu; simp [view,timerDelete,TaskView.timerDel,linked]
  simp [view,timerDelete,linked,hu]

@[simp] lemma timerInit_view : (s.timerInit t).view=s.view := rfl

@[simp] lemma osTskHighestSet_view : s.osTskHighestSet.view=s.view := rfl

@[simp] lemma osTskReadyAdd_view :
    (s.osTskReadyAdd t).view=update s.view t (s.view t).readyAdd := by
  have h : (s.osTskReadyAdd t).view =
      ((s.modStatus t fun b => {b with ready:=true}).pendTailAdd t
        (.ready (s.tcb t).priority)).view := by
    simp only [osTskReadyAdd,osTskHighestSet_view,osEnqueueTaskAmp,modStatus,modTcb,update_self]
    rfl
  rw [h,pendTailAdd_view,modStatus_view]
  simp only [update_self,update_idem]
  rfl

@[simp] lemma osTskReadyDel_view :
    (s.osTskReadyDel t).view=update s.view t (s.view t).readyDel := by
  have h : (s.osTskReadyDel t).view =
      ((s.modStatus t fun b => {b with ready:=false}).pendDelete t).view := rfl
  rw [h]
  simp [TaskView.readyDel]

@[simp] lemma osTskTimerAdd_view (timeout : Nat) : (s.osTskTimerAdd t timeout).view =
      update s.view t ((s.view t).timerAdd ((s.cpu.uniTicks+timeout)%2^64)) := by
  funext u
  by_cases hu : u=t
  . subst hu
    simp [view,osTskTimerAdd,modTcb,TaskView.timerAdd,TaskView.modTcb,linked,insert_loc_getD]
  simp [view,osTskTimerAdd,modTcb,linked,insert_loc_getD,hu]

@[simp] lemma kthreadStateSet_view (k : KthreadState) :
    (s.kthreadStateSet t k).view=update s.view t
      ((s.view t).modTcb fun c => {c with kthreadTsk:=c.kthreadTsk.map fun _ => k}) :=
  s.modTcb_view t _

variable {s t}

lemma pendInsert_faults {h : PendHead} {i : Nat} (hl : (s.view t).loc=none) :
    (s.pendInsert t h i).faults=s.faults := by
  have hl' : s.pend.loc t=none := hl
  simp [pendInsert,linked,hl']

lemma pendTailAdd_faults {h : PendHead} (hl : (s.view t).loc=none) :
    (s.pendTailAdd t h).faults=s.faults :=
  pendInsert_faults hl

lemma pendDelete_faults (hl : (s.view t).loc.isSome=true) : (s.pendDelete t).faults=s.faults := by
  have hl' : s.pend.linked t=true := hl
  simp [pendDelete,hl']

lemma timerDelete_faults (hl : (s.view t).timed=true) : (s.timerDelete t).faults=s.faults := by
  have hl' : s.timer.linked t=true := hl
  simp [timerDelete,hl']

lemma osTskTimerAdd_faults {n : Nat} (hl : (s.view t).timed=false) :
    (s.osTskTimerAdd t n).faults=s.faults := by
  have hl' : s.timer.linked t=false := hl
  simp [osTskTimerAdd,modTcb,hl']

lemma osTskReadyAdd_faults (hl : (s.view t).loc=none) : (s.osTskReadyAdd t).faults=s.faults := by
  have hl' : s.pend.loc t=none := hl
  simp [osTskReadyAdd,osTskHighestSet,osEnqueueTaskAmp,pendTailAdd,pendInsert,modStatus,
    modTcb,linked,hl']

lemma osTskReadyDel_faults (hl : (s.view t).loc.isSome=true) :
    (s.osTskReadyDel t).faults=s.faults := by
  have hl' : s.pend.linked t=true := hl
  simp [osTskReadyDel,osTskHighestSet,osDequeueTaskAmp,pendDelete,modStatus,modTcb,hl']

lemma RqOk.of_eq {s' : Sched} (h : s.RqOk) (hq : s'.runQue=s.runQue)
    (hl : ∀ p, s'.readyList p=s.readyList p) (hh : s'.highestTask=s.highestTask) : s'.RqOk := by
  constructor
  . rw [hq]
    exact h.bitmap.congr fun p => by rw [hl p]
  rw [hq,hl,hh]
  exact h.highest

lemma RqOk.modTcb (h : s.RqOk) (f : TskCb → TskCb) : (s.modTcb t f).RqOk := ⟨h.1,h.2⟩

lemma RqOk.modStatus (h : s.RqOk) (f : TskStatus → TskStatus) : (s.modStatus t f).RqOk := ⟨h.1,h.2⟩

lemma RqOk.setCont (h : s.RqOk) (k : Cont) : (s.setCont t k).RqOk := ⟨h.1,h.2⟩

lemma RqOk.timerDelete (h : s.RqOk) : (s.timerDelete t).RqOk := ⟨h.1,h.2⟩

lemma RqOk.osTskTimerAdd (h : s.RqOk) (n : Nat) : (s.osTskTimerAdd t n).RqOk := ⟨h.1,h.2⟩

lemma RqOk.kthreadStateSet (h : s.RqOk) (k : KthreadState) : (s.kthreadStateSet t k).RqOk :=
  ⟨h.1,h.2⟩

lemma RqOk.pendInsert (h : s.RqOk) {hd : PendHead} (i : Nat) (hne : ∀ p, hd≠.ready p) :
    (s.pendInsert t hd i).RqOk := by
  refine h.of_eq rfl ?_ rfl
  intro p
  exact insert_lists_ne _ _ _ (hne p).symm

lemma RqOk.pendDelete (h : s.RqOk) (hne : ∀ p, (s.view t).loc≠some (.ready p)) :
    (s.pendDelete t).RqOk := by
  refine h.of_eq rfl ?_ rfl
  intro p
  exact delete_lists_ne _ (hne p)

lemma RqOk.osTskReadyAdd (h : s.RqOk) (hloc : (s.view t).loc=none)
    (hp : (s.view t).tcb.priority<32*32) : (s.osTskReadyAdd t).RqOk := by
  refine ⟨?_,rfl⟩
  change (s.tcb t).priority<32*32 at hp
  have hp' : ((s.modStatus t fun b => {b with ready:=true}).tcb t).priority =
      (s.tcb t).priority := by simp [Sched.modStatus,Sched.modTcb]
  have hlist : ∀ p, (s.osTskReadyAdd t).readyList p =
      if p=(s.tcb t).priority then s.readyList p ++ [t] else s.readyList p := by
    intro p
    change ((s.pend.insert t (.ready _) _).lists (.ready p))=_
    rw [hp',insert_lists _ _ _ hloc]
    by_cases e : p=(s.tcb t).priority
    . subst e
      rw [if_pos rfl,update_self]
      exact insertAt_length t _
    simp [e,readyList]
  have hque : (s.osTskReadyAdd t).runQue =
      if s.readyList (s.tcb t).priority=[] then s.runQue.set (s.tcb t).priority
      else s.runQue := by
    change (if s.readyList _=[] then s.runQue.set _ else s.runQue)=_
    rw [hp']
  rw [hque]
  split
  . apply (h.bitmap.set hp).congr
    intro p
    rw [hlist]
    by_cases e : p=(s.tcb t).priority <;> simp [e]
  next hne =>
  apply h.bitmap.congr
  intro p
  rw [hlist]
  by_cases e : p=(s.tcb t).priority
  . subst e; simp [hne]
  simp [e]

/-- Taking a task out keeps the bitmaps right when its node is in the list of its priority; a
free node changes nothing. -/
lemma RqOk.osTskReadyDel (h : s.RqOk) (hp : (s.view t).tcb.priority<32*32)
    (hloc : ∀ p, (s.view t).loc=some (.ready p) → p=(s.view t).tcb.priority) :
    (s.osTskReadyDel t).RqOk := by
  refine ⟨?_,rfl⟩
  change (s.tcb t).priority<32*32 at hp
  have hp' : ((s.modStatus t fun b => {b with ready:=false}).tcb t).priority =
      (s.tcb t).priority := by simp [Sched.modStatus,Sched.modTcb]
  have hlist : ∀ p, (s.osTskReadyDel t).readyList p=(s.readyList p).erase t :=
    fun p => delete_lists_eq _ _ _
  have hne : ∀ p, p≠(s.tcb t).priority → (s.osTskReadyDel t).readyList p=s.readyList p :=
    fun p hpne => delete_lists_ne _ fun hh => hpne (hloc p hh)
  have hque : (s.osTskReadyDel t).runQue =
      if (s.readyList (s.tcb t).priority).erase t=[] then s.runQue.clear (s.tcb t).priority
      else s.runQue := by
    rw [← hlist]
    change (if ((s.pend.delete t).lists (.ready _))=[] then s.runQue.clear _ else s.runQue)=_
    rw [hp']
    rfl
  rw [hque]
  split
  . next hnil =>
    apply (h.bitmap.clear hp).congr
    intro p
    by_cases e : p=(s.tcb t).priority
    . subst e; simp [hlist,hnil]
    simp [e,hne p e]
  next hcons =>
  apply h.bitmap.congr
  intro p
  by_cases e : p=(s.tcb t).priority
  . subst e
    rw [hlist]
    refine ⟨fun _ => hcons,fun _ hnil => hcons ?_⟩
    rw [hnil]
    rfl
  rw [hne p e]

lemma RqOk.first_ready (h : s.RqOk) {p : Nat} (hp : p<32*32) (hne : s.readyList p≠[]) :
    ∃ q u, s.highestTask=some u ∧ (s.readyList q).head? = some u ∧ ∀ r<q, s.readyList r=[] := by
  obtain ⟨hS,_,hmin⟩ := h.bitmap.first_least hp hne
  obtain ⟨u,us,hu⟩ := List.exists_cons_of_ne_nil hS
  refine ⟨s.runQue.first,u,?_,?_,?_⟩
  . rw [h.highest,hu]; rfl
  . rw [hu]; rfl
  intro r hr
  simpa using hmin r hr

end Sched

end UniProton
