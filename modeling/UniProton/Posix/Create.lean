import UniProton.Framework.Run

namespace UniProton

open Framework List

/-- What `pthread_create` returns. -/
inductive CreateRet where
  | ok | einval | enomem | eagain deriving DecidableEq

/-- The attributes of a new thread, whether an argument is `NULL`, and the answers of
`g_taskNameAdd`, of the memory allocation and of `PRT_TaskResume`. -/
structure CreateInput where
  null : Bool := false
  joinable : Bool := true
  userStack : Bool := false
  stackSize : Nat
  nameOk : Bool := true
  memOk : Bool := true
  resumeOk : Bool := true
  deriving DecidableEq

/-- What threads are created from: the control blocks that are free or to be recycled, the heap
bytes of each one's stack, all bytes used, and the unused semaphores. -/
structure ThreadRes where
  tskCbFreeList : List Nat
  tskRecyleList : List Nat := []
  stackBytes : Nat → Nat := fun _ => 0
  heapUsed : Nat := 0
  unusedSemList : List Nat

namespace ThreadRes

variable (s : ThreadRes)

def setStack (t n : Nat) : ThreadRes :=
  {s with stackBytes:=fun u => if u=t then n else s.stackBytes u}

def recycleAll : List Nat → ThreadRes → ThreadRes
  | [], s => {s with tskRecyleList:=[]}
  | t::ts, s => recycleAll ts { s.setStack t 0 with
      tskCbFreeList := s.tskCbFreeList++[t], heapUsed := s.heapUsed-s.stackBytes t }

def osTskRecycle : ThreadRes := recycleAll s.tskRecyleList s

/-- The end of `pthread_create`, with a control block and a stack. -/
def createEnd (x : CreateInput) : CreateRet×ThreadRes :=
  if x.joinable then
    match s.unusedSemList with
    | [] => (.eagain,s)
    | sem::rest =>
      let s := {s with unusedSemList:=rest}
      if x.resumeOk then (.ok,s)
      else (.eagain,{s with unusedSemList:=sem::s.unusedSemList})
  else if x.resumeOk then (.ok,s)
  else (.eagain,s)

def pthreadCreate (x : CreateInput) : CreateRet×ThreadRes :=
  if x.null then (.einval,s)
  else
    let s := s.osTskRecycle
    match s.tskCbFreeList with
    | [] => (.enomem,s)
    | t::rest =>
      let s := {s with tskCbFreeList:=rest}
      -- The control block goes back to the head of the list.
      if x.nameOk=false then (.enomem,{s with tskCbFreeList:=t::s.tskCbFreeList})
      else if x.userStack then (s.setStack t 0).createEnd x
      else if x.memOk=false then (.enomem,{s with tskCbFreeList:=t::s.tskCbFreeList})
      else ({s.setStack t x.stackSize with heapUsed:=s.heapUsed+x.stackSize}).createEnd x

/-- Nothing is lost, apart from what the next creation recycles. -/
def Same (s' : ThreadRes) : Prop := s'.osTskRecycle=s.osTskRecycle

/-- The call does not get as far as the semaphore and the resumption. -/
def Early (x : CreateInput) : Prop :=
  x.null=true ∨ s.tskCbFreeList=[] ∧ s.tskRecyleList=[] ∨ x.nameOk=false ∨
    x.userStack=false ∧ x.memOk=false

/-- There is a semaphore where one is needed, and the resumption is not refused. -/
def Served (x : CreateInput) : Prop :=
  (x.joinable=true → s.unusedSemList≠[]) ∧ x.resumeOk=true

variable {s : ThreadRes} {x : CreateInput}

lemma recycleAll_lists (ts : List Nat) (s : ThreadRes) :
    (recycleAll ts s).tskCbFreeList=s.tskCbFreeList++ts ∧ (recycleAll ts s).tskRecyleList=[] ∧
      (recycleAll ts s).unusedSemList=s.unusedSemList := by
  induction ts generalizing s with
  | nil => exact ⟨(append_nil _).symm,rfl,rfl⟩
  | cons t ts ih =>
    obtain ⟨hfree,hrest⟩ := ih { s.setStack t 0 with
      tskCbFreeList := s.tskCbFreeList++[t], heapUsed := s.heapUsed-s.stackBytes t }
    refine ⟨?_,hrest⟩
    rw [recycleAll,hfree,append_assoc,singleton_append]

lemma osTskRecycle_of_nil (h : s.tskRecyleList=[]) : s.osTskRecycle=s := by
  cases s
  cases h
  rfl

lemma createEnd_lists : (s.createEnd x).2.tskCbFreeList=s.tskCbFreeList ∧
    (s.createEnd x).2.tskRecyleList=s.tskRecyleList := by
  unfold createEnd
  grind

lemma createEnd_ok_iff : (s.createEnd x).1=.ok ↔ s.Served x := by
  unfold createEnd Served
  cases s.unusedSemList <;> grind

lemma not_same_createEnd {s1 : ThreadRes} {t : Nat} {rest : List Nat}
    (hfree : s.osTskRecycle.tskCbFreeList=t::rest) (h1 : s1.tskCbFreeList=rest)
    (hrec : s1.tskRecyleList=[]) : ¬s.Same (s1.createEnd x).2 := by
  intro hsame
  have hlists := s1.createEnd_lists (x:=x)
  rw [Same,osTskRecycle_of_nil (hlists.2.trans hrec)] at hsame
  have hlen := congrArg (fun r => r.tskCbFreeList.length) hsame
  simp only [hlists.1,h1,hfree,length_cons] at hlen
  omega

lemma pthreadCreate_same_iff : s.Same (s.pthreadCreate x).2 ↔ s.Early x := by
  obtain ⟨hfree,hrec,_⟩ := recycleAll_lists s.tskRecyleList s
  have hsame : s.Same s.osTskRecycle := osTskRecycle_of_nil hrec
  unfold Early pthreadCreate
  split
  . rename_i hnull
    exact ⟨fun _ => .inl hnull,fun _ => rfl⟩
  rename_i hnull
  cases hl : s.osTskRecycle.tskCbFreeList with
  | nil =>
    have hnil := append_eq_nil_iff.mp (hfree.symm.trans hl)
    exact ⟨fun _ => .inr (.inl hnil),fun _ => by simpa only [hl] using hsame⟩
  | cons t rest =>
    have hne : ¬(s.tskCbFreeList=[] ∧ s.tskRecyleList=[]) := by
      intro hnil
      have hempty := hl.symm.trans (hfree.trans (append_eq_nil_iff.mpr hnil))
      cases hempty
    have hback : ({s.osTskRecycle with tskCbFreeList:=t::rest} : ThreadRes) =
        s.osTskRecycle := by rw [← hl]
    have hend {s1 : ThreadRes} (h1 : s1.tskCbFreeList=rest) (h2 : s1.tskRecyleList=[]) :=
      not_same_createEnd (x:=x) hl h1 h2
    simp only [hl,hback]
    split
    . rename_i hname
      exact ⟨fun _ => .inr (.inr (.inl hname)),fun _ => hsame⟩
    split
    . rename_i hname huser
      exact ⟨fun h => absurd h (hend rfl hrec),by simp [hnull,hne,hname,huser]⟩
    split
    . rename_i hname huser hmem
      simp [hsame,hmem,huser]
    rename_i hname huser hmem
    exact ⟨fun h => absurd h (hend rfl hrec),by simp [hnull,hne,hname,hmem]⟩

lemma pthreadCreate_ok_iff : (s.pthreadCreate x).1=.ok ↔ ¬s.Early x ∧ s.Served x := by
  obtain ⟨hfree,_,hsem⟩ := recycleAll_lists s.tskRecyleList s
  have hend {s1 : ThreadRes} (h1 : s1.unusedSemList=s.unusedSemList) :
      (s1.createEnd x).1=.ok ↔ s.Served x := by
    rw [createEnd_ok_iff,Served,Served,h1]
  have hnil : s.tskCbFreeList=[] ∧ s.tskRecyleList=[] ↔ s.osTskRecycle.tskCbFreeList=[] := by
    rw [osTskRecycle,hfree,append_eq_nil_iff]
  unfold Early pthreadCreate
  rw [hnil]
  cases hl : s.osTskRecycle.tskCbFreeList with
  | nil => split <;> simp [hl]
  | cons t rest =>
    simp only [hl]
    split
    . simp [*]
    split
    . simp [*]
    split
    . rw [hend (by exact hsem)]
      simp [*]
    split
    . simp [*]
    rw [hend (by exact hsem)]
    simp [*]

end ThreadRes

def createMachine (s0 : ThreadRes) : Machine ThreadRes CreateInput where
  start s := s=s0
  step s x := (s.pthreadCreate x).2

open ThreadRes

/-- A creation that fails keeps the control blocks, the heap and the semaphores exactly if it fails
before the semaphore is created, or does not fail; so any number of early failures keeps them. -/
theorem create_keeps_iff (s : ThreadRes) (x : CreateInput) :
    ((s.pthreadCreate x).1=.ok ↔ ¬s.Early x ∧ s.Served x) ∧
    (((s.pthreadCreate x).1≠.ok → s.Same (s.pthreadCreate x).2) ↔ s.Early x ∨ s.Served x) ∧
    ∀ s', (createMachine s).Reaches Early s' → s.Same s' := by
  refine ⟨pthreadCreate_ok_iff,?_,fun s' hr => ?_⟩
  . rw [pthreadCreate_same_iff,Ne,pthreadCreate_ok_iff]
    by_cases he : s.Early x <;> simp [he]
  apply hr.invariant
  . intro s1 hs1
    subst hs1
    rfl
  intro s1 x hs1 hx
  exact (pthreadCreate_same_iff.mpr hx).trans hs1

/-- Without a semaphore the control block and the stack are lost. -/
theorem create_loses_thread :
    let s : ThreadRes := {tskCbFreeList:=[0,1], unusedSemList:=[]}
    let r := s.pthreadCreate {stackSize:=4096}
    r.1=.eagain ∧ r.2.tskCbFreeList=[1] ∧ r.2.heapUsed=4096 := by
  decide

theorem create_keeps_two :
    let s : ThreadRes := {tskCbFreeList:=[0,1], unusedSemList:=[0]}
    let x : CreateInput := {stackSize:=4096, memOk:=false}
    (s.pthreadCreate x).1=.enomem ∧ s.Same (createMachine s |>.run s [x,x]) := by
  intro s x
  have hx (s : ThreadRes) : s.Early x := .inr (.inr (.inr ⟨rfl,rfl⟩))
  refine ⟨by decide,?_⟩
  exact (create_keeps_iff s x).2.2 _ (.run (.start rfl) _ ⟨hx _,hx _,trivial⟩)

end UniProton
