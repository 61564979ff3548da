import UniProton.Framework.Run
import UniProton.Ipc.Queue

namespace UniProton

open Framework Function

inductive InitRet where
  | ok
  | queueCreatPtrNull | queueParaZero | queueNsizeInvalid | queueCbUnavailable | queueCreateNoMemory
  | semPtrNull | semOverflow | semAllBusy | semInvalid | semPended | semMutexHolding
  deriving DecidableEq

/-- The calls that use `g_mcInitGuard`; `null` is a missing pointer for the new id. -/
inductive InitCall where
  | queueCreate (nodeNum maxNodeSize : Nat) (null : Bool)
  | semCreate (count : Nat) (null : Bool)
  | semMutexCreate (null : Bool)
  | semDelete (sem : Nat)
  deriving DecidableEq

/-- What is done with the guard held: `OsQueueCreate`, `OsSemCreateCb`, and the `ListAdd` of
`PRT_SemDelete`. -/
inductive GuardJob where
  | queueCreate | semCreateCb
  | semListAdd (sem : Nat)
  deriving DecidableEq

/-- Where a core is in a call. -/
inductive InitPhase where
  | idle
  | wantSem (sem : Nat)
  | inSem (sem : Nat)
  | wantGuard (job : GuardJob)
  | inGuard (job : GuardJob)
  deriving DecidableEq

/-- `intSave` is the variable of the calls, and `entry` the mask when the call was made. -/
structure InitCore where
  intOff : Bool := false
  intSave : Bool := false
  entry : Bool := false
  phase : InitPhase := .idle
  deriving DecidableEq

/-- The return of a call: whether interrupts are as they were, and the guard is not left held. -/
structure InitReturn where
  core : Nat
  ret : InitRet
  restored : Bool
  freed : Bool
  deriving DecidableEq

/-- The locks with the core that holds each, the control blocks, and the cores. `returns` are the
returns so far, the newest first. -/
structure InitSt where
  guard : Option Nat := none
  semLock : Nat → Option Nat := fun _ => none
  queUsed : Nat → Bool := fun _ => false
  semUsed : Nat → Bool := fun _ => false
  unusedSems : List Nat
  core : Nat → InitCore := fun _ => {}
  returns : List InitReturn := []

namespace InitSt

variable (s : InitSt) (c : Nat)

def setCore (f : InitCore → InitCore) : InitSt := {s with core:=update s.core c (f (s.core c))}

/-- The mask is saved and interrupts are locked; then the core spins for a lock. -/
def intLock (phase : InitPhase) : InitSt :=
  s.setCore c fun x => {x with intSave:=x.intOff, intOff:=true, phase:=phase}

def leave (ret : InitRet) : InitSt :=
  { s.setCore c fun x => {x with phase:=.idle} with
    returns := ⟨c,ret,decide ((s.core c).intOff=(s.core c).entry),
      decide (s.guard≠some c)⟩ :: s.returns }

def intRestore : InitSt := s.setCore c fun x => {x with intOff:=x.intSave}

def guardUnlock : InitSt := {s with guard:=none}

def semUnlock (sem : Nat) : InitSt := {s with semLock:=update s.semLock sem none}

def prtQueueCreate (nodeNum maxNodeSize : Nat) (null : Bool) : InitSt :=
  if null then s.leave c .queueCreatPtrNull
  else if nodeNum=0 ∨ maxNodeSize=0 then s.leave c .queueParaZero
  else if 0xFFFF<osQueueGetNodeSize maxNodeSize then s.leave c .queueNsizeInvalid
  else s.intLock c (.wantGuard .queueCreate)

def osSemCreate (null : Bool) : InitSt :=
  if null then s.leave c .semPtrNull else s.intLock c (.wantGuard .semCreateCb)

def prtSemCreate (count : Nat) (null : Bool) : InitSt :=
  if osSemCountMax<count then s.leave c .semOverflow else s.osSemCreate c null

def prtSemDelete (maxSem sem : Nat) : InitSt :=
  if maxSem ≤ sem then s.leave c .semInvalid else s.intLock c (.wantSem sem)

def call (maxSem : Nat) (x : InitCall) : InitSt :=
  let s := s.setCore c fun x => {x with entry:=x.intOff}
  match x with
  | .queueCreate nodeNum maxNodeSize null => s.prtQueueCreate c nodeNum maxNodeSize null
  | .semCreate count null => s.prtSemCreate c count null
  | .semMutexCreate null => s.osSemCreate c null
  | .semDelete sem => s.prtSemDelete c maxSem sem

def freeQueue (maxQueue : Nat) : Option Nat := (List.range maxQueue).find? fun q => !s.queUsed q

/-- `PRT_QueueCreate` with the guard held. Its failing exit restores interrupts only. -/
def queueCreateEnd (maxQueue : Nat) (memOk : Bool) : InitSt :=
  match s.freeQueue maxQueue with
  | none => (s.intRestore c).leave c .queueCbUnavailable
  | some q =>
    if memOk then
      (({s with queUsed:=update s.queUsed q true}.guardUnlock).intRestore c).leave c .ok
    else (s.intRestore c).leave c .queueCreateNoMemory

def semCreateEnd : InitSt :=
  match s.unusedSems with
  | [] => (s.guardUnlock.intRestore c).leave c .semAllBusy
  | sem::rest =>
    (({ s with semUsed := update s.semUsed sem true, unusedSems := rest
          }.guardUnlock).intRestore c).leave c .ok

def semDeleteEnd (sem : Nat) : InitSt :=
  (({s with unusedSems:=sem::s.unusedSems}.guardUnlock).intRestore c).leave c .ok

/-- `PRT_SemDelete` with the lock of the semaphore held: `pended` and `holding` tell whether tasks
wait for it, and whether it is a mutex with an owner. -/
def semCheck (sem : Nat) (pended holding : Bool) : InitSt :=
  if s.semUsed sem=false then ((s.semUnlock sem).intRestore c).leave c .semInvalid
  else if pended then ((s.semUnlock sem).intRestore c).leave c .semPended
  else if holding then ((s.semUnlock sem).intRestore c).leave c .semMutexHolding
  else
    ({s with semUsed:=update s.semUsed sem false}.semUnlock sem).setCore c
      fun x => {x with phase:=.wantGuard (.semListAdd sem)}

end InitSt

/-- A core makes a call, changes its mask between calls, gets the lock it spins for, or works under
the lock, where the inputs are the answers it meets. -/
inductive InitEvent where
  | call (x : InitCall)
  | mask (off : Bool)
  | acquire
  | work (memOk pended holding : Bool)
  deriving DecidableEq

namespace InitSt

def May (s : InitSt) (c : Nat) : InitEvent → Prop
  | .call _ | .mask _ => (s.core c).phase=.idle
  | .acquire => (∃ job, (s.core c).phase=.wantGuard job ∧ s.guard=none) ∨
      ∃ sem, (s.core c).phase=.wantSem sem ∧ s.semLock sem=none
  | .work _ _ _ => (∃ job, (s.core c).phase=.inGuard job) ∨ ∃ sem, (s.core c).phase=.inSem sem

def step (maxQueue maxSem : Nat) (s : InitSt) (c : Nat) : InitEvent → InitSt
  | .call x => s.call c maxSem x
  | .mask off => s.setCore c fun x => {x with intOff:=off}
  | .acquire =>
    match (s.core c).phase with
    | .wantGuard job =>
      {s with guard:=some c}.setCore c fun x => {x with phase:=.inGuard job}
    | .wantSem sem =>
      {s with semLock:=update s.semLock sem (some c)}.setCore c
        fun x => {x with phase:=.inSem sem}
    | _ => s
  | .work memOk pended holding =>
    match (s.core c).phase with
    | .inGuard .queueCreate => s.queueCreateEnd c maxQueue memOk
    | .inGuard .semCreateCb => s.semCreateEnd c
    | .inGuard (.semListAdd sem) => s.semDeleteEnd c sem
    | .inSem sem => s.semCheck c sem pended holding
    | _ => s

/-- A queue that is being created gets a control block and memory. -/
def QueueServed (maxQueue : Nat) (s : InitSt) (c : Nat) : InitEvent → Prop
  | .work memOk _ _ => (s.core c).phase=.inGuard .queueCreate →
      (s.freeQueue maxQueue).isSome=true ∧ memOk=true
  | _ => True

end InitSt

def initMachine (maxQueue maxSem : Nat) : Machine InitSt (Nat×InitEvent) where
  start s := s={unusedSems:=List.range maxSem}
  step s i := s.step maxQueue maxSem i.1 i.2

namespace InitSt

/-- The guard is held only by a core that works under it, a call under way has the mask it met, and
every return was right. -/
structure Released (s : InitSt) : Prop where
  held : ∀ c, s.guard=some c ↔ ∃ job, (s.core c).phase=.inGuard job
  saved : ∀ c, (s.core c).phase≠.idle → (s.core c).intSave=(s.core c).entry
  returns : ∀ r∈s.returns, r.restored=true ∧ r.freed=true

variable {s s' : InitSt} {c maxQueue maxSem : Nat} {x : InitCore} {ret : InitRet}

lemma Released.change (h : s.Released) (hcore : s'.core=update s.core c x)
    (hother : ∀ c'≠c, s'.guard=some c' ↔ s.guard=some c')
    (hself : s'.guard=some c ↔ ∃ job, x.phase=.inGuard job)
    (hsaved : x.phase≠.idle → x.intSave=x.entry)
    (hret : ∀ r∈s'.returns, r∈s.returns ∨ (r.restored=true ∧ r.freed=true)) : s'.Released := by
  refine ⟨fun c' => ?_,fun c' hp => ?_,fun r hr => (hret r hr).elim (h.returns r) id⟩
  . rw [hcore]
    by_cases he : c'=c
    . subst he
      rw [update_self]
      exact hself
    rw [update_of_ne he]
    exact (hother c' he).trans (h.held c')
  rw [hcore] at hp ⊢
  by_cases he : c'=c
  . subst he
    rw [update_self] at hp ⊢
    exact hsaved hp
  rw [update_of_ne he] at hp ⊢
  exact h.saved c' hp

lemma Released.not_held (h : s.Released) (hp : ∀ job, (s.core c).phase≠.inGuard job) :
    s.guard≠some c := fun hg => (h.held c).mp hg |>.elim hp

lemma Released.exit (h : s.Released) (hp : (s.core c).phase≠.idle) (hcore : s'.core=s.core)
    (hrets : s'.returns=s.returns) (hg : s'.guard≠some c)
    (hother : ∀ c'≠c, s'.guard=some c' ↔ s.guard=some c') :
    ((s'.intRestore c).leave c ret).Released := by
  have hsave := h.saved c hp
  refine h.change (c:=c) (x:={s.core c with intOff:=(s.core c).intSave, phase:=.idle})
    ?_ hother ?_ (fun hn => absurd rfl hn) fun r hr => ?_
  . simp only [leave,intRestore,setCore,hcore,update_self,update_idem]
  . exact ⟨fun hgc => absurd hgc hg,nofun⟩
  rcases List.mem_cons.mp hr with rfl | hr
  . refine .inr ⟨?_,decide_eq_true hg⟩
    simp only [intRestore,setCore,hcore,update_self,hsave,decide_true]
  exact .inl (hrets ▸ hr)

lemma Released.refuse (h : s.Released) (hp : (s.core c).phase=.idle) :
    ((s.setCore c fun x => {x with entry:=x.intOff}).leave c ret).Released := by
  have hg : s.guard≠some c := h.not_held (by rw [hp]; nofun)
  refine h.change (c:=c) (x:={s.core c with entry:=(s.core c).intOff, phase:=.idle})
    ?_ (fun _ _ => Iff.rfl) ?_ (fun hn => absurd rfl hn) fun r hr => ?_
  . simp only [leave,setCore,update_self,update_idem]
  . exact ⟨fun hgc => absurd hgc hg,nofun⟩
  rcases List.mem_cons.mp hr with rfl | hr
  . refine .inr ⟨?_,decide_eq_true hg⟩
    simp only [setCore,update_self,decide_true]
  exact .inl hr

lemma Released.enter (h : s.Released) (hp : (s.core c).phase=.idle) {phase : InitPhase}
    (hphase : ∀ job, phase≠.inGuard job) :
    ((s.setCore c fun x => {x with entry:=x.intOff}).intLock c phase).Released := by
  have hg : s.guard≠some c := h.not_held (by rw [hp]; nofun)
  refine h.change (c:=c) (x:={ s.core c with
      entry := (s.core c).intOff, intSave := (s.core c).intOff, intOff := true, phase := phase })
    ?_ (fun _ _ => Iff.rfl) ?_ (fun _ => rfl) fun r hr => .inl hr
  . simp only [intLock,setCore,update_self,update_idem]
  exact ⟨fun hgc => absurd hgc hg,fun ⟨job,hj⟩ => absurd hj (hphase job)⟩

lemma Released.call (h : s.Released) (hp : (s.core c).phase=.idle) (x : InitCall) :
    (s.call c maxSem x).Released := by
  cases x with
  | queueCreate nodeNum maxNodeSize null =>
    simp only [InitSt.call,prtQueueCreate]
    split
    . exact h.refuse hp
    split
    . exact h.refuse hp
    split
    . exact h.refuse hp
    exact h.enter hp nofun
  | semCreate count null =>
    simp only [InitSt.call,prtSemCreate,osSemCreate]
    split
    . exact h.refuse hp
    split
    . exact h.refuse hp
    exact h.enter hp nofun
  | semMutexCreate null =>
    simp only [InitSt.call,osSemCreate]
    split
    . exact h.refuse hp
    exact h.enter hp nofun
  | semDelete sem =>
    simp only [InitSt.call,prtSemDelete]
    split
    . exact h.refuse hp
    exact h.enter hp nofun

lemma Released.mask (h : s.Released) (hp : (s.core c).phase=.idle) (off : Bool) :
    (s.setCore c fun x => {x with intOff:=off}).Released := by
  refine h.change (c:=c) rfl (fun _ _ => Iff.rfl) ?_ (fun hn => absurd hp hn) fun _ hr => .inl hr
  exact h.held c

lemma Released.acquire (h : s.Released) (hm : s.May c .acquire) :
    (s.step maxQueue maxSem c .acquire).Released := by
  rcases hm with ⟨job,hp,hg⟩ | ⟨sem,hp,-⟩
  . simp only [step,hp]
    have hsave := h.saved c (by rw [hp]; nofun)
    refine h.change (c:=c) rfl (fun c' hne => ?_) ?_ (fun _ => hsave) fun _ hr => .inl hr
    . rw [hg]
      exact ⟨fun he => absurd (Option.some.inj he).symm hne,nofun⟩
    exact ⟨fun _ => ⟨job,rfl⟩,fun _ => rfl⟩
  simp only [step,hp]
  have hsave := h.saved c (by rw [hp]; nofun)
  refine h.change (c:=c) rfl (fun _ _ => Iff.rfl) ?_ (fun _ => hsave) fun _ hr => .inl hr
  have hg : s.guard≠some c := h.not_held (by rw [hp]; nofun)
  exact ⟨fun hgc => absurd hgc hg,nofun⟩

lemma Released.unlock (h : s.Released) {job : GuardJob} (hp : (s.core c).phase=.inGuard job)
    (hcore : s'.core=s.core) (hrets : s'.returns=s.returns) :
    ((s'.guardUnlock.intRestore c).leave c ret).Released := by
  have hg := (h.held c).mpr ⟨job,hp⟩
  refine h.exit (by rw [hp]; nofun) hcore hrets nofun fun c' hne => ?_
  rw [hg]
  exact ⟨nofun,fun he => absurd (Option.some.inj he).symm hne⟩

lemma Released.semCheck (h : s.Released) {sem : Nat} (hp : (s.core c).phase=.inSem sem)
    (pended holding : Bool) : (s.semCheck c sem pended holding).Released := by
  have hg : s.guard≠some c := h.not_held (by rw [hp]; nofun)
  have hexit {ret : InitRet} : (((s.semUnlock sem).intRestore c).leave c ret).Released :=
    h.exit (by rw [hp]; nofun) rfl rfl hg fun _ _ => Iff.rfl
  have hsave := h.saved c (by rw [hp]; nofun)
  unfold InitSt.semCheck
  split
  . exact hexit
  split
  . exact hexit
  split
  . exact hexit
  refine h.change (c:=c) rfl (fun _ _ => Iff.rfl) ?_ (fun _ => hsave) fun _ hr => .inl hr
  exact ⟨fun hgc => absurd hgc hg,nofun⟩

lemma Released.work (h : s.Released) {memOk pended holding : Bool}
    (hm : s.May c (.work memOk pended holding))
    (hq : s.QueueServed maxQueue c (.work memOk pended holding)) :
    (s.step maxQueue maxSem c (.work memOk pended holding)).Released := by
  rcases hm with ⟨job,hp⟩ | ⟨sem,hp⟩
  . cases job with
    | queueCreate =>
      obtain ⟨hfree,hmem⟩ := hq hp
      obtain ⟨q,hfind⟩ := Option.isSome_iff_exists.mp hfree
      simp only [step,hp,queueCreateEnd,hfind,if_pos hmem]
      exact h.unlock hp rfl rfl
    | semCreateCb =>
      simp only [step,hp,semCreateEnd]
      split
      . exact h.unlock hp rfl rfl
      exact h.unlock hp rfl rfl
    | semListAdd sem =>
      simp only [step,hp,semDeleteEnd]
      exact h.unlock hp rfl rfl
  simp only [step,hp]
  exact h.semCheck hp pended holding

lemma Released.step {e : InitEvent} (h : s.Released) (hm : s.May c e)
    (hq : s.QueueServed maxQueue c e) : (s.step maxQueue maxSem c e).Released := by
  cases e with
  | call x => exact h.call hm x
  | mask off => exact h.mask hm off
  | acquire => exact h.acquire hm
  | work memOk pended holding => exact h.work hm hq

end InitSt

open InitSt

/-- In every run in which a created queue gets a control block and memory, the guard is held only by
a core at work, and calls return with interrupts as they met them; a queue that does not get them
leaves the guard held. -/
theorem init_guard_released {maxQueue maxSem : Nat} {s : InitSt}
    (hr : (initMachine maxQueue maxSem).Reaches
      (fun s i => s.May i.1 i.2 ∧ s.QueueServed maxQueue i.1 i.2) s) :
    s.Released ∧ ∀ c memOk pended holding, s.May c (.work memOk pended holding) →
      ((s.step maxQueue maxSem c (.work memOk pended holding)).Released ↔
        s.QueueServed maxQueue c (.work memOk pended holding)) := by
  have h : s.Released := by
    refine hr.invariant (P:=Released) ?_ fun s i hs hi => hs.step hi.1 hi.2
    rintro s rfl
    exact ⟨fun c => ⟨nofun,fun ⟨_,hj⟩ => nomatch hj⟩,fun _ hn => absurd rfl hn,nofun⟩
  refine ⟨h,fun c memOk pended holding hm => ⟨fun hrel hp => ?_,fun hq => h.work hm hq⟩⟩
  have hg := (h.held c).mpr ⟨_,hp⟩
  simp only [InitSt.step,hp,queueCreateEnd] at hrel
  -- The failing exits leave the guard with a core that is idle.
  have hstuck {ret : InitRet} (hbad : ((s.intRestore c).leave c ret).Released) : False := by
    obtain ⟨job,hj⟩ := (hbad.held c).mp hg
    simp [leave,intRestore,setCore] at hj
  cases hfind : s.freeQueue maxQueue with
  | none =>
    rw [hfind] at hrel
    exact (hstuck hrel).elim
  | some q =>
    rw [hfind] at hrel
    refine ⟨rfl,?_⟩
    by_contra hmem
    simp only [if_neg hmem] at hrel
    exact hstuck hrel

/-- The second creation on core 0 fails and keeps the guard, and core 1 spins for it. -/
def stuckEvents : List (Nat×InitEvent) :=
  [(0,.call (.queueCreate 2 8 false)),(0,.acquire),(0,.work true false false),
   (0,.call (.queueCreate 2 8 false)),(0,.acquire),(0,.work true false false),
   (1,.call (.semCreate 1 false))]

def stuck : InitSt := (initMachine 1 4).run {unusedSems:=List.range 4} stuckEvents

theorem init_guard_stuck : stuck.returns=[⟨0,.queueCbUnavailable,true,false⟩, ⟨0,.ok,true,true⟩] ∧
    stuck.guard=some 0 ∧ (stuck.core 0).phase=.idle ∧
    (stuck.core 1).phase=.wantGuard .semCreateCb := by
  decide +kernel

theorem init_guard_released_created :
    ((initMachine 1 4).run {unusedSems:=List.range 4} (stuckEvents.take 3)).Released := by
  have hrun : (initMachine 1 4).Allowed
      (fun s i => s.May i.1 i.2 ∧ s.QueueServed 1 i.1 i.2) {unusedSems:=List.range 4}
      (stuckEvents.take 3) :=
    ⟨⟨rfl,trivial⟩,⟨.inl ⟨.queueCreate,rfl,rfl⟩,trivial⟩,
      ⟨.inl ⟨.queueCreate,rfl⟩,fun _ => ⟨rfl,rfl⟩⟩,trivial⟩
  exact (init_guard_released (.run (.start rfl) _ hrun)).1

end UniProton
