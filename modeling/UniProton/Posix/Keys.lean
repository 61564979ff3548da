import UniProton.Framework.Run

namespace UniProton

open Framework List

def pthreadKeysMax : Nat := 32

/-- The destructor of a key: the caller's, or `OsPthreadDestructor`. -/
abbrev KeyDestor := Option Nat

/-- `tskCb->state` -/
inductive ThreadState where
  | joinable | detached | terminated | exited deriving DecidableEq

/-- Where a call is: at the test of entry `i`, before it marks entry `i` with its destructor, before
the locked part of the deletion, or behind the test of `pthread_setspecific`. -/
inductive KeyPc where
  | idle
  | search (destor : KeyDestor) (i : Nat)
  | mark (destor : KeyDestor) (i : Nat)
  | deleting (key : Nat)
  | setting (key value : Nat)
  deriving DecidableEq

/-- A call of `create` or `delete` is under way. -/
def KeyPc.busy : KeyPc → Bool
  | .idle | .setting _ _ => false
  | _ => true

/-- A destructor call: the key, its destructor and the argument. -/
abbrev DestorCall := Nat×Option KeyDestor×Nat

/-- What happened, with what should have: a key was created while live or not, a creation refused
while all keys were live or not, a thread ended and made calls, a joiner made calls for it. -/
inductive KeyEvent where
  | created (key : Nat) (live : Bool)
  | refused (allLive : Bool)
  | ended (calls due : List DestorCall)
  | late (calls : List DestorCall)
  deriving DecidableEq

/-- `g_pthread_keys_destor` and of each thread its values (0 is `NULL`), its state and the joiners it
knows of; `pending` are those inside `PRT_SemPend`. A key is live when it has an entry, and a control
block without a thread counts as terminated. -/
structure Keys where
  tskMaxNum : Nat
  destor : Nat → Option KeyDestor := fun _ => none
  tsdUsed : Nat → Nat → Bool := fun _ _ => false
  tsd : Nat → Nat → Nat := fun _ _ => 0
  state : Nat → ThreadState := fun _ => .terminated
  joinCount : Nat → Nat := fun _ => 0
  pending : Nat → Nat := fun _ => 0
  pc : Nat → KeyPc := fun _ => .idle
  events : List KeyEvent := []

/-- A thread starts; begins a call or takes its next step; ends by itself or by an asynchronous
`pthread_cancel`; or is joined, with the answer of `PRT_SemPend` to a joiner, or detached. -/
inductive KeyInput where
  | start (t : Nat) (isDetached : Bool)
  | create (c : Nat) (destor : KeyDestor)
  | delete (c : Nat) (key : Nat)
  | setspecific (t key value : Nat)
  | next (c : Nat)
  | exit (t : Nat)
  | cancel (t : Nat)
  | join (t : Nat)
  | joined (t : Nat) (ok : Bool)
  | detach (t : Nat)
  deriving DecidableEq

namespace Keys

variable (s : Keys)

def goto (c : Nat) (p : KeyPc) : Keys := {s with pc:=fun d => if d=c then p else s.pc d}

def setDestor (key : Nat) (d : Option KeyDestor) : Keys :=
  {s with destor:=fun k => if k=key then d else s.destor k}

def setState (t : Nat) (st : ThreadState) : Keys :=
  {s with state:=fun u => if u=t then st else s.state u}

def setJoinCount (t n : Nat) : Keys :=
  {s with joinCount:=fun u => if u=t then n else s.joinCount u}

def record (e : KeyEvent) : Keys := {s with events:=e::s.events}

def alive (t : Nat) : Bool := s.state t=.joinable || s.state t=.detached

def allLive : Bool := (List.range pthreadKeysMax).all fun k => (s.destor k).isSome

def getspecific (t key : Nat) : Nat := if s.tsdUsed t key then s.tsd t key else 0

/-- The locked part of `pthread_key_delete`. Control block `g_tskMaxNum` is handed out too, but the
walk ends before it. -/
def clear (key : Nat) : Keys :=
  { s.setDestor key none with
    tsdUsed := fun t k => if t<s.tskMaxNum ∧ k=key then false else s.tsdUsed t k
    tsd := fun t k => if t<s.tskMaxNum ∧ k=key then 0 else s.tsd t k }

/-- The store of `pthread_setspecific`. -/
def setValue (t key value : Nat) : Keys :=
  {s with
    tsd := fun u k => if u=t ∧ k=key then value else s.tsd u k
    tsdUsed := fun u k => (u=t ∧ k=key : Bool) || s.tsdUsed u k}

def next (c : Nat) : Keys :=
  match s.pc c with
  | .idle => s
  | .search d i =>
    if s.destor i=none then s.goto c (.mark d i)
    else if i+1=pthreadKeysMax then (s.goto c .idle).record (.refused s.allLive)
    else s.goto c (.search d (i+1))
  | .mark d i => ((s.goto c .idle).setDestor i (some d)).record (.created i (s.destor i).isSome)
  | .deleting key => (s.goto c .idle).clear key
  | .setting key value => (s.goto c .idle).setValue c key value

/-- The calls that `OsPthreadRunDestructor` makes. -/
def destorCalls (t : Nat) : List DestorCall :=
  ((List.range pthreadKeysMax).filter (s.tsdUsed t)).map fun k => (k,s.destor k,s.tsd t k)

def osPthreadRunDestructor (t : Nat) : Keys :=
  {s with tsdUsed:=fun u k => u≠t && s.tsdUsed u k}

/-- The calls for the values that are not `NULL` of the keys that are live. -/
def due (t : Nat) : List DestorCall :=
  ((List.range pthreadKeysMax).filter
    fun k => (s.destor k).isSome && s.getspecific t k != 0).map
      fun k => (k,s.destor k,s.getspecific t k)

/-- A thread ends in state `st`, and its destructors run. -/
def finish (t : Nat) (st : ThreadState) : Keys :=
  (((s.osPthreadRunDestructor t).setState t st).goto t .idle).record
    (.ended (s.destorCalls t) (s.due t))

/-- A thread ends with its destructors left to a joiner. -/
def leave (t : Nat) : Keys :=
  ((s.setState t .exited).goto t .idle).record (.ended [] (s.due t))

def pthreadExit (t : Nat) : Keys :=
  if s.state t=.joinable ∧ 0<s.joinCount t then s.leave t
  else s.finish t (if s.state t=.joinable then .exited else .terminated)

/-- `joinCount` is taken down to 0 here, and the joiners take it down once more. -/
def pthreadCancel (t : Nat) : Keys :=
  if s.state t=.detached then s.finish t .terminated
  else if s.joinCount t=0 then s.finish t .exited
  else (s.setJoinCount t 0).leave t

def osPthreadJoinExit (t : Nat) : Keys :=
  if s.state t=.exited ∧ s.joinCount t=0 then
    ((s.osPthreadRunDestructor t).setState t .terminated).record (.late (s.destorCalls t))
  else s

def pthreadJoin (t : Nat) : Keys :=
  if s.state t=.joinable then
    { s.setJoinCount t ((s.joinCount t+1)%2^32) with
      pending := fun u => if u=t then s.pending u+1 else s.pending u }
  else s.osPthreadJoinExit t

def pthreadJoined (t : Nat) (ok : Bool) : Keys :=
  let s := { s.setJoinCount t ((s.joinCount t+2^32-1)%2^32) with
    pending := fun u => if u=t then s.pending u-1 else s.pending u }
  if ok then s.osPthreadJoinExit t else s

def pthreadDetach (t : Nat) : Keys :=
  if s.state t=.joinable then s.setState t .detached else s.osPthreadJoinExit t

def step : KeyInput → Keys
  | .start t isDetached =>
    if s.alive t then s
    else ((s.osPthreadRunDestructor t).setState t
      (if isDetached then .detached else .joinable)).setJoinCount t 0
  | .create c d => if s.alive c ∧ s.pc c=.idle then s.goto c (.search d 0) else s
  | .delete c key =>
    if s.alive c=false ∨ s.pc c≠.idle ∨ pthreadKeysMax≤key ∨ s.destor key=none then s
    else s.goto c (.deleting key)
  | .setspecific t key value =>
    if s.alive t=false ∨ s.pc t≠.idle ∨ pthreadKeysMax≤key ∨ s.destor key=none then s
    else s.goto t (.setting key value)
  | .next c => s.next c
  | .exit t => if s.alive t ∧ s.pc t=.idle then s.pthreadExit t else s
  | .cancel t => if s.alive t then s.pthreadCancel t else s
  | .join t => s.pthreadJoin t
  | .joined t ok => if 0<s.pending t then s.pthreadJoined t ok else s
  | .detach t => s.pthreadDetach t

/-- A thread that ends has not set a value to `NULL`, and has none at all if it is joined. -/
def Ends (t : Nat) : Prop :=
  ∀ k, s.tsdUsed t k → s.tsd t k≠0 ∧ ¬(s.state t=.joinable ∧ 0<s.joinCount t)

/-- Creations and deletions do not overlap, nor does a deletion with the setting of a value or with a
value of the last thread, and threads end as in `Ends`. -/
def Apart : KeyInput → Prop
  | .create _ _ => ∀ d, (s.pc d).busy=false
  | .delete _ key => ∀ d, (s.pc d).busy=false ∧ ∀ v, s.pc d≠.setting key v
  | .setspecific _ key _ => ∀ d, s.pc d≠.deleting key
  | .next c => ∀ key, s.pc c=.deleting key → ∀ t, s.tskMaxNum≤t → s.tsdUsed t key=false
  | .exit t | .cancel t => s.Ends t
  | _ => True

end Keys

/-- A created key was not live, a refusal met all keys live, and an end made the calls due, so that
none is left to a joiner. -/
def KeyEvent.Right : KeyEvent → Prop
  | .created _ live => live=false
  | .refused allLive => allLive=true
  | .ended calls due => calls=due
  | .late calls => calls=[]

namespace Keys

/-- What steps that keep calls apart preserve. -/
structure Inv (s : Keys) : Prop where
  one : ∀ c d, (s.pc c).busy → (s.pc d).busy → c=d
  search : ∀ c d i, s.pc c=.search d i → i<pthreadKeysMax ∧ ∀ j < i, s.destor j≠none
  mark : ∀ c d i, s.pc c=.mark d i → s.destor i=none
  setting : ∀ c key v, s.pc c=.setting key v →
    s.destor key≠none ∧ s.alive c ∧ ∀ d, s.pc d≠.deleting key
  used : ∀ t k, s.tsdUsed t k → s.destor k≠none ∧ s.alive t
  right : ∀ e∈s.events, e.Right

variable {s : Keys} {i : KeyInput} {t : Nat}

lemma Inv.due_eq (h : s.Inv) (hn : ∀ k, s.tsdUsed t k → s.tsd t k≠0) :
    s.destorCalls t=s.due t := by
  have hused (k : Nat) : ((s.destor k).isSome && s.getspecific t k != 0)=s.tsdUsed t k := by
    have hu := h.used t k
    cases htk : s.tsdUsed t k <;> simp_all [getspecific,Option.isSome_iff_ne_none]
  simp only [due,hused,destorCalls]
  apply map_congr_left
  intro k hk
  rw [getspecific,if_pos (mem_filter.mp hk).2]

lemma destorCalls_nil (hn : ∀ k, s.tsdUsed t k=false) : s.destorCalls t=[] := by
  simp [destorCalls,hn]

lemma Inv.allLive (h : s.Inv) {c i : Nat} {d : KeyDestor} (hp : s.pc c=.search d i)
    (hi : s.destor i≠none) (hl : i+1=pthreadKeysMax) : s.allLive=true := by
  have hs := (h.search c d i hp).2
  apply all_eq_true.mpr
  intro k hk
  have hk' := mem_range.mp hk
  apply Option.isSome_iff_ne_none.mpr
  rcases Nat.lt_or_eq_of_le (by omega : k ≤ i) with hlt | rfl
  . exact hs k hlt
  exact hi

/-- A call goes on; a search has found every entry before it taken. -/
lemma Inv.moves (h : s.Inv) {c : Nat} {p : KeyPc} (hp : p.busy → ∀ d≠c, (s.pc d).busy=false)
    (hs : ∀ d i, p=.search d i → i<pthreadKeysMax ∧ ∀ j < i, s.destor j≠none)
    (hm : ∀ d i, p=.mark d i → s.destor i=none)
    (hv : ∀ key v, p=.setting key v → s.destor key≠none ∧ s.alive c ∧ ∀ d, s.pc d≠.deleting key)
    (hd : ∀ key, p=.deleting key → ∀ d v, s.pc d≠.setting key v) : (s.goto c p).Inv := by
  have ⟨hone,hsearch,hmark,hset,hused,hright⟩ := h
  constructor <;> simp only [goto,alive] <;> grind [KeyPc.busy,Keys.alive]

lemma Inv.next (h : s.Inv) {c : Nat} (ha : s.Apart (.next c)) : (s.next c).Inv := by
  have ⟨hone,hsearch,hmark,hset,hused,hright⟩ := h
  simp only [Apart] at ha
  unfold Keys.next
  split
  . exact h
  . rename_i d i hp
    have hbelow := hsearch c d i hp
    have halone : ∀ d≠c, (s.pc d).busy=false := fun d hd =>
      Bool.eq_false_iff.mpr fun hb => hd (hone d c hb (by rw [hp]; rfl))
    split
    . refine h.moves (fun _ => halone) ?_ ?_ ?_ ?_ <;> grind
    split
    . have hidle : (s.goto c .idle).Inv := by
        refine h.moves ?_ ?_ ?_ ?_ ?_ <;> grind [KeyPc.busy]
      refine {hidle with right := fun e he => ?_}
      rcases mem_cons.mp he with rfl | he
      . exact h.allLive hp ‹_› ‹_›
      exact hright e he
    refine h.moves (fun _ => halone) ?_ ?_ ?_ ?_ <;> grind
  . constructor <;> simp only [goto,setDestor,record,alive] <;>
      grind [KeyEvent.Right,KeyPc.busy,Keys.alive]
  . constructor <;> simp only [goto,clear,setDestor,alive] <;> grind [KeyPc.busy,Keys.alive]
  constructor <;> simp only [goto,setValue,alive] <;> grind [KeyPc.busy,Keys.alive]

/-- Threads may end, start and lose values; only the events are left to show. -/
lemma Inv.quieter (h : s.Inv) {s' : Keys} (hd : s'.destor=s.destor)
    (hpc : ∀ d, s'.pc d=s.pc d ∨ s'.pc d=.idle)
    (hal : ∀ u, s.alive u → s'.alive u ∨ s'.pc u=.idle ∧ ∀ k, s'.tsdUsed u k=false)
    (hu : ∀ u k, s'.tsdUsed u k → s.tsdUsed u k) (he : ∀ e∈s'.events, e.Right) : s'.Inv := by
  have ⟨hone,hsearch,hmark,hset,hused,hright⟩ := h
  have hidle : KeyPc.idle.busy=false := rfl
  constructor <;> grind

lemma Inv.finish (h : s.Inv) (hn : s.Ends t) (st : ThreadState) : (s.finish t st).Inv := by
  refine h.quieter rfl ?_ ?_ ?_ ?_
  . intro d
    by_cases hdt : d=t <;> simp [Keys.finish,record,goto,setState,osPthreadRunDestructor,hdt]
  . intro u hu
    by_cases hut : u=t
    . right
      simp [Keys.finish,record,goto,setState,osPthreadRunDestructor,hut]
    . left
      simpa [Keys.finish,record,goto,setState,osPthreadRunDestructor,hut,alive] using hu
  . intro u k hu
    exact (Bool.and_eq_true_iff.mp hu).2
  intro e he
  rcases mem_cons.mp he with rfl | he
  . exact h.due_eq fun k hk => (hn k hk).1
  exact h.right e he

lemma Inv.leave (h : s.Inv) (hn : ∀ k, s.tsdUsed t k=false) : (s.leave t).Inv := by
  refine h.quieter rfl ?_ ?_ ?_ ?_
  . intro d
    by_cases hdt : d=t <;> simp [Keys.leave,record,goto,setState,hdt]
  . intro u hu
    by_cases hut : u=t
    . right
      simp [Keys.leave,record,goto,setState,hut,hn]
    . left
      simpa [Keys.leave,record,goto,setState,hut,alive] using hu
  . exact fun u k hu => hu
  intro e he
  rcases mem_cons.mp he with rfl | he
  . exact (destorCalls_nil hn).symm.trans (h.due_eq fun k hk => by simp [hn] at hk)
  exact h.right e he

lemma Inv.unused (h : s.Inv) (ht : s.alive t=false) (k : Nat) : s.tsdUsed t k=false := by
  by_contra hne
  have hal := (h.used t k (Bool.not_eq_false _ ▸ hne)).2
  rw [ht] at hal
  cases hal

lemma Inv.joinExit (h : s.Inv) (t : Nat) : (s.osPthreadJoinExit t).Inv := by
  unfold osPthreadJoinExit
  split
  . rename_i hst
    have hdead : s.alive t=false := by simp [alive,hst.1]
    refine h.quieter rfl (fun d => .inl rfl) ?_ ?_ ?_
    . intro u hu
      have hut : u≠t := fun hut => by simp [hut,hdead] at hu
      left
      simpa [record,setState,osPthreadRunDestructor,hut,alive] using hu
    . intro u k hu
      exact (Bool.and_eq_true_iff.mp hu).2
    intro e he
    rcases mem_cons.mp he with rfl | he
    . exact destorCalls_nil (h.unused hdead)
    exact h.right e he
  exact h

lemma Inv.counted (h : s.Inv) (n : Nat) (p : Nat → Nat) :
    ({s.setJoinCount t n with pending:=p} : Keys).Inv :=
  h.quieter rfl (fun _ => .inl rfl) (fun _ hu => .inl hu) (fun _ _ hu => hu) h.right

lemma Ends.unused (hn : s.Ends t) (hj : s.state t=.joinable ∧ 0<s.joinCount t) (k : Nat) :
    s.tsdUsed t k=false := by
  by_contra hne
  exact (hn k (Bool.not_eq_false _ ▸ hne)).2 hj

lemma Inv.start (h : s.Inv) (ht : s.alive t=false) (st : ThreadState) :
    (((s.osPthreadRunDestructor t).setState t st).setJoinCount t 0).Inv := by
  refine h.quieter rfl (fun d => .inl rfl) ?_ ?_ ?_
  . intro u hu
    have hut : u≠t := fun hut => by simp [hut,ht] at hu
    left
    simpa [setState,setJoinCount,osPthreadRunDestructor,hut,alive] using hu
  . intro u k hu
    exact (Bool.and_eq_true_iff.mp hu).2
  exact h.right

lemma Inv.step (h : s.Inv) (ha : s.Apart i) : (s.step i).Inv := by
  have ⟨hone,hsearch,hmark,hset,hused,hright⟩ := h
  cases i with
  | start t isDetached =>
    simp only [Keys.step]
    split
    . exact h
    exact h.start (Bool.eq_false_iff.mpr ‹_›) _
  | create c d =>
    simp only [Keys.step]
    split
    . refine h.moves (fun _ d _ => ha d) ?_ ?_ ?_ ?_ <;> grind [pthreadKeysMax]
    exact h
  | delete c key =>
    simp only [Keys.step]
    split
    . exact h
    refine h.moves (fun _ d _ => (ha d).1) ?_ ?_ ?_ ?_ <;> grind [Apart]
  | setspecific t key value =>
    simp only [Keys.step]
    split
    . exact h
    refine h.moves ?_ ?_ ?_ ?_ ?_ <;> grind [Apart,KeyPc.busy]
  | next c => exact h.next ha
  | exit t =>
    simp only [Keys.step,pthreadExit]
    split
    . split
      . exact h.leave (ha.unused ‹_›)
      exact h.finish ha _
    exact h
  | cancel t =>
    simp only [Keys.step,pthreadCancel]
    split
    . rename_i hal
      split
      . exact h.finish ha _
      rename_i hst
      split
      . exact h.finish ha _
      have hjoin : s.state t=.joinable := by simpa [alive,hst] using hal
      exact (h.counted 0 s.pending).leave (ha.unused ⟨hjoin,Nat.pos_of_ne_zero ‹_›⟩)
    exact h
  | join t =>
    simp only [Keys.step,pthreadJoin]
    split
    . exact h.counted _ _
    exact h.joinExit t
  | joined t ok =>
    simp only [Keys.step,pthreadJoined]
    split
    . split
      . exact (h.counted _ _).joinExit t
      exact h.counted _ _
    exact h
  | detach t =>
    simp only [Keys.step,pthreadDetach]
    split
    . rename_i hst
      refine h.quieter rfl (fun _ => .inl rfl) (fun u hu => .inl ?_) (fun _ _ hu => hu) h.right
      by_cases hut : u=t
      . simp [setState,alive,hut]
      simpa [setState,alive,hut] using hu
    exact h.joinExit t

end Keys

open Keys

end UniProton
