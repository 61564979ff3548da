import UniProton.Smp.Scan
import UniProton.Timer.Swtmr

namespace UniProton

open Framework Function List

/-- `struct TagSwTmrCtrl` with the core that has the timer. -/
structure SmpTmrCtrl extends SwTmrCtrl where
  coreID : Nat
  deriving DecidableEq

/-- `g_swtmrCbArray`, `g_tmrFreeList` and the `g_tmrSortLink` of each core. `outLink` is the chain
of expired timers that the scan of a core has cut off and not yet been through. -/
structure SmpTmrs where
  cb : Nat → SmpTmrCtrl
  freeList : List Nat
  sortLink : Nat → List Nat
  nearestTicks : Nat → Nat
  outLink : Nat → List Nat
  uniTicks : Nat

namespace SmpTmrs

variable (c : TmrCfg) (t : SmpTmrs)

def init : SmpTmrs where
  cb _ := ⟨⟨.free,.loop,0,0,0,0,0,0,0,.user 0,0⟩,0⟩
  freeList := List.range c.maxNum
  sortLink _ := []
  nearestTicks _ := Smp.osTicklessForever
  outLink _ := []
  uniTicks := 0

def modCb (i : Nat) (f : SmpTmrCtrl → SmpTmrCtrl) : SmpTmrs :=
  {t with cb:=update t.cb i (f (t.cb i))}

def setLink (core : Nat) (l : List Nat) : SmpTmrs := {t with sortLink:=update t.sortLink core l}

def firstTick (cb : Nat → SmpTmrCtrl) : List Nat → Nat
  | [] => Smp.osTicklessForever
  | i::_ => (cb i).expectedTick

def osSwtmrNearestTicksRefresh (core : Nat) : SmpTmrs :=
  { t with nearestTicks :=
      update t.nearestTicks core (firstTick t.cb (t.sortLink core)) }

/-- The timer goes in front of the first one that is to expire later. -/
def osSwTmrStart (i : Nat) (interval : BitVec 32) : SmpTmrs :=
  let tick := (interval.toNat+t.uniTicks)%2^64
  let t := t.modCb i fun s => {s with expectedTick:=tick, state:=.running}
  let core := (t.cb i).coreID
  let pos := (t.sortLink core).findIdx fun temp => tick<(t.cb temp).expectedTick
  t.setLink core (insertAt pos i (t.sortLink core))

def osSwTmrGetRemain (i : Nat) : BitVec 32 :=
  if (t.cb i).expectedTick≤t.uniTicks then 0
  else BitVec.ofNat 32 ((t.cb i).expectedTick-t.uniTicks)

def osSwTmrGetRemainTick (i : Nat) : BitVec 32 :=
  match (t.cb i).state with
  | .created => (t.cb i).idxRollNum
  | .expired _ => 0
  | _ => t.osSwTmrGetRemain i

def osSwTmrStop (i : Nat) (reckonOff : Bool) : SmpTmrs :=
  let core := (t.cb i).coreID
  let idxRollNum := if reckonOff then (t.cb i).idxRollNum else t.osSwTmrGetRemainTick i
  (t.modCb i fun s => {s with idxRollNum:=idxRollNum, state:=.created}).setLink core
    ((t.sortLink core).erase i)

def osSwTmrDelete (i : Nat) : SmpTmrs :=
  {t.modCb i fun s => {s with state:=.free} with freeList:=i::t.freeList}

def osSwTmrStartTimer (i : Nat) : TmrErrno×SmpTmrs :=
  if c.maxNum ≤ i then (.handleInvalid,t)
  else match (t.cb i).state with
    | .free => (.notCreated,t)
    | .expired _ => (.ok,t.modCb i fun s => {s with state:=.expired .preRunning})
    | .running => (.ok,t)
    | .created =>
      let n := SwTmrs.startCount (t.cb i).toSwTmrCtrl
      let t := (t.modCb i fun s => {s with idxRollNum:=n}).osSwTmrStart i n
      (.ok,t.osSwtmrNearestTicksRefresh (t.cb i).coreID)

def osSwTmrStopTimer (i : Nat) : TmrErrno×SmpTmrs :=
  if c.maxNum ≤ i then (.handleInvalid,t)
  else match (t.cb i).state with
    | .free => (.notCreated,t)
    | .expired _ => (.ok,t.modCb i fun s => {s with state:=.expired .preCreated})
    | .created => (.unstart,t)
    | .running =>
      let t := t.osSwTmrStop i false
      (.ok,t.osSwtmrNearestTicksRefresh (t.cb i).coreID)

def osSwTmrRestartTimer (i : Nat) : TmrErrno×SmpTmrs :=
  if c.maxNum ≤ i then (.handleInvalid,t)
  else match (t.cb i).state with
    | .free => (.notCreated,t)
    | .expired _ => (.ok,t.modCb i fun s => {s with state:=.expired .preRunning})
    | .running =>
      let t := (t.osSwTmrStop i true).osSwTmrStart i (t.cb i).interval
      (.ok,t.osSwtmrNearestTicksRefresh (t.cb i).coreID)
    | .created =>
      let t := t.osSwTmrStart i (t.cb i).interval
      (.ok,t.osSwtmrNearestTicksRefresh (t.cb i).coreID)

/-- The cache that is refreshed is the first of the array, whatever core had the timer. -/
def osSwTmrDeleteTimer (i : Nat) : TmrErrno×SmpTmrs :=
  if c.maxNum ≤ i then (.handleInvalid,t)
  else match (t.cb i).state with
    | .free => (.notCreated,t)
    | .expired _ => (.ok,t.modCb i fun s => {s with state:=.expired .preFree})
    | .running => (.ok,((t.osSwTmrStop i true).osSwTmrDelete i).osSwtmrNearestTicksRefresh 0)
    | .created => (.ok,(t.osSwTmrDelete i).osSwtmrNearestTicksRefresh 0)

def osSwTmrCreateTimerCbInit (core i : Nat) (p : TimerCreatePara) (mode : TmrMode)
    (callBackFunc : TmrProcFunc) (interval : BitVec 32) : SmpTmrs :=
  t.modCb i fun s => {s with
    handler := callBackFunc, mode := mode, interval := interval, idxRollNum := interval
    overrun := 0, arg1 := p.arg1, arg2 := p.arg2, arg3 := p.arg3, arg4 := p.arg4
    state := .created, coreID := core}

def prtTimerCreate (core : Nat) (p : TimerCreatePara) : TmrErrno×Nat×SmpTmrs :=
  if p.interval=0 then (.intervalInvalid,0,t)
  else match p.mode, p.callBackFunc, t.freeList with
    | none, _, _ => (.modeInvalid,0,t)
    | some mode, some f, i::l =>
      if SwTmrs.osSwTmrCreateTimerParaChk c p=.ok then
        (.ok,i,{t with freeList:=l}.osSwTmrCreateTimerCbInit core i p mode f
          (BitVec.ofNat 32 (c.tickPerSecond*p.interval.toNat/1000)))
      else (SwTmrs.osSwTmrCreateTimerParaChk c p,0,t)
    | some _, _, _ =>
      if SwTmrs.osSwTmrCreateTimerParaChk c p=.ok then (.maxSize,0,t)
      else (SwTmrs.osSwTmrCreateTimerParaChk c p,0,t)

def osSwtmrProc (i : Nat) : SmpTmrs :=
  match (t.cb i).state with
  | .expired .preRunning => t.osSwTmrStart i (t.cb i).interval
  | .expired .preCreated =>
    t.modCb i fun s => {s with idxRollNum:=0, overrun:=0, state:=.created}
  | .expired .preFree => t.osSwTmrDelete i
  | _ => match (t.cb i).mode with
    | .loop => (t.modCb i fun s => {s with overrun:=0}).osSwTmrStart i (t.cb i).interval
    | .once => t.modCb i fun s => {s with overrun:=0, idxRollNum:=0, state:=.created}

/-- The loop of `OsSwTmrAttrScan`: the timers in front whose tick has come expire. -/
def attrScanLoop (uniTicks : Nat) (cb : Nat → SmpTmrCtrl) :
    List Nat → (Nat → SmpTmrCtrl)×List Nat×List Nat
  | [] => (cb,[],[])
  | i::l =>
    if uniTicks<(cb i).expectedTick then (cb,[],i::l)
    else
      let r := attrScanLoop uniTicks
        (update cb i {cb i with state:=.expired .default}) l
      (r.1,i::r.2.1,r.2.2)

/-- `OsSwTmrAttrScan` up to the first handler. -/
def osSwTmrAttrScan (core : Nat) : SmpTmrs :=
  match t.sortLink core with
  | [] => t
  | l =>
    let r := attrScanLoop t.uniTicks t.cb l
    { t.setLink core r.2.2 with
      cb := r.1, outLink := update t.outLink core r.2.1 }.osSwtmrNearestTicksRefresh core

/-- The rest of a round of `OsSwTmrScanProcess`, when the handler of its timer has returned. -/
def scanRound (core : Nat) : SmpTmrs :=
  match t.outLink core with
  | [] => t
  | i::l =>
    ({t with outLink:=update t.outLink core l}.osSwtmrProc i).osSwtmrNearestTicksRefresh core

end SmpTmrs

/-- The handler of the first timer of a chain runs between the inputs `scan` and `handled` of its
core, and makes whatever calls come in between. -/
inductive SmpTmrInput
  | create (core : Nat) (p : TimerCreatePara)
  | start (i : Nat) | stop (i : Nat) | restart (i : Nat) | delete (i : Nat)
  | ticks (n : Nat)
  | scan (core : Nat)
  | handled (core : Nat)
  deriving DecidableEq

namespace SmpTmrs

variable (c : TmrCfg) (t : SmpTmrs)

/-- A core begins no scan before it is through with the last one. -/
def step : SmpTmrInput → SmpTmrs
  | .create core p => (t.prtTimerCreate c core p).2.2
  | .start i => (t.osSwTmrStartTimer c i).2
  | .stop i => (t.osSwTmrStopTimer c i).2
  | .restart i => (t.osSwTmrRestartTimer c i).2
  | .delete i => (t.osSwTmrDeleteTimer c i).2
  | .ticks n => {t with uniTicks:=n%2^64}
  | .scan core => if t.outLink core=[] then t.osSwTmrAttrScan core else t
  | .handled core => t.scanRound core

def machine : Machine SmpTmrs SmpTmrInput where
  start t := t=init c
  step t := step c t

/-- Each core knows the tick of the first timer in its list. -/
def NearestOk (t : SmpTmrs) : Prop := ∀ core, t.nearestTicks core=firstTick t.cb (t.sortLink core)

/-- The lists a timer can be in. -/
inductive Place where
  | sort (core : Nat)
  | out (core : Nat)
  | free | none
  deriving DecidableEq

/-- Where a timer is, by its state: a running one in the list of its core, an expired one in the
chain that its core is going through. -/
def place (s : SmpTmrCtrl) : Place :=
  match s.state with
  | .running => .sort s.coreID
  | .expired _ => .out s.coreID
  | .free => .free
  | .created => .none

def lists : Place → List Nat
  | .sort core => t.sortLink core
  | .out core => t.outLink core
  | .free => t.freeList
  | .none => []

/-- The timers in the lists belong there, and the timer `o` is in none. -/
structure Stored (o : Option Nat) (t : SmpTmrs) : Prop where
  place : ∀ q, ∀ j∈t.lists q, some j≠o ∧ place (t.cb j)=q
  once : ∀ q, (t.lists q).Nodup

variable {c t} {t' : SmpTmrs} {o o' : Option Nat} {q : Place} {i core : Nat} {n : BitVec 32}
  {f : SmpTmrCtrl → SmpTmrCtrl} {l : List Nat}

lemma modCb_ne (f : SmpTmrCtrl → SmpTmrCtrl) {j : Nat} (h : j≠i) :
    (t.modCb i f).cb j=t.cb j := update_of_ne h _ _

@[simp] lemma modCb_self (f : SmpTmrCtrl → SmpTmrCtrl) : (t.modCb i f).cb i=f (t.cb i) :=
  update_self _ _ _

lemma Stored.set {m : List Nat} (h : t.Stored o) (hl : t'.lists=update t.lists q m)
    (hnd : m.Nodup) (hm : ∀ j∈m, some j≠o' ∧ SmpTmrs.place (t'.cb j)=q)
    (hrest : ∀ q'≠q, ∀ j∈t.lists q', some j≠o' ∧ SmpTmrs.place (t'.cb j)=q') :
    t'.Stored o' := by
  refine ⟨fun q' => ?_,fun q' => ?_⟩
  all_goals
    rw [hl]
    by_cases e : q'=q
  . rw [e,update_self]
    exact hm
  . rw [update_of_ne e]
    exact hrest q' e
  . rw [e,update_self]
    exact hnd
  rw [update_of_ne e]
  exact h.once q'

lemma Stored.congr (h : t.Stored o) (hl : t'.lists=t.lists)
    (hcb : ∀ j, some j≠o → SmpTmrs.place (t'.cb j)=SmpTmrs.place (t.cb j)) : t'.Stored o := by
  refine ⟨fun q j hj => ?_,hl ▸ h.once⟩
  rw [hl] at hj
  obtain ⟨e,hp⟩ := h.place q j hj
  exact ⟨e,(hcb j e).trans hp⟩

lemma Stored.modCb (h : t.Stored (some i)) (f : SmpTmrCtrl → SmpTmrCtrl) :
    (t.modCb i f).Stored (some i) := by
  refine h.congr rfl fun j e => ?_
  rw [modCb_ne f fun he => e (congrArg some he)]

lemma Stored.whole (h : t.Stored o) : t.Stored none :=
  ⟨fun q j hj => ⟨nofun,(h.place q j hj).2⟩,h.once⟩

lemma Stored.apart (h : t.Stored o) (hs : (t.cb i).state=.created) : t.Stored (some i) := by
  refine ⟨fun q j hj => ⟨?_,(h.place q j hj).2⟩,h.once⟩
  rintro ⟨⟩
  have hp := (h.place q i hj).2
  rw [SmpTmrs.place,hs] at hp
  subst hp
  cases hj

lemma Stored.delete (h : t.Stored (some i)) : (t.osSwTmrDelete i).Stored none := by
  have hm := (h.modCb fun s => {s with state:=.free}).whole
  refine hm.set (q:=.free) (m:=i::t.freeList) ?_ ?_ ?_ fun q _ => hm.place q
  . funext q
    cases q <;> rfl
  . exact nodup_cons.mpr ⟨fun hi => (h.place .free i hi).1 rfl,h.once .free⟩
  refine forall_mem_cons.mpr ⟨⟨nofun,?_⟩,hm.place .free⟩
  simp [osSwTmrDelete,SmpTmrs.place]

lemma Stored.remove (h : t.Stored none) (hi : SmpTmrs.place (t.cb i)=q)
    (hl : t'.lists=update t.lists q ((t.lists q).erase i)) (hcb : ∀ j≠i, t'.cb j=t.cb j) :
    t'.Stored (some i) := by
  have hkeep {q' : Place} {j : Nat} (hj : j∈t.lists q') (e : j≠i) :
      some j≠some i ∧ SmpTmrs.place (t'.cb j)=q' := by
    rw [hcb j e]
    exact ⟨fun he => e (Option.some.inj he),(h.place q' j hj).2⟩
  refine h.set hl ((h.once q).erase i) (fun j hj => ?_) fun q' e j hj => hkeep hj ?_
  . obtain ⟨e,hj⟩ := (h.once q).mem_erase_iff.mp hj
    exact hkeep hj e
  rintro rfl
  exact e ((h.place q' j hj).2.symm.trans hi)

lemma osSwTmrStart_self (t : SmpTmrs) (i : Nat) (n : BitVec 32) :
    ((t.osSwTmrStart i n).cb i).state=.running ∧
      ((t.osSwTmrStart i n).cb i).coreID=(t.cb i).coreID := by
  simp [osSwTmrStart,setLink]

lemma osSwTmrStart_ne (t : SmpTmrs) (n : BitVec 32) {j : Nat} (h : j≠i) :
    (t.osSwTmrStart i n).cb j=t.cb j := update_of_ne h _ _

lemma osSwTmrStart_link (t : SmpTmrs) (i : Nat) (n : BitVec 32) :
    ∃ pos, (t.osSwTmrStart i n).sortLink=update t.sortLink (t.cb i).coreID
      (insertAt pos i (t.sortLink (t.cb i).coreID)) := by
  simp only [osSwTmrStart,setLink,modCb_self]
  exact ⟨_,rfl⟩

lemma Stored.start (h : t.Stored (some i)) (n : BitVec 32) : (t.osSwTmrStart i n).Stored none := by
  obtain ⟨hrun,hcore⟩ := t.osSwTmrStart_self i n
  obtain ⟨pos,hlink⟩ := t.osSwTmrStart_link i n
  have hkeep {q : Place} {j : Nat} (hj : j∈t.lists q) :
      some j≠none ∧ SmpTmrs.place ((t.osSwTmrStart i n).cb j)=q := by
    obtain ⟨e,hp⟩ := h.place q j hj
    rw [osSwTmrStart_ne t n fun he => e (congrArg some he)]
    exact ⟨nofun,hp⟩
  refine h.set (q:=.sort (t.cb i).coreID) (m:=insertAt pos i (t.sortLink (t.cb i).coreID))
    ?_ ?_ (fun j hj => ?_) fun q _ j hj => hkeep hj
  . funext q
    cases q with
    | sort core => simp [lists,hlink,update_apply]
    | _ => rfl
  . exact nodup_insertAt (h.once (.sort _)) fun hi => (h.place (.sort _) i hi).1 rfl
  rcases (mem_insertAt _ _ _ _).mp hj with rfl | hj
  . simp [SmpTmrs.place,hrun,hcore]
  exact hkeep (q:=.sort _) hj

lemma Stored.stop (h : t.Stored none) (hs : (t.cb i).state=.running) (reckonOff : Bool) :
    (t.osSwTmrStop i reckonOff).Stored (some i) := by
  refine h.remove (q:=.sort (t.cb i).coreID) ?_ ?_ fun j e => update_of_ne e _ _
  . rw [SmpTmrs.place,hs]
  funext q
  cases q with
  | sort core => simp [lists,osSwTmrStop,setLink,update_apply,SmpTmrs.modCb]
  | _ => rfl

lemma Stored.note (h : t.Stored none) {pre : TmrPre} (hs : (t.cb i).state=.expired pre)
    (pre' : TmrPre) : (t.modCb i fun s => {s with state:=.expired pre'}).Stored none := by
  refine h.congr rfl fun j _ => ?_
  by_cases e : j=i
  . subst e
    simp [SmpTmrs.place,hs]
  rw [modCb_ne _ e]

lemma Stored.pop (h : t.Stored none) (ho : t.outLink core=i::l) :
    {t with outLink:=update t.outLink core l}.Stored (some i) := by
  refine h.remove (h.place (.out core) i ?_).2 ?_ fun _ _ => rfl
  . rw [lists,ho]
    exact mem_cons_self
  funext q
  cases q with
  | out core' => simp [lists,ho,update_apply]
  | _ => rfl

lemma Stored.take (h : t.Stored none) (hf : t.freeList=i::l) :
    {t with freeList:=l}.Stored (some i) := by
  refine h.remove (h.place .free i ?_).2 ?_ fun _ _ => rfl
  . rw [lists,hf]
    exact mem_cons_self
  funext q
  cases q with
  | free => simp [lists,hf]
  | _ => rfl

lemma attrScanLoop_spec (uniTicks : Nat) (cb : Nat → SmpTmrCtrl) (l : List Nat) (h : l.Nodup) :
    (attrScanLoop uniTicks cb l).2.1++(attrScanLoop uniTicks cb l).2.2=l ∧
      ∀ j, (attrScanLoop uniTicks cb l).1 j = if j∈(attrScanLoop uniTicks cb l).2.1 then
        {cb j with state:=.expired .default} else cb j := by
  induction l generalizing cb with
  | nil => simp [attrScanLoop]
  | cons i l ih =>
    obtain ⟨hi,hl⟩ := nodup_cons.mp h
    unfold attrScanLoop
    split
    . simp
    obtain ⟨hcut,hcb⟩ := ih (update cb i {cb i with state:=.expired .default}) hl
    refine ⟨congrArg (i :: ·) hcut,fun j => ?_⟩
    rw [hcb]
    by_cases e : j=i
    . subst e
      have hnot : j∉(attrScanLoop uniTicks
          (update cb j {cb j with state:=.expired .default}) l).2.1 := by
        intro hm
        apply hi
        rw [← hcut]
        exact mem_append_left _ hm
      simp [hnot]
    simp [e]

lemma Stored.scan (h : t.Stored none) : (t.osSwTmrAttrScan core).Stored none := by
  unfold osSwTmrAttrScan
  split
  . exact h
  obtain ⟨hcut,hcb⟩ := attrScanLoop_spec t.uniTicks t.cb (t.sortLink core) (h.once (.sort core))
  generalize attrScanLoop t.uniTicks t.cb (t.sortLink core)=r at hcut hcb
  have hnd : (t.sortLink core).Nodup := h.once (.sort core)
  rw [← hcut] at hnd
  have hin {j : Nat} (hj : j∈r.2.1) : SmpTmrs.place (t.cb j)=.sort core := by
    refine (h.place (.sort core) j ?_).2
    rw [lists,← hcut]
    exact mem_append_left _ hj
  have hlive {j : Nat} (hj : j∉r.2.1) : r.1 j=t.cb j := by
    rw [hcb,if_neg hj]
  -- the lists of the timers that go on, first, and then the chain of those that expire
  have hrest {q : Place} (e : q≠.sort core) {j : Nat} (hj : j∈t.lists q) :
      some j≠none ∧ SmpTmrs.place (r.1 j)=q := by
    have hp := h.place q j hj
    rw [hlive fun hm => e (hp.2.symm.trans (hin hm))]
    exact hp
  have hsort : {t.setLink core r.2.2 with cb:=r.1}.Stored none := by
    refine h.set (q:=.sort core) ?_ hnd.of_append_right (fun j hj => ?_) fun q e j => hrest e
    . funext q
      cases q with
      | sort core' => simp [lists,setLink,update_apply]
      | _ => rfl
    have hj' : j∈t.lists (.sort core) := by
      rw [lists,← hcut]
      exact mem_append_right _ hj
    change _ ∧ SmpTmrs.place (r.1 j)=_
    rw [hlive fun hm => disjoint_of_nodup_append hnd hm hj]
    exact h.place _ j hj'
  refine hsort.set (q:=.out core) ?_ hnd.of_append_left (fun j hj => ⟨nofun,?_⟩)
    fun q _ => hsort.place q
  . funext q
    cases q with
    | out core' => simp [lists,osSwtmrNearestTicksRefresh,setLink,update_apply]
    | _ => rfl
  have hp := hin hj
  change SmpTmrs.place (r.1 j)=_
  simp only [SmpTmrs.place] at hp ⊢
  cases hs : (t.cb j).state <;> simp_all

section Nearest

def NearestBut (core : Nat) (t : SmpTmrs) : Prop :=
  ∀ core'≠core, t.nearestTicks core'=firstTick t.cb (t.sortLink core')

lemma NearestOk.but (h : t.NearestOk) (core : Nat) : t.NearestBut core := fun core' _ => h core'

lemma NearestBut.refresh (h : t.NearestBut core) :
    (t.osSwtmrNearestTicksRefresh core).NearestOk := by
  intro core'
  simp only [osSwtmrNearestTicksRefresh]
  by_cases e : core'=core
  . subst e
    rw [update_self]
  rw [update_of_ne e]
  exact h core' e

lemma firstTick_congr {cb cb' : Nat → SmpTmrCtrl}
    (h : ∀ j∈l, (cb' j).expectedTick=(cb j).expectedTick) : firstTick cb' l=firstTick cb l := by
  cases l with
  | nil => rfl
  | cons i l => exact h i mem_cons_self

lemma NearestBut.modCb (h : t.NearestBut core) (f : SmpTmrCtrl → SmpTmrCtrl)
    (hi : ∀ core'≠core, i∉t.sortLink core') : (t.modCb i f).NearestBut core := by
  intro core' e
  refine (h core' e).trans (Eq.symm ?_)
  apply firstTick_congr
  intro j hj
  rw [modCb_ne]
  rintro rfl
  exact hi core' e hj

lemma NearestBut.setLink (h : t.NearestBut core) (l : List Nat) :
    (t.setLink core l).NearestBut core := by
  intro core' e
  simp only [SmpTmrs.setLink,update_of_ne e]
  exact h core' e

lemma NearestOk.calm (h : t.NearestOk) (hf : (f (t.cb i)).expectedTick=(t.cb i).expectedTick) :
    (t.modCb i f).NearestOk := by
  intro core
  refine (h core).trans (Eq.symm ?_)
  apply firstTick_congr
  intro j _
  by_cases e : j=i
  . subst e
    rw [modCb_self,hf]
  rw [modCb_ne f e]

lemma NearestBut.start (h : t.NearestBut (t.cb i).coreID) (ha : t.Stored (some i)) (n : BitVec 32) :
    (t.osSwTmrStart i n).NearestBut (t.cb i).coreID := by
  have hi : ∀ core'≠(t.cb i).coreID, i∉t.sortLink core' := fun core' _ hm =>
    (ha.place (.sort core') i hm).1 rfl
  have hm := h.modCb (fun s => {s with
    expectedTick := (n.toNat+t.uniTicks)%2^64, state := .running}) hi
  simp only [osSwTmrStart,modCb_self]
  exact hm.setLink _

lemma NearestOk.stop (h : t.NearestOk) (reckonOff : Bool) :
    (t.osSwTmrStop i reckonOff).NearestBut (t.cb i).coreID := by
  refine NearestBut.setLink (NearestOk.but ?_ _) _
  exact h.calm rfl

lemma NearestOk.delete (h : t.NearestOk) : (t.osSwTmrDelete i).NearestOk :=
  h.calm (f:=fun s => {s with state:=.free}) rfl

end Nearest

lemma Stored.refresh (h : t.Stored o) (core : Nat) :
    (t.osSwtmrNearestTicksRefresh core).Stored o := ⟨h.place,h.once⟩

/-- What every step of the SMP timers keeps. -/
structure Good (t : SmpTmrs) : Prop where
  stored : t.Stored none
  nearest : t.NearestOk

lemma Stored.good_start (ha : t.Stored (some i)) (hn : t.NearestBut (t.cb i).coreID) (n : BitVec 32) :
    ((t.osSwTmrStart i n).osSwtmrNearestTicksRefresh ((t.osSwTmrStart i n).cb i).coreID).Good := by
  rw [(t.osSwTmrStart_self i n).2]
  exact ⟨(ha.start n).refresh _,(hn.start ha n).refresh⟩

lemma Good.note (h : t.Good) {pre : TmrPre} (hs : (t.cb i).state=.expired pre)
    (pre' : TmrPre) : (t.modCb i fun s => {s with state:=.expired pre'}).Good :=
  ⟨h.stored.note hs pre',h.nearest.calm rfl⟩

lemma Good.start (h : t.Good) (i : Nat) : (t.osSwTmrStartTimer c i).2.Good := by
  unfold osSwTmrStartTimer
  split
  . exact h
  cases hs : (t.cb i).state with
  | free | running => exact h
  | expired pre => exact h.note hs _
  | created =>
    have ha := (h.stored.apart hs).modCb fun s =>
      {s with idxRollNum:=SwTmrs.startCount (t.cb i).toSwTmrCtrl}
    apply ha.good_start
    exact (h.nearest.calm rfl).but _

lemma Good.stop (h : t.Good) (i : Nat) : (t.osSwTmrStopTimer c i).2.Good := by
  unfold osSwTmrStopTimer
  split
  . exact h
  cases hs : (t.cb i).state with
  | free | created => exact h
  | expired pre => exact h.note hs _
  | running =>
    have hself : ((t.osSwTmrStop i false).cb i).coreID=(t.cb i).coreID := by
      simp [osSwTmrStop,setLink]
    dsimp only
    rw [hself]
    exact ⟨(h.stored.stop hs false).whole.refresh _,(h.nearest.stop false).refresh⟩

lemma Good.restart (h : t.Good) (i : Nat) : (t.osSwTmrRestartTimer c i).2.Good := by
  unfold osSwTmrRestartTimer
  split
  . exact h
  cases hs : (t.cb i).state with
  | free => exact h
  | created => exact (h.stored.apart hs).good_start (h.nearest.but _) _
  | expired pre => exact h.note hs _
  | running =>
    have hself : ((t.osSwTmrStop i true).cb i).coreID=(t.cb i).coreID := by
      simp [osSwTmrStop,setLink]
    apply (h.stored.stop hs true).good_start
    rw [hself]
    exact h.nearest.stop true

lemma Good.create (h : t.Good) (core : Nat) (p : TimerCreatePara) :
    (t.prtTimerCreate c core p).2.2.Good := by
  unfold prtTimerCreate
  split
  . exact h
  split
  . exact h
  . next i l _ _ hl =>
    split
    . have hn : {t with freeList:=l}.NearestOk := h.nearest
      simp only [osSwTmrCreateTimerCbInit]
      exact ⟨((h.stored.take hl).modCb _).whole,hn.calm rfl⟩
    exact h
  split <;> exact h

lemma Good.scan (h : t.Good) : (t.osSwTmrAttrScan core).Good := by
  refine ⟨h.stored.scan,?_⟩
  unfold osSwTmrAttrScan
  split
  . exact h.nearest
  apply NearestBut.refresh
  intro core' e
  have hcb := (attrScanLoop_spec t.uniTicks t.cb (t.sortLink core) (h.stored.once (.sort core))).2
  simp only [setLink,update_of_ne e]
  refine (h.nearest core').trans (Eq.symm ?_)
  apply firstTick_congr
  intro j _
  rw [hcb]
  split <;> rfl

lemma Good.handled (h : t.Good) (core : Nat) : (t.scanRound core).Good := by
  unfold scanRound
  split
  . exact h
  next i l ho =>
  have ha := h.stored.pop ho
  have hcore : (t.cb i).coreID=core := by
    have hp := (h.stored.place (.out core) i (by rw [lists,ho]; exact mem_cons_self)).2
    simp only [place] at hp
    cases hs : (t.cb i).state <;> simp_all
  have hn : {t with outLink:=update t.outLink core l}.NearestOk := h.nearest
  have hstart {t : SmpTmrs} (ha : t.Stored (some i)) (hn : t.NearestOk) (hcore : (t.cb i).coreID=core)
      (n : BitVec 32) : ((t.osSwTmrStart i n).osSwtmrNearestTicksRefresh core).Good := by
    have hg := ha.good_start (hn.but _) n
    rwa [(t.osSwTmrStart_self i n).2,hcore] at hg
  have hquiet {t : SmpTmrs} (hs : t.Stored none) (hn : t.NearestOk) :
      (t.osSwtmrNearestTicksRefresh core).Good := ⟨hs.refresh _,(hn.but core).refresh⟩
  unfold osSwtmrProc
  split
  . exact hstart ha hn hcore _
  . exact hquiet (ha.modCb _).whole (hn.calm rfl)
  . exact hquiet ha.delete hn.delete
  split
  . refine hstart (ha.modCb _) (hn.calm rfl) ?_ _
    rw [modCb_self]
    exact hcore
  exact hquiet (ha.modCb _).whole (hn.calm rfl)

/-- No deletion of a running timer of another core than 0 whose tick its core has cached. -/
def sparesNearest (c : TmrCfg) (t : SmpTmrs) : SmpTmrInput → Prop
  | .delete i => i<c.maxNum → (t.cb i).state=.running → (t.cb i).coreID≠0 →
      ∀ l, t.sortLink (t.cb i).coreID=i::l → firstTick t.cb l=(t.cb i).expectedTick
  | _ => True

lemma stopDelete_same (t : SmpTmrs) (i : Nat) :
    ((t.osSwTmrStop i true).osSwTmrDelete i).nearestTicks=t.nearestTicks ∧
    ((t.osSwTmrStop i true).osSwTmrDelete i).sortLink =
      update t.sortLink (t.cb i).coreID ((t.sortLink (t.cb i).coreID).erase i) ∧
    ∀ l, firstTick ((t.osSwTmrStop i true).osSwTmrDelete i).cb l=firstTick t.cb l := by
  refine ⟨rfl,rfl,fun l => firstTick_congr fun j _ => ?_⟩
  by_cases e : j=i
  . subst e
    simp [osSwTmrDelete,osSwTmrStop,setLink]
  simp [osSwTmrDelete,osSwTmrStop,setLink,modCb_ne _ e]

lemma firstTick_erase {cb : Nat → SmpTmrCtrl}
    (h : ∀ l', l=i::l' → firstTick cb l'=(cb i).expectedTick) :
    firstTick cb (l.erase i)=firstTick cb l := by
  cases l with
  | nil => rfl
  | cons j l =>
    by_cases e : j=i
    . subst e
      rw [erase_cons_head]
      exact h l rfl
    rw [erase_cons_tail (by simpa using e)]
    rfl

lemma Good.delete (h : t.Good) (i : Nat) : (t.osSwTmrDeleteTimer c i).2.Stored none ∧
    ((t.osSwTmrDeleteTimer c i).2.NearestOk ↔ sparesNearest c t (.delete i)) := by
  have htrue (hg : (t.osSwTmrDeleteTimer c i).2.Good) (hs : sparesNearest c t (.delete i)) :
      (t.osSwTmrDeleteTimer c i).2.Stored none ∧
        ((t.osSwTmrDeleteTimer c i).2.NearestOk ↔ sparesNearest c t (.delete i)) :=
    ⟨hg.stored,fun _ => hs,fun _ => hg.nearest⟩
  by_cases hi : c.maxNum ≤ i
  . refine htrue ?_ fun hlt => absurd hlt (Nat.not_lt.mpr hi)
    rw [osSwTmrDeleteTimer,if_pos hi]
    exact h
  cases hs : (t.cb i).state with
  | free =>
    refine htrue ?_ fun _ hr => ?_
    . simp only [osSwTmrDeleteTimer,if_neg hi,hs]
      exact h
    rw [hs] at hr
    cases hr
  | created =>
    refine htrue ?_ fun _ hr => ?_
    . simp only [osSwTmrDeleteTimer,if_neg hi,hs]
      exact ⟨(h.stored.apart hs).delete.refresh 0,(h.nearest.delete.but 0).refresh⟩
    rw [hs] at hr
    cases hr
  | expired pre =>
    refine htrue ?_ fun _ hr => ?_
    . simp only [osSwTmrDeleteTimer,if_neg hi,hs]
      exact h.note hs _
    rw [hs] at hr
    cases hr
  | running =>
    have hdel : (t.osSwTmrDeleteTimer c i).2 =
        ((t.osSwTmrStop i true).osSwTmrDelete i).osSwtmrNearestTicksRefresh 0 := by
      simp only [osSwTmrDeleteTimer,if_neg hi,hs]
    rw [hdel]
    refine ⟨(h.stored.stop hs true).delete.refresh 0,?_⟩
    obtain ⟨hnear,hlink,htick⟩ := t.stopDelete_same i
    constructor
    . intro hn _ _ hc l hl
      have hcore := hn (t.cb i).coreID
      simp only [osSwtmrNearestTicksRefresh,update_of_ne hc,hnear,hlink,
        update_self,htick,hl,erase_cons_head] at hcore
      rw [← hcore,h.nearest,hl]
      rfl
    intro hsp
    apply NearestBut.refresh
    intro core hc
    rw [hnear,hlink,htick,h.nearest]
    by_cases e : core=(t.cb i).coreID
    . subst e
      rw [update_self]
      exact (firstTick_erase (hsp (Nat.lt_of_not_le hi) hs hc)).symm
    rw [update_of_ne e]

lemma Good.step (h : t.Good) (a : SmpTmrInput) :
    (step c t a).Stored none ∧ ((step c t a).NearestOk ↔ sparesNearest c t a) := by
  have hgood {t' : SmpTmrs} (hg : t'.Good) : t'.Stored none ∧ (t'.NearestOk ↔ True) :=
    ⟨hg.stored,iff_true_intro hg.nearest⟩
  cases a with
  | create core p => exact hgood (h.create core p)
  | start i => exact hgood (h.start i)
  | stop i => exact hgood (h.stop i)
  | restart i => exact hgood (h.restart i)
  | delete i => exact h.delete i
  | ticks n => exact hgood ⟨⟨h.stored.place,h.stored.once⟩,h.nearest⟩
  | scan core =>
    simp only [SmpTmrs.step]
    split
    . exact hgood h.scan
    exact hgood h
  | handled core => exact hgood (h.handled core)

end SmpTmrs

end UniProton
