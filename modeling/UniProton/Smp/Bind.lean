import UniProton.Smp.Yield

namespace UniProton

open Framework Smp Function

/-- What `PRT_TaskCoreBind` returns. -/
inductive BindRet where
  | osOk | tskIdInvalid | tskOperateIdle | tskNotCreated | tskBindCoreInvalid | tskOperationBusy
  | tskBindInHwi | tskBindSelfWithTasklock
  deriving DecidableEq

/-- `g_validAllCoreMask` after boot and `g_numOfCores`. -/
structure BindCfg extends RqCfg where
  validAllCoreMask : BitVec 32
  numOfCores : Nat

/-- What the other cores do while no lock of the caller holds them off. The task being bound is
marked as migrating, so they do not bind or delete it. -/
structure Others (t : Nat) where
  act : RunQs → RunQs
  linked : ∀ s : RunQs, s.Linked → (act s).Linked
  coreID : ∀ s : RunQs, ((act s).tcb t).coreID=(s.tcb t).coreID
  coreAllowedMask : ∀ s : RunQs, ((act s).tcb t).coreAllowedMask=(s.tcb t).coreAllowedMask

/-- The return value, whether `OS_OK` stands for a task that was bound, and the run queues. -/
structure Bound where
  ret : BindRet
  rebound : Bool
  state : RunQs

namespace RunQs

variable (c : BindCfg) (s : RunQs)

def osTskSetCoreAllowed (coreAllowed : BitVec 32) (t : Nat) : RunQs :=
  s.modTcb t fun b => {b with coreAllowedMask:=coreAllowed, nrCoresAllowed:=1}

def tskCoreSet (t coreID : Nat) : RunQs := s.modTcb t fun b => {b with coreID:=coreID}

/-- The task goes to `coreID` unless its core is in the mask. Both ways of binding do this. -/
def place (t coreID : Nat) (coreMask : BitVec 32) : RunQs :=
  let s := s.osTskSetCoreAllowed coreMask t
  if coreMask &&& BitVec.twoPow 32 (s.tcb t).coreID=0 then s.tskCoreSet t coreID else s

def osRunningReadyAdd (t : Nat) : RunQs :=
  let s := s.statusClear t osTskRunning
  if (s.tcb t).tst osTskBlock then s else s.osTskReadyAdd t

/-- `OsContextSave` ends in `OsRunningReadyAdd` and `OsMainSchedule`. -/
def osTskBindSelf (core t coreID : Nat) (coreMask : BitVec 32) (o : Others t) : RunQs :=
  ((o.act ((s.osTskReadyDel c.toRqCfg t).place t coreID coreMask)).osRunningReadyAdd t
    ).osMainSchedule core

def osTskSetAffinitySelf (core t coreID : Nat) (coreMask : BitVec 32) (o : Others t) : Bound :=
  if coreMask &&& BitVec.twoPow 32 core=0 ∧ (s.rq core).uniTaskLock≠0 then
    ⟨.tskBindSelfWithTasklock,false,s⟩
  else ⟨.osOk,true,s.osTskBindSelf c core t coreID coreMask o⟩

/-- The loop that takes the task off its queue; the core of the task is waited for in each pass.
`none` is a wait that has not ended. The flag is `enqReady`. -/
def dequeueLoop (t : Nat) : List (Others t) → RunQs → Bool → Option (RunQs×Bool)
  | os, s, enqReady =>
    if (s.tcb t).tst osTskReady then
      match os with
      | [] => none
      | o::os => dequeueLoop t os (o.act (s.osTskReadyDelSync c.toRqCfg t)) true
    else some (s,enqReady)

def osMoveTaskToReady (core t : Nat) : RunQs :=
  if (s.tcb t).tst osTskBlock then s
  else
    let s := s.osTskReadyAdd t
    if (s.rq core).bgdActive then s.osTskSchedule core else s

/-- The part of `OsTaskSetAffinity` for a task that is not the caller. -/
def bindOther (core t coreID : Nat) (coreMask : BitVec 32) (o : Others t)
    (os : List (Others t)) : Option Bound :=
  (s.dequeueLoop c t os false).map fun (s,enqReady) =>
    let s := o.act (s.place t coreID coreMask)
    ⟨.osOk,true,if enqReady then s.osMoveTaskToReady core t else s⟩

def osTaskSetAffinityCheck (t : Nat) (coreMask : BitVec 32) : Option BindRet :=
  if c.tskMaxNum+c.maxNumOfCores≤t then some .tskIdInvalid
  else if c.tskMaxNum≤t then some .tskOperateIdle
  else if (s.tcb t).taskStatus=0 then some .tskNotCreated
  else if coreMask=0 then some .tskBindCoreInvalid
  else none

/-- `OsTaskSetAffinity` on a core. `pre` is an error of `OsTaskOperaBegin` or of
`OsTryLockTaskOperating`, `o` and `os` are what the other cores do in between. -/
def osTaskSetAffinity (core t : Nat) (coreMask : BitVec 32) (pre : Option BindRet) (o : Others t)
    (os : List (Others t)) : Option Bound :=
  let coreID := osGetRMB coreMask
  let coreMask := coreMask &&& c.validAllCoreMask
  match s.osTaskSetAffinityCheck c t coreMask with
  | some ret => some ⟨ret,false,s⟩
  | none =>
    if (BitVec.twoPow 64 c.numOfCores-1#64) &&& coreMask.setWidth 64=0 then
      some ⟨.osOk,false,s⟩
    else match pre with
      | some ret => some ⟨ret,false,s⟩
      | none =>
        if (s.rq core).intActive ∧ ¬(s.tcb t).tst osTskBlock then some ⟨.tskBindInHwi,false,s⟩
        else if t=(s.rq core).tskCurr then
          some (s.osTskSetAffinitySelf c core t coreID coreMask o)
        else s.bindOther c core t coreID coreMask o os

def prtTaskCoreBind (core t : Nat) (coreMask : BitVec 32) (pre : Option BindRet) (o : Others t)
    (os : List (Others t)) : Option Bound :=
  s.osTaskSetAffinity c core t coreMask pre o os

/-- A task that has been bound as it was asked to. -/
structure BoundTo (t : Nat) (coreMask : BitVec 32) : Prop where
  valid : c.validAllCoreMask.getLsbD (s.tcb t).coreID=true
  asked : coreMask.getLsbD (s.tcb t).coreID=true
  allowed : (s.tcb t).coreAllowedMask=coreMask &&& c.validAllCoreMask
  queued : (∃ prio, t∈s.ready.lists ((s.tcb t).coreID,prio)) ↔ (s.tcb t).tst osTskReady=true

/-- The lists stay in order and the task where it is allowed to run. -/
structure Carries (t : Nat) (s s' : RunQs) : Prop where
  linked : s.Linked → s'.Linked
  coreID : (s'.tcb t).coreID=(s.tcb t).coreID
  coreAllowedMask : (s'.tcb t).coreAllowedMask=(s.tcb t).coreAllowedMask

namespace Carries

variable {c : BindCfg} {s s' s'' : RunQs} {t u core : Nat}

lemma refl (t : Nat) (s : RunQs) : Carries t s s := ⟨id,rfl,rfl⟩

lemma trans (h : Carries t s s') (h' : Carries t s' s'') : Carries t s s'' :=
  ⟨fun hl => h'.linked (h.linked hl),h'.coreID.trans h.coreID,
    h'.coreAllowedMask.trans h.coreAllowedMask⟩

lemma others (o : Others t) (s : RunQs) : Carries t s (o.act s) :=
  ⟨o.linked s,o.coreID s,o.coreAllowedMask s⟩

lemma of_tcb (hl : s.Linked → s'.Linked) {b : Smp.Tcb}
    (htcb : s'.tcb=update s.tcb u {s.tcb u with toTcb:=b}) : Carries t s s' := by
  refine ⟨hl,?_,?_⟩
  all_goals
    rw [htcb]
    by_cases ht : t=u
    . subst ht
      rw [update_self]
    rw [update_of_ne ht]

lemma readyAdd (s : RunQs) (t u : Nat) : Carries t s (s.osTskReadyAdd u) :=
  of_tcb (fun h => h.readyAdd u) (readyAdd_tcb s u)

lemma readyDel (c : RqCfg) (s : RunQs) (t u : Nat) : Carries t s (s.osTskReadyDel c u) :=
  of_tcb (fun h => h.readyDel u) (readyDel_tcb s u)

lemma modRq (f : RunQue → RunQue) : Carries t s (s.modRq core f) :=
  ⟨fun h => h.same rfl fun _ => ⟨rfl,rfl,rfl,rfl⟩,rfl,rfl⟩

lemma readyDelSync (c : RqCfg) (s : RunQs) (t u : Nat) : Carries t s (s.osTskReadyDelSync c u) := by
  rcases readyDelSync_eq c s u with heq | heq
  . rw [heq]
    exact (readyDel c s t u).trans (modRq _)
  rw [heq]
  exact readyDel c s t u

lemma statusSet {mask : BitVec 32} (hm : mask &&& osTskReady=0) :
    Carries t s (s.statusSet u mask) :=
  of_tcb (fun h => h.same rfl fun v => statusSet_placed hm v) rfl

lemma statusClear {mask : BitVec 32} (hm : ~~~ mask &&& osTskReady=osTskReady) :
    Carries t s (s.statusClear u mask) :=
  of_tcb (fun h => h.same rfl fun v => statusClear_placed hm v) rfl

lemma pick (h : s.osPickNextTaskRtSingle core=some s') : Carries t s s' := by
  obtain ⟨task,-,rfl⟩ := Option.map_eq_some_iff.mp h
  have hdrop : Carries t s (s.dropCurr core) := by
    simp only [dropCurr]
    split
    . exact (modRq _).trans (statusClear (by decide))
    exact modRq _
  exact (hdrop.trans (modRq _)).trans (statusSet (by decide))

lemma mainSchedule (s : RunQs) (t core : Nat) : Carries t s (s.osMainSchedule core) := by
  unfold osMainSchedule
  split
  . cases hpick : s.osPickNextTaskRtSingle core with
    | none => exact refl t s
    | some s' => exact pick hpick
  exact refl t s

lemma schedule (s : RunQs) (t core : Nat) : Carries t s (s.osTskSchedule core) := by
  unfold osTskSchedule
  split
  . exact refl t s
  exact mainSchedule s t core

lemma runningReadyAdd (s : RunQs) (t : Nat) : Carries t s (s.osRunningReadyAdd t) := by
  have hclear : Carries t s (s.statusClear t osTskRunning) := statusClear (by decide)
  simp only [osRunningReadyAdd]
  split
  . exact hclear
  exact hclear.trans (readyAdd _ t t)

lemma moveTaskToReady (s : RunQs) (core t : Nat) : Carries t s (s.osMoveTaskToReady core t) := by
  unfold osMoveTaskToReady
  split
  . exact refl t s
  dsimp only
  split
  . exact (readyAdd s t t).trans (schedule _ t core)
  exact readyAdd s t t

end Carries

section Bind

variable {c : BindCfg} {s s' : RunQs} {t core : Nat} {coreMask : BitVec 32}

lemma dequeueLoop_some {os : List (Others t)} {enqReady b : Bool}
    (h : s.dequeueLoop c t os enqReady=some (s',b)) :
    Carries t s s' ∧ (s'.tcb t).tst osTskReady=false := by
  induction os generalizing s enqReady with
  | nil =>
    unfold dequeueLoop at h
    split at h
    . cases h
    rename_i hready
    cases h
    exact ⟨Carries.refl t _,by simpa using hready⟩
  | cons o os ih =>
    unfold dequeueLoop at h
    split at h
    . obtain ⟨hcarries,hready⟩ := ih h
      exact ⟨((Carries.readyDelSync c.toRqCfg s t t).trans (Carries.others o _)).trans hcarries,
        hready⟩
    rename_i hready
    cases h
    exact ⟨Carries.refl t _,by simpa using hready⟩

lemma place_spec (h : s.Linked) (ht : (s.tcb t).isOnRq=false) (coreID : Nat)
    (coreMask : BitVec 32) : (s.place t coreID coreMask).Linked ∧
    ((s.place t coreID coreMask).tcb t).coreAllowedMask=coreMask ∧
    ((s.place t coreID coreMask).tcb t).coreID =
      if coreMask.getLsbD (s.tcb t).coreID then (s.tcb t).coreID else coreID := by
  have hl : (s.osTskSetCoreAllowed coreMask t).Linked := h.modTcb_off ht rfl
  have hoff : ((s.osTskSetCoreAllowed coreMask t).tcb t).isOnRq=false := by
    simp [osTskSetCoreAllowed,ht]
  have hcore : ((s.osTskSetCoreAllowed coreMask t).tcb t).coreID=(s.tcb t).coreID := by
    simp [osTskSetCoreAllowed]
  simp only [place]
  rw [hcore]
  have hbit := and_twoPow_ne_zero coreMask (s.tcb t).coreID
  by_cases hz : coreMask &&& BitVec.twoPow 32 (s.tcb t).coreID=0
  . have hno : ¬coreMask.getLsbD (s.tcb t).coreID=true := fun h => hbit.mpr h hz
    rw [if_pos hz,if_neg hno]
    exact ⟨hl.modTcb_off hoff rfl,by simp [tskCoreSet,osTskSetCoreAllowed],by simp [tskCoreSet]⟩
  rw [if_neg hz,if_pos (hbit.mp hz)]
  exact ⟨hl,by simp [osTskSetCoreAllowed],hcore⟩

lemma bind_placed {pre : Option BindRet} {o : Others t} {os : List (Others t)} {r : Bound}
    (h : s.Linked) (hr : s.prtTaskCoreBind c core t coreMask pre o os=some r)
    (hre : r.rebound=true) : ∃ s', Carries t s s' ∧ (s'.tcb t).isOnRq=false ∧
      Carries t (s'.place t (osGetRMB coreMask) (coreMask &&& c.validAllCoreMask)) r.state := by
  unfold prtTaskCoreBind osTaskSetAffinity at hr
  dsimp only at hr
  split at hr
  . cases hr
    cases hre
  split at hr
  . cases hr
    cases hre
  split at hr
  . cases hr
    cases hre
  split at hr
  . cases hr
    cases hre
  split at hr
  . -- the task binds itself
    unfold osTskSetAffinitySelf at hr
    split at hr
    . cases hr
      cases hre
    cases hr
    refine ⟨s.osTskReadyDel c.toRqCfg t,Carries.readyDel _ s t t,?_,?_⟩
    . rw [readyDel_self]
      rfl
    exact ((Carries.others o _).trans (Carries.runningReadyAdd _ t)).trans
      (Carries.mainSchedule _ t core)
  obtain ⟨⟨s',enqReady⟩,hloop,rfl⟩ := Option.map_eq_some_iff.mp hr
  obtain ⟨hcarries,hready⟩ := dequeueLoop_some hloop
  refine ⟨s',hcarries,?_,?_⟩
  . rw [(hcarries.linked h).ready]
    exact hready
  dsimp only
  split
  . exact (Carries.others o _).trans (Carries.moveTaskToReady _ core t)
  exact Carries.others o _

lemma Linked.queued (h : s.Linked) (t : Nat) :
    (∃ prio, t∈s.ready.lists ((s.tcb t).coreID,prio)) ↔ (s.tcb t).tst osTskReady=true := by
  rw [← h.ready]
  constructor
  . rintro ⟨prio,hmem⟩
    by_contra hoff
    rw [Bool.not_eq_true] at hoff
    exact Links.not_mem_of_loc_none (h.loc_off hoff) _ hmem
  intro hon
  exact ⟨_,h.mem_lists hon⟩

/-- A task that has been bound is where it was asked to be exactly if its core was already in the
mask, or the first core of the mask as it was given is valid. -/
theorem core_bind_iff {pre : Option BindRet} {o : Others t} {os : List (Others t)} {r : Bound}
    (h : s.Linked) (hmask : coreMask &&& c.validAllCoreMask≠0)
    (hr : s.prtTaskCoreBind c core t coreMask pre o os=some r) (hre : r.rebound=true) :
    r.state.BoundTo c t coreMask ↔
      (coreMask &&& c.validAllCoreMask).getLsbD (s.tcb t).coreID=true ∨
        c.validAllCoreMask.getLsbD (osGetRMB coreMask)=true := by
  obtain ⟨s',hbefore,hoff,hafter⟩ := bind_placed h hr hre
  obtain ⟨hl,hallowed,hcore⟩ := place_spec (hbefore.linked h) hoff (osGetRMB coreMask)
    (coreMask &&& c.validAllCoreMask)
  have hid := hafter.coreID
  rw [hcore,hbefore.coreID] at hid
  have hne : coreMask≠0 := fun h0 => hmask (by rw [h0]; simp)
  have hfirst : coreMask.getLsbD (osGetRMB coreMask)=true := by
    rw [osGetRMB_eq]
    exact (trailingOne_spec hne).2.1
  have hqueued := (hafter.linked hl).queued t
  have hmaskAfter := hafter.coreAllowedMask.trans hallowed
  by_cases hin : (coreMask &&& c.validAllCoreMask).getLsbD (s.tcb t).coreID=true
  . rw [if_pos hin] at hid
    have hbits := hin
    rw [BitVec.getLsbD_and,Bool.and_eq_true] at hbits
    exact iff_of_true ⟨by rw [hid]; exact hbits.2,by rw [hid]; exact hbits.1,hmaskAfter,hqueued⟩
      (.inl hin)
  rw [if_neg hin] at hid
  constructor
  . intro hb
    exact .inr (hid ▸ hb.valid)
  rintro (hin' | hvalid)
  . exact absurd hin' hin
  exact ⟨by rw [hid]; exact hvalid,by rw [hid]; exact hfirst,hmaskAfter,hqueued⟩

/-- A core that makes task `u` ready and schedules. -/
def Others.wakes (t u core : Nat) : Others t where
  act s := (s.osTskReadyAdd u).osTskSchedule core
  linked s := ((Carries.readyAdd s t u).trans (Carries.schedule _ t core)).linked
  coreID s := ((Carries.readyAdd s t u).trans (Carries.schedule _ t core)).coreID
  coreAllowedMask s := ((Carries.readyAdd s t u).trans (Carries.schedule _ t core)).coreAllowedMask

def threeOfFour : BindCfg := ⟨⟨4,4,32⟩,0b1110,3⟩

def threeCores : RunQs :=
  let s := init ⟨4,4,32⟩ fun t => ⟨{taskStatus:=osTskInuse},5,if t%2=0 then 2 else 1,0b1110,3⟩
  let s := (s.osTskReadyAdd 0).osTskReadyAdd 1
  (s.osPickNextTaskRtSingle 1).getD s

lemma threeCores_linked : threeCores.Linked := by
  have hnew : Tcb.tst {taskStatus:=osTskInuse} osTskReady=false := by decide
  have hinit : (init ⟨4,4,32⟩ fun t => ⟨{taskStatus:=osTskInuse},5,
      if t%2=0 then 2 else 1,0b1110,3⟩).Queued ⟨4,4,32⟩ :=
    queued_init fun t => ⟨rfl,hnew,(by decide : (5 : Nat)<32)⟩
  have hadded := (hinit.readyAdd 0).readyAdd 1
  simp only [threeCores]
  generalize osTskReadyAdd (osTskReadyAdd _ 0) 1=s at hadded
  cases hpick : s.osPickNextTaskRtSingle 1 with
  | none => exact hadded.toLinked
  | some s' => exact (hadded.pick hpick).toLinked

-- Core 2 wakes task 2, and then task 3 of core 1, while task 1 binds task 0.
theorem core_bind_moves :
    ∃ r, threeCores.prtTaskCoreBind threeOfFour 1 0 0b0010 none (Others.wakes 0 3 2)
        [Others.wakes 0 2 2]=some r ∧ r.state.BoundTo threeOfFour 0 0b0010 ∧
      (r.state.tcb 0).coreID=1 ∧ (r.state.rq 2).tskCurr=2 ∧ r.state.ready.lists (1,5)=[1,3,0] := by
  obtain ⟨r,hr⟩ := Option.isSome_iff_exists.mp
    (by decide +kernel : (threeCores.prtTaskCoreBind threeOfFour 1 0 0b0010 none
      (Others.wakes 0 3 2) [Others.wakes 0 2 2]).isSome=true)
  have hfacts : (threeCores.prtTaskCoreBind threeOfFour 1 0 0b0010 none (Others.wakes 0 3 2)
      [Others.wakes 0 2 2]).map (fun r => (r.rebound,(r.state.tcb 0).coreID,
        (r.state.rq 2).tskCurr,r.state.ready.lists (1,5)))=some (true,1,2,[1,3,0]) := by
    decide +kernel
  simp only [hr,Option.map_some,Option.some.injEq,Prod.mk.injEq] at hfacts
  exact ⟨r,hr,(core_bind_iff threeCores_linked (by decide) hr hfacts.1).mpr
    (.inr (by decide +kernel)),hfacts.2⟩

/-- With core 0 in the mask as well, task 0 goes to core 0, which is not valid. -/
theorem core_bind_invalid : ((0b0011 : BitVec 32) &&& threeOfFour.validAllCoreMask≠0) ∧
    (threeCores.prtTaskCoreBind threeOfFour 1 0 0b0011 none (Others.wakes 0 3 2)
      [Others.wakes 0 2 2]).map (fun r => (r.ret,r.rebound,(r.state.tcb 0).coreID,
        (r.state.tcb 0).coreAllowedMask,r.state.ready.lists (0,5))) =
      some (.osOk,true,0,0b0010,[0]) ∧ threeOfFour.validAllCoreMask.getLsbD 0=false := by
  decide +kernel

end Bind

end RunQs

end UniProton
