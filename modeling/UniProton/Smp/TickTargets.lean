import UniProton.Framework.Mask
import UniProton.Timer.Tickless

namespace UniProton

open Framework List

/-- The tick interrupt of the SMP build. A registered check function is given by what it reads: the
nearest ticks of the cores, or for CPU usage `g_ticksPerSample` with `g_cpupNextTick`. Core masks
have 32 bits, and `OsTickConfigInit` refuses a `tickPerSecond` of 0. -/
structure TickCores where
  checkTskDlyTickProcess : Option (Nat → BitVec 64)
  checkSwtmrTickProcess : Option (Nat → BitVec 64)
  checkCpupTickProcess : Option (BitVec 32×BitVec 64)
  cfgPrimaryCore : Nat
  maxNumOfCores : Nat
  maxNumOfCores_le : maxNumOfCores≤32
  tickPerSecond : Nat
  tickPerSecond_ne : tickPerSecond≠0
  slaveTickEnable : Bool
  uniTicks : BitVec 64
  tickNoRespondCnt : Nat → Nat

namespace TickCores

def cpupTskmonCoreId : Nat := 0

variable (s : TickCores) (thisCore core : Nat)

def osTskDlyTargetCheck (nearestTicks : Nat → BitVec 64) : Bool :=
  nearestTicks core≠osTicklessForever ∧ nearestTicks core ≤ s.uniTicks

def osSwtmrTargetCheck (nearestTicks : Nat → BitVec 64) : Bool :=
  nearestTicks core≠osTicklessForever ∧ nearestTicks core ≤ s.uniTicks

def osCpupTargetCheck (ticksPerSample : BitVec 32) (cpupNextTick : BitVec 64) : Bool :=
  0<ticksPerSample ∧ cpupNextTick≠osTicklessForever ∧ cpupNextTick ≤ s.uniTicks

def tskDlyDue : Bool := s.checkTskDlyTickProcess.any (s.osTskDlyTargetCheck core)

def swtmrDue : Bool := s.checkSwtmrTickProcess.any (s.osSwtmrTargetCheck core)

def cpupDue : Bool := s.checkCpupTickProcess.any fun c => s.osCpupTargetCheck c.1 c.2

/-- `none` is a call through a null pointer: core 0 asks the software timers for the sampling. -/
def osTickCoreCheck (coreID : Nat) : Option Bool :=
  let ret := s.tskDlyDue coreID || s.swtmrDue coreID
  if coreID=0 ∧ s.checkCpupTickProcess.isSome then
    if ret then some true
    else match s.checkSwtmrTickProcess with
      | none => none
      | some nearestTicks => some (s.osSwtmrTargetCheck cpupTskmonCoreId nearestTicks)
  else some ret

/-- The cores of the loop of `OsTickTargetCoresGet`. -/
def coreIds : List Nat := List.range' s.cfgPrimaryCore (s.maxNumOfCores-s.cfgPrimaryCore)

def osTickTargetCoresGet : Option (BitVec 32) := collect s.osTickCoreCheck s.coreIds 0

def osTickTailProcActivate : TickCores :=
  if s.tickPerSecond≠0 then
    { s with tickNoRespondCnt :=
        Function.update s.tickNoRespondCnt core (s.tickNoRespondCnt core+1) }
  else s

/-- `OsTickForward`, and `OsTickForwardISR` on every core that the mask triggers. -/
def osTickForward (coreMask : BitVec 32) : TickCores :=
  ((List.range 32).filter fun core => coreMask.getLsbD core).foldl
    (fun s core => s.osTickTailProcActivate core) s

/-- The rest of `PRT_TickISR` once the cores are known. -/
def respond (coreMask : BitVec 32) : TickCores :=
  let thisCoreMask := BitVec.twoPow 32 thisCore
  let own := coreMask &&& thisCoreMask≠0
  let rest := if own then coreMask &&& ~~~ thisCoreMask else coreMask
  let s := if own then s.osTickTailProcActivate thisCore else s
  if rest≠0 ∧ s.slaveTickEnable then s.osTickForward rest else s

def ticked : TickCores := {s with uniTicks:=s.uniTicks+1}

def prtTickISR : Option TickCores := s.ticked.osTickTargetCoresGet.map (s.ticked.respond thisCore)

/-- A core in range for which a registered source has something due. -/
def Due : Prop :=
  core∈s.coreIds ∧ (s.tskDlyDue core ∨ s.swtmrDue core ∨ core=cpupTskmonCoreId ∧ s.cpupDue)

instance : Decidable (s.Due core) := inferInstanceAs (Decidable (_ ∧ _))

variable {s thisCore core} {coreMask : BitVec 32}

lemma osTickCoreCheck_eq (h : core=cpupTskmonCoreId → s.checkCpupTickProcess.isSome=true →
      s.tskDlyDue core=true ∨ s.checkSwtmrTickProcess.isSome=true) :
    s.osTickCoreCheck core=some (s.tskDlyDue core || s.swtmrDue core) := by
  simp only [osTickCoreCheck]
  split
  . rename_i hcpup
    obtain ⟨rfl,hcpup⟩ := hcpup
    split
    . rename_i hret
      rw [hret]
    rename_i hret
    have hdly : s.tskDlyDue 0=false := by
      simp only [Bool.or_eq_true,not_or,Bool.not_eq_true] at hret
      exact hret.1
    cases hsw : s.checkSwtmrTickProcess with
    | none => simp [hsw,hdly] at h; exact absurd hcpup (by simp [h rfl])
    | some nearestTicks => simp [hdly,swtmrDue,hsw,cpupTskmonCoreId]
  rfl

lemma osTickCoreCheck_null (hcpup : s.checkCpupTickProcess.isSome=true)
    (hdly : s.tskDlyDue 0=false) (hsw : s.checkSwtmrTickProcess=none) :
    s.osTickCoreCheck 0=none := by
  simp [osTickCoreCheck,hcpup,hdly,hsw,swtmrDue]

lemma mem_coreIds_lt (h : core∈s.coreIds) : core<32 := by
  have hle := s.maxNumOfCores_le
  simp only [coreIds,mem_range'_1] at h
  omega

lemma osTickTailProcActivate_cnt (s : TickCores) (k core : Nat) :
    (s.osTickTailProcActivate k).tickNoRespondCnt core =
      s.tickNoRespondCnt core + if core=k then 1 else 0 := by
  rw [osTickTailProcActivate,if_pos s.tickPerSecond_ne]
  by_cases h : core=k
  . subst h
    simp
  simp [h]

lemma activated_cnt (l : List Nat) (hl : l.Nodup) (s : TickCores) (core : Nat) :
    (l.foldl (fun s k => s.osTickTailProcActivate k) s).tickNoRespondCnt core =
      s.tickNoRespondCnt core + if core∈l then 1 else 0 := by
  induction l generalizing s with
  | nil => rfl
  | cons k l ih =>
    obtain ⟨hk,hl⟩ := nodup_cons.mp hl
    rw [foldl_cons,ih hl,osTickTailProcActivate_cnt]
    by_cases h : core=k
    . subst h
      simp [hk]
    simp [h]

lemma osTickForward_cnt (s : TickCores) (coreMask : BitVec 32) (core : Nat) :
    (s.osTickForward coreMask).tickNoRespondCnt core =
      s.tickNoRespondCnt core + if coreMask.getLsbD core then 1 else 0 := by
  rw [osTickForward,activated_cnt _ (nodup_range.filter _)]
  congr 2
  simp only [mem_filter,mem_range,eq_iff_iff,and_iff_right_iff_imp]
  exact fun h => BitVec.lt_of_getLsbD h

lemma osTickTailProcActivate_slave (s : TickCores) (k : Nat) :
    (s.osTickTailProcActivate k).slaveTickEnable=s.slaveTickEnable := by
  unfold osTickTailProcActivate
  split <;> rfl

lemma forwarded_cnt (s : TickCores) (rest : BitVec 32) (core : Nat) :
    (if rest≠0 ∧ s.slaveTickEnable then s.osTickForward rest else s).tickNoRespondCnt core =
      s.tickNoRespondCnt core + if rest.getLsbD core ∧ s.slaveTickEnable then 1 else 0 := by
  by_cases hs : s.slaveTickEnable=true
  . by_cases hrest : rest=0
    . simp [hrest]
    rw [if_pos ⟨hrest,hs⟩,osTickForward_cnt]
    simp [hs]
  simp [hs]

lemma respond_cnt (s : TickCores) (thisCore : Nat) (coreMask : BitVec 32) (core : Nat) :
    (s.respond thisCore coreMask).tickNoRespondCnt core=s.tickNoRespondCnt core +
      if coreMask.getLsbD core ∧ (core=thisCore ∨ s.slaveTickEnable) then 1 else 0 := by
  unfold respond
  rw [forwarded_cnt]
  by_cases hown : coreMask &&& BitVec.twoPow 32 thisCore≠0
  . have hbit := (and_twoPow_ne_zero coreMask thisCore).mp hown
    rw [if_pos hown,if_pos hown,osTickTailProcActivate_cnt,osTickTailProcActivate_slave,
      getLsbD_clear_twoPow]
    by_cases hcore : core=thisCore
    . subst hcore
      simp [hbit]
    have hne : thisCore≠core := fun h => hcore h.symm
    simp [hcore,hne]
  have hbit : coreMask.getLsbD thisCore=false := by
    rw [← Bool.not_eq_true,← and_twoPow_ne_zero]
    exact hown
  rw [if_neg hown,if_neg hown]
  by_cases hcore : core=thisCore
  . subst hcore
    simp [hbit]
  simp [hcore]

/-- Slave cores take ticks or have nothing due, and a registered sampling is due only with a delay
or a registered timer of core 0. -/
def Heard (s : TickCores) (thisCore : Nat) : Prop :=
  (s.slaveTickEnable=true ∨ ∀ core, s.ticked.Due core → core=thisCore) ∧
  (0∈s.coreIds → s.checkCpupTickProcess.isSome=true → s.ticked.tskDlyDue 0=true ∨
    s.checkSwtmrTickProcess.isSome=true ∧ (s.ticked.cpupDue=true → s.ticked.swtmrDue 0=true))

lemma targets_eq (h : 0∈s.coreIds → s.checkCpupTickProcess.isSome=true →
      s.tskDlyDue 0=true ∨ s.checkSwtmrTickProcess.isSome=true) :
    ∃ coreMask, s.osTickTargetCoresGet=some coreMask ∧ ∀ core, coreMask.getLsbD core=true ↔
      core∈s.coreIds ∧ (s.tskDlyDue core=true ∨ s.swtmrDue core=true) := by
  have htest : ∀ core∈s.coreIds, core<32 ∧
      s.osTickCoreCheck core=some (s.tskDlyDue core || s.swtmrDue core) := by
    intro core hcore
    refine ⟨mem_coreIds_lt hcore,osTickCoreCheck_eq ?_⟩
    rintro rfl
    exact h hcore
  obtain ⟨coreMask,hmask,hbits⟩ := getLsbD_collect s.coreIds htest 0
  exact ⟨coreMask,hmask,fun core => by rw [hbits]; simp⟩

lemma cpupDue_isSome (h : s.cpupDue=true) : s.checkCpupTickProcess.isSome=true := by
  unfold cpupDue at h
  cases hc : s.checkCpupTickProcess with
  | none => simp [hc] at h
  | some c => rfl

lemma counted_iff (n : Nat) (p q : Prop) [Decidable p] [Decidable q] :
    ((n + if p then 1 else 0)=n + if q then 1 else 0) ↔ (p ↔ q) := by
  by_cases hp : p <;> by_cases hq : q <;> simp [hp,hq]

/-- A tick is counted on exactly the cores that have something due, and no null pointer is called,
exactly under this condition. -/
theorem tick_isr_iff (s : TickCores) (thisCore : Nat) :
    (∃ s', s.prtTickISR thisCore=some s' ∧ ∀ core, s'.tickNoRespondCnt core =
      s.tickNoRespondCnt core + if s.ticked.Due core then 1 else 0) ↔ s.Heard thisCore := by
  constructor
  . rintro ⟨s',hisr,hcnt⟩
    obtain ⟨coreMask,hmask,rfl⟩ := Option.map_eq_some_iff.mp hisr
    have hnull : 0∈s.ticked.coreIds → s.ticked.checkCpupTickProcess.isSome=true →
        s.ticked.tskDlyDue 0=true ∨ s.ticked.checkSwtmrTickProcess.isSome=true := by
      intro hmem hcpup
      by_contra hcon
      simp only [not_or,Bool.not_eq_true,Option.isSome_eq_false_iff,
        Option.isNone_iff_eq_none] at hcon
      have hnone := osTickCoreCheck_null hcpup hcon.1 hcon.2
      rw [osTickTargetCoresGet,collect_none hmem hnone] at hmask
      cases hmask
    obtain ⟨coreMask',hmask',hbits⟩ := targets_eq hnull
    rw [hmask] at hmask'
    cases hmask'
    have hdue (core : Nat) := (counted_iff (s.tickNoRespondCnt core) _ _).mp
      ((respond_cnt s.ticked thisCore coreMask core).symm.trans (hcnt core))
    constructor
    . by_cases hs : s.slaveTickEnable=true
      . exact .inl hs
      exact .inr fun core h => ((hdue core).mpr h).2.resolve_right hs
    intro hmem hcpup
    rcases hnull hmem hcpup with hdly | hsw
    . exact .inl hdly
    by_cases hdly : s.ticked.tskDlyDue 0=true
    . exact .inl hdly
    refine .inr ⟨hsw,fun h => ?_⟩
    have hbit := ((hdue 0).mpr ⟨hmem,.inr (.inr ⟨rfl,h⟩)⟩).1
    exact ((hbits 0).mp hbit).2.resolve_left hdly
  rintro ⟨hslave,hcpup⟩
  obtain ⟨coreMask,hmask,hbits⟩ := targets_eq (s:=s.ticked)
    fun hmem hc => (hcpup hmem hc).imp_right And.left
  refine ⟨s.ticked.respond thisCore coreMask,by rw [prtTickISR,hmask]; rfl,?_⟩
  intro core
  rw [respond_cnt]
  refine (counted_iff _ _ _).mpr ⟨fun ⟨hbit,_⟩ => ?_,fun hdue => ⟨?_,?_⟩⟩
  . obtain ⟨hmem,hdue⟩ := (hbits core).mp hbit
    exact ⟨hmem,hdue.imp_right .inl⟩
  . obtain ⟨hmem,hdly | hsw | ⟨rfl,hc⟩⟩ := hdue
    . exact (hbits core).mpr ⟨hmem,.inl hdly⟩
    . exact (hbits core).mpr ⟨hmem,.inr hsw⟩
    -- core 0 has the sampling due: the condition gives another source that is due too
    have hsome : s.ticked.checkCpupTickProcess.isSome=true := cpupDue_isSome hc
    exact (hbits _).mpr ⟨hmem,(hcpup hmem hsome).imp_right fun h => h.2 hc⟩
  rcases hslave with hs | hown
  . exact .inr hs
  exact .inl (hown core hdue)

def fourCores (tskDly swtmr : Option (Nat → BitVec 64)) (cpup : Option (BitVec 32×BitVec 64))
    (uniTicks : BitVec 64) : TickCores :=
  ⟨tskDly,swtmr,cpup,0,4,by decide,1000,by decide,true,uniTicks,fun _ => 0⟩

theorem tick_isr_delays : ∃ s', (fourCores (some fun core => if core%2=1 then 5 else 9)
        (some fun _ => osTicklessForever) (some (10,10)) 4).prtTickISR 0=some s' ∧
      s'.tickNoRespondCnt 0=0 ∧ s'.tickNoRespondCnt 1=1 ∧ s'.tickNoRespondCnt 2=0 ∧
      s'.tickNoRespondCnt 3=1 := by
  obtain ⟨s',hs,hcnt⟩ := (tick_isr_iff (fourCores (some fun core => if core%2=1 then 5 else 9)
    (some fun _ => osTicklessForever) (some (10,10)) 4) 0).mpr
    ⟨.inl rfl,fun _ _ => .inr ⟨rfl,by decide +kernel⟩⟩
  exact ⟨s',hs,(hcnt 0).trans (by decide +kernel),(hcnt 1).trans (by decide +kernel),
    (hcnt 2).trans (by decide +kernel),(hcnt 3).trans (by decide +kernel)⟩

/-- The sampling is due at tick 10. With software timers registered no core counts the tick; without
them the null pointer is called. -/
theorem tick_isr_sampling :
    (fourCores none (some fun _ => osTicklessForever) (some (10,10)) 9).ticked.Due 0 ∧
    (∃ s', (fourCores none (some fun _ => osTicklessForever) (some (10,10)) 9).prtTickISR 0 =
      some s' ∧ s'.tickNoRespondCnt 0=0) ∧
    (fourCores none none (some (10,10)) 9).prtTickISR 0=none := by
  refine ⟨by decide +kernel,⟨_,rfl,by decide +kernel⟩,by decide +kernel⟩

end TickCores

end UniProton
