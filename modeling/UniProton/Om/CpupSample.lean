import UniProton.Om.Cpup

namespace UniProton.Om

open Framework Function Finset

/-- The slots of `num` tasks under periodic sampling. History: each task's cycles since the last
sample, those before it, and the number of samples. -/
structure CpupSample where
  num : Nat
  tickless : Bool
  ticksPerSample : Nat
  baseValue : Nat
  allTime : Nat → Nat := fun _ => 0
  usage : Nat → Nat := fun _ => 0
  cpuTimeDelTask : Nat := 0
  cpupDelTask : Nat := 0
  tickCount : Nat := 0
  uniTicks : Nat := 0
  cpupNextTick : Nat := 0
  ran : Nat → Nat := fun _ => 0
  last : Nat → Nat := fun _ => 0
  samples : Nat := 0

/-- A task runs for some cycles, or a tick is handled `ticks` ticks after the one before. -/
inductive SampleInput where
  | run (t cycles : Nat)
  | tick (ticks : Nat)
  deriving DecidableEq

def usageLoop (usage : Nat → Nat) : Nat → Nat
  | 0 => 0
  | i+1 => (usageLoop usage i+usage i)%2^16

namespace CpupSample

variable (s : CpupSample)

def osCpupTickCal : CpupSample :=
  {s with
    usage := fun t =>
      let usage := s.allTime t*cpupUseRate%2^64/s.baseValue%2^16
      if cpupUseRate<usage then cpupUseRate else usage
    cpupDelTask := s.cpuTimeDelTask*cpupUseRate%2^64/s.baseValue%2^16
    last := s.ran, ran := fun _ => 0, samples := s.samples+1}

def osCpupTimeClear : CpupSample := {s with allTime:=fun _ => 0, cpuTimeDelTask:=0}

def osCpupIntGet : Nat :=
  let usage := (usageLoop s.usage s.num+s.cpupDelTask)%2^16
  cpupUseRate-if cpupUseRate≤usage then cpupUseRate else usage

def due (ticks : Nat) : Prop :=
  if s.tickless then 0<s.ticksPerSample ∧ s.cpupNextTick ≤ s.uniTicks+ticks
  else s.ticksPerSample≤(s.tickCount+1)%2^32

instance (ticks : Nat) : Decidable (s.due ticks) := inferInstanceAs (Decidable (ite _ _ _))

/-- A tick; only the build without tickless clears the times. -/
def osCpupThreadTickTask (ticks : Nat) : CpupSample :=
  let s' := {s with uniTicks:=s.uniTicks+ticks, tickCount:=(s.tickCount+1)%2^32}
  if s.due ticks then
    if s.tickless then
      {s'.osCpupTickCal with
        cpupNextTick := s'.uniTicks-s'.uniTicks%s.ticksPerSample+s.ticksPerSample}
    else {s'.osCpupTickCal with tickCount:=s'.tickCount-s.ticksPerSample}.osCpupTimeClear
  else s'

def step : SampleInput → CpupSample
  | .run t cycles =>
    {s with
      allTime := update s.allTime t ((s.allTime t+cycles)%2^64)
      ran := update s.ran t (s.ran t+cycles)}
  | .tick ticks => s.osCpupThreadTickTask ticks

def expected (cycles : Nat) : Nat := min cpupUseRate (cpupUseRate*cycles/s.baseValue)

/-- The usages are those of the time between the last two samples, and interrupts have the rest. -/
def Accurate : Prop :=
  (∀ t<s.num, s.usage t=s.expected (s.last t)) ∧
    s.osCpupIntGet=cpupUseRate-∑ t∈Finset.range s.num, s.usage t

/-- What a sample is computed from fits: times are cleared, and no value is cut off. -/
def Fits : SampleInput → Prop
  | .run _ _ => True
  | .tick ticks => s.due ticks → (s.tickless → s.samples=0) ∧
      (∀ t<s.num, cpupUseRate*s.ran t<2^64 ∧ cpupUseRate*s.ran t<2^16*s.baseValue) ∧
      ∑ t∈Finset.range s.num, s.expected (s.ran t)<2^16

end CpupSample

def sampleMachine : Machine CpupSample SampleInput where
  start s := ∃ num tickless tps base count ticks next, 0<tps ∧ 0<base ∧
    s = { num := num, tickless := tickless, ticksPerSample := tps, baseValue := base,
          tickCount := count, uniTicks := ticks, cpupNextTick := next }
  step s x := s.step x

namespace CpupSample

structure Inv (s : CpupSample) : Prop where
  base : 0<s.baseValue
  times : (s.tickless → s.samples=0) → ∀ t, s.allTime t=s.ran t%2^64
  del : s.cpuTimeDelTask=0
  accurate : s.Accurate

variable {s : CpupSample}

lemma usageLoop_eq (f : Nat → Nat) (n : Nat) : usageLoop f n=(∑ t∈range n, f t)%2^16 := by
  induction n with
  | zero => rfl
  | succ n ih => rw [usageLoop,ih,sum_range_succ,Nat.mod_add_mod]

lemma osCpupIntGet_eq (hdel : s.cpupDelTask=0) (hsum : ∑ t∈range s.num, s.usage t<2^16) :
    s.osCpupIntGet=cpupUseRate-∑ t∈range s.num, s.usage t := by
  have hlt : (usageLoop s.usage s.num+s.cpupDelTask)%2^16 = ∑ t∈range s.num, s.usage t := by
    rw [usageLoop_eq,hdel,Nat.add_zero,Nat.mod_mod,Nat.mod_eq_of_lt hsum]
  rw [osCpupIntGet,hlt]
  split <;> omega

lemma Inv.tickCal (h : s.Inv) (hsum : ∑ t∈range s.num, s.expected (s.ran t)<2^16)
    (hfit : ∀ t<s.num, cpupUseRate*s.ran t<2^64 ∧ cpupUseRate*s.ran t<2^16*s.baseValue)
    (hfirst : s.tickless → s.samples=0) : s.osCpupTickCal.Accurate := by
  have husage : ∀ t<s.num, s.osCpupTickCal.usage t=s.expected (s.ran t) := by
    intro t ht
    obtain ⟨h64,h16⟩ := hfit t ht
    have hran : s.ran t<2^64 := by
      unfold cpupUseRate at h64
      omega
    have hquot : cpupUseRate*s.ran t/s.baseValue<2^16 :=
      Nat.div_lt_of_lt_mul (by rwa [Nat.mul_comm s.baseValue])
    rw [expected]
    change (if cpupUseRate<_ then _ else _)=_
    rw [h.times hfirst t,Nat.mod_eq_of_lt hran,Nat.mul_comm,Nat.mod_eq_of_lt h64,
      Nat.mod_eq_of_lt hquot]
    split <;> omega
  refine ⟨husage,osCpupIntGet_eq ?_ ?_⟩
  . change s.cpuTimeDelTask*cpupUseRate%2^64/s.baseValue%2^16=0
    rw [h.del,Nat.zero_mul,Nat.zero_mod,Nat.zero_div,Nat.zero_mod]
  change ∑ t∈range s.num, s.osCpupTickCal.usage t<_
  rw [sum_congr rfl fun t ht => husage t (mem_range.mp ht)]
  exact hsum

lemma Inv.step (h : s.Inv) {x : SampleInput} (hx : s.Fits x) : (s.step x).Inv := by
  cases x with
  | run t cycles =>
    refine ⟨h.base,?_,h.del,h.accurate⟩
    intro hfirst u
    have htimes := h.times hfirst
    by_cases hu : u=t
    . subst hu
      simp only [CpupSample.step,update_self,htimes u,Nat.mod_add_mod]
    simp only [CpupSample.step,update_of_ne hu,htimes u]
  | tick ticks =>
    change (s.osCpupThreadTickTask ticks).Inv
    unfold osCpupThreadTickTask
    split
    . rename_i hdue
      obtain ⟨hfirst,hfit,hsum⟩ := hx hdue
      have hcal := h.tickCal hsum hfit hfirst
      split
      . rename_i htl
        refine ⟨h.base,?_,h.del,hcal⟩
        intro hz
        cases hz htl
      exact ⟨h.base,fun _ _ => (Nat.zero_mod _).symm,rfl,hcal⟩
    exact ⟨h.base,h.times,h.del,h.accurate⟩

end CpupSample

open CpupSample

/-- In every run whose samples fit, the stored usages are always those of the cycles between the last
two samples, and `OsCpupIntGet` returns the rest. -/
theorem cpup_samples_accurate {s : CpupSample} (hr : sampleMachine.Reaches CpupSample.Fits s) :
    s.Accurate := by
  have h : s.Inv := by
    apply hr.invariant
    . rintro s ⟨num,tickless,tps,base,count,ticks,next,htps,hbase,rfl⟩
      refine ⟨hbase,fun _ _ => (Nat.zero_mod _).symm,rfl,?_,?_⟩
      . intro t _
        simp [expected]
      exact osCpupIntGet_eq rfl (by simp)
    intro s x hs hx
    exact hs.step hx
  exact h.accurate

/-- Of 100 cycles, 50 before each of two tickless samples count as 5000, and 656 before a sample of
the other build as 10000. -/
theorem cpup_samples_wrong :
    let s := sampleMachine.run {num:=2, tickless:=true, ticksPerSample:=1, baseValue:=100}
      [.run 0 50,.tick 1,.run 0 50,.tick 1]
    let s' := sampleMachine.run {num:=2, tickless:=false, ticksPerSample:=1, baseValue:=100}
      [.run 0 656,.tick 1]
    s.usage 0=10000 ∧ ¬s.Accurate ∧ s'.usage 0=64 ∧ ¬s'.Accurate := by
  refine ⟨by decide +kernel,fun h => ?_,by decide +kernel,fun h => ?_⟩
  all_goals
    have husage := h.1 0 (by decide)
    revert husage
    decide +kernel

theorem cpup_samples_accurate_two :
    (sampleMachine.run {num:=2, tickless:=false, ticksPerSample:=1, baseValue:=100}
      [.run 0 50,.tick 1,.run 0 30,.tick 1]).Accurate := by
  have hstart : sampleMachine.start
      {num:=2, tickless:=false, ticksPerSample:=1, baseValue:=100} :=
    ⟨2,false,1,100,0,0,0,by decide,by decide,rfl⟩
  refine cpup_samples_accurate (.run (.start hstart) _ ⟨trivial,?_,trivial,?_,trivial⟩)
  all_goals
    exact fun _ => ⟨nofun,by decide +kernel,by decide +kernel⟩

end UniProton.Om
