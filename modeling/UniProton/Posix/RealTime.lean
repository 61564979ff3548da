import Mathlib

namespace UniProton.Posix

/-- Both fields are signed 64-bit; their sums are reduced by `wrap64` where they can leave it. -/
structure Timespec where
  tvSec : Int
  tvNsec : Int
  deriving DecidableEq

abbrev osSysNsPerSecond : Int := 1000000000

/-- The signed 64-bit value of a sum. -/
def wrap64 (n : Int) : Int := (n+2^63)%2^64-2^63

namespace Timespec

def ns (t : Timespec) : Int := t.tvSec*osSysNsPerSecond+t.tvNsec

def osTimeCheckSpec (t : Timespec) : Bool := !(t.tvSec<0 || t.tvNsec<0 || osSysNsPerSecond≤t.tvNsec)

end Timespec

/-- `OsTimeGetHwTime` when `OsCurCycleGet64` returns `cycle`. -/
def osTimeGetHwTime (systemClock cycle : Nat) : Timespec :=
  let nowNsec : Nat := (cycle/systemClock*10^9%2^64+cycle%systemClock*10^9%2^64/systemClock)%2^64
  ⟨nowNsec/osSysNsPerSecond,nowNsec%osSysNsPerSecond⟩

/-- What `OsTimeSetRealTime` leaves in `g_accDeltaFromSet`. -/
def osTimeSetRealTime (hwTime realTime : Timespec) : Timespec :=
  let nsec := realTime.tvNsec-hwTime.tvNsec
  ⟨wrap64 (realTime.tvSec-hwTime.tvSec-(if nsec<0 then 1 else 0)),
    (nsec+osSysNsPerSecond).tmod osSysNsPerSecond⟩

def osTimeGetRealTime (accDeltaFromSet hwTime : Timespec) : Timespec :=
  let nsec := hwTime.tvNsec+accDeltaFromSet.tvNsec
  ⟨wrap64 (hwTime.tvSec+accDeltaFromSet.tvSec+(if osSysNsPerSecond≤nsec then 1 else 0)),
    nsec.tmod osSysNsPerSecond⟩

/-- The nanoseconds are a part of a second. -/
def Timespec.Normal (t : Timespec) : Prop := 0≤t.tvNsec ∧ t.tvNsec<osSysNsPerSecond

lemma hwTime_normal (clock cycle : Nat) : (osTimeGetHwTime clock cycle).Normal :=
  ⟨Int.emod_nonneg _ (by decide),Int.emod_lt_of_pos _ (by decide)⟩

lemma hwTime_sec (clock cycle : Nat) : 0≤(osTimeGetHwTime clock cycle).tvSec ∧
    (osTimeGetHwTime clock cycle).tvSec<2^62 := by
  simp only [osTimeGetHwTime,osSysNsPerSecond]
  omega

lemma normal_of_check {t : Timespec} (h : t.osTimeCheckSpec=true) : t.Normal := by
  simp [Timespec.osTimeCheckSpec] at h
  exact ⟨h.1.2,h.2⟩

lemma setRealTime_ns {hw t : Timespec} (hh : hw.Normal) (hsec : 0≤hw.tvSec ∧ hw.tvSec<2^62)
    (ht : t.osTimeCheckSpec=true) (hfit : t.tvSec<2^63) :
    (osTimeSetRealTime hw t).Normal ∧ (osTimeSetRealTime hw t).ns=t.ns-hw.ns := by
  have hn := normal_of_check ht
  simp [Timespec.osTimeCheckSpec] at ht
  simp only [Timespec.Normal,osSysNsPerSecond] at hh hn
  simp only [osTimeSetRealTime,Timespec.Normal,Timespec.ns,osSysNsPerSecond,wrap64]
  rw [Int.tmod_eq_emod_of_nonneg (by omega)]
  split <;> omega

/-- The sum is read right exactly if its seconds are a `time_t`. -/
lemma getRealTime_ns {d hw : Timespec} (hd : d.Normal) (hh : hw.Normal)
    (hlo : -2^63*osSysNsPerSecond≤d.ns+hw.ns) : (osTimeGetRealTime d hw).Normal ∧
      ((osTimeGetRealTime d hw).ns=d.ns+hw.ns ↔ d.ns+hw.ns<2^63*osSysNsPerSecond) := by
  simp only [Timespec.Normal,Timespec.ns,osSysNsPerSecond] at hd hh hlo
  simp only [osTimeGetRealTime,Timespec.Normal,Timespec.ns,osSysNsPerSecond,wrap64]
  rw [Int.tmod_eq_emod_of_nonneg (by omega)]
  split <;> omega

/-- The time `ns` can be read: its seconds are below `2^63`. -/
abbrev Readable (ns : Int) : Prop := ns<2^63*osSysNsPerSecond

/-- Behind a set the clock reads the time set plus the hardware time gone by exactly as long as the
seconds of the sum are a `time_t`, and until then never goes back. -/
theorem real_time_runs (clock cycle : Nat) (t : Timespec) (ht : t.osTimeCheckSpec=true)
    (hfit : t.tvSec<2^63) :
    let hw := osTimeGetHwTime clock
    let now := fun c => osTimeGetRealTime (osTimeSetRealTime (hw cycle) t) (hw c)
    let sum := fun c => t.ns+((hw c).ns-(hw cycle).ns)
    (∀ c, (now c).Normal ∧ ((now c).ns=sum c ↔ Readable (sum c))) ∧
      ∀ c c', (hw c).ns≤(hw c').ns → Readable (sum c') → (now c).ns≤(now c').ns := by
  intro hw now sum
  obtain ⟨hset,hdelta⟩ : _ ∧ (osTimeSetRealTime (hw cycle) t).ns=t.ns-(hw cycle).ns :=
    setRealTime_ns (hwTime_normal clock cycle) (hwTime_sec clock cycle) ht hfit
  have hsum (c : Nat) : (osTimeSetRealTime (hw cycle) t).ns+(hw c).ns=sum c := by
    show _=t.ns+((hw c).ns-(hw cycle).ns)
    omega
  have hlo (c : Nat) : -2^63*osSysNsPerSecond ≤ sum c := by
    show _≤t.ns+((osTimeGetHwTime clock c).ns-(osTimeGetHwTime clock cycle).ns)
    have hthen := hwTime_sec clock cycle
    have hnow := hwTime_sec clock c
    have hn := (hwTime_normal clock cycle).2
    have hn' := (hwTime_normal clock c).1
    simp [Timespec.osTimeCheckSpec] at ht
    simp only [Timespec.ns,osSysNsPerSecond] at hn hn' ⊢
    omega
  have hnow (c : Nat) : (now c).Normal ∧ ((now c).ns=sum c ↔ Readable (sum c)) := by
    have hget := getRealTime_ns hset (hwTime_normal clock c) (by rw [hsum]; exact hlo c)
    rwa [hsum] at hget
  refine ⟨hnow,fun c c' hle hread => ?_⟩
  have hbefore : sum c ≤ sum c' := by
    show t.ns+((hw c).ns-(hw cycle).ns)≤t.ns+((hw c').ns-(hw cycle).ns)
    omega
  rw [(hnow c).2.mpr (Int.lt_of_le_of_lt hbefore hread),(hnow c').2.mpr hread]
  exact hbefore

/-- A time before the hardware time is set, half a second of which is borrowed. -/
theorem real_time_runs_behind :
    (osTimeGetRealTime (osTimeSetRealTime (osTimeGetHwTime 10 57) ⟨2,100000000⟩)
      (osTimeGetHwTime 10 66)).ns =
      Timespec.ns ⟨2,100000000⟩+((osTimeGetHwTime 10 66).ns-(osTimeGetHwTime 10 57).ns) :=
  ((real_time_runs 10 57 ⟨2,100000000⟩ (by decide) (by decide)).1 66).2.mpr (by decide)

/-- One second behind the largest `time_t` the clock is back at the smallest. -/
theorem real_time_wraps :
    Timespec.osTimeCheckSpec ⟨2^63-1,0⟩=true ∧
      osTimeGetRealTime (osTimeSetRealTime (osTimeGetHwTime 10 0) ⟨2^63-1,0⟩)
        (osTimeGetHwTime 10 10)=⟨-2^63,0⟩ := by
  decide

end UniProton.Posix
