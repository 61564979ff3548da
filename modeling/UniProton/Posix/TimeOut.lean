import UniProton.Posix.RealTime

namespace UniProton.Posix

/-- `OsTimeSpec2Tick` at `rate` ticks per second. -/
def osTimeSpec2Tick (rate : Nat) (tp : Timespec) : Nat :=
  let nsPerTick := 10^9/rate
  let ns := (tp.ns%2^64).toNat
  let tickCnt := ns/nsPerTick
  let tickCnt := if 0<ns-tickCnt*nsPerTick then tickCnt+1 else tickCnt
  if 2^32-1<tickCnt then 2^32-1 else tickCnt

/-- The ticks that `nanosleep` gives to `PRT_TaskDelay`; `none` if it returns `EINVAL`. -/
def nanosleep (rate : Nat) (rqtp : Timespec) : Option Nat :=
  let nsPerTick := 10^9/rate
  if rqtp.osTimeCheckSpec=false then none
  else
    let tick := (((rqtp.ns%2^64).toNat+nsPerTick-1)%2^64/nsPerTick+1)%2^64
    if 2^32-1≤tick then none else some tick

/-- The errors of `OsTimeOut2Ticks`. -/
inductive TimeError where
  | einval | etimedout deriving DecidableEq

def osTimeOut2Ticks (rate : Nat) (curTime time : Timespec) : Except TimeError Nat :=
  if time.tvNsec<0 ∨ osSysNsPerSecond≤time.tvNsec ∨ time.tvSec<0 ∨ 2^31-1<time.tvSec then
    .error .einval
  else
    let sec := time.tvSec-curTime.tvSec
    if wrap64 (sec*osSysNsPerSecond+(time.tvNsec-curTime.tvNsec))≤0 then .error .etimedout
    else
      let timeOut :=
        if curTime.tvNsec<time.tvNsec then
          sec*rate+(((time.tvNsec-curTime.tvNsec)*rate-1)/osSysNsPerSecond+1)
        else sec*rate-(curTime.tvNsec-time.tvNsec)*rate/osSysNsPerSecond
      let timeOut := ((timeOut+1)%2^64).toNat
      .ok (if 2^32-1≤timeOut then 2^32-1 else timeOut)

/-- `k` ticks take at least `ns` nanoseconds, or there is no larger count than `k`. -/
def Spans (rate : Nat) (ns : Int) (most k : Nat) : Prop := k=most ∨ rate*ns≤k*osSysNsPerSecond

/-- What is asked of the conversion of the interval `tp` and of the deadline `time`. -/
structure Converts (rate : Nat) (tp curTime time : Timespec) : Prop where
  spec : Spans rate tp.ns (2^32-1) (osTimeSpec2Tick rate tp)
  sleep : ∀ k∈nanosleep rate tp, Spans rate tp.ns (2^32-1) k
  past : osTimeOut2Ticks rate curTime time=.error .etimedout ↔ time.ns≤curTime.ns
  rest : ∀ k, osTimeOut2Ticks rate curTime time=.ok k →
    k≠2^32-1 ∧ Spans rate (time.ns-curTime.ns) (2^32-2) k

/-- The interval in nanoseconds keeps below 64 bits, or what is left of it there makes the largest
count and is too long for `nanosleep`. -/
def Fits (rate : Nat) (tp : Timespec) : Prop :=
  tp.ns+(10^9/rate : Nat)<2^64 ∨ (2^32-2)*(10^9/rate : Nat)<tp.ns%2^64 ∧
    tp.ns%2^64+(10^9/rate : Nat)≤2^64 ∧ tp.ns%2^64≠2^64-1

variable {rate k : Nat} {ns : Int} {tp curTime time : Timespec}

lemma Spans.eq_most (h : Spans rate ns (2^32-1) k) (hrate : 0<rate) (hk : k<2^32)
    (hns : 2^64-10^9≤ns) : k=2^32-1 := by
  rcases h with h | h
  . exact h
  have hle : 1*ns≤rate*ns := Int.mul_le_mul_of_nonneg_right (by omega) (by omega)
  simp only [osSysNsPerSecond] at h
  omega

/-- A tick is counted as at most its length. -/
lemma spans_of_le {most n : Nat} (h : n≤k*(10^9/rate)) : Spans rate n most k := by
  have hle := calc
    rate*n≤rate*(k*(10^9/rate)) := Nat.mul_le_mul_left _ h
    _ = k*(rate*(10^9/rate)) := Nat.mul_left_comm ..
    _ ≤ k*10^9 := Nat.mul_le_mul_left _ (Nat.mul_div_le ..)
  have hcast : ((rate*n : Nat) : Int)≤(k*1000000000 : Nat) := Int.ofNat_le.mpr hle
  exact .inr (by rwa [Int.natCast_mul,Int.natCast_mul] at hcast)

lemma spans_min {n : Nat} (h : n≤k*(10^9/rate)) :
    Spans rate n (2^32-1) (if 2^32-1<k then 2^32-1 else k) := by
  split
  . exact .inl rfl
  . exact spans_of_le h

lemma le_ceil {n d : Nat} (hd : 0<d) : n≤(n+d-1)/d*d := by
  have hdiv := Nat.div_add_mod' (n+d-1) d
  have hmod := Nat.mod_lt (n+d-1) hd
  omega

lemma timeSpec2Tick_lt : osTimeSpec2Tick rate tp<2^32 := by
  simp only [osTimeSpec2Tick]
  split <;> split <;> omega

lemma timeSpec2Tick_spans (h0 : 0≤tp.ns) (h : tp.ns<2^64) (hrate : 0<10^9/rate) :
    Spans rate tp.ns (2^32-1) (osTimeSpec2Tick rate tp) := by
  obtain ⟨n,hn⟩ := Int.eq_ofNat_of_zero_le h0
  rw [osTimeSpec2Tick,hn,Int.emod_eq_of_lt (by omega) (by omega)]
  apply spans_min
  dsimp only [Int.toNat_natCast]
  have hdiv := Nat.div_add_mod' n (10^9/rate)
  have hmod := Nat.mod_lt n hrate
  split
  . rw [Nat.add_one_mul]
    omega
  . omega

lemma timeSpec2Tick_most_iff (hrate : 0<10^9/rate) : osTimeSpec2Tick rate tp=2^32-1 ↔
    (2^32-2)*(10^9/rate : Nat)<tp.ns%2^64 := by
  obtain ⟨n,hn⟩ := Int.eq_ofNat_of_zero_le (Int.emod_nonneg tp.ns (b:=2^64) (by decide))
  simp only [osTimeSpec2Tick,hn,Int.toNat_natCast]
  generalize 10^9/rate=d at *
  have hdiv := Nat.div_add_mod' n d
  have hmod := Nat.mod_lt n hrate
  have hfar := Nat.le_div_iff_mul_le (x:=2^32-1) (y:=n) hrate
  have hnear := Nat.div_lt_iff_lt_mul (x:=n) (y:=2^32-2) hrate
  generalize n/d=q at *
  -- a remainder makes the largest count of `2^32-2` whole ticks
  rcases Nat.lt_trichotomy q (2^32-2) with hq | rfl | hq
  . have hlt := hnear.mp hq
    split <;> split <;> omega
  . split <;> split <;> omega
  . have hle := hfar.mp hq
    split <;> split <;> omega

lemma sleepTicks_most_iff {n d : Nat} (hd : 0<d) (hlen : d≤10^9) (hn : n<2^64)
    (hfar : (2^32-2)*d<n) :
    2^32-1≤((n+d-1)%2^64/d+1)%2^64 ↔ n+d≤2^64 ∧ n≠2^64-1 := by
  rcases Nat.lt_or_ge (2^64) (n+d) with hwrap | hfit
  . have hzero : (n+d-1)%2^64/d=0 := Nat.div_eq_of_lt (by omega)
    rw [hzero]
    omega
  rw [Nat.mod_eq_of_lt (by omega : n+d-1<2^64)]
  have hq : 2^32-2≤(n+d-1)/d := (Nat.le_div_iff_mul_le hd).mpr (by omega)
  have hle := Nat.div_le_self (n+d-1) d
  by_cases hlast : n=2^64-1
  . obtain rfl : d=1 := by omega
    subst hlast
    norm_num
  rcases Nat.lt_or_ge 1 d with h1 | h1
  . have hhalf := Nat.div_lt_self (n:=n+d-1) (by omega) h1
    omega
  . omega

/-- A far interval is refused unless the rounding wraps. -/
lemma nanosleep_none_iff (hrate : 0<10^9/rate) (htp : tp.osTimeCheckSpec=true)
    (hfar : (2^32-2)*(10^9/rate : Nat)<tp.ns%2^64) : nanosleep rate tp=none ↔
      tp.ns%2^64+(10^9/rate : Nat)≤2^64 ∧ tp.ns%2^64≠2^64-1 := by
  have hlt := Int.emod_lt_of_pos tp.ns (b:=2^64) (by decide)
  obtain ⟨n,hn⟩ := Int.eq_ofNat_of_zero_le (Int.emod_nonneg tp.ns (b:=2^64) (by decide))
  have hiff := sleepTicks_most_iff (n:=n) hrate (Nat.div_le_self ..) (by omega) (by omega)
  simp only [nanosleep,htp,hn,Int.toNat_natCast]
  generalize 10^9/rate=d at *
  simp only [Bool.true_eq_false,if_false]
  split <;> simp <;> omega

lemma nanosleep_lt (h : k∈nanosleep rate tp) : k<2^32-1 := by
  simp only [nanosleep] at h
  split at h
  . cases h
  split at h
  . cases h
  cases h
  omega

lemma nanosleep_spans (h0 : 0≤tp.ns) (h : tp.ns+(10^9/rate : Nat)<2^64) (hrate : 0<10^9/rate)
    (hk : k∈nanosleep rate tp) : Spans rate tp.ns (2^32-1) k := by
  obtain ⟨n,hn⟩ := Int.eq_ofNat_of_zero_le h0
  simp only [nanosleep] at hk
  split at hk
  . cases hk
  rw [hn,Int.emod_eq_of_lt (by omega) (by omega),Int.toNat_natCast,
    Nat.mod_eq_of_lt (b:=2^64) (a:=n+_-1) (by omega)] at hk
  have hle := Nat.div_le_self (n+10^9/rate-1) (10^9/rate)
  rw [Nat.mod_eq_of_lt (b:=2^64) (by omega)] at hk
  split at hk
  . cases hk
  cases hk
  rw [hn]
  apply spans_of_le
  exact Nat.le_trans (le_ceil hrate) (Nat.mul_le_mul_right _ (Nat.le_succ _))

/-- The ticks of the seconds and of the nanoseconds make the ticks of the time left, rounded up. -/
lemma timeOut_eq {sec nsec : Int} (h0 : 0<rate) (hrate : rate≤10^9)
    (hpos : 0<sec*osSysNsPerSecond+nsec) (hsec : sec≤2^31) (hlo : -10^9<nsec) (hhi : nsec<10^9) :
    ((if 0<nsec then sec*rate+((nsec*rate-1)/osSysNsPerSecond+1)
      else sec*rate-(-nsec)*rate/osSysNsPerSecond)+1)%2^64 =
      (rate*(sec*osSysNsPerSecond+nsec)-1)/osSysNsPerSecond+2 := by
  simp only [osSysNsPerSecond] at *
  have hX : rate*(sec*1000000000+nsec)=sec*rate*1000000000+nsec*rate := by grind
  have hX0 : 0<rate*(sec*1000000000+nsec) := Int.mul_pos (by omega) hpos
  have hp : sec*rate≤2^31*10^9 := Int.mul_le_mul hsec (by omega) (by omega) (by decide)
  have hq : nsec*rate≤10^9*10^9 := Int.mul_le_mul (by omega) (by omega) (by omega) (by decide)
  rw [hX] at hX0 ⊢
  rw [Int.neg_mul]
  split
  . omega
  . omega

lemma timeOut2Ticks_eq (h0 : 0<rate) (hrate : rate≤10^9) (hcur : curTime.Normal)
    (hsec : 0≤curTime.tvSec ∧ curTime.tvSec≤2^31)
    (h : osTimeOut2Ticks rate curTime time≠.error .einval) :
    osTimeOut2Ticks rate curTime time = if time.ns≤curTime.ns then .error .etimedout
      else
        let timeOut := ((rate*(time.ns-curTime.ns)-1)/osSysNsPerSecond+2).toNat
        .ok (if 2^32-1≤timeOut then 2^32-1 else timeOut) := by
  rw [osTimeOut2Ticks] at h ⊢
  split at h
  . cases h rfl
  next hin =>
  obtain ⟨hn0,hn1⟩ := hcur
  rw [if_neg hin]
  have hns : (time.tvSec-curTime.tvSec)*osSysNsPerSecond+(time.tvNsec-curTime.tvNsec) =
      time.ns-curTime.ns := by
    simp only [Timespec.ns,Int.sub_mul]
    omega
  simp only [osSysNsPerSecond] at hin hn1
  have hwrap : wrap64 (time.ns-curTime.ns)=time.ns-curTime.ns := by
    simp only [wrap64,Timespec.ns,osSysNsPerSecond]
    omega
  dsimp only
  rw [hns,hwrap]
  by_cases hle : time.ns≤curTime.ns
  . rw [if_pos hle]
    exact if_pos (by omega)
  rw [if_neg hle,if_neg (by omega),← hns,
    ← timeOut_eq h0 hrate (by omega) (by omega) (by omega) (by omega),Int.neg_sub]
  simp only [Int.sub_pos]

lemma fits_iff (hrate : 0<10^9/rate) (htp : tp.osTimeCheckSpec=true) : Fits rate tp ↔
    tp.ns+(10^9/rate : Nat)<2^64 ∨ osTimeSpec2Tick rate tp=2^32-1 ∧ nanosleep rate tp=none := by
  rw [timeSpec2Tick_most_iff hrate]
  refine or_congr_right (and_congr_right fun hfar => ?_)
  exact (nanosleep_none_iff hrate htp hfar).symm

/-- The counts are long enough exactly if the interval fits, and if the deadline is near enough for a
count below `OS_WAIT_FOREVER`. -/
theorem time_out_ticks_iff (h0 : 0<rate) (hrate : rate≤10^9) (htp : tp.osTimeCheckSpec=true)
    (hcur : curTime.Normal) (hsec : 0≤curTime.tvSec ∧ curTime.tvSec≤2^31)
    (htime : osTimeOut2Ticks rate curTime time≠.error .einval) :
    Converts rate tp curTime time ↔
      Fits rate tp ∧ rate*(time.ns-curTime.ns)≤(2^32-3)*osSysNsPerSecond := by
  have htick : 0<10^9/rate := Nat.div_pos hrate h0
  have hlen : 10^9/rate≤10^9 := Nat.div_le_self ..
  have hns : 0≤tp.ns := by
    simp [Timespec.osTimeCheckSpec] at htp
    simp only [Timespec.ns,osSysNsPerSecond]
    omega
  have heq := timeOut2Ticks_eq h0 hrate hcur hsec htime
  simp only [osSysNsPerSecond] at heq ⊢
  rw [fits_iff htick htp]
  constructor
  . intro h
    constructor
    . rcases Nat.lt_or_ge (tp.ns+(10^9/rate : Nat)).toNat (2^64) with hlt | hge
      . exact .inl (by omega)
      refine .inr ⟨h.spec.eq_most h0 timeSpec2Tick_lt (by omega),?_⟩
      cases hk : nanosleep rate tp with
      | none => rfl
      | some k =>
        have hmax := (h.sleep k hk).eq_most h0 (by have := nanosleep_lt hk; omega) (by omega)
        have := nanosleep_lt hk
        omega
    . apply Int.not_lt.mp
      intro hgt
      have hlate : ¬time.ns≤curTime.ns := fun hle => by
        have := Int.mul_nonpos_of_nonneg_of_nonpos (Int.natCast_nonneg rate)
          (Int.sub_nonpos_of_le hle)
        omega
      rw [if_neg hlate] at heq
      cases (h.rest _ heq).1 (if_pos (by omega))
  . rintro ⟨hwrap,hnear⟩
    constructor
    . rcases hwrap with hlt | hmax
      . exact timeSpec2Tick_spans hns (by omega) htick
      . exact .inl hmax.1
    . intro k hk
      rcases hwrap with hlt | hmax
      . exact nanosleep_spans hns hlt htick hk
      . cases hmax.2.symm.trans hk
    . rw [heq]
      split <;> simp [*]
    . intro k hk
      rw [heq] at hk
      split at hk
      . cases hk
      next hlate =>
      have hpos : 0<rate*(time.ns-curTime.ns) := Int.mul_pos (by omega) (by omega)
      rw [if_neg (by omega)] at hk
      cases hk
      refine ⟨by omega,.inr ?_⟩
      simp only [osSysNsPerSecond]
      omega

/-- A deadline within the second, and an interval of half a tick. -/
theorem time_out_ticks_near : Converts 1000 ⟨0,500000⟩ ⟨5,900000000⟩ ⟨6,400000000⟩ :=
  (time_out_ticks_iff (by decide) (by decide) (by decide) ⟨by decide,by decide⟩ (by decide)
    (by simp [osTimeOut2Ticks,osSysNsPerSecond,wrap64])).mpr ⟨.inl (by decide),by decide⟩

/-- The product for `2^55` seconds wraps to 0, and a far deadline is answered with
`OS_WAIT_FOREVER`. -/
theorem time_out_ticks_wrap :
    osTimeSpec2Tick 1000 ⟨2^55,0⟩=0 ∧ nanosleep 1000 ⟨2^55,0⟩=some 1 ∧
      osTimeOut2Ticks 1000 ⟨0,0⟩ ⟨2^31-1,0⟩=.ok (2^32-1) ∧
      ¬Converts 1000 ⟨2^55,0⟩ ⟨0,0⟩ ⟨2^31-1,0⟩ :=
  ⟨by decide,by decide,rfl,fun h => (h.rest _ rfl).1 rfl⟩

end UniProton.Posix
