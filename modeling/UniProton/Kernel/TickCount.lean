import UniProton.Framework.Run

namespace UniProton

open Framework

/-- `enum SleepMode` -/
inductive SleepMode where
  | light | deep | invalid deriving DecidableEq

/-- What the functions that move the tick count answer. -/
inductive TickErrno where
  | ok | adjustValueInvalid | adjustModeInvalid deriving DecidableEq

/-- `g_uniTicks` and `g_ticksOffset`; the second is signed. -/
structure TickCount where
  uniTicks : BitVec 64
  ticksOffset : BitVec 64
  deriving DecidableEq

def high32 (num : BitVec 64) : BitVec 32 := (num >>> 32).setWidth 32

def low32 (num : BitVec 64) : BitVec 32 := num.setWidth 32

/-- The low and the high word of a sum, with the carry made by hand. -/
def osAdd64X (oldLow oldHigh low high : BitVec 32) : BitVec 32×BitVec 32 :=
  (low+oldLow,if BitVec.allOnes 32-oldLow<low then high+(oldHigh+1#32) else high+oldHigh)

def tickSignedMaxValue : BitVec 32 := 0x7fffffff#32

/-- `INT_MIN`; its negation is itself. -/
def s32Lowest : BitVec 32 := 0x80000000#32

namespace TickCount

variable (w : TickCount)

def prtTickGetCount : BitVec 64 := w.uniTicks+w.ticksOffset

def prtTickCountAdjust (tick : BitVec 32) : TickErrno×TickCount :=
  let offsetTmp := w.ticksOffset+tick.signExtend 64
  let tickCountHiTmp := high32 w.uniTicks
  let tickAdjustHi := high32 offsetTmp
  let tickCountHi := (osAdd64X (low32 offsetTmp) tickAdjustHi (low32 w.uniTicks) tickCountHiTmp).2
  if tickSignedMaxValue<tickAdjustHi ∧ tickCountHiTmp≤tickSignedMaxValue ∧
      tickSignedMaxValue<tickCountHi then (.adjustValueInvalid,w)
  else (.ok,{w with ticksOffset:=offsetTmp})

def prtTickCountUpdate (sleepMode : SleepMode) (ticks : BitVec 32) : TickErrno×TickCount :=
  match sleepMode with
  | .light =>
    if ticks.slt 0#32 then
      let deltaTicks := (-ticks).signExtend 64
      if w.uniTicks<deltaTicks then (.adjustValueInvalid,w)
      else (.ok,{w with uniTicks:=w.uniTicks-deltaTicks})
    else (.ok,{w with uniTicks:=w.uniTicks+ticks.signExtend 64})
  | .deep => w.prtTickCountAdjust ticks
  | .invalid => (.adjustModeInvalid,w)

/-- The part of `OsTickDispatcher` that counts. -/
def osTickDispatcher : TickCount := {w with uniTicks:=w.uniTicks+1#64}

def sum : Int := w.uniTicks.toNat+w.ticksOffset.toInt

end TickCount

inductive TickInput where
  | tick
  | adjust (n : BitVec 32)
  | update (sleepMode : SleepMode) (n : BitVec 32)
  deriving DecidableEq

namespace TickCount

variable (w : TickCount)

def act : TickInput → TickErrno×TickCount
  | .tick => (.ok,w.osTickDispatcher)
  | .adjust n => w.prtTickCountAdjust n
  | .update sleepMode n => w.prtTickCountUpdate sleepMode n

def machine : Machine TickCount TickInput where
  start w := w=⟨0,0⟩
  step w x := (w.act x).2

def asked : TickInput → Option (BitVec 32)
  | .adjust n | .update .light n | .update .deep n => some n
  | _ => none

/-- A step as it should be: the count stays a number of ticks, and an adjustment is refused when,
and only when, it would not. -/
structure Sound (x : TickInput) : Prop where
  nonneg : 0≤(w.act x).2.sum
  refused : ∀ n, asked x=some n → ((w.act x).1≠.ok ↔ w.sum+n.toInt<0)
  unchanged : (w.act x).1≠.ok → (w.act x).2=w

/-- Where steps are as they should be. A light sleep looks at `g_uniTicks` alone, and negates the
number in 32 bits. -/
def Covered : TickInput → Prop
  | .adjust n | .update .deep n => w.ticksOffset.toInt+n.toInt<2^63
  | .update .light n =>
    0≤n.toInt ∨
    (w.sum+n.toInt<0 ∧ (w.uniTicks.toNat+n.toInt<0 ∨ n=s32Lowest)) ∨
    (0≤w.sum+n.toInt ∧ 0≤w.uniTicks.toNat+n.toInt ∧ n≠s32Lowest)
  | _ => True

section Words

lemma toNat_high32 (x : BitVec 64) : (high32 x).toNat=x.toNat/2^32 := by
  simp only [high32,BitVec.toNat_setWidth,BitVec.toNat_ushiftRight,Nat.shiftRight_eq_div_pow]
  omega

lemma toNat_low32 (x : BitVec 64) : (low32 x).toNat=x.toNat%2^32 := by simp [low32]

lemma osAdd64X_high (x y : BitVec 64) :
    (osAdd64X (low32 y) (high32 y) (low32 x) (high32 x)).2=high32 (x+y) := by
  have hxl := toNat_low32 x
  have hyl := toNat_low32 y
  have hxh := toNat_high32 x
  have hyh := toNat_high32 y
  have hmax : (BitVec.allOnes 32-low32 y).toNat=2^32-1-(low32 y).toNat := by
    have hle : low32 y≤BitVec.allOnes 32 := by
      rw [BitVec.le_def,BitVec.toNat_allOnes]
      omega
    rw [BitVec.toNat_sub_of_le hle,BitVec.toNat_allOnes]
  apply BitVec.eq_of_toNat_eq
  rw [toNat_high32,BitVec.toNat_add]
  unfold osAdd64X
  by_cases hc : BitVec.allOnes 32-low32 y<low32 x
  . have hc' := BitVec.lt_def.mp hc
    have hone : (1#32).toNat=1 := rfl
    simp only [if_pos hc,BitVec.toNat_add,hone]
    omega
  have hc' : ¬(BitVec.allOnes 32-low32 y).toNat<(low32 x).toNat := hc
  simp only [if_neg hc,BitVec.toNat_add]
  omega

lemma high32_sign (x : BitVec 64) : tickSignedMaxValue<high32 x ↔ 2^63≤x.toNat := by
  have hmax : tickSignedMaxValue.toNat=2^31-1 := rfl
  rw [BitVec.lt_def,toNat_high32,hmax]
  omega

lemma toInt_signExtend (n : BitVec 32) : (n.signExtend 64).toInt=n.toInt :=
  BitVec.toInt_signExtend_of_le (by decide)

end Words

section Moves

variable {w} {n : BitVec 32} (hs : 0≤w.sum) (hu : w.uniTicks.toNat<2^62)

lemma toInt_range (x : BitVec 64) : x.toInt=x.toNat ∧ x.toNat<2^63 ∨
    x.toInt=x.toNat-2^64 ∧ 2^63≤x.toNat := by
  rw [BitVec.toInt_eq_toNat_cond]
  split
  . left
    omega
  right
  omega

lemma n_range (n : BitVec 32) : -2^31≤n.toInt ∧ n.toInt<2^31 := ⟨BitVec.le_toInt n,BitVec.toInt_lt⟩

lemma offset_cases (w : TickCount) (n : BitVec 32) (hlow : -2^63≤w.ticksOffset.toInt+n.toInt) :
    (w.ticksOffset+n.signExtend 64).toInt=w.ticksOffset.toInt+n.toInt ∧
      w.ticksOffset.toInt+n.toInt<2^63 ∨
    (w.ticksOffset+n.signExtend 64).toInt=w.ticksOffset.toInt+n.toInt-2^64 ∧
      2^63≤w.ticksOffset.toInt+n.toInt := by
  have hn := n_range n
  have ho := BitVec.toInt_lt (x:=w.ticksOffset)
  rw [BitVec.toInt_add,toInt_signExtend]
  by_cases hfit : w.ticksOffset.toInt+n.toInt<2^63
  . left
    refine ⟨Int.bmod_eq_of_le (by omega) (by omega),hfit⟩
  right
  refine ⟨?_,by omega⟩
  rw [← Int.sub_bmod_right]
  exact Int.bmod_eq_of_le (by omega) (by omega)

include hs hu

lemma offset_low : -2^63≤w.ticksOffset.toInt+n.toInt := by
  have hn := n_range n
  unfold sum at hs
  omega

omit hs in
lemma adjust_refused_iff : (w.prtTickCountAdjust n).1≠.ok ↔
    w.uniTicks.toNat+(w.ticksOffset+n.signExtend 64).toInt<0 := by
  have hr := toInt_range (w.ticksOffset+n.signExtend 64)
  have hadd : (w.uniTicks+(w.ticksOffset+n.signExtend 64)).toNat =
      (w.uniTicks.toNat+(w.ticksOffset+n.signExtend 64).toNat)%2^64 := BitVec.toNat_add _ _
  have hnot : high32 w.uniTicks≤tickSignedMaxValue ↔ ¬2^63≤w.uniTicks.toNat := by
    rw [← high32_sign,BitVec.not_lt]
  unfold prtTickCountAdjust
  simp only [osAdd64X_high,high32_sign,hnot]
  generalize w.ticksOffset+n.signExtend 64=off at hr hadd ⊢
  split <;> simp only [ne_eq,reduceCtorEq,not_false_eq_true,not_true_eq_false,true_iff,
    false_iff] <;> omega

omit hs hu in
lemma adjust_eq (w : TickCount) (n : BitVec 32) : (w.prtTickCountAdjust n).2 =
    if (w.prtTickCountAdjust n).1=.ok then
      {w with ticksOffset:=w.ticksOffset+n.signExtend 64} else w := by
  simp only [prtTickCountAdjust]
  split <;> simp

lemma adjust_iff {x : TickInput} (hx : asked x=some n) (hact : w.act x=w.prtTickCountAdjust n) :
    w.Sound x ↔ w.ticksOffset.toInt+n.toInt<2^63 := by
  have hlow := offset_low hs hu (n:=n)
  have hiff := adjust_refused_iff hu (n:=n)
  have heq := adjust_eq w n
  have hsum : w.sum=w.uniTicks.toNat+w.ticksOffset.toInt := rfl
  constructor
  . intro hsound
    have href := hsound.refused n hx
    rw [hact,hiff] at href
    rcases offset_cases w n hlow with ⟨-,hlt⟩ | ⟨hoff,hge⟩
    . exact hlt
    have hn := n_range n
    have ho := BitVec.toInt_lt (x:=w.ticksOffset)
    omega
  intro hlt
  have hoff : (w.ticksOffset+n.signExtend 64).toInt=w.ticksOffset.toInt+n.toInt := by
    rcases offset_cases w n hlow with ⟨hoff,-⟩ | ⟨-,hge⟩
    . exact hoff
    omega
  have href : (w.act x).1≠.ok ↔ w.sum+n.toInt<0 := by
    rw [hact,hiff,hoff,hsum]
    omega
  refine ⟨?_,fun m hm => ?_,fun hne => ?_⟩
  . rw [hact,heq]
    split
    . rename_i hok
      have hnot : ¬w.sum+n.toInt<0 := fun h => (hact ▸ href.mpr h) hok
      simp only [sum,hoff]
      omega
    exact hs
  . rw [hx] at hm
    cases hm
    exact href
  rw [hact] at hne
  rw [hact,heq,if_neg hne]

end Moves

section Light

variable {w : TickCount} (hu : w.uniTicks.toNat<2^62) {n : BitVec 32}

lemma slt_zero_iff (n : BitVec 32) : n.slt 0#32=true ↔ n.toInt<0 := by
  rw [BitVec.slt_iff_toInt_lt]
  rfl

lemma eq_lowest_iff (n : BitVec 32) : n=s32Lowest ↔ n.toInt = -2^31 :=
  ⟨fun h => h ▸ rfl,fun h => BitVec.eq_of_toInt_eq h⟩

lemma toNat_delta (hneg : n.toInt<0) : if n=s32Lowest then ((-n).signExtend 64).toNat=2^64-2^31
    else (((-n).signExtend 64).toNat : Int) = -n.toInt := by
  have hn := n_range n
  have hr := toInt_range ((-n).signExtend 64)
  rw [toInt_signExtend] at hr
  split
  . rename_i hlow
    subst hlow
    rfl
  rename_i hlow
  rw [eq_lowest_iff] at hlow
  have hnegate : (-n).toInt = -n.toInt := by
    rw [BitVec.toInt_neg]
    exact Int.bmod_eq_of_le (by omega) (by omega)
  omega

lemma light_refused (hneg : n.toInt<0)
    (href : w.uniTicks.toNat+n.toInt<0 ∨ n=s32Lowest) (hu : w.uniTicks.toNat<2^62) :
    w.prtTickCountUpdate .light n=(.adjustValueInvalid,w) := by
  have hdelta := toNat_delta hneg
  have hlt : w.uniTicks<(-n).signExtend 64 := by
    rw [BitVec.lt_def]
    split at hdelta
    . omega
    rename_i hlow
    have hback := href.resolve_right hlow
    omega
  simp [prtTickCountUpdate,(slt_zero_iff n).mpr hneg,hlt]

lemma light_back (hneg : n.toInt<0) (hle : 0≤w.uniTicks.toNat+n.toInt)
    (hlow : n≠s32Lowest) : (w.prtTickCountUpdate .light n).1=.ok ∧
      (w.prtTickCountUpdate .light n).2.sum=w.sum+n.toInt := by
  have hdelta := toNat_delta hneg
  rw [if_neg hlow] at hdelta
  have hge : (-n).signExtend 64≤w.uniTicks := by
    rw [BitVec.le_def]
    omega
  have hsub := BitVec.toNat_sub_of_le hge
  have hupd : w.prtTickCountUpdate .light n =
      (.ok,{w with uniTicks:=w.uniTicks-(-n).signExtend 64}) := by
    simp [prtTickCountUpdate,(slt_zero_iff n).mpr hneg,BitVec.not_lt.mpr hge]
  rw [hupd]
  refine ⟨rfl,?_⟩
  simp only [sum,hsub]
  omega

include hu in
lemma light_forth (hpos : 0≤n.toInt) : (w.prtTickCountUpdate .light n).1=.ok ∧
    (w.prtTickCountUpdate .light n).2.sum=w.sum+n.toInt := by
  have hr := toInt_range (n.signExtend 64)
  rw [toInt_signExtend] at hr
  have hslt : n.slt 0#32=false := by
    rw [← Bool.not_eq_true,slt_zero_iff]
    omega
  have hadd : (w.uniTicks+n.signExtend 64).toNat =
      (w.uniTicks.toNat+(n.signExtend 64).toNat)%2^64 := BitVec.toNat_add _ _
  have hupd : w.prtTickCountUpdate .light n =
      (.ok,{w with uniTicks:=w.uniTicks+n.signExtend 64}) := by
    simp [prtTickCountUpdate,hslt]
  rw [hupd]
  refine ⟨rfl,?_⟩
  simp only [sum,hadd]
  omega

include hu in
lemma light_iff (hs : 0≤w.sum) : w.Sound (.update .light n) ↔ w.Covered (.update .light n) := by
  have hask : asked (.update .light n)=some n := rfl
  by_cases hneg : n.toInt<0
  . by_cases href : w.uniTicks.toNat+n.toInt<0 ∨ n=s32Lowest
    . have hupd : w.act (.update .light n)=(.adjustValueInvalid,w) := light_refused hneg href hu
      have hne : (w.act (.update .light n)).1≠.ok := by simp [hupd]
      constructor
      . intro hsound
        exact .inr (.inl ⟨(hsound.refused n hask).mp hne,href⟩)
      rintro (hpos | ⟨hsum,-⟩ | ⟨-,hle,hlow⟩)
      . omega
      . refine ⟨by simpa [hupd] using hs,fun m hm => ?_,fun _ => by rw [hupd]⟩
        cases hm
        exact iff_of_true hne hsum
      exact absurd href (not_or.mpr ⟨by omega,hlow⟩)
    obtain ⟨hle,hlow⟩ := not_or.mp href
    obtain ⟨hok,hsum⟩ := light_back (w:=w) hneg (by omega) hlow
    constructor
    . intro hsound
      have hnot := (hsound.refused n hask).not.mp (not_not.mpr hok)
      exact .inr (.inr ⟨by omega,by omega,hlow⟩)
    rintro (hpos | ⟨-,href'⟩ | ⟨hnn,-,-⟩)
    . omega
    . exact absurd href' href
    refine ⟨le_of_le_of_eq hnn hsum.symm,fun m hm => ?_,fun hne => absurd hok hne⟩
    cases hm
    exact iff_of_false (not_not.mpr hok) (by omega)
  obtain ⟨hok,hsum⟩ := light_forth hu (n:=n) (by omega)
  refine ⟨fun _ => .inl (by omega),fun _ => ⟨?_,fun m hm => ?_,fun hne => absurd hok hne⟩⟩
  . have hnn : 0≤w.sum+n.toInt := by omega
    exact le_of_le_of_eq hnn hsum.symm
  cases hm
  exact iff_of_false (not_not.mpr hok) (by omega)

end Light

lemma sound_iff {w : TickCount} (hs : 0≤w.sum) (hu : w.uniTicks.toNat<2^62) (x : TickInput) :
    w.Sound x ↔ w.Covered x := by
  cases x with
  | tick =>
    have hone : (1#64).toNat=1 := rfl
    have hadd : (w.uniTicks+1#64).toNat=w.uniTicks.toNat+1 := by
      rw [BitVec.toNat_add,hone]
      omega
    have hsum : (w.act .tick).2.sum=w.sum+1 := by
      change ((w.uniTicks+1#64).toNat : Int)+w.ticksOffset.toInt=w.sum+1
      unfold sum
      omega
    exact iff_of_true ⟨by omega,nofun,fun hne => absurd rfl hne⟩ trivial
  | adjust n => exact adjust_iff hs hu rfl rfl
  | update sleepMode n =>
    cases sleepMode with
    | light => exact light_iff hu hs
    | deep => exact adjust_iff hs hu rfl rfl
    | invalid => exact iff_of_true ⟨hs,nofun,fun _ => rfl⟩ trivial

lemma toNat_prtTickGetCount {w : TickCount} (hs : 0≤w.sum) (hu : w.uniTicks.toNat<2^62) :
    (w.prtTickGetCount.toNat : Int)=w.sum := by
  have hr := toInt_range w.ticksOffset
  have hadd : w.prtTickGetCount.toNat =
      (w.uniTicks.toNat+w.ticksOffset.toNat)%2^64 := BitVec.toNat_add _ _
  unfold sum at hs ⊢
  omega

/-- Steps from a count of at least zero are right exactly where they are covered, so runs of covered
steps keep the count from going negative or wrapping. -/
theorem tickCount_sound (w : TickCount) :
    (∀ x : TickInput, 0≤w.sum → w.uniTicks.toNat<2^62 → (w.Sound x ↔ w.Covered x)) ∧
    (machine.Reaches (fun w x => w.uniTicks.toNat<2^62 ∧ w.Covered x) w →
      0≤w.sum ∧ (w.uniTicks.toNat<2^62 → (w.prtTickGetCount.toNat : Int)=w.sum)) := by
  refine ⟨fun x hs hu => sound_iff hs hu x,fun hw => ?_⟩
  have hs : 0≤w.sum := by
    apply hw.invariant
    . rintro w rfl
      decide
    intro w x hs hx
    exact ((sound_iff hs hx.1 x).mpr hx.2).nonneg
  exact ⟨hs,toNat_prtTickGetCount hs⟩

theorem tickCount_sound_back :
    (machine.run ⟨0,0⟩ [.update .light 100,.update .deep (-100)]).prtTickGetCount.toNat=0 := by
  have hlight : Covered ⟨0,0⟩ (.update .light 100) := .inl (by decide)
  have hdeep : Covered ⟨100,0⟩ (.update .deep (-100)) := by
    change (0#64).toInt+(-100#32).toInt<2^63
    decide
  have hreach : machine.Reaches (fun w x => w.uniTicks.toNat<2^62 ∧ w.Covered x)
      (machine.run ⟨0,0⟩ [.update .light 100,.update .deep (-100)]) :=
    (Machine.Reaches.start rfl).run _ ⟨⟨by decide,hlight⟩,⟨by decide,hdeep⟩,trivial⟩
  have hcount := ((tickCount_sound _).2 hreach).2 (by decide)
  exact Int.ofNat_eq_zero.mp hcount

/-- A deep sleep takes back 100 ticks of 100, then a light sleep takes back 50 more. -/
theorem tickCount_negative :
    let w := machine.run ⟨0,0⟩ [.update .light 100,.update .deep (-100)]
    w.sum=0 ∧ (w.act (.update .light (-50))).1=.ok ∧ (w.act (.update .light (-50))).2.sum = -50 ∧
      (w.act (.update .light (-50))).2.prtTickGetCount.toNat=2^64-50 := by
  decide +kernel

end TickCount

end UniProton
