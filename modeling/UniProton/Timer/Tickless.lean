import UniProton.Timer.Swtmr

namespace UniProton

open List

/-- `OS_TICKLESS_FOREVER`: nothing to come. -/
def osTicklessForever : BitVec 64 := BitVec.allOnes 64

def osCoreInvId : Nat := 0xFFFFFFFF

/-- The functions that report the next tick of a core, where their module has registered one. -/
structure TickSources where
  getTskDlyNearestTick : Option (Nat → BitVec 64)
  getSwtmrNearestTick : Option (Nat → BitVec 64)
  getCpupNearestTick : Option (Nat → BitVec 64)

/-- The timers of the AMP build: the least `expectedTick` that has not passed. -/
def SwTmrs.osSwtmrNearestTickGet (c : TmrCfg) (t : SwTmrs) : BitVec 64 :=
  (List.range c.maxNum).foldl (fun ticks i =>
    let expectedTick := BitVec.ofNat 64 (t.cb i).expectedTick
    if (t.cb i).state=.free ∨ (t.cb i).state=.created then ticks
    else if BitVec.ofNat 64 t.uniTicks≤expectedTick ∧ expectedTick<ticks then expectedTick
    else ticks) osTicklessForever

def osAmpTskDlyNearestTickGet (expirationTicks : List (BitVec 64)) : BitVec 64 :=
  expirationTicks.head?.getD osTicklessForever

def osCpupNextTickGet (ticksPerSample : Nat) (cpupNextTick : BitVec 64) : BitVec 64 :=
  if 0<ticksPerSample then cpupNextTick else osTicklessForever

def ampSources (c : TmrCfg) (t : SwTmrs) (expirationTicks : List (BitVec 64))
    (ticksPerSample : Nat) (cpupNextTick : BitVec 64) : TickSources where
  getTskDlyNearestTick := some fun _ => osAmpTskDlyNearestTickGet expirationTicks
  getSwtmrNearestTick := some fun _ => t.osSwtmrNearestTickGet c
  getCpupNearestTick := some fun _ => osCpupNextTickGet ticksPerSample cpupNextTick

/-- What `PRT_TickLessCountGet` answers; `ok` is `OS_OK`. -/
structure TicklessCount where
  ok : Bool
  minTicks : BitVec 32
  coreId : Nat
  deriving DecidableEq

namespace TickSources

variable (s : TickSources)

def nearer (minTicks tick : BitVec 64) : BitVec 64 :=
  if tick≠osTicklessForever then
    if minTicks=osTicklessForever ∨ tick < minTicks then tick else minTicks
  else minTicks

def coreTicks (coreId : Nat) : List (BitVec 64) :=
  (s.getTskDlyNearestTick.map (· coreId)).toList++(s.getSwtmrNearestTick.map (· coreId)).toList

/-- `none` is a call through a null pointer: the third entry asks the software timers again. -/
def osCoreNearestTickGet (coreId : Nat) : Option (BitVec 64) :=
  let ticks := s.coreTicks coreId
  if coreId=0 ∧ s.getCpupNearestTick.isSome then
    match s.getSwtmrNearestTick with
    | none => none
    | some f => some ((ticks++[f 0]).foldl nearer osTicklessForever)
  else some (ticks.foldl nearer osTicklessForever)

/-- One core in the loop of `PRT_TickLessCountGet`; the pair is `ticks` and `bindCoreID`. -/
def bindCore (thisCoreId : Nat) (best : BitVec 64×Nat) (coreId : Nat) :
    Option (BitVec 64×Nat) :=
  match s.osCoreNearestTickGet coreId with
  | none => none
  | some tmpTicks =>
    if tmpTicks=osTicklessForever then some best
    else if best.2=osCoreInvId then some (tmpTicks,coreId)
    else if tmpTicks<best.1 then some (tmpTicks,coreId)
    else if best.1=tmpTicks ∧ coreId=thisCoreId then some (best.1,thisCoreId)
    else some best

def prtTickLessCountGet (maxNumOfCores : BitVec 32) (thisCoreId : Nat) (uniTicks : BitVec 64) :
    Option TicklessCount :=
  match (List.range maxNumOfCores.toNat).foldlM (s.bindCore thisCoreId)
      (osTicklessForever,osCoreInvId) with
  | none => none
  | some (ticks,coreId) =>
    if ticks=osTicklessForever then some ⟨false,BitVec.allOnes 32,coreId⟩
    else if ticks≤uniTicks then some ⟨false,0,coreId⟩
    else some ⟨true,(ticks-uniTicks).setWidth 32,coreId⟩

def delays (cores : Nat) : List (BitVec 64) := (List.range cores).flatMap s.coreTicks

def reported (cores : Nat) : List (BitVec 64) :=
  s.delays cores ++ if 0<cores then (s.getCpupNearestTick.map (· 0)).toList else []

def earliest (l : List (BitVec 64)) : Nat :=
  l.foldl (fun m tick => min m tick.toNat) osTicklessForever.toNat

lemma toNat_forever : osTicklessForever.toNat=2^64-1 := rfl

lemma toNat_le_forever (v : BitVec 64) : v.toNat≤osTicklessForever.toNat := by
  rw [toNat_forever]
  omega

lemma toNat_nearer (a v : BitVec 64) : (nearer a v).toNat=min a.toNat v.toNat := by
  have ha := toNat_le_forever a
  have hv := toNat_le_forever v
  unfold nearer
  split
  . split
    . rename_i hor
      rcases hor with rfl | hlt
      . omega
      have hlt' : v.toNat<a.toNat := hlt
      omega
    rename_i hnot
    have hle : ¬v.toNat<a.toNat := fun hlt => hnot (.inr hlt)
    omega
  rename_i hv'
  have hforever : v=osTicklessForever := Decidable.not_not.mp hv'
  subst hforever
  omega

lemma toNat_foldl_nearer (l : List (BitVec 64)) (a : BitVec 64) :
    (l.foldl nearer a).toNat=l.foldl (fun m tick => min m tick.toNat) a.toNat := by
  induction l generalizing a with
  | nil => rfl
  | cons v l ih => rw [foldl_cons,ih,toNat_nearer,foldl_cons]

lemma foldl_min_le (l : List (BitVec 64)) (a : Nat) :
    l.foldl (fun m tick => min m tick.toNat) a≤a := by
  induction l generalizing a with
  | nil => exact Nat.le_refl a
  | cons v l ih => exact Nat.le_trans (ih _) (Nat.min_le_left a v.toNat)

lemma earliest_le {l : List (BitVec 64)} {v : BitVec 64} (hv : v∈l) : earliest l≤v.toNat := by
  unfold earliest
  generalize osTicklessForever.toNat=a
  induction l generalizing a with
  | nil => cases hv
  | cons w l ih =>
    rcases mem_cons.mp hv with rfl | hv
    . exact Nat.le_trans (foldl_min_le l _) (Nat.min_le_right a v.toNat)
    exact ih hv _

lemma earliest_mem {l : List (BitVec 64)} (h : earliest l≠osTicklessForever.toNat) :
    ∃ v∈l, v.toNat=earliest l := by
  unfold earliest at h ⊢
  generalize osTicklessForever.toNat=a at h ⊢
  induction l generalizing a with
  | nil => exact absurd rfl h
  | cons w l ih =>
    rw [foldl_cons] at h ⊢
    by_cases hrest : l.foldl (fun m tick => min m tick.toNat) (min a w.toNat)=min a w.toNat
    . exact ⟨w,mem_cons_self,by omega⟩
    obtain ⟨v,hv,heq⟩ := ih _ hrest
    exact ⟨v,mem_cons_of_mem w hv,heq⟩

lemma earliest_concat (l : List (BitVec 64)) (v : BitVec 64) :
    earliest (l++[v])=min (earliest l) v.toNat := by
  simp [earliest]

lemma foldl_min_eq (l : List (BitVec 64)) (a b : Nat) :
    l.foldl (fun m tick => min m tick.toNat) (min a b) =
      min a (l.foldl (fun m tick => min m tick.toNat) b) := by
  induction l generalizing b with
  | nil => rfl
  | cons v l ih => rw [foldl_cons,foldl_cons,Nat.min_assoc,ih]

lemma earliest_append (l l' : List (BitVec 64)) :
    earliest (l++l')=min (earliest l) (earliest l') := by
  have hle : earliest l≤osTicklessForever.toNat := foldl_min_le l _
  have hfold := foldl_min_eq l' (earliest l) osTicklessForever.toNat
  rw [Nat.min_eq_left hle] at hfold
  rw [earliest,foldl_append]
  exact hfold

variable {s}

variable {coreId thisCoreId : Nat}

lemma toNat_osCoreNearestTickGet {v : BitVec 64}
    (h : s.osCoreNearestTickGet coreId=some v) : v.toNat=earliest (s.coreTicks coreId) := by
  unfold osCoreNearestTickGet at h
  split at h
  . rename_i hcore
    cases hf : s.getSwtmrNearestTick with
    | none => simp [hf] at h
    | some f =>
      simp only [hf,Option.some.injEq] at h
      have hmem : f 0∈s.coreTicks coreId := by simp [coreTicks,hf,hcore.1]
      have hle := earliest_le hmem
      rw [← h,toNat_foldl_nearer]
      change earliest (s.coreTicks coreId ++ [f 0])=_
      rw [earliest_concat]
      omega
  simp only [Option.some.injEq] at h
  rw [← h,toNat_foldl_nearer]
  rfl

lemma bindCore_min {best next : BitVec 64×Nat}
    (h : s.bindCore thisCoreId best coreId=some next) (hcore : coreId≠osCoreInvId)
    (hinv : best.2=osCoreInvId → best.1=osTicklessForever) :
    next.1.toNat=min best.1.toNat (earliest (s.coreTicks coreId)) ∧
      (next.2=osCoreInvId → next.1=osTicklessForever) := by
  have hbest := toNat_le_forever best.1
  unfold bindCore at h
  cases hc : s.osCoreNearestTickGet coreId with
  | none => simp [hc] at h
  | some v =>
    have hv := toNat_osCoreNearestTickGet hc
    have hvle := toNat_le_forever v
    simp only [hc] at h
    rw [← hv]
    split at h
    . rename_i hforever
      cases h
      exact ⟨by rw [hforever]; omega,hinv⟩
    split at h
    . rename_i hbind
      cases h
      refine ⟨?_,fun hid => absurd hid hcore⟩
      rw [hinv hbind]
      simp only
      omega
    split at h
    . rename_i hlt
      cases h
      have hlt' : v.toNat<best.1.toNat := hlt
      exact ⟨by simp only; omega,fun hid => absurd hid hcore⟩
    have hge : best.1.toNat≤v.toNat := Nat.le_of_not_lt ‹_›
    split at h
    . rename_i hthis
      cases h
      exact ⟨by simp only; omega,fun hid => absurd (hthis.2.trans hid) hcore⟩
    cases h
    exact ⟨by omega,hinv⟩

lemma bindCores_min {next : BitVec 64×Nat} (cores : Nat)
    (hcores : cores≤osCoreInvId)
    (h : (List.range cores).foldlM (s.bindCore thisCoreId) (osTicklessForever,osCoreInvId) =
      some next) : next.1.toNat=earliest (s.delays cores) ∧
      (next.2=osCoreInvId → next.1=osTicklessForever) := by
  induction cores generalizing next with
  | zero =>
    cases h
    exact ⟨rfl,fun _ => rfl⟩
  | succ k ih =>
    rw [range_succ,foldlM_append] at h
    cases hk : (List.range k).foldlM (s.bindCore thisCoreId) (osTicklessForever,osCoreInvId) with
    | none => simp [hk] at h
    | some best =>
      obtain ⟨hmin,hinv⟩ := ih (by omega) hk
      have hstep : s.bindCore thisCoreId best k=some next := by simpa [hk] using h
      obtain ⟨hnext,hinv'⟩ := bindCore_min hstep (by omega) hinv
      refine ⟨?_,hinv'⟩
      have hdelays : s.delays (k+1)=s.delays k++s.coreTicks k := by simp [delays,range_succ]
      rw [hnext,hmin,hdelays,earliest_append]

lemma ticklessCount_ok {maxNumOfCores : BitVec 32}
    {uniTicks : BitVec 64} {minTicks : BitVec 32}
    (h : s.prtTickLessCountGet maxNumOfCores thisCoreId uniTicks=some ⟨true,minTicks,coreId⟩) :
    earliest (s.delays maxNumOfCores.toNat)≠osTicklessForever.toNat ∧
      uniTicks.toNat<earliest (s.delays maxNumOfCores.toNat) ∧
      minTicks.toNat=(earliest (s.delays maxNumOfCores.toNat)-uniTicks.toNat)%2^32 := by
  have hcores : maxNumOfCores.toNat≤osCoreInvId := by
    unfold osCoreInvId
    omega
  unfold prtTickLessCountGet at h
  cases hloop : (List.range maxNumOfCores.toNat).foldlM (s.bindCore thisCoreId)
      (osTicklessForever,osCoreInvId) with
  | none => simp [hloop] at h
  | some best =>
    obtain ⟨hmin,-⟩ := bindCores_min _ hcores hloop
    simp only [hloop] at h
    split at h
    . simp at h
    split at h
    . simp at h
    rename_i hforever hle
    simp only [Option.some.injEq,TicklessCount.mk.injEq,true_and] at h
    have hlt : uniTicks.toNat<best.1.toNat := Nat.lt_of_not_le hle
    refine ⟨fun heq => hforever (BitVec.eq_of_toNat_eq (hmin.trans heq)),hmin ▸ hlt,?_⟩
    rw [← h.1,BitVec.toNat_setWidth,BitVec.toNat_sub_of_le (Nat.le_of_lt hlt),hmin]

/-- The earliest delay or timer is less than 2^32 ticks away, and the sampling is not due before it.
-/
def Covered (s : TickSources) (cores : Nat) (uniTicks : BitVec 64) : Prop :=
  let first := earliest (s.delays cores)
  (first<uniTicks.toNat+2^32 ∧ ∀ f, s.getCpupNearestTick=some f → first≤(f 0).toNat) ∨
  (uniTicks.toNat+2^32≤first ∧ ∃ f, s.getCpupNearestTick=some f ∧
    (f 0).toNat=uniTicks.toNat+(first-uniTicks.toNat)%2^32)

/-- A successful `PRT_TickLessCountGet` gives the distance of the next reported tick exactly under
this condition. -/
theorem tickless_count_iff {maxNumOfCores : BitVec 32} {thisCoreId coreId : Nat}
    {uniTicks : BitVec 64} {minTicks : BitVec 32}
    (h : s.prtTickLessCountGet maxNumOfCores thisCoreId uniTicks=some ⟨true,minTicks,coreId⟩) :
    IsLeast {n | ∃ v∈s.reported maxNumOfCores.toNat, v.toNat=n}
      (uniTicks.toNat+minTicks.toNat) ↔ s.Covered maxNumOfCores.toNat uniTicks := by
  obtain ⟨hfirst,hlater,hmin⟩ := ticklessCount_ok h
  have hcores : 0 < maxNumOfCores.toNat := by
    rcases Nat.eq_zero_or_pos maxNumOfCores.toNat with h0 | h0
    . rw [h0] at hfirst
      exact absurd rfl hfirst
    exact h0
  have hdelays (n : Nat) : (∃ v∈s.reported maxNumOfCores.toNat, v.toNat=n) ↔
      (∃ v∈s.delays maxNumOfCores.toNat, v.toNat=n) ∨
        ∃ f, s.getCpupNearestTick=some f ∧ (f 0).toNat=n := by
    unfold reported
    rw [if_pos hcores]
    cases hf : s.getCpupNearestTick <;> simp [or_and_right,exists_or]
  obtain ⟨e,he,heq⟩ := earliest_mem hfirst
  constructor
  . rintro ⟨hmem,hleast⟩
    have hsample : ∀ f, s.getCpupNearestTick=some f → uniTicks.toNat+minTicks.toNat≤(f 0).toNat :=
      fun f hf => hleast ((hdelays _).mpr (.inr ⟨f,hf,rfl⟩))
    rcases (hdelays _).mp hmem with ⟨v,hv,hveq⟩ | ⟨f,hf,hfeq⟩
    . -- attained by a delay: nothing was cut off
      have hle := earliest_le hv
      refine .inl ⟨by omega,fun f hf => ?_⟩
      have hf' := hsample f hf
      omega
    by_cases hnear : earliest (s.delays maxNumOfCores.toNat)<uniTicks.toNat+2^32
    . refine .inl ⟨hnear,fun g hg => ?_⟩
      have hg' := hsample g hg
      omega
    exact .inr ⟨by omega,f,hf,by omega⟩
  intro hcov
  have hlow : ∀ v∈s.delays maxNumOfCores.toNat, uniTicks.toNat+minTicks.toNat≤v.toNat := by
    intro v hv
    have hle := earliest_le hv
    omega
  rcases hcov with ⟨hnear,hsample⟩ | ⟨hfar,f,hf,hfeq⟩
  . refine ⟨(hdelays _).mpr (.inl ⟨e,he,by omega⟩),fun n hn => ?_⟩
    rcases (hdelays n).mp hn with ⟨v,hv,rfl⟩ | ⟨f,hf,rfl⟩
    . exact hlow v hv
    have hf' := hsample f hf
    omega
  refine ⟨(hdelays _).mpr (.inr ⟨f,hf,by omega⟩),fun n hn => ?_⟩
  rcases (hdelays n).mp hn with ⟨v,hv,rfl⟩ | ⟨g,hg,rfl⟩
  . exact hlow v hv
  rw [hf] at hg
  cases hg
  omega

def ticklessCfg : TmrCfg := ⟨1,1000,TmrCfg.pos_thousand,true⟩

theorem tickless_count_delay :
    (ampSources ticklessCfg (SwTmrs.init ticklessCfg) [3] 5 5).prtTickLessCountGet 1 0 0 =
      some ⟨true,3,0⟩ ∧
    IsLeast {n | ∃ v∈(ampSources ticklessCfg (SwTmrs.init ticklessCfg) [3] 5 5).reported 1,
      v.toNat=n} 3 := by
  have hget : (ampSources ticklessCfg (SwTmrs.init ticklessCfg) [3] 5 5).prtTickLessCountGet
      1 0 0=some ⟨true,3,0⟩ := by
    decide +kernel
  refine ⟨hget,(tickless_count_iff hget).mpr (.inl ⟨by decide +kernel,?_⟩)⟩
  intro f hf
  cases hf
  decide +kernel

/-- With the task delay up to tick 100 the sampling at tick 5 is slept through. -/
theorem tickless_count_past_sampling :
    (ampSources ticklessCfg (SwTmrs.init ticklessCfg) [100] 5 5).prtTickLessCountGet 1 0 0 =
      some ⟨true,100,0⟩ ∧
    ∃ v∈(ampSources ticklessCfg (SwTmrs.init ticklessCfg) [100] 5 5).reported 1,
      v.toNat<(0 : BitVec 64).toNat+(100 : BitVec 32).toNat :=
  ⟨by decide +kernel,5,by decide +kernel,by decide⟩

end TickSources

end UniProton
