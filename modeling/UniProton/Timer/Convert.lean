import UniProton.Timer.WheelRun

namespace UniProton

/-- What `PRT_SwTmrInfoGet` reports. -/
structure SwTmrInfo where
  state : TmrState
  mode : TmrMode
  interval : BitVec 32
  remainMs : Nat
  handler : TmrProcFunc
  deriving DecidableEq

namespace SwTmrs

variable (c : TmrCfg) (t : SwTmrs)

/-- The mode is one of the two, `PRT_TimerCreate` has looked at it. -/
def osSwTmrCreateTimer (p : TimerCreatePara) (mode : TmrMode) : TmrErrno×Nat×SwTmrs :=
  if osSwTmrCreateTimerParaChk c p=.ok then
    match p.callBackFunc, t.freeList with
    | some f, i::l => (.ok,i,{t with freeList:=l}.osSwTmrCreateTimerCbInit i p mode f
        (BitVec.ofNat 32 (c.tickPerSecond*p.interval.toNat/1000)))
    | _, _ => (.maxSize,0,t)
  else (osSwTmrCreateTimerParaChk c p,0,t)

def prtSwTmrInfoGet (i : Nat) : Except TmrErrno SwTmrInfo :=
  if c.maxNum ≤ i then .error .handleInvalid
  else if (t.cb i).state=.free then .error .notCreated
  else .ok
    { state := match (t.cb i).state with
        | .expired _ => .expired .default
        | st => st
      mode := (t.cb i).mode
      interval := BitVec.ofNat 32 ((t.cb i).interval.toNat*1000/c.tickPerSecond)
      remainMs := (t.osSwTmrQuery c i).2
      handler := (t.cb i).handler }

lemma paraChk_iff {p : TimerCreatePara} (hf : p.callBackFunc.isSome=true)
    (hg : p.timerGroupId=0) : osSwTmrCreateTimerParaChk c p=.ok ↔
      1000 ∣ p.interval.toNat*c.tickPerSecond ∧ p.interval.toNat*c.tickPerSecond/1000<2^32 := by
  have hnone : p.callBackFunc.isNone=false := by
    cases h : p.callBackFunc <;> simp_all
  have hbound := Nat.le_div_iff_mul_le c.tickInit (x:=p.interval.toNat) (y:=1000*(2^32-1))
  rw [Nat.mul_comm p.interval.toNat,Nat.dvd_iff_mod_eq_zero]
  rw [Nat.mul_comm p.interval.toNat] at hbound
  unfold osSwTmrCreateTimerParaChk
  generalize c.tickPerSecond * p.interval.toNat=ticks at hbound ⊢
  simp only [hnone,hg,Bool.false_eq_true,if_false,ne_eq,not_true_eq_false]
  by_cases hmod : ticks%1000=0
  . have hover : 1000*(2^32-1)/c.tickPerSecond<p.interval.toNat ↔ ¬ticks≤1000*(2^32-1) := by
      rw [← hbound,Nat.not_le]
    rw [if_neg (not_not.mpr hmod)]
    by_cases hle : ticks≤1000*(2^32-1)
    . rw [if_neg (fun h => hover.mp h hle)]
      simp only [true_iff]
      omega
    rw [if_pos (hover.mpr hle)]
    simp only [reduceCtorEq,false_iff]
    omega
  simp [hmod]

lemma ceil_div_eq (a : Nat) {b : Nat} (hb : 0<b) :
    ⌈(a : ℚ) / b⌉₊ = if a%b≠0 then a/b+1 else a/b := by
  have hbq : (0 : ℚ)<b := Nat.cast_pos.mpr hb
  have hdiv := Nat.div_add_mod a b
  have hmod := Nat.mod_lt a hb
  apply le_antisymm
  . rw [Nat.ceil_le,div_le_iff₀ hbq]
    norm_cast
    split
    . rw [Nat.add_mul,Nat.mul_comm]
      omega
    rw [Nat.mul_comm]
    omega
  split
  . rw [Nat.succ_le_iff,Nat.lt_ceil,lt_div_iff₀ hbq]
    norm_cast
    rw [Nat.mul_comm]
    omega
  have hle : ((a/b : Nat) : ℚ) ≤ ⌈(a : ℚ) / b⌉₊ := le_trans Nat.cast_div_le (Nat.le_ceil _)
  exact Nat.cast_le.mp hle

lemma osSwTmrQuery_eq {i : Nat} (hi : i<c.maxNum) (hnf : (t.cb i).state≠.free)
    (hfit : ⌈((t.osSwTmrGetRemainTick i).toNat*1000 : ℚ) / c.tickPerSecond⌉₊ < 2^32) :
    t.osSwTmrQuery c i =
      (.ok,⌈((t.osSwTmrGetRemainTick i).toNat*1000 : ℚ) / c.tickPerSecond⌉₊) := by
  have hcast : ((t.osSwTmrGetRemainTick i).toNat*1000 : ℚ) =
      (((t.osSwTmrGetRemainTick i).toNat*1000 : Nat) : ℚ) := by
    push_cast
    rfl
  unfold osSwTmrQuery
  rw [if_neg (Nat.not_le.mpr hi),if_neg hnf]
  dsimp only
  rw [hcast,ceil_div_eq _ c.tickInit] at hfit ⊢
  generalize (t.osSwTmrGetRemainTick i).toNat * 1000=ticks at hfit ⊢
  split at hfit
  . rename_i hmod
    rw [if_pos hmod,if_pos hmod,Nat.mod_eq_of_lt (by omega : ticks/c.tickPerSecond<2^32),
      Nat.mod_eq_of_lt hfit]
  rename_i hmod
  rw [if_neg hmod,if_neg hmod,Nat.mod_eq_of_lt hfit]

/-- An interval is accepted exactly when it is a whole number of ticks in 32 bits, which is then
stored and reported. -/
theorem interval_conversion (p : TimerCreatePara) (mode : TmrMode)
    (hf : p.callBackFunc.isSome=true) (hg : p.timerGroupId=0) (hl : t.freeList≠[]) :
    ((t.osSwTmrCreateTimer c p mode).1=.ok ↔
      1000 ∣ p.interval.toNat*c.tickPerSecond ∧ p.interval.toNat*c.tickPerSecond/1000<2^32) ∧
    ((t.osSwTmrCreateTimer c p mode).1=.ok → let i := (t.osSwTmrCreateTimer c p mode).2.1
      let ticks := ((t.osSwTmrCreateTimer c p mode).2.2.cb i).interval
      ticks.toNat * 1000=p.interval.toNat*c.tickPerSecond ∧
      (p.interval≠0 → 1≤ticks.toNat) ∧
      ∀ t' : SwTmrs, i<c.maxNum → (t'.cb i).state≠.free → (t'.cb i).interval=ticks →
        (t'.prtSwTmrInfoGet c i).map (·.interval)=.ok p.interval ∧
        (t'.osSwTmrGetRemainTick i≤ticks →
          ⌈((t'.osSwTmrGetRemainTick i).toNat*1000 : ℚ) / c.tickPerSecond⌉₊ < 2^32 ∧
          t'.osSwTmrQuery c i =
            (.ok,⌈((t'.osSwTmrGetRemainTick i).toNat*1000 : ℚ) / c.tickPerSecond⌉₊))) := by
  obtain ⟨f,hfun⟩ := Option.isSome_iff_exists.mp hf
  obtain ⟨i,l,hcons⟩ := List.exists_cons_of_ne_nil hl
  have hiff := paraChk_iff c hf hg
  have hacc : (t.osSwTmrCreateTimer c p mode).1=.ok ↔ osSwTmrCreateTimerParaChk c p=.ok := by
    unfold osSwTmrCreateTimer
    split <;> simp_all
  refine ⟨hacc.trans hiff,fun hok => ?_⟩
  have hchk := hacc.mp hok
  obtain ⟨⟨n,hn⟩,hfit⟩ := hiff.mp hchk
  have hticks : c.tickPerSecond*p.interval.toNat/1000=n := by
    rw [Nat.mul_comm,hn]
    omega
  have hlt : n<2^32 := by omega
  have hcreate : t.osSwTmrCreateTimer c p mode =
      (.ok,i,{t with freeList:=l}.osSwTmrCreateTimerCbInit i p mode f (BitVec.ofNat 32 n)) := by
    simp [osSwTmrCreateTimer,hchk,hfun,hcons,hticks]
  have hstored : (({t with freeList:=l}.osSwTmrCreateTimerCbInit i p mode f
      (BitVec.ofNat 32 n)).cb i).interval=BitVec.ofNat 32 n := by
    simp [osSwTmrCreateTimerCbInit,modCb]
  have htoNat : (BitVec.ofNat 32 n).toNat=n := Nat.mod_eq_of_lt hlt
  rw [hcreate]
  simp only [hstored,htoNat]
  refine ⟨by omega,fun hp => ?_,fun t' hi hnf hint => ⟨?_,fun hle => ?_⟩⟩
  . -- a whole number of ticks in no ticks would be no time
    have hpos : p.interval.toNat≠0 := fun h0 => hp (BitVec.eq_of_toNat_eq h0)
    have hprod : 0<p.interval.toNat*c.tickPerSecond :=
      Nat.mul_pos (Nat.pos_of_ne_zero hpos) c.tickInit
    omega
  . have hback : (t'.cb i).interval.toNat*1000/c.tickPerSecond=p.interval.toNat := by
      rw [hint,htoNat,Nat.mul_comm,← hn,Nat.mul_div_cancel _ c.tickInit]
    simp [prtSwTmrInfoGet,Nat.not_le.mpr hi,hnf,hback,Except.map]
  have hrem : (t'.osSwTmrGetRemainTick i).toNat≤n := htoNat ▸ hle
  have hceil : ⌈((t'.osSwTmrGetRemainTick i).toNat*1000 : ℚ) / c.tickPerSecond⌉₊ ≤
      p.interval.toNat := by
    rw [Nat.ceil_le,div_le_iff₀ (Nat.cast_pos.mpr c.tickInit)]
    norm_cast
    omega
  have hms : ⌈((t'.osSwTmrGetRemainTick i).toNat*1000 : ℚ) / c.tickPerSecond⌉₊ < 2^32 :=
    lt_of_le_of_lt hceil p.interval.isLt
  exact ⟨hms,t'.osSwTmrQuery_eq c hi hnf hms⟩

def coarseCfg : TmrCfg := ⟨1,100,TmrCfg.pos_hundred,false⟩

def coarsePara : TimerCreatePara := ⟨some .once,30,0,some (.user 0),0,0,0,0⟩

theorem interval_conversion_thirty :
    ((init coarseCfg).osSwTmrCreateTimer coarseCfg coarsePara .once).1=.ok ∧
      (((init coarseCfg).osSwTmrCreateTimer coarseCfg coarsePara .once).2.2.cb 0).interval.toNat *
        1000=30*100 := by
  obtain ⟨hiff,hstored⟩ := interval_conversion coarseCfg (init coarseCfg) coarsePara .once
    (by decide) (by decide) (by decide)
  have hok := hiff.mpr (by decide)
  exact ⟨hok,(hstored hok).1⟩

end SwTmrs

end UniProton
