import UniProton.Framework.Run

namespace UniProton

open Framework

def prtSysFreqMax : Nat := 4

/-- A smaller number is a higher frequency. -/
def freqHigher (f1 f2 : Nat) : Bool := f1<f2

/-- The next access of a call: `OsLowpowerChangeFreq` up to `cas`, which begins `OsChangeFreq`.
`driving` is inside the driver operation. -/
inductive FreqPc where
  | idle
  | store (freq : Nat)
  | read
  | readFreq (pending : Nat)
  | readPending (freq : Nat)
  | cas | locked
  | compare (freq : Nat)
  | driving (freq : Nat)
  | setFreq (freq : Nat)
  | unlock (freq : Nat)
  | recheck (freq : Nat)
  deriving DecidableEq

/-- `g_pmMgr`, the calls, and the last value passed to the driver. `freeLock` has the call that took
the lock. -/
structure PmMgr where
  freq : Nat
  freqPending : Nat
  freeLock : Option Nat := none
  driven : Option Nat := none
  pc : Nat → FreqPc := fun _ => .idle

/-- A call takes its next step. An idle one begins `OsLowpowerChangeFreq` with `request`, or
`OsChangeFreq` without one; `pendingFirst` is the order of reading `FreqHigher`'s arguments. -/
structure FreqInput where
  call : Nat
  request : Option Nat := none
  pendingFirst : Bool := true
  deriving DecidableEq

def FreqInput.entry (x : FreqInput) : FreqPc :=
  match x.request with
  | none => .cas
  | some f => if prtSysFreqMax≤f then .idle else .store f

namespace PmMgr

variable (s : PmMgr)

def goto (c : Nat) (p : FreqPc) : PmMgr := {s with pc:=fun d => if d=c then p else s.pc d}

def step (x : FreqInput) : PmMgr :=
  match s.pc x.call with
  | .idle => s.goto x.call x.entry
  | .store f => {s.goto x.call .read with freqPending:=f}
  | .read => s.goto x.call (if x.pendingFirst then .readFreq s.freqPending else .readPending s.freq)
  | .readFreq p => s.goto x.call (if freqHigher p s.freq then .cas else .idle)
  | .readPending f => s.goto x.call (if freqHigher s.freqPending f then .cas else .idle)
  | .cas =>
    if s.freeLock=none then {s.goto x.call .locked with freeLock:=some x.call}
    else s.goto x.call .idle
  | .locked => s.goto x.call (.compare s.freqPending)
  | .compare f =>
    if f=s.freq then s.goto x.call (.unlock f)
    else {s.goto x.call (.driving f) with driven:=some (f%2^8)}
  | .driving f => s.goto x.call (.setFreq f)
  | .setFreq f => {s.goto x.call (.unlock f) with freq:=f}
  | .unlock f => {s.goto x.call (.recheck f) with freeLock:=none}
  | .recheck f => s.goto x.call (if freqHigher s.freqPending f then .cas else .idle)

end PmMgr

def freqMachine : Machine PmMgr FreqInput where
  start s := ∃ f<prtSysFreqMax, s={freq:=f, freqPending:=f}
  step s x := s.step x

def FreqPc.holds : FreqPc → Bool
  | .locked | .compare _ | .driving _ | .setFreq _ | .unlock _ => true
  | _ => false

/-- The call is between its use of the driver and the store of the frequency. -/
def FreqPc.changing : FreqPc → Bool
  | .driving _ | .setFreq _ => true
  | _ => false

namespace PmMgr

/-- The call will still compare the pending frequency with the current one. -/
def watches (s : PmMgr) : FreqPc → Bool
  | .idle | .store _ => false
  | .readFreq p => freqHigher p s.freq
  | .readPending f | .recheck f => freqHigher s.freqPending f
  | _ => true

/-- A raise of the frequency that is not done yet is watched. -/
def Watched (s : PmMgr) : Prop := freqHigher s.freqPending s.freq → ∃ c, s.watches (s.pc c)

/-- What every step of any call keeps. -/
structure Inv (s : PmMgr) : Prop where
  held : ∀ c, (s.pc c).holds ↔ s.freeLock=some c
  stored : ∀ c f, s.pc c=.unlock f → s.freq=f
  valid : s.freqPending<prtSysFreqMax ∧ (∀ c f, s.pc c=.store f → f<prtSysFreqMax) ∧
    ∀ c f, s.pc c=.compare f → f<prtSysFreqMax
  driven : ∀ c f, s.pc c=.driving f ∨ s.pc c=.setFreq f → s.driven=some f
  settled : (∀ c, s.freeLock=some c → ¬(s.pc c).changing) → s.driven=none ∨ s.driven=some s.freq

variable {s : PmMgr} {x : FreqInput}

lemma step_pc_of_ne {d : Nat} (hd : d≠x.call) : (s.step x).pc d=s.pc d := by
  unfold step goto
  grind

lemma Inv.leaves (h : s.Inv) (hw : ¬(s.step x).watches ((s.step x).pc x.call))
    (hlt : freqHigher (s.step x).freqPending (s.step x).freq) :
    (s.step x).freqPending=s.freqPending ∧ (s.step x).freq=s.freq ∧
      (s.watches (s.pc x.call) → s.pc x.call=.cas ∧ s.freeLock≠none) := by
  have hstored := h.stored x.call
  cases hp : s.pc x.call <;> grind [PmMgr.step,goto,watches,freqHigher]

lemma Inv.watched_step (h : s.Inv) (hs : s.Watched) : (s.step x).Watched := by
  intro hlt
  by_cases hw : (s.step x).watches ((s.step x).pc x.call)
  . exact ⟨_,hw⟩
  obtain ⟨hpending,hfreq,hcas⟩ := h.leaves hw hlt
  have hkeep {d : Nat} (hd : s.watches (s.pc d)) (hne : d≠x.call) :
      (s.step x).watches ((s.step x).pc d) := by
    rw [step_pc_of_ne hne]
    simpa only [watches,hpending,hfreq] using hd
  rw [hpending,hfreq] at hlt
  obtain ⟨c,hc⟩ := hs hlt
  by_cases hne : c=x.call
  -- The lock was taken, and its holder watches.
  . subst hne
    obtain ⟨hp,hlock⟩ := hcas hc
    obtain ⟨d,hd⟩ := Option.ne_none_iff_exists'.mp hlock
    have hholds := (h.held d).mpr hd
    refine ⟨d,hkeep ?_ ?_⟩
    . cases hpd : s.pc d <;> simp_all [FreqPc.holds,watches]
    intro he
    rw [he,hp] at hholds
    cases hholds
  exact ⟨c,hkeep hc hne⟩

lemma Inv.step (h : s.Inv) : (s.step x).Inv := by
  obtain ⟨hheld,hstored,hvalid,hdriven,hsettled⟩ := h
  cases hp : s.pc x.call <;> simp only [PmMgr.step,goto,hp]
  case' idle => unfold FreqInput.entry; split
  case' cas | compare => split
  all_goals
    constructor <;> grind [FreqPc.holds,FreqPc.changing,prtSysFreqMax]

end PmMgr

open PmMgr

/-- Driver operations do not overlap, and with no call in progress the pending frequency is not
higher than the current one, the lock is free, and the driver was given the current one last. -/
theorem freq_raise_kept {s : PmMgr} (hr : freqMachine.Reaches (fun _ _ => True) s) :
    (∀ c d f g, s.pc c=.driving f → s.pc d=.driving g → c=d) ∧
    ((∀ c, s.pc c=.idle) → ¬freqHigher s.freqPending s.freq ∧ s.freeLock=none ∧
      ∀ v, s.driven=some v → s.freq=v) := by
  have h : s.Inv ∧ s.Watched := by
    apply hr.invariant
    . rintro s ⟨f,hf,rfl⟩
      refine ⟨⟨?_,nofun,⟨hf,nofun,nofun⟩,nofun,fun _ => .inl rfl⟩,?_⟩
      . simp [FreqPc.holds]
      simp [Watched,freqHigher]
    intro s x hs _
    exact ⟨hs.1.step,hs.1.watched_step hs.2⟩
  obtain ⟨hinv,hwatched⟩ := h
  constructor
  . intro c d f g hc hd
    have hcheld := (hinv.held c).mp (by rw [hc]; rfl)
    have hdheld := (hinv.held d).mp (by rw [hd]; rfl)
    exact Option.some.inj (hcheld.symm.trans hdheld)
  intro hidle
  have hfree : s.freeLock=none := by
    cases hlock : s.freeLock with
    | none => rfl
    | some c =>
      have hholds := (hinv.held c).mpr hlock
      rw [hidle c] at hholds
      cases hholds
  refine ⟨?_,hfree,?_⟩
  . intro hlt
    obtain ⟨c,hc⟩ := hwatched hlt
    rw [hidle c] at hc
    cases hc
  intro v hv
  have hsettled := hinv.settled (by rw [hfree]; nofun)
  rw [hv] at hsettled
  exact (Option.some.inj (hsettled.resolve_left nofun)).symm

lemma run_pc_of_ne {c : Nat} {xs : List FreqInput} (h : ∀ x∈xs, c≠x.call) (s : PmMgr) :
    (freqMachine.run s xs).pc c=s.pc c := by
  induction xs generalizing s with
  | nil => rfl
  | cons x xs ih =>
    have hstep := PmMgr.step_pc_of_ne (s:=s) (h x List.mem_cons_self)
    exact (ih (fun y hy => h y (List.mem_cons_of_mem _ hy)) _).trans hstep

/-- The second call raises the pending frequency and finds the lock taken by the first, which raises
the frequency again. -/
def raiseInputs : List FreqInput :=
  List.replicate 7 {call:=0, request:=some 1}++List.replicate 5 {call:=1, request:=some 0} ++
    List.replicate 11 {call:=0, request:=some 1}

theorem freq_raise_kept_taken :
    let s := freqMachine.run {freq:=2, freqPending:=2} raiseInputs
    s.freq=0 ∧ s.driven=some 0 ∧ ¬freqHigher s.freqPending s.freq ∧ s.freeLock=none := by
  have hstart : freqMachine.start {freq:=2, freqPending:=2} := ⟨2,by decide,rfl⟩
  have hr : freqMachine.Reaches (fun _ _ => True) _ :=
    (Machine.Reaches.start hstart).run raiseInputs
      (by simp [raiseInputs,List.replicate,Machine.Allowed])
  have hidle := (freq_raise_kept hr).2 (by
    intro c
    by_cases h0 : c=0
    . subst h0
      decide +kernel
    by_cases h1 : c=1
    . subst h1
      decide +kernel
    exact run_pc_of_ne (by simp [raiseInputs,List.replicate,h0,h1]) _)
  exact ⟨by decide +kernel,by decide +kernel,hidle.1,hidle.2.1⟩

end UniProton
