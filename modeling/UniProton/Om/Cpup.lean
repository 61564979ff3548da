import UniProton.Framework.Run

namespace UniProton.Om

open Framework Function List

def cpupUseRate : Nat := 10000

/-- Sum and difference of two `U64`. -/
def u64Add (a b : Nat) : Nat := if a+b<2^64 then a+b else a+b-2^64

def u64Sub (a b : Nat) : Nat := if b≤a then a-b else a+2^64-b

/-- The slots of `num` tasks, the window and the cycle counter. History: the counter at the start of
the window and at the last record, and the cycles of interrupts and ticks. -/
structure Cpup where
  num : Nat
  idle : Nat
  running : Nat
  clock : Nat
  used : Nat → Bool := fun _ => true
  startTime : Nat → Nat
  allTime : Nat → Nat := fun _ => 0
  cpupFlag : Nat := 0
  cpuWinStart : Nat
  cpuTimeDelTask : Nat := 0
  winClock : Nat
  mark : Nat
  intTime : Nat := 0

/-- Time passes, an interrupt or tick is entered or left, tasks are switched, created and deleted, and
tasks call `PRT_CpupThread` and `OsCpupThreadNow`. -/
inductive CpupInput where
  | elapse (cycles : Nat)
  | entry | exit
  | switch (next : Nat)
  | setUsed (t : Nat) (used : Bool)
  | thread (inNum : Nat)
  | now
  deriving DecidableEq

namespace Cpup

variable (s : Cpup)

def curCycle : Nat := s.clock%2^64

def taskCycleStart (t cur : Nat) : Cpup := {s with startTime:=update s.startTime t cur}

def taskCycleEnd (t cur : Nat) : Cpup :=
  { s with allTime :=
      update s.allTime t (u64Add (s.allTime t) (u64Sub cur (s.startTime t))) }

def osNowTskCycleStart : Cpup :=
  { if s.cpupFlag=1 then
      { s.taskCycleStart s.running s.curCycle with
        intTime := s.intTime+(s.clock-s.mark), mark := s.clock }
    else s with cpupFlag := s.cpupFlag-1 }

def osNowTskCycleEnd : Cpup :=
  { if s.cpupFlag=0 then {s.taskCycleEnd s.running s.curCycle with mark:=s.clock} else s with
    cpupFlag := s.cpupFlag+1 }

def osCpupStartEnd (last next : Nat) : Cpup :=
  {(s.taskCycleEnd last s.curCycle).taskCycleStart next s.curCycle with mark:=s.clock}

def osCpupTskSwitch (next : Nat) : Cpup := {s.osCpupStartEnd s.running next with running:=next}

def taskTimeLoop : Nat → Nat
  | 0 => 0
  | i+1 => u64Add (taskTimeLoop i) (s.allTime i)

def osCpupAllTaskTimeGet : Nat := u64Add (s.taskTimeLoop s.num) s.cpuTimeDelTask

def osCpupTimeClear : Cpup := {s with allTime:=fun _ => 0, cpuTimeDelTask:=0}

def osCpupGetWinCycles : Nat :=
  let cycles := u64Sub s.curCycle s.cpuWinStart
  if cycles=0 then 2^64-1 else cycles

def share (cycles : Nat) : Nat := cpupUseRate*cycles%2^64/s.osCpupGetWinCycles

def charged : Cpup := s.osCpupStartEnd s.running s.running

def nextWindow : Cpup :=
  {s.osCpupTimeClear with cpuWinStart:=s.curCycle, winClock:=s.clock, intTime:=0}

/-- The usages that are reported: that of interrupts, and those of the tasks in use. -/
def usages : List Nat :=
  s.share (u64Sub s.osCpupGetWinCycles s.osCpupAllTaskTimeGet)%2^16 ::
    ((List.range s.num).filter s.used).map fun i => s.share (s.allTime i)%2^16

def prtCpupThread (inNum : Nat) : List Nat×Cpup :=
  if inNum=0 then ([],s) else (s.charged.usages.take inNum,s.charged.nextWindow)

def osCpupThreadNow : Nat×Cpup :=
  (u64Sub cpupUseRate (s.charged.share (s.charged.allTime s.idle))%2^32,s.charged.nextWindow)

def step : CpupInput → Cpup
  | .elapse cycles => {s with clock:=s.clock+cycles}
  | .entry => s.osNowTskCycleEnd
  | .exit => s.osNowTskCycleStart
  | .switch next => s.osCpupTskSwitch next
  | .setUsed t used => {s with used:=update s.used t used}
  | .thread inNum => (s.prtCpupThread inNum).2
  | .now => s.osCpupThreadNow.2

/-- Windows are short, exits follow entries, and tasks run between outermost interrupts. -/
def May : CpupInput → Prop
  | .elapse cycles => cpupUseRate*(s.clock+cycles-s.winClock)<2^64
  | .entry | .setUsed _ _ => True
  | .exit => 0<s.cpupFlag
  | .switch next => s.cpupFlag=0 ∧ next<s.num
  | .thread _ | .now => s.cpupFlag=0

def taskTime : Nat := ∑ i∈Finset.range s.num, s.allTime i

/-- What a call of a task finds: times that make up the window, and shares that are not too large. -/
def Balanced : Prop :=
  s.charged.taskTime+s.charged.cpuTimeDelTask+s.intTime=s.clock-s.winClock ∧
    s.charged.osCpupAllTaskTimeGet ≤ s.charged.osCpupGetWinCycles ∧
    (∀ inNum, ∀ u∈(s.prtCpupThread inNum).1, u≤cpupUseRate) ∧ s.osCpupThreadNow.1≤cpupUseRate

end Cpup

def cpupMachine : Machine Cpup CpupInput where
  start s := s.running<s.num ∧ s.idle<s.num ∧ s.cpupFlag=0 ∧ s.cpuTimeDelTask=0 ∧ s.intTime=0 ∧
    s.allTime=(fun _ => 0) ∧ s.winClock=s.clock ∧ s.mark=s.clock ∧ s.cpuWinStart=s.curCycle ∧
    s.startTime s.running=s.curCycle
  step s x := s.step x

namespace Cpup

structure Inv (s : Cpup) : Prop where
  running : s.running<s.num
  idle : s.idle<s.num
  marks : s.winClock ≤ s.mark ∧ s.mark ≤ s.clock
  window : cpupUseRate*(s.clock-s.winClock)<2^64
  winStart : s.cpuWinStart=s.winClock%2^64
  started : s.cpupFlag=0 → s.startTime s.running=s.mark%2^64
  total : s.taskTime+s.intTime=s.mark-s.winClock
  del : s.cpuTimeDelTask=0

variable {s : Cpup}

lemma allTime_le (s : Cpup) {i : Nat} (hi : i<s.num) : s.allTime i ≤ s.taskTime :=
  Finset.single_le_sum (fun _ _ => Nat.zero_le _) (Finset.mem_range.mpr hi)

lemma Inv.charge (h : s.Inv) (hf : s.cpupFlag=0) :
    (s.taskCycleEnd s.running s.curCycle).taskTime=s.taskTime+(s.clock-s.mark) := by
  have hle := s.allTime_le h.running
  have htotal := h.total
  have hwin := h.window
  have hmarks := h.marks
  have hd : u64Sub s.curCycle (s.startTime s.running)=s.clock-s.mark := by
    rw [h.started hf,curCycle,u64Sub]
    unfold cpupUseRate at hwin
    split <;> omega
  have hadd : u64Add (s.allTime s.running) (s.clock-s.mark) =
      s.allTime s.running+(s.clock-s.mark) := if_pos (by unfold cpupUseRate at hwin; omega)
  have hmem := Finset.mem_range.mpr h.running
  rw [taskTime,taskCycleEnd,hd,hadd]
  rw [Finset.sum_update_of_mem hmem,taskTime,
    Finset.sum_eq_add_sum_sdiff_singleton_of_mem hmem s.allTime]
  omega

lemma Inv.switch (h : s.Inv) (hf : s.cpupFlag=0) {next : Nat} (hn : next<s.num) :
    (s.osCpupTskSwitch next).Inv := by
  have hcharge := h.charge hf
  have htotal := h.total
  have hmarks := h.marks
  refine ⟨hn,h.idle,?_,h.window,h.winStart,?_,?_,h.del⟩
  . change s.winClock ≤ s.clock ∧ s.clock ≤ s.clock
    omega
  . intro _
    exact update_self _ _ _
  change (s.taskCycleEnd s.running s.curCycle).taskTime+s.intTime=s.clock-s.winClock
  omega

lemma Inv.entry (h : s.Inv) : s.osNowTskCycleEnd.Inv := by
  have htotal := h.total
  have hmarks := h.marks
  unfold osNowTskCycleEnd
  split
  . rename_i hf
    have hcharge := h.charge hf
    refine ⟨h.running,h.idle,?_,h.window,h.winStart,nofun,?_,h.del⟩
    . change s.winClock ≤ s.clock ∧ s.clock ≤ s.clock
      omega
    change (s.taskCycleEnd s.running s.curCycle).taskTime+s.intTime=s.clock-s.winClock
    omega
  exact ⟨h.running,h.idle,h.marks,h.window,h.winStart,nofun,h.total,h.del⟩

lemma Inv.exit (h : s.Inv) (hf : 0<s.cpupFlag) : s.osNowTskCycleStart.Inv := by
  have htotal := h.total
  have hmarks := h.marks
  unfold osNowTskCycleStart
  split
  . refine ⟨h.running,h.idle,?_,h.window,h.winStart,fun _ => update_self _ _ _,?_,h.del⟩
    . change s.winClock ≤ s.clock ∧ s.clock ≤ s.clock
      omega
    change s.taskTime+(s.intTime+(s.clock-s.mark))=s.clock-s.winClock
    omega
  refine ⟨h.running,h.idle,h.marks,h.window,h.winStart,?_,h.total,h.del⟩
  intro hz
  change s.cpupFlag-1=0 at hz
  omega

lemma Inv.charged (h : s.Inv) (hf : s.cpupFlag=0) : s.charged.Inv := h.switch hf h.running

lemma Inv.nextWindow (h : s.Inv) (hm : s.mark=s.clock) : s.nextWindow.Inv := by
  refine ⟨h.running,h.idle,⟨Nat.le_of_eq hm.symm,Nat.le_of_eq hm⟩,?_,rfl,h.started,?_,rfl⟩
  . change cpupUseRate*(s.clock-s.clock)<2^64
    rw [Nat.sub_self]
    decide
  change (∑ i∈Finset.range s.num, 0)+0=s.mark-s.clock
  rw [hm,Nat.sub_self,Finset.sum_const_zero]

lemma Inv.step (h : s.Inv) {x : CpupInput} (hx : s.May x) : (s.step x).Inv := by
  cases x with
  | elapse cycles =>
    have hmarks := h.marks
    refine ⟨h.running,h.idle,?_,hx,h.winStart,h.started,h.total,h.del⟩
    change s.winClock ≤ s.mark ∧ s.mark ≤ s.clock+cycles
    omega
  | entry => exact h.entry
  | exit => exact h.exit hx
  | switch next => exact h.switch hx.1 hx.2
  | setUsed t used => exact ⟨h.running,h.idle,h.marks,h.window,h.winStart,h.started,h.total,h.del⟩
  | thread inNum =>
    change (s.prtCpupThread inNum).2.Inv
    unfold prtCpupThread
    split
    . exact h
    exact (h.charged hx).nextWindow rfl
  | now => exact (h.charged hx).nextWindow rfl

lemma taskTimeLoop_eq {n : Nat} (h : ∑ i∈Finset.range n, s.allTime i<2^64) :
    s.taskTimeLoop n = ∑ i∈Finset.range n, s.allTime i := by
  induction n with
  | zero => rfl
  | succ n ih =>
    rw [Finset.sum_range_succ] at h ⊢
    rw [taskTimeLoop,ih (by omega),u64Add,if_pos h]

lemma Inv.winCycles (h : s.Inv) : s.osCpupGetWinCycles =
    if s.clock-s.winClock=0 then 2^64-1 else s.clock-s.winClock := by
  have hmarks := h.marks
  have hwin := h.window
  unfold cpupUseRate at hwin
  have hsub : u64Sub s.curCycle s.cpuWinStart=s.clock-s.winClock := by
    rw [h.winStart,curCycle,u64Sub]
    split <;> omega
  rw [osCpupGetWinCycles,hsub]

lemma Inv.share_le (h : s.Inv) {cycles : Nat} (hc : cycles ≤ s.osCpupGetWinCycles) :
    s.share cycles≤cpupUseRate := by
  rw [share]
  rw [h.winCycles] at hc ⊢
  split at hc
  . rw [if_pos ‹_›]
    have hone (x : Nat) : x%2^64/(2^64-1)≤1 := by omega
    exact (hone _).trans (by decide)
  rw [if_neg ‹_›]
  apply (Nat.div_le_div_right (Nat.mod_le _ _)).trans
  apply Nat.div_le_of_le_mul
  rw [Nat.mul_comm _ cpupUseRate]
  exact Nat.mul_le_mul_left _ hc

lemma Inv.balanced (h : s.Inv) (hf : s.cpupFlag=0) : s.Balanced := by
  have hc := h.charged hf
  have htotal : s.charged.taskTime+s.intTime=s.clock-s.winClock := hc.total
  have hwin := h.window
  unfold cpupUseRate at hwin
  have htime : s.charged.taskTime ≤ s.charged.osCpupGetWinCycles := by
    rw [hc.winCycles]
    change _ ≤ if s.clock-s.winClock=0 then 2^64-1 else s.clock-s.winClock
    split <;> omega
  have hall : s.charged.osCpupAllTaskTimeGet=s.charged.taskTime := by
    have hlt : s.charged.taskTime<2^64 := by omega
    rw [osCpupAllTaskTimeGet,taskTimeLoop_eq hlt,hc.del]
    exact if_pos hlt
  have hslot {i : Nat} (hi : i<s.num) : s.charged.share (s.charged.allTime i)≤cpupUseRate :=
    hc.share_le ((s.charged.allTime_le hi).trans htime)
  refine ⟨?_,hall.trans_le htime,?_,?_⟩
  . rw [hc.del]
    exact htotal
  . intro inNum u hu
    unfold prtCpupThread at hu
    split at hu
    . cases hu
    rcases mem_cons.mp (mem_of_mem_take hu) with rfl | hu
    . refine (Nat.mod_le _ _).trans (hc.share_le ?_)
      rw [hall,u64Sub,if_pos htime]
      exact Nat.sub_le _ _
    obtain ⟨i,hi,rfl⟩ := mem_map.mp hu
    have hlt := mem_range.mp (mem_filter.mp hi).1
    exact (Nat.mod_le _ _).trans (hslot hlt)
  rw [osCpupThreadNow,u64Sub,if_pos (hslot h.idle)]
  exact (Nat.mod_le _ _).trans (Nat.sub_le _ _)

end Cpup

open Cpup

/-- Whenever a task may ask, the recorded times and that of interrupts make up the window, and the
usages are at most `cpupUseRate`. -/
theorem cpup_balanced {s : Cpup} (hr : cpupMachine.Reaches May s) (hf : s.cpupFlag=0) :
    s.Balanced := by
  have h : s.Inv := by
    apply hr.invariant
    . rintro s ⟨hrun,hidle,hf,hdel,hint,hall,hwin,hmark,hws,hstart⟩
      refine ⟨hrun,hidle,by omega,?_,by rw [hws,hwin]; rfl,?_,?_,hdel⟩
      . rw [hwin,Nat.sub_self]
        decide
      . intro _
        rw [hstart,hmark]
        rfl
      rw [taskTime,hall,Finset.sum_const_zero,hint,hmark,hwin,Nat.sub_self]
    intro s x hs hx
    exact hs.step hx
  exact h.balanced hf

def cpupFirst : Cpup where
  num := 3
  idle := 2
  running := 0
  clock := 5
  startTime _ := 5
  cpuWinStart := 5
  winClock := 5
  mark := 5

def cpupHundred : Cpup :=
  cpupMachine.run cpupFirst [.elapse 40,.entry,.elapse 10,.exit,.switch 1,.elapse 50]

theorem cpup_balanced_hundred :
    cpupHundred.Balanced ∧ (cpupHundred.prtCpupThread 4).1=[1000,4000,5000,0] := by
  have hstart : cpupMachine.start cpupFirst := ⟨by decide,by decide,rfl,rfl,rfl,rfl,rfl,rfl,rfl,rfl⟩
  refine ⟨cpup_balanced (.run (.start hstart) _ ?_) rfl,by decide +kernel⟩
  refine ⟨?_,trivial,?_,?_,⟨rfl,?_⟩,?_,trivial⟩
  all_goals
    change _<_
    decide +kernel

end UniProton.Om
