import UniProton.Kernel.ReadyQueue

namespace UniProton

open Framework Kernel

/-- The scheduling calls with sleeps of kernel threads and deletion. -/
def Call.waits : Call → Bool
  | .taskDelete _ | .taskExit | .setCurrentState _ | .scheduleTimeout _ | .wakeUpProcess _ => true
  | c => c.schedules

def Input.waits : Input → Bool
  | .call c => c.waits
  | _ => true

/-- No timeout flag is left over where the flag would be taken for a limited wait: at the start
of a wait without a limit, and at a deletion. -/
def Input.flagSafe (s : Sched) : Input → Prop
  | .call c =>
    (c.untimed=true → s.cpu.taskContext=true → (s.status s.cpu.runningTask).timeout=false) ∧
    (∀ t, c=.taskDelete t → (s.status t).timeout=true → (s.status t).waiting=true) ∧
    (c=.taskExit → (s.status s.cpu.runningTask).timeout=false)
  | _ => True

/-- A task that is delayed, or that waits with the timeout flag, is in the delay list, and no
node was taken out of that list that was not in it. -/
structure TimersOk (s : Sched) : Prop where
  linked : ∀ t ≤ s.cfg.tskMaxNum, (s.status t).delay=true ∨
    ((s.status t).waiting=true ∧ (s.status t).timeout=true) → s.timer.linked t=true
  faults : ∀ f∈s.faults, f≠.deleteUnlinked .timerList

lemma Call.waits_ok {s : Sched} {call : Call} (hc : call.waits=true)
    (hz : s.cpu.uniTaskLock=0) (hf : Input.flagSafe s (.call call)) :
    CallOk True False False True s call where
  plain := by
    cases call <;> first | rfl | cases hc
  lock := by
    rintro rfl
    cases hc
  delete t he _ := hf.2.1 t he
  exit he := ⟨fun _ _ => hz,fun _ => hf.2.2 he⟩
  idle _ := False.elim
  sleep _ _ := id
  stale hu _ := hf.1 hu

/-- In a run that leaves no flag over, `ListDelete` meets linked nodes only. -/
theorem timers_of_flagSafe {cfg : Cfg} {k : Kernel} (h : (kernelMachine cfg).Reaches
      (fun k i => i.waits=true ∧ i.flagSafe k.sched) k) : TimersOk k.sched := by
  have hf : Fine True False False True False k := by
    refine fine_of_reaches ⟨id,False.elim,id⟩ (fun k i hk hi hen => ⟨?_,False.elim⟩) h
    cases i with
    | call call => exact Call.waits_ok hi.1 (hk.lock trivial) hi.2
    | _ => exact trivial
  have ht := hf.tidy trivial
  refine ⟨fun t hle hb => (ht.tight t hle).timed hb,fun f hm he => ?_⟩
  have hk := ht.faults.kind f hm
  rw [he] at hk
  cases hk

def sleepInputs : List Input :=
  [.call (.taskCreate (smallTask 3) true true),.call (.taskResume 0),
   .call (.taskCreate (smallTask 5) true false),.call (.taskResume 1),.call (.semCreate 0),
   .activate true,.call (.setCurrentState .interruptible),.call (.scheduleTimeout 1)]

theorem timers_of_flagSafe_sleep :
    let k := (kernelMachine smallCfg).run (Kernel.init smallCfg) sleepInputs
    k.sched.delayList=[0] ∧ k.sched.cpu.runningTask=1 ∧ TimersOk k.sched := by
  have hrun : (kernelMachine smallCfg).Reaches (fun k i => i.waits=true ∧ i.flagSafe k.sched)
      ((kernelMachine smallCfg).run (Kernel.init smallCfg) sleepInputs) := by
    apply Machine.Reaches.run (.start rfl) _
    have hcall : ∀ {k : Kernel} {c : Call}, c.waits=true → c.untimed=false →
        (∀ t, c≠.taskDelete t) → c≠.taskExit →
        (Input.call c).waits=true ∧ (Input.call c).flagSafe k.sched := by
      intro k c hw hu hd he
      refine ⟨hw,fun ht => ?_,fun t hc => absurd hc (hd t),fun hc => absurd hc he⟩
      rw [hu] at ht
      cases ht
    refine ⟨hcall rfl rfl nofun nofun,hcall rfl rfl nofun nofun,hcall rfl rfl nofun nofun,
      hcall rfl rfl nofun nofun,hcall rfl rfl nofun nofun,⟨rfl,trivial⟩,
      hcall rfl rfl nofun nofun,hcall rfl (by decide) nofun nofun,trivial⟩
  refine ⟨?_,?_,timers_of_flagSafe hrun⟩
  all_goals decide +kernel

/-- The tick ends the sleep and leaves the flag. The thread then waits without a limit, and the
post takes the flag for a limit. -/
def staleInputs : List Input :=
  sleepInputs++[.hwiEnter,.tickIsr,.hwiExit,.tickScan,.tickEnd,
    .call (.semPend 0 osWaitForever),.call (.semPost 0)]

theorem timers_fault_of_stale_flag :
    let k := (kernelMachine smallCfg).run (Kernel.init smallCfg) staleInputs
    (kernelMachine smallCfg).Reaches (fun _ i => i.waits=true) k ∧
      k.sched.faults=[.deleteUnlinked .timerList] ∧ ¬TimersOk k.sched := by
  have hrun : (kernelMachine smallCfg).Reaches (fun _ i => i.waits=true)
      ((kernelMachine smallCfg).run (Kernel.init smallCfg) staleInputs) :=
    Machine.Reaches.run (.start rfl) _ ⟨rfl,rfl,rfl,rfl,rfl,rfl,rfl,rfl,rfl,rfl,rfl,rfl,
      rfl,rfl,rfl,trivial⟩
  have hfault : ((kernelMachine smallCfg).run (Kernel.init smallCfg) staleInputs).sched.faults =
      [.deleteUnlinked .timerList] := by
    decide +kernel
  refine ⟨hrun,hfault,fun hok => ?_⟩
  refine hok.faults (.deleteUnlinked .timerList) ?_ rfl
  rw [hfault]
  exact List.mem_singleton_self _

end UniProton
