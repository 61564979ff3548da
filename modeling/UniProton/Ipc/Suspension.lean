import UniProton.Kernel.Reach

namespace UniProton

open Framework

/-- How a call of `PRT_SigSuspend` ends: without a code when the task waits, and with the interrupts
masked or not. -/
structure SuspendEnd where
  sched : Sched
  code : Option Errno
  intLocked : Bool

namespace Sched

variable {s : Sched} {mask : BitVec 64} {intLocked : Bool} {between : Sched → Sched} {e : Errno}

/-- `PRT_SigSuspend`, with what comes `between` its two parts while interrupts are open. -/
def sigSuspendCall (s : Sched) (mask : BitVec 64) (intLocked : Bool) (between : Sched → Sched) :
    SuspendEnd :=
  let intSave := intLocked
  match s.prtSigSuspend mask with
  | (s',some .osOk) => ⟨s',some .osOk,intSave⟩
  -- the idle task is sent back from behind `OsIntLock`
  | (s',some e) => ⟨s',some e,true⟩
  | (s',none) =>
    let r := (between s').sigSuspendEnterCont (s.tcb s.cpu.runningTask).sigMask (~~~ mask)
    ⟨r.1,r.2,intSave⟩

/-- What comes in between goes back to the caller, and leaves its mask and its wait alone. -/
structure GoesBack (t : Nat) (s s' : Sched) : Prop where
  running : s'.cpu.runningTask=t
  sigMask : (s'.tcb t).sigMask=(s.tcb t).sigMask
  waitSignal : (s'.status t).waitSignal=(s.status t).waitSignal

/-- A call that has failed has left the caller and the interrupts as they were. -/
structure LeftAlone (s : Sched) (intLocked : Bool) (r : SuspendEnd) : Prop where
  sigMask : (r.sched.tcb s.cpu.runningTask).sigMask=(s.tcb s.cpu.runningTask).sigMask
  awake : (r.sched.status s.cpu.runningTask).waitSignal=false
  ints : r.intLocked=intLocked

structure Masked (mask : BitVec 64) (s s' : Sched) : Prop where
  sigMask : (s'.tcb s.cpu.runningTask).sigMask=mask
  waitSignal : (s'.status s.cpu.runningTask).waitSignal=(s.status s.cpu.runningTask).waitSignal

lemma Masked.leftAlone_iff {r : SuspendEnd} (h : Masked mask s r.sched) :
    LeftAlone s intLocked r ↔ mask=(s.tcb s.cpu.runningTask).sigMask ∧
      r.intLocked=intLocked ∧ (s.status s.cpu.runningTask).waitSignal=false := by
  constructor
  . intro hr
    exact ⟨h.sigMask.symm.trans hr.sigMask,hr.ints,h.waitSignal.symm.trans hr.awake⟩
  rintro ⟨hm,hi,hw⟩
  exact ⟨h.sigMask.trans hm,h.waitSignal.trans hw,hi⟩

lemma masked_modTcb : Masked mask s (s.modTcb s.cpu.runningTask fun c =>
    {c with sigMask:=mask, sigWaitMask:=0}) := by
  constructor
  . simp [modTcb]
  simp [status,modTcb]

lemma prtSigSuspend_cases (s : Sched) (mask : BitVec 64) : (s.prtSigSuspend mask).2=some .osOk ∨
      ((s.prtSigSuspend mask).2=some .signalTaskidInvalid ∧
        (s.tcb s.cpu.runningTask).taskPid=s.cpu.idleTaskId ∧
        Masked mask s (s.prtSigSuspend mask).1) ∨ ((s.prtSigSuspend mask).2=none ∧
        (s.tcb s.cpu.runningTask).taskPid≠s.cpu.idleTaskId ∧
        Masked mask s (s.prtSigSuspend mask).1) := by
  have hpid : ((s.modTcb s.cpu.runningTask fun c =>
      {c with sigMask:=mask, sigWaitMask:=0}).tcb s.cpu.runningTask).taskPid =
        (s.tcb s.cpu.runningTask).taskPid := by
    simp [modTcb]
  have hm : Masked mask s _ := masked_modTcb
  simp only [prtSigSuspend]
  rw [hpid]
  split
  . exact .inl rfl
  split
  . next hidle => exact .inr (.inl ⟨rfl,hidle,hm⟩)
  next hidle => exact .inr (.inr ⟨rfl,hidle,hm.sigMask,hm.waitSignal⟩)

lemma sigSuspendEnterCont_refused {saved wait : BitVec 64}
    (he : (s.sigSuspendEnterCont saved wait).2=some e) :
    (s.sigSuspendEnterCont saved wait).1=s.setCont s.cpu.runningTask .user := by
  unfold sigSuspendEnterCont osSignalWaitSche at he ⊢
  split at he
  . next h0 => cases h0
  split at he
  . next hl =>
    rw [if_neg (by decide),if_pos hl]
  cases he

/-- A failed `PRT_SigSuspend` has left the caller as it was exactly if the mask was the caller's
already, the idle task called with interrupts masked, and the caller was not marked as waiting. -/
theorem sigSuspend_error_iff (he : (s.sigSuspendCall mask intLocked between).code=some e)
    (hne : e≠.osOk)
    (hb : ∀ s', s'.cpu.runningTask=s.cpu.runningTask → GoesBack s.cpu.runningTask s' (between s')) :
    LeftAlone s intLocked (s.sigSuspendCall mask intLocked between) ↔
      mask=(s.tcb s.cpu.runningTask).sigMask ∧
        ((s.tcb s.cpu.runningTask).taskPid=s.cpu.idleTaskId → intLocked=true) ∧
        (s.status s.cpu.runningTask).waitSignal=false := by
  obtain hok | ⟨hcode,hidle,hm⟩ | ⟨hcode,hidle,hm⟩ := s.prtSigSuspend_cases mask
  . exfalso
    unfold sigSuspendCall at he
    split at he
    . exact hne (Option.some.inj he).symm
    . next e' hne' heq =>
      rw [heq] at hok
      exact hne' (Option.some.inj hok)
    next heq =>
    rw [heq] at hok
    cases hok
  . have hr : s.sigSuspendCall mask intLocked between =
        ⟨(s.prtSigSuspend mask).1,some .signalTaskidInvalid,true⟩ := by
      unfold sigSuspendCall
      split
      . next heq => simp [heq] at hcode
      . next heq =>
        rw [heq] at hcode
        rw [heq,Option.some.inj hcode]
      next heq => simp [heq] at hcode
    rw [hr,Masked.leftAlone_iff hm]
    simp only [hidle,forall_const,eq_comm]
  have hr : s.sigSuspendCall mask intLocked between =
      ⟨((between (s.prtSigSuspend mask).1).sigSuspendEnterCont
          (s.tcb s.cpu.runningTask).sigMask (~~~ mask)).1,
        ((between (s.prtSigSuspend mask).1).sigSuspendEnterCont
          (s.tcb s.cpu.runningTask).sigMask (~~~ mask)).2,intLocked⟩ := by
    unfold sigSuspendCall
    split
    . next heq => simp [heq] at hcode
    . next heq => simp [heq] at hcode
    next heq => rw [heq]
  have hrun : (s.prtSigSuspend mask).1.cpu.runningTask=s.cpu.runningTask := by
    simp only [prtSigSuspend]
    split
    . rfl
    split <;> rfl
  have hback := hb _ hrun
  rw [hr] at he
  have hm' : Masked mask s ((between (s.prtSigSuspend mask).1).sigSuspendEnterCont
      (s.tcb s.cpu.runningTask).sigMask (~~~ mask)).1 := by
    rw [sigSuspendEnterCont_refused he]
    exact ⟨hback.sigMask.trans hm.sigMask,hback.waitSignal.trans hm.waitSignal⟩
  rw [hr,Masked.leftAlone_iff hm']
  simp only [hidle,false_implies,true_and]

def lockedTask : Sched :=
  ((kernelMachine smallCfg).run (Kernel.init smallCfg)
    [.call (.taskCreate (smallTask 9) true false),.call (.taskResume 0),.activate true,
     .call .taskLock]).sched

def idleAlone : Sched :=
  ((kernelMachine smallCfg).run (Kernel.init smallCfg) [.activate true]).sched

theorem sigSuspend_error_own_mask :
    (lockedTask.sigSuspendCall 0 false id).code=some .signalWaitInLock ∧
      LeftAlone lockedTask false (lockedTask.sigSuspendCall 0 false id) := by
  have hcode : (lockedTask.sigSuspendCall 0 false id).code=some .signalWaitInLock := by
    decide +kernel
  refine ⟨hcode,(sigSuspend_error_iff hcode nofun fun s' hr => ⟨hr,rfl,rfl⟩).mpr ?_⟩
  decide +kernel

/-- The scheduler is locked, and the caller keeps the mask of the call; the idle task calls, and the
interrupts stay masked. -/
theorem sigSuspend_error_leaves_mask :
    ((lockedTask.sigSuspendCall 6 false id).code=some .signalWaitInLock ∧
      ((lockedTask.sigSuspendCall 6 false id).sched.tcb lockedTask.cpu.runningTask).sigMask=6 ∧
      ¬LeftAlone lockedTask false (lockedTask.sigSuspendCall 6 false id)) ∧
    ((idleAlone.sigSuspendCall 0 false id).code=some .signalTaskidInvalid ∧
      (idleAlone.sigSuspendCall 0 false id).intLocked=true ∧
      ¬LeftAlone idleAlone false (idleAlone.sigSuspendCall 0 false id)) := by
  refine ⟨⟨by decide +kernel,by decide +kernel,fun h => ?_⟩,by decide +kernel,
    by decide +kernel,fun h => ?_⟩
  . exact absurd h.sigMask (by decide +kernel)
  exact absurd h.ints (by decide +kernel)

end Sched

end UniProton
