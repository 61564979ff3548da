import UniProton.Kernel.Reach

namespace UniProton

open Function Sched

namespace Sched

variable {s : Sched} {t : Nat}

lemma delayIntEnd_cont (s : Sched) (t : Nat) : (s.delayIntEnd t).cont=s.cont := by
  unfold delayIntEnd timeoutClear
  repeat' split
  all_goals rfl

lemma osMainSchedule_cont (s : Sched) : s.osMainSchedule.cont=s.cont := by
  unfold osMainSchedule
  repeat' split
  all_goals rfl

lemma osTskSchedule_cont (s : Sched) : s.osTskSchedule.cont=s.cont := by
  simp only [osTskSchedule]
  split
  . split
    . rfl
    exact osMainSchedule_cont _
  rfl

lemma prtTaskResume_cont (s : Sched) (t : Nat) : (s.prtTaskResume t).1.cont=s.cont := by
  simp only [prtTaskResume,osMoveTaskToReady]
  repeat' split
  all_goals first
    | rfl
    | exact delayIntEnd_cont _ _
    | exact (osTskSchedule_cont _).trans (delayIntEnd_cont _ _)

lemma osFirstTimeSwitch_cont (s : Sched) : s.osFirstTimeSwitch.cont=s.cont := by
  simp only [osFirstTimeSwitch]
  split <;> rfl

lemma prtTaskDelete_gone (s : Sched) (t : Nat) : ((s.prtTaskDelete t).1.status t).inuse=false ∨
      ∃ x, (s.prtTaskDelete t).1.tcb t={s.tcb t with kthreadTsk:=x} ∧
        (s.prtTaskDelete t).1.cont t=s.cont t := by
  have hkeep : ∃ x, (s.modTcb t fun c => {c with kthreadTsk:=none}).tcb t =
      {s.tcb t with kthreadTsk:=x} ∧
        (s.modTcb t fun c => {c with kthreadTsk:=none}).cont t=s.cont t :=
    ⟨none,by simp only [modTcb,update_self],rfl⟩
  unfold prtTaskDelete
  split
  . exact .inr ⟨_,rfl,rfl⟩
  split
  . exact .inr ⟨_,rfl,rfl⟩
  dsimp only
  split
  . exact .inr hkeep
  split
  . exact .inr hkeep
  left
  generalize (((s.modTcb t fun c => {c with kthreadTsk:=none}).osTaskDeleteResInit
    t).osTskHighestSet)=s1
  split
  . have hz : ((s1.zombieInPlace t).status t).inuse=false := by
      simp [zombieInPlace,modStatus,modTcb,status]
    simp only [osTaskDeleteRunning]
    split
    . exact hz
    have hq := (Kernel.quiet_inuse fun _ => False).respects.step_osMainSchedule
      ((Kernel.quiet_inuse fun _ => False).refl (s1.zombieInPlace t))
    rw [hq t id]
    exact hz
  simp [pendInsert,modStatus,modTcb,status]

end Sched

namespace Kernel

variable {c u d e : Prop} {k : Kernel} {a : Input} {t : Nat}

lemma quiet_event : Quiet ⟨fun _ => False,fun _ => True,True,True,True,True,
    fun _ => False,True⟩ fun s s' => ∀ t, (s'.tcb t).event=(s.tcb t).event where
  refl s t := rfl
  trans h h' t := (h' t).trans (h t)
  frame ht _ _ t := by rw [ht]
  modTcb s t f hf t' := by
    by_cases e : t'=t
    . subst e
      simp only [modTcb,update_self]
      exact ((hf.event.resolve_left id).resolve_left id).event
    simp only [modTcb,update_of_ne e]
  setCont s t k _ t' := rfl
  pendInsert s t h i _ t' := rfl
  pendDelete s t t' := rfl

structure Born (s : Sched) (t : Nat) : Prop where
  cont : s.cont t=.user
  event : (s.tcb t).event=0

lemma osTaskCreateOnly_born (k : Kernel) (p : TskInitParam) (memOk kthread : Bool)
    (hin : (k.sched.status t).inuse=false) :
    ((k.osTaskCreateOnly p memOk kthread).1.sched.status t).inuse=false ∨
      Born (k.osTaskCreateOnly p memOk kthread).1.sched t := by
  have hr : (k.sched.osTskRecycle.status t).inuse=false := by
    change (k.sched.osTskRecycle.tcb t).taskStatus.inuse=false
    rw [show k.sched.osTskRecycle.tcb=k.sched.tcb from osTskRecycleLoop_tcb _ _]
    exact hin
  have ht : ∀ t' b, ((takeTcb k.sched.osTskRecycle t' b).status t).inuse=false := by
    intro t' b
    have hq := (quiet_inuse fun _ => False).respects.step_takeTcb
      ((quiet_inuse fun _ => False).refl k.sched.osTskRecycle) (t:=t') b
    rw [hq t id]
    exact hr
  rcases osTaskCreateOnly_cases k p memOk kthread with
    ⟨_,he⟩ | ⟨_,he⟩ | ⟨t',l,_,-,he⟩ | ⟨t',l,-,-,he⟩
  . rw [he]
    exact .inl hin
  . rw [he]
    exact .inl hr
  . rw [he]
    exact .inl (ht t' kthread)
  rw [he]
  by_cases hne : t=t'
  . subst hne
    refine .inr ⟨setCont_self _ _ _,?_⟩
    simp only [setCont,modTcb,update_self]
    rfl
  left
  change (update (takeTcb k.sched.osTskRecycle t' kthread).tcb t' _ t).taskStatus.inuse=false
  rw [update_of_ne hne]
  exact ht t' kthread

lemma osActivate_born (h : Able c u k.sched) (memOk : Bool)
    (hin : (k.sched.status t).inuse=false) : ((k.osActivate memOk).1.sched.status t).inuse=false ∨
      Born (k.osActivate memOk).1.sched t := by
  have hb := osTaskCreateOnly_born k
    ⟨true,k.sched.cfg.prioLowest,k.sched.cfg.idleStackSize,0,some "IdleTask"⟩ memOk false hin
  have hc := (osTaskCreateOnly_settles h
    ⟨true,k.sched.cfg.prioLowest,k.sched.cfg.idleStackSize,0,some "IdleTask"⟩ memOk
    false (d:=False)).sound.1
  simp only [osActivate]
  split
  . next he =>
    rw [he] at hb
    exact hb
  next k1 t' he =>
  rw [he] at hb hc
  rcases hb with hb | hb
  . have hQ := quiet_inuse fun _ => False
    have h1 := hQ.respects.step_prtTaskResume (t:=t') (hQ.refl k1.sched) (by rintro _ ⟨⟩)
      fun hle hd => .of_delayInt (.inr hc) hle hd
    refine .inl (Eq.trans (hQ.respects.step_osFirstTimeSwitch ?_ t id) hb)
    exact hQ.trans h1 (hQ.frame rfl rfl rfl)
  refine .inr ⟨?_,?_⟩
  . rw [osFirstTimeSwitch_cont]
    rw [prtTaskResume_cont]
    exact hb.cont
  have h1 := quiet_event.respects.step_prtTaskResume (t:=t') (quiet_event.refl k1.sched)
    (by rintro _ ⟨⟩) fun hle hd => .of_delayInt (.inr hc) hle hd
  refine Eq.trans (quiet_event.respects.step_osFirstTimeSwitch ?_ t) hb.event
  exact quiet_event.trans h1 (quiet_event.frame rfl rfl rfl)

lemma act_gone (hd : Deletes k.sched a t) : ((k.act a).1.sched.status t).inuse=false ∨
      ∃ x, (k.act a).1.sched.tcb t={k.sched.tcb t with kthreadTsk:=x} ∧
        (k.act a).1.sched.cont t=k.sched.cont t := by
  cases a with
  | call call =>
    cases call with
    | taskDelete t' =>
      obtain rfl : t=t' := hd
      exact k.sched.prtTaskDelete_gone t
    | taskExit =>
      obtain rfl : t=k.sched.cpu.runningTask := hd
      exact prtTaskDelete_gone {k.sched with cpu:={k.sched.cpu with uniTaskLock:=0}} _
    | _ => exact hd.elim
  | _ => exact hd.elim

lemma act_born (h : Able c u k.sched) (hen : k.enabled a=true)
    (hk : InputOk c u d e k a) (hle : t≤k.sched.cfg.tskMaxNum)
    (hin : (k.sched.status t).inuse=false) :
    ((k.act a).1.sched.status t).inuse=false ∨ Born (k.act a).1.sched t := by
  by_cases hd : Deletes k.sched a t
  . rcases act_gone hd with hg | ⟨x,ht,-⟩
    . exact .inl hg
    apply Or.inl
    rw [status,ht]
    exact hin
  have hsame : k.InputWithin ⟨fun t' => Deletes k.sched a t' ∨ t'=k.sched.zombie,
      fun _ => True,True,True,True,True,fun _ => True,True⟩ a →
      ((k.act a).1.sched.status t).inuse=false := by
    intro hT
    have hq := act_quiet (quiet_inuse _) h hen hk hT t
    rw [hq]
    . exact hin
    rintro (he | rfl)
    . exact hd he
    exact absurd hle (Nat.not_succ_le_self _)
  cases a with
  | call call =>
    cases call with
    | taskCreate p memOk kthread =>
      have hb := osTaskCreateOnly_born k p memOk kthread hin
      simp only [act,exec]
      split
      . next he => rw [he] at hb; exact hb
      next he => rw [he] at hb; exact hb
    | taskDelete | taskExit => exact .inl (hsame ⟨.inl rfl,.inr rfl⟩)
    | semPend i n => exact .inl (hsame ⟨trivial,trivial⟩)
    | _ => exact .inl (hsame trivial)
  | activate memOk => exact osActivate_born h memOk hin
  | proceed => exact .inl (hsame ⟨fun _ => trivial,fun _ => trivial,fun _ => trivial⟩)
  | _ => exact .inl (hsame trivial)

end Kernel

end UniProton
