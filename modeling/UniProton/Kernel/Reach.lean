import UniProton.Kernel.Invariant

namespace UniProton

open Framework Function

def smallCfg : Cfg where
  prioLowest := 31
  tskMaxNum := 3
  maxSem := 4
  maxQueue := 2
  stackMin := 64
  stackDefault := 256
  idleStackSize := 256
  prio_lt := by decide
  tsk_lt := by decide

def smallTask (prio : Nat) : TskInitParam := ⟨true,prio,256,0,some "task"⟩

variable {c u d e x : Prop} {cfg : Cfg} {k : Kernel}

namespace Kernel

lemma init_loc (cfg : Cfg) (t : Nat) : ((init cfg).sched.view t).loc =
    if t≤cfg.tskMaxNum then some .free else none := by
  change (if t∈List.range (cfg.tskMaxNum+1) then some PendHead.free else none)=_
  simp only [List.mem_range,Nat.lt_succ_iff]

lemma init_tcb {cfg : Cfg} {t : Nat} (ht : t≤cfg.tskMaxNum) :
    (init cfg).sched.tcb t={taskPid:=t} := by
  have hne : t≠cfg.tskMaxNum+1 := by omega
  change update (fun t => ({taskPid:=t} : TskCb)) (cfg.tskMaxNum+1) _ t=_
  rw [update_of_ne hne]

lemma init_lists (cfg : Cfg) {h : PendHead} (hh : h≠.free) :
    (init cfg).sched.pend.lists h=[] := by
  change update (fun _ => []) PendHead.free _ h=[]
  rw [update_of_ne hh]

lemma init_fits {cfg : Cfg} {t : Nat} (ht : t≤cfg.tskMaxNum) :
    Fits cfg.prioLowest .unused ((init cfg).sched.view t) := by
  have hv : (init cfg).sched.view t=⟨{taskPid:=t},.user,some .free,false⟩ := by
    have hl := init_loc cfg t
    rw [if_pos ht] at hl
    refine TaskView.ext (init_tcb ht) rfl hl rfl
  rw [hv]
  exact
    { inuse := rfl, ready := rfl, pend := rfl, queuePend := rfl, eventPend := rfl, rwPend := rfl
      delay := rfl, delayInterruptible := rfl, waitqueuePend := rfl
      holdSignal := rfl, suspend := nofun, unused := fun _ => rfl
      loc := .inl rfl, obj := trivial, ctx := rfl, prio := Nat.zero_le _, orig := Nat.zero_le _
      timer := nofun, busy := nofun, handed := nofun }

lemma init_core (cfg : Cfg) : (init cfg).sched.Core := by
  refine ⟨fun t ht => ⟨.unused,init_fits ht,nofun⟩,fun t ht => ⟨?_,rfl⟩,fun t ht => ?_,
    ⟨?_,?_⟩,fun t ht => ?_⟩
  . rw [init_loc]
    exact if_neg (not_le.mpr ht)
  . change ((init cfg).sched.tcb t).taskPid=t
    rw [init_tcb (show t≤cfg.tskMaxNum from ht)]
  . refine PrioMap.empty_holds.congr fun p => ?_
    have hnil : (init cfg).sched.readyList p=[] := init_lists cfg nofun
    simp [hnil]
  . rfl
  have ht' : t≤cfg.tskMaxNum := ht
  have hne : ¬cfg.tskMaxNum+1=t := by omega
  change ((init cfg).sched.tcb t).taskStatus.running=decide (cfg.tskMaxNum+1=t)
  rw [init_tcb ht',decide_eq_false hne]

lemma init_fine (cfg : Cfg) : Fine c u d e x (init cfg) where
  core := init_core cfg
  run _ := by
    refine ⟨fun h => ?_,nofun,fun _ => Nat.lt_succ_self _,le_rfl⟩
    exact absurd h (Nat.not_succ_le_self _)
  tidy _ := by
    refine ⟨⟨nofun,fun _ => rfl⟩,fun t ht => ?_⟩
    have hb : ((init cfg).sched.view t).bits={} := (init_fits ht).unused rfl
    constructor
    . rw [hb]
      nofun
    rw [hb]
    nofun
  lock _ := rfl
  cpu _ _ := ⟨fun h => absurd rfl h,nofun,nofun,nofun,fun _ => rfl⟩
  switches _ := nofun
  idle _ := ⟨Nat.zero_le _,nofun,nofun⟩
  sem := by
    refine ⟨fun i => ?_,fun _ _ => rfl,List.nodup_range⟩
    exact ⟨Nat.zero_le _,nofun,fun h => absurd rfl h,fun _ => rfl,nofun,nofun⟩
  mutex _ i := ⟨nofun,nofun,fun _ => rfl,nofun⟩

end Kernel

open Kernel

lemma fine_of_reaches {ok : Kernel → Input → Prop} (hC : Conds c u d e x)
    (hok : ∀ k i, Fine c u d e x k → ok k i → k.enabled i=true → InputOk c u d e k i ∧
      (x → ∀ t, Deletes k.sched i t → k.semB.lists t=[]))
    (h : (kernelMachine cfg).Reaches ok k) : Fine c u d e x k := by
  refine h.invariant ?_ fun k i hk hi => ?_
  . rintro k rfl
    exact init_fine cfg
  change Fine c u d e x (k.step i)
  by_cases hen : k.enabled i=true
  . obtain ⟨h1,h2⟩ := hok k i hk hi hen
    exact hk.step hC h1 h2
  unfold Kernel.step
  rw [if_neg hen]
  exact hk

/-- The inputs that use neither signals nor Linux wait queues. -/
def Input.plain : Input → Bool
  | .call c => c.plain
  | _ => true

lemma Input.plain_ok {i : Input} (h : i.plain=true) (k : Kernel) :
    InputOk False False False False k i := by
  cases i with
  | call call => exact ⟨h,fun _ => ⟨id,False.elim⟩,fun _ _ => False.elim,
      fun _ => ⟨False.elim,False.elim⟩,fun _ => False.elim,fun _ _ => id,fun _ => False.elim⟩
  | _ => trivial

lemma Kernel.Conds.none : Conds False False False False False := ⟨id,id,id⟩

lemma fine_of_plain (h : (kernelMachine cfg).Reaches (fun _ i => i.plain=true) k) :
    Fine False False False False False k :=
  fine_of_reaches .none (fun k _ _ hi _ => ⟨Input.plain_ok hi k,False.elim⟩) h

lemma cfg_of_plain (h : (kernelMachine cfg).Reaches (fun _ i => i.plain=true) k) :
    k.sched.cfg=cfg := by
  refine h.invariant_of (P:=fun k => k.sched.cfg=cfg) (fun _ => fine_of_plain) ?_
    fun k a hf hk ha => ?_
  . rintro k rfl
    rfl
  change (k.step a).sched.cfg=cfg
  unfold Kernel.step
  split
  . next hen =>
    have hab := hf.able .none (enabled_alive hen)
    exact (act_keeps hab hf.sem False.elim hen (Input.plain_ok ha k)).cfg.trans hk
  exact hk

end UniProton
