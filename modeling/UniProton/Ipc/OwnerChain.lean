import UniProton.Framework.Walk
import UniProton.Ipc.Inherit

namespace UniProton

open Framework Function List

def TskCb.waitsFor (c : TskCb) : Option Nat :=
  match c.taskStatus.ready, c.taskStatus.pend, c.taskPend with
  | false, true, some (.sem i) => some i
  | _, _, _ => none

namespace Kernel

variable {k k' : Kernel} {i o t new : Nat}

def ownerAfter (k : Kernel) (o : Nat) : Option Nat :=
  match (k.sched.tcb o).waitsFor with
  | none => none
  | some i => if (k.sems i).semType.isBin then some (k.sems i).semOwner else none

/-- What one round of `OsPriorityInherit` does to the task that it raises. -/
def raiseOwner (k : Kernel) (o new : Nat) : Kernel :=
  if (k.sched.status o).ready then
    k.onSched fun s =>
      ((s.osTskReadyDel o).modTcb o fun c => {c with priority:=new}).osTskReadyAdd o
  else match (k.sched.tcb o).waitsFor with
    | none => k.setPriority o new
    | some i => k.raise o new i

/-- The rounds of `OsPriorityInherit` with the tasks that they raise; `none` as long as the loop
has not come to an end. -/
def inheritRounds : Nat → Kernel → Nat → Nat → Option (Kernel×List Nat)
  | 0, _, _, _ => none
  | n+1, k, o, new =>
    if k.priority o≤new then some (k,[])
    else match k.ownerAfter o with
      | none => some (k.raiseOwner o new,[o])
      | some o' => (inheritRounds n (k.raiseOwner o new) o' new).map fun r => (r.1,o::r.2)

lemma raise_tcb (k : Kernel) (o new i : Nat) : (k.raise o new i).sched.tcb =
    update k.sched.tcb o {k.sched.tcb o with priority:=new} := by
  unfold raise
  split <;> rfl

lemma raise_cfg (k : Kernel) (o new i : Nat) : (k.raise o new i).sched.cfg=k.sched.cfg := by
  unfold raise
  split <;> rfl

lemma osPriorityInheritLoop_round (hle : ¬k.priority o≤new) (n : Nat) :
    osPriorityInheritLoop (n+1) k o new = match k.ownerAfter o with
      | none => k.raiseOwner o new
      | some o' => osPriorityInheritLoop n (k.raiseOwner o new) o' new := by
  have hst : (k.setPriority o new).sched.status o=k.sched.status o := by
    simp [setPriority,onSched,Sched.status,Sched.modTcb]
  have hpend : ((k.setPriority o new).sched.tcb o).taskPend=(k.sched.tcb o).taskPend := by
    simp [setPriority,onSched,Sched.modTcb]
  rw [osPriorityInheritLoop,if_neg hle]
  simp only [hst,hpend]
  cases hr : (k.sched.status o).ready with
  | true =>
    have hw : (k.sched.tcb o).waitsFor=none := by
      have hr' : (k.sched.tcb o).taskStatus.ready=true := hr
      simp [TskCb.waitsFor,hr']
    simp [ownerAfter,raiseOwner,hw,hr]
  | false =>
    have hr' : (k.sched.tcb o).taskStatus.ready=false := hr
    cases hp : (k.sched.status o).pend with
    | false =>
      have hp' : (k.sched.tcb o).taskStatus.pend=false := hp
      have hw : (k.sched.tcb o).waitsFor=none := by simp [TskCb.waitsFor,hp']
      simp [ownerAfter,raiseOwner,hw,hr]
    | true =>
      have hp' : (k.sched.tcb o).taskStatus.pend=true := hp
      cases hq : (k.sched.tcb o).taskPend with
      | none =>
        have hw : (k.sched.tcb o).waitsFor=none := by simp [TskCb.waitsFor,hq]
        simp [ownerAfter,raiseOwner,hw,hr]
      | some obj =>
        cases obj with
        | sem i =>
          have hw : (k.sched.tcb o).waitsFor=some i := by simp [TskCb.waitsFor,hq,hr',hp']
          have hraise : raiseOwner k o new=k.raise o new i := by simp [raiseOwner,hw,hr]
          have hsems := k.raise_sems o new i
          have hdef : (if ((k.setPriority o new).sems i).semMode=.prior then
              (k.setPriority o new).osResortSemList o i else k.setPriority o new) =
                k.raise o new i := rfl
          simp only [Bool.false_eq_true,if_false,hdef,hsems,hraise]
          unfold ownerAfter
          rw [hw]
          by_cases hb : (k.sems i).semType.isBin=true
          . simp [hb]
          simp [hb]
        | queue q =>
          have hw : (k.sched.tcb o).waitsFor=none := by simp [TskCb.waitsFor,hq]
          simp [ownerAfter,raiseOwner,hw,hr]

lemma osPriorityInheritLoop_rounds (n : Nat) (k : Kernel) (o new : Nat) {r : Kernel×List Nat}
    (h : inheritRounds n k o new=some r) : osPriorityInheritLoop n k o new=r.1 := by
  induction n generalizing k o r with
  | zero => cases h
  | succ n ih =>
    unfold inheritRounds at h
    split at h
    . rename_i hle
      cases h
      simp [osPriorityInheritLoop,hle]
    rename_i hle
    rw [osPriorityInheritLoop_round hle]
    cases ho : k.ownerAfter o with
    | none =>
      simp only [ho] at h
      cases h
      rfl
    | some o' =>
      simp only [ho] at h
      obtain ⟨r',hr',rfl⟩ := Option.map_eq_some_iff.mp h
      exact ih (k.raiseOwner o new) o' (r:=r') hr'

lemma inheritRounds_mono {n m : Nat} (hnm : n ≤ m) {r : Kernel×List Nat}
    (h : inheritRounds n k o new=some r) : inheritRounds m k o new=some r := by
  induction n generalizing k o m r with
  | zero => cases h
  | succ n ih =>
    obtain ⟨m,rfl⟩ : ∃ m', m=m'+1 := ⟨m-1,by omega⟩
    unfold inheritRounds at h ⊢
    split at h
    . rename_i hle
      rw [if_pos hle]
      exact h
    rename_i hle
    rw [if_neg hle]
    cases ho : k.ownerAfter o with
    | none =>
      simp only [ho] at h
      exact h
    | some o' =>
      simp only [ho] at h
      obtain ⟨r',hr',rfl⟩ := Option.map_eq_some_iff.mp h
      have hmore := ih (r:=r') (by omega : n ≤ m) hr'
      simp [hmore]

lemma readied_priority (k : Kernel) (o new : Nat) : (k.onSched fun s =>
    ((s.osTskReadyDel o).modTcb o fun c => {c with priority:=new}).osTskReadyAdd o).priority =
      update k.priority o new := by
  have hdel : (k.sched.osTskReadyDel o).prios=k.sched.prios :=
    Sched.same_prios_quiet.step_osTskReadyDel rfl
  apply priority_of_update (q:=(k.sched.prios o).2)
  apply (Sched.same_prios_quiet.step_osTskReadyAdd rfl).trans
  rw [Sched.setPrio_prios,hdel]

lemma priority_of_tcb (ht : k'.sched.tcb =
    update k.sched.tcb o {k.sched.tcb o with priority:=new}) :
    k'.priority=update k.priority o new := by
  funext t
  by_cases hto : t=o
  . subst hto
    simp [priority,ht]
  simp [priority,ht,hto]

lemma raiseOwner_priority (k : Kernel) (o new : Nat) :
    (k.raiseOwner o new).priority=update k.priority o new := by
  unfold raiseOwner
  split
  . exact k.readied_priority o new
  split
  . exact priority_of_tcb rfl
  exact priority_of_tcb (k.raise_tcb o new _)

lemma ownerAfter_of_tcb (hs : k'.sems=k.sems) (ht : k'.sched.tcb =
    update k.sched.tcb o {k.sched.tcb o with priority:=new}) :
    k'.ownerAfter=k.ownerAfter := by
  funext t
  have hw : (k'.sched.tcb t).waitsFor=(k.sched.tcb t).waitsFor := by
    rw [ht]
    by_cases hto : t=o
    . subst hto
      rw [update_self]
      rfl
    rw [update_of_ne hto]
  unfold ownerAfter
  rw [hw,hs]

lemma raiseOwner_next {o' : Nat} (ho : k.ownerAfter o=some o') (new : Nat) :
    (k.raiseOwner o new).ownerAfter=k.ownerAfter ∧ (k.raiseOwner o new).sched.cfg=k.sched.cfg := by
  cases hw : (k.sched.tcb o).waitsFor with
  | none => simp [ownerAfter,hw] at ho
  | some i =>
    have hr : (k.sched.status o).ready=false := by
      cases hr : (k.sched.tcb o).taskStatus.ready with
      | false => exact hr
      | true => simp [TskCb.waitsFor,hr] at hw
    have hraise : k.raiseOwner o new=k.raise o new i := by simp [raiseOwner,hr,hw]
    rw [hraise]
    exact ⟨ownerAfter_of_tcb (k.raise_sems o new i) (k.raise_tcb o new i),k.raise_cfg o new i⟩

lemma inheritRounds_chain (n : Nat) (k : Kernel) (o new : Nat) (hn : k.above new<n)
    (ho : o≤k.sched.cfg.tskMaxNum)
    (hown : ∀ t o', k.ownerAfter t=some o' → o'≤k.sched.cfg.tskMaxNum) :
    ∃ k' ts, inheritRounds n k o new=some (k',ts) ∧ ts.Nodup ∧
      (∀ t, t∈ts ↔ OnPath k.ownerAfter (fun t => new<k.priority t) o t) ∧
      ∀ t, k'.priority t = if t∈ts then new else k.priority t := by
  induction n generalizing k o with
  | zero => cases hn
  | succ n ih =>
    unfold inheritRounds
    by_cases hle : k.priority o≤new
    . rw [if_pos hle]
      refine ⟨k,[],rfl,nodup_nil,fun t => ?_,fun t => ?_⟩
      . simp only [not_mem_nil,false_iff]
        exact fun hp => absurd hp.first (Nat.not_lt.mpr hle)
      simp
    have hlt : new<k.priority o := Nat.lt_of_not_le hle
    have hprio := k.raiseOwner_priority o new
    rw [if_neg hle]
    cases hnext : k.ownerAfter o with
    | none =>
      refine ⟨k.raiseOwner o new,[o],rfl,nodup_singleton o,fun t => ?_,fun t => ?_⟩
      . rw [OnPath.iff_avoid]
        simp [hlt,hnext]
      rw [hprio]
      by_cases hto : t=o
      . simp [hto]
      simp [hto]
    | some o' =>
      obtain ⟨hafter,hcfg⟩ := raiseOwner_next hnext new
      have habove := above_lt ho hlt hprio hcfg
      -- what is still above the new priority is what the path may use without coming back
      have hleft : (fun t => new<(k.raiseOwner o new).priority t) =
          fun t => new<k.priority t ∧ t≠o := by
        funext t
        rw [hprio]
        by_cases hto : t=o
        . simp [hto]
        simp [hto]
      obtain ⟨k',ts,hrounds,hnodup,hmem,hset⟩ := ih (k.raiseOwner o new) o' (by omega)
        (hcfg ▸ hown o o' hnext) (by rwa [hafter,hcfg])
      rw [hafter,hleft] at hmem
      have hnot : o∉ts := fun hin => ((hmem o).mp hin).last.2 rfl
      refine ⟨k',o::ts,by simp [hrounds],nodup_cons.mpr ⟨hnot,hnodup⟩,fun t => ?_, fun t => ?_⟩
      . rw [OnPath.iff_avoid,mem_cons,hmem t]
        simp [hlt,hnext]
      rw [hset t,hprio]
      by_cases hto : t=o
      . subst hto
        simp [hnot]
      simp [hto]

lemma above_le (k : Kernel) (new : Nat) : k.above new≤k.sched.cfg.tskMaxNum+1 :=
  le_trans (Finset.card_filter_le _ _) (le_of_eq (Finset.card_range _))

/-- On any graph of waiting tasks the loop of `OsPriorityInherit` ends, raises no task twice, and
gives the caller's priority exactly to the owners on the chain in front of the first that is urgent
enough. -/
theorem inherit_chain (hb : (k.sems i).semType.isBin=true)
    (ho : (k.sems i).semOwner≤k.sched.cfg.tskMaxNum)
    (hown : ∀ t o', k.ownerAfter t=some o' → o'≤k.sched.cfg.tskMaxNum) (run : Nat) :
    ∃ ts : List Nat, ts.Nodup ∧
      (∀ t, t∈ts ↔ OnPath k.ownerAfter (fun t => k.priority run<k.priority t)
        (k.sems i).semOwner t) ∧ (∀ t, (k.osPriorityInherit i run).priority t =
        if t∈ts then k.priority run else k.priority t) ∧ ∀ n, k.sched.cfg.tskMaxNum+1<n →
        inheritRounds n k (k.sems i).semOwner (k.priority run) =
          some (k.osPriorityInherit i run,ts) ∧
        osPriorityInheritLoop n k (k.sems i).semOwner (k.priority run) =
          k.osPriorityInherit i run := by
  have habove := k.above_le (k.priority run)
  obtain ⟨k',ts,hrounds,hnodup,hmem,hset⟩ := inheritRounds_chain (k.sched.cfg.tskMaxNum+2)
    k (k.sems i).semOwner (k.priority run) (by omega) ho hown
  have hk' : k.osPriorityInherit i run=k' := by
    rw [osPriorityInherit,if_pos hb]
    exact osPriorityInheritLoop_rounds _ _ _ _ hrounds
  rw [hk']
  refine ⟨ts,hnodup,hmem,hset,fun n hn => ?_⟩
  have hmore := inheritRounds_mono hn hrounds
  exact ⟨hmore,osPriorityInheritLoop_rounds _ _ _ _ hmore⟩

/-- Tasks 0 and 1 each wait for the mutex that the other one owns, and task 2 comes to wait for
mutex 0. -/
def deadlock : Kernel :=
  let k := Kernel.init smallCfg
  let waits (s : Sched) (t i prio : Nat) := s.modTcb t fun c =>
    {c with
      priority := prio
      taskPend := some (.sem i)
      taskStatus := {c.taskStatus with inuse:=true, pend:=true}}
  let k := (k.modSem 0 fun c => {c with semType:=.bin true, semMode:=.prior, semOwner:=0})
  let k := (k.modSem 1 fun c => {c with semType:=.bin true, semMode:=.prior, semOwner:=1})
  k.onSched fun s => waits (waits (waits s 0 1 9) 1 0 8) 2 0 5

lemma deadlock_owner (i : Nat) : (deadlock.sems i).semOwner≤3 := by
  by_cases h1 : i=1
  . subst h1
    decide
  by_cases h0 : i=0
  . subst h0
    decide
  simp [deadlock,modSem,onSched,Kernel.init,h0,h1]

theorem inherit_chain_deadlock : (deadlock.osPriorityInherit 0 2).priority 0=5 ∧
      (deadlock.osPriorityInherit 0 2).priority 1=5 ∧
      inheritRounds 5 deadlock 0 5=some (deadlock.osPriorityInherit 0 2,[0,1]) := by
  have hown : ∀ t o', deadlock.ownerAfter t=some o' → o'≤deadlock.sched.cfg.tskMaxNum := by
    intro t o' ht
    unfold ownerAfter at ht
    split at ht
    . cases ht
    split at ht
    . cases ht
      exact deadlock_owner _
    cases ht
  obtain ⟨ts,-,-,hset,hrounds⟩ := inherit_chain (k:=deadlock) (i:=0) (by decide)
    (by decide) hown 2
  have hfive : inheritRounds 5 deadlock 0 5=some (deadlock.osPriorityInherit 0 2,ts) :=
    (hrounds 5 (by decide)).1
  have hts : (inheritRounds 5 deadlock 0 5).map Prod.snd=some [0,1] := by decide +kernel
  rw [hfive] at hts
  cases hts
  exact ⟨hset 0,hset 1,hfive⟩

end Kernel

end UniProton
