import UniProton.Ipc.SemSteps

namespace UniProton

open Framework Function List

namespace SemCb

variable {max : Nat} {live live' : Nat → Prop} {c c' : SemCb} {l l' : List Nat}
  {loc : Option Nat}

lemma Ok.lists (h : c.Ok max l) (hl : l=[] → l'=[]) : c.Ok max l' := by
  refine ⟨h.limit,h.owner,fun hn => h.taken fun he => hn (hl he),fun hu => hl (h.unused hu),h.mode⟩

lemma Ok.recur (h : c.Ok max l) (n : Nat) : Ok max {c with recurCount:=n} l :=
  ⟨h.limit,h.owner,h.taken,h.unused,h.mode⟩

lemma Held.mono (h : c.Held live loc) (ho : c.Ok max l)
    (hl : ∀ t ≤ max, loc=some t → live t → live' t) : c.Held live' loc := by
  refine ⟨fun hu hb hz => ?_,h.free,h.other,h.flat⟩
  obtain ⟨h1,h2⟩ := h.taken hu hb hz
  exact ⟨h1,hl _ (ho.owner hb hz) h1 h2⟩

lemma Held.count_zero (h : c.Held live loc) (hu : c.used=true) (hb : c.semType.isBin=true)
    (ho : c.semOwner≠osInvalidOwnerId) : c.semCount=0 := by
  by_contra hz
  exact ho (h.free hu hb hz).2.1

lemma Held.of_count (h : c.Held live loc) (hb : c.semType.isBin=false)
    (ht : c'.semType=c.semType) : c'.Held live' loc := by
  have hne : ¬c'.semType.isBin=true := by
    rw [ht,hb]
    nofun
  exact ⟨fun _ h => absurd h hne,fun _ h => absurd h hne,fun _ => h.other (.inr hb),
    fun _ h => absurd h hne⟩

lemma Held.of_taken {l : Nat → Prop} (hu : c.used=true) (hb : c.semType.isBin=true)
    (hz : c.semCount=0) (ho : l c.semOwner) (hr : c.semType.isRecur=false → c.recurCount=0) :
    c.Held l (some c.semOwner) := by
  refine ⟨fun _ _ _ => ⟨rfl,ho⟩,fun _ _ hn => absurd hz hn,fun hn => ?_,fun _ _ => hr⟩
  rw [hu,hb] at hn
  rcases hn with hn | hn <;> cases hn

lemma Held.recur (h : c.Held live loc) (hu : c.used=true) (hr : c.semType.isRecur=true)
    (hb : c.semType.isBin=true) (ho : c.semOwner≠osInvalidOwnerId) (n : Nat) :
    Held live {c with recurCount:=n} loc := by
  have hz := h.count_zero hu hb ho
  refine ⟨h.taken,fun _ _ hn => absurd hz hn,h.other,fun _ _ hf => ?_⟩
  rw [hr] at hf
  cases hf

end SemCb

namespace SemType

lemma isBin_of_isRecur {ty : SemType} (h : ty.isRecur=true) : ty.isBin=true := by
  cases ty with
  | count => cases h
  | bin _ => rfl

end SemType

namespace Kernel

variable {c u d e x : Prop} {k k' : Kernel} {i t : Nat} {call : Call}

section sem

lemma invalid_owner (k : Kernel) : ¬osInvalidOwnerId≤k.sched.cfg.tskMaxNum := by
  have h := k.sched.cfg.tsk_lt
  simp only [osInvalidOwnerId]
  omega

lemma running_pid (hc : k.sched.Core) (hr : k.sched.RunOk) (ht : k.sched.cpu.taskContext=true) :
    (k.sched.tcb k.sched.cpu.runningTask).taskPid=k.sched.cpu.runningTask ∧
      k.sched.cpu.runningTask≤k.sched.cfg.tskMaxNum ∧
      (k.sched.status k.sched.cpu.runningTask).inuse=true := by
  have hle := hr.real ht
  obtain ⟨m,hf,hm⟩ := hr.runnable hle
  refine ⟨hc.pids _ hle,hle,hf.inuse.trans ?_⟩
  rcases TskMode.eq_of_runnable hm with rfl | rfl <;> rfl

lemma waiter_pid (hc : k.sched.Core) (ht : t∈k.semList i) :
    (k.sched.tcb t).taskPid=t ∧ t≤k.sched.cfg.tskMaxNum ∧ (k.sched.status t).inuse=true := by
  have hle := hc.le_of_mem ht
  obtain ⟨m,hf,-⟩ := hc.tasks t hle
  obtain rfl := hf.eq_of_loc_sem ((k.sched.pend.mem_iff _ _).mp ht)
  exact ⟨hc.pids t hle,hle,hf.inuse⟩

lemma SemOk.step (h : k.SemOk) (hc : k.sched.Core) (hr : k.sched.RunOk)
    (hcfg : k'.sched.cfg=k.sched.cfg) {a : SemAct} (hs : SemStep k k' i a) : k'.SemOk := by
  have hself : (k'.sems i).Ok k.sched.cfg.tskMaxNum (k'.semList i) := by
    have h' := h.each i
    cases hs with
    | calm hs _ _ _ _ _ hl =>
      rw [hs]
      exact h'.lists fun he => sublist_nil.mp (he ▸ hl i)
    | create _ _ ty _ hi hbin hcnt hk =>
      subst hk
      have hnil : k.semList i=[] := h'.unused (h.free i (by rw [hi]; exact mem_cons_self))
      simp only [update_self]
      refine ⟨?_,fun hb hz => ?_,fun hn => absurd hnil hn,by simp,?_⟩
      . cases hty : ty with
        | count => exact (hcnt (by rw [hty]; rfl)).1
        | bin _ => exact le_of_eq (hbin (by rw [hty]; rfl)).1
      . rw [(hbin hb).1] at hz
        cases hz
      cases hty : ty with
      | count =>
        rw [(hcnt (by rw [hty]; rfl)).2]
        exact ⟨by rintro ⟨⟩,by rintro ⟨⟩⟩
      | bin _ => exact ⟨fun _ => rfl,fun _ => (hbin (by rw [hty]; rfl)).2⟩
    | delete _ hl _ hk =>
      subst hk
      simp only [modSem,update_self]
      exact ⟨h'.limit,h'.owner,h'.taken,fun _ => hl,h'.mode⟩
    | reenter _ _ _ _ hk | undo _ _ _ _ _ hk =>
      subst hk
      simp only [modSem,logSem,update_self]
      exact h'.recur _
    | take _ _ hz ht hk hl =>
      have hnil : k'.semList i=[] := by
        rw [hk]
        refine (hl i).trans ?_
        by_contra hn
        rw [h'.taken hn] at hz
        cases hz
      obtain ⟨hp,hle,-⟩ := running_pid hc hr ht
      rw [hnil,hk]
      simp only [update_self]
      exact ⟨le_trans (Nat.sub_le _ _) h'.limit,fun _ _ => le_trans (le_of_eq hp) hle,by simp,
        fun _ => rfl,h'.mode⟩
    | wait hu hz _ hs =>
      rw [hs]
      exact ⟨h'.limit,h'.owner,fun _ => hz,fun hf => absurd (hu.symm.trans hf) (by simp),h'.mode⟩
    | hand _ t _ hu hi _ _ hk =>
      subst hk
      have hz : (k.sems i).semCount=0 := h'.taken (by rw [hi]; exact List.cons_ne_nil _ _)
      obtain ⟨hp,hle,-⟩ := waiter_pid hc (i:=i) (t:=t) (by rw [hi]; exact mem_cons_self)
      simp only [update_self]
      exact ⟨h'.limit,fun _ _ => le_trans (le_of_eq hp) hle,fun _ => hz,
        fun hf => absurd (hu.symm.trans hf) (by simp),h'.mode⟩
    | release _ _ hi hz hbz _ _ hk hl =>
      have hnil : k'.semList i=[] := by
        rw [hk]
        exact (hl i).trans hi
      rw [hnil,hk]
      simp only [update_self]
      refine ⟨?_,by simp,by simp,fun _ => rfl,h'.mode⟩
      have hlim := h'.limit
      cases hty : (k.sems i).semType with
      | count => exact hz
      | bin _ =>
        rw [hty] at hlim hbz
        exact lt_of_le_of_ne hlim (hbz rfl)
  have hused : (k.sems i).used=true → k'.unusedSem=k.unusedSem →
      (∀ j∈k'.unusedSem, (k'.sems j).used=false) ∧ k'.unusedSem.Nodup := by
    intro hu hf
    rw [hf]
    refine ⟨fun j hj => ?_,h.nodup⟩
    have e : j≠i := by
      rintro rfl
      cases hu.symm.trans (h.free j hj)
    rw [(hs.other e).1]
    exact h.free j hj
  have hother := fun j => hs.other (j:=j)
  have heach : ∀ j, (k'.sems j).Ok k'.sched.cfg.tskMaxNum (k'.semList j) := by
    intro j
    rw [hcfg]
    by_cases e : j=i
    . exact e ▸ hself
    rw [(hother j e).1]
    exact (h.each j).lists (hother j e).2.2.1
  suffices hfree : (∀ j∈k'.unusedSem, (k'.sems j).used=false) ∧ k'.unusedSem.Nodup from
    ⟨heach,hfree.1,hfree.2⟩
  cases hs with
  | calm hs hu =>
    rw [hs,hu]
    exact ⟨h.free,h.nodup⟩
  | create rest _ _ _ hi _ _ hk =>
    subst hk
    have hnd : i∉rest ∧ rest.Nodup := nodup_cons.mp (hi ▸ h.nodup)
    refine ⟨fun j hj => ?_,hnd.2⟩
    rw [(hother j fun he => hnd.1 (he ▸ hj)).1]
    exact h.free j (by rw [hi]; exact mem_cons_of_mem _ hj)
  | delete hu _ _ hk =>
    subst hk
    have hni : i∉k.unusedSem := fun hm => by cases hu.symm.trans (h.free i hm)
    refine ⟨fun j hj => ?_,nodup_cons.mpr ⟨hni,h.nodup⟩⟩
    rcases mem_cons.mp hj with rfl | hj
    . simp [modSem]
    rw [(hother j fun he => hni (he ▸ hj)).1]
    exact h.free j hj
  | wait hu _ _ _ _ hf => exact hused hu hf
  | reenter hu _ _ _ hk | take _ hu _ _ hk | undo hu _ _ _ _ hk | hand _ _ _ hu _ _ _ hk
  | release _ hu _ _ _ _ _ hk => exact hused hu (by subst hk; rfl)

lemma clear_held {live : Nat → Prop} {cb : SemCb} {w : Links Nat Nat}
    (h : cb.Held live (w.loc i)) (ht : ¬live t) : cb.Held live ((w.clear t).loc i) := by
  have hloc : (w.clear t).loc i = if w.loc i=some t then none else w.loc i := w.clear_loc t i
  rw [hloc]
  refine ⟨fun hu hb hz => ?_,fun hu hb hz => ?_,fun ho => ?_,h.flat⟩
  . obtain ⟨h1,h2⟩ := h.taken hu hb hz
    have hne : w.loc i≠some t := by
      rw [h1]
      intro he
      exact ht (Option.some.inj he ▸ h2)
    rw [if_neg hne]
    exact ⟨h1,h2⟩
  . obtain ⟨h1,h2⟩ := h.free hu hb hz
    refine ⟨?_,h2⟩
    rw [h1]
    rfl
  rw [h.other ho]
  rfl

lemma MutexOk.step (h : k.MutexOk) (hk : k.SemOk) (hc : k.sched.Core) (hr : k.sched.RunOk)
    (hlive : ∀ t≤k.sched.cfg.tskMaxNum, (k.sched.status t).inuse=true →
      (k'.sched.status t).inuse=true) {a : SemAct} (hs : SemStep k k' i a) : k'.MutexOk := by
  have hj : ∀ j, (k.sems j).Held (fun t => (k'.sched.status t).inuse=true) (k.semB.loc j) :=
    fun j => (h j).mono (hk.each j) fun t ht _ => hlive t ht
  have hone : (k'.sems i).Held (fun t => (k'.sched.status t).inuse=true) (k'.semB.loc i) →
      (∀ j, j≠i → k'.semB.loc j=k.semB.loc j) → k'.MutexOk := by
    intro hi hn j
    by_cases e : j=i
    . exact e ▸ hi
    rw [(hs.other e).1,hn j e]
    exact hj j
  have hinv : ∀ o, o≤k.sched.cfg.tskMaxNum → o≠osInvalidOwnerId := by
    rintro o ho rfl
    exact k.invalid_owner ho
  -- A semaphore for counting is in no list of held mutexes.
  have hcount : ¬(k.sems i).semType.isBin=true → (k'.sems i).semType=(k.sems i).semType →
      k'.semB=k.semB → k'.MutexOk := by
    intro hb hty hB
    refine hone ?_ fun _ _ => by rw [hB]
    rw [hB]
    exact (h i).of_count (by simpa using hb) hty
  cases hs with
  | calm hs _ _ _ _ hb =>
    intro j
    rw [hs]
    rcases hb with hb | ⟨t,ht,hb⟩
    . rw [hb]
      exact hj j
    rw [hb]
    refine (clear_held (h j) ?_).mono (hk.each j) fun t ht _ => hlive t ht
    rw [ht]
    simp
  | create _ _ _ _ hi hbin _ hk' =>
    subst hk'
    have hloc := (h i).other (.inl (hk.free i (by rw [hi]; exact mem_cons_self)))
    refine hone ?_ fun _ _ => rfl
    simp only [update_self]
    refine ⟨fun _ hb hz => ?_,fun _ hb _ => ⟨hloc,rfl,if_pos hb⟩,fun _ => hloc,
      fun _ hb _ => if_pos hb⟩
    rw [(hbin hb).1] at hz
    cases hz
  | delete hu _ ho hk' =>
    subst hk'
    refine hone ?_ fun _ _ => rfl
    simp only [modSem,update_self]
    refine ⟨by simp,by simp,fun _ => ?_,by simp⟩
    by_cases hb : (k.sems i).semType.isBin=true
    . refine ((h i).free hu hb fun hz => ?_).1
      exact hinv _ ((hk.each i).owner hb hz) (ho hb)
    exact (h i).other (.inr (by simpa using hb))
  | reenter hu hr' ht ho hk' | undo hu hr' _ ho ht hk' =>
    subst hk'
    obtain ⟨hp,hle,-⟩ := running_pid hc hr ht
    refine hone ?_ fun _ _ => rfl
    simp only [modSem,logSem,update_self]
    refine (hj i).recur hu hr' (SemType.isBin_of_isRecur hr') ?_ _
    rw [ho,hp]
    exact hinv _ hle
  | take _ hu hz ht hk' =>
    obtain ⟨hp,hle,hin⟩ := running_pid hc hr ht
    by_cases hbin : (k.sems i).semType.isBin=true
    . simp only [if_pos hbin] at hk'
      have hloc := k.semB.insert_loc k.sched.cpu.runningTask
        (k.semB.lists k.sched.cpu.runningTask).length ((h i).free hu hbin (by omega)).1
      have hful := (hk.each i).full hbin
      simp only [osSemFull] at hful
      refine hone ?_ fun j e => ?_
      . have htaken := SemCb.Held.of_taken (c:=k'.sems i)
          (l:=fun t => (k'.sched.status t).inuse=true)
        simp only [hk',update_self,hloc,hp] at htaken hlive ⊢
        exact htaken hu hbin (by omega) (hlive _ hle hin) ((h i).flat hu hbin)
      rw [hk']
      exact (congrFun hloc j).trans (update_of_ne e _ _)
    simp only [if_neg hbin] at hk'
    exact hcount hbin (by simp only [hk',update_self]) (by rw [hk'])
  | wait _ _ _ hs hb =>
    intro j
    rw [hs,hb]
    exact hj j
  | hand _ t _ hu hi _ _ hk' =>
    obtain ⟨hp,hle,hin⟩ := waiter_pid hc (i:=i) (t:=t) (by rw [hi]; exact mem_cons_self)
    have hz : (k.sems i).semCount=0 := (hk.each i).taken (by rw [hi]; exact List.cons_ne_nil _ _)
    by_cases hbin : (k.sems i).semType.isBin=true
    . simp only [if_pos hbin] at hk'
      have hloc := (k.semB.delete i).insert_loc t ((k.semB.delete i).lists t).length
        (by simp : (k.semB.delete i).loc i=none)
      refine hone ?_ fun j e => ?_
      . have htaken := SemCb.Held.of_taken (c:=k'.sems i)
          (l:=fun t => (k'.sched.status t).inuse=true)
        simp only [hk',update_self,hloc,hp] at htaken hlive ⊢
        exact htaken hu hbin hz (hlive _ hle hin) ((h i).flat hu hbin)
      simp only [hk',hloc,Links.delete_loc,update_of_ne e]
    simp only [if_neg hbin] at hk'
    exact hcount hbin (by simp only [hk',update_self]) (by rw [hk'])
  | release _ hu _ _ _ _ hr' hk' =>
    by_cases hbin : (k.sems i).semType.isBin=true
    . simp only [if_pos hbin] at hk'
      refine hone ?_ fun j e => ?_
      . simp only [hk',Links.delete_loc,update_self]
        have hrec : (k.sems i).recurCount=0 := by
          by_cases hrr : (k.sems i).semType.isRecur=true
          . exact hr' hrr
          exact (h i).flat hu hbin (by simpa using hrr)
        exact ⟨by simp,fun _ _ _ => ⟨rfl,rfl,hrec⟩,fun _ => rfl,fun _ _ _ => hrec⟩
      simp only [hk',Links.delete_loc,update_of_ne e]
    simp only [if_neg hbin] at hk'
    exact hcount hbin (by simp only [hk',update_self]) (by rw [hk'])

lemma MutexOk.drop (h : k.MutexOk) (hk : k.SemOk) (hs : k'.sems=k.sems) (hb : k'.semB=k.semB)
    (hlive : ∀ t≤k.sched.cfg.tskMaxNum, (k.sched.status t).inuse=true →
      (k'.sched.status t).inuse=true ∨ k.semB.lists t=[]) : k'.MutexOk := by
  intro j
  rw [hs,hb]
  refine (h j).mono (hk.each j) fun t ht hl hin => (hlive t ht hin).resolve_right ?_
  exact ne_nil_of_mem ((k.semB.mem_iff _ _).mpr hl)

end sem

def Deletes (s : Sched) : Input → Nat → Prop
  | .call (.taskDelete t'), t => t=t'
  | .call .taskExit, t => t=s.cpu.runningTask
  | _, _ => False

def Turns (k : Kernel) (i : Input) (t : Nat) : Prop :=
  (k.sched.status t).inuse=false ∨ Deletes k.sched i t ∨ t=k.sched.zombie

lemma not_turns {i : Input} {t : Nat} (hle : t≤k.sched.cfg.tskMaxNum)
    (hin : (k.sched.status t).inuse=true) (hd : ¬Deletes k.sched i t) : ¬k.Turns i t := by
  rintro (he | he | rfl)
  . rw [hin] at he
    cases he
  . exact hd he
  exact absurd hle (Nat.not_succ_le_self _)

lemma within_turns {T : Touch} {i : Input} (hl : ∀ t, k.Turns i t → T.life t ∧ T.birth t)
    (hp : T.prio) (hs : T.sem) (hq : k.inputPart i=.que → T.que)
    (he : ∀ t, k.evOf i=some t → T.event t) (hr : k.inputPart i=.rw → T.rw)
    (ht : i=.tickScan → T.tick) : k.InputWithin T i := by
  cases i with
  | call call =>
    cases call with
    | taskCreate p memOk kthread => exact fun t ht => hl t (.inl ht)
    | taskDelete t => exact ⟨(hl t (.inr (.inl rfl))).1,(hl _ (.inr (.inr rfl))).1⟩
    | taskExit => exact ⟨(hl _ (.inr (.inl rfl))).1,(hl _ (.inr (.inr rfl))).1⟩
    | semPend i n => exact ⟨hp,hs⟩
    | semPost | taskSetPriority => exact hp
    | queueRead | queueWrite => exact hq rfl
    | eventRead mask flags n => exact he _ rfl
    | eventWrite t events => exact he t rfl
    | rwRead | rwWrite | rwUnlock => exact hr rfl
    | _ => exact trivial
  | proceed =>
    refine ⟨hq,fun hpart => he _ ?_,hr⟩
    rw [evOf,if_pos hpart]
  | activate memOk => exact fun t ht => hl t (.inl ht)
  | tickScan => exact ht rfl
  | _ => exact trivial

lemma quiet_inuse (X : Nat → Prop) :
    Quiet ⟨X,fun _ => True,True,True,True,True,fun _ => True,True⟩ fun s s' =>
      ∀ t, ¬X t → (s'.status t).inuse=(s.status t).inuse where
  refl s t _ := rfl
  trans h h' t ht := (h' t ht).trans (h t ht)
  frame ht _ _ t _ := by
    simp only [Sched.status,ht]
  modTcb s t f hf t' ht' := by
    by_cases e : t'=t
    . subst e
      simp only [Sched.status,Sched.modTcb,update_self]
      exact hf.inuse.resolve_left ht'
    simp only [Sched.status,Sched.modTcb,update_of_ne e]
  setCont s t k _ t' _ := rfl
  pendInsert s t h i _ t' _ := rfl
  pendDelete s t t' _ := rfl

lemma act_inuse {i : Input} (h : Sched.Able c u k.sched) (hen : k.enabled i=true)
    (hk : InputOk c u d e k i) {t : Nat} (hle : t≤k.sched.cfg.tskMaxNum)
    (hin : (k.sched.status t).inuse=true) (hd : ¬Deletes k.sched i t) :
    ((k.act i).1.sched.status t).inuse=true := by
  have hw := within_turns (k:=k) (i:=i)
    (T:=⟨k.Turns i,fun _ => True,True,True,True,True,fun _ => True,True⟩)
    (fun t ht => ⟨ht,trivial⟩) trivial trivial (fun _ => trivial) (fun _ _ => trivial)
    (fun _ => trivial) fun _ => trivial
  rw [act_quiet (quiet_inuse (k.Turns i)) h hen hk hw t (not_turns hle hin hd)]
  exact hin

/-- What holds in every state of a run that keeps the discipline; `x` asks that no task is deleted
while it holds a mutex. -/
structure Fine (c u d e x : Prop) (k : Kernel) : Prop where
  core : k.sched.Core
  run : k.sched.cpu.crashed=false → k.sched.RunOk
  tidy : c → k.sched.Tidy u
  lock : c → k.sched.cpu.uniTaskLock=0
  cpu : e → k.sched.cpu.crashed=false → k.sched.CpuOk
  switches : e → ∀ w∈k.sched.cpu.switches, w.lock=0
  idle : d → k.sched.IdleOk
  sem : k.SemOk
  mutex : x → k.MutexOk

/-- The clean run and the idle task need a sound lock count, and no stale flags means no faults at
the lists of held mutexes. -/
structure Conds (c u d e x : Prop) : Prop where
  lock : c → e
  idle : d → e
  mutex : u → x

lemma Fine.able (h : Fine c u d e x k) (hC : Conds c u d e x)
    (ha : k.sched.cpu.crashed=false) : Sched.Able c u k.sched := by
  refine ⟨h.core,ha,h.run ha,h.tidy,fun hc ht => ?_⟩
  have hh := (h.cpu (hC.lock hc) ha).task ht (h.lock hc)
  exact (h.core.highest_ready hh).2.ready

lemma Fine.step (h : Fine c u d e x k) (hC : Conds c u d e x) {i : Input}
    (hk : InputOk c u d e k i) (hx : x → ∀ t, Deletes k.sched i t → k.semB.lists t=[]) :
    Fine c u d e x (k.step i) := by
  unfold Kernel.step
  split
  swap
  . exact h
  next hen =>
  have ha := enabled_alive hen
  have hab := h.able hC ha
  have hkeep := act_keeps hab h.sem (fun hu => h.mutex (hC.mutex hu)) hen hk
  obtain ⟨j,a,hstep,-⟩ := exists_semStep hab h.sem hen hk
  refine ⟨hkeep.core,hkeep.run,hkeep.tidy,fun hc => hkeep.lock hc (h.lock hc),
    fun he => hkeep.cpuOk he (h.cpu he ha),fun he => hkeep.switches he (h.cpu he ha),
    fun hd => ?_,?_,fun hx' => ?_⟩
  . exact hkeep.idle hd (h.cpu (hC.idle hd) ha) (h.idle hd)
  . exact h.sem.step h.core hab.run hkeep.cfg hstep
  have hlive : ∀ t≤k.sched.cfg.tskMaxNum, (k.sched.status t).inuse=true →
      ¬Deletes k.sched i t → ((k.act i).1.sched.status t).inuse=true :=
    fun t hle hin hn => act_inuse hab hen hk hle hin hn
  by_cases hd : k.inputPart i=.task
  . obtain ⟨s,hs⟩ : k.Only (k.act i).1 .task := hd ▸ k.act_only i
    refine (h.mutex hx').drop h.sem (by rw [hs]) (by rw [hs]) fun t hle hin => ?_
    by_cases hn : Deletes k.sched i t
    . exact .inr (hx hx' t hn)
    exact .inl (hlive t hle hin hn)
  refine (h.mutex hx').step h.sem h.core hab.run (fun t hle hin => ?_) hstep
  refine hlive t hle hin fun hn => hd ?_
  cases i with
  | call call =>
    cases call with
    | taskDelete | taskExit => rfl
    | _ => exact hn.elim
  | _ => exact hn.elim

end Kernel

end UniProton
