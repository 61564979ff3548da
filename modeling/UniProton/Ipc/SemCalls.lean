import UniProton.Kernel.TaskCalls
import UniProton.Ipc.Sem

namespace UniProton

open Framework Function List

namespace Sched

variable {c u d : Prop} {s s1 s2 : Sched} {t : Nat} {m : TskMode}

def SemBFaults (u : Prop) (s s' : Sched) : Prop :=
  ∃ fs, s'={s with faults:=fs} ∧ (∀ f∈fs, f∈s.faults ∨ f.kind=.semBList) ∧ (u → fs=s.faults)

lemma SemBFaults.refl (s : Sched) : SemBFaults u s s :=
  ⟨s.faults,rfl,fun _ hf => .inl hf,fun _ => rfl⟩

lemma SemBFaults.leads (h : SemBFaults u s1 s2) (hl : Leads c u d s s1) : Leads c u d s s2 := by
  obtain ⟨fs,rfl,hf,hu⟩ := h
  refine ⟨⟨hl.core.tasks,hl.core.outside,hl.core.pids,⟨hl.core.rq.bitmap,hl.core.rq.highest⟩,
    hl.core.running⟩,hl.cfg,hl.cpu,fun hc => ⟨⟨?_,?_⟩,(hl.tidy hc).tight⟩,hl.idle⟩
  . intro f hm
    rcases hf f hm with hf | hf
    . exact (hl.tidy hc).faults.kind f hf
    exact hf
  intro hu'
  rw [hu hu',(hl.tidy hc).faults.none hu']

lemma SemBFaults.able (h : SemBFaults u s s1) (ha : Able c u s) : Able c u s1 := by
  have hl := h.leads (Leads.refl (d:=False) ha.core ha.tidy)
  obtain ⟨fs,rfl,-,-⟩ := h
  exact ⟨hl.core,ha.alive,⟨ha.run.runnable,ha.run.real,ha.run.early,ha.run.bound⟩,hl.tidy,ha.steady⟩

lemma SemBFaults.settles (h : SemBFaults u s s1) (ha : Able c u s) : Settles c u d s s1 := by
  have hl := h.leads (Leads.refl (d:=d) ha.core ha.tidy)
  refine .keep hl (h.able ha).run fun _ => ?_
  obtain ⟨fs,rfl,-,-⟩ := h
  rfl

lemma Moved.loc_sem {i j t' : Nat} (h : Moved c u s s1 t (.sem i))
    (hl : (s1.view t').loc=some (.sem j)) : (s.view t').loc=some (.sem j) ∨ j=i := by
  by_cases e : t'=t
  . subst e
    exact .inr (PendHead.sem.inj (Option.some.inj (hl.symm.trans h.fits.loc)))
  rw [h.frame t' e] at hl
  exact .inl hl

end Sched

def SemType.limit : SemType → Nat
  | .count => osSemCountMax
  | .bin _ => osSemFull

/-- Tasks wait only for a semaphore that is not free, a taken mutex has a task for owner, and
mutexes wake by priority. -/
structure SemCb.Ok (max : Nat) (c : SemCb) (l : List Nat) : Prop where
  limit : c.semCount≤c.semType.limit
  owner : c.semType.isBin=true → c.semCount=0 → c.semOwner ≤ max
  taken : l≠[] → c.semCount=0
  unused : c.used=false → l=[]
  mode : c.semMode=.prior ↔ c.semType.isBin=true

/-- A taken mutex is in the list of its owner, a live task, and a free one in no list. -/
structure SemCb.Held (live : Nat → Prop) (c : SemCb) (loc : Option Nat) : Prop where
  taken : c.used=true → c.semType.isBin=true → c.semCount=0 →
    loc=some c.semOwner ∧ live c.semOwner
  free : c.used=true → c.semType.isBin=true → c.semCount≠0 →
    loc=none ∧ c.semOwner=osInvalidOwnerId ∧ c.recurCount=0
  other : (c.used=false ∨ c.semType.isBin=false) → loc=none
  flat : c.used=true → c.semType.isBin=true → c.semType.isRecur=false → c.recurCount=0

lemma SemCb.Ok.full {max : Nat} {c : SemCb} {l : List Nat} (h : c.Ok max l)
    (hb : c.semType.isBin=true) : c.semCount≤osSemFull := by
  have hl := h.limit
  cases hty : c.semType with
  | count => rw [hty] at hb; cases hb
  | bin _ => rw [hty] at hl; exact hl

namespace Kernel

open Sched

variable {c u d : Prop} {k : Kernel} {s : Sched} {i o t : Nat}

/-- Every semaphore is in order, and the free ones are unused. -/
structure SemOk (k : Kernel) : Prop where
  each : ∀ i, (k.sems i).Ok k.sched.cfg.tskMaxNum (k.semList i)
  free : ∀ i∈k.unusedSem, (k.sems i).used=false
  nodup : k.unusedSem.Nodup

def MutexOk (k : Kernel) : Prop :=
  ∀ i, (k.sems i).Held (fun t => (k.sched.status t).inuse=true) (k.semB.loc i)

lemma SemOk.owner_of_loc (h : k.SemOk) (hl : (k.sched.view t).loc=some (.sem i))
    (hb : (k.sems i).semType.isBin=true) : (k.sems i).semOwner≤k.sched.cfg.tskMaxNum := by
  have hm : t∈k.semList i := (k.sched.pend.mem_iff _ t).mpr hl
  exact (h.each i).owner hb ((h.each i).taken (ne_nil_of_mem hm))

lemma semBTailAdd_faults (t : Nat) (hl : u → k.semB.linked i=false) :
    SemBFaults u k.sched (k.semBTailAdd i t).sched := by
  refine ⟨_,rfl,?_,fun hu => ?_⟩
  . intro f hf
    split at hf
    . rcases mem_cons.mp hf with rfl | hf
      . exact .inr rfl
      exact .inl hf
    exact .inl hf
  rw [if_neg (by simp [hl hu])]

lemma semBDelete_faults (hl : u → k.semB.linked i=true) :
    SemBFaults u k.sched (k.semBDelete i).sched := by
  refine ⟨_,rfl,?_,fun hu => if_pos (hl hu)⟩
  intro f hf
  split at hf
  . exact .inl hf
  rcases mem_cons.mp hf with rfl | hf
  . exact .inr rfl
  exact .inl hf

/-- A waiting task that gets a new priority, and its place in a sorted list. -/
def raise (k : Kernel) (o new i : Nat) : Kernel :=
  if ((k.setPriority o new).sems i).semMode=.prior then (k.setPriority o new).osResortSemList o i
  else k.setPriority o new

lemma raise_sems (k : Kernel) (o new i : Nat) : (k.raise o new i).sems=k.sems := by
  unfold raise
  split <;> rfl

lemma osPriorityInheritLoop_succ (h : k.sched.Core) {o : Nat} (ho : o≤k.sched.cfg.tskMaxNum)
    (n new : Nat) : (k.priority o≤new ∧ osPriorityInheritLoop (n+1) k o new=k) ∨
    (new<k.priority o ∧
      (((k.sched.status o).ready=true ∧ osPriorityInheritLoop (n+1) k o new=k.onSched fun s =>
          ((s.osTskReadyDel o).modTcb o fun c => {c with priority:=new}).osTskReadyAdd o) ∨
      (∃ i, Fits k.sched.cfg.prioLowest (.sem i) (k.sched.view o) ∧
        osPriorityInheritLoop (n+1) k o new = if (k.sems i).semType.isBin then
          osPriorityInheritLoop n (k.raise o new i) (k.sems i).semOwner new
          else k.raise o new i) ∨
      ((k.sched.status o).ready≠true ∧ (∀ i, k.sched.pend.loc o≠some (.sem i)) ∧
        osPriorityInheritLoop (n+1) k o new=k.setPriority o new))) := by
  obtain ⟨m,hf,-⟩ := h.tasks o ho
  generalize hl : osPriorityInheritLoop (n+1) k o new=k'
  rw [osPriorityInheritLoop] at hl
  split at hl
  . next hle => exact .inl ⟨hle,hl.symm⟩
  next hlt =>
  refine .inr ⟨not_le.mp hlt,?_⟩
  split at hl
  . next hr => exact .inl ⟨hr,hl.symm⟩
  next hr =>
  right
  have hpend : ((k.setPriority o new).sched.status o).pend=(k.sched.status o).pend := by
    simp [setPriority,onSched,Sched.modTcb,Sched.status]
  have hobj : ((k.setPriority o new).sched.tcb o).taskPend=(k.sched.tcb o).taskPend := by
    simp [setPriority,onSched,Sched.modTcb]
  dsimp only at hl
  split at hl
  . next i hp hi =>
    rw [hpend] at hp
    rw [hobj] at hi
    obtain ⟨i',rfl⟩ := hf.eq_sem hp
    obtain rfl : i'=i := PendObj.sem.inj (Option.some.inj (hf.obj.symm.trans hi))
    refine .inl ⟨i',hf,?_⟩
    change (if ((k.raise o new i').sems i').semType.isBin then
      osPriorityInheritLoop n (k.raise o new i') ((k.raise o new i').sems i').semOwner new
      else k.raise o new i')=_ at hl
    rw [raise_sems] at hl
    exact hl.symm
  next hno =>
  refine .inr ⟨hr,fun i hi => ?_,hl.symm⟩
  obtain rfl := hf.eq_of_loc_sem hi
  exact hno i (hpend.trans hf.pend) (hobj.trans hf.obj)

lemma osPriorityInheritLoop_leads (n : Nat) (k : Kernel) (o new : Nat)
    (h : Leads c u d s k.sched) (ho : o ≤ s.cfg.tskMaxNum) (hnew : new ≤ s.cfg.prioLowest)
    (hown : ∀ t j, (k.sched.view t).loc=some (.sem j) → (k.sems j).semType.isBin=true →
      (k.sems j).semOwner ≤ s.cfg.tskMaxNum) :
    Leads c u d s (osPriorityInheritLoop n k o new).sched := by
  induction n generalizing k o with
  | zero => exact h
  | succ n ih =>
    have ho' : o≤k.sched.cfg.tskMaxNum := by
      rw [h.cfg]
      exact ho
    have hnew' : new≤k.sched.cfg.prioLowest := by
      rw [h.cfg]
      exact hnew
    have hm : ∀ {m}, Fits k.sched.cfg.prioLowest m (k.sched.view o) →
        Moved c u k.sched k.sched o m :=
      fun hf => Moved.refl h.core.rq hf fun hc => (h.tidy hc).tight o ho'
    rcases osPriorityInheritLoop_succ h.core ho' n new with
      ⟨-,he⟩ | ⟨-,⟨hr,he⟩ | ⟨i,hf,he⟩ | ⟨hr,-,he⟩⟩ <;> rw [he]
    . exact h
    . obtain ⟨m,hf,-⟩ := h.core.tasks o ho'
      obtain rfl := hf.eq_ready hr
      have hm1 := ((hm hf).readyDel rfl fun _ => hr).setPrio nofun hnew'
      have hsus : (((k.sched.osTskReadyDel o).modTcb o fun c =>
          {c with priority:=new}).view o).bits.suspend=false := by
        rw [modTcb_view,update_self,osTskReadyDel_view,update_self]
        exact hf.suspend rfl
      exact h.trans ((hm1.readyAdd hsus).leads h.core h.tidy ho' nofun fun _ _ _ => rfl)
    . have hm1 := (hm hf).setPrio nofun hnew'
      have hm2 : Moved c u k.sched (k.raise o new i).sched o (.sem i) := by
        unfold raise
        split
        . exact hm1.resort _
        exact hm1
      have hl2 : Leads c u d s (k.raise o new i).sched := by
        refine h.trans (hm2.leads h.core h.tidy ho' nofun fun _ _ hc => ?_)
        have hr := hf.ready.symm.trans hc
        cases hr
      split
      . next hbin =>
        refine ih _ _ hl2 (hown o i hf.loc hbin) fun t j ht hb => ?_
        rw [raise_sems] at hb ⊢
        by_cases e : t=o
        . subst e
          obtain rfl : i=j := PendHead.sem.inj (Option.some.inj (hm2.fits.loc.symm.trans ht))
          exact hown t i hf.loc hb
        rw [hm2.frame t e] at ht
        exact hown t j ht hb
      exact hl2
    obtain ⟨m,hf,hout⟩ := h.core.tasks o ho'
    have hne : m≠.ready := by
      rintro rfl
      exact hr hf.ready
    refine h.trans (((hm hf).setPrio hne hnew').leads h.core h.tidy ho' (fun he => ?_)
      fun _ _ hc => absurd hc hr)
    rw [modTcb_view,update_self]
    exact hout he

lemma osPriorityInherit_leads (hk : k.SemOk) (hs : k.sched.cfg=s.cfg)
    (k1 : Kernel) (hsems : k1.sems=k.sems) (h : Leads c u d s k1.sched)
    (hloc : ∀ t j, (k1.sched.view t).loc=some (.sem j) → (k.sched.view t).loc=some (.sem j) ∨ j=i)
    (hz : (k.sems i).semCount=0) (ht : k1.priority t ≤ s.cfg.prioLowest) :
    Leads c u d s (k1.osPriorityInherit i t).sched := by
  have hi : (k.sems i).semType.isBin=true → (k.sems i).semOwner ≤ s.cfg.tskMaxNum := by
    rw [← hs]
    exact fun hb => (hk.each i).owner hb hz
  unfold osPriorityInherit
  rw [hsems]
  split
  . next hb =>
    refine osPriorityInheritLoop_leads _ k1 _ _ h (hi hb) ht fun t j hl hbj => ?_
    rw [hsems] at hbj ⊢
    rcases hloc t j hl with hl | rfl
    . rw [← hs]
      exact hk.owner_of_loc hl hbj
    exact hi hbj
  exact h

lemma osSemPendNotNeedSche_none (h : k.osSemPendNotNeedSche i=none) : (k.sems i).semCount=0 := by
  unfold osSemPendNotNeedSche at h
  dsimp only at h
  split at h
  . cases h
  split at h
  . cases h
  omega

lemma osSemPendNotNeedSche_some {k' : Kernel} (hx : u → k.MutexOk) (hi : (k.sems i).used=true)
    (h : k.osSemPendNotNeedSche i=some k') : SemBFaults u k.sched k'.sched := by
  unfold osSemPendNotNeedSche at h
  dsimp only at h
  split at h
  . obtain rfl := Option.some.inj h
    exact SemBFaults.refl _
  split at h
  . next hc =>
    obtain rfl := Option.some.inj h
    split
    . next hb =>
      refine semBTailAdd_faults (k:=(k.modSem i _).logSem i _) _ fun hu => ?_
      exact Option.isSome_eq_false_iff.mpr
        (Option.isNone_iff_eq_none.mpr ((hx hu i).free hi hb (by omega)).1)
    exact SemBFaults.refl _
  cases h

/-- The context that a wait on a semaphore leaves behind: only a limited one has a rest. -/
def semCont (timeout : Nat) : Cont := if timeout=osWaitForever then .user else .semPend

lemma semCont_cases (timeout : Nat) : semCont timeout=.user ∨ semCont timeout=.semPend := by
  unfold semCont
  split
  . exact .inl rfl
  exact .inr rfl

lemma osSemBlock_moved (h : Able c u k.sched) (hc : k.sched.cpu.taskContext=true)
    (hu : k.sched.cont k.sched.cpu.runningTask=.user) (i : Nat) {n : Nat}
    (hn : c → n=osWaitForever → (k.sched.view k.sched.cpu.runningTask).bits.timeout=false) :
    Moved c u k.sched ((k.onSched fun s => s.setCont s.cpu.runningTask
      (semCont n)).osSemBlock i n).sched k.sched.cpu.runningTask (.sem i) := by
  have hx := semCont_cases n
  have hq : (semCont n).queueOf=none := by
    rcases hx with hx | hx <;> rw [hx] <;> rfl
  have hp : (semCont n).plain=true := by
    rcases hx with hx | hx <;> rw [hx] <;> rfl
  obtain ⟨-,hm⟩ := h.enter hc hu hq hp
  obtain ⟨hvc,hvt⟩ := enter_view (s:=k.sched) (t:=k.sched.cpu.runningTask) (semCont n)
  refine hm.pendSem ?_ i _ ?_ ?_
  . rw [hvc]
    exact hx
  . rw [hvt]
    exact hn
  intro he
  rw [hvc,semCont,if_neg he]
  rfl

lemma prtSemPend_settles (h : Able c u k.sched) (hb : k.sched.cpu.bgdActive=true)
    (hk : k.SemOk) (hx : u → k.MutexOk)
    (hu : k.sched.cpu.taskContext=true → k.sched.cont k.sched.cpu.runningTask=.user)
    (hd : d → k.sched.cpu.taskContext=true → k.sched.cpu.runningTask≠k.sched.cpu.idleTaskId)
    (i : Nat) {timeout : Nat}
    (hn : c → k.sched.cpu.taskContext=true → timeout=osWaitForever →
      (k.sched.view k.sched.cpu.runningTask).bits.timeout=false) :
    Settles c u d k.sched (k.prtSemPend i timeout).1.sched := by
  unfold prtSemPend
  split
  . exact h.refl
  split
  . exact h.refl
  next hus =>
  split
  . exact h.refl
  next hi =>
  have hc := taskContext_of hb hi
  split
  . next k' hs =>
    exact (osSemPendNotNeedSche_some hx (by simpa using hus) hs).settles h
  next hs =>
  split
  . exact h.refl
  next hp =>
  have hz : k.sched.cpu.uniTaskLock=0 := by
    by_contra hz
    apply hp
    unfold osSemPendParaCheck
    split <;> nofun
  have hm1 := osSemBlock_moved h hc (hu hc) i fun hc' => hn hc' hc
  have hl1 : Leads c u d k.sched _ :=
    hm1.leads h.core h.tidy (h.run.real hc) nofun fun hd' he => absurd he (hd hd' hc)
  have hl2 := osPriorityInherit_leads hk rfl
    ((k.onSched fun s => s.setCont s.cpu.runningTask (semCont timeout)).osSemBlock i timeout) rfl
      hl1 ?_ (osSemPendNotNeedSche_none hs) hm1.fits.prio
  . exact .switch hl2 hb (.inr ⟨hc,hz⟩)
  exact fun t j => hm1.loc_sem

lemma semPendCont_settles (h : Able c u k.sched) (hb : k.sched.cpu.bgdActive=true)
    (hc : k.sched.cpu.taskContext=true) (hu : k.sched.cont k.sched.cpu.runningTask=.semPend) :
    Settles c u d k.sched k.semPendCont.1.sched := by
  have hq : (k.sched.cont k.sched.cpu.runningTask).queueOf=none := by
    rw [hu]
    rfl
  simp only [semPendCont]
  split
  . obtain ⟨hl,ha⟩ := h.timedOut hc hq (d:=d)
    exact .keep hl ha.run fun _ => rfl
  next hto =>
  obtain ⟨hl,ha⟩ := h.goOn hc hq (k:=.user) rfl rfl (fun _ _ hc => absurd hc hto) (d:=d)
  exact .switch hl hb (.inl ha.run)

lemma osSemWake_leads (h : Able c u s) (ht : s.pend.loc t=some (.sem i)) :
    Leads c u d s (osSemWake s t) ∧ Able c u (osSemWake s t) := by
  have hle := h.core.le_of_loc ht
  obtain ⟨m,hm,-⟩ := h.start hle
  obtain rfl := hm.fits.eq_of_loc_sem ht
  obtain ⟨m',hm',hr,hout,-⟩ := hm.wakeSem.readyAddUnlessSuspend
  have hl : Leads c u d s (osSemWake s t) := hm'.leads h.core h.tidy hle hout fun _ _ hc =>
    absurd (hm.fits.ready.symm.trans hc) (by simp [TskMode.bits])
  exact ⟨hl,hm'.able h (h.run.ne_running hle hm.fits rfl) hl⟩

lemma osGetPendTskMaxPriority_le (k : Kernel) (t bound : Nat) :
    k.osGetPendTskMaxPriority t bound≤bound ∧ ∀ i∈k.semB.lists t, ∀ u l, k.semList i=u::l →
      k.osGetPendTskMaxPriority t bound≤k.priority u := by
  unfold osGetPendTskMaxPriority
  generalize k.semB.lists t=is
  induction is generalizing bound with
  | nil => exact ⟨le_rfl,by simp⟩
  | cons i is ih =>
    rw [foldl_cons]
    obtain ⟨hb,hm⟩ := ih _
    refine ⟨le_trans hb ?_,fun j hj u l hl => ?_⟩
    . split
      . exact le_rfl
      split
      . next hlt => exact le_of_lt hlt
      exact le_rfl
    rcases mem_cons.mp hj with rfl | hj
    . apply le_trans hb
      rw [hl]
      dsimp only
      split
      . exact le_rfl
      next hlt => exact not_lt.mp hlt
    exact hm j hj u l hl

lemma osPriorityRestore_eq (h : k.osPriorityRestore.2=false) : k.osPriorityRestore.1=k := by
  unfold osPriorityRestore at h ⊢
  dsimp only at h ⊢
  split
  . rfl
  next hp =>
  rw [if_neg hp] at h
  split
  . rfl
  next hp' =>
  rw [if_neg hp'] at h
  cases h

lemma osPriorityRestore_leads (h : Able c u k.sched) (hc : k.sched.cpu.taskContext=true) :
    Leads c u d k.sched k.osPriorityRestore.1.sched ∧ k.osPriorityRestore.1.sched.RunOk := by
  have ht := h.run.real hc
  obtain ⟨m,hr,hm,-⟩ := h.self hc (d:=d)
  simp only [osPriorityRestore]
  split
  . exact ⟨Leads.refl h.core h.tidy,h.run⟩
  split
  . exact ⟨Leads.refl h.core h.tidy,h.run⟩
  have hp := le_trans (k.osGetPendTskMaxPriority_le k.sched.cpu.runningTask
    (k.sched.tcb k.sched.cpu.runningTask).origPriority).1 hm.fits.orig
  obtain ⟨m',hm',hr',hout,hin⟩ :=
    ((hm.readyDel hr fun hc' => h.steady hc' hc).setPrio nofun hp).readyAddUnlessSuspend
  refine ⟨hm'.leads h.core h.tidy ht hout fun _ _ hrd => hin ?_,hm'.runOk h.run fun _ => hr'⟩
  rw [modTcb_view,update_self,osTskReadyDel_view,update_self]
  exact hm.fits.suspend (hm.fits.eq_ready hrd)

/-- A hand-over: the first waiting task goes on as the owner, and the poster gives up what it had
inherited through this mutex. -/
lemma osSemPendListGet_leads (h : Able c u k.sched) (hk : k.SemOk) (hx : u → k.MutexOk)
    (hc : (k.sems i).semType.isBin=true → k.sched.cpu.taskContext=true) :
    Leads c u d k.sched (k.osSemPendListGet i).sched ∧ (k.osSemPendListGet i).sched.RunOk := by
  unfold osSemPendListGet
  split
  . exact ⟨Leads.refl h.core h.tidy,h.run⟩
  next t _ hlist =>
  have hloc : k.sched.pend.loc t=some (.sem i) := Links.head_loc hlist
  obtain ⟨hl,ha⟩ := osSemWake_leads h hloc (d:=d)
  dsimp only
  split
  . next hb =>
    have hbin : (k.sems i).semType.isBin=true := by simpa [logSem,modSem,onSched] using hb
    generalize hk1 : (((k.onSched fun s => osSemWake s t).modSem i fun c =>
      {c with semOwner:=((k.onSched fun s => osSemWake s t).sched.tcb t).taskPid}).logSem i
        (.acquired t))=k1
    have hs1 : k1.sched=osSemWake k.sched t := by
      rw [← hk1]
      rfl
    have hne : k.semList i≠[] := by
      rw [hlist]
      exact List.cons_ne_nil _ _
    have hlink : u → k1.semB.linked i=true := by
      intro hu'
      have husd : (k.sems i).used=true := by
        by_contra hn
        exact hne ((hk.each i).unused (by simpa using hn))
      rw [← hk1]
      exact Option.isSome_of_eq_some ((hx hu' i).taken husd hbin ((hk.each i).taken hne)).1
    have hdel : u → (k1.semBDelete i).semB.linked i=false := by
      intro _
      simp [semBDelete,Links.linked]
    rw [← hs1] at hl ha
    have hl2 := (semBTailAdd_faults t hdel).leads ((semBDelete_faults hlink).leads hl)
    have ha2 := (semBTailAdd_faults t hdel).able ((semBDelete_faults hlink).able ha)
    obtain ⟨hl3,hr⟩ := osPriorityRestore_leads (d:=d) ha2 (by rw [hl2.cpu]; exact hc hbin)
    exact ⟨hl2.trans hl3,hr⟩
  exact ⟨hl,ha.run⟩

lemma osSemPostErrorCheck_bin (h : k.osSemPostErrorCheck i=.osOk)
    (hb : (k.sems i).semType.isBin=true) : k.sched.cpu.intActive=false := by
  unfold osSemPostErrorCheck at h
  dsimp only at h
  split at h
  . cases h
  split at h
  . cases h
  next hi => exact Bool.eq_false_iff.mpr hi

lemma osSemPostErrorCheck_used (h : k.osSemPostErrorCheck i=.osOk) : (k.sems i).used=true := by
  unfold osSemPostErrorCheck at h
  dsimp only at h
  split at h
  . cases h
  next hn => exact (Bool.not_eq_false _).mp hn

lemma osSemPostIsInvalid_none (h : k.osSemPostIsInvalid i=none)
    (hb : (k.sems i).semType.isBin=true) : (k.sems i).semCount≠osSemFull := by
  unfold osSemPostIsInvalid at h
  dsimp only at h
  split at h
  . cases h
  split at h
  . cases h
  next hn => exact fun hc => hn ⟨hb,hc⟩

lemma osSemPostIsInvalid_sched {k' : Kernel} (h : k.osSemPostIsInvalid i=some k') :
    k'.sched=k.sched := by
  unfold osSemPostIsInvalid at h
  dsimp only at h
  split at h
  . obtain rfl := Option.some.inj h
    rfl
  split at h
  . obtain rfl := Option.some.inj h
    rfl
  cases h

lemma prtSemPost_settles (h : Able c u k.sched) (hb : k.sched.cpu.bgdActive=true)
    (hk : k.SemOk) (hx : u → k.MutexOk) (i : Nat) :
    Settles c u d k.sched (k.prtSemPost i).1.sched := by
  unfold prtSemPost
  split
  . exact h.refl
  split
  . exact h.refl
  next hchk =>
  have hbin : (k.sems i).semType.isBin=true → k.sched.cpu.taskContext=true := by
    intro hbin
    have hi := osSemPostErrorCheck_bin (not_not.mp hchk) hbin
    exact taskContext_of hb (by simp [hi])
  split
  . next k' hs =>
    rw [osSemPostIsInvalid_sched hs]
    exact h.refl
  next hinv =>
  dsimp only
  split
  . obtain ⟨hl,hr⟩ := osSemPendListGet_leads (d:=d) (i:=i)
      (k:=k.logSem i (.posted k.sched.cpu.runningTask)) h
        ⟨hk.each,hk.free,hk.nodup⟩ (fun hu => hx hu) hbin
    exact .switch hl hb (.inl hr)
  split
  . next hb' =>
    have hbin' : (k.sems i).semType.isBin=true := by simpa [logSem,modSem] using hb'
    generalize hk1 : ((k.logSem i (.posted k.sched.cpu.runningTask)).modSem i fun c =>
      {c with semCount:=(c.semCount+1)%2^32, semOwner:=osInvalidOwnerId})=k1
    have hs1 : SemBFaults u k.sched (k1.semBDelete i).sched := by
      have hlink : u → k.semB.linked i=true := by
        intro hu
        have husd := osSemPostErrorCheck_used (not_not.mp hchk)
        have hz : (k.sems i).semCount=0 := by
          have hle := (hk.each i).full hbin'
          have hne := osSemPostIsInvalid_none hinv hbin'
          simp only [osSemFull] at hle hne
          omega
        exact Option.isSome_of_eq_some ((hx hu i).taken husd hbin' hz).1
      rw [← hk1]
      exact semBDelete_faults hlink
    have ha := hs1.able h
    have hl := hs1.leads (Leads.refl (d:=d) h.core h.tidy)
    obtain ⟨hl',hr⟩ := osPriorityRestore_leads (d:=d) ha (by rw [hl.cpu]; exact hbin hbin')
    split
    . next k2 he =>
      rw [he] at hl' hr
      exact .switch (hl.trans hl') hb (.inl hr)
    next k2 he =>
    have hk2 := osPriorityRestore_eq (k:=k1.semBDelete i) (by rw [he])
    rw [he] at hk2
    rw [show k2=_ from hk2]
    exact hs1.settles h
  exact h.refl

lemma prtTaskSetPriority_settles (h : Able c u k.sched) (hb : k.sched.cpu.bgdActive=true)
    (t prio : Nat) : Settles c u d k.sched (k.prtTaskSetPriority t prio).1.sched := by
  unfold prtTaskSetPriority
  split
  . exact h.refl
  next hchk =>
  split
  . exact h.refl
  split
  . exact h.refl
  obtain ⟨hp,ht⟩ : prio≤k.sched.cfg.prioLowest ∧ t≤k.sched.cfg.tskMaxNum := by
    unfold osTaskPrioritySetCheck at hchk
    split at hchk
    . simp at hchk
    split at hchk
    . simp at hchk
    next hp hov => exact ⟨not_lt.mp hp,le_of_not_pidOverflow hov⟩
  obtain ⟨m,hm,hout⟩ := h.start ht
  split
  . next hr =>
    obtain rfl := hm.fits.eq_ready hr
    have hm1 := (hm.readyDel rfl fun _ => hr).setPrio nofun hp
    have hsus : (((k.sched.osTskReadyDel t).modTcb t fun c =>
        {c with priority:=prio}).view t).bits.suspend=false := by
      rw [modTcb_view,update_self,osTskReadyDel_view,update_self]
      exact hm.fits.suspend rfl
    have hm2 := (hm1.readyAdd hsus).modTcb (f:=fun c => {c with origPriority:=prio})
      rfl rfl rfl rfl hp
    exact .switch (hm2.leads h.core h.tidy ht nofun fun _ _ _ => rfl) hb
      (.inl (hm2.runOk h.run fun _ => rfl))
  next hr =>
  have hne : m≠.ready := by
    rintro rfl
    exact hr hm.fits.ready
  have hm1 := (hm.setPrio hne hp).modTcb (f:=fun c => {c with origPriority:=prio})
    rfl rfl rfl rfl hp
  have he : (k.sched.modTcb t fun c => {c with priority:=prio}).modTcb t
      (fun c => {c with origPriority:=prio}) =
      k.sched.modTcb t fun c => {c with priority:=prio, origPriority:=prio} := by
    simp [Sched.modTcb]
  rw [he] at hm1
  refine .keep (hm1.leads h.core h.tidy ht (fun hm' => ?_) fun _ _ hc => absurd hc hr)
    (hm1.runOk h.run ?_) fun _ => rfl
  . rw [modTcb_view,update_self]
    exact hout hm'
  rintro rfl
  exact h.run.runnable_of hm.fits ht

lemma osSemCreate_sched (k : Kernel) (count : Nat) (semType : SemType) (semMode : SemMode) :
    (k.osSemCreate count semType semMode).1.sched=k.sched := by
  unfold osSemCreate
  split <;> rfl

lemma prtSemCreate_sched (k : Kernel) (count : Nat) : (k.prtSemCreate count).1.sched=k.sched := by
  unfold prtSemCreate
  split
  . rfl
  exact k.osSemCreate_sched _ _ _

lemma prtSemDelete_sched (k : Kernel) (i : Nat) : (k.prtSemDelete i).1.sched=k.sched := by
  unfold prtSemDelete
  split
  . rfl
  split
  . rfl
  split
  . rfl
  split <;> rfl

end Kernel

end UniProton
