import UniProton.Ipc.Counting

namespace UniProton

open Framework Function List TaskView

namespace TaskView

/-- What a round of `OsTaskScan` does to its task, up to the ready queue. -/
def expire (v : TaskView) : TaskView :=
  let v := v.timerDel
  if v.bits.pend then
    ((v.modStatus fun b => {b with pend:=false}).unlink).modTcb fun c =>
      {c with taskPend:=none}
  else if v.bits.eventPend then v.modStatus fun b => {b with eventPend:=false}
  else if v.bits.queuePend then v.unlink.modStatus fun b => {b with queuePend:=false}
  else if v.bits.rwPend then v.unlink.modStatus fun b => {b with rwPend:=false}
  else if v.bits.delayInterruptible then
    (v.modStatus fun b => {b with delayInterruptible:=false}).modTcb fun c =>
      {c with kthreadTsk:=c.kthreadTsk.map fun _ => .running}
  else v.modStatus fun b => {b with delay:=false}

def lapse (v : TaskView) : TaskView :=
  if v.expire.bits.suspend then v.expire else v.expire.readyAdd

lemma expire_suspend (v : TaskView) : v.expire.bits.suspend=v.bits.suspend := by
  simp only [expire]
  repeat' split
  all_goals rfl

lemma expire_priority (v : TaskView) : v.expire.tcb.priority=v.tcb.priority := by
  simp only [expire]
  repeat' split
  all_goals rfl

lemma expire_tick (v : TaskView) : v.expire.tcb.expirationTick=v.tcb.expirationTick := by
  simp only [expire]
  repeat' split
  all_goals rfl

lemma expire_parked (v : TaskView) : v.expire.bits.parked=v.bits.parked := by
  simp only [expire]
  repeat' split
  all_goals rfl

lemma lapse_parked (v : TaskView) : v.lapse.bits.parked=v.bits.parked := by
  unfold lapse
  split <;> exact v.expire_parked

lemma lapse_tick (v : TaskView) : v.lapse.tcb.expirationTick=v.tcb.expirationTick := by
  unfold lapse
  split <;> exact v.expire_tick

end TaskView

namespace Sched

variable {s s' : Sched} {t u n : Nat}

lemma osTaskExpire_view (s : Sched) (t : Nat) :
    (s.osTaskExpire t).view=update s.view t (s.view t).expire := by
  unfold osTaskExpire expire
  have hbits : (s.timerDelete t).status t=(s.view t).timerDel.bits := rfl
  dsimp only
  rw [hbits]
  split
  . simp
  split
  . simp
  split
  . simp
  split
  . simp
  split
  . simp
  simp

def lapseTask (s : Sched) (t : Nat) : Sched := (s.osTaskExpire t).readyAddUnlessSuspend t

lemma lapseTask_view (s : Sched) (t : Nat) :
    (s.lapseTask t).view=update s.view t (s.view t).lapse := by
  have hview := s.osTaskExpire_view t
  have hself : (s.osTaskExpire t).view t=(s.view t).expire := by rw [hview,update_self]
  have hsus : ((s.osTaskExpire t).status t).suspend=(s.view t).expire.bits.suspend := by
    rw [← hself]
    rfl
  unfold lapseTask readyAddUnlessSuspend lapse
  rw [hsus]
  split
  . exact hview
  rw [osTskReadyAdd_view,hself,hview,update_idem]

lemma lapseTask_cpu (s : Sched) (t : Nat) : (s.lapseTask t).cpu=s.cpu := by
  unfold lapseTask readyAddUnlessSuspend
  split <;> exact (s.osTaskExpire_frame t).1

lemma lapseTask_timer (s : Sched) (t : Nat) : (s.lapseTask t).timer=s.timer.delete t := by
  unfold lapseTask readyAddUnlessSuspend
  split <;> exact (s.osTaskExpire_frame t).2.1

lemma lapseTask_tick (s : Sched) (t u : Nat) :
    ((s.lapseTask t).tcb u).expirationTick=(s.tcb u).expirationTick := by
  have hview := congrArg (fun v => (v u).tcb.expirationTick) (s.lapseTask_view t)
  by_cases hu : u=t
  . subst hu
    simp only [update_self] at hview
    exact hview.trans (lapse_tick _)
  simp only [update_of_ne hu] at hview
  exact hview

def lapsed (s : Sched) : List Nat :=
  s.delayList.takeWhile fun t => (s.tcb t).expirationTick ≤ s.cpu.uniTicks

lemma osTaskScanLoop_eq (hn : s.delayList.length≤n) (need : Bool) :
    (osTaskScanLoop n s need).1=s.lapsed.foldl lapseTask s := by
  induction n generalizing s need with
  | zero =>
    have hnil : s.delayList=[] := length_eq_zero_iff.mp (Nat.le_zero.mp hn)
    simp [osTaskScanLoop,lapsed,hnil]
  | succ n ih =>
    unfold osTaskScanLoop
    cases hd : s.delayList with
    | nil => simp [lapsed,hd]
    | cons t l =>
      by_cases hlt : s.cpu.uniTicks<(s.tcb t).expirationTick
      . simp [lapsed,hd,hlt,Nat.not_le.mpr hlt]
      have hlist : (s.lapseTask t).delayList=l := by
        rw [delayList,lapseTask_timer,Links.delete_lists_eq]
        change s.delayList.erase t=l
        rw [hd,erase_cons_head]
      have hround (b : Bool) : (osTaskScanLoop n (s.lapseTask t) b).1=s.lapsed.foldl lapseTask s := by
        rw [ih (by rw [hlist]; simpa [hd] using hn)]
        have hlapsed : s.lapsed=t::(s.lapseTask t).lapsed := by
          simp only [lapsed,hd,hlist,lapseTask_tick,lapseTask_cpu]
          rw [takeWhile_cons_of_pos (by simpa using hlt)]
        rw [hlapsed,foldl_cons]
      simp only [hlt,if_false]
      have hcases : (if ((s.osTaskExpire t).status t).suspend then s.osTaskExpire t
          else (s.osTaskExpire t).osTskReadyAdd t)=s.lapseTask t := rfl
      cases hsus : ((s.osTaskExpire t).status t).suspend with
      | true =>
        rw [hsus] at hcases
        simp only [if_true] at hcases ⊢
        rw [hcases]
        exact hround need
      | false =>
        rw [hsus] at hcases
        simp only [Bool.false_eq_true,if_false] at hcases ⊢
        rw [hcases]
        exact hround true

lemma foldl_lapseTask (l : List Nat) (hl : l.Nodup) (s : Sched) :
    (∀ t∉l, (l.foldl lapseTask s).view t=s.view t) ∧
      (∀ t∈l, (l.foldl lapseTask s).view t=(s.view t).lapse) ∧
      (l.foldl lapseTask s).delayList=s.delayList.filter (· ∉ l) ∧
      (l.foldl lapseTask s).cpu=s.cpu := by
  induction l generalizing s with
  | nil => simp
  | cons t l ih =>
    obtain ⟨ht,hl⟩ := nodup_cons.mp hl
    obtain ⟨hother,hmem,hlist,hcpu⟩ := ih hl (s.lapseTask t)
    have hview := s.lapseTask_view t
    refine ⟨fun u hu => ?_,fun u hu => ?_,?_,?_⟩
    . obtain ⟨hut,hul⟩ : u≠t ∧ u∉l := by simpa using hu
      rw [foldl_cons,hother u hul,hview,update_of_ne hut]
    . rw [foldl_cons]
      rcases mem_cons.mp hu with rfl | hu
      . rw [hother u ht,hview,update_self]
      have hut : u≠t := ne_of_mem_of_not_mem hu ht
      rw [hmem u hu,hview,update_of_ne hut]
    . rw [foldl_cons,hlist,delayList,lapseTask_timer,Links.delete_lists_eq,
        (s.timer.nodup ()).erase_eq_filter,filter_filter]
      apply filter_congr
      intro u _
      by_cases hut : u=t <;> simp [hut]
    rw [foldl_cons,hcpu,lapseTask_cpu]

def Lapsed (s : Sched) (t : Nat) : Prop := t∈s.delayList ∧ (s.tcb t).expirationTick ≤ s.cpu.uniTicks

/-- `OsTaskScan` takes off exactly the tasks whose time is over, leaves the others as they are, and
readies a task it takes off unless it is suspended. -/
structure Scans (s s' : Sched) : Prop where
  left : s'.delayList=s.delayList.filter fun t => s.cpu.uniTicks<(s.tcb t).expirationTick
  others : ∀ t, ¬s.Lapsed t → s'.view t=s.view t
  readied : ∀ t, s.Lapsed t → (s.status t).suspend=false → (s'.status t).ready=true ∧
    ((s.osTaskExpire t).pend.loc t=none → s'.pend.loc t=some (.ready (s.tcb t).priority))
  held : ∀ t, s.Lapsed t → (s.status t).suspend=true → s'.view t=(s.osTaskExpire t).view t

def SortedDelay (s : Sched) : Prop :=
  s.delayList.Pairwise fun t u => (s.tcb t).expirationTick≤(s.tcb u).expirationTick

lemma SortedDelay.lapsed_eq (h : s.SortedDelay) :
    s.lapsed=s.delayList.filter fun t => (s.tcb t).expirationTick ≤ s.cpu.uniTicks := by
  unfold lapsed
  unfold SortedDelay at h
  generalize s.delayList=l at h ⊢
  induction l with
  | nil => rfl
  | cons t l ih =>
    obtain ⟨ht,hl⟩ := pairwise_cons.mp h
    by_cases hle : (s.tcb t).expirationTick ≤ s.cpu.uniTicks
    . rw [takeWhile_cons_of_pos (by simpa using hle),filter_cons_of_pos (by simpa using hle),ih hl]
    rw [takeWhile_cons_of_neg (by simpa using hle),filter_cons_of_neg (by simpa using hle)]
    symm
    rw [filter_eq_nil_iff]
    intro u hu
    have hu' := ht u hu
    simp only [decide_eq_true_eq]
    omega

lemma SortedDelay.mem_lapsed (h : s.SortedDelay) : t∈s.lapsed ↔ s.Lapsed t := by
  rw [h.lapsed_eq,mem_filter,Lapsed,decide_eq_true_eq]

lemma osTskSchedule_of_intActive (h : s.cpu.intActive=true) :
    s.osTskSchedule.view=s.view ∧ s.osTskSchedule.timer=s.timer := by
  simp only [osTskSchedule]
  split
  . split
    . exact ⟨rfl,rfl⟩
    next hn => exact absurd h hn
  exact ⟨rfl,rfl⟩

lemma osTaskScan_view (h : s.SortedDelay) (hi : s.cpu.intActive=true) :
    (∀ t, ¬s.Lapsed t → s.osTaskScan.view t=s.view t) ∧
      (∀ t, s.Lapsed t → s.osTaskScan.view t=(s.view t).lapse) ∧
      s.osTaskScan.delayList=s.delayList.filter (· ∉ s.lapsed) := by
  have hnd : s.lapsed.Nodup := (s.timer.nodup ()).sublist (takeWhile_sublist _)
  obtain ⟨hother,hmem,hlist,hcpu⟩ := foldl_lapseTask s.lapsed hnd s
  rw [← osTaskScanLoop_eq (Nat.le_refl _) false] at hother hmem hlist hcpu
  have hscan : s.osTaskScan.view=(osTaskScanLoop s.delayList.length s false).1.view ∧
      s.osTaskScan.timer=(osTaskScanLoop s.delayList.length s false).1.timer := by
    simp only [osTaskScan]
    split
    . exact osTskSchedule_of_intActive (by rw [hcpu]; exact hi)
    exact ⟨rfl,rfl⟩
  refine ⟨fun t ht => ?_,fun t ht => ?_,?_⟩
  . rw [hscan.1]
    exact hother t fun hm => ht (h.mem_lapsed.mp hm)
  . rw [hscan.1]
    exact hmem t (h.mem_lapsed.mpr ht)
  rw [← hlist,delayList,hscan.2]
  rfl

lemma SortedDelay.scans (h : s.SortedDelay) (hi : s.cpu.intActive=true) : Scans s s.osTaskScan := by
  obtain ⟨hother,hlapse,hlist⟩ := osTaskScan_view h hi
  have hexpire (t : Nat) : (s.osTaskExpire t).view t=(s.view t).expire := by
    rw [s.osTaskExpire_view t,update_self]
  refine ⟨?_,hother,fun t ht hsus => ?_,fun t ht hsus => ?_⟩
  . rw [hlist]
    apply filter_congr
    intro t ht
    simp only [h.mem_lapsed,Lapsed,ht,true_and,Nat.not_le]
  . have hsus' : (s.view t).expire.bits.suspend=false := (s.view t).expire_suspend.trans hsus
    have hview : s.osTaskScan.view t=(s.view t).expire.readyAdd := by
      rw [hlapse t ht,lapse,if_neg (by simp [hsus'])]
    refine ⟨congrArg (fun v => v.bits.ready) hview,fun hloc => ?_⟩
    have hfree : (s.view t).expire.loc=none := (congrArg loc (hexpire t)).symm.trans hloc
    apply (congrArg loc hview).trans
    change some ((s.view t).expire.loc.getD (.ready (s.view t).expire.tcb.priority))=_
    rw [hfree,expire_priority]
    rfl
  have hsus' : (s.view t).expire.bits.suspend=true := (s.view t).expire_suspend.trans hsus
  rw [hlapse t ht,hexpire t,lapse,if_pos hsus']

end Sched

/-- The delay list only loses tasks, and no deadline moves. -/
structure DelaysLeft (a s : Sched) : Prop where
  list : s.delayList.Sublist a.delayList
  tick : ∀ t, (s.tcb t).expirationTick=(a.tcb t).expirationTick
  ticks : s.cpu.uniTicks=a.cpu.uniTicks

namespace DelaysLeft

variable {a s s' : Sched}

lemma refl (a : Sched) : DelaysLeft a a := ⟨.refl _,fun _ => rfl,rfl⟩

lemma of_eq (h : DelaysLeft a s) (hl : s'.timer=s.timer)
    (ht : ∀ t, (s'.tcb t).expirationTick=(s.tcb t).expirationTick)
    (hc : s'.cpu.uniTicks=s.cpu.uniTicks) : DelaysLeft a s' := by
  refine ⟨?_,fun t => (ht t).trans (h.tick t),hc.trans h.ticks⟩
  rw [Sched.delayList,hl]
  exact h.list

lemma modTcb (h : DelaysLeft a s) {t : Nat} {f : TskCb → TskCb}
    (hf : (f (s.tcb t)).expirationTick=(s.tcb t).expirationTick) : DelaysLeft a (s.modTcb t f) := by
  refine h.of_eq rfl (fun u => ?_) rfl
  by_cases hu : u=t
  . subst hu
    simpa [Sched.modTcb] using hf
  simp [Sched.modTcb,hu]

lemma handles : Handles (fun _ => False) (fun _ _ => True) DelaysLeft where
  refl := refl
  frame h hs := h.of_eq hs.timer (fun t => by rw [hs.tcb]) hs.ticks
  modTcb _ _ h hk _ _ := h.modTcb (congrArg Prod.fst hk)
  modSigs _ _ h _ he _ := h.modTcb he
  birth _ _ h _ _ := h.modTcb rfl
  toZombie _ h _ _ := h.modTcb rfl
  setCont _ _ h _ _ := h.of_eq rfl (fun _ => rfl) rfl
  pendInsert _ _ _ h _ _ := h.of_eq rfl (fun _ => rfl) rfl
  pendDelete _ h := h.of_eq rfl (fun _ => rfl) rfl
  timerDelete {_ s} t h := by
    refine ⟨?_,h.tick,h.ticks⟩
    change ((s.timer.delete t).lists ()).Sublist _
    rw [Links.delete_lists_eq]
    exact erase_sublist.trans h.list
  waitInsert _ _ _ _ h _ := h.of_eq rfl (fun _ => rfl) rfl
  waitDelete _ h := h.of_eq rfl (fun _ => rfl) rfl
  ofPend _ _ hI := hI.elim
  ofWait _ _ hI := hI.elim
  ofRunning _ hI := hI.elim
  ofHighest _ _ hI := hI.elim
  ofEngaged _ _ hI := hI.elim

end DelaysLeft

/-- Tasks have left the delay list, and the caller may have been put into it for `n` ticks. -/
def DelaysOnce (n : Nat) (a s : Sched) : Prop :=
  DelaysLeft a s ∨ ∃ s1, DelaysLeft a s1 ∧ DelaysLeft (s1.osTskTimerAdd a.cpu.runningTask n) s

namespace DelaysOnce

variable {n : Nat}

lemma map {a s s' : Sched} (h : DelaysOnce n a s)
    (hs : ∀ b, DelaysLeft b s → DelaysLeft b s') : DelaysOnce n a s' := by
  rcases h with h | ⟨s1,h1,h⟩
  . exact .inl (hs a h)
  exact .inr ⟨s1,h1,hs _ h⟩

lemma handles (n : Nat) : Handles (fun _ => False) (fun _ _ => True) (DelaysOnce n) where
  refl a := .inl (.refl a)
  frame h hs := h.map fun _ h => DelaysLeft.handles.frame h hs
  modTcb t f h hk hT _ := h.map fun _ h => DelaysLeft.handles.modTcb t f h hk hT nofun
  modSigs t f h hg he hb := h.map fun _ h => DelaysLeft.handles.modSigs t f h hg he hb
  birth t prio h hT _ := h.map fun _ h => DelaysLeft.handles.birth t prio h hT nofun
  toZombie t h hT _ := h.map fun _ h => DelaysLeft.handles.toZombie t h hT nofun
  setCont t k h hT _ := h.map fun _ h => DelaysLeft.handles.setCont t k h hT nofun
  pendInsert t hd i h hT _ := h.map fun _ h => DelaysLeft.handles.pendInsert t hd i h hT nofun
  pendDelete t h := h.map fun _ h => DelaysLeft.handles.pendDelete t h
  timerDelete t h := h.map fun _ h => DelaysLeft.handles.timerDelete t h
  waitInsert t wq i fs h _ := h.map fun _ h => DelaysLeft.handles.waitInsert t wq i fs h nofun
  waitDelete t h := h.map fun _ h => DelaysLeft.handles.waitDelete t h
  ofPend _ _ hI := hI.elim
  ofWait _ _ hI := hI.elim
  ofRunning _ hI := hI.elim
  ofHighest _ _ hI := hI.elim
  ofEngaged _ _ hI := hI.elim

lemma steps (n : Nat) :
    Steps (fun _ => False) (fun _ _ => True) (· = n) DelaysLeft (DelaysOnce n) where
  pre := DelaysLeft.handles
  post := handles n
  weaken := .inl
  timerAdd {_ s} m hm h _ := by
    subst hm
    exact .inr ⟨s,h,.refl _⟩

end DelaysOnce

lemma signals_any : Signals fun _ _ => True :=
  ⟨fun _ _ => trivial,fun _ _ _ => trivial,fun _ _ _ => trivial⟩

lemma Kernel.act_delays {k : Kernel} {i : Input} (ht : i≠.tickScan) :
    (i.delays=false → DelaysLeft k.sched (k.act i).1.sched) ∧
      DelaysOnce i.limit k.sched (k.act i).1.sched := by
  have hi : Suits (fun _ => False) (fun _ _ => True) k i :=
    suits_of_false fun _ _ _ _ _ _ => trivial
  exact ⟨fun hd => DelaysLeft.handles.act signals_any hi hd ht,
    (DelaysOnce.steps i.limit).act signals_any hi ht fun _ => rfl⟩

/-- The last call of a task that names a time: its place in the run, the value of `g_uniTicks` and
the time. -/
structure DelayStamp where
  seq : Nat
  tick : Nat
  limit : Nat

/-- The kernel with the history of the delays. -/
structure DelayRun where
  kernel : Kernel
  seq : Nat
  since : Nat → DelayStamp

/-- The inputs of the kernel, and jumps of `g_uniTicks` between the ticks. -/
inductive DelayInput
  | kernel (i : Input)
  | advance (ticks : Nat)

/-- A control block is taken and initialised. -/
def Input.creates : Input → Bool
  | .call (.taskCreate ..) | .activate _ => true
  | _ => false

namespace DelayRun

variable (r : DelayRun)

def step : DelayInput → DelayRun
  | .kernel i =>
    { kernel := r.kernel.step i
      seq := r.seq+1
      since := if r.kernel.enabled i && i.delays then
          update r.since r.kernel.sched.cpu.runningTask ⟨r.seq,r.kernel.sched.cpu.uniTicks,i.limit⟩
        else r.since }
  | .advance ticks =>
    {r with
      kernel := r.kernel.onSched fun s => {s with cpu := {s.cpu with
        uniTicks := (s.cpu.uniTicks+ticks)%2^64}}
      seq := r.seq+1}

def machine (cfg : Cfg) : Machine DelayRun DelayInput where
  start r := r=⟨Kernel.init cfg,0,fun _ => ⟨0,0,0⟩⟩
  step := step

/-- The task that stands in front expires earlier, or as early and was put in earlier. -/
def Before (t u : Nat) : Prop :=
  (r.kernel.sched.tcb t).expirationTick<(r.kernel.sched.tcb u).expirationTick ∨
    ((r.kernel.sched.tcb t).expirationTick=(r.kernel.sched.tcb u).expirationTick ∧
      (r.since t).seq<(r.since u).seq)

/-- The delay list is in order, and a scan takes a task off when its time has gone by, and not
before. -/
structure DelayOk : Prop where
  sorted : r.kernel.sched.delayList.Pairwise r.Before
  scans : ∀ n, r.kernel.sched.cpu.intActive=true →
    let s := {r.kernel.sched with cpu:={r.kernel.sched.cpu with uniTicks:=n}}
    s.Scans s.osTaskScan ∧ ∀ t∈s.delayList,
      (t∈s.osTaskScan.delayList ↔ n<(r.since t).tick+(r.since t).limit)

/-- A call that names a time is made by a task that is not in the delay list, and the time fits 64
bits; where a control block may be taken, none in the delay list is unused. -/
def addsOnce : DelayInput → Prop
  | .kernel i => r.kernel.enabled i=true →
    (i.delays=true → r.kernel.sched.cpu.runningTask∉r.kernel.sched.delayList ∧
      r.kernel.sched.cpu.uniTicks+i.limit<2^64) ∧
    (i.creates=true → ∀ t∈r.kernel.sched.delayList, (r.kernel.sched.status t).inuse=true)
  | .advance _ => True

/-- What every step keeps. -/
structure Good : Prop where
  sorted : r.kernel.sched.delayList.Pairwise r.Before
  due : ∀ t∈r.kernel.sched.delayList,
    (r.kernel.sched.tcb t).expirationTick=(r.since t).tick+(r.since t).limit
  past : ∀ t∈r.kernel.sched.delayList, (r.since t).seq<r.seq

variable {r} {r' : DelayRun} {s : Sched} {n : Nat}

lemma Good.left (h : r.Good) (hl : r'.kernel.sched.delayList.Sublist r.kernel.sched.delayList)
    (ht : ∀ t, (r'.kernel.sched.tcb t).expirationTick=(r.kernel.sched.tcb t).expirationTick)
    (hs : ∀ t∈r.kernel.sched.delayList, r'.since t=r.since t) (hseq : r.seq≤r'.seq) :
    r'.Good := by
  refine ⟨?_,fun t hm => ?_,fun t hm => ?_⟩
  . refine (h.sorted.sublist hl).imp_of_mem fun ha hb hab => ?_
    unfold Before at hab ⊢
    rw [ht,ht,hs _ (hl.subset ha),hs _ (hl.subset hb)]
    exact hab
  . rw [ht,hs t (hl.subset hm)]
    exact h.due t (hl.subset hm)
  rw [hs t (hl.subset hm)]
  exact Nat.lt_of_lt_of_le (h.past t (hl.subset hm)) hseq

lemma Good.added (h : r.Good) {t : Nat} (ht : t∉r.kernel.sched.delayList)
    (hfit : r.kernel.sched.cpu.uniTicks+n<2^64) : Good
      { kernel := r.kernel.onSched fun s => s.osTskTimerAdd t n
        seq := r.seq+1
        since := update r.since t ⟨r.seq,r.kernel.sched.cpu.uniTicks,n⟩ } := by
  have hloc : r.kernel.sched.timer.loc t=none := by
    by_contra hne
    exact ht ((r.kernel.sched.timer.mem_iff () t).mpr (Option.ne_none_iff_exists'.mp hne).choose_spec)
  have hne {u : Nat} (hu : u∈r.kernel.sched.delayList) : u≠t := ne_of_mem_of_not_mem hu ht
  have hticks : (r.kernel.sched.cpu.uniTicks+n)%2^64=r.kernel.sched.cpu.uniTicks+n :=
    Nat.mod_eq_of_lt hfit
  generalize hr' : ({
    kernel := r.kernel.onSched fun s => s.osTskTimerAdd t n
    seq := r.seq+1
    since := update r.since t ⟨r.seq,r.kernel.sched.cpu.uniTicks,n⟩ } : DelayRun)=r'
  have hself : (r'.kernel.sched.tcb t).expirationTick=r.kernel.sched.cpu.uniTicks+n := by
    rw [← hr',← hticks]
    simp [Kernel.onSched,Sched.osTskTimerAdd,Sched.modTcb]
  have hother {u : Nat} (hu : u∈r.kernel.sched.delayList) :
      (r'.kernel.sched.tcb u).expirationTick=(r.kernel.sched.tcb u).expirationTick := by
    rw [← hr']
    simp [Kernel.onSched,Sched.osTskTimerAdd,Sched.modTcb,hne hu]
  have hsince {u : Nat} (hu : u∈r.kernel.sched.delayList) : r'.since u=r.since u := by
    rw [← hr']
    exact update_of_ne (hne hu) _ _
  have hstamp : r'.since t=⟨r.seq,r.kernel.sched.cpu.uniTicks,n⟩ := by
    rw [← hr']
    exact update_self _ _ _
  have hlist : r'.kernel.sched.delayList=insertAt (r.kernel.sched.delayList.findIdx fun u =>
      r.kernel.sched.cpu.uniTicks+n<(r'.kernel.sched.tcb u).expirationTick) t
      r.kernel.sched.delayList := by
    rw [← hr',← hticks]
    change (r.kernel.sched.timer.insert t () _).lists ()=_
    rw [Links.insert_lists _ _ _ hloc,update_self]
    rfl
  have hmem {u : Nat} (hu : u∈r'.kernel.sched.delayList) : u=t ∨ u∈r.kernel.sched.delayList := by
    rw [hlist] at hu
    exact (mem_insertAt _ _ _ _).mp hu
  refine ⟨?_,fun u hu => ?_,fun u hu => ?_⟩
  . rw [hlist]
    apply pairwise_insertAt
    . refine h.sorted.imp_of_mem fun ha hb hab => ?_
      unfold Before at hab ⊢
      rw [hother ha,hother hb,hsince ha,hsince hb]
      exact hab
    . intro u hu hlt
      left
      rw [hself]
      simpa using hlt
    . intro u hu hge
      unfold Before
      rw [hself,hstamp,hsince hu]
      have hpast := h.past u hu
      simp only [decide_eq_false_iff_not] at hge
      dsimp only
      omega
    intro u hu v hv huv hlt
    simp only [decide_eq_true_eq] at hlt ⊢
    unfold Before at huv
    omega
  . rcases hmem hu with rfl | hu
    . rw [hself,hstamp]
    rw [hother hu,hsince hu]
    exact h.due u hu
  have hseq : r'.seq=r.seq+1 := by rw [← hr']
  rw [hseq]
  rcases hmem hu with rfl | hu
  . rw [hstamp]
    exact Nat.lt_succ_self _
  rw [hsince hu]
  exact Nat.lt_succ_of_lt (h.past u hu)

lemma Good.sortedDelay (h : r.Good) : r.kernel.sched.SortedDelay := by
  refine h.sorted.imp fun hab => ?_
  unfold Before at hab
  omega

lemma tickScan_left (s : Sched) : s.tickScan.delayList.Sublist s.delayList ∧
      ∀ t, (s.tickScan.tcb t).expirationTick=(s.tcb t).expirationTick := by
  have h0 : DelaysLeft {s with cpu := {s.cpu with
      uniTicks := (s.cpu.uniTicks+1)%2^64, tickPhase := .hooks}} s.tickScan :=
    DelaysLeft.handles.step_osTaskScan (fun _ _ hI => hI.elim) (.refl _) (.inl Touch.any_all)
  exact ⟨h0.list,h0.tick⟩

lemma Good.step (h : r.Good) (x : DelayInput) (hx : r.addsOnce x) : (r.step x).Good := by
  cases x with
  | advance ticks => exact h.left (.refl _) (fun _ => rfl) (fun _ _ => rfl) (Nat.le_succ _)
  | kernel i =>
    cases hen : r.kernel.enabled i with
    | false =>
      have hstep : r.step (.kernel i)={r with seq:=r.seq+1} := by
        simp [DelayRun.step,Kernel.step,hen]
      rw [hstep]
      exact h.left (.refl _) (fun _ => rfl) (fun _ _ => rfl) (Nat.le_succ _)
    | true =>
      have hkernel : (r.step (.kernel i)).kernel=(r.kernel.act i).1 := by
        simp [DelayRun.step,Kernel.step,hen]
      have hsince : ∀ t∈r.kernel.sched.delayList, (r.step (.kernel i)).since t=r.since t := by
        intro t ht
        cases hd : i.delays with
        | false => simp [DelayRun.step,hd]
        | true =>
          have hne : t≠r.kernel.sched.cpu.runningTask := ne_of_mem_of_not_mem ht ((hx hen).1 hd).1
          simp [DelayRun.step,hen,hd,hne]
      by_cases htick : i=.tickScan
      . subst htick
        obtain ⟨hlist,hticks⟩ := tickScan_left r.kernel.sched
        refine h.left ?_ ?_ hsince (Nat.le_succ _)
        . rw [hkernel]
          exact hlist
        rw [hkernel]
        exact hticks
      obtain ⟨hleft,honce⟩ := Kernel.act_delays (k:=r.kernel) htick
      have hgone (hl : DelaysLeft r.kernel.sched (r.kernel.act i).1.sched) :
          (r.step (.kernel i)).Good := by
        refine h.left ?_ ?_ hsince (Nat.le_succ _)
        . rw [hkernel]
          exact hl.list
        rw [hkernel]
        exact hl.tick
      cases hd : i.delays with
      | false => exact hgone (hleft hd)
      | true =>
        rcases honce with hl | ⟨s1,h1,h2⟩
        . exact hgone hl
        obtain ⟨hnot,hfit⟩ := (hx hen).1 hd
        -- the call up to the insertion, the insertion, and what is left of the call
        have hbase : Good {r with kernel:=r.kernel.onSched fun _ => s1} :=
          h.left h1.list h1.tick (fun _ _ => rfl) (Nat.le_refl _)
        have hadd := hbase.added (t:=r.kernel.sched.cpu.runningTask) (n:=i.limit)
          (fun hm => hnot (h1.list.subset hm)) (by
            change s1.cpu.uniTicks+i.limit<2^64
            rw [h1.ticks]
            exact hfit)
        refine hadd.left ?_ ?_ (fun t _ => ?_) (Nat.le_refl _)
        . rw [hkernel]
          exact h2.list
        . rw [hkernel]
          exact h2.tick
        have hstamp : (r.step (.kernel i)).since=update r.since
            r.kernel.sched.cpu.runningTask ⟨r.seq,r.kernel.sched.cpu.uniTicks,i.limit⟩ := by
          simp [DelayRun.step,hen,hd]
        rw [hstamp,← h1.ticks]
        rfl

lemma Good.delayOk (h : r.Good) : r.DelayOk := by
  refine ⟨h.sorted,fun n hi => ?_⟩
  intro s
  have hscans : s.Scans s.osTaskScan := Sched.SortedDelay.scans (s:=s) h.sortedDelay hi
  refine ⟨hscans,fun t ht => ?_⟩
  have hdue : (s.tcb t).expirationTick=(r.since t).tick+(r.since t).limit := h.due t ht
  rw [hscans.left,mem_filter,← hdue]
  simp [ht,s]

lemma good_of_reaches {cfg : Cfg} (hr : (machine cfg).Reaches addsOnce r) : r.Good := by
  refine hr.invariant (fun r hs => ?_) fun r x h hx => h.step x hx
  subst hs
  exact ⟨.nil,nofun,nofun⟩

/-- As long as no task that is in the delay list is put into it again, and none that has ended in it is
created again. -/
theorem delay_list_sorted {cfg : Cfg} (hr : (machine cfg).Reaches addsOnce r) : r.DelayOk :=
  (good_of_reaches hr).delayOk

instance (x : DelayInput) : Decidable (r.addsOnce x) :=
  match x with
  | .kernel _ => inferInstanceAs (Decidable (_ → _ ∧ _))
  | .advance _ => inferInstanceAs (Decidable True)

def threeTasks : List DelayInput :=
  [.kernel (.call (.taskCreate (smallTask 3) true false)),.kernel (.call (.taskResume 0)),
   .kernel (.call (.taskCreate (smallTask 4) true false)),.kernel (.call (.taskResume 1)),
   .kernel (.call (.taskCreate (smallTask 5) true false)),.kernel (.call (.taskResume 2)),
   .kernel (.activate true)]

def runOf (is : List DelayInput) : DelayRun :=
  (machine smallCfg).run ⟨Kernel.init smallCfg,0,fun _ => ⟨0,0,0⟩⟩ is

def sleepers : List DelayInput :=
  threeTasks++[.kernel (.call (.taskDelay 4)),.kernel (.call (.taskDelay 4)),.advance 2,
    .kernel .hwiEnter,.kernel .tickIsr,.kernel .hwiExit]

theorem delay_list_sorted_sleepers : (runOf sleepers).kernel.sched.delayList=[0,1] ∧
      (runOf sleepers).kernel.sched.cpu.intActive=true ∧ (runOf sleepers).DelayOk := by
  have hrun : (machine smallCfg).Allowed addsOnce ⟨Kernel.init smallCfg,0,fun _ => ⟨0,0,0⟩⟩
      sleepers := by
    refine ⟨?_,?_,?_,?_,?_,?_,?_,?_,?_,trivial,?_,?_,?_,trivial⟩
    all_goals decide +kernel
  refine ⟨by decide +kernel,by decide +kernel,?_⟩
  exact delay_list_sorted (Machine.Reaches.run (.start rfl) sleepers hrun)

/-- Task 2 resumes task 0 out of a limited wait for a signal, so that it sleeps while it is still in
the delay list. -/
def twiceInputs : List DelayInput :=
  threeTasks++[.kernel (.call (.signalWait 1 5)),.kernel (.call (.taskDelay 50)),
    .kernel (.call (.taskSuspend 0)),.kernel (.call (.taskResume 0)),.kernel .proceed,
    .kernel (.call (.taskDelay 100))]

theorem delay_list_twice :
    (runOf twiceInputs).kernel.sched.delayList=[0,1] ∧ ¬(runOf twiceInputs).DelayOk := by
  have hlist : (runOf twiceInputs).kernel.sched.delayList=[0,1] := by decide +kernel
  have hfirst : ((runOf twiceInputs).kernel.sched.tcb 0).expirationTick=100 := by decide +kernel
  have hsecond : ((runOf twiceInputs).kernel.sched.tcb 1).expirationTick=50 := by decide +kernel
  refine ⟨hlist,fun h => ?_⟩
  have hbefore : (runOf twiceInputs).Before 0 1 := by
    have hsorted := h.sorted
    exact (pairwise_cons.mp hsorted).1 1 (mem_singleton_self 1)
  unfold Before at hbefore
  omega

end DelayRun

end UniProton
