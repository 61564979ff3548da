import UniProton.Smp.Scan

namespace UniProton

open Framework Function List

namespace Smp

namespace Tcb

variable (c : Tcb) {a b : BitVec 32}

lemma tst_or (a b : BitVec 32) : c.tst (a ||| b)=(c.tst a || c.tst b) := by
  simp only [tst,BitVec.and_or_distrib_left,ne_eq]
  by_cases h : c.taskStatus &&& a=0 <;> simp [h]

lemma tst_set (a b : BitVec 32) : (c.set a).tst b=(c.tst b || decide (a &&& b≠0)) := by
  simp only [tst,set,BitVec.and_or_distrib_right,ne_eq]
  by_cases h : c.taskStatus &&& b=0 <;> simp [h]

lemma tst_clear (h : ~~~ a &&& b=b) : (c.clear a).tst b=c.tst b := by
  simp only [tst,clear,BitVec.and_assoc,h]

lemma tst_cleared (h : ~~~ a &&& b=0) : (c.clear a).tst b=false := by
  simp [tst,clear,BitVec.and_assoc,h]

lemma tst_mono {c : Tcb} (hab : a &&& b=a) (h : c.tst a=true) : c.tst b=true := by
  refine decide_eq_true fun hb => of_decide_eq_true h ?_
  rw [← hab,BitVec.and_comm a,← BitVec.and_assoc,hb]
  exact BitVec.zero_and

/-- A task that is in the delay list of a core. -/
structure Asleep (core : Nat) : Prop where
  inuse : c.tst osTskInuse=true
  core : c.timeCoreID=core
  ready : c.tst osTskReady=false
  delayed : c.tst (osTskDelay ||| osTskDelayInterruptible)=true

variable {c} {core : Nat}

lemma Asleep.of_eq {c' : Tcb} (h : c.Asleep core) (hi : c'.tst osTskInuse=c.tst osTskInuse)
    (hc : c'.timeCoreID=c.timeCoreID) (hr : c'.tst osTskReady=c.tst osTskReady)
    (hd : c'.tst (osTskDelay ||| osTskDelayInterruptible) =
      c.tst (osTskDelay ||| osTskDelayInterruptible)) : c'.Asleep core :=
  ⟨hi.trans h.inuse,hc.trans h.core,hr.trans h.ready,hd.trans h.delayed⟩

lemma expire_tst (hc : ~~~ osTskScanClear &&& b=b) (hr : osTskReady &&& b=0) :
    c.expire.tst b=c.tst b := by
  simp only [expire]
  split
  . exact tst_clear c hc
  change ((c.clear osTskScanClear).set osTskReady).tst b=c.tst b
  rw [tst_set,tst_clear c hc]
  simp [hr]

lemma expire_ready (hr : c.tst osTskReady=false) (hi : c.tst osTskCrgIdleSuspend=false)
    (hs : c.tst osTskSuspend=false) :
    c.expire.tst osTskReady=true ↔ c.tst osTskDelayInterruptible=false := by
  have hb : (c.clear osTskScanClear).tst osTskSuspendReadyBlock =
      c.tst osTskDelayInterruptible := by
    rw [tst_clear _ (by decide)]
    simp only [osTskSuspendReadyBlock,tst_or,hr,hi,hs,Bool.false_or,Bool.or_false]
    rfl
  simp only [expire]
  rw [hb]
  split
  . next hd =>
    rw [tst_clear _ (by decide),hr,hd]
    simp
  next hd =>
  have hready : (c.clear osTskScanClear).readyAdd.tst osTskReady=true := by
    change ((c.clear osTskScanClear).set osTskReady).tst osTskReady=true
    rw [tst_set]
    simp [osTskReady]
  simp [hready,hd]

end Tcb

/-- The delay lists are sorted and hold sleeping tasks only, each on its own core. -/
structure Formed (m : Smp) : Prop where
  timed : ∀ core, ∀ t∈m.delayList core, (m.tcb t).Asleep core
  sorted : ∀ core, (m.delayList core).Pairwise fun a b =>
    (m.tcb a).expirationTick≤(m.tcb b).expirationTick
  used : ∀ t, (m.tcb t).taskStatus≠0 → (m.tcb t).tst osTskInuse=true
  idle : ∀ t, (m.tcb t).tst osTskCrgIdleSuspend=false

variable {m : Smp} {core t : Nat}

lemma modTcb_tcb_self (f : Tcb → Tcb) : (m.modTcb t f).tcb t=f (m.tcb t) := by simp [modTcb]

lemma modTcb_tcb_ne {u : Nat} (hu : u≠t) (f : Tcb → Tcb) : (m.modTcb t f).tcb u=m.tcb u := by
  simp [modTcb,hu]

lemma Formed.modTcb (h : m.Formed) (f : Tcb → Tcb)
    (htick : (f (m.tcb t)).expirationTick=(m.tcb t).expirationTick)
    (hasleep : ∀ core, (m.tcb t).Asleep core → t∈m.delayList core → (f (m.tcb t)).Asleep core)
    (hused : (f (m.tcb t)).tst osTskInuse=true)
    (hidle : (f (m.tcb t)).tst osTskCrgIdleSuspend=false) : (m.modTcb t f).Formed := by
  have hexp : ∀ u, ((m.modTcb t f).tcb u).expirationTick=(m.tcb u).expirationTick := by
    intro u
    by_cases hu : u=t
    . rw [hu,modTcb_tcb_self,htick]
    rw [modTcb_tcb_ne hu]
  constructor
  . intro core u hu
    by_cases he : u=t
    . subst he
      rw [modTcb_tcb_self]
      exact hasleep core (h.timed core u hu) hu
    rw [modTcb_tcb_ne he]
    exact h.timed core u hu
  . intro core
    simp only [hexp]
    exact h.sorted core
  . intro u
    by_cases he : u=t
    . rw [he,modTcb_tcb_self]
      exact fun _ => hused
    rw [modTcb_tcb_ne he]
    exact h.used u
  intro u
  by_cases he : u=t
  . rw [he,modTcb_tcb_self]
    exact hidle
  rw [modTcb_tcb_ne he]
  exact h.idle u

lemma Formed.refresh (h : m.Formed) (core : Nat) : (m.osTskDlyNearestTicksRefresh core).Formed :=
  ⟨h.timed,h.sorted,h.used,h.idle⟩

lemma Formed.osTskTimerAdd (h : m.Formed) (hn : m.timer.loc t=none) (timeout : Nat)
    (hs : ({m.tcb t with timeCoreID:=core} : Tcb).Asleep core) :
    (m.osTskTimerAdd core t timeout).Formed := by
  refine Formed.refresh ?_ core
  set tick := (m.uniTicks+timeout)%2^64
  set m1 := m.modTcb t fun c => {c with timeCoreID:=core, expirationTick:=tick} with hm1
  have hne : ∀ core', ∀ u∈m.delayList core', u≠t := by
    rintro core' u hu rfl
    exact Links.not_mem_of_loc_none hn core' hu
  have hout : ∀ core', ∀ u∈m.delayList core', m1.tcb u=m.tcb u :=
    fun core' u hu => modTcb_tcb_ne (hne core' u hu) _
  have hself : m1.tcb t={m.tcb t with timeCoreID:=core, expirationTick:=tick} :=
    modTcb_tcb_self _
  have hl : m1.timer.loc t=none := hn
  have hsorted : ∀ core', (m1.delayList core').Pairwise fun a b =>
      (m1.tcb a).expirationTick≤(m1.tcb b).expirationTick := by
    intro core'
    refine .imp_of_mem (fun {a b} ha hb hab => ?_) (h.sorted core')
    rwa [hout core' a ha,hout core' b hb]
  have hins : ∀ core', (m1.timer.insert t core ((m1.delayList core).findIdx fun u =>
      tick<(m1.tcb u).expirationTick)).lists core' = if core'=core then
        insertAt ((m1.delayList core).findIdx fun u => tick<(m1.tcb u).expirationTick) t
          (m.delayList core) else m.delayList core' := by
    intro core'
    rw [Links.insert_lists _ _ _ hl]
    by_cases hc : core'=core
    . rw [hc,update_self,if_pos rfl]
      rfl
    rw [update_of_ne hc,if_neg hc]
    rfl
  constructor
  . intro core' u hu
    change u∈(m1.timer.insert t core _).lists core' at hu
    rw [hins] at hu
    by_cases hc : core'=core
    . rw [if_pos hc,mem_insertAt] at hu
      rcases hu with rfl | hu
      . rw [hself,hc]
        exact ⟨hs.inuse,rfl,hs.ready,hs.delayed⟩
      rw [hout core u hu,hc]
      exact h.timed core u hu
    rw [if_neg hc] at hu
    rw [hout core' u hu]
    exact h.timed core' u hu
  . intro core'
    change ((m1.timer.insert t core _).lists core').Pairwise fun a b =>
      (m1.tcb a).expirationTick≤(m1.tcb b).expirationTick
    rw [hins]
    split
    . refine pairwise_insertAt t _ (hsorted core) ?_ ?_ ?_
      . intro u hu hp
        rw [hself]
        exact le_of_lt (of_decide_eq_true hp)
      . intro u hu hp
        rw [hself]
        exact not_lt.mp (of_decide_eq_false hp)
      intro a ha b hb hab hp
      exact decide_eq_true (lt_of_lt_of_le (of_decide_eq_true hp) hab)
    exact hsorted core'
  . intro u
    by_cases he : u=t
    . rw [he,hself]
      exact h.used t
    rw [hm1,modTcb_tcb_ne he]
    exact h.used u
  intro u
  by_cases he : u=t
  . rw [he,hself]
    exact h.idle t
  rw [hm1,modTcb_tcb_ne he]
  exact h.idle u

/-- The two bits that a call sets before it queues its task. -/
def Delays (b : BitVec 32) : Prop := b=osTskDelay ∨ b=osTskDelayInterruptible

lemma Tcb.readyDel_set_ready (c : Tcb) {b : BitVec 32} (hb : Delays b) :
    (c.readyDel.set b).tst osTskReady=false := by
  have hc : c.readyDel.tst osTskReady=false := Tcb.tst_cleared c (by decide)
  rw [Tcb.tst_set,hc]
  rcases hb with rfl | rfl <;> decide

lemma Tcb.readyDel_set_tst (c : Tcb) {b x : BitVec 32} (hx : ~~~ osTskReady &&& x=x)
    (hb : b &&& x=0) : (c.readyDel.set b).tst x=c.tst x := by
  have hc : c.readyDel.tst x=c.tst x := Tcb.tst_clear c hx
  rw [Tcb.tst_set,hc]
  simp [hb]

lemma Formed.leave (h : m.Formed) (hn : m.timer.loc t=none)
    (hi : (m.tcb t).tst osTskInuse=true) {b : BitVec 32} (hb : Delays b) :
    (m.modTcb t fun c => c.readyDel.set b).Formed := by
  refine h.modTcb _ rfl (fun core' _ hm => ?_) ?_ ?_
  . exact absurd hm (Links.not_mem_of_loc_none hn core')
  . rw [Tcb.readyDel_set_tst _ (by decide) (by rcases hb with rfl | rfl <;> decide)]
    exact hi
  rw [Tcb.readyDel_set_tst _ (by decide) (by rcases hb with rfl | rfl <;> decide)]
  exact h.idle t

lemma Formed.sleep (h : m.Formed) (core : Nat) (hn : m.timer.loc t=none) (timeout : Nat)
    (hi : (m.tcb t).tst osTskInuse=true) {b : BitVec 32} (hb : Delays b) :
    ((m.modTcb t fun c => c.readyDel.set b).osTskTimerAdd core t timeout).Formed := by
  apply (h.leave hn hi hb).osTskTimerAdd hn timeout
  rw [modTcb_tcb_self]
  refine ⟨?_,rfl,Tcb.readyDel_set_ready _ hb,?_⟩
  . refine Eq.trans ?_ hi
    exact Tcb.readyDel_set_tst _ (by decide) (by rcases hb with rfl | rfl <;> decide)
  change ((m.tcb t).readyDel.set b).tst _=true
  rw [Tcb.tst_set]
  rcases hb with rfl | rfl <;> simp [osTskDelay,osTskDelayInterruptible]

def Tcb.expired (c : Tcb) : Tcb := {c with taskPend:=none}.expire

lemma Formed.listScan_due (h : m.Formed) (ht : t∈m.delayList core)
    (hd : (m.tcb t).expirationTick ≤ m.uniTicks) : ∃ m', m.osTskDlyBaseListScan core t=(m',true) ∧
      m'.tcb=update m.tcb t (m.tcb t).expired ∧ m'.timer=m.timer.delete t ∧
      m'.uniTicks=m.uniTicks := by
  have hs := h.timed core t ht
  have hlink : m.timer.linked t=true := by
    rw [Links.linked,(m.timer.mem_iff core t).mp ht]
    rfl
  have hre : m.dlyRecheck core t (m.tcb t).taskPend=true := by
    simp [dlyRecheck,hs.inuse,hs.core,hd,hlink]
  unfold osTskDlyBaseListScan
  rw [if_neg (not_lt.mpr hd)]
  cases hp : (m.tcb t).taskPend with
  | none =>
    rw [hp] at hre
    simp only [osTskDlyScanNoPendLock,hre,if_true]
    refine ⟨_,rfl,?_,rfl,rfl⟩
    have hc : ({m.tcb t with taskPend:=none} : Tcb)=m.tcb t := by rw [← hp]
    simp [Smp.modTcb,Tcb.expired,hc]
  | some lock =>
    rw [hp] at hre
    simp only [osTskDlyScanHasPendLock,hre,if_true]
    refine ⟨_,rfl,?_,rfl,rfl⟩
    simp [Smp.modTcb,Tcb.expired]

lemma Formed.expired (h : m.Formed) {m' : Smp} (ht : t∈m.delayList core)
    (htcb : m'.tcb=update m.tcb t (m.tcb t).expired)
    (htimer : m'.timer=m.timer.delete t) : m'.Formed := by
  have hself : m'.tcb t=(m.tcb t).expired := by rw [htcb,update_self]
  have hother : ∀ u, u≠t → m'.tcb u=m.tcb u := fun u hu => by
    rw [htcb,update_of_ne hu]
  have hlists : ∀ core, m'.delayList core=(m.delayList core).erase t := fun core => by
    rw [delayList,htimer,Links.delete_lists_eq]
    rfl
  have hmem : ∀ core, ∀ u∈m'.delayList core, u≠t ∧ u∈m.delayList core := by
    intro core u hu
    rw [hlists] at hu
    exact (m.timer.nodup core).mem_erase_iff.mp hu
  constructor
  . intro core u hu
    obtain ⟨hne,hu⟩ := hmem core u hu
    rw [hother u hne]
    exact h.timed core u hu
  . intro core
    have hsub : (m'.delayList core).Pairwise fun a b =>
        (m.tcb a).expirationTick≤(m.tcb b).expirationTick := by
      rw [hlists]
      exact (h.sorted core).sublist erase_sublist
    refine .imp_of_mem (fun {a b} ha hb hab => ?_) hsub
    rwa [hother a (hmem core a ha).1,hother b (hmem core b hb).1]
  . intro u
    by_cases hu : u=t
    . intro _
      rw [hu,hself]
      exact (Tcb.expire_tst (by decide) (by decide)).trans (h.timed core t ht).inuse
    rw [hother u hu]
    exact h.used u
  intro u
  by_cases hu : u=t
  . rw [hu,hself]
    exact (Tcb.expire_tst (by decide) (by decide)).trans (h.idle t)
  rw [hother u hu]
  exact h.idle u

lemma Formed.scanLoop (n : Nat) (h : m.Formed) (hn : (m.delayList core).length≤n) :
    (osTskDlyBaseScanLoop core n m).Formed ∧ ∀ t, (osTskDlyBaseScanLoop core n m).tcb t =
      if t∈m.delayList core ∧ (m.tcb t).expirationTick ≤ m.uniTicks then (m.tcb t).expired
      else m.tcb t := by
  induction n generalizing m with
  | zero =>
    have hnil : m.delayList core=[] := length_eq_zero_iff.mp (Nat.le_zero.mp hn)
    refine ⟨h.refresh core,fun t => ?_⟩
    simp only [hnil,not_mem_nil,false_and,if_false]
    rfl
  | succ n ih =>
    unfold osTskDlyBaseScanLoop
    cases hl : m.delayList core with
    | nil =>
      refine ⟨h.refresh core,fun t => ?_⟩
      rfl
    | cons u us =>
      have hu : u∈m.delayList core := by
        rw [hl]
        exact mem_cons_self
      have hsort := h.sorted core
      rw [hl,pairwise_cons] at hsort
      dsimp only
      by_cases hd : (m.tcb u).expirationTick ≤ m.uniTicks
      . obtain ⟨m',he,htcb,htimer,htick⟩ := h.listScan_due hu hd
        rw [he]
        have hlist : m'.delayList core=us := by
          rw [delayList,htimer,Links.delete_lists_eq]
          change (m.delayList core).erase u=us
          rw [hl,erase_cons_head]
        have hlen : (m'.delayList core).length≤n := by
          rw [hlist]
          rw [hl] at hn
          simpa using hn
        have hnd : u∉us := by
          have := m.timer.nodup core
          rw [show m.timer.lists core=u::us from hl,nodup_cons] at this
          exact this.1
        obtain ⟨hf,ht⟩ := ih (h.expired hu htcb htimer) hlen
        refine ⟨hf,fun t => ?_⟩
        rw [ht,hlist,htick,htcb]
        by_cases he' : t=u
        . subst he'
          simp [hnd,hd]
        simp [he']
      have hstop : m.osTskDlyBaseListScan core u=(m.osTskDlyNearestTicksRefresh core,false) := by
        unfold osTskDlyBaseListScan
        rw [if_pos (not_le.mp hd)]
      rw [hstop]
      refine ⟨h.refresh core,fun t => ?_⟩
      rw [if_neg]
      . rfl
      rintro ⟨ht,hle⟩
      rcases mem_cons.mp ht with rfl | ht
      . exact hd hle
      exact hd (le_trans (hsort.1 t ht) hle)

lemma Formed.osTaskScan (h : m.Formed) (core : Nat) : (m.osTaskScan core).Formed ∧
    ∀ t, (m.osTaskScan core).tcb t =
      if t∈m.delayList core ∧ (m.tcb t).expirationTick ≤ m.uniTicks then (m.tcb t).expired
      else m.tcb t :=
  h.scanLoop _ le_rfl

lemma Formed.running (h : m.Formed) (hr : (m.tcb t).tst osTskReady=true) : m.timer.loc t=none := by
  cases hl : m.timer.loc t with
  | none => rfl
  | some core =>
    have hs := (h.timed core t ((m.timer.mem_iff core t).mpr hl)).ready
    rw [hr] at hs
    cases hs

lemma Formed.inuse_of_ready (h : m.Formed) (hr : (m.tcb t).tst osTskReady=true) :
    (m.tcb t).tst osTskInuse=true := by
  refine h.used t fun h0 => ?_
  simp [Tcb.tst,h0] at hr

lemma Formed.modOther (h : m.Formed) (f : Tcb → Tcb) (hi : (m.tcb t).tst osTskInuse=true)
    (hst : (f (m.tcb t)).taskStatus=(m.tcb t).taskStatus)
    (htick : (f (m.tcb t)).expirationTick=(m.tcb t).expirationTick)
    (hcore : (f (m.tcb t)).timeCoreID=(m.tcb t).timeCoreID) : (m.modTcb t f).Formed := by
  have htst : ∀ b, (f (m.tcb t)).tst b=(m.tcb t).tst b := fun b => by rw [Tcb.tst,hst,Tcb.tst]
  refine h.modTcb f htick (fun core hs _ => hs.of_eq (htst _) hcore (htst _) (htst _)) ?_ ?_
  . rw [htst]
    exact hi
  rw [htst]
  exact h.idle t

lemma Formed.prtTaskDelay (h : m.Formed) (tick : Nat)
    (hr : (m.tcb (m.tskCurr core)).tst osTskReady=true) : (m.prtTaskDelay core tick).Formed := by
  unfold Smp.prtTaskDelay
  split
  . exact h
  exact h.sleep core (h.running hr) tick (h.inuse_of_ready hr) (.inl rfl)

lemma Tcb.set_timeout_tst (c : Tcb) {b : BitVec 32} (hb : osTskTimeout &&& b=0) :
    (c.set osTskTimeout).tst b=c.tst b := by
  rw [Tcb.tst_set]
  simp [hb]

lemma Formed.scheduleTimeout (h : m.Formed) (timeout : Int)
    (hr : (m.tcb (m.tskCurr core)).tst osTskReady=true) :
    (m.scheduleTimeout core timeout).Formed := by
  simp only [Smp.scheduleTimeout]
  split
  . exact h.modOther _ (h.inuse_of_ready hr) rfl rfl rfl
  split
  . exact h.prtTaskDelay 0 hr
  split
  . exact h.leave (h.running hr) (h.inuse_of_ready hr) (.inr rfl)
  have h1 := h.sleep core (h.running hr) timeout.toNat (h.inuse_of_ready hr) (.inr rfl)
  have hm : m.tskCurr core∈((m.modTcb (m.tskCurr core) fun c =>
      c.readyDel.set osTskDelayInterruptible).osTskTimerAdd core (m.tskCurr core)
        timeout.toNat).delayList core := by
    apply (Links.mem_iff _ _ _).mpr
    change (m.timer.insert _ core _).loc _=some core
    rw [Links.insert_loc _ _ _ (h.running hr),update_self]
  refine h1.modTcb _ rfl (fun core' hs _ => ?_) ?_ ?_
  . exact hs.of_eq (Tcb.set_timeout_tst _ (by decide)) rfl (Tcb.set_timeout_tst _ (by decide))
      (Tcb.set_timeout_tst _ (by decide))
  . rw [Tcb.set_timeout_tst _ (by decide)]
    exact (h1.timed core _ hm).inuse
  rw [Tcb.set_timeout_tst _ (by decide)]
  exact h1.idle _

lemma Tcb.suspend_tst (c : Tcb) (x : Bool) {b : BitVec 32} (hb : osTskSuspend &&& b=0)
    (hr : ~~~ osTskReady &&& b=b) : (c.suspend x).tst b=c.tst b := by
  have hs : (c.set osTskSuspend).tst b=c.tst b := by
    rw [Tcb.tst_set]
    simp [hb]
  simp only [Tcb.suspend]
  split
  . exact (Tcb.tst_clear _ hr).trans hs
  exact hs

lemma Tcb.suspend_ready (c : Tcb) (x : Bool) : (c.suspend x).tst osTskReady=false := by
  simp only [Tcb.suspend]
  split
  . exact Tcb.tst_cleared _ (by decide)
  next h =>
  simp only [Bool.or_eq_true,not_or] at h
  exact Bool.eq_false_iff.mpr h.2

lemma Tcb.suspend_fields (c : Tcb) (x : Bool) :
    (c.suspend x).expirationTick=c.expirationTick ∧ (c.suspend x).timeCoreID=c.timeCoreID := by
  simp only [Tcb.suspend]
  split <;> exact ⟨rfl,rfl⟩

lemma Formed.prtTaskSuspend (h : m.Formed) (core t : Nat) : (m.prtTaskSuspend core t).Formed := by
  unfold Smp.prtTaskSuspend
  split
  . exact h
  next hc =>
  push Not at hc
  refine h.modTcb _ (Tcb.suspend_fields _ _).1 (fun core' hs _ => ?_) ?_ ?_
  . refine hs.of_eq (Tcb.suspend_tst _ _ (by decide) (by decide)) (Tcb.suspend_fields _ _).2 ?_
      (Tcb.suspend_tst _ _ (by decide) (by decide))
    rw [Tcb.suspend_ready,hs.ready]
  . rw [Tcb.suspend_tst _ _ (by decide) (by decide)]
    exact h.used t hc.2.1
  rw [Tcb.suspend_tst _ _ (by decide) (by decide)]
  exact h.idle t

lemma Tcb.resume_tst (c : Tcb) {b : BitVec 32} (hb : ~~~ osTskSuspend &&& b=b)
    (hr : osTskReady &&& b=0) : c.resume.tst b=c.tst b := by
  simp only [Tcb.resume]
  split
  . exact Tcb.tst_clear _ hb
  change ((c.clear osTskSuspend).set osTskReady).tst b=c.tst b
  rw [Tcb.tst_set,Tcb.tst_clear _ hb]
  simp [hr]

lemma Tcb.resume_fields (c : Tcb) :
    c.resume.expirationTick=c.expirationTick ∧ c.resume.timeCoreID=c.timeCoreID := by
  simp only [Tcb.resume]
  split <;> exact ⟨rfl,rfl⟩

lemma Tcb.Asleep.resume_ready {c : Tcb} (hs : c.Asleep core) :
    c.resume.tst osTskReady=false := by
  have hd : (c.clear osTskSuspend).tst osTskBlock=true :=
    Tcb.tst_mono (by decide) ((Tcb.tst_clear _ (by decide)).trans hs.delayed)
  unfold Tcb.resume
  rw [if_pos hd,Tcb.tst_clear _ (by decide),hs.ready]

lemma Formed.prtTaskResume (h : m.Formed) (t : Nat) : (m.prtTaskResume t).Formed := by
  unfold Smp.prtTaskResume
  split
  . exact h
  next hc =>
  push Not at hc
  refine h.modTcb _ (Tcb.resume_fields _).1 (fun core' hs _ => ?_) ?_ ?_
  . refine hs.of_eq (Tcb.resume_tst _ (by decide) (by decide)) (Tcb.resume_fields _).2 ?_
      (Tcb.resume_tst _ (by decide) (by decide))
    rw [hs.resume_ready,hs.ready]
  . rw [Tcb.resume_tst _ (by decide) (by decide)]
    exact h.used t hc.2.1
  rw [Tcb.resume_tst _ (by decide) (by decide)]
  exact h.idle t

lemma Formed.setCurrentState (h : m.Formed) (x : KthreadState)
    (hr : (m.tcb (m.tskCurr core)).tst osTskReady=true) : (m.setCurrentState core x).Formed :=
  h.modOther _ (h.inuse_of_ready hr) rfl rfl rfl

lemma Formed.step (h : m.Formed) (i : SmpInput) : (m.step i).Formed := by
  unfold Smp.step
  split
  . next hen =>
    cases i with
    | taskDelay core tick => exact h.prtTaskDelay tick hen
    | scheduleTimeout core timeout => exact h.scheduleTimeout timeout hen
    | setCurrentState core x => exact h.setCurrentState x hen
    | taskSuspend core t => exact h.prtTaskSuspend core t
    | taskResume core t => exact h.prtTaskResume t
    | switch | tick => exact ⟨h.timed,h.sorted,h.used,h.idle⟩
    | scan core => exact (h.osTaskScan core).1
  exact h

/-- A task in an interruptible sleep. -/
structure Tcb.Interruptible (c : Tcb) : Prop where
  bit : c.tst osTskDelayInterruptible=true
  ready : c.tst osTskReady=false

namespace Tcb.Interruptible

variable {c : Tcb}

lemma suspend (h : c.Interruptible) (x : Bool) : (c.suspend x).Interruptible :=
  ⟨(Tcb.suspend_tst c x (by decide) (by decide)).trans h.bit,Tcb.suspend_ready c x⟩

-- `OS_TSK_BLOCK` and `OS_TSK_SUSPEND_READY_BLOCK` both have the bit, as that of a deletion.
lemma resume (h : c.Interruptible) : c.resume.Interruptible := by
  have hbit : (c.clear osTskSuspend).tst osTskDelayInterruptible=true :=
    (Tcb.tst_clear c (by decide)).trans h.bit
  unfold Tcb.resume
  rw [if_pos (Tcb.tst_mono (by decide) hbit)]
  exact ⟨hbit,(Tcb.tst_clear c (by decide)).trans h.ready⟩

lemma expired (h : c.Interruptible) : c.expired.Interruptible := by
  set d : Tcb := {c with taskPend:=none}
  have hbit : (d.clear osTskScanClear).tst osTskDelayInterruptible=true :=
    (Tcb.tst_clear d (by decide)).trans h.bit
  change d.expire.Interruptible
  simp only [Tcb.expire]
  rw [if_pos (Tcb.tst_mono (by decide) hbit)]
  exact ⟨hbit,(Tcb.tst_clear d (by decide)).trans h.ready⟩

end Tcb.Interruptible

lemma scheduleTimeout_tcb_ne (timeout : Int) (ht : t≠m.tskCurr core) :
    (m.scheduleTimeout core timeout).tcb t=m.tcb t := by
  simp only [Smp.scheduleTimeout,Smp.prtTaskDelay,Smp.osTskTimerAdd]
  repeat' split
  all_goals simp [Smp.modTcb,osTskDlyNearestTicksRefresh,ht]

lemma Formed.interruptible_step (h : m.Formed) (hs : (m.tcb t).Interruptible) (i : SmpInput) :
    ((m.step i).tcb t).Interruptible := by
  unfold Smp.step
  split
  swap
  . exact hs
  next hen =>
  -- The calls change the task that runs on the core, which is ready, so another one.
  have hne : ∀ core, (m.tcb (m.tskCurr core)).tst osTskReady=true → t≠m.tskCurr core := by
    rintro core hr rfl
    exact Bool.false_ne_true (hs.ready.symm.trans hr)
  cases i with
  | taskDelay core tick =>
    have ht := hne core hen
    have hk : (m.prtTaskDelay core tick).tcb t=m.tcb t := by
      simp only [Smp.prtTaskDelay,Smp.osTskTimerAdd]
      split <;> simp [Smp.modTcb,osTskDlyNearestTicksRefresh,ht]
    exact hk ▸ hs
  | scheduleTimeout core timeout => exact (scheduleTimeout_tcb_ne timeout (hne core hen)) ▸ hs
  | setCurrentState core x =>
    have hk : (m.setCurrentState core x).tcb t=m.tcb t := modTcb_tcb_ne (hne core hen) _
    exact hk ▸ hs
  | taskSuspend core u =>
    change ((m.prtTaskSuspend core u).tcb t).Interruptible
    unfold Smp.prtTaskSuspend
    split
    . exact hs
    by_cases hu : t=u
    . rw [hu,modTcb_tcb_self,← hu]
      exact hs.suspend _
    rwa [modTcb_tcb_ne hu]
  | taskResume core u =>
    change ((m.prtTaskResume u).tcb t).Interruptible
    unfold Smp.prtTaskResume
    split
    . exact hs
    by_cases hu : t=u
    . rw [hu,modTcb_tcb_self,← hu]
      exact hs.resume
    rwa [modTcb_tcb_ne hu]
  | switch | tick => exact hs
  | scan core =>
    change ((m.osTaskScan core).tcb t).Interruptible
    rw [(h.osTaskScan core).2]
    split
    . exact hs.expired
    exact hs

lemma scheduleTimeout_interruptible {timeout : Int} (hi : m.intActive core=false)
    (hl : m.uniTaskLock core=0) (ht : 0<timeout)
    (hk : (m.tcb (m.tskCurr core)).kthreadTsk≠some .running) :
    ((m.scheduleTimeout core timeout).tcb (m.tskCurr core)).Interruptible := by
  have hbit : ((m.tcb (m.tskCurr core)).readyDel.set osTskDelayInterruptible).Interruptible := by
    refine ⟨?_,Tcb.readyDel_set_ready _ (.inr rfl)⟩
    rw [Tcb.tst_set]
    simp [osTskDelayInterruptible]
  simp only [Smp.scheduleTimeout]
  rw [if_neg (by simp [hi,hl,not_lt.mpr ht.le]),if_neg (by simp [hk,ht.ne'])]
  split
  . rw [modTcb_tcb_self]
    exact hbit
  rw [modTcb_tcb_self]
  set m1 := m.modTcb (m.tskCurr core) fun c => c.readyDel.set osTskDelayInterruptible
  have hself : (m1.osTskTimerAdd core (m.tskCurr core) timeout.toNat).tcb (m.tskCurr core) =
      {m1.tcb (m.tskCurr core) with
        timeCoreID:=core, expirationTick:=(m1.uniTicks+timeout.toNat)%2^64} := by
    simp [Smp.osTskTimerAdd,Smp.modTcb,osTskDlyNearestTicksRefresh]
  rw [hself,modTcb_tcb_self]
  exact ⟨(Tcb.set_timeout_tst _ (by decide)).trans hbit.bit,
    (Tcb.set_timeout_tst _ (by decide)).trans hbit.ready⟩

lemma Formed.interruptible_run (h : m.Formed) (hs : (m.tcb t).Interruptible)
    (xs : List SmpInput) : ((smpMachine.run m xs).tcb t).Interruptible := by
  induction xs generalizing m with
  | nil => exact hs
  | cons i xs ih => exact ih (h.step i) (h.interruptible_step hs i)

lemma formed_of_reaches (h : smpMachine.Reaches (fun _ _ => True) m) : m.Formed := by
  refine h.invariant ?_ fun m i hm _ => hm.step i
  rintro m ⟨ht,hs⟩
  have hnil : ∀ core, m.delayList core=[] := fun core => by
    rw [delayList,ht]
    rfl
  refine ⟨fun core t hm => ?_,fun core => ?_,fun t => (hs t).2,fun t => (hs t).1⟩
  . rw [hnil] at hm
    cases hm
  rw [hnil]
  exact .nil

/-- A sleep of `schedule_timeout` keeps its bit in every run that follows, and no scan and no resume
of any core makes the task ready again. -/
lemma scheduleTimeout_never_ready (h : smpMachine.Reaches (fun _ _ => True) m) {timeout : Int}
    (hr : (m.tcb (m.tskCurr core)).tst osTskReady=true) (hi : m.intActive core=false)
    (hl : m.uniTaskLock core=0) (ht : 0<timeout)
    (hk : (m.tcb (m.tskCurr core)).kthreadTsk≠some .running) (xs : List SmpInput) :
    ((smpMachine.run (m.scheduleTimeout core timeout) xs).tcb (m.tskCurr core)).Interruptible :=
  ((formed_of_reaches h).scheduleTimeout timeout hr).interruptible_run
    (scheduleTimeout_interruptible hi hl ht hk) xs

end Smp

open Smp

/-- The scan readies a due task exactly when it is not in an interruptible sleep, whose bit is that
of `OS_TSK_DELETING`. -/
theorem smp_expiry_ready_iff {m : Smp} (h : smpMachine.Reaches (fun _ _ => True) m) {core t : Nat}
    (ht : t∈m.delayList core) (hdue : (m.tcb t).expirationTick ≤ m.uniTicks)
    (hs : (m.tcb t).tst osTskSuspend=false) : ((m.osTaskScan core).tcb t).tst osTskReady=true ↔
      (m.tcb t).tst osTskDelayInterruptible=false := by
  have hf := formed_of_reaches h
  rw [(hf.osTaskScan core).2,if_pos ⟨ht,hdue⟩]
  exact Tcb.expire_ready (hf.timed core t ht).ready (hf.idle t) hs

def oneThread : Smp where
  tskMaxNum := 4
  tcb t := if t=0 then
    {taskStatus:=osTskInuse ||| osTskReady, isOnRq:=true, kthreadTsk:=some .interruptible}
    else {}
  timer := Links.empty
  pend := Links.empty
  nearestTicks _ := osTicklessForever
  tskCurr _ := 0
  uniTaskLock _ := 0
  intActive _ := false
  uniTicks := 0

lemma oneThread_start : smpMachine.start oneThread := by
  refine ⟨rfl,fun t => ?_⟩
  by_cases ht : t=0
  . subst ht
    decide
  have hc : oneThread.tcb t={} := if_neg ht
  rw [hc]
  decide

theorem smp_expiry_ready_delay :
    let m := smpMachine.run oneThread [.taskDelay 0 2,.tick,.tick]
    m.delayList 0=[0] ∧ ((m.osTaskScan 0).tcb 0).tst osTskReady=true := by
  have hrun : smpMachine.Reaches (fun _ _ => True)
      (smpMachine.run oneThread [.taskDelay 0 2,.tick,.tick]) :=
    Machine.Reaches.run (.start oneThread_start) _ ⟨trivial,trivial,trivial,trivial⟩
  refine ⟨by decide +kernel,?_⟩
  exact (smp_expiry_ready_iff hrun (by decide +kernel) (by decide +kernel)
    (by decide +kernel)).mpr (by decide +kernel)

/-- A thread that sleeps for two ticks is taken off the delay list and never made ready. -/
theorem smp_sleep_never_ends :
    let m := smpMachine.run oneThread [.scheduleTimeout 0 2,.tick,.tick]
    m.delayList 0=[0] ∧ (m.tcb 0).expirationTick=m.uniTicks ∧
      (m.tcb 0).tst osTskSuspend=false ∧ (m.osTaskScan 0).delayList 0=[] ∧
      ((m.osTaskScan 0).tcb 0).tst osTskReady=false := by
  decide +kernel

end UniProton
