import UniProton.Ipc.Delivery
import UniProton.Ipc.RwOrder

namespace UniProton

open Framework Function List Sched

namespace Sched

variable {s s' s1 : Sched} {t l l' : Nat} {write write' : Bool} {tick : Prop}

def rwWaitTouch (X : Nat → Prop) (tick : Prop) : Touch :=
  ⟨X,fun _ => True,True,True,True,False,fun _ => True,tick⟩

structure RwStays (tick : Prop) (t : Nat) (s s' : Sched) : Prop where
  rwOf : (s'.cont t).rwOf=(s.cont t).rwOf
  pend : (s.cont t).rwOf≠none → (s.status t).rwPend=true → (s'.status t).rwPend=true ∨ tick

lemma RwStays.of_eq (ht : s'.tcb=s.tcb) (hc : s'.cont=s.cont) : RwStays tick t s s' := by
  refine ⟨by rw [hc],fun _ hp => .inl ?_⟩
  rw [status,ht]
  exact hp

lemma RwStays.trans (h : RwStays tick t s s1) (h' : RwStays tick t s1 s') :
    RwStays tick t s s' := by
  refine ⟨h'.rwOf.trans h.rwOf,fun hn hp => ?_⟩
  rcases h.pend hn hp with hp | hk
  . exact h'.pend (by rwa [h.rwOf]) hp
  exact .inr hk

lemma rwStays_quiet {X : Nat → Prop} (hx : ¬X t) :
    Quiet (rwWaitTouch X tick) (RwStays tick t) where
  refl s := .of_eq rfl rfl
  trans := .trans
  frame ht hc _ := .of_eq ht hc
  modTcb s u f hf := by
    by_cases e : t=u
    . subst e
      have hr := (hf.rw.resolve_left hx).resolve_left id
      refine ⟨rfl,fun hn hp => ?_⟩
      simp only [status,modTcb,update_self]
      rcases hr.ended hn hp with hb | ⟨hk,-⟩
      . exact .inl hb
      exact .inr hk
    refine ⟨rfl,fun _ hp => .inl ?_⟩
    simp only [status,modTcb,update_of_ne e]
    exact hp
  setCont s u k hk := by
    by_cases e : t=u
    . subst e
      obtain ⟨h1,h2⟩ := (hk.rw.resolve_left hx).resolve_left id
      refine ⟨?_,fun hn => absurd h1 hn⟩
      rw [setCont_self,h1,h2]
    refine ⟨?_,fun _ hp => .inl hp⟩
    simp only [setCont,update_of_ne e]
  pendInsert s u h i _ := .of_eq rfl rfl
  pendDelete s u := .of_eq rfl rfl

lemma osRwLockTaskWake_list_ne (h : t∈s.pend.lists (.rw l write)) (hne : ¬(l'=l ∧ write'=write)) :
    (s.osRwLockTaskWake t).pend.lists (.rw l' write')=s.pend.lists (.rw l' write') := by
  rw [osRwLockTaskWake_list]
  apply erase_of_not_mem
  intro hm
  rw [Links.mem_iff] at h hm
  rw [h] at hm
  cases hm
  exact hne ⟨rfl,rfl⟩

lemma osRwLockTaskWake_priority (s : Sched) (t u : Nat) :
    ((s.osRwLockTaskWake t).tcb u).priority=(s.tcb u).priority :=
  congrArg Prod.fst (congrFun (same_prios_quiet.respects.step_osRwLockTaskWake trivial rfl
    nofun ⟨.inr (.inl trivial),.inr (.inl trivial)⟩) u)

lemma Sorted.wake {list : List Nat} (h : s.Sorted list) : (s.osRwLockTaskWake t).Sorted list := by
  apply h.imp
  intro u v huv
  rwa [osRwLockTaskWake_priority,osRwLockTaskWake_priority]

lemma osRwLockWakeReaders_list_ne (bound : Option Nat) (n : Nat) (s : Sched) (count : Int)
    (hne : ¬(l'=l ∧ write'=false)) :
    (osRwLockWakeReaders l bound n s count).1.pend.lists (.rw l' write') =
      s.pend.lists (.rw l' write') := by
  induction n generalizing s count with
  | zero => rfl
  | succ n ih =>
    unfold osRwLockWakeReaders
    split
    . rfl
    next t ts ht =>
    split
    . rfl
    split
    . rfl
    have hmem : t∈s.pend.lists (.rw l false) := by
      rw [ht]
      exact mem_cons_self
    rw [ih,osRwLockTaskWake_list_ne hmem hne]

/-- By induction on the rounds: the list stays sorted, so the first reader speaks for those behind
it. -/
lemma osRwLockWakeReaders_rest (bound : Option Nat) (n : Nat) (s : Sched) (count : Int)
    (hn : (s.pend.lists (.rw l false)).length≤n) (hs : s.Sorted (s.pend.lists (.rw l false)))
    (hfull : (osRwLockWakeReaders l bound n s count).2.2=false) :
    ∀ r∈(osRwLockWakeReaders l bound n s count).1.pend.lists (.rw l false),
      ∃ p, bound=some p ∧ p≤(s.tcb r).priority := by
  induction n generalizing s count with
  | zero =>
    intro r hr
    change r∈s.pend.lists (.rw l false) at hr
    rw [eq_nil_of_length_eq_zero (Nat.le_zero.mp hn)] at hr
    cases hr
  | succ n ih =>
    unfold osRwLockWakeReaders at hfull ⊢
    cases ht : s.pend.lists (.rw l false) with
    | nil =>
      intro r hr
      simp only [ht] at hr
      cases hr
    | cons t ts =>
      simp only [ht] at hfull ⊢
      split at hfull
      . next hb =>
        rw [if_pos hb]
        intro r hr
        rw [Option.any_eq_true] at hb
        obtain ⟨p,hp,hle⟩ := hb
        refine ⟨p,hp,(of_decide_eq_true hle).trans ?_⟩
        exact head_le hs (by rw [ht]; rfl) hr
      next hb =>
      split at hfull
      . cases hfull
      next hc =>
      rw [if_neg hb,if_neg hc]
      have hlist : (s.osRwLockTaskWake t).pend.lists (.rw l false)=ts := by
        rw [osRwLockTaskWake_list,ht,erase_cons_head]
      intro r hr
      have hrest := ih (s.osRwLockTaskWake t) (count+1) ?_ ?_ hfull r hr
      . rwa [osRwLockTaskWake_priority] at hrest
      . rw [hlist]
        rw [ht,length_cons] at hn
        exact Nat.le_of_succ_le_succ hn
      rw [hlist]
      rw [ht] at hs
      exact Sorted.wake (pairwise_cons.mp hs).2

end Sched

namespace Kernel

variable {k : Kernel} {l : Nat}

lemma osRwLockPostRead_rest {c u : Prop} (hab : Able c u k.sched) {r : Nat}
    {rs : List Nat} (hr : k.rwList l false=r::rs) (ho : (k.rwlocks l).rwOwner=none)
    (hs : k.sched.Sorted (k.rwList l false)) (bound : Option Nat) :
    (∀ r'∈(k.osRwLockPostRead l bound r rs.length).1.rwList l false,
      ∃ p, bound=some p ∧ p≤k.priority r') ∧ ∀ l' write, ¬(l'=l ∧ write=false) →
      (k.osRwLockPostRead l bound r rs.length).1.rwList l' write=k.rwList l' write := by
  have hok := (osRwLockPostRead_released hab hr ho bound).ok
  have hmem : r∈k.sched.pend.lists (.rw l false) := by
    change r∈k.rwList l false
    rw [hr]
    exact mem_cons_self
  have hlist : (k.sched.osRwLockTaskWake r).pend.lists (.rw l false)=rs := by
    rw [osRwLockTaskWake_list]
    change (k.rwList l false).erase r=rs
    rw [hr,erase_cons_head]
  have hsorted : (k.sched.osRwLockTaskWake r).Sorted
      ((k.sched.osRwLockTaskWake r).pend.lists (.rw l false)) := by
    rw [hlist]
    rw [hr] at hs
    exact Sorted.wake (pairwise_cons.mp hs).2
  have hsched : (k.osRwLockPostRead l bound r rs.length).1.sched =
      (osRwLockWakeReaders l bound rs.length (k.sched.osRwLockTaskWake r) 1).1 := by
    simp only [osRwLockPostRead]
    split <;> rfl
  have hfull : (osRwLockWakeReaders l bound rs.length
      (k.sched.osRwLockTaskWake r) 1).2.2=false := by
    by_contra hn
    simp only [osRwLockPostRead,if_pos ((Bool.not_eq_false _).mp hn)] at hok
    cases hok
  unfold rwList
  rw [hsched]
  refine ⟨fun r' hr' => ?_,fun l' write hne => ?_⟩
  . obtain ⟨p,hp,hle⟩ := osRwLockWakeReaders_rest bound rs.length _ 1
      (by rw [hlist]) hsorted hfull r' hr'
    rw [osRwLockTaskWake_priority] at hle
    exact ⟨p,hp,hle⟩
  rw [osRwLockWakeReaders_list_ne _ _ _ _ hne,osRwLockTaskWake_list_ne hmem hne]

lemma osRwLockPost_rest {c u : Prop} (hab : Able c u k.sched)
    (hs : k.sched.Sorted (k.rwList l false)) : (∀ r∈(k.osRwLockPost l).1.rwList l false,
      ((k.osRwLockPost l).1.rwlocks l).rwCount<0 ∨
        ∃ w∈(k.osRwLockPost l).1.rwList l true, k.priority w≤k.priority r) ∧
    ∀ l'≠l, ∀ write, (k.osRwLockPost l).1.rwList l' write=k.rwList l' write := by
  have howner : ((k.modRw l fun _ => {}).rwlocks l).rwOwner=none := by simp [modRw]
  rcases k.osRwLockPost_cases l with ⟨hfree,he⟩ | ⟨w,ws,hw,-,he⟩ | ⟨r,rs,bound,hr,hnone,hsome,he⟩
  . rw [he]
    refine ⟨fun r hr => ?_,fun _ _ _ => rfl⟩
    change r∈k.rwList l false at hr
    rw [hfree false] at hr
    cases hr
  . have hmem : w∈k.rwList l true := by
      rw [hw]
      exact mem_cons_self
    rw [he]
    refine ⟨fun r _ => .inl ?_,fun l' hl write => ?_⟩
    . simp [modRw,onSched]
    exact osRwLockTaskWake_list_ne hmem fun hx => hl hx.1
  obtain ⟨hrest,hsame⟩ := osRwLockPostRead_rest (k:=k.modRw l fun _ => {}) hab hr howner hs
    bound
  rw [he]
  refine ⟨fun r' hr' => .inr ?_,fun l' hl write => hsame l' write fun hx => hl hx.1⟩
  obtain ⟨p,hp,hle⟩ := hrest r' hr'
  cases hwrite : k.rwList l true with
  | nil =>
    rw [hnone hwrite] at hp
    cases hp
  | cons w ws =>
    obtain rfl : k.priority w=p := Option.some.inj ((hsome w ws hwrite).2.symm.trans hp)
    refine ⟨w,?_,hle⟩
    rw [hsame l true (by simp)]
    change w∈k.rwList l true
    rw [hwrite]
    exact mem_cons_self

end Kernel

/-- The waiting tasks that an input may take off their lists, other than by a release. -/
def Input.leaves (k : Kernel) (a : Input) (t : Nat) : Prop :=
  (a=.tickScan ∧ k.sched.Due t) ∨ Kernel.Deletes k.sched a t

namespace Kernel

variable {k : Kernel} {a : Input} {t l n : Nat} {write try_ : Bool}

lemma mem_of_pend (hc : k.sched.Core) (hle : t≤k.sched.cfg.tskMaxNum)
    (hp : (k.sched.status t).rwPend=true) (hk : (k.sched.cont t).rwOf=some (l,write)) :
    t∈k.rwList l write := by
  obtain ⟨m,hf,-⟩ := hc.tasks t hle
  obtain ⟨l',write',rfl⟩ := hf.eq_rw hp
  obtain ⟨timed,hcont⟩ := hf.ctx
  have hcont' : k.sched.cont t=.rwPend l' write' timed := hcont
  rw [hcont'] at hk
  cases hk
  exact (k.sched.pend.mem_iff _ _).mpr hf.loc

lemma rwOf_of_mem (hc : k.sched.Core) (h : t∈k.rwList l write) :
    (k.sched.cont t).rwOf=some (l,write) := by
  obtain ⟨-,-,hrw⟩ := hc.ctx_of_loc ((k.sched.pend.mem_iff _ _).mp h)
  obtain ⟨timed,hk⟩ := hrw l write rfl
  rw [hk]
  rfl

lemma osRwLockRdPend_negative (k : Kernel) (l n : Nat) (try_ : Bool) {l' : Nat}
    (h : (k.rwlocks l').rwCount<0) : ((k.osRwLockRdPend l n try_).1.rwlocks l').rwCount<0 := by
  simp only [osRwLockRdPend,rwPendSchedule]
  repeat' split
  all_goals try exact h
  next hc _ =>
  have hne : l'≠l := by
    rintro rfl
    omega
  simp only [rwHeld,modRw,update_of_ne hne]
  exact h

lemma osRwLockWrPend_negative (k : Kernel) (l n : Nat) (try_ : Bool) {l' : Nat}
    (h : (k.rwlocks l').rwCount<0) : ((k.osRwLockWrPend l n try_).1.rwlocks l').rwCount<0 := by
  simp only [osRwLockWrPend,rwPendSchedule]
  repeat' split
  all_goals try exact h
  next hc =>
  have hne : l'≠l := by
    rintro rfl
    omega
  simp only [rwHeld,modRw,update_of_ne hne]
  exact h

lemma osRwLockUnlock_negative (k : Kernel) (l : Nat) :
    ((k.osRwLockUnlock l).1.sched=k.sched ∧ ∀ l', (k.rwlocks l').rwCount<0 →
      ((k.osRwLockUnlock l).1.rwlocks l').rwCount<0) ∨ k.osRwLockUnlock l=k.osRwLockPost l := by
  have hmod (d : Int) (hd : (k.rwlocks l).rwCount<0 → (k.rwlocks l).rwCount+d<0) (l' : Nat)
      (h : (k.rwlocks l').rwCount<0) :
      ((k.modRw l fun r => {r with rwCount:=r.rwCount+d}).rwlocks l').rwCount<0 := by
    by_cases e : l'=l
    . subst e
      simp only [modRw,update_self]
      exact hd h
    simp only [modRw,update_of_ne e]
    exact h
  simp only [osRwLockUnlock]
  split
  . exact .inl ⟨rfl,fun _ => id⟩
  split
  . exact .inl ⟨rfl,fun _ => id⟩
  split
  . exact .inl ⟨rfl,hmod (-1) fun h => by omega⟩
  split
  . exact .inl ⟨rfl,hmod 1 fun _ => by omega⟩
  exact .inr rfl

lemma act_negative (ha : ∀ l, a≠.call (.rwUnlock l)) (h : (k.rwlocks l).rwCount<0) :
    ((k.act a).1.rwlocks l).rwCount<0 := by
  by_cases hpart : k.inputPart a=.rw
  . cases a with
    | call call =>
      cases call with
      | rwRead l n try_ => exact k.osRwLockRdPend_negative l n try_ h
      | rwWrite l n try_ => exact k.osRwLockWrPend_negative l n try_ h
      | rwUnlock l => exact absurd rfl (ha l)
      | _ => cases hpart
    | proceed =>
      change (k.proceed.1.rwlocks l).rwCount<0
      rw [(proceed_rw hpart).2]
      exact h
    | _ => cases hpart
  rw [((k.act_only a).rwlocks hpart).1]
  exact h

lemma act_stays (hf : Fine False False False False False k) (hp : a.plain=true)
    (hen : k.enabled a=true) (ha : ∀ l, a≠.call (.rwUnlock l)) (ht : ¬a.leaves k t)
    (hmem : t∈k.rwList l write) : t∈(k.act a).1.rwList l write := by
  have hab := hf.able .none (enabled_alive hen)
  have hkeep := act_keeps hab hf.sem False.elim hen (Input.plain_ok hp k)
  obtain ⟨hle,hin,hpend⟩ := parked_bits hf.core (parked_of_mem hmem)
  have hof := rwOf_of_mem hf.core hmem
  have hcalm (hpart : k.inputPart a≠.rw) : t∈(k.act a).1.rwList l write := by
    have hq := act_quiet (@rwStays_quiet _ (a=.tickScan) (k.Turns a)
      (not_turns hle hin fun he => ht (.inr he))) hab hen (Input.plain_ok hp k) (within_turns
        (fun t ht => ⟨ht,trivial⟩) trivial trivial (fun _ => trivial) (fun _ _ => trivial)
        (fun hr => absurd hr hpart) id)
    refine mem_of_pend hkeep.core (by rw [hkeep.cfg]; exact hle) ?_ (hq.rwOf.trans hof)
    rcases hq.pend (by rw [hof]; nofun) hpend with hb | rfl
    . exact hb
    change (k.sched.tickScan.status t).rwPend=true
    rw [tickScan_bit (·.rwPend) (fun _ _ => rfl) fun hd => ht (.inl ⟨rfl,hd⟩)]
    exact hpend
  have hsame {k' : Kernel} (he : k'.sched.pend=k.sched.pend) : t∈k'.rwList l write := by
    unfold rwList
    rw [he]
    exact hmem
  have hjoin {k' : Kernel} {l' : Nat} {write' : Bool} (hj : Joins k k' l' write') :
      t∈k'.rwList l write := by
    rw [hj.list]
    split
    . next he =>
      rw [mem_insertAt,← he.1,← he.2]
      exact .inr hmem
    exact hmem
  cases a with
  | call call =>
    cases call with
    | rwRead l' n try_ =>
      rcases act_rwRead_cases hf hen with he | ⟨-,hj⟩
      . exact hsame (congrArg pend he)
      exact hjoin hj
    | rwWrite l' n try_ =>
      rcases act_rwWrite_cases hf hen with he | ⟨-,hj⟩
      . exact hsame (congrArg pend he)
      exact hjoin hj
    | rwUnlock l' => exact absurd rfl (ha l')
    | _ => exact hcalm nofun
  | proceed =>
    by_cases hpart : k.inputPart .proceed=.rw
    . exact hsame (proceed_rw hpart).1
    exact hcalm hpart
  | _ => exact hcalm nofun

/-- The lists are sorted, and no reader waits without cause. -/
structure Caused (k : Kernel) : Prop where
  sorted : ∀ l write, k.sched.Sorted (k.rwList l write)
  cause : ∀ l, ∀ r∈k.rwList l false, (k.rwlocks l).rwCount<0 ∨
    ∃ w∈k.rwList l true, k.priority w≤k.priority r

end Kernel

/-- No waiting task changes its priority, and a writer that leaves by a timeout or its deletion
leaves each reader behind it another cause to wait. -/
def Input.keepsCause (k : Kernel) (a : Input) : Prop :=
  a.sparesWaiters k ∧ ∀ l, ∀ w∈k.rwList l true, a.leaves k w →
    (k.rwlocks l).rwCount<0 ∨ ∀ r∈k.rwList l false, k.priority w≤k.priority r →
      ∃ w'∈k.rwList l true, k.priority w'≤k.priority r ∧ ¬a.leaves k w'

namespace Kernel

variable {k : Kernel} {a : Input} {t l n : Nat} {write try_ : Bool}

lemma Caused.sorted_act (h : k.Caused) (hf : Fine False False False False False k)
    (hp : a.plain=true) (ha : a.sparesWaiters k) (hen : k.enabled a=true) (l : Nat)
    (write : Bool) : (k.act a).1.sched.Sorted ((k.act a).1.rwList l write) := by
  have hold (hprio : ∀ t, k.rwParked t=true → (k.act a).1.priority t=k.priority t) :
      (k.act a).1.sched.Sorted (k.rwList l write) := by
    apply (h.sorted l write).imp_of_mem
    intro u v hu hv huv
    change (k.act a).1.priority u≤(k.act a).1.priority v
    rw [hprio u (parked_of_mem hu),hprio v (parked_of_mem hv)]
    exact huv
  have hjoin {l' : Nat} {write' : Bool} (hj : Joins k (k.act a).1 l' write') :
      (k.act a).1.sched.Sorted ((k.act a).1.rwList l write) := by
    rw [hj.list]
    split
    . next he =>
      have hplace := (osRwLockPendFindPos_place k.sched.cpu.runningTask (h.sorted l' write')).1
      rw [← he.1,← he.2]
      rw [← he.1,← he.2] at hplace
      apply pairwise_insertAt_of (hold fun t _ => hj.prio t)
      . intro u hu
        change (k.act a).1.priority u≤(k.act a).1.priority _
        rw [hj.prio,hj.prio]
        exact hplace.front u hu
      intro u hu
      change (k.act a).1.priority _≤(k.act a).1.priority u
      rw [hj.prio,hj.prio]
      exact hplace.behind u hu
    exact hold fun t _ => hj.prio t
  rcases act_rw_cases hf hp hen with hsub | ⟨l',n,try_,-,-,hj⟩ | ⟨l',n,try_,-,-,hj⟩
  . exact (hold fun t ht => act_priority hf hp hen ha ht).sublist (hsub l write)
  . exact hjoin hj
  exact hjoin hj

lemma cause_of_rdWaits (h : k.rdWaits l=true) : (k.rwlocks l).rwCount<0 ∨
    ∃ w∈k.rwList l true, k.priority w≤k.priority k.sched.cpu.runningTask := by
  by_cases hc : (k.rwlocks l).rwCount<0
  . exact .inl hc
  apply Or.inr
  have hc' : 0≤(k.rwlocks l).rwCount := Int.not_lt.mp hc
  simp only [rdWaits,hc',decide_true,Bool.true_and,Bool.not_eq_true',osRwlockPriCompare] at h
  split at h
  . cases h
  next w ws hw =>
  refine ⟨w,?_,Nat.not_lt.mp (of_decide_eq_false h)⟩
  unfold rwList
  rw [hw]
  exact mem_cons_self

lemma Caused.unlock (h : k.Caused) (hf : Fine False False False False False k)
    (hen : k.enabled (.call (.rwUnlock l))=true) :
    ∀ l', ∀ r∈(k.act (.call (.rwUnlock l))).1.rwList l' false,
      ((k.act (.call (.rwUnlock l))).1.rwlocks l').rwCount<0 ∨
        ∃ w∈(k.act (.call (.rwUnlock l))).1.rwList l' true, k.priority w≤k.priority r := by
  have hlist (l' : Nat) (write : Bool) : (k.act (.call (.rwUnlock l))).1.rwList l' write =
      (k.osRwLockUnlock l).1.rwList l' write := by
    unfold rwList
    rw [← (k.rwUnlock_same l).1]
    rfl
  have hlock : (k.act (.call (.rwUnlock l))).1.rwlocks=(k.osRwLockUnlock l).1.rwlocks :=
    (k.rwUnlock_same l).2
  intro l' r hr
  rw [hlist] at hr ⊢
  rw [hlock]
  rcases k.osRwLockUnlock_negative l with ⟨hs,hneg⟩ | he
  . have hsame (write : Bool) : (k.osRwLockUnlock l).1.rwList l' write=k.rwList l' write := by
      unfold rwList
      rw [hs]
    rw [hsame] at hr ⊢
    exact (h.cause l' r hr).imp_left (hneg l')
  rw [he] at hr ⊢
  obtain ⟨hrest,hother⟩ := osRwLockPost_rest (hf.able .none (enabled_alive hen)) (h.sorted l false)
  by_cases e : l'=l
  . subst e
    exact hrest r hr
  rw [hother l' e] at hr ⊢
  have hsame := (osRwLockPost_released (hf.able .none (enabled_alive hen)) l).rest l' e
  rw [hsame]
  exact h.cause l' r hr

lemma Caused.act (h : k.Caused) (hf : Fine False False False False False k)
    (hp : a.plain=true) (ha : a.keepsCause k) (hen : k.enabled a=true) : (k.act a).1.Caused := by
  refine ⟨h.sorted_act hf hp ha.1 hen,fun l r hr => ?_⟩
  have hprio {t : Nat} (ht : k.rwParked t=true) : (k.act a).1.priority t=k.priority t :=
    act_priority hf hp hen ha.1 ht
  by_cases hun : ∃ l', a=.call (.rwUnlock l')
  . obtain ⟨l',rfl⟩ := hun
    have hsub (write : Bool) := act_rw_sublist hf hp hen nofun nofun l write
    refine (h.unlock hf hen l r hr).imp_right fun ⟨w,hw,hle⟩ => ⟨w,hw,?_⟩
    rw [hprio (parked_of_mem ((hsub true).subset hw)),hprio (parked_of_mem ((hsub false).subset hr))]
    exact hle
  -- a writer stays with every other input, unless it is one that leaves
  have hun' : ∀ l', a≠.call (.rwUnlock l') := fun l' he => hun ⟨l',he⟩
  have hstay {w : Nat} (hw : w∈k.rwList l true) (hl : ¬a.leaves k w) :
      w∈(k.act a).1.rwList l true := act_stays hf hp hen hun' hl hw
  by_cases hold : r∈k.rwList l false
  . rcases h.cause l r hold with hneg | ⟨w,hw,hle⟩
    . exact .inl (act_negative hun' hneg)
    have hkept {w : Nat} (hw : w∈k.rwList l true) (hle : k.priority w≤k.priority r) :
        (k.act a).1.priority w≤(k.act a).1.priority r := by
      rw [hprio (parked_of_mem hw),hprio (parked_of_mem hold)]
      exact hle
    by_cases hl : a.leaves k w
    . rcases ha.2 l w hw hl with hneg | hrest
      . exact .inl (act_negative hun' hneg)
      obtain ⟨w',hw',hle',hl'⟩ := hrest r hold hle
      exact .inr ⟨w',hstay hw' hl',hkept hw' hle'⟩
    exact .inr ⟨w,hstay hw hl,hkept hw hle⟩
  rcases act_rw_cases hf hp hen with hsub | ⟨l',n,try_,rfl,hwait,hj⟩ | ⟨l',n,try_,rfl,-,hj⟩
  . exact absurd ((hsub l false).subset hr) hold
  . rw [hj.list] at hr
    split at hr
    . next he =>
      obtain ⟨rfl,-⟩ := he
      obtain rfl := ((mem_insertAt _ _ _ _).mp hr).resolve_right hold
      rcases cause_of_rdWaits hwait with hneg | ⟨w,hw,hle⟩
      . exact .inl (act_negative hun' hneg)
      refine .inr ⟨w,hstay hw ?_,?_⟩
      . rintro (⟨he,-⟩ | hd)
        . cases he
        exact hd
      rw [hj.prio,hj.prio]
      exact hle
    exact absurd hr hold
  rw [hj.list,if_neg (by simp)] at hr
  exact absurd hr hold

lemma init_caused (cfg : Cfg) : (init cfg).Caused := by
  refine ⟨fun l write => ?_,fun l r hr => ?_⟩
  . exact .nil
  cases hr

end Kernel

/-- In every run in which the writers leave so, a reader waits only behind a writer that holds the
lock or waits and is as urgent. -/
theorem reader_waits_with_cause {cfg : Cfg} {k : Kernel}
    (h : (kernelMachine cfg).Reaches (fun k a => a.plain=true ∧ a.keepsCause k) k) (l : Nat) :
    ∀ r∈k.rwList l false, (k.rwlocks l).rwCount<0 ∨
      ∃ w∈k.rwList l true, k.priority w≤k.priority r := by
  have hfine (k : Kernel) (hk : (kernelMachine cfg).Reaches
      (fun k a => a.plain=true ∧ a.keepsCause k) k) : Kernel.Fine False False False False False k :=
    fine_of_plain (hk.mono fun _ _ ha => ha.1)
  have hok : k.Caused := by
    refine h.invariant_of hfine ?_ fun k a hf hk ha => ?_
    . rintro k rfl
      exact Kernel.init_caused cfg
    change (k.step a).Caused
    unfold Kernel.step
    split
    . next hen => exact hk.act hf ha.1 ha.2 hen
    exact hk
  exact hok.cause l

lemma keepsCause_of_stay {k : Kernel} {a : Input} (hs : a.sparesWaiters k)
    (h : ∀ t, ¬a.leaves k t) : a.keepsCause k :=
  ⟨hs,fun _ w _ hl => absurd hl (h w)⟩

/-- The writer task 1 waits behind the reader task 0, for `n` ticks at most, and the less urgent
reader task 2 behind it. -/
def behindInputs (n : Nat) : List Input :=
  [.call (.taskCreate (smallTask 9) true false),.call (.taskResume 0),
   .call (.taskCreate (smallTask 3) true false),.call (.taskCreate (smallTask 5) true false),
   .activate true,.call (.rwRead 0 osWaitForever false),.call (.taskResume 1),
   .call (.rwWrite 0 n false),.call (.taskResume 2),.call (.rwRead 0 osWaitForever false)]

def tickInputs : List Input := [.hwiEnter,.tickIsr,.hwiExit,.tickScan]

theorem reader_waits_with_cause_timed :
    let k := (kernelMachine smallCfg).run (Kernel.init smallCfg) (behindInputs 2++tickInputs)
    k.rwList 0 false=[2] ∧ ((k.rwlocks 0).rwCount<0 ∨
      ∃ w∈k.rwList 0 true, k.priority w≤k.priority 2) := by
  have hstay {k : Kernel} {a : Input} (hp : a.plain=true) (hs : a.sparesWaiters k)
      (ht : a≠.tickScan) (hd : ∀ t, ¬Kernel.Deletes k.sched a t) :
      a.plain=true ∧ a.keepsCause k := by
    refine ⟨hp,keepsCause_of_stay hs fun t => ?_⟩
    rintro (⟨he,-⟩ | hl)
    . exact ht he
    exact hd t hl
  have htick {k : Kernel} (hl : k.sched.delayList=[1])
      (hx : (k.sched.cpu.uniTicks+1)%2^64<(k.sched.tcb 1).expirationTick) :
      Input.plain .tickScan=true ∧ Input.keepsCause k .tickScan := by
    refine ⟨rfl,keepsCause_of_stay trivial fun t => ?_⟩
    rintro (⟨-,hm,hle⟩ | hd)
    . rw [hl,mem_singleton] at hm
      subst hm
      exact absurd hle (Nat.not_le.mpr hx)
    exact hd
  have hrun : (kernelMachine smallCfg).Reaches (fun k a => a.plain=true ∧ a.keepsCause k)
      ((kernelMachine smallCfg).run (Kernel.init smallCfg) (behindInputs 2++tickInputs)) := by
    refine Machine.Reaches.run (.start rfl) _ ⟨?_,?_,?_,?_,?_,?_,?_,?_,?_,?_,?_,?_,?_,
      htick (by decide +kernel) (by decide +kernel),trivial⟩
    all_goals exact hstay rfl trivial nofun fun _ => id
  have hlist : ((kernelMachine smallCfg).run (Kernel.init smallCfg)
      (behindInputs 2++tickInputs)).rwList 0 false=[2] := by
    decide +kernel
  refine ⟨hlist,reader_waits_with_cause hrun 0 2 ?_⟩
  exact mem_singleton_self 2

/-- The writer's time is over, or the writer is deleted: the reader waits on, although the lock is
shared and no writer waits. -/
theorem reader_waits_without_cause :
    (let k := (kernelMachine smallCfg).run (Kernel.init smallCfg) (behindInputs 1++tickInputs)
     k.rwList 0 false=[2] ∧ (k.rwlocks 0).rwCount=1 ∧ k.rwList 0 true=[]) ∧
    (let k := (kernelMachine smallCfg).run (Kernel.init smallCfg)
       (behindInputs osWaitForever ++ [.call (.taskDelete 1)])
     k.rwList 0 false=[2] ∧ (k.rwlocks 0).rwCount=1 ∧ k.rwList 0 true=[]) := by
  decide +kernel

end UniProton
