import UniProton.Ipc.RwWaiters

namespace UniProton

open Framework List

namespace Sched

variable {s : Sched} {run : Nat}

/-- A place in a sorted list: nobody in front of it is less urgent than the new task, and nobody
behind it is more urgent. -/
structure Place (s : Sched) (run : Nat) (list : List Nat) (pos : Nat) : Prop where
  front : ∀ u∈list.take pos, (s.tcb u).priority≤(s.tcb run).priority
  behind : ∀ u∈list.drop pos, (s.tcb run).priority≤(s.tcb u).priority

def Sorted (s : Sched) (list : List Nat) : Prop :=
  list.Pairwise fun u v => (s.tcb u).priority≤(s.tcb v).priority

variable {list : List Nat}

lemma osRwLockPendFindPosSub_place (run : Nat) (h : s.Sorted list) :
    Place s run list (s.osRwLockPendFindPosSub run list) ∧
      ∀ v∈list.drop (s.osRwLockPendFindPosSub run list), (s.tcb v).priority=(s.tcb run).priority →
          ∃ u∈list.take (s.osRwLockPendFindPosSub run list),
            (s.tcb u).priority=(s.tcb run).priority := by
  induction list with
  | nil => exact ⟨⟨nofun,nofun⟩,nofun⟩
  | cons u us ih =>
    obtain ⟨hu,hus⟩ := pairwise_cons.mp h
    unfold osRwLockPendFindPosSub
    split
    . next hlt =>
      obtain ⟨hp,he⟩ := ih hus
      refine ⟨⟨?_,hp.behind⟩,fun v hv hvr => ?_⟩
      . exact forall_mem_cons.mpr ⟨Nat.le_of_lt hlt,hp.front⟩
      obtain ⟨w,hw,hwr⟩ := he v hv hvr
      exact ⟨w,mem_cons_of_mem u hw,hwr⟩
    split
    . next hlt =>
      have hall : ∀ v∈u::us, (s.tcb run).priority<(s.tcb v).priority :=
        forall_mem_cons.mpr ⟨hlt,fun v hv => Nat.lt_of_lt_of_le hlt (hu v hv)⟩
      refine ⟨⟨nofun,fun v hv => Nat.le_of_lt (hall v hv)⟩,fun v hv hvr => ?_⟩
      exact absurd hvr (Nat.ne_of_gt (hall v hv))
    next hge hle =>
    have heq : (s.tcb u).priority=(s.tcb run).priority :=
      Nat.le_antisymm (Nat.le_of_not_lt hle) (Nat.le_of_not_lt hge)
    refine ⟨⟨?_,fun v hv => ?_⟩,fun v _ _ => ?_⟩
    . exact forall_mem_singleton.mpr (Nat.le_of_eq heq)
    . rw [← heq]
      exact hu v hv
    exact ⟨u,mem_singleton_self u,heq⟩

lemma le_getLast (h : s.Sorted list) {last u : Nat}
    (hl : list.getLast? = some last) (hu : u∈list) : (s.tcb u).priority≤(s.tcb last).priority := by
  obtain ⟨ys,rfl⟩ := List.getLast?_eq_some_iff.mp hl
  rcases mem_append.mp hu with hu | hu
  . exact (pairwise_append.mp h).2.2 u hu last (mem_singleton_self last)
  rw [mem_singleton.mp hu]

lemma head_le (h : s.Sorted list) {first u : Nat}
    (hl : list.head? = some first) (hu : u∈list) : (s.tcb first).priority≤(s.tcb u).priority := by
  obtain ⟨us,rfl⟩ := List.head?_eq_some_iff.mp hl
  rcases mem_cons.mp hu with rfl | hu
  . exact Nat.le_refl _
  exact (pairwise_cons.mp h).1 u hu

/-- The task that joins goes behind every task of its priority. -/
def JoinsLast (s : Sched) (run : Nat) (list : List Nat) : Prop :=
  ∀ last, list.getLast? = some last → (s.tcb last).priority≤(s.tcb run).priority ∨
    list.countP (fun u => (s.tcb u).priority=(s.tcb run).priority)≤1

lemma osRwLockPendFindPos_place (run : Nat) {h : PendHead} (hs : s.Sorted (s.pend.lists h)) :
    Place s run (s.pend.lists h) (s.osRwLockPendFindPos run h) ∧ (s.JoinsLast run (s.pend.lists h) →
        ∀ u∈(s.pend.lists h).drop (s.osRwLockPendFindPos run h),
          (s.tcb run).priority<(s.tcb u).priority) := by
  unfold osRwLockPendFindPos
  generalize s.pend.lists h=list at hs ⊢
  dsimp only
  split
  . next first last hfirst hlast =>
    split
    . next hlt =>
      have hall : ∀ u∈list, (s.tcb run).priority<(s.tcb u).priority :=
        fun u hu => Nat.lt_of_lt_of_le hlt (head_le hs hfirst hu)
      exact ⟨⟨nofun,fun u hu => Nat.le_of_lt (hall u hu)⟩,fun _ => hall⟩
    split
    . next hle =>
      refine ⟨⟨fun u hu => ?_,?_⟩,fun _ => ?_⟩
      . rw [take_length] at hu
        exact Nat.le_trans (le_getLast hs hlast hu) hle
      . rw [drop_length]
        nofun
      rw [drop_length]
      nofun
    next hlast' =>
    obtain ⟨hp,he⟩ := osRwLockPendFindPosSub_place run hs
    refine ⟨hp,fun hj v hv => ?_⟩
    have hcount := (hj last hlast).resolve_left hlast'
    refine Nat.lt_of_le_of_ne (hp.behind v hv) fun hvr => ?_
    -- a second task of this priority stands behind the place
    obtain ⟨u,hu,hur⟩ := he v hv hvr.symm
    rw [← take_append_drop (s.osRwLockPendFindPosSub run list) list,countP_append] at hcount
    have h1 : 0<(list.take (s.osRwLockPendFindPosSub run list)).countP
        fun u => (s.tcb u).priority=(s.tcb run).priority :=
      countP_pos_iff.mpr ⟨u,hu,decide_eq_true hur⟩
    have h2 : 0<(list.drop (s.osRwLockPendFindPosSub run list)).countP
        fun u => (s.tcb u).priority=(s.tcb run).priority :=
      countP_pos_iff.mpr ⟨v,hv,decide_eq_true hvr.symm⟩
    omega
  next hnone =>
  have hnil : list=[] := by
    cases list with
    | nil => rfl
    | cons u us => exact absurd (List.getLast?_eq_some_getLast (List.cons_ne_nil u us)) (hnone u _ rfl)
  rw [hnil]
  exact ⟨⟨nofun,nofun⟩,fun _ => nofun⟩

end Sched

/-- The kernel with the time at which each task began to wait for an rwlock. -/
structure RwWaits where
  kernel : Kernel
  since : Nat → Nat
  clock : Nat

namespace RwWaits

variable {x : RwWaits} {k : Kernel} {a : Input} {t u l : Nat}

def next (x : RwWaits) (k : Kernel) : RwWaits where
  kernel := k
  since t := if x.kernel.rwParked t=false ∧ k.rwParked t=true then x.clock else x.since t
  clock := x.clock+1

def step (x : RwWaits) (a : Input) : RwWaits := x.next (x.kernel.step a)

def machine (cfg : Cfg) : Machine RwWaits Input where
  start x := x.kernel=Kernel.init cfg
  step := step

/-- Task `t` is to have the lock in front of `u`: it is more urgent, or has waited longer. -/
def Ahead (x : RwWaits) (t u : Nat) : Prop :=
  x.kernel.priority t<x.kernel.priority u ∨
    (x.kernel.priority t=x.kernel.priority u ∧ x.since t<x.since u)

instance (x : RwWaits) (t u : Nat) : Decidable (x.Ahead t u) := inferInstanceAs (Decidable (_ ∨ _))

lemma Ahead.le (h : x.Ahead t u) : x.kernel.priority t≤x.kernel.priority u := by
  rcases h with h | h
  . exact Nat.le_of_lt h
  exact Nat.le_of_eq h.1

/-- The waiting lists are sorted, and a waiting writer has waited longer than the waiting readers of
its priority. -/
structure InOrder (x : RwWaits) : Prop where
  sorted : ∀ l write, (x.kernel.rwList l write).Pairwise x.Ahead
  cross : ∀ l, ∀ r∈x.kernel.rwList l false, ∀ w∈x.kernel.rwList l true,
    x.kernel.priority w=x.kernel.priority r → x.since w<x.since r
  past : ∀ t, x.kernel.rwParked t=true → x.since t<x.clock

lemma next_since_of_parked (ht : x.kernel.rwParked t=true) : (x.next k).since t=x.since t := by
  simp [next,ht]

lemma next_past (h : x.InOrder) (ht : k.rwParked t=true) : (x.next k).since t<(x.next k).clock := by
  by_cases hx : x.kernel.rwParked t=true
  . rw [next_since_of_parked hx]
    exact Nat.lt_succ_of_lt (h.past t hx)
  have hs : (x.next k).since t=x.clock := by simp [next,ht,hx]
  rw [hs]
  exact Nat.lt_succ_self x.clock

lemma Ahead.next (h : x.Ahead t u) (ht : x.kernel.rwParked t=true) (hu : x.kernel.rwParked u=true)
    (hp : ∀ t, x.kernel.rwParked t=true → k.priority t=x.kernel.priority t) :
    (x.next k).Ahead t u := by
  have hpt : (x.next k).kernel.priority t=x.kernel.priority t := hp t ht
  have hpu : (x.next k).kernel.priority u=x.kernel.priority u := hp u hu
  unfold Ahead
  rw [hpt,hpu,next_since_of_parked ht,next_since_of_parked hu]
  exact h

lemma InOrder.leave (h : x.InOrder)
    (hsub : ∀ l write, (k.rwList l write).Sublist (x.kernel.rwList l write))
    (hp : ∀ t, x.kernel.rwParked t=true → k.priority t=x.kernel.priority t) :
    (x.next k).InOrder := by
  have hold {l : Nat} {write : Bool} {t : Nat} (ht : t∈k.rwList l write) :
      x.kernel.rwParked t=true := Kernel.parked_of_mem ((hsub l write).subset ht)
  refine ⟨fun l write => ?_,fun l r hr w hw he => ?_,fun t ht => next_past h ht⟩
  . apply ((h.sorted l write).sublist (hsub l write)).imp_of_mem
    intro t u ht hu htu
    exact htu.next (hold ht) (hold hu) hp
  rw [next_since_of_parked (hold hr),next_since_of_parked (hold hw)]
  apply h.cross l r ((hsub l false).subset hr) w ((hsub l true).subset hw)
  have hpw : k.priority w=k.priority r := he
  rwa [hp w (hold hw),hp r (hold hr)] at hpw

lemma InOrder.join (h : x.InOrder) {write : Bool} (hj : Kernel.Joins x.kernel k l write)
    (hrun : x.kernel.rwParked x.kernel.sched.cpu.runningTask=false)
    (hlast : x.kernel.sched.JoinsLast x.kernel.sched.cpu.runningTask (x.kernel.rwList l write))
    (hwrite : write=true → ∀ r∈x.kernel.rwList l false,
      x.kernel.priority r≠x.kernel.priority x.kernel.sched.cpu.runningTask) :
    (x.next k).InOrder := by
  have hp : ∀ t, k.priority t=x.kernel.priority t := hj.prio
  have hp' : ∀ t, (x.next k).kernel.priority t=x.kernel.priority t := hp
  have hin : x.kernel.sched.cpu.runningTask∈k.rwList l write := by
    rw [hj.list,if_pos ⟨rfl,rfl⟩]
    exact (mem_insertAt _ _ _ _).mpr (.inl rfl)
  have hnew : (x.next k).since x.kernel.sched.cpu.runningTask=x.clock := by
    simp [next,hrun,Kernel.parked_of_mem hin]
  have hold {l' : Nat} {write' : Bool} {t : Nat} (ht : t∈x.kernel.rwList l' write') :
      (x.next k).since t=x.since t ∧ x.since t<x.clock :=
    ⟨next_since_of_parked (Kernel.parked_of_mem ht),h.past t (Kernel.parked_of_mem ht)⟩
  have hmem {l' : Nat} {write' : Bool} {t : Nat} (ht : t∈k.rwList l' write') :
      t∈x.kernel.rwList l' write' ∨ (t=x.kernel.sched.cpu.runningTask ∧ l'=l ∧ write'=write) := by
    rw [hj.list] at ht
    split at ht
    . next he =>
      rcases (mem_insertAt _ _ _ _).mp ht with ht | ht
      . exact .inr ⟨ht,he⟩
      rw [he.1,he.2]
      exact .inl ht
    exact .inl ht
  have hahead {t u : Nat} (htu : x.kernel.priority t<x.kernel.priority u ∨
      (x.kernel.priority t=x.kernel.priority u ∧ (x.next k).since t<(x.next k).since u)) :
      (x.next k).Ahead t u := by
    unfold Ahead
    rw [hp',hp']
    exact htu
  have hbefore {l' : Nat} {write' : Bool} :
      (x.kernel.rwList l' write').Pairwise (x.next k).Ahead := by
    apply (h.sorted l' write').imp_of_mem
    intro t u ht hu htu
    exact htu.next (Kernel.parked_of_mem ht) (Kernel.parked_of_mem hu) fun t _ => hp t
  refine ⟨fun l' write' => ?_,fun l' r hr w hw he => ?_,fun t ht => next_past h ht⟩
  . change (k.rwList l' write').Pairwise (x.next k).Ahead
    rw [hj.list]
    split
    . -- the new task stands behind its equals and in front of the less urgent ones
      have hsorted : x.kernel.sched.Sorted (x.kernel.rwList l write) :=
        (h.sorted l write).imp Ahead.le
      obtain ⟨hplace,hstrict⟩ := Sched.osRwLockPendFindPos_place
        x.kernel.sched.cpu.runningTask hsorted
      apply pairwise_insertAt_of hbefore
      . intro u hu
        obtain ⟨hs,hlt⟩ := hold (mem_of_mem_take hu)
        rcases Nat.lt_or_eq_of_le (hplace.front u hu) with hur | hur
        . exact hahead (.inl hur)
        refine hahead (.inr ⟨hur,?_⟩)
        rw [hs,hnew]
        exact hlt
      intro u hu
      exact hahead (.inl (hstrict hlast u hu))
    exact hbefore
  rw [hp',hp'] at he
  rcases hmem hr with hr | ⟨rfl,rfl,hwr⟩
  . rcases hmem hw with hw | ⟨rfl,rfl,hwr⟩
    . rw [(hold hr).1,(hold hw).1]
      exact h.cross l' r hr w hw he
    exact absurd he.symm (hwrite hwr.symm r hr)
  rcases hmem hw with hw | ⟨-,-,hwr'⟩
  . rw [hnew,(hold hw).1]
    exact (hold hw).2
  rw [← hwr] at hwr'
  cases hwr'

end RwWaits

/-- No waiting task changes its priority, a task that comes to wait goes behind its equals, and a
writer comes to wait only where no reader of its priority waits. -/
def Input.keepsOrder (k : Kernel) : Input → Prop
  | .call (.rwRead l _ _) => k.rdWaits l=true →
      k.sched.JoinsLast k.sched.cpu.runningTask (k.rwList l false)
  | .call (.rwWrite l _ _) => k.wrWaits l=true →
      k.sched.JoinsLast k.sched.cpu.runningTask (k.rwList l true) ∧
        ∀ r∈k.rwList l false, k.priority r≠k.priority k.sched.cpu.runningTask
  | a => a.sparesWaiters k

namespace RwWaits

variable {x : RwWaits} {a : Input}

lemma sparesWaiters_of_keepsOrder {k : Kernel} (h : a.keepsOrder k) : a.sparesWaiters k := by
  unfold Input.keepsOrder at h
  split at h
  . trivial
  . trivial
  exact h

lemma InOrder.act (h : x.InOrder) (hf : Kernel.Fine False False False False False x.kernel)
    (hp : a.plain=true) (ha : a.keepsOrder x.kernel) (hen : x.kernel.enabled a=true) :
    (x.next (x.kernel.act a).1).InOrder := by
  have hab := hf.able .none (Kernel.enabled_alive hen)
  have hrun := Kernel.running_not_parked hab
  rcases Kernel.act_rw_cases hf hp hen with hsub | ⟨l,n,try_,rfl,hw,hj⟩ | ⟨l,n,try_,rfl,hw,hj⟩
  . exact h.leave hsub fun t ht => Kernel.act_priority hf hp hen (sparesWaiters_of_keepsOrder ha) ht
  . exact h.join hj hrun (ha hw) nofun
  exact h.join hj hrun (ha hw).1 fun _ => (ha hw).2

lemma inOrder_of_reaches {cfg : Cfg} (hx : (machine cfg).Reaches
    (fun x a => a.plain=true ∧ a.keepsOrder x.kernel) x) : x.InOrder := by
  have hfine (y : RwWaits) (hy : (machine cfg).Reaches
      (fun x a => a.plain=true ∧ a.keepsOrder x.kernel) y) :
      Kernel.Fine False False False False False y.kernel := by
    have hk : (kernelMachine cfg).Reaches (fun _ a => a.plain=true) y.kernel := by
      induction hy with
      | start hs => exact .start hs
      | step _ hi ih => exact .step ih hi.1
    exact fine_of_plain hk
  refine hx.invariant_of hfine ?_ fun y a hf h ha => ?_
  . intro y hy
    have hk : y.kernel=Kernel.init cfg := hy
    have hnil : ∀ l write, y.kernel.rwList l write=[] := by
      intro l write
      rw [hk]
      exact Kernel.init_lists cfg nofun
    refine ⟨fun l write => ?_,fun l r hr => ?_,fun t ht => ?_⟩
    . rw [hnil]
      exact .nil
    . rw [hnil] at hr
      cases hr
    obtain ⟨l,write,hm⟩ := Kernel.rwParked_iff.mp ht
    rw [hnil] at hm
    cases hm
  change (y.next (y.kernel.step a)).InOrder
  unfold Kernel.step
  split
  . next hen => exact h.act hf ha.1 ha.2 hen
  exact h.leave (fun _ _ => .refl _) fun _ _ => rfl

end RwWaits

namespace Sched

lemma osRwLockTaskWake_list (s : Sched) (t l : Nat) (write : Bool) :
    (s.osRwLockTaskWake t).pend.lists (.rw l write)=(s.pend.lists (.rw l write)).erase t := by
  have hwoken : (s.rwWoken t).pend.lists (.rw l write)=(s.pend.lists (.rw l write)).erase t := by
    rw [(s.rwWoken_same t).2.2,Links.delete_lists_eq]
  rw [← hwoken]
  change ((s.rwWoken t).readyAddUnlessSuspend t).pend.lists _=_
  unfold readyAddUnlessSuspend
  split
  . rfl
  exact Links.insert_lists_ne _ t _ nofun

lemma osRwLockTaskWake_not_mem (s : Sched) (t l : Nat) (write : Bool) :
    t∉(s.osRwLockTaskWake t).pend.lists (.rw l write) := by
  rw [osRwLockTaskWake_list]
  exact (s.pend.nodup _).not_mem_erase

lemma osRwLockWakeReaders_sublist (l : Nat) (bound : Option Nat) (n : Nat) (s : Sched)
    (count : Int) (write : Bool) :
    ((osRwLockWakeReaders l bound n s count).1.pend.lists (.rw l write)).Sublist
      (s.pend.lists (.rw l write)) := by
  induction n generalizing s count with
  | zero => exact .refl _
  | succ n ih =>
    unfold osRwLockWakeReaders
    split
    . exact .refl _
    next t _ _ =>
    split
    . exact .refl _
    split
    . exact .refl _
    apply (ih (s.osRwLockTaskWake t) (count+1)).trans
    rw [osRwLockTaskWake_list]
    exact erase_sublist

end Sched

namespace Kernel

variable {k : Kernel} {l : Nat}

/-- The first task that a release lets in, and from which list. -/
def nextHolder (k : Kernel) (l : Nat) : Option (Nat×Bool) :=
  match k.rwList l false, k.rwList l true with
  | [], [] => none
  | r::_, [] => some (r,false)
  | [], w::_ => some (w,true)
  | r::_, w::_ => if k.priority w≤k.priority r then some (w,true) else some (r,false)

lemma osRwLockPostRead_not_mem (k : Kernel) (l : Nat) (bound : Option Nat) (r n : Nat) :
    r∉(k.osRwLockPostRead l bound r n).1.rwList l false := by
  have hnot : r∉(Sched.osRwLockWakeReaders l bound n
      (k.sched.osRwLockTaskWake r) 1).1.pend.lists (.rw l false) := fun hm =>
    k.sched.osRwLockTaskWake_not_mem r l false
      ((Sched.osRwLockWakeReaders_sublist l bound n _ 1 false).subset hm)
  simp only [osRwLockPostRead]
  split <;> exact hnot

lemma osRwLockPost_next {t : Nat} {write : Bool} (hn : k.nextHolder l=some (t,write)) :
    t∈k.rwList l write ∧ t∉(k.osRwLockPost l).1.rwList l write := by
  have hfirst {t : Nat} {ts : List Nat} {write : Bool} (hl : k.rwList l write=t::ts) :
      t∈k.rwList l write := by
    rw [hl]
    exact mem_cons_self
  unfold nextHolder at hn
  rcases k.osRwLockPost_cases l with ⟨hfree,-⟩ | ⟨w,ws,hw,hr,he⟩ | ⟨r,rs,bound,hr,-,hw,he⟩
  . simp [hfree false,hfree true] at hn
  . have hn' : w=t ∧ true=write := by
      cases hread : k.rwList l false with
      | nil => simpa [hread,hw] using hn
      | cons r rs => simpa [hread,hw,hr r rs hread] using hn
    obtain ⟨rfl,rfl⟩ := hn'
    refine ⟨hfirst hw,?_⟩
    rw [he]
    exact k.sched.osRwLockTaskWake_not_mem w l true
  have hn' : r=t ∧ false=write := by
    cases hwrite : k.rwList l true with
    | nil => simpa [hr,hwrite] using hn
    | cons w ws => simpa [hr,hwrite,(hw w ws hwrite).1.not_ge] using hn
  obtain ⟨rfl,rfl⟩ := hn'
  refine ⟨hfirst hr,?_⟩
  rw [he]
  exact osRwLockPostRead_not_mem _ l bound r rs.length

end Kernel

namespace RwWaits

variable {x : RwWaits} {l : Nat}

lemma Ahead.first (h : x.InOrder) {t u : Nat} {ts : List Nat} {write : Bool}
    (hl : x.kernel.rwList l write=t::ts) (hu : u∈x.kernel.rwList l write) :
    u=t ∨ x.Ahead t u := by
  have hs := h.sorted l write
  rw [hl] at hs hu
  rcases mem_cons.mp hu with he | hu
  . exact .inl he
  exact .inr ((pairwise_cons.mp hs).1 u hu)

lemma nextHolder_ahead (h : x.InOrder) {t : Nat} {write : Bool}
    (hn : x.kernel.nextHolder l=some (t,write)) :
    ∀ write' u, u∈x.kernel.rwList l write' → u=t ∨ x.Ahead t u := by
  intro write' u hu
  unfold Kernel.nextHolder at hn
  split at hn
  . cases hn
  . next r rs hr hw =>
    cases hn
    cases write' with
    | false => exact Ahead.first h hr hu
    | true =>
      rw [hw] at hu
      cases hu
  . next w ws hr hw =>
    cases hn
    cases write' with
    | false =>
      rw [hr] at hu
      cases hu
    | true => exact Ahead.first h hw hu
  next r rs w ws hr hw =>
  have hwm : w∈x.kernel.rwList l true := by
    rw [hw]
    exact mem_cons_self
  split at hn
  . next hp =>
    obtain ⟨rfl,rfl⟩ := Prod.mk.inj (Option.some.inj hn)
    cases write' with
    | true => exact Ahead.first h hw hu
    | false =>
      have hru : x.kernel.priority r≤x.kernel.priority u := by
        rcases Ahead.first h hr hu with rfl | ha
        . exact Nat.le_refl _
        exact ha.le
      right
      rcases Nat.lt_or_eq_of_le (Nat.le_trans hp hru) with hlt | heq
      . exact .inl hlt
      exact .inr ⟨heq,h.cross l u hu w hwm heq⟩
  next hp =>
  obtain ⟨rfl,rfl⟩ := Prod.mk.inj (Option.some.inj hn)
  have hlt : x.kernel.priority r<x.kernel.priority w := Nat.lt_of_not_le hp
  cases write' with
  | false => exact Ahead.first h hr hu
  | true =>
    right
    have hwu : x.kernel.priority w≤x.kernel.priority u := by
      rcases Ahead.first h hw hu with rfl | ha
      . exact Nat.le_refl _
      exact ha.le
    exact .inl (Nat.lt_of_lt_of_le hlt hwu)

end RwWaits

/-- The waiting lists are sorted by priority and arrival, and a release lets in a task that stands
in front of every other. -/
structure WaitOrder (x : RwWaits) (l : Nat) : Prop where
  sorted : ∀ write, (x.kernel.rwList l write).Pairwise x.Ahead
  post : (∃ write, x.kernel.rwList l write≠[]) → ∃ t write, t∈x.kernel.rwList l write ∧
    t∉(x.kernel.osRwLockPost l).1.rwList l write ∧
    ∀ write' u, u∈x.kernel.rwList l write' → u=t ∨ x.Ahead t u

open RwWaits

lemma nextHolder_some {k : Kernel} {l : Nat} (h : ∃ write, k.rwList l write≠[]) :
    ∃ t write, k.nextHolder l=some (t,write) := by
  obtain ⟨write,hne⟩ := h
  unfold Kernel.nextHolder
  split
  . next hr hw =>
    cases write with
    | false => exact absurd hr hne
    | true => exact absurd hw hne
  . exact ⟨_,_,rfl⟩
  . exact ⟨_,_,rfl⟩
  split <;> exact ⟨_,_,rfl⟩

/-- So it is in every run whose inputs keep the order. -/
theorem rw_wait_order {cfg : Cfg} {x : RwWaits} (hx : (machine cfg).Reaches
    (fun x a => a.plain=true ∧ a.keepsOrder x.kernel) x) (l : Nat) : WaitOrder x l := by
  have h := inOrder_of_reaches hx
  refine ⟨h.sorted l,fun hne => ?_⟩
  obtain ⟨t,write,hn⟩ := nextHolder_some hne
  obtain ⟨hin,hout⟩ := Kernel.osRwLockPost_next hn
  exact ⟨t,write,hin,hout,nextHolder_ahead h hn⟩

def queueInputs (p q : Nat) (second : Call) : List Input :=
  [.call (.taskCreate (smallTask 9) true false),.call (.taskResume 0),
   .call (.taskCreate (smallTask p) true false),.call (.taskCreate (smallTask q) true false),
   .activate true,.call (.rwWrite 0 osWaitForever false),.call (.taskResume 1),
   .call (.rwRead 0 osWaitForever false),.call (.taskResume 2),.call second]

def queueRun (cfg : Cfg) (is : List Input) : RwWaits :=
  (machine cfg).run ⟨Kernel.init cfg,fun _ => 0,0⟩ is

theorem rw_wait_order_readers :
    let x := queueRun smallCfg (queueInputs 7 5 (.rwRead 0 osWaitForever false))
    x.kernel.rwList 0 false=[2,1] ∧ WaitOrder x 0 := by
  have hempty {k : Kernel} (hk : k.rwList 0 false=[]) :
      k.sched.JoinsLast k.sched.cpu.runningTask (k.rwList 0 false) := by
    rw [hk]
    nofun
  have hjoin {k : Kernel} (hk : k.rwList 0 false=[1]) :
      k.sched.JoinsLast k.sched.cpu.runningTask (k.rwList 0 false) := by
    rw [hk]
    exact fun _ _ => .inr (countP_le_length)
  have hrun : (machine smallCfg).Reaches (fun x a => a.plain=true ∧ a.keepsOrder x.kernel)
      (queueRun smallCfg (queueInputs 7 5 (.rwRead 0 osWaitForever false))) := by
    apply Machine.Reaches.run (.start rfl) _
    refine ⟨⟨rfl,trivial⟩,⟨rfl,trivial⟩,⟨rfl,trivial⟩,⟨rfl,trivial⟩,⟨rfl,trivial⟩,
      ⟨rfl,fun hw => absurd hw (by decide +kernel)⟩,⟨rfl,trivial⟩,
      ⟨rfl,fun _ => hempty (by decide +kernel)⟩,⟨rfl,trivial⟩,
      ⟨rfl,fun _ => hjoin (by decide +kernel)⟩,trivial⟩
  exact ⟨by decide +kernel,rw_wait_order hrun 0⟩

def roomyCfg : Cfg := {smallCfg with tskMaxNum:=6, tsk_lt:=by decide}

def equalsInputs : List Input :=
  [.call (.taskCreate (smallTask 9) true false),.call (.taskResume 0),
   .call (.taskCreate (smallTask 5) true false),.call (.taskCreate (smallTask 5) true false),
   .call (.taskCreate (smallTask 7) true false),.call (.taskCreate (smallTask 5) true false),
   .activate true,.call (.rwWrite 0 osWaitForever false),.call (.taskResume 1),
   .call (.rwRead 0 osWaitForever false),.call (.taskResume 2),
   .call (.rwRead 0 osWaitForever false),.call (.taskResume 3),
   .call (.rwRead 0 osWaitForever false),.call (.taskResume 4),
   .call (.rwRead 0 osWaitForever false)]

/-- A fourth reader is put in front of one that came before; a waiting task is made more urgent and
keeps its place; a writer is let in before a reader that came first. -/
theorem rw_wait_order_broken : (let x := queueRun roomyCfg equalsInputs
     x.kernel.rwList 0 false=[1,4,2,3] ∧ ¬WaitOrder x 0) ∧
    (let x := queueRun smallCfg (queueInputs 5 7 (.rwRead 0 osWaitForever false) ++
        [.call (.taskSetPriority 2 3)])
     x.kernel.rwList 0 false=[1,2] ∧ x.kernel.priority 2=3 ∧ ¬WaitOrder x 0) ∧
    (let x := queueRun smallCfg (queueInputs 5 5 (.rwWrite 0 osWaitForever false))
     x.kernel.rwList 0 false=[1] ∧ x.kernel.rwList 0 true=[2] ∧
       (x.kernel.osRwLockPost 0).1.rwList 0 false=[1] ∧ ¬WaitOrder x 0) := by
  refine ⟨⟨by decide +kernel,fun h => ?_⟩,⟨by decide +kernel,by decide +kernel,fun h => ?_⟩,
    by decide +kernel,by decide +kernel,by decide +kernel,fun h => ?_⟩
  . exact absurd (h.sorted false) (by decide +kernel)
  . exact absurd (h.sorted false) (by decide +kernel)
  obtain ⟨t,write,hin,hout,hbest⟩ := h.post ⟨false,by decide +kernel⟩
  have hread : (queueRun smallCfg
      (queueInputs 5 5 (.rwWrite 0 osWaitForever false))).kernel.rwList 0 false=[1] := by
    decide +kernel
  have hwrite : (queueRun smallCfg
      (queueInputs 5 5 (.rwWrite 0 osWaitForever false))).kernel.rwList 0 true=[2] := by
    decide +kernel
  cases write with
  | false =>
    rw [hread,mem_singleton] at hin
    subst hin
    exact hout (by decide +kernel)
  | true =>
    rw [hwrite,mem_singleton] at hin
    subst hin
    have hbad := hbest false 1 (by exact mem_singleton_self 1)
    exact absurd hbad (by decide +kernel)

end UniProton
