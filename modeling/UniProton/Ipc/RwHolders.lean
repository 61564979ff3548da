import UniProton.Kernel.Lives

namespace UniProton

open Framework Function List

namespace Cont

variable {k : Cont} {a b : TskStatus}

/-- The rwlock that a task has been given and has not yet returned with, and whether it writes. -/
def grant (k : Cont) (b : TskStatus) : Option (Nat×Bool) :=
  if b.inuse && !b.rwPend && !b.timeout then k.rwOf else none

/-- A call on an rwlock has run out of time, but does not look at that. -/
def overdue (k : Cont) (b : TskStatus) : Bool :=
  b.inuse && !b.rwPend && b.timeout && k.rwOf.isSome && !k.timed

/-- What a call on an rwlock has been given, and whether it has overrun. -/
def lease (k : Cont) (b : TskStatus) : Option (Nat×Bool)×Bool := (k.grant b,k.overdue b)

lemma lease_of_none (h : k.rwOf=none) (b : TskStatus) : k.lease b=(none,false) := by
  simp [lease,grant,overdue,h]

lemma lease_of_pend (h : b.rwPend=true) : k.lease b=(none,false) := by simp [lease,grant,overdue,h]

lemma lease_of_unused (h : b.inuse=false) : k.lease b=(none,false) := by
  simp [lease,grant,overdue,h]

lemma lease_kept {tick : Prop} (h : RwKept tick k a b) (hi : b.inuse=a.inuse) :
    k.lease b=k.lease a := by
  by_cases hk : k.rwOf=none
  . rw [lease_of_none hk,lease_of_none hk]
  have ht := h.timeout hk
  have hp : b.rwPend=a.rwPend ∨ (a.timeout=true ∧ k.timed=true) := by
    cases ha : a.rwPend with
    | true => exact (h.ended hk ha).imp_right And.right
    | false =>
      refine .inl (Bool.eq_false_iff.mpr fun hb => ?_)
      cases ha.symm.trans (h.pend hb)
  rcases hp with hp | ⟨hto,hti⟩
  . simp only [lease,grant,overdue,hi,ht,hp]
  simp [lease,grant,overdue,hi,ht,hto,hti]

end Cont

namespace Sched

variable {s s' s1 : Sched} {t l : Nat} {write : Bool}

def grant (s : Sched) (t : Nat) : Option (Nat×Bool) := (s.cont t).grant (s.status t)

def overdue (s : Sched) (t : Nat) : Bool := (s.cont t).overdue (s.status t)

def lease (s : Sched) (t : Nat) : Option (Nat×Bool)×Bool := (s.cont t).lease (s.status t)

/-- The waiting tasks that have been given the rwlock and go on with it. -/
def granted (s : Sched) (l : Nat) : List (Nat×Bool) :=
  (List.range (s.cfg.tskMaxNum+1)).filterMap fun t =>
    (s.grant t).bind fun x => if x.1=l then some (t,x.2) else none

def rwTouch (X : Nat → Prop) : Touch := ⟨X,fun _ => True,True,True,True,False,fun _ => True,True⟩

/-- What stays of the rwlocks in the tasks. -/
structure RwCalm (X : Nat → Prop) (s s' : Sched) : Prop where
  lists : ∀ l write, (s'.pend.lists (.rw l write)).Sublist (s.pend.lists (.rw l write))
  lease : ∀ t, ¬X t → s'.lease t=s.lease t

lemma RwCalm.refl (X : Nat → Prop) (s : Sched) : RwCalm X s s := ⟨fun _ _ => .refl _,fun _ _ => rfl⟩

lemma RwCalm.trans {X : Nat → Prop} (h : RwCalm X s s1) (h' : RwCalm X s1 s') : RwCalm X s s' :=
  ⟨fun l w => (h'.lists l w).trans (h.lists l w),fun t ht => (h'.lease t ht).trans (h.lease t ht)⟩

lemma RwCalm.of_eq {X : Nat → Prop} (ht : s'.tcb=s.tcb) (hc : s'.cont=s.cont)
    (hl : ∀ l write, (s'.pend.lists (.rw l write)).Sublist (s.pend.lists (.rw l write))) :
    RwCalm X s s' := by
  refine ⟨hl,fun t _ => ?_⟩
  simp only [Sched.lease,Sched.status,ht,hc]

/-- Steps that do not touch rwlocks leave what the tasks outside `X` have. -/
lemma rw_quiet (X : Nat → Prop) : Quiet (rwTouch X) (RwCalm X) where
  refl := .refl X
  trans := .trans
  frame ht hc hp := .of_eq ht hc fun l w => by rw [hp]
  modTcb s t f hf := by
    refine ⟨fun _ _ => .refl _,fun t' hx => ?_⟩
    by_cases e : t'=t
    . subst e
      simp only [Sched.lease,Sched.status,modTcb,update_self]
      exact Cont.lease_kept ((hf.rw.resolve_left hx).resolve_left id) (hf.inuse.resolve_left hx)
    simp only [Sched.lease,Sched.status,modTcb,update_of_ne e]
  setCont s t k hk := by
    refine ⟨fun _ _ => .refl _,fun t' hx => ?_⟩
    by_cases e : t'=t
    . subst e
      obtain ⟨h1,h2⟩ := (hk.rw.resolve_left hx).resolve_left id
      simp only [Sched.lease,setCont,update_self]
      rw [Cont.lease_of_none h1,Cont.lease_of_none h2]
    simp only [Sched.lease,Sched.status,setCont,update_of_ne e]
  pendInsert s t h i hj := .of_eq rfl rfl fun l w => by
    have hne : PendHead.rw l w≠h := by
      rintro rfl
      exact hj
    exact (Links.insert_lists_ne s.pend t i hne).symm ▸ .refl _
  pendDelete s t := .of_eq rfl rfl fun l w => by
    exact (Links.delete_lists_eq s.pend t (.rw l w)).symm ▸ erase_sublist

lemma granted_congr (hcfg : s'.cfg=s.cfg)
    (h : ∀ t ≤ s.cfg.tskMaxNum, s'.lease t=s.lease t) (l : Nat) : s'.granted l=s.granted l := by
  unfold granted
  rw [hcfg]
  refine filterMap_congr fun t ht => ?_
  have hg : s'.grant t=s.grant t := congrArg Prod.fst (h t (Nat.lt_succ_iff.mp (mem_range.mp ht)))
  rw [hg]

lemma granted_cons (hcfg : s'.cfg=s.cfg) (hle : t ≤ s.cfg.tskMaxNum) (hold : s.grant t=none)
    (hnew : s'.grant t=some (l,write)) (hne : ∀ t'≠t, s'.lease t'=s.lease t') :
    (s'.granted l).Perm ((t,write)::s.granted l) ∧ ∀ l'≠l, (s'.granted l').Perm (s.granted l') := by
  have hp := perm_cons_erase (mem_range.mpr (Nat.lt_succ_of_le hle))
  have hrest : ∀ l', ((List.range (s.cfg.tskMaxNum+1)).erase t).filterMap (fun t' =>
      (s'.grant t').bind fun x => if x.1=l' then some (t',x.2) else none) =
      ((List.range (s.cfg.tskMaxNum+1)).erase t).filterMap fun t' =>
        (s.grant t').bind fun x => if x.1=l' then some (t',x.2) else none := by
    intro l'
    refine filterMap_congr fun t' ht' => ?_
    have hg : s'.grant t'=s.grant t' :=
      congrArg Prod.fst (hne t' (nodup_range.mem_erase_iff.mp ht').1)
    rw [hg]
  have hcons : ∀ l', (s'.granted l').Perm (((s'.grant t).bind fun x =>
      if x.1=l' then some (t,x.2) else none).toList++s.granted l') := by
    intro l'
    unfold granted
    rw [hcfg]
    apply (hp.filterMap _).trans
    refine .trans ?_ (((hp.filterMap _).symm).append_left _)
    rw [filterMap_cons,filterMap_cons,hold,hrest l']
    cases (s'.grant t).bind fun x => if x.1=l' then some (t,x.2) else none <;> rfl
  refine ⟨?_,fun l' hl' => ?_⟩
  . have := hcons l
    rw [hnew] at this
    simpa using this
  have := hcons l'
  rw [hnew] at this
  simpa [Ne.symm hl'] using this

/-- The step gives lock `l` to the waiting tasks `ws` and no lock to another task. -/
structure Grants (s s' : Sched) (l : Nat) (ws : List (Nat×Bool)) : Prop where
  cfg : s'.cfg=s.cfg
  here : (s'.granted l).Perm (ws++s.granted l)
  there : ∀ l'≠l, (s'.granted l').Perm (s.granted l')
  lists : ∀ l' write, (s'.pend.lists (.rw l' write)).Sublist (s.pend.lists (.rw l' write))
  fresh : (∀ t ≤ s.cfg.tskMaxNum, s.overdue t=false) → ∀ t ≤ s.cfg.tskMaxNum, s'.overdue t=false

lemma Grants.of_calm (hcfg : s'.cfg=s.cfg) (h : RwCalm (fun _ => False) s s') (l : Nat) :
    Grants s s' l [] := by
  have hg := granted_congr hcfg fun t _ => h.lease t id
  exact ⟨hcfg,.of_eq (hg l),fun l' _ => .of_eq (hg l'),h.lists,
    fun hf t ht => (congrArg Prod.snd (h.lease t id)).trans (hf t ht)⟩

lemma Grants.trans {ws ws' : List (Nat×Bool)} (h : Grants s s1 l ws)
    (h' : Grants s1 s' l ws') : Grants s s' l (ws'++ws) := by
  refine ⟨h'.cfg.trans h.cfg,?_,fun l' hl' => (h'.there l' hl').trans (h.there l' hl'),
    fun l' w => (h'.lists l' w).trans (h.lists l' w),fun hf => ?_⟩
  . rw [append_assoc]
    exact h'.here.trans (h.here.append_left _)
  have := h'.fresh
  rw [h.cfg] at this
  exact this (h.fresh hf)

lemma readyAddUnlessSuspend_cfg (s : Sched) (t : Nat) : (s.readyAddUnlessSuspend t).cfg=s.cfg := by
  unfold readyAddUnlessSuspend
  split <;> rfl

def rwWoken (s : Sched) (t : Nat) : Sched :=
  ((s.pendDelete t).timeoutClear t).modStatus t fun b => {b with rwPend:=false}

lemma rwWoken_self (s : Sched) (t : Nat) : (s.rwWoken t).status t =
    {s.status t with timeout:=false, rwPend:=false} := by
  unfold rwWoken timeoutClear
  split
  . simp [status,modStatus,modTcb,timerDelete,pendDelete]
  next h =>
  have h' : (s.status t).timeout=false := by simpa [status,pendDelete] using h
  simp only [status,modStatus,modTcb,pendDelete,update_self]
  rw [← h']
  rfl

lemma rwWoken_ne (s : Sched) {t t' : Nat} (hne : t'≠t) :
    (s.rwWoken t).status t'=s.status t' := by
  unfold rwWoken timeoutClear
  split <;> simp [status,modStatus,modTcb,timerDelete,pendDelete,hne]

lemma rwWoken_same (s : Sched) (t : Nat) : (s.rwWoken t).cont=s.cont ∧
    (s.rwWoken t).cfg=s.cfg ∧ (s.rwWoken t).pend=s.pend.delete t := by
  unfold rwWoken timeoutClear
  split <;> exact ⟨rfl,rfl,rfl⟩

/-- A woken task has the lock. -/
lemma osRwLockTaskWake_grants {c u : Prop} (h : Able c u s)
    (ht : s.pend.loc t=some (.rw l write)) : Grants s (s.osRwLockTaskWake t) l [(t,write)] := by
  have hle := h.core.le_of_loc ht
  obtain ⟨m,hf,-⟩ := h.core.tasks t hle
  obtain rfl := hf.eq_of_loc_rw ht
  obtain ⟨timed,hk⟩ := hf.ctx
  have hk' : s.cont t=.rwPend l write timed := hk
  have hin : (s.status t).inuse=true := hf.inuse
  have hpend : (s.status t).rwPend=true := hf.rwPend
  obtain ⟨h1,h2,h3⟩ := s.rwWoken_same t
  have hold : s.grant t=none := congrArg Prod.fst (Cont.lease_of_pend hpend)
  have hnew : (s.rwWoken t).grant t=some (l,write) := by
    rw [grant,h1,rwWoken_self,hk']
    simp [Cont.grant,hin,Cont.rwOf]
  have hne : ∀ t'≠t, (s.rwWoken t).lease t'=s.lease t' := fun t' e => by
    rw [lease,lease,h1,s.rwWoken_ne e]
  obtain ⟨hhere,hthere⟩ := granted_cons h2 hle hold hnew hne
  have hw : Grants s (s.rwWoken t) l [(t,write)] := by
    refine ⟨h2,hhere,hthere,fun l' w => ?_,fun hfr t' ht' => ?_⟩
    . rw [h3,Links.delete_lists_eq]
      exact erase_sublist
    by_cases e : t'=t
    . subst e
      rw [overdue,rwWoken_self]
      simp [Cont.overdue]
    exact (congrArg Prod.snd (hne t' e)).trans (hfr t' ht')
  have hq := (rw_quiet fun _ => False).step_readyAddUnlessSuspend (t:=t)
    ((rw_quiet fun _ => False).refl (s.rwWoken t))
  exact hw.trans (.of_calm (readyAddUnlessSuspend_cfg _ _) hq l)

/-- The count grows by the readers that are given the lock. -/
lemma osRwLockWakeReaders_grants {c u : Prop} (bound : Option Nat) (n : Nat) (s : Sched)
    (count : Int) (h : Able c u s) : ∃ ws : List (Nat×Bool), (∀ x∈ws, x.2=false) ∧
      (osRwLockWakeReaders l bound n s count).2.1=count+ws.length ∧
      Grants s (osRwLockWakeReaders l bound n s count).1 l ws := by
  have hnone : ∀ (s : Sched) (count : Int), ∃ ws : List (Nat×Bool), (∀ x∈ws, x.2=false) ∧
      count=count+ws.length ∧ Grants s s l ws :=
    fun s count => ⟨[],nofun,by simp,.of_calm rfl (.refl _ s) l⟩
  induction n generalizing s count with
  | zero => exact hnone s count
  | succ n ih =>
    unfold osRwLockWakeReaders
    split
    . exact hnone s count
    next t _ hlist =>
    split
    . exact hnone s count
    split
    . exact hnone s count
    have hloc := Links.head_loc hlist
    obtain ⟨-,ha⟩ := osRwLockTaskWake_leads h hloc (d:=False)
    obtain ⟨ws,hr,hc,hg⟩ := ih (s.osRwLockTaskWake t) (count+1) ha
    refine ⟨ws++[(t,false)],?_,?_,(osRwLockTaskWake_grants h hloc).trans hg⟩
    . intro x hx
      rcases mem_append.mp hx with hx | hx
      . exact hr x hx
      rw [mem_singleton.mp hx]
    rw [hc,length_append,length_singleton]
    push_cast
    omega

end Sched

/-- The lock word and the holds that are outstanding. A lock that nobody has is free of waiting
tasks. -/
inductive RwLock.Ok (free : Prop) (c : RwLock) (H : List (Nat×Bool)) : Prop
  | writer (t : Nat) (hc : c=⟨-1,some t⟩) (hh : H=[(t,true)]) : Ok free c H
  | readers (n : Nat) (hc : c=⟨n,none⟩) (hn : H.length=n) (hr : ∀ x∈H, x.2=false)
      (hf : n=0 → free) : Ok free c H

lemma RwLock.Ok.mono {free free' : Prop} {c : RwLock} {H H' : List (Nat×Bool)}
    (h : c.Ok free H) (hp : H'.Perm H) (hf : free → free') : c.Ok free' H' := by
  cases h with
  | writer t hc hh =>
    refine .writer t hc ?_
    rw [hh] at hp
    exact perm_singleton.mp hp
  | readers n hc hn hr hfr =>
    refine .readers n hc (hp.length_eq.trans hn) (fun x hx => hr x (hp.mem_iff.mp hx)) fun h0 => ?_
    exact hf (hfr h0)

namespace Kernel

variable {cfg : Cfg} {k k' : Kernel} {l : Nat} {a : Input}

def rwList (k : Kernel) (l : Nat) (write : Bool) : List Nat := k.sched.pend.lists (.rw l write)

/-- The holds of a lock: those that calls have returned with, and those that waiting tasks have
been given. -/
def rwHolders (k : Kernel) (l : Nat) : List (Nat×Bool) := k.rwHolds l++k.sched.granted l

/-- No task waits for the lock. -/
def rwFree (k : Kernel) (l : Nat) : Prop := ∀ write, k.rwList l write=[]

/-- Every lock word agrees with the holders of its lock. -/
structure RwOk (k : Kernel) : Prop where
  each : ∀ l, (k.rwlocks l).Ok (k.rwFree l) (k.rwHolders l)
  fresh : ∀ t≤k.sched.cfg.tskMaxNum, k.sched.overdue t=false

lemma rwFree_mono (h : ∀ write, (k'.rwList l write).Sublist (k.rwList l write))
    (hf : k.rwFree l) : k'.rwFree l := by
  intro w
  have := h w
  rw [hf w] at this
  exact sublist_nil.mp this

lemma RwOk.of_one (h : k.RwOk) (hl : (k'.rwlocks l).Ok (k'.rwFree l) (k'.rwHolders l))
    (hc : ∀ l'≠l, k'.rwlocks l'=k.rwlocks l') (hh : ∀ l'≠l, k'.rwHolds l'=k.rwHolds l')
    (hg : ∀ l'≠l, (k'.sched.granted l').Perm (k.sched.granted l'))
    (hs : ∀ l'≠l, ∀ write, (k'.rwList l' write).Sublist (k.rwList l' write))
    (hf : ∀ t≤k'.sched.cfg.tskMaxNum, k'.sched.overdue t=false) : k'.RwOk := by
  refine ⟨fun l' => ?_,hf⟩
  by_cases e : l'=l
  . rw [e]
    exact hl
  rw [hc l' e]
  refine (h.each l').mono ?_ (rwFree_mono (hs l' e))
  unfold rwHolders
  rw [hh l' e]
  exact (hg l' e).append_left _

lemma RwOk.of_calm (h : k.RwOk) (hcfg : k'.sched.cfg=k.sched.cfg)
    (hc : k'.rwlocks=k.rwlocks) (hh : k'.rwHolds=k.rwHolds)
    (hs : ∀ l write, (k'.rwList l write).Sublist (k.rwList l write))
    (hg : ∀ t≤k.sched.cfg.tskMaxNum, k'.sched.lease t=k.sched.lease t) : k'.RwOk := by
  refine ⟨fun l => ?_,fun t ht => ?_⟩
  swap
  . rw [hcfg] at ht
    exact (congrArg Prod.snd (hg t ht)).trans (h.fresh t ht)
  have he : k'.rwHolders l=k.rwHolders l := by
    unfold rwHolders
    rw [hh,Sched.granted_congr hcfg hg]
  rw [hc,he]
  exact (h.each l).mono (.refl _) (rwFree_mono (hs l))

/-- Who gets the lock is what the lock word says, and only a lock without waiting tasks becomes
free. -/
structure Released (k : Kernel) (l : Nat) (r : Kernel×Errno×Bool) : Prop where
  ok : r.2.1=.osOk
  given : ∃ ws, Sched.Grants k.sched r.1.sched l ws ∧ (r.1.rwlocks l).Ok (r.1.rwFree l) ws
  rest : ∀ l'≠l, r.1.rwlocks l'=k.rwlocks l'
  holds : r.1.rwHolds=k.rwHolds

lemma rwWrite_released {c u : Prop} (h : Sched.Able c u k.sched) {w : Nat} {ws : List Nat}
    (hw : k.rwList l true=w::ws) :
    k.Released l ((k.modRw l fun _ => {rwCount := -1, rwOwner:=some w}).onSched fun s =>
      s.osRwLockTaskWake w,.osOk,true) := by
  have hg := Sched.osRwLockTaskWake_grants h (Links.head_loc hw)
  refine ⟨rfl,⟨_,hg,.writer w ?_ rfl⟩,fun l' hl' => ?_,rfl⟩
  . simp only [onSched,modRw,update_self]
  simp only [onSched,modRw,update_of_ne hl']

lemma osRwLockPostRead_released {c u : Prop} (h : Sched.Able c u k.sched) {r : Nat}
    {rs : List Nat} (hr : k.rwList l false=r::rs) (ho : (k.rwlocks l).rwOwner=none)
    (bound : Option Nat) : k.Released l (k.osRwLockPostRead l bound r rs.length) := by
  have hloc : k.sched.pend.loc r=some (.rw l false) := Links.head_loc hr
  obtain ⟨-,ha⟩ := Sched.osRwLockTaskWake_leads h hloc (d:=False)
  obtain ⟨ws,hrd,hc,hg⟩ := Sched.osRwLockWakeReaders_grants (l:=l) bound rs.length
    (k.sched.osRwLockTaskWake r) 1 ha
  have hgr := (Sched.osRwLockTaskWake_grants h hloc).trans hg
  obtain ⟨hok,-,-⟩ := osRwLockPostRead_leads h hr bound (d:=False)
  unfold osRwLockPostRead at hok ⊢
  dsimp only at hok ⊢
  have hfull : (Sched.osRwLockWakeReaders l bound rs.length (k.sched.osRwLockTaskWake r) 1).2.2 =
      false := by
    by_contra hn
    rw [if_pos (by simpa using hn)] at hok
    cases hok
  simp only [hfull,Bool.false_eq_true,if_false]
  refine ⟨rfl,⟨ws++[(r,false)],hgr,.readers (ws.length+1) ?_ ?_ ?_ nofun⟩,fun l' hl' => ?_,rfl⟩
  . simp only [modRw,update_self,hc,ho]
    congr 1
    push_cast
    omega
  . simp
  . intro x hx
    rcases mem_append.mp hx with hx | hx
    . exact hrd x hx
    rw [mem_singleton.mp hx]
  simp only [modRw,update_of_ne hl']

lemma Released.of_cleared {r : Kernel×Errno×Bool}
    (h : (k.modRw l fun _ => {}).Released l r) : k.Released l r := by
  refine ⟨h.ok,h.given,fun l' hl' => (h.rest l' hl').trans ?_,h.holds⟩
  simp only [modRw,update_of_ne hl']

lemma osRwLockPost_cases (k : Kernel) (l : Nat) :
    (k.rwFree l ∧ k.osRwLockPost l=(k.modRw l fun _ => {},.osOk,false)) ∨
    (∃ w ws, k.rwList l true=w::ws ∧ (∀ r rs, k.rwList l false=r::rs → k.priority w≤k.priority r) ∧
      k.osRwLockPost l=(((k.modRw l fun _ => {}).modRw l fun _ =>
        {rwCount := -1, rwOwner:=some w}).onSched fun s => s.osRwLockTaskWake w,.osOk,true)) ∨
    ∃ r rs bound, k.rwList l false=r::rs ∧ (k.rwList l true=[] → bound=none) ∧
      (∀ w ws, k.rwList l true=w::ws → k.priority r<k.priority w ∧ bound=some (k.priority w)) ∧
      k.osRwLockPost l=(k.modRw l fun _ => {}).osRwLockPostRead l bound r rs.length := by
  have hloc (write : Bool) : (k.modRw l fun _ => {}).sched.pend.lists (.rw l write) =
      k.rwList l write := rfl
  unfold osRwLockPost Sched.osRwLockGetMode
  cases hr : k.rwList l false with
  | nil =>
    cases hw : k.rwList l true with
    | nil =>
      simp only [hloc,hr,hw]
      refine .inl ⟨fun write => ?_,trivial⟩
      cases write with
      | false => exact hr
      | true => exact hw
    | cons w ws =>
      simp only [hloc,hr,hw]
      exact .inr (.inl ⟨w,ws,rfl,nofun,rfl⟩)
  | cons r rs =>
    cases hw : k.rwList l true with
    | nil =>
      simp only [hloc,hr,hw]
      exact .inr (.inr ⟨r,rs,none,rfl,fun _ => rfl,nofun,rfl⟩)
    | cons w ws =>
      by_cases hp : k.priority w≤k.priority r
      . have hp' : ((k.modRw l fun _ => {}).sched.tcb w).priority ≤
            ((k.modRw l fun _ => {}).sched.tcb r).priority := hp
        simp only [hloc,hr,hw,if_pos hp']
        refine .inr (.inl ⟨w,ws,rfl,fun r' rs' he => ?_,rfl⟩)
        cases he
        exact hp
      have hp' : ¬((k.modRw l fun _ => {}).sched.tcb w).priority ≤
          ((k.modRw l fun _ => {}).sched.tcb r).priority := hp
      simp only [hloc,hr,hw,if_neg hp']
      refine .inr (.inr ⟨r,rs,some (k.priority w),rfl,nofun,fun w' ws' he => ?_,rfl⟩)
      cases he
      exact ⟨Nat.lt_of_not_le hp,rfl⟩

lemma osRwLockPost_released {c u : Prop} (h : Sched.Able c u k.sched) (l : Nat) :
    k.Released l (k.osRwLockPost l) := by
  apply Released.of_cleared
  have hown : ((k.modRw l fun _ => {}).rwlocks l)={} := by simp only [modRw,update_self]
  have hab : Sched.Able c u (k.modRw l fun _ => {}).sched := h
  rcases k.osRwLockPost_cases l with ⟨hfree,he⟩ | ⟨w,ws,hw,-,he⟩ | ⟨r,rs,bound,hr,-,-,he⟩
  . rw [he]
    refine ⟨rfl,⟨[],.of_calm rfl (.refl _ _) l,?_⟩,fun _ _ => rfl,rfl⟩
    exact .readers 0 hown rfl nofun fun _ => hfree
  . rw [he]
    exact rwWrite_released hab hw
  rw [he]
  exact osRwLockPostRead_released hab hr (by rw [hown]) bound

lemma osTskSchedule_calm (s : Sched) :
    s.osTskSchedule.cfg=s.cfg ∧ Sched.RwCalm (fun _ => False) s s.osTskSchedule :=
  ⟨Sched.osTskSchedule_cfg,(Sched.rw_quiet fun _ => False).step_osTskSchedule (.refl _ s)⟩

lemma pthreadRwlockUnlock_ok {r : Kernel×Errno×Bool} (h : k.osRwLockUnlock l=r)
    (hok : r.2.1=.osOk) : (k.pthreadRwlockUnlock l).2=.osOk ∧ ((k.pthreadRwlockUnlock l).1=r.1 ∨
        (k.pthreadRwlockUnlock l).1=r.1.onSched fun s => s.osTskSchedule) := by
  obtain ⟨k1,e,b⟩ := r
  obtain rfl : e=.osOk := hok
  unfold pthreadRwlockUnlock
  rw [h]
  cases b with
  | true => exact ⟨rfl,.inr rfl⟩
  | false => exact ⟨rfl,.inl rfl⟩

lemma RwOk.schedule (h : k.RwOk) : (k.onSched fun s => s.osTskSchedule).RwOk := by
  obtain ⟨hcfg,hq⟩ := osTskSchedule_calm k.sched
  exact h.of_calm hcfg rfl rfl (fun l w => hq.lists l w) fun t _ => hq.lease t id

lemma rwUnlock_ok {c u : Prop} (h : k.RwOk) (hab : Sched.Able c u k.sched)
    (hold : ∃ write, (k.sched.cpu.runningTask,write)∈k.rwHolds l) : (k.rwUnlock l).1.RwOk := by
  obtain ⟨w,hmem⟩ := hold
  -- what is left when the last hold is given back
  have hpost : k.osRwLockUnlock l=k.osRwLockPost l →
      (k.rwHolds l).erase (k.sched.cpu.runningTask,decide ((k.rwlocks l).rwCount<0))=[] →
      k.sched.granted l=[] → (k.rwUnlock l).1.RwOk := by
    intro he hnil hgr
    obtain ⟨hok,⟨ws,hg,hlock⟩,hrest,hholds⟩ := osRwLockPost_released hab l
    obtain ⟨hok',hk'⟩ := pthreadRwlockUnlock_ok he hok
    have hone : ({(k.osRwLockPost l).1 with rwHolds:=update k.rwHolds l []} : Kernel).RwOk := by
      refine h.of_one (l:=l) ?_ hrest (fun l' hl' => update_of_ne hl' _ _) hg.there
        (fun l' _ write => hg.lists l' write) ?_
      . refine hlock.mono ?_ id
        have := hg.here
        rw [hgr,append_nil] at this
        unfold rwHolders
        simpa using this
      have := hg.fresh h.fresh
      rwa [← hg.cfg] at this
    unfold rwUnlock
    simp only [hok',hnil,if_true]
    rcases hk' with hk' | hk'
    . rw [hk']
      exact hone
    rw [hk']
    exact hone.schedule
  have hlock := h.each l
  have hin : (k.sched.cpu.runningTask,w)∈k.rwHolders l := mem_append_left _ hmem
  cases hlock with
  | writer t hc hh =>
    rw [hh,mem_singleton] at hin
    have hone : k.rwHolds l=[(t,true)] ∧ k.sched.granted l=[] := by
      have hne : k.rwHolds l≠[] := ne_nil_of_mem hmem
      exact (append_eq_singleton_iff.mp hh).resolve_left fun hx => hne hx.1
    have hrun : k.sched.cpu.runningTask=t := (Prod.mk.inj hin).1
    refine hpost ?_ ?_ hone.2
    . simp [osRwLockUnlock,hc,hrun]
    simp [hone.1,hc,hrun]
  | readers n hc hn hr hf =>
    have hwf : w=false := hr _ hin
    subst hwf
    have hpos : 0<n := by
      rw [← hn]
      exact length_pos_of_mem hin
    have hneg : ¬((k.rwlocks l).rwCount<0) := by
      rw [hc]
      dsimp only
      omega
    by_cases hone : n=1
    . subst hone
      have hh : k.rwHolders l=[(k.sched.cpu.runningTask,false)] := by
        obtain ⟨x,hx⟩ := length_eq_one_iff.mp hn
        rw [hx,mem_singleton] at hin
        rw [hx,hin]
      have hsplit := (append_eq_singleton_iff.mp hh).resolve_left fun hx => ne_nil_of_mem hmem hx.1
      refine hpost ?_ ?_ hsplit.2
      . simp [osRwLockUnlock,hc]
      rw [hsplit.1,decide_eq_false hneg]
      simp
    have he : k.osRwLockUnlock l =
        (k.modRw l fun r => {r with rwCount:=r.rwCount-1},.osOk,false) := by
      have h1 : (1 : Int)<n := by omega
      have h2 : ¬((n : Int)<0) := by omega
      simp [osRwLockUnlock,hc,h1,h2,Nat.ne_of_gt hpos]
    have hk' : k.pthreadRwlockUnlock l =
        (k.modRw l fun r => {r with rwCount:=r.rwCount-1},.osOk) := by
      unfold pthreadRwlockUnlock
      rw [he]
    unfold rwUnlock
    simp only [hk',if_true,decide_eq_false hneg]
    refine h.of_one (l:=l) ?_ (fun l' hl' => ?_) (fun l' hl' => ?_) (fun _ _ => .refl _)
      (fun _ _ _ => .refl _) h.fresh
    . have hlen : ((k.rwHolds l).erase (k.sched.cpu.runningTask,false) ++
          k.sched.granted l).length=n-1 := by
        rw [length_append,length_erase_of_mem hmem,← hn,rwHolders,length_append]
        have := length_pos_of_mem hmem
        omega
      refine .readers (n-1) ?_ ?_ ?_ fun h0 => absurd h0 (by omega)
      . simp only [modRw,update_self,hc]
        congr 1
        omega
      . simp only [rwHolders,update_self]
        exact hlen
      intro x hx
      simp only [rwHolders,update_self] at hx
      apply hr x
      rcases mem_append.mp hx with hx | hx
      . exact mem_append_left _ (mem_of_mem_erase hx)
      exact mem_append_right _ hx
    . simp only [modRw,update_of_ne hl']
    exact update_of_ne hl' _ _

lemma RwOk.held (h : k.RwOk) {t : Nat} {write : Bool} {f : RwLock → RwLock}
    (hl : (f (k.rwlocks l)).Ok False ((t,write)::k.rwHolders l)) :
    ((k.modRw l f).rwHeld l t write).RwOk := by
  refine h.of_one (l:=l) ?_ (fun l' hl' => ?_) (fun l' hl' => ?_) (fun _ _ => .refl _)
    (fun _ _ _ => .refl _) h.fresh
  . have he : ((k.modRw l f).rwHeld l t write).rwHolders l=(t,write)::k.rwHolders l := by
      simp only [rwHolders,rwHeld,update_self,List.cons_append]
      rfl
    rw [he]
    simp only [rwHeld,modRw,update_self]
    exact hl.mono (.refl _) False.elim
  . simp only [rwHeld,modRw,update_of_ne hl']
  exact update_of_ne hl' _ _

lemma osRwLockPendPre_pend (s : Sched) (l n : Nat) (write : Bool) :
    (s.osRwLockPendPre l write n).pend=(s.pend.delete s.cpu.runningTask).insert
      s.cpu.runningTask (.rw l write) (s.osRwLockPendFindPos s.cpu.runningTask (.rw l write)) := by
  unfold Sched.osRwLockPendPre Sched.timeoutSet
  split <;> rfl

lemma rwPendSchedule_ok {c u : Prop} (h : k.RwOk) (hab : Sched.Able c u k.sched)
    (hc : k.sched.cpu.taskContext=true) (hu : k.sched.cont k.sched.cpu.runningTask=.user)
    (hz : (k.rwlocks l).rwCount≠0) (write : Bool) (n : Nat) :
    (k.rwPendSchedule l write n).1.RwOk := by
  have hab' : Sched.Able False False k.sched := ⟨hab.core,hab.alive,hab.run,nofun,nofun⟩
  obtain ⟨ht,hm⟩ := hab'.enter hc hu (k:=.rwPend l write (hasLimit n)) rfl rfl
  obtain ⟨hvc,-⟩ := Sched.enter_view (s:=k.sched) (t:=k.sched.cpu.runningTask)
    (.rwPend l write (hasLimit n))
  have hm1 : Sched.Moved False False k.sched (k.sched.osRwLockPendPre l write n)
      k.sched.cpu.runningTask (.rw l write) := by
    refine hm.pendRw hvc _ nofun fun hne => ?_
    rw [hvc,hasLimit,decide_eq_true hne]
    rfl
  have hpend : ((k.sched.osRwLockPendPre l write n).status k.sched.cpu.runningTask).rwPend=true :=
    hm1.fits.rwPend
  have hlease : ∀ t, (k.sched.osRwLockPendPre l write n).lease t=k.sched.lease t := by
    intro t
    by_cases e : t=k.sched.cpu.runningTask
    . subst e
      rw [Sched.lease,Cont.lease_of_pend hpend,Sched.lease,hu]
      exact (Cont.lease_of_none rfl _).symm
    exact congrArg (fun v : TaskView => v.cont.lease v.bits) (hm1.frame t e)
  have hgr : ∀ l', (k.sched.osRwLockPendPre l write n).granted l'=k.sched.granted l' :=
    Sched.granted_congr hm1.cfg fun t _ => hlease t
  unfold rwPendSchedule Sched.osRwLockPendSchedule
  split
  . exact h
  have hone : ({k with sched:=k.sched.osRwLockPendPre l write n} : Kernel).RwOk := by
    refine h.of_one (l:=l) ?_ (fun _ _ => rfl) (fun _ _ => rfl) (fun l' _ => .of_eq (hgr l'))
      (fun l' hl' w => ?_) ?_
    . have he : ({k with sched:=k.sched.osRwLockPendPre l write n} : Kernel).rwHolders l =
          k.rwHolders l := congrArg (k.rwHolds l ++ ·) (hgr l)
      rw [he]
      cases h.each l with
      | writer t hc hh => exact .writer t hc hh
      | readers n' hc hn hr hf =>
        refine .readers n' hc hn hr fun h0 => absurd ?_ hz
        rw [hc,h0]
        rfl
    . have hne : PendHead.rw l' w≠.rw l write := fun he => hl' (PendHead.rw.inj he).1
      change ((k.sched.osRwLockPendPre l write n).pend.lists (.rw l' w)).Sublist _
      rw [osRwLockPendPre_pend,Links.insert_lists_ne _ _ _ hne,Links.delete_lists_eq]
      exact erase_sublist
    intro t ht
    rw [hm1.cfg] at ht
    exact (congrArg Prod.snd (hlease t)).trans (h.fresh t ht)
  exact hone.schedule

section calls

variable {c u : Prop} (h : k.RwOk) (hab : Sched.Able c u k.sched)
  (hb : k.sched.cpu.bgdActive=true)
  (hu : k.sched.cpu.taskContext=true → k.sched.cont k.sched.cpu.runningTask=.user)

include h hab hb hu

lemma osRwLockRdPend_ok (l n : Nat) (try_ : Bool) : (k.osRwLockRdPend l n try_).1.RwOk := by
  simp only [osRwLockRdPend]
  split
  . exact h
  next hok =>
  split
  . exact h
  split
  . next hfast =>
    split
    . exact h
    apply h.held
    cases h.each l with
    | writer t hc hh =>
      rw [hc] at hfast
      exact absurd hfast.1 (by simp)
    | readers m hc hm hr hf =>
      refine .readers (m+1) ?_ ?_ ?_ (by simp)
      . rw [hc]
        simp
      . rw [length_cons,hm]
      exact forall_mem_cons.mpr ⟨rfl,hr⟩
  next hslow =>
  split
  . exact h
  have hc := Sched.taskContext_of hb (by simp [(osRwLockCheck_ok (not_not.mp hok)).1])
  refine rwPendSchedule_ok h hab hc (hu hc) (fun hz => hslow ?_) false n
  -- nobody waits for a lock that is free, so a reader gets it
  cases h.each l with
  | writer t hc hh =>
    rw [hc] at hz
    cases hz
  | readers m hc hm hr hf =>
    have hm0 : m=0 := by
      rw [hc] at hz
      exact Int.ofNat_eq_zero.mp hz
    have hnil : k.sched.pend.lists (.rw l true)=[] := hf hm0 true
    refine ⟨Int.le_of_eq hz.symm,?_⟩
    rw [Sched.osRwlockPriCompare,hnil]

lemma osRwLockWrPend_ok (l n : Nat) (try_ : Bool) : (k.osRwLockWrPend l n try_).1.RwOk := by
  simp only [osRwLockWrPend]
  split
  . exact h
  next hok =>
  split
  . exact h
  split
  . next hz =>
    refine h.held (.writer _ rfl ?_)
    cases h.each l with
    | writer t hc hh =>
      rw [hc] at hz
      cases hz
    | readers m hc hm hr hf =>
      rw [hc] at hz
      have hm0 : m=0 := Int.ofNat_eq_zero.mp hz
      rw [hm0] at hm
      rw [length_eq_zero_iff.mp hm]
  next hz =>
  split
  . exact h
  have hc := Sched.taskContext_of hb (by simp [(osRwLockCheck_ok (not_not.mp hok)).1])
  exact rwPendSchedule_ok h hab hc (hu hc) hz true n

end calls

section rest

variable {c u : Prop} {t : Nat} {write : Bool}

lemma RwOk.returned (h : k.RwOk) {s' : Sched} (hcfg : s'.cfg=k.sched.cfg)
    (hpend : s'.pend=k.sched.pend) (hle : t≤k.sched.cfg.tskMaxNum)
    (hold : k.sched.grant t=some (l,write)) (hnew : s'.lease t=(none,false))
    (hne : ∀ t'≠t, s'.lease t'=k.sched.lease t') :
    ({k with sched:=s'}.rwHeld l t write).RwOk := by
  have hle' : t ≤ s'.cfg.tskMaxNum := by rwa [hcfg]
  obtain ⟨hhere,hthere⟩ := Sched.granted_cons hcfg.symm hle' (congrArg Prod.fst hnew) hold
    fun t' e => (hne t' e).symm
  refine h.of_one (l:=l) ?_ (fun _ _ => rfl) (fun l' hl' => update_of_ne hl' _ _)
    (fun l' hl' => (hthere l' hl').symm) (fun l' _ w => ?_) fun t' ht => ?_
  . refine (h.each l).mono ?_ fun hf w => ?_
    . simp only [rwHolders,rwHeld,update_self,List.cons_append]
      exact perm_middle.symm.trans (hhere.symm.append_left _)
    change s'.pend.lists _=[]
    rw [hpend]
    exact hf w
  . change (s'.pend.lists _).Sublist _
    rw [hpend]
    exact .refl _
  by_cases e : t'=t
  . rw [e]
    exact congrArg Prod.snd hnew
  exact (congrArg Prod.snd (hne t' e)).trans (h.fresh t' (hcfg ▸ ht))

lemma RwOk.went (h : k.RwOk) {s' : Sched} (hcfg : s'.cfg=k.sched.cfg)
    (hpend : s'.pend=k.sched.pend) (hlease : ∀ t, s'.lease t=k.sched.lease t) :
    ({k with sched:=s'} : Kernel).RwOk := by
  refine h.of_calm hcfg rfl rfl (fun l w => ?_) fun t _ => hlease t
  change (s'.pend.lists _).Sublist _
  rw [hpend]
  exact .refl _

variable (h : k.RwOk) (hab : Sched.Able c u k.sched) (hc : k.sched.cpu.taskContext=true)

include hab hc in
lemma running_not_pend : (k.sched.status k.sched.cpu.runningTask).inuse=true ∧
      (k.sched.status k.sched.cpu.runningTask).rwPend=false := by
  obtain ⟨m,hf,hr⟩ := hab.run.runnable (hab.run.real hc)
  have h1 : (k.sched.status k.sched.cpu.runningTask).inuse=m.bits.inuse := hf.inuse
  have h2 : (k.sched.status k.sched.cpu.runningTask).rwPend=m.bits.rwPend := hf.rwPend
  rcases TskMode.eq_of_runnable hr with rfl | rfl
  . exact ⟨h1,h2⟩
  exact ⟨h1,h2⟩

lemma setCont_lease_ne (s : Sched) {t t' : Nat} (hne : t'≠t) (x : Cont) :
    (s.setCont t x).lease t'=s.lease t' := by
  simp only [Sched.lease,Sched.setCont,update_of_ne hne,Sched.status]

lemma setCont_lease_self (s : Sched) (t : Nat) (x : Cont) :
    (s.setCont t x).lease t=x.lease (s.status t) := by
  simp only [Sched.lease,Sched.setCont,update_self,Sched.status]

include h hab hc

lemma returned_user (hrw : (k.sched.cont k.sched.cpu.runningTask).rwOf=some (l,write))
    (hto : (k.sched.status k.sched.cpu.runningTask).timeout=false) :
    ({k with sched:=k.sched.setCont k.sched.cpu.runningTask .user}.rwHeld l
      k.sched.cpu.runningTask write).RwOk := by
  obtain ⟨hin,hp⟩ := running_not_pend hab hc
  refine h.returned rfl rfl (hab.run.real hc) ?_ ?_ fun t' e => setCont_lease_ne k.sched e _
  . simp only [Sched.grant,Cont.grant,hin,hp,hto,hrw]
    rfl
  rw [setCont_lease_self]
  exact Cont.lease_of_none rfl _

lemma rwPendRest_ok {timed : Bool}
    (hk : k.sched.cont k.sched.cpu.runningTask=.rwPend l write timed) :
    (k.rwPendRest l write timed).1.RwOk := by
  have hrw : (k.sched.cont k.sched.cpu.runningTask).rwOf=some (l,write) := by
    rw [hk]
    rfl
  obtain ⟨hin,hp⟩ := running_not_pend hab hc
  unfold rwPendRest Sched.rwPendCont
  cases timed with
  | true =>
    simp only [if_true,if_false,reduceCtorEq]
    refine h.went rfl rfl fun t => ?_
    by_cases e : t=k.sched.cpu.runningTask
    . rw [e,setCont_lease_self,Sched.lease,hk]
      simp [Cont.lease,Cont.grant,Cont.overdue,Cont.timed,Cont.rwOf]
    exact setCont_lease_ne k.sched e _
  | false =>
    apply returned_user h hab hc hrw
    have hf := h.fresh _ (hab.run.real hc)
    rw [Sched.overdue,hk] at hf
    simpa [Cont.overdue,Cont.rwOf,Cont.timed,hin,hp] using hf

lemma rwCheckRest_ok (hk : k.sched.cont k.sched.cpu.runningTask=.rwCheck l write) :
    (k.rwCheckRest l write).1.RwOk := by
  have hrw : (k.sched.cont k.sched.cpu.runningTask).rwOf=some (l,write) := by
    rw [hk]
    rfl
  simp only [rwCheckRest,Sched.rwCheckCont]
  split
  . next hto =>
    have hto' : (k.sched.status k.sched.cpu.runningTask).timeout=true := hto
    refine h.went rfl rfl fun t => ?_
    by_cases e : t=k.sched.cpu.runningTask
    . have h1 : k.sched.lease t=(none,false) := by
        rw [e,Sched.lease,hk]
        simp [Cont.lease,Cont.grant,Cont.overdue,Cont.timed,hto']
      rw [h1,e]
      simp only [Sched.lease,Sched.modStatus,Sched.modTcb,Sched.setCont,update_self]
      exact Cont.lease_of_none rfl _
    simp [Sched.lease,Sched.setCont,Sched.modStatus,Sched.modTcb,Sched.status,e]
  next hto =>
  have hto' : (k.sched.status k.sched.cpu.runningTask).timeout=false := by
    simpa [Sched.status,Sched.setCont] using hto
  exact returned_user h hab hc hrw hto'

end rest

end Kernel

/-- Only a task that has an rwlock unlocks it, and no task is deleted while it returns with one. -/
def Input.keepsHolds (k : Kernel) : Input → Prop
  | .call (.rwUnlock l) => ∃ write, (k.sched.cpu.runningTask,write)∈k.rwHolds l
  | .call (.taskDelete t) => k.sched.grant t=none
  | _ => True

namespace Kernel

variable {k : Kernel} {a : Input}

lemma lives_grant (h : k.RwOk) (hab : Sched.Able False False k.sched) (hp : a.plain=true)
    (ha : a.keepsHolds k) (hen : k.enabled a=true) {t : Nat} (hle : t≤k.sched.cfg.tskMaxNum)
    (hx : (k.sched.status t).inuse=false ∨ Deletes k.sched a t) :
    (k.act a).1.sched.lease t=k.sched.lease t := by
  rcases hx with hin | hd
  . rw [show k.sched.lease t=_ from Cont.lease_of_unused hin]
    rcases act_born hab hen (Input.plain_ok hp k) hle hin with hin' | hu
    . exact Cont.lease_of_unused hin'
    rw [Sched.lease,hu.cont]
    exact Cont.lease_of_none rfl _
  have hnone : k.sched.grant t=none := by
    cases a with
    | call call =>
      cases call with
      | taskDelete t' =>
        obtain rfl : t=t' := hd
        exact ha
      | taskExit =>
        obtain rfl : t=k.sched.cpu.runningTask := hd
        have hm := (enabled_call hen).2
        rw [Sched.grant,hm.user (hm.task rfl)]
        exact congrArg Prod.fst (Cont.lease_of_none rfl _)
      | _ => exact hd.elim
    | _ => exact hd.elim
  rcases act_gone hd with hin' | ⟨x,ht,hk⟩
  . exact (Cont.lease_of_unused hin').trans (Prod.ext hnone.symm (h.fresh t hle).symm)
  have hs : (k.act a).1.sched.status t=k.sched.status t := by
    rw [Sched.status,ht]
    rfl
  simp only [Sched.lease,hk,hs]

/-- Every input keeps the locks and their holders in step. -/
lemma RwOk.act (h : k.RwOk) (hf : Fine False False False False False k) (hp : a.plain=true)
    (ha : a.keepsHolds k) (hen : k.enabled a=true) : (k.act a).1.RwOk := by
  have hab := hf.able .none (enabled_alive hen)
  have hcalm (hpart : k.inputPart a≠.rw) : (k.act a).1.RwOk := by
    have hq := act_quiet (Sched.rw_quiet (k.Turns a)) hab hen (Input.plain_ok hp k) (within_turns
      (fun t ht => ⟨ht,trivial⟩) trivial trivial (fun _ => trivial) (fun _ _ => trivial)
      (fun hr => absurd hr hpart) fun _ => trivial)
    have hcfg := (act_keeps hab hf.sem False.elim hen (Input.plain_ok hp k)).cfg
    obtain ⟨h1,h2⟩ := (k.act_only a).rwlocks hpart
    refine h.of_calm hcfg h1 h2 (fun l w => hq.lists l w) fun t hle => ?_
    by_cases hx : (k.sched.status t).inuse=false ∨ Deletes k.sched a t
    . exact lives_grant h hab hp ha hen hle hx
    exact hq.lease t (not_turns hle ((Bool.not_eq_false _).mp fun hi => hx (.inl hi))
      fun hd => hx (.inr hd))
  cases a with
  | call call =>
    have hm := (enabled_call hen).2
    cases call with
    | rwRead l n try_ => exact osRwLockRdPend_ok h hab (hm.bgd.resolve_right (by rintro ⟨⟩)) hm.user l n try_
    | rwWrite l n try_ => exact osRwLockWrPend_ok h hab (hm.bgd.resolve_right (by rintro ⟨⟩)) hm.user l n try_
    | rwUnlock l => exact rwUnlock_ok h hab ha
    | _ => exact hcalm (by rintro ⟨⟩)
  | proceed =>
    have hc : k.sched.cpu.taskContext=true := by
      simp only [enabled,Bool.and_eq_true] at hen
      exact hen.2.1
    by_cases hpart : k.inputPart .proceed=.rw
    . unfold inputPart at hpart
      change k.proceed.1.RwOk
      unfold proceed
      cases hk : k.sched.cont k.sched.cpu.runningTask with
      | rwPend l write timed => exact rwPendRest_ok h hab hc hk
      | rwCheck l write => exact rwCheckRest_ok h hab hc hk
      | _ => rw [hk] at hpart; cases hpart
    exact hcalm hpart
  | _ => exact hcalm (by rintro ⟨⟩)

lemma init_rwOk (cfg : Cfg) : (init cfg).RwOk := by
  have hnone : ∀ t, (init cfg).sched.grant t=none := fun t =>
    congrArg Prod.fst (Cont.lease_of_none rfl _)
  refine ⟨fun l => .readers 0 rfl ?_ ?_ fun _ w => init_lists cfg nofun,
    fun t _ => congrArg Prod.snd (Cont.lease_of_none rfl _)⟩
  all_goals
    have hnil : (init cfg).rwHolders l=[] := by
      refine filterMap_eq_nil_iff.mpr fun t _ => ?_
      rw [hnone]
      rfl
    rw [hnil]
  . rfl
  nofun

/-- The tasks that hold the lock for writing. -/
def rwWriters (k : Kernel) (l : Nat) : List Nat := ((k.rwHolders l).filter (·.2)).map (·.1)

/-- The number of holds for reading. -/
def rwReads (k : Kernel) (l : Nat) : Nat := (k.rwHolders l).countP (!·.2)

end Kernel

/-- What the word of an rwlock says about its holders and waiting tasks. -/
structure RwSafe (k : Kernel) (l : Nat) : Prop where
  writer : (k.rwlocks l).rwCount = -1 ↔ ∃ t, k.rwWriters l=[t] ∧ (k.rwlocks l).rwOwner=some t
  readers : ∀ n : Nat, 0<n → ((k.rwlocks l).rwCount=n ↔ k.rwReads l=n ∧ k.rwWriters l=[])
  free : (k.rwlocks l).rwCount=0 →
    (k.rwlocks l).rwOwner=none ∧ k.rwList l false=[] ∧ k.rwList l true=[]

lemma RwSafe.of_ok {k : Kernel} {l : Nat}
    (h : (k.rwlocks l).Ok (k.rwFree l) (k.rwHolders l)) : RwSafe k l := by
  cases h with
  | writer t hc hh =>
    have hw : k.rwWriters l=[t] := by simp [Kernel.rwWriters,hh]
    refine ⟨?_,fun n hn => ?_,?_⟩
    . rw [hc]
      exact ⟨fun _ => ⟨t,hw,rfl⟩,fun _ => rfl⟩
    . rw [hc]
      refine ⟨fun he => ?_,fun he => ?_⟩
      . dsimp only at he
        omega
      rw [hw] at he
      cases he.2
    rw [hc]
    nofun
  | readers m hc hm hr hf =>
    have hw : k.rwWriters l=[] := by
      simp only [Kernel.rwWriters,map_eq_nil_iff,filter_eq_nil_iff]
      intro x hx
      rw [hr x hx]
      nofun
    have hrd : k.rwReads l=m := by
      rw [Kernel.rwReads,← hm,countP_eq_length]
      intro x hx
      rw [hr x hx]
      rfl
    refine ⟨?_,fun n hn => ?_,?_⟩
    . rw [hc]
      refine ⟨fun he => ?_,fun ⟨t,_,ho⟩ => nomatch ho⟩
      dsimp only at he
      omega
    . rw [hc,hw,hrd]
      simp only [and_true]
      omega
    rw [hc]
    refine fun he => ⟨rfl,?_⟩
    have hz : m=0 := by
      dsimp only at he
      omega
    exact ⟨hf hz false,hf hz true⟩

open Kernel

theorem rwlock_safe {cfg : Cfg} {k : Kernel} (h : (kernelMachine cfg).Reaches
      (fun k a => a.plain=true ∧ a.keepsHolds k) k) (l : Nat) : RwSafe k l := by
  have hfine : ∀ k, (kernelMachine cfg).Reaches (fun k a => a.plain=true ∧ a.keepsHolds k) k →
      Fine False False False False False k :=
    fun k hk => fine_of_plain (hk.mono fun _ _ ha => ha.1)
  have hok : k.RwOk := by
    refine h.invariant_of hfine ?_ fun k a hf hk ha => ?_
    . rintro k rfl
      exact init_rwOk cfg
    change (k.step a).RwOk
    unfold Kernel.step
    split
    . next hen => exact hk.act hf ha.1 ha.2 hen
    exact hk
  exact .of_ok (hok.each l)

def rwInputs : List Input :=
  [.call (.taskCreate (smallTask 9) true false),.call (.taskResume 0),
   .call (.taskCreate (smallTask 5) true false),.activate true,
   .call (.rwWrite 0 osWaitForever false),.call (.taskResume 1),.call (.rwRead 0 7 false),
   .call (.rwUnlock 0)]

theorem rwlock_safe_granted :
    let k := (kernelMachine smallCfg).run (Kernel.init smallCfg) rwInputs
    (k.rwlocks 0).rwCount=1 ∧ k.rwHolds 0=[] ∧ k.rwHolders 0=[(1,false)] ∧ RwSafe k 0 := by
  have hrun : (kernelMachine smallCfg).Reaches (fun k a => a.plain=true ∧ a.keepsHolds k)
      ((kernelMachine smallCfg).run (Kernel.init smallCfg) rwInputs) := by
    apply Machine.Reaches.run (.start rfl) _
    refine ⟨⟨rfl,trivial⟩,⟨rfl,trivial⟩,⟨rfl,trivial⟩,⟨rfl,trivial⟩,⟨rfl,trivial⟩,
      ⟨rfl,trivial⟩,⟨rfl,trivial⟩,⟨rfl,true,?_⟩,trivial⟩
    decide +kernel
  refine ⟨?_,?_,?_,rwlock_safe hrun 0⟩
  all_goals decide +kernel

end UniProton
