import UniProton.Om.Hook

namespace UniProton.Om

open Framework Function List

/-- What the module is for: a set of hooks for each type, and the change handlers that were told. -/
structure HookSets where
  live : Nat → Finset Nat := fun _ => ∅
  calls : List (Nat×HookChgType) := []

namespace HookSets

variable (num : Nat → Nat) (handler : Nat → Bool) (s : HookSets)

def setLive (hookType : Nat) (live : Finset Nat) : HookSets :=
  {s with live:=update s.live hookType live}

def ask (hookType : Nat) (chgType : HookChgType) (answer : Nat) (live : Finset Nat) :
    HookSets×HookRet :=
  if handler hookType then
    let s := {s with calls:=(hookType,chgType)::s.calls}
    if answer=0 then (s.setLive hookType live,.ok) else (s,.refused answer)
  else (s.setLive hookType live,.ok)

def add (hookType hook answer : Nat) : HookSets×HookRet :=
  if hook∈s.live hookType then (s,.existed)
  else if (s.live hookType).card=num hookType then (s,.full)
  else if s.live hookType = ∅ then s.ask handler hookType .addFirst answer {hook}
  else (s.setLive hookType (insert hook (s.live hookType)),.ok)

def del (hookType hook answer : Nat) : HookSets×HookRet :=
  if hook∉s.live hookType then (s,.notExisted)
  else if s.live hookType={hook} then s.ask handler hookType .delLast answer ∅
  else (s.setLive hookType ((s.live hookType).erase hook),.ok)

def exec : HookOp → HookSets×HookRet
  | .add hookType hook answer =>
    if osShookTypeStart≤hookType then (s,.typeInvalid)
    else if num hookType=0 then (s,.notCfg)
    else s.add num handler hookType hook answer
  | .del hookType hook answer =>
    if osShookTypeStart≤hookType then (s,.typeInvalid)
    else if num hookType=0 then (s,.notCfg)
    else s.del handler hookType hook answer

def runOps : HookSets → List HookOp → HookSets×List HookRet
  | s, [] => (s,[])
  | s, op::ops =>
    let r := s.exec num handler op
    let rs := r.1.runOps ops
    (rs.1,r.2::rs.2)

end HookSets

/-- A table with the hooks of a set: each stands in it once, the last place in use is one of them,
and behind it the table is empty. -/
structure IsTable (block : List Nat) (b n : Nat) (l : List (Option Nat)) (live : Finset Nat) :
    Prop where
  holds : Holds block b n l
  tidy : Slots.Tidy l
  real : Real l
  nodup : l.reduceOption.Nodup
  set : l.reduceOption.toFinset=live

namespace IsTable

variable {block : List Nat} {b n hook : Nat} {l : List (Option Nat)} {live : Finset Nat}

lemma mem_iff (h : IsTable block b n l live) : hook∈l.reduceOption ↔ hook∈live := by
  rw [← h.set,mem_toFinset]

lemma card_eq (h : IsTable block b n l live) : l.reduceOption.length=live.card := by
  rw [← h.set,toFinset_card_of_nodup h.nodup]

lemma put (h : IsTable block b n l live) (hook_real : osMhookNodeDead<hook)
    (hnew : hook∉live) (hn : live.card<n) :
    IsTable (block.set (b+l.idxOf none) hook) b n (Slots.put l hook) (insert hook live) := by
  have hp := Slots.put_perm l hook
  have hlen : l.reduceOption.length<n := h.card_eq.symm ▸ hn
  refine ⟨?_,Slots.put_tidy h.tidy hook,fun x hx => ?_,?_,?_⟩
  . unfold Slots.put
    split
    . next hmem => exact h.holds.set_at (idxOf_lt_length_of_mem hmem) (some hook)
    next hmem =>
    rw [idxOf_eq_length hmem]
    refine h.holds.set_end ?_ (some hook)
    have hle := Slots.put_length_le h.holds.length_le hlen hook
    rw [Slots.put,if_neg hmem,length_append,length_singleton] at hle
    exact hle
  . rcases mem_cons.mp (hp.mem_iff.mp hx) with rfl | hx
    . exact hook_real
    exact h.real x hx
  . rw [hp.nodup_iff,nodup_cons]
    exact ⟨fun hm => hnew (h.mem_iff.mp hm),h.nodup⟩
  rw [toFinset_eq_of_perm _ _ hp,toFinset_cons,h.set]

lemma removed (h : IsTable block b n l live) (hmem : hook∈live) {block' : List Nat}
    (hb : Holds block' b n (Slots.remove l hook)) :
    IsTable block' b n (Slots.remove l hook) (live.erase hook) := by
  have hp := Slots.remove_perm (h.mem_iff.mpr hmem)
  have hnd := hp.nodup_iff.mp h.nodup
  rw [nodup_cons] at hnd
  refine ⟨hb,Slots.remove_tidy h.tidy (h.mem_iff.mpr hmem),fun x hx => ?_,hnd.2,?_⟩
  . exact h.real x (hp.mem_iff.mpr (mem_cons_of_mem hook hx))
  have hset := toFinset_eq_of_perm _ _ hp
  rw [h.set,toFinset_cons] at hset
  rw [hset,Finset.erase_insert]
  rw [mem_toFinset]
  exact hnd.1

lemma clear (h : IsTable block b n l live) (hmem : hook∈live) : ∃ block',
    (∀ k : Hooks, k.block=block → k.clearHook b (b+l.idxOf (some hook)) =
      some ({k with block:=block'},.ok)) ∧
    IsTable block' b n (Slots.remove l hook) (live.erase hook) ∧ Apart block block' b n := by
  have hin : some hook∈l := reduceOption_mem_iff.mp (h.mem_iff.mpr hmem)
  have hidx := idxOf_lt_length_of_mem hin
  have hle := h.holds.length_le
  have hapart (v : Nat) : Apart block (block.set (b+l.idxOf (some hook)) v) b n :=
    Apart.set (fun _ _ _ _ hl => hl) (Nat.le_add_right _ _) (by omega) v
  by_cases hnext : l.idxOf (some hook)+1<l.length
  . have hget : block[b+l.idxOf (some hook)+1]? =
        l[l.idxOf (some hook)+1]?.map slotWord := h.holds.get_of_lt hnext
    refine ⟨block.set (b+l.idxOf (some hook)) osMhookNodeDead,fun k hk => ?_,?_,hapart _⟩
    . rw [Hooks.clearHook,hk,hget,List.getElem?_eq_getElem hnext,Option.map_some]
      simp only [h.real.isValid (getElem_mem hnext),if_true]
    apply h.removed hmem
    rw [Slots.remove,if_pos hnext]
    exact h.holds.set_at hidx none
  -- The hook is the last entry, so that what follows is the end of the table.
  have hlen : l.idxOf (some hook)+1=l.length := by omega
  have hget := h.holds.get_length
  obtain ⟨l1,l2,rfl,hlen1⟩ := Slots.exists_split hin
  have hl2 : l2=[] := by
    rw [← hlen1,length_append,length_cons] at hlen
    exact length_eq_zero_iff.mp (by omega)
  subst hl2
  rw [← hlen,← hlen1] at hget
  have hreal : Real l1 := fun z hz => h.real z (by
    rw [reduceOption_append]
    exact mem_append_left _ hz)
  obtain ⟨hback,hfar⟩ := clearBack_holds hreal h.holds.clear_end (hlen1 ▸ hapart osHookEmpty)
  refine ⟨_,fun k hk => ?_,?_,hfar⟩
  . rw [Hooks.clearHook,hk,← hlen1,Nat.add_assoc,hget]
    simp only [mhookIsValid_end (show (if l1.length+1=n then osMhookBoundary
      else osHookEmpty)≤osMhookBoundary by split <;> decide),Bool.false_eq_true,if_false]
  apply h.removed hmem
  rw [Slots.remove_of_mem hlen1,if_pos rfl]
  exact hback

lemma place (h : IsTable block b n l live) :
    addPlace block (b+l.length) (if none∈l then some (b+l.idxOf none) else none) =
      if live.card=n then none else some (b+l.idxOf none) := by
  have hle := h.holds.length_le
  by_cases hmem : none∈l
  . have hlt := reduceOption_length_lt_iff.mpr hmem
    rw [h.card_eq] at hlt
    have hne : live.card≠n := by omega
    simp only [if_pos hmem,if_neg hne,addPlace]
  have hlen : l.length=live.card := by
    rw [← h.card_eq]
    have hnot := mt reduceOption_length_lt_iff.mp hmem
    have hle := reduceOption_length_le l
    omega
  rw [if_neg hmem,addPlace,h.holds.get_length,idxOf_eq_length hmem,hlen]
  by_cases hn : live.card=n
  . simp [hn]
  simp [hn,osMhookBoundary,osHookEmpty]

lemma activate (h : IsTable block b n l live) :
    activateScan (block.drop b)=some l.reduceOption := by
  obtain ⟨x,rest,hdrop,hx⟩ := h.holds.walk
  rw [hdrop]
  exact activateScan_eq h.real hx

end IsTable

/-- The tables hold the sets. -/
structure Hooks.Shows (num : Nat → Nat) (k : Hooks) (s : HookSets) : Prop where
  calls : k.calls=s.calls
  absent : ∀ t<osShookTypeStart, num t=0 → k.mulHook t=none
  tables : ∀ t<osShookTypeStart, 0<num t → ∃ b l, k.mulHook t=some b ∧
    IsTable k.block b (num t) l (s.live t)
  apart : ∀ t t' b b', t≠t' → k.mulHook t=some b → k.mulHook t'=some b' →
    b+num t<b' ∨ b'+num t'<b

namespace Hooks

variable {num : Nat → Nat} {handler : Nat → Bool} {k : Hooks} {s : HookSets}
  {t b hook : Nat} {l : List (Option Nat)} {live : Finset Nat} {block : List Nat}

lemma Shows.change (h : k.Shows num s) (hb : k.mulHook t=some b)
    (hl : IsTable block b (num t) l live) (ha : Apart k.block block b (num t)) :
    Shows num {k with block:=block} (s.setLive t live) := by
  refine ⟨h.calls,h.absent,fun t' ht' hn => ?_,h.apart⟩
  by_cases he : t'=t
  . subst he
    refine ⟨b,l,hb,?_⟩
    simp only [HookSets.setLive,update_self]
    exact hl
  obtain ⟨b',l',hb',htab⟩ := h.tables t' ht' hn
  refine ⟨b',l',hb',?_⟩
  simp only [HookSets.setLive,update_of_ne he]
  have happ := h.apart t' t b' b he hb' hb
  exact ⟨ha b' (num t') l' happ htab.holds,htab.tidy,htab.real,htab.nodup,htab.set⟩

lemma Shows.logged (h : k.Shows num s) (x : Nat×HookChgType) :
    Shows num {k with calls:=x::k.calls} {s with calls:=x::s.calls} :=
  ⟨congrArg (x :: ·) h.calls,h.absent,h.tables,h.apart⟩

lemma Shows.asked (h : k.Shows num s)
    (hw : Shows num {k with block:=block} (s.setLive t live))
    {f : Hooks → Option (Hooks×HookRet)}
    (hf : ∀ k' : Hooks, k'.block=k.block → f k'=some ({k' with block:=block},.ok))
    {first : Prop} [Decidable first] (chgType : HookChgType) (answer : Nat) :
    ∃ k', k.change handler first t chgType answer f =
      some (k',(if first then s.ask handler t chgType answer live
        else (s.setLive t live,.ok)).2) ∧
      k'.Shows num (if first then s.ask handler t chgType answer live
        else (s.setLive t live,.ok)).1 := by
  by_cases hfirst : first
  swap
  . simp only [Hooks.change,if_neg hfirst,if_true]
    exact ⟨_,hf k rfl,hw⟩
  cases hh : handler t with
  | false =>
    simp only [Hooks.change,if_pos hfirst,notify,HookSets.ask,hh,Bool.false_eq_true,if_false,if_true]
    exact ⟨_,hf k rfl,hw⟩
  | true =>
    simp only [Hooks.change,if_pos hfirst,notify,HookSets.ask,hh,if_true]
    split
    . exact ⟨_,hf _ rfl,hw.logged (t,chgType)⟩
    exact ⟨_,rfl,h.logged (t,chgType)⟩

lemma Shows.osMhookAdd (h : k.Shows num s) (hook_real : osMhookNodeDead<hook)
    (ht : t<osShookTypeStart) (hn : 0<num t) (answer : Nat) :
    ∃ k', k.osMhookAdd handler t hook answer=some (k',(s.add num handler t hook answer).2) ∧
      k'.Shows num (s.add num handler t hook answer).1 := by
  obtain ⟨b,l,hb,htab⟩ := h.tables t ht hn
  obtain ⟨x,rest,hdrop,hx⟩ := htab.holds.walk
  have hne : hook≠osHookEmpty := Nat.ne_of_gt (Nat.lt_trans (by decide) hook_real)
  unfold Hooks.osMhookAdd HookSets.add
  simp only [if_neg (Nat.not_le_of_lt ht),if_neg hne,hb,hdrop,addScan_eq htab.real hx,
    htab.mem_iff,htab.card_eq,Nat.zero_add,Option.none_or]
  by_cases hmem : hook∈s.live t
  . simp only [if_pos hmem]
    exact ⟨k,rfl,h⟩
  simp only [if_neg hmem,htab.place]
  by_cases hfull : (s.live t).card=num t
  . simp only [if_pos hfull]
    exact ⟨k,rfl,h⟩
  have hlt : (s.live t).card<num t := by
    have hle := Nat.le_trans (reduceOption_length_le l) htab.holds.length_le
    rw [htab.card_eq] at hle
    omega
  have hput := htab.put hook_real hmem hlt
  have hapart : Apart k.block (k.block.set (b+l.idxOf none) hook) b (num t) := by
    refine Apart.set (fun _ _ _ _ hl => hl) (Nat.le_add_right _ _) ?_ hook
    have hidx := idxOf_le_length (a:=none) (l:=l)
    have hle := htab.holds.length_le
    omega
  have hins : (if s.live t = ∅ then s.ask handler t .addFirst answer {hook}
      else (s.setLive t (insert hook (s.live t)),HookRet.ok)) =
      if s.live t = ∅ then s.ask handler t .addFirst answer (insert hook (s.live t))
        else (s.setLive t (insert hook (s.live t)),.ok) := by
    split
    . next he => rw [he,insert_empty_eq]
    rfl
  simp only [if_neg hfull,Finset.card_eq_zero,hins]
  exact h.asked (h.change hb hput hapart) (fun k' hk' => by rw [writeHook,hk']) .addFirst answer

lemma Shows.osMhookDel (h : k.Shows num s) (hook_real : osMhookNodeDead<hook)
    (ht : t<osShookTypeStart) (hn : 0<num t) (answer : Nat) :
    ∃ k', k.osMhookDel handler t hook answer=some (k',(s.del handler t hook answer).2) ∧
      k'.Shows num (s.del handler t hook answer).1 := by
  obtain ⟨b,l,hb,htab⟩ := h.tables t ht hn
  obtain ⟨x,rest,hdrop,hx⟩ := htab.holds.walk
  have hne : hook≠osHookEmpty := Nat.ne_of_gt (Nat.lt_trans (by decide) hook_real)
  unfold Hooks.osMhookDel HookSets.del
  simp only [if_neg (Nat.not_le_of_lt ht),if_neg hne,hb,hdrop,
    delScan_eq htab.real htab.nodup hx,htab.mem_iff,htab.card_eq,Nat.zero_add]
  by_cases hmem : hook∈s.live t
  swap
  . simp only [if_neg hmem,if_pos hmem]
    exact ⟨k,rfl,h⟩
  have hlast : (s.live t).card=1 ↔ s.live t={hook} := by
    rw [Finset.card_eq_one]
    refine ⟨fun ⟨y,hy⟩ => ?_,fun hy => ⟨hook,hy⟩⟩
    rw [hy,Finset.mem_singleton] at hmem
    rw [hy,hmem]
  have hers : (if s.live t={hook} then s.ask handler t .delLast answer ∅
      else (s.setLive t ((s.live t).erase hook),HookRet.ok)) =
      if s.live t={hook} then s.ask handler t .delLast answer ((s.live t).erase hook)
        else (s.setLive t ((s.live t).erase hook),.ok) := by
    split
    . next he => rw [he,Finset.erase_singleton]
    rfl
  simp only [if_pos hmem,if_neg (not_not_intro hmem),hlast,hers]
  obtain ⟨block,hclear,hrem,hapart⟩ := htab.clear hmem
  exact h.asked (h.change hb hrem hapart) hclear .delLast answer

lemma Shows.exec (h : k.Shows num s) (handler : Nat → Bool) {op : HookOp} (hop : osMhookNodeDead<op.hook) :
    ∃ k', k.exec handler op=some (k',(s.exec num handler op).2) ∧
      k'.Shows num (s.exec num handler op).1 := by
  have hne : op.hook≠osHookEmpty := Nat.ne_of_gt (Nat.lt_trans (by decide) hop)
  cases op with
  | add t hook answer =>
    simp only [HookOp.hook] at hop hne
    by_cases ht : osShookTypeStart≤t
    . simp only [Hooks.exec,Hooks.osMhookAdd,HookSets.exec,if_pos ht]
      exact ⟨k,rfl,h⟩
    by_cases hn : num t=0
    . simp only [Hooks.exec,Hooks.osMhookAdd,HookSets.exec,if_neg ht,if_neg hne,if_pos hn,
        h.absent t (Nat.lt_of_not_le ht) hn]
      exact ⟨k,rfl,h⟩
    simp only [Hooks.exec,HookSets.exec,if_neg ht,if_neg hn]
    exact h.osMhookAdd hop (Nat.lt_of_not_le ht) (Nat.pos_of_ne_zero hn) answer
  | del t hook answer =>
    simp only [HookOp.hook] at hop hne
    by_cases ht : osShookTypeStart≤t
    . simp only [Hooks.exec,Hooks.osMhookDel,HookSets.exec,if_pos ht]
      exact ⟨k,rfl,h⟩
    by_cases hn : num t=0
    . simp only [Hooks.exec,Hooks.osMhookDel,HookSets.exec,if_neg ht,if_neg hne,if_pos hn,
        h.absent t (Nat.lt_of_not_le ht) hn]
      exact ⟨k,rfl,h⟩
    simp only [Hooks.exec,HookSets.exec,if_neg ht,if_neg hn]
    exact h.osMhookDel hop (Nat.lt_of_not_le ht) (Nat.pos_of_ne_zero hn) answer

lemma Shows.runOps (h : k.Shows num s) (handler : Nat → Bool) {ops : List HookOp}
    (hops : ∀ op∈ops, osMhookNodeDead<op.hook) :
    ∃ k', k.runOps handler ops=some (k',(s.runOps num handler ops).2) ∧
      k'.Shows num (s.runOps num handler ops).1 := by
  induction ops generalizing k s with
  | nil => exact ⟨k,rfl,h⟩
  | cons op ops ih =>
    obtain ⟨k1,he,h1⟩ := h.exec handler (hops op mem_cons_self)
    obtain ⟨k2,hr,h2⟩ := ih h1 fun op' hop' => hops op' (mem_cons_of_mem op hop')
    refine ⟨k2,?_,h2⟩
    simp only [Hooks.runOps,he,hr,Option.bind_eq_bind,Option.bind_some,HookSets.runOps]
    rfl

structure Placed (num : Nat → Nat) (rest : List Nat) (hooks : Nat) (k : Hooks) : Prop where
  calls : k.calls=[]
  clear : ∃ pre, k.block=pre++List.replicate (tablesSize num rest) osHookEmpty ∧
    pre.length=hooks
  tables : ∀ t b, k.mulHook t=some b → t∉rest ∧ 0<num t ∧ b+num t<hooks ∧
    Holds k.block b (num t) []
  apart : ∀ t t' b b', t≠t' → k.mulHook t=some b → k.mulHook t'=some b' →
    b+num t<b' ∨ b'+num t'<b
  placed : ∀ t<osShookTypeStart, t∉rest → 0<num t → k.mulHook t≠none

variable {rest : List Nat} {hooks : Nat}

lemma Placed.skip (h : Placed num (t::rest) hooks k) (hn : num t=0) : Placed num rest hooks k := by
  obtain ⟨pre,hblock,hpre⟩ := h.clear
  refine ⟨h.calls,⟨pre,?_,hpre⟩,fun t' b hb => ?_,h.apart,fun t' ht' hr hn' => ?_⟩
  . simpa [tablesSize,hn] using hblock
  . obtain ⟨hr,hrest⟩ := h.tables t' b hb
    exact ⟨fun hm => hr (mem_cons_of_mem t hm),hrest⟩
  refine h.placed t' ht' (fun hm => ?_) hn'
  rcases mem_cons.mp hm with rfl | hm
  . omega
  exact hr hm

lemma Placed.place (h : Placed num (t::rest) hooks k)
    (hnd : t∉rest) (hn : 0<num t) : Placed num rest (hooks+num t+1) {k with
        block := k.block.set (hooks+num t) osMhookBoundary
        mulHook := update k.mulHook t (some hooks)} := by
  obtain ⟨pre,hblock,hpre⟩ := h.clear
  have hset : k.block.set (hooks+num t) osMhookBoundary =
      pre++(List.replicate (num t) osHookEmpty ++
        osMhookBoundary::List.replicate (tablesSize num rest) osHookEmpty) := by
    have hsize : tablesSize num (t::rest)=num t+(1+tablesSize num rest) := by
      simp [tablesSize,Nat.ne_of_gt hn,Nat.add_assoc]
    rw [hblock,hsize,← hpre,set_append_right _ _ (Nat.le_add_right _ _),
      Nat.add_sub_cancel_left,replicate_add,set_append_right _ _ (by simp),
      replicate_add]
    simp
  have hnew : Holds (k.block.set (hooks+num t) osMhookBoundary) hooks (num t) [] :=
    ⟨pre,num t,_,hset,hpre,Nat.zero_add _⟩
  refine ⟨h.calls,⟨pre++(List.replicate (num t) osHookEmpty ++ [osMhookBoundary]),?_,?_⟩,
    fun t' b hb => ?_,fun t1 t2 b1 b2 hne h1 h2 => ?_,fun t' ht' hr hn' => ?_⟩
  . simp [hset]
  . simp only [length_append,length_replicate,length_singleton]
    omega
  . by_cases he : t'=t
    . subst he
      simp only [update_self,Option.some.injEq] at hb
      subst hb
      exact ⟨hnd,hn,by omega,hnew⟩
    simp only [update_of_ne he] at hb
    obtain ⟨hr,hn',hlt,hl⟩ := h.tables t' b hb
    refine ⟨fun hm => hr (mem_cons_of_mem t hm),hn',by omega,hl.set_out ?_ _⟩
    exact .inr (by omega)
  . by_cases he1 : t1=t
    . subst he1
      have he2 : t2≠t1 := fun he => hne he.symm
      simp only [update_self,Option.some.injEq,update_of_ne he2] at h1 h2
      obtain ⟨-,-,hlt,-⟩ := h.tables t2 b2 h2
      exact .inr (by omega)
    simp only [update_of_ne he1] at h1
    by_cases he2 : t2=t
    . subst he2
      simp only [update_self,Option.some.injEq] at h2
      obtain ⟨-,-,hlt,-⟩ := h.tables t1 b1 h1
      exact .inl (by omega)
    simp only [update_of_ne he2] at h2
    exact h.apart t1 t2 b1 b2 hne h1 h2
  by_cases he : t'=t
  . subst he
    simp
  simp only [update_of_ne he]
  exact h.placed t' ht' (fun hm => (mem_cons.mp hm).elim he hr) hn'

lemma Placed.placeTables (h : Placed num rest hooks k)
    (hnd : rest.Nodup) : ∃ hooks', Placed num [] hooks' (placeTables num rest hooks k) := by
  induction rest generalizing hooks k with
  | nil => exact ⟨hooks,h⟩
  | cons t rest ih =>
    rw [nodup_cons] at hnd
    unfold Om.placeTables
    split
    . next hn => exact ih (h.skip hn) hnd.2
    next hn => exact ih (h.place hnd.1 (Nat.pos_of_ne_zero hn)) hnd.2

lemma osHookConfigInit_shows (num : Nat → Nat) : (osHookConfigInit num).Shows num {} := by
  have hstart : Placed num (List.range osShookTypeStart) 0
      { block := List.replicate (tablesSize num (List.range osShookTypeStart)) osHookEmpty
        mulHook := fun _ => none } := by
    refine ⟨rfl,⟨[],rfl,rfl⟩,nofun,nofun,fun t ht hr => ?_⟩
    exact absurd (mem_range.mpr ht) hr
  obtain ⟨hooks,h⟩ := hstart.placeTables nodup_range
  refine ⟨h.calls,fun t _ hn => ?_,fun t ht hn => ?_,h.apart⟩
  . rw [Option.eq_none_iff_forall_ne_some]
    intro b hb
    obtain ⟨-,hpos,-⟩ := h.tables t b hb
    omega
  obtain ⟨b,hb⟩ := Option.ne_none_iff_exists'.mp (h.placed t ht nofun hn)
  obtain ⟨-,-,-,hl⟩ := h.tables t b hb
  exact ⟨b,[],hb,hl,nofun,nofun,nodup_nil,rfl⟩

end Hooks

/-- For any calls the answers and the calls of the change handlers are those of bounded sets, each
table holds its set, and an activation calls the hooks of the set once each. -/
theorem hooks_refine_sets (num : Nat → Nat) (handler : Nat → Bool) (ops : List HookOp)
    (hops : ∀ op∈ops, osMhookNodeDead<op.hook) : ∃ k, (osHookConfigInit num).runOps handler ops =
        some (k,(HookSets.runOps num handler {} ops).2) ∧
      k.calls=(HookSets.runOps num handler {} ops).1.calls ∧
      ∀ t<osShookTypeStart, 0<num t → ∃ b l, k.mulHook t=some b ∧
        IsTable k.block b (num t) l ((HookSets.runOps num handler {} ops).1.live t) ∧
        k.activate t=some l.reduceOption := by
  obtain ⟨k,hrun,h⟩ := (Hooks.osHookConfigInit_shows num).runOps handler hops
  refine ⟨k,hrun,h.calls,fun t ht hn => ?_⟩
  obtain ⟨b,l,hb,htab⟩ := h.tables t ht hn
  refine ⟨b,l,hb,htab,?_⟩
  rw [Hooks.activate,hb]
  exact htab.activate

theorem hooks_refine_sets_switch : ∃ k,
    (osHookConfigInit fun t => if t=2 then 2 else 0).runOps (fun t => t=2)
      [.add 2 8 0,.add 2 16 0,.add 2 24 0,.del 2 8 0,.add 2 24 0,.del 2 8 0] =
        some (k,[.ok,.ok,.full,.ok,.ok,.notExisted]) ∧ k.calls=[(2,.addFirst)] := by
  obtain ⟨k,hrun,hcalls,-⟩ := hooks_refine_sets (fun t => if t=2 then 2 else 0)
    (fun t => decide (t=2))
    [.add 2 8 0,.add 2 16 0,.add 2 24 0,.del 2 8 0,.add 2 24 0,.del 2 8 0] (by decide)
  exact ⟨k,hrun,hcalls⟩

end UniProton.Om
