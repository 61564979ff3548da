import UniProton.Framework.Slots

namespace UniProton.Om

open Framework List

/-- `OS_HOOK_TSK_MON`: the types below it have a table of hooks, those from it on a single one. -/
def osShookTypeStart : Nat := 10

def osHookEmpty : Nat := 0

def osMhookBoundary : Nat := 1

def osMhookNodeDead : Nat := 2

def mhookIsValid (hook : Nat) : Bool := decide (osMhookBoundary<hook)

inductive HookChgType where
  | addFirst | delLast deriving DecidableEq

/-- The errors of `prt_hook.h`; `refused` is an error of the change handler. -/
inductive HookRet where
  | ok | typeInvalid | ptrNull | notCfg | existed | full | notExisted
  | refused (e : Nat)
  deriving DecidableEq

/-- The memory of all tables, where the table of each type starts, and the calls of the change
handlers so far, the newest first. -/
structure Hooks where
  block : List Nat
  mulHook : Nat → Option Nat
  calls : List (Nat×HookChgType) := []

/-- The second loop of `OsHookConfigInit`; `hooks` is the place of the next table. -/
def placeTables (num : Nat → Nat) : List Nat → Nat → Hooks → Hooks
  | [], _, k => k
  | hookIndex::rest, hooks, k =>
    if num hookIndex=0 then placeTables num rest hooks k
    else placeTables num rest (hooks+num hookIndex+1)
      {k with
        block := k.block.set (hooks+num hookIndex) osMhookBoundary
        mulHook := Function.update k.mulHook hookIndex (some hooks)}

/-- The first loop of `OsHookConfigInit`: each table has one place more, for the boundary. -/
def tablesSize (num : Nat → Nat) (types : List Nat) : Nat :=
  (types.map fun t => if num t=0 then 0 else num t+1).sum

/-- `OsHookConfigInit` with memory for the tables; `num` is what was registered for each type. -/
def osHookConfigInit (num : Nat → Nat) : Hooks :=
  placeTables num (List.range osShookTypeStart) 0
    { block := List.replicate (tablesSize num (List.range osShookTypeStart)) osHookEmpty
      mulHook := fun _ => none }

/-- What the loop of `OsMhookAdd` finds. -/
inductive AddScan where
  | existed
  | stop (mHook : Nat) (add : Option Nat) (hookCnt : Nat)

/-- The loop of `OsMhookAdd` over the memory from `mHook` on; `none` for a read behind its end. -/
def addScan (hook : Nat) : List Nat → Nat → Option Nat → Nat → Option AddScan
  | [], _, _, _ => none
  | x::mem, mHook, add, hookCnt =>
    if mhookIsValid x then
      if x=osMhookNodeDead then
        addScan hook mem (mHook+1) (if add=none then some mHook else add) hookCnt
      else if x=hook then some .existed
      else addScan hook mem (mHook+1) add (hookCnt+1)
    else some (.stop mHook add hookCnt)

/-- Where `OsMhookAdd` writes: into the dead place it has found, or behind the last one. -/
def addPlace (block : List Nat) (mHook : Nat) : Option Nat → Option Nat
  | some add => some add
  | none => if block[mHook]? = some osMhookBoundary then none else some mHook

def delScan (hook : Nat) : List Nat → Nat → Option Nat → Nat → Option (Option Nat×Nat)
  | [], _, _, _ => none
  | x::mem, mHook, del, hookCnt =>
    if mhookIsValid x then
      if x=osMhookNodeDead then delScan hook mem (mHook+1) del hookCnt
      else delScan hook mem (mHook+1) (if x=hook then some mHook else del) (hookCnt+1)
    else some (del,hookCnt)

/-- The second loop of `OsMhookDel`; the place it looks at is the one before `del`. -/
def clearBack (mulHook : Nat) (block : List Nat) : Nat → List Nat
  | 0 => block
  | del+1 =>
    if mulHook≤del ∧ block[del]? = some osMhookNodeDead then
      clearBack mulHook (block.set del osHookEmpty) del
    else block

/-- The hooks that `OS_MHOOK_ACTIVATE_PROC` calls, in their order. -/
def activateScan : List Nat → Option (List Nat)
  | [] => none
  | x::mem =>
    if x≤osMhookBoundary then some []
    else if x≠osMhookNodeDead then (activateScan mem).map (x :: ·)
    else activateScan mem

namespace Hooks

variable (handler : Nat → Bool) (k : Hooks)

def activate (hookType : Nat) : Option (List Nat) :=
  match k.mulHook hookType with
  | none => some []
  | some hook => activateScan (k.block.drop hook)

/-- The call of `g_hookChgHandler`, where there is one; `answer` is what it returns. -/
def notify (hookType : Nat) (chgType : HookChgType) (answer : Nat) : Hooks×Nat :=
  if handler hookType then ({k with calls:=(hookType,chgType)::k.calls},answer) else (k,0)

/-- A change of the table that the handler has to agree to, if it is the first add or the last
delete. -/
def change (first : Prop) [Decidable first] (hookType : Nat) (chgType : HookChgType) (answer : Nat)
    (write : Hooks → Option (Hooks×HookRet)) : Option (Hooks×HookRet) :=
  let (k,ret) := if first then k.notify handler hookType chgType answer else (k,0)
  if ret=0 then write k else some (k,.refused ret)

def writeHook (add hook : Nat) : Option (Hooks×HookRet) :=
  some ({k with block:=k.block.set add hook},.ok)

/-- The end of `OsMhookDel`: the last hook of the table is cleared with the dead places before it,
and another one leaves a dead place. -/
def clearHook (base del : Nat) : Option (Hooks×HookRet) :=
  match k.block[del+1]? with
  | none => none
  | some x =>
    if mhookIsValid x then some ({k with block:=k.block.set del osMhookNodeDead},.ok)
    else some ({k with block:=clearBack base (k.block.set del osHookEmpty) del},.ok)

def osMhookAdd (hookType hook answer : Nat) : Option (Hooks×HookRet) :=
  if osShookTypeStart≤hookType then some (k,.typeInvalid)
  else if hook=osHookEmpty then some (k,.ptrNull)
  else
    match k.mulHook hookType with
    | none => some (k,.notCfg)
    | some base =>
      match addScan hook (k.block.drop base) base none 0 with
      | none => none
      | some .existed => some (k,.existed)
      | some (.stop mHook add hookCnt) =>
        match addPlace k.block mHook add with
        | none => some (k,.full)
        | some add => k.change handler (hookCnt=0) hookType .addFirst answer (writeHook · add hook)

def osMhookDel (hookType hook answer : Nat) : Option (Hooks×HookRet) :=
  if osShookTypeStart≤hookType then some (k,.typeInvalid)
  else if hook=osHookEmpty then some (k,.ptrNull)
  else
    match k.mulHook hookType with
    | none => some (k,.notCfg)
    | some base =>
      match delScan hook (k.block.drop base) base none 0 with
      | none => none
      | some (none,_) => some (k,.notExisted)
      | some (some del,hookCnt) =>
        k.change handler (hookCnt=1) hookType .delLast answer (clearHook · base del)

end Hooks

/-- A call of the module, with the answer of the change handler should it be asked. -/
inductive HookOp where
  | add (hookType hook answer : Nat)
  | del (hookType hook answer : Nat)
  deriving DecidableEq

def HookOp.hook : HookOp → Nat
  | .add _ hook _ => hook
  | .del _ hook _ => hook

namespace Hooks

variable (handler : Nat → Bool)

def exec (k : Hooks) : HookOp → Option (Hooks×HookRet)
  | .add hookType hook answer => k.osMhookAdd handler hookType hook answer
  | .del hookType hook answer => k.osMhookDel handler hookType hook answer

def runOps : Hooks → List HookOp → Option (Hooks×List HookRet)
  | k, [] => some (k,[])
  | k, op::ops => do
    let (k,r) ← k.exec handler op
    let (k,rs) ← k.runOps ops
    return (k,r::rs)

end Hooks

def slotWord (x : Option Nat) : Nat := x.getD osMhookNodeDead

/-- The memory at `b` is a table of `n` places that begins with `l`: the rest of it is empty, and
the boundary ends it. -/
def Holds (block : List Nat) (b n : Nat) (l : List (Option Nat)) : Prop :=
  ∃ pre m post, block=pre++(l.map slotWord++(List.replicate m osHookEmpty ++
    osMhookBoundary::post)) ∧ pre.length=b ∧ l.length+m=n

namespace Holds

variable {block : List Nat} {b n i j v : Nat} {l : List (Option Nat)} {x : Option Nat}

lemma length_le (h : Holds block b n l) : l.length≤n := by
  obtain ⟨pre,m,post,-,-,hn⟩ := h
  omega

lemma drop (h : Holds block b n l) : ∃ m post, block.drop b=l.map slotWord ++
    (replicate m osHookEmpty++osMhookBoundary::post) ∧ l.length+m=n := by
  obtain ⟨pre,m,post,rfl,rfl,hn⟩ := h
  exact ⟨m,post,drop_left,hn⟩

lemma get_of_lt (h : Holds block b n l) (hj : j<l.length) : block[b+j]? = l[j]?.map slotWord := by
  obtain ⟨m,post,hdrop,-⟩ := h.drop
  rw [← getElem?_drop,hdrop,getElem?_append_left (by simpa using hj),getElem?_map]

lemma get_length (h : Holds block b n l) :
    block[b+l.length]? = some (if l.length=n then osMhookBoundary else osHookEmpty) := by
  obtain ⟨m,post,hdrop,hn⟩ := h.drop
  rw [← getElem?_drop,hdrop,getElem?_append_right (by simp)]
  cases m with
  | zero => simp [show l.length=n by omega]
  | succ m => simp [replicate_succ,show l.length≠n by omega]

lemma set_out (h : Holds block b n l) (hi : i<b ∨ b+n < i) (v : Nat) :
    Holds (block.set i v) b n l := by
  obtain ⟨pre,m,post,rfl,rfl,hn⟩ := h
  rcases hi with hi | hi
  . refine ⟨pre.set i v,m,post,?_,length_set,hn⟩
    rw [set_append_left _ _ hi]
  obtain ⟨j,rfl⟩ : ∃ j, i=pre.length+(l.length+(m+(1+j))) :=
    ⟨i-(pre.length+(l.length+(m+1))),by omega⟩
  refine ⟨pre,m,post.set j v,?_,rfl,hn⟩
  rw [set_append_right _ _ (by omega),set_append_right _ _ (by simp),set_append_right _ _ (by simp)]
  have hj : pre.length+(l.length+(m+(1+j)))-pre.length-(l.map slotWord).length -
      (replicate m osHookEmpty).length=j+1 := by
    simp only [length_map,length_replicate]
    omega
  rw [hj,set_cons_succ]

lemma set_at (h : Holds block b n l) (hj : j<l.length) (x : Option Nat) :
    Holds (block.set (b+j) (slotWord x)) b n (l.set j x) := by
  obtain ⟨pre,m,post,rfl,rfl,hn⟩ := h
  refine ⟨pre,m,post,?_,rfl,by rwa [length_set]⟩
  rw [set_append_right _ _ (Nat.le_add_right _ _),Nat.add_sub_cancel_left,
    set_append_left _ _ (by simpa using hj),map_set]

lemma set_end (h : Holds block b n l) (hl : l.length<n) (x : Option Nat) :
    Holds (block.set (b+l.length) (slotWord x)) b n (l++[x]) := by
  obtain ⟨pre,m,post,rfl,rfl,hn⟩ := h
  obtain ⟨m,rfl⟩ : ∃ m', m=m'+1 := ⟨m-1,by omega⟩
  refine ⟨pre,m,post,?_,rfl,by simp; omega⟩
  simp [replicate_succ]

lemma clear_end (h : Holds block b n (l++[x])) :
    Holds (block.set (b+l.length) osHookEmpty) b n l := by
  obtain ⟨pre,m,post,rfl,rfl,hn⟩ := h
  refine ⟨pre,m+1,post,?_,rfl,by simp at hn; omega⟩
  simp [replicate_succ]

lemma walk (h : Holds block b n l) : ∃ x rest, block.drop b=l.map slotWord++x::rest ∧
    x≤osMhookBoundary := by
  obtain ⟨m,post,hdrop,-⟩ := h.drop
  cases m with
  | zero => exact ⟨osMhookBoundary,post,hdrop,Nat.le_refl _⟩
  | succ m => exact ⟨osHookEmpty,_,hdrop,Nat.zero_le _⟩

end Holds

def Real (l : List (Option Nat)) : Prop := ∀ x∈l.reduceOption, osMhookNodeDead<x

section scans

variable {l : List (Option Nat)} {hook x : Nat} {rest : List Nat}

lemma Real.tail {y : Option Nat} (h : Real (y::l)) : Real l := by
  intro z hz
  apply h z
  rw [reduceOption_mem_iff] at hz ⊢
  exact mem_cons_of_mem y hz

lemma Real.head {y : Nat} (h : Real (some y::l)) : osMhookNodeDead<y := h y (by simp)

lemma mhookIsValid_dead : mhookIsValid osMhookNodeDead=true := by decide

lemma mhookIsValid_real {y : Nat} (h : osMhookNodeDead<y) : mhookIsValid y=true :=
  decide_eq_true (Nat.lt_trans (by decide) h)

lemma Real.isValid {y : Option Nat} (h : Real l) (hy : y∈l) :
    mhookIsValid (slotWord y)=true := by
  cases y with
  | none => exact mhookIsValid_dead
  | some y => exact mhookIsValid_real (h y (reduceOption_mem_iff.mpr hy))

lemma mhookIsValid_end (h : x≤osMhookBoundary) : mhookIsValid x=false :=
  decide_eq_false (Nat.not_lt_of_le h)

lemma addScan_eq (hl : Real l) (hx : x≤osMhookBoundary) (i : Nat) (add : Option Nat)
    (cnt : Nat) : addScan hook (l.map slotWord++x::rest) i add cnt =
      if hook∈l.reduceOption then some .existed
      else some (.stop (i+l.length) (add.or (if none∈l then some (i+l.idxOf none) else none))
        (cnt+l.reduceOption.length)) := by
  induction l generalizing i add cnt with
  | nil => simp [addScan,mhookIsValid_end hx]
  | cons y l ih =>
    cases y with
    | none =>
      simp only [map_cons,cons_append,slotWord,Option.getD_none,addScan,
        mhookIsValid_dead,if_true,ih hl.tail,reduceOption_cons_of_none]
      split
      . rfl
      cases add with
      | none | some => simp [Nat.add_assoc,Nat.add_comm 1]
    | some y =>
      have hy := hl.head
      simp only [map_cons,cons_append,slotWord,Option.getD_some,addScan,
        mhookIsValid_real hy,if_true,if_neg (Nat.ne_of_gt hy),ih hl.tail,
        reduceOption_cons_of_some,mem_cons]
      by_cases hh : y=hook
      . simp [hh]
      have hne : hook≠y := fun h => hh h.symm
      by_cases hmem : hook∈l.reduceOption
      . simp [hh,hmem]
      simp only [hh,hne,hmem,if_false,or_self]
      simp [Nat.add_assoc,Nat.add_comm 1]

lemma delScan_eq (hl : Real l) (hnd : l.reduceOption.Nodup) (hx : x≤osMhookBoundary)
    (i : Nat) (del : Option Nat) (cnt : Nat) : delScan hook (l.map slotWord++x::rest) i del cnt =
      some (if hook∈l.reduceOption then some (i+l.idxOf (some hook)) else del,
        cnt+l.reduceOption.length) := by
  induction l generalizing i del cnt with
  | nil => simp [delScan,mhookIsValid_end hx]
  | cons y l ih =>
    cases y with
    | none =>
      simp only [map_cons,cons_append,slotWord,Option.getD_none,delScan,
        mhookIsValid_dead,if_true,reduceOption_cons_of_none] at hnd ⊢
      rw [ih hl.tail hnd]
      simp [Nat.add_assoc,Nat.add_comm 1]
    | some y =>
      have hy := hl.head
      simp only [reduceOption_cons_of_some,nodup_cons] at hnd
      simp only [map_cons,cons_append,slotWord,Option.getD_some,delScan,
        mhookIsValid_real hy,if_true,if_neg (Nat.ne_of_gt hy),ih hl.tail hnd.2,
        reduceOption_cons_of_some,mem_cons,length_cons]
      by_cases hh : y=hook
      . subst hh
        simp [hnd.1,Nat.add_assoc,Nat.add_comm 1]
      have hne : hook≠y := fun h => hh h.symm
      simp [hh,hne,Nat.add_assoc,Nat.add_comm 1]

lemma activateScan_eq (hl : Real l) (hx : x≤osMhookBoundary) :
    activateScan (l.map slotWord++x::rest)=some l.reduceOption := by
  induction l with
  | nil => simp [activateScan,hx]
  | cons y l ih =>
    cases y with
    | none =>
      rw [reduceOption_cons_of_none,← ih hl.tail]
      rfl
    | some y =>
      have hy := hl.head
      have hgt : ¬y≤osMhookBoundary := Nat.not_le_of_lt (Nat.lt_trans (by decide) hy)
      simp only [map_cons,cons_append,slotWord,Option.getD_some,activateScan,
        if_neg hgt,if_pos (Nat.ne_of_gt hy),ih hl.tail,Option.map_some,
        reduceOption_cons_of_some]

end scans

/-- Tables apart from the one at `b` are as they were. -/
def Apart (block block' : List Nat) (b n : Nat) : Prop :=
  ∀ b' n' l', b'+n'<b ∨ b+n<b' → Holds block b' n' l' → Holds block' b' n' l'

lemma Apart.set {block block' : List Nat} {b n i : Nat} (h : Apart block block' b n)
    (hi : b ≤ i) (hn : i≤b+n) (v : Nat) : Apart block (block'.set i v) b n := by
  intro b' n' l' hb hl
  exact (h b' n' l' hb hl).set_out (by omega) v

lemma clearBack_holds {block0 block : List Nat} {b n : Nat} {l : List (Option Nat)}
    (hl : Real l) (h : Holds block b n l) (ha : Apart block0 block b n) :
    Holds (clearBack b block (b+l.length)) b n (Slots.strip l) ∧
      Apart block0 (clearBack b block (b+l.length)) b n := by
  induction l using reverseRecOn generalizing block with
  | nil =>
    have hstop : clearBack b block b=block := by
      cases b with
      | zero => rfl
      | succ b => rw [clearBack,if_neg (by omega)]
    exact hstop.symm ▸ ⟨h,ha⟩
  | append_singleton l y ih =>
    have hlen : b+(l++[y]).length=b+l.length+1 := by simp; omega
    have hget : block[b+l.length]? = some (slotWord y) := by
      rw [h.get_of_lt (by simp)]
      simp
    have hle := h.length_le
    have hreal : Real l := by
      intro z hz
      apply hl z
      rw [reduceOption_append]
      exact mem_append_left _ hz
    rw [hlen,clearBack,hget]
    cases y with
    | none =>
      rw [if_pos ⟨Nat.le_add_right _ _,rfl⟩,Slots.strip,rdropWhile_concat_pos _ _ _ rfl]
      exact ih hreal h.clear_end (ha.set (Nat.le_add_right _ _) (by omega) _)
    | some y =>
      have hy : osMhookNodeDead<y := hl y (reduceOption_mem_iff.mpr (by simp))
      rw [if_neg fun hd => Nat.ne_of_gt hy (Option.some.inj hd.2),Slots.strip,
        rdropWhile_concat_neg _ _ _ (by simp)]
      exact ⟨h,ha⟩

end UniProton.Om
