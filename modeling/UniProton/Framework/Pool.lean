import UniProton.Framework.Dlist

namespace UniProton.Framework

open Function List

/-- Pointers to the heads of lists and to the nodes that go into them. -/
inductive Ptr (H N : Type) where
  | null
  | head (h : H)
  | node (n : N)
  deriving DecidableEq

/-- Nodes that are linked into rings, each with a head of its own, or kept on a list of free ones
that goes along `next` alone. -/
structure Pool (H N : Type) where
  next : Ptr H N → Ptr H N
  prev : Ptr H N → Ptr H N
  free : Ptr H N

/-- Where a node can be: in the ring of a head, on the free list or in a chain that was cut off. -/
inductive Spot (H : Type) where
  | ring (h : H)
  | free
  | chain
  deriving DecidableEq

namespace Pool

variable {H N : Type}

section Operations

variable [DecidableEq H] [DecidableEq N] (p : Pool H N)

def setNext (a b : Ptr H N) : Pool H N := {p with next:=update p.next a b}

def setPrev (a b : Ptr H N) : Pool H N := {p with prev:=update p.prev a b}

def linkBefore (x : N) (b : Ptr H N) : Pool H N :=
  let a := p.prev b
  (((p.setNext (.node x) b).setPrev (.node x) a).setNext a (.node x)).setPrev b (.node x)

def clear (x : N) : Pool H N := (p.setNext (.node x) .null).setPrev (.node x) .null

def unlink (x : N) : Pool H N :=
  let a := p.prev (.node x)
  let b := p.next (.node x)
  ((p.setPrev b a).setNext a b).clear x

def release (x : N) : Pool H N := {p.setNext (.node x) p.free with free:=.node x}

def cut (h : H) (o : Ptr H N) : Pool H N :=
  let b := p.next o
  ((p.setNext o .null).setNext (.head h) b).setPrev b (.head h)

end Operations

/-- The first node of a list, or what comes behind the list. -/
def front (l : List N) (z : Ptr H N) : Ptr H N :=
  match l with
  | [] => z
  | x::_ => .node x

def back (a : Ptr H N) : List N → Ptr H N
  | [] => a
  | x::l => back (.node x) l

def places (rings : H → List N) (free chain : List N) : Spot H → List N
  | .ring h => rings h
  | .free => free
  | .chain => chain

def ringOf (l : Spot H → List N) (h : H) : List (Ptr H N) := .head h::(l (.ring h)).map .node

def Same (p p' : Pool H N) (y : Ptr H N) : Prop := p'.next y=p.next y ∧ p'.prev y=p.prev y

def Idle (p : Pool H N) (x : N) : Prop := p.next (.node x)=.null ∧ p.prev (.node x)=.null

def Linked (p : Pool H N) (start : Ptr H N) (l : List N) : Spot H → Prop
  | .ring h => Ringed p.next p.prev (.head h) (l.map .node)
  | .free => Spans p.next p.free (l.map .node) .null
  | .chain => Spans p.next start (l.map .node) .null

/-- The pointers are those of the lists `l`. No node is in two of them, and those of `I` are in
none. -/
structure Holds (p : Pool H N) (l : Spot H → List N) (start : Ptr H N) (I : N → Prop) : Prop where
  linked : ∀ q, p.Linked start (l q) q
  once : ∀ q, (l q).Nodup
  one : ∀ q q' x, x∈l q → x∈l q' → q=q'
  idle : ∀ x, I x → (∀ q, x∉l q) ∧ p.Idle x

variable {p p' : Pool H N} {l : Spot H → List N} {start start' : Ptr H N} {I I' : N → Prop} {x : N}
  {h : H}

lemma mem_ringOf_node : Ptr.node x∈ringOf l h ↔ x∈l (.ring h) := by simp [ringOf]

lemma head?_front (l : List N) (z : Ptr H N) :
    (l.map Ptr.node ++ [z]).head? = some (front l z) := by
  cases l <;> rfl

lemma getLast?_back (a : Ptr H N) (l : List N) :
    (a::l.map Ptr.node).getLast? = some (back a l) := by
  induction l generalizing a with
  | nil => rfl
  | cons x l ih => exact ih (.node x)

lemma ring_between {next prev : Ptr H N → Ptr H N} {a z : Ptr H N} {l1 l2 : List N}
    (hc : Chained next prev a (l1.map .node++l2.map .node) z) :
    next (back a l1)=front l2 z ∧ prev (front l2 z)=back a l1 := by
  induction l1 generalizing a with
  | nil =>
    cases l2 with
    | nil => exact hc
    | cons y l => exact ⟨hc.1,hc.2.1⟩
  | cons x l ih => exact ih hc.2.2

lemma Holds.ring (hp : p.Holds l start I) (h : H) :
    Ringed p.next p.prev (.head h) ((l (.ring h)).map .node) :=
  hp.linked (.ring h)

lemma Holds.between (hp : p.Holds l start I) {l1 l2 : List N} (hl : l (.ring h)=l1++l2) :
    p.next (back (.head h) l1)=front l2 (.head h) ∧
      p.prev (front l2 (.head h))=back (.head h) l1 := by
  have hc := (hp.ring h).chained
  rw [hl,map_append] at hc
  exact ring_between hc

lemma eq_front_of_spans {next : Ptr H N → Ptr H N} {a z : Ptr H N} {l : List N}
    (hs : Spans next a (l.map .node) z) : a=front l z := by
  cases l with
  | nil => exact hs
  | cons x l => exact hs.1

lemma Holds.ring_spans (hp : p.Holds l start I) (h : H) :
    Spans p.next (p.next (.head h)) ((l (.ring h)).map .node) (.head h) := by
  have hc := (hp.ring h).chained
  rw [← append_nil ((l (.ring h)).map Ptr.node)] at hc
  exact Spans.of_chained hc rfl

lemma back_append (a : Ptr H N) (l : List N) (x : N) : back a (l++[x])=.node x := by
  induction l generalizing a with
  | nil => rfl
  | cons y l ih => exact ih (.node y)

lemma front_mem {l1 l2 : List N} (hl : l (.ring h)=l1++l2) :
    front l2 (.head h)∈ringOf l h := by
  cases l2 with
  | nil => exact mem_cons_self
  | cons y l => exact mem_ringOf_node.mpr (by rw [hl]; simp)

lemma back_mem {l1 l2 : List N} (hl : l (.ring h)=l1++l2) : back (.head h) l1∈ringOf l h := by
  rcases eq_nil_or_concat' l1 with rfl | ⟨l,o,rfl⟩
  . exact mem_cons_self
  rw [back_append]
  exact mem_ringOf_node.mpr (by rw [hl]; simp)

lemma Linked.congr {l : List N} {q : Spot H} (hl : p.Linked start l q)
    (hf : q=.free → p'.free=p.free) (hs : q=.chain → start'=start)
    (hhead : ∀ h, q=.ring h → Same p p' (.head h)) (hnode : ∀ x∈l, Same p p' (.node x)) :
    p'.Linked start' l q := by
  have hall : ∀ y∈l.map .node, Same p p' y := forall_mem_map.mpr hnode
  cases q with
  | ring h =>
    have hring := forall_mem_cons.mpr ⟨hhead h rfl,hall⟩
    exact Ringed.congr hl (fun y hy => (hring y hy).1) fun y hy => (hring y hy).2
  | free =>
    rw [Linked,hf rfl]
    exact Spans.congr hl fun y hy => (hall y hy).1
  | chain =>
    rw [Linked,hs rfl]
    exact Spans.congr hl fun y hy => (hall y hy).1

lemma Holds.weaken (hp : p.Holds l start I) (hi : ∀ x, I' x → I x) : p.Holds l start I' :=
  {hp with idle:=fun x hx => hp.idle x (hi x hx)}

section Moves

variable [DecidableEq H] {l1 l2 : List N}

@[simp] lemma update_ring (rings : H → List N) (free chain m : List N) :
    update (places rings free chain) (.ring h) m=places (update rings h m) free chain := by
  funext q
  cases q <;> simp [places,update_apply]

@[simp] lemma update_free (rings : H → List N) (free chain m : List N) :
    update (places rings free chain) .free m=places rings m chain := by
  funext q
  cases q <;> rfl

@[simp] lemma update_chain (rings : H → List N) (free chain m : List N) :
    update (places rings free chain) .chain m=places rings free m := by
  funext q
  cases q <;> rfl

variable {m : List N}

/-- One of the lists becomes `m`. The pointers change only along it and at the nodes of `X`. -/
lemma Holds.set {q : Spot H} (X : N → Prop) (hp : p.Holds l start I) (hnd : m.Nodup)
    (hm : ∀ y∈m, y∈l q ∨ ∀ q', y∉l q') (hX : ∀ y, X y → ∀ q'≠q, y∉l q')
    (hnew : p'.Linked start' m q) (hf : q≠.free → p'.free=p.free)
    (hs : q≠.chain → start'=start) (hhead : ∀ h, q≠.ring h → Same p p' (.head h))
    (hnode : ∀ y∉l q, ¬X y → Same p p' (.node y))
    (hidle : ∀ y, I' y → (¬X y ∧ I y ∧ y∉m) ∨ (X y ∧ y∉m ∧ p'.Idle y)) :
    p'.Holds (update l q m) start' I' := by
  have hcases {q' : Spot H} {y : N} (hy : y∈update l q m q') :
      y∈l q' ∨ (q'=q ∧ ∀ q1, y∉l q1) := by
    by_cases e : q'=q
    . subst e
      rw [update_self] at hy
      exact (hm y hy).imp_right fun hf => ⟨rfl,hf⟩
    rw [update_of_ne e] at hy
    exact .inl hy
  have hout {y : N} (hy : y∉m) (hq : ∀ q'≠q, y∉l q') (q' : Spot H) : y∉update l q m q' := by
    by_cases e : q'=q
    . rw [e,update_self]
      exact hy
    rw [update_of_ne e]
    exact hq q' e
  refine ⟨fun q' => ?_,fun q' => ?_,fun q1 q2 y h1 h2 => ?_,fun y hy => ?_⟩
  . by_cases e : q'=q
    . subst e
      rw [update_self]
      exact hnew
    rw [update_of_ne e]
    refine (hp.linked q').congr (fun he => hf (he ▸ Ne.symm e)) (fun he => hs (he ▸ Ne.symm e))
      (fun h he => hhead h (he ▸ Ne.symm e)) fun y hy => ?_
    exact hnode y (fun hq => e (hp.one _ _ y hy hq)) fun hx => hX y hx q' e hy
  . by_cases e : q'=q
    . rw [e,update_self]
      exact hnd
    rw [update_of_ne e]
    exact hp.once q'
  . rcases hcases h1 with h1 | ⟨rfl,hn⟩
    . rcases hcases h2 with h2 | ⟨-,hn⟩
      . exact hp.one q1 q2 y h1 h2
      exact absurd h1 (hn q1)
    rcases hcases h2 with h2 | ⟨rfl,-⟩
    . exact absurd h2 (hn q2)
    rfl
  rcases hidle y hy with ⟨hx,hi,hym⟩ | ⟨hx,hym,hi⟩
  . obtain ⟨hq,hnext,hprev⟩ := hp.idle y hi
    obtain ⟨h1,h2⟩ := hnode y (hq q) hx
    exact ⟨hout hym fun q' _ => hq q',h1.trans hnext,h2.trans hprev⟩
  exact ⟨hout hym (hX y hx),hi⟩

lemma Holds.drop {q : Spot H} (hp : p.Holds l start I) (hl : l q=x::m)
    (hnext : p'.next=p.next ∧ p'.prev=p.prev)
    (hnew : p'.Linked start' m q) (hf : q≠.free → p'.free=p.free)
    (hs : q≠.chain → start'=start) :
    p'.Holds (update l q m) start' I ∧ ∀ q', x∉update l q m q' := by
  have hsame (y : Ptr H N) : Same p p' y := ⟨congrFun hnext.1 y,congrFun hnext.2 y⟩
  have hnd := hp.once q
  rw [hl] at hnd
  obtain ⟨hx,hnd⟩ := nodup_cons.mp hnd
  have hin {y : N} (hy : y∈m) : y∈l q := by
    rw [hl]
    exact mem_cons_of_mem x hy
  refine ⟨hp.set (fun _ => False) hnd (fun y hy => .inl (hin hy)) nofun hnew hf hs
    (fun h _ => hsame _) (fun y _ _ => hsame _) fun y hy => .inl ⟨id,hy,fun hm => ?_⟩,fun q' => ?_⟩
  . exact (hp.idle y hy).1 q (hin hm)
  by_cases e : q'=q
  . rw [e,update_self]
    exact hx
  rw [update_of_ne e]
  exact fun hm => e (hp.one q' q x hm (hl ▸ mem_cons_self))

lemma Holds.take (hp : p.Holds l start I) (hl : l .free=x::m) :
    p.free=.node x ∧ {p with free:=p.next (.node x)}.Holds (update l .free m) start I ∧
      ∀ q, x∉update l .free m q := by
  have hs := hp.linked .free
  rw [hl] at hs
  exact ⟨hs.1,hp.drop hl ⟨rfl,rfl⟩ hs.2 (absurd rfl) fun _ => rfl⟩

lemma Holds.pop (hp : p.Holds l start I) (hl : l .chain=x::m) :
    start=.node x ∧ p.Holds (update l .chain m) (p.next (.node x)) I ∧
      ∀ q, x∉update l .chain m q := by
  have hs := hp.linked .chain
  rw [hl] at hs
  exact ⟨hs.1,hp.drop hl ⟨rfl,rfl⟩ hs.2 (fun _ => rfl) (absurd rfl)⟩

lemma Holds.setRing (X : N → Prop) (hp : p.Holds l start I) (hnd : m.Nodup)
    (hm : ∀ y∈m, y∈l (.ring h) ∨ ∀ q, y∉l q) (hX : ∀ y, X y → ∀ q≠.ring h, y∉l q)
    (hnew : Ringed p'.next p'.prev (.head h) (m.map .node)) (hf : p'.free=p.free)
    (heq : ∀ y∉ringOf l h, (∀ x, y=.node x → ¬X x) → Same p p' y)
    (hidle : ∀ y, I' y → (¬X y ∧ I y ∧ y∉m) ∨ (X y ∧ y∉m ∧ p'.Idle y)) :
    p'.Holds (update l (.ring h) m) start I' := by
  refine hp.set X hnd hm hX hnew (fun _ => hf) (fun _ => rfl) (fun h' hh => heq _ ?_ nofun)
    (fun y hy hx => heq _ (mt mem_ringOf_node.mp hy) ?_) hidle
  . intro hm
    rcases mem_cons.mp hm with he | hm
    . exact hh (congrArg Spot.ring (Ptr.head.inj he).symm)
    obtain ⟨_,-,he⟩ := mem_map.mp hm
    cases he
  rintro z ⟨⟩
  exact hx

variable [DecidableEq N]

lemma clear_idle (p : Pool H N) (x : N) : (p.clear x).Idle x :=
  ⟨update_self _ _ _,update_self _ _ _⟩

lemma Holds.clear (hp : p.Holds l start I) (hx : ∀ q, x∉l q) :
    (p.clear x).Holds l start fun y => y=x ∨ I y := by
  have hne {y : Ptr H N} (hy : y≠.node x) : Same p (p.clear x) y :=
    ⟨update_of_ne hy _ _,update_of_ne hy _ _⟩
  have hset : (p.clear x).Holds (update l .free (l .free)) start fun y => y=x ∨ I y := by
    refine hp.set (· = x) (hp.once _) (fun y hy => .inl hy) ?_ ?_ (fun _ => rfl) (fun _ => rfl)
      (fun h _ => hne nofun) (fun y _ hy => hne fun e => hy (Ptr.node.inj e)) fun y hy => ?_
    . rintro y rfl q' -
      exact hx q'
    . refine (hp.linked .free).congr (fun _ => rfl) (fun _ => rfl) nofun fun y hy => ?_
      exact hne fun e => hx .free (Ptr.node.inj e ▸ hy)
    by_cases e : y=x
    . subst e
      exact .inr ⟨rfl,hx _,p.clear_idle y⟩
    have hi := hy.resolve_left e
    exact .inl ⟨e,hi,(hp.idle y hi).1 _⟩
  rwa [update_eq_self] at hset

lemma Holds.release (hp : p.Holds l start I) (hx : ∀ q, x∉l q) :
    (p.release x).Holds (update l .free (x::l .free)) start fun y => y≠x ∧ I y := by
  have hne {y : Ptr H N} (hy : y≠.node x) : Same p (p.release x) y := ⟨update_of_ne hy _ _,rfl⟩
  refine hp.set (· = x) (nodup_cons.mpr ⟨hx _,hp.once _⟩) ?_ ?_ ⟨rfl,?_⟩ (absurd rfl) (fun _ => rfl)
    (fun h _ => hne nofun) (fun y _ hy => hne fun e => hy (Ptr.node.inj e))
    fun y hy => .inl ⟨hy.1,hy.2,?_⟩
  . exact forall_mem_cons.mpr ⟨.inr hx,fun y hy => .inl hy⟩
  . rintro y rfl q' -
    exact hx q'
  . have hself : (p.release x).next (.node x)=p.free := update_self _ _ _
    rw [hself]
    refine Spans.congr (hp.linked .free) fun y hy => ?_
    obtain ⟨z,hz,rfl⟩ := mem_map.mp hy
    exact (hne fun e => hx .free (Ptr.node.inj e ▸ hz)).1
  exact fun hm => (mem_cons.mp hm).elim hy.1 ((hp.idle y hy.2).1 _)

lemma Holds.linkBefore (hp : p.Holds l start I) (hx : ∀ q, x∉l q) (hl : l (.ring h)=l1++l2) :
    (p.linkBefore x (front l2 (.head h))).Holds (update l (.ring h) (l1++x::l2)) start
      fun y => y≠x ∧ I y := by
  have hprev : p.prev (front l2 (.head h))=back (.head h) l1 := (hp.between hl).2
  have hring := hp.ring h
  rw [hl,map_append] at hring
  have hx' : x∉l1++l2 := hl ▸ hx _
  have hnew := hring.insert (head?_front l2 _) (x:=.node x) (by simpa using hx')
  have hmem {y : N} (hy : y∈l1++x::l2) : y=x ∨ y∈l (.ring h) := by
    rw [hl]
    exact mem_cons.mp (perm_middle.mem_iff.mp hy)
  refine hp.setRing (· = x) ?_ (fun y hy => ?_) ?_ ?_ rfl (fun y hy hyx => ?_) fun y hy =>
    .inl ⟨hy.1,hy.2,fun hm => (hmem hm).elim hy.1 ((hp.idle y hy.2).1 _)⟩
  . exact nodup_middle.mpr (nodup_cons.mpr ⟨hx',hl ▸ hp.once _⟩)
  . rcases hmem hy with rfl | hy
    . exact .inr hx
    exact .inl hy
  . rintro y rfl q -
    exact hx q
  . rw [map_append,map_cons]
    exact hnew
  have hya : y≠p.prev (front l2 (.head h)) := by
    rw [hprev]
    exact (ne_of_mem_of_not_mem (back_mem hl) hy).symm
  have hyb : y≠front l2 (.head h) := (ne_of_mem_of_not_mem (front_mem hl) hy).symm
  have hyx' : y≠.node x := fun e => hyx x e rfl
  exact ⟨(update_of_ne hya _ _).trans (update_of_ne hyx' _ _),
    (update_of_ne hyb _ _).trans (update_of_ne hyx' _ _)⟩

lemma Holds.unlink (hp : p.Holds l start I) (hl : l (.ring h)=l1++x::l2) :
    (p.unlink x).Holds (update l (.ring h) (l1++l2)) start fun y => y=x ∨ I y := by
  have hxh : x∈l (.ring h) := by
    rw [hl]
    simp
  have hring := hp.ring h
  rw [hl,map_append,map_cons] at hring
  have hnd := hp.once (.ring h)
  rw [hl] at hnd
  obtain ⟨hx,hnd'⟩ := nodup_cons.mp (nodup_middle.mp hnd)
  have hprev : p.prev (.node x)=back (.head h) l1 := (hp.between hl).2
  have hl' : l (.ring h)=(l1++[x])++l2 := by simpa using hl
  have hnext : p.next (.node x)=front l2 (.head h) := by
    have hb := (hp.between hl').1
    rwa [back_append] at hb
  have hxl {y : Ptr H N} (hy : y∈.head h::(l1.map Ptr.node++l2.map .node)) : y≠.node x := by
    rintro rfl
    exact hx (by simpa using hy)
  have hin {y : N} (hy : y∈l1++l2) : y∈l (.ring h) := by
    rw [hl]
    exact perm_middle.mem_iff.mpr (mem_cons_of_mem x hy)
  refine hp.setRing (· = x) hnd' (fun y hy => .inl (hin hy)) ?_ ?_ rfl (fun y hy _ => ?_)
    fun y hy => ?_
  . rintro y rfl q hq hm
    exact hq (hp.one _ _ y hm hxh)
  . rw [map_append]
    exact hring.unlink.congr (fun y hy => update_of_ne (hxl hy) _ _)
      fun y hy => update_of_ne (hxl hy) _ _
  . have hyx : y≠.node x := (ne_of_mem_of_not_mem (mem_ringOf_node.mpr hxh) hy).symm
    have hya : y≠p.prev (.node x) := by
      rw [hprev]
      exact (ne_of_mem_of_not_mem (back_mem hl) hy).symm
    have hyb : y≠p.next (.node x) := by
      rw [hnext]
      exact (ne_of_mem_of_not_mem (front_mem hl') hy).symm
    exact ⟨(update_of_ne hyx _ _).trans (update_of_ne hya _ _),
      (update_of_ne hyx _ _).trans (update_of_ne hyb _ _)⟩
  by_cases e : y=x
  . subst e
    exact .inr ⟨rfl,hx,clear_idle _ y⟩
  have hi := hy.resolve_left e
  exact .inl ⟨e,hi,fun hm => (hp.idle y hi).1 _ (hin hm)⟩

lemma Holds.cut (hp : p.Holds l .null I) (hl : l (.ring h)=l1++l2) :
    (p.cut h (back (.head h) l1)).Holds (update (update l (.ring h) l2) .chain l1)
      (front l1 .null) I := by
  have hring := hp.ring h
  rw [hl,map_append] at hring
  have hb := head?_front l2 (.head h : Ptr H N)
  have ho := getLast?_back (.head h : Ptr H N) l1
  have hnext : p.next (back (.head h) l1)=front l2 (.head h) := (hp.between hl).1
  have hnew := hring.cut hb ho .null
  have hspan := Spans.of_chained hring.chained hb
  have hnd := hp.once (.ring h)
  rw [hl] at hnd
  rw [← hnext] at hnew
  have hin {y : N} (hy : y∈l1 ∨ y∈l2) : y∈l (.ring h) := by
    rw [hl]
    exact mem_append.mpr hy
  have hset : (p.cut h (back (.head h) l1)).Holds (update l (.ring h) l2) .null I := by
    refine hp.setRing (fun _ => False) hnd.of_append_right (fun y hy => .inl (hin (.inr hy))) nofun
      hnew rfl (fun y hy _ => ?_) fun y hy =>
        .inl ⟨id,hy,fun hm => (hp.idle y hy).1 _ (hin (.inr hm))⟩
    have hyo : y≠back (.head h) l1 := (ne_of_mem_of_not_mem (back_mem hl) hy).symm
    have hyb : y≠p.next (back (.head h) l1) := by
      rw [hnext]
      exact (ne_of_mem_of_not_mem (front_mem hl) hy).symm
    have hyh : y≠.head h := (ne_of_mem_of_not_mem mem_cons_self hy).symm
    exact ⟨(update_of_ne hyh _ _).trans (update_of_ne hyo _ _),update_of_ne hyb _ _⟩
  refine hset.set (fun _ => False) hnd.of_append_left (fun y hy => .inr fun q => ?_) nofun ?_
    (fun _ => rfl) (absurd rfl) (fun h _ => ⟨rfl,rfl⟩) (fun y _ _ => ⟨rfl,rfl⟩) fun y hy =>
      .inl ⟨id,hy,fun hm => (hp.idle y hy).1 _ (hin (.inl hm))⟩
  . by_cases e : q=.ring h
    . rw [e,update_self]
      exact disjoint_of_nodup_append hnd hy
    rw [update_of_ne e]
    exact fun hm => e (hp.one q _ y hm (hin (.inl hy)))
  -- the last node of the chain has lost its successor
  rcases eq_nil_or_concat' l1 with rfl | ⟨l',o,rfl⟩
  . rfl
  have hfirst : front (l'++[o]) .null=p.next (.head h) := by
    have hwhole : l (.ring h)=[]++(l'++[o]++l2) := hl
    have hbetween := (hp.between hwhole).1
    rw [back] at hbetween
    rw [hbetween]
    cases l' <;> rfl
  rw [Linked,hfirst,map_append]
  rw [map_append] at hspan
  have hturn := hspan.turn (by simpa using hnd.of_append_left.map fun _ _ => Ptr.node.inj) .null
  apply hturn.congr
  intro y hy
  have hyh : y≠.head h := by
    rintro rfl
    simp at hy
  have hback : back (.head h) (l'++[o])=(.node o : Ptr H N) := back_append _ l' o
  change update (update p.next _ _) _ _ y=_
  rw [update_of_ne hyh,hback]

end Moves

end Pool

end UniProton.Framework
