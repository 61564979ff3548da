import UniProton.Kernel.Reach

namespace UniProton

open Framework TskStatus Function List TskCb

lemma sigBit_eq (signo : Nat) : sigBit signo=BitVec.twoPow 64 (signo-1) := by
  simp [sigBit,BitVec.twoPow]

lemma and_sigBit {x : BitVec 64} {signo : Nat} :
    x &&& sigBit signo≠0 ↔ x.getLsbD (signo-1)=true := by
  rw [sigBit_eq,BitVec.and_twoPow]
  by_cases hx : x.getLsbD (signo-1)=true
  . have hlt : signo-1<64 := BitVec.lt_of_getLsbD hx
    simp only [hx,if_true,iff_true]
    intro h0
    have hbit := congrArg (fun y => y.getLsbD (signo-1)) h0
    simp [hlt] at hbit
  simp [hx]

lemma and_not_sigBit {x : BitVec 64} {n s : Nat} (hs : 0<s) (hn : 0<n) :
    x &&& ~~~ sigBit n &&& sigBit s≠0 ↔ x &&& sigBit s≠0 ∧ s≠n := by
  rw [and_sigBit,and_sigBit,sigBit_eq,BitVec.getLsbD_and,BitVec.getLsbD_not,BitVec.getLsbD_twoPow]
  by_cases hx : x.getLsbD (s-1)=true
  . have hlt : s-1<64 := BitVec.lt_of_getLsbD hx
    have hsub : n-1=s-1 ↔ s=n := by omega
    by_cases hsn : s=n
    . simp [hsn]
    have hne : ¬(n-1=s-1) := fun he => hsn (hsub.mp he)
    simp [hx,hlt,hsn,hne]
  simp [hx]

lemma or_sigBit {x : BitVec 64} {n s : Nat} (hs : 0<s) (hn : sigValid n=true) :
    (x ||| sigBit n) &&& sigBit s≠0 ↔ x &&& sigBit s≠0 ∨ s=n := by
  have hv : 0<n ∧ n<32 := by simpa [sigValid] using hn
  rw [and_sigBit,and_sigBit,sigBit_eq,BitVec.getLsbD_or,BitVec.getLsbD_twoPow]
  have hsub : n-1=s-1 ↔ s=n := by omega
  have hlt : n-1<64 := by omega
  simp only [Bool.or_eq_true,Bool.and_eq_true,decide_eq_true_eq,hlt,true_and,hsub]

namespace TskCb

/-- The pending set and the list name the same signals, each of them once. -/
structure SigOk (c : TskCb) : Prop where
  valid : ∀ n∈c.sigInfoList, sigValid n.signo=true
  nodup : (c.sigInfoList.map SigInfo.signo).Nodup
  pending : ∀ s, 0<s → (c.sigPending &&& sigBit s≠0 ↔ ∃ n∈c.sigInfoList, n.signo=s)

variable {c : TskCb}

variable {n : SigInfo} {c' : TskCb} {l : List SigInfo}

lemma SigOk.pos (h : SigOk c) (hn : n∈c.sigInfoList) : 0<n.signo := by
  have hv := h.valid n hn
  simp only [sigValid,decide_eq_true_eq] at hv
  exact hv.1

lemma SigOk.eq_of_signo (h : SigOk c) {m : SigInfo} (hn : n∈c.sigInfoList)
    (hm : m∈c.sigInfoList) (he : n.signo=m.signo) : n=m :=
  inj_on_of_nodup_map h.nodup hn hm he

lemma SigOk.congr (h : SigOk c) (hl : c'.sigInfoList=c.sigInfoList)
    (hp : c'.sigPending=c.sigPending) : SigOk c' := by
  refine ⟨?_,?_,?_⟩
  . rw [hl]
    exact h.valid
  . rw [hl]
    exact h.nodup
  rw [hl,hp]
  exact h.pending

lemma SigOk.take (h : SigOk c) (hn : n∈c.sigInfoList) : SigOk {c with
    sigInfoList := c.sigInfoList.erase n
    sigPending := c.sigPending &&& ~~~ sigBit n.signo} where
  valid m hm := h.valid m (mem_of_mem_erase hm)
  nodup := h.nodup.sublist (erase_sublist.map _)
  pending s hs := by
    rw [and_not_sigBit hs (h.pos hn),h.pending s hs]
    constructor
    . rintro ⟨⟨m,hm,rfl⟩,hne⟩
      have hmn : m≠n := fun he => hne (by rw [he])
      exact ⟨m,(mem_erase_of_ne hmn).mpr hm,rfl⟩
    rintro ⟨m,hm,rfl⟩
    have hm' := mem_of_mem_erase hm
    refine ⟨⟨m,hm',rfl⟩,fun he => ?_⟩
    have hmn := h.eq_of_signo hm' hn he
    rw [hmn] at hm
    exact (h.nodup.of_map).not_mem_erase hm

lemma SigOk.find (h : SigOk c) (hn : n∈c.sigInfoList) :
    c.sigInfoList.find? (fun m => m.signo=n.signo)=some n := by
  cases hf : c.sigInfoList.find? fun m => m.signo=n.signo with
  | none => simpa using find?_eq_none.mp hf n hn
  | some m =>
    have hm := mem_of_find?_eq_some hf
    have hs : m.signo=n.signo := by simpa using find?_some hf
    rw [h.eq_of_signo hm hn hs]

lemma SigOk.osHandleOneSignal_eq (h : SigOk c) (hn : n∈c.sigInfoList) :
    c.osHandleOneSignal n.signo={c with
      sigInfoList := c.sigInfoList.erase n
      sigPending := c.sigPending &&& ~~~ sigBit n.signo} := by
  unfold osHandleOneSignal
  rw [h.find hn]

lemma SigOk.unblocked_iff (h : SigOk c) (hn : n∈c.sigInfoList) :
    c.sigPending &&& ~~~ c.sigMask &&& sigBit n.signo≠0 ↔ c.sigMask &&& sigBit n.signo=0 := by
  have hp := (h.pending n.signo (h.pos hn)).mpr ⟨n,hn,rfl⟩
  rw [and_sigBit] at hp
  have hlt := BitVec.lt_of_getLsbD hp
  rw [and_sigBit,BitVec.getLsbD_and,BitVec.getLsbD_not,hp,← not_iff_not,
    ← ne_eq (c.sigMask &&& sigBit n.signo),and_sigBit]
  simp [hlt]

lemma SigOk.masked (h : SigOk c) (hm : ∀ n∈c.sigInfoList, c.sigMask &&& sigBit n.signo≠0) :
    c.sigPending &&& c.sigMask=c.sigPending := by
  apply BitVec.eq_of_getLsbD_eq
  intro i hi
  rw [BitVec.getLsbD_and]
  cases hb : c.sigPending.getLsbD i with
  | false => rfl
  | true =>
    have hbit : c.sigPending &&& sigBit (i+1)≠0 := and_sigBit.mpr hb
    obtain ⟨n,hn,hs⟩ := (h.pending (i+1) (Nat.succ_pos i)).mp hbit
    have hmask := and_sigBit.mp (hm n hn)
    rw [hs,Nat.add_sub_cancel] at hmask
    rw [hmask,Bool.and_self]

def blocked (c : TskCb) : TskCb :=
  {c with
    sigInfoList := c.sigInfoList.filter fun n => c.sigMask &&& sigBit n.signo≠0
    sigPending := c.sigPending &&& c.sigMask}

lemma SigOk.blocked_self (h : SigOk c)
    (hm : ∀ n∈c.sigInfoList, c.sigMask &&& sigBit n.signo≠0) : c.blocked=c := by
  have hl : (c.sigInfoList.filter fun n => c.sigMask &&& sigBit n.signo≠0)=c.sigInfoList :=
    filter_eq_self.mpr fun n hn => by simpa using hm n hn
  unfold blocked
  rw [hl,h.masked hm]

lemma blocked_take (hm : c.sigMask &&& sigBit n.signo=0) : blocked {c with
      sigInfoList := c.sigInfoList.erase n
      sigPending := c.sigPending &&& ~~~ sigBit n.signo} = c.blocked := by
  have hl : ((c.sigInfoList.erase n).filter fun m => c.sigMask &&& sigBit m.signo≠0) =
      c.sigInfoList.filter fun m => c.sigMask &&& sigBit m.signo≠0 := by
    rw [← erase_filter,erase_of_not_mem]
    simp [hm]
  have hp : c.sigPending &&& ~~~ sigBit n.signo &&& c.sigMask=c.sigPending &&& c.sigMask := by
    have hmask : ~~~ sigBit n.signo &&& c.sigMask=c.sigMask := by
      apply BitVec.eq_of_getLsbD_eq
      intro i hi
      have hbit : (c.sigMask &&& sigBit n.signo).getLsbD i=false := by
        rw [hm]
        exact BitVec.getLsbD_zero
      rw [BitVec.getLsbD_and,Bool.and_eq_false_iff] at hbit
      rw [BitVec.getLsbD_and,BitVec.getLsbD_not]
      rcases hbit with hb | hb
      . rw [hb,Bool.and_false]
      rw [hb,Bool.not_false,Bool.and_true,decide_eq_true hi,Bool.true_and]
    rw [BitVec.and_assoc,hmask]
  unfold blocked
  rw [hl,hp]

lemma SigOk.osHandleUnBlockSignal_eq (h : SigOk c) : c.osHandleUnBlockSignal=c.blocked := by
  have hfold (l : List SigInfo) (c : TskCb) (h : SigOk c)
      (hl : l=c.sigInfoList.filter fun n => c.sigMask &&& sigBit n.signo=0) :
      l.foldl (fun c n => c.osHandleOneSignal n.signo) c=c.blocked := by
    induction l generalizing c with
    | nil =>
      have hnone := filter_eq_nil_iff.mp hl.symm
      refine (h.blocked_self fun n hn => ?_).symm
      simpa using hnone n hn
    | cons n l ih =>
      have hn : n∈c.sigInfoList ∧ c.sigMask &&& sigBit n.signo=0 := by
        have hmem : n∈c.sigInfoList.filter fun n => c.sigMask &&& sigBit n.signo=0 := by
          rw [← hl]
          exact mem_cons_self
        simpa using mem_filter.mp hmem
      have hrest : l=(c.sigInfoList.erase n).filter fun n => c.sigMask &&& sigBit n.signo=0 := by
        rw [← erase_filter,← hl,erase_cons_head]
      rw [foldl_cons,h.osHandleOneSignal_eq hn.1]
      rw [ih _ (h.take hn.1) hrest,blocked_take hn.2]
  apply hfold _ c h
  apply filter_congr
  intro n hn
  exact decide_eq_decide.mpr (h.unblocked_iff hn)

variable {H : Type} (vectors : Nat → Option H)

def handlerCall (n : SigInfo) : Option (H×Nat) := (vectors n.signo).map fun f => (f,n.signo)

/-- The loop of `OsHandleUnBlockSignal` over the nodes in front of the iterator and from it on; a
node that is taken off leaves the iterator at its predecessor. -/
def unBlockLoop (un : BitVec 64) (front : List SigInfo) : List SigInfo → TskCb →
    TskCb×List (H×Nat)
  | [], c => (c,[])
  | n::rest, c =>
    if un &&& sigBit n.signo=0 then unBlockLoop un (front++[n]) rest c
    else
      let c := {c with
        sigPending := c.sigPending &&& ~~~ sigBit n.signo
        sigInfoList := front++rest}
      let un := c.sigPending &&& ~~~ c.sigMask
      let r := if un=0 then (c,[]) else unBlockLoop un front rest c
      (r.1,(handlerCall vectors n).toList++r.2)

def handleUnBlock (c : TskCb) : TskCb×List (H×Nat) :=
  let un := c.sigPending &&& ~~~ c.sigMask
  if un=0 then (c,[]) else unBlockLoop vectors un [] c.sigInfoList c

def openNodes (c : TskCb) (l : List SigInfo) : List SigInfo :=
  l.filter fun n => c.sigMask &&& sigBit n.signo=0

lemma SigOk.masked_of_zero (h : SigOk c) (hun : c.sigPending &&& ~~~ c.sigMask=0)
    (hn : n∈c.sigInfoList) : c.sigMask &&& sigBit n.signo≠0 := by
  intro hm
  have hne := (h.unblocked_iff hn).mpr hm
  rw [hun] at hne
  simp at hne

lemma openNodes_eq_nil (hm : ∀ n∈l, c.sigMask &&& sigBit n.signo≠0) : c.openNodes l=[] :=
  filter_eq_nil_iff.mpr fun n hn => by simpa using hm n hn

lemma openNodes_masked (hm : c.sigMask &&& sigBit n.signo≠0) : c.openNodes (n::l)=c.openNodes l :=
  filter_cons_of_neg fun hd => hm (of_decide_eq_true hd)

lemma openNodes_through (hm : c.sigMask &&& sigBit n.signo=0) :
    c.openNodes (n::l)=n::c.openNodes l :=
  filter_cons_of_pos (decide_eq_true hm)

/-- The invariant of the loop: the nodes in front of the iterator are masked. -/
lemma SigOk.unBlockLoop_eq (h : SigOk c) {front rest : List SigInfo}
    (hl : c.sigInfoList=front++rest) (hfront : ∀ n∈front, c.sigMask &&& sigBit n.signo≠0) :
    unBlockLoop vectors (c.sigPending &&& ~~~ c.sigMask) front rest c =
      (c.blocked,(c.openNodes rest).filterMap (handlerCall vectors)) := by
  induction rest generalizing c front with
  | nil =>
    have hm : ∀ n∈c.sigInfoList, c.sigMask &&& sigBit n.signo≠0 := by
      rw [hl,append_nil]
      exact hfront
    rw [unBlockLoop,h.blocked_self hm]
    rfl
  | cons n rest ih =>
    have hn : n∈c.sigInfoList := by
      rw [hl]
      exact mem_append_right _ mem_cons_self
    have hopen := h.unblocked_iff hn
    rw [unBlockLoop]
    split
    . next hun =>
      -- a masked node is passed
      have hm : c.sigMask &&& sigBit n.signo≠0 := fun hm => hopen.mpr hm hun
      have hfront' : ∀ m∈front++[n], c.sigMask &&& sigBit m.signo≠0 := by
        intro m hmem
        rcases mem_append.mp hmem with hmem | hmem
        . exact hfront m hmem
        rw [mem_singleton.mp hmem]
        exact hm
      rw [ih h (by rw [hl,append_assoc,singleton_append]) hfront',openNodes_masked hm]
    next hun =>
    have hm : c.sigMask &&& sigBit n.signo=0 := hopen.mp hun
    have hnot : n∉front := fun hmem => hfront n hmem hm
    have herase : c.sigInfoList.erase n=front++rest := by
      rw [hl,erase_append_right _ hnot,erase_cons_head]
    have h' := h.take hn
    have hb := blocked_take (c:=c) hm
    rw [herase] at h' hb
    have hlog : (c.openNodes (n::rest)).filterMap (handlerCall vectors) =
        (handlerCall vectors n).toList ++ (c.openNodes rest).filterMap (handlerCall vectors) := by
      rw [openNodes_through hm]
      cases hc : handlerCall vectors n <;> simp [hc]
    dsimp only
    rw [hlog]
    split
    . next hz =>
      -- nothing is left to handle, so the rest of the list is masked
      have hmask : ∀ m∈front++rest, c.sigMask &&& sigBit m.signo≠0 :=
        fun m hmem => h'.masked_of_zero hz hmem
      have hrest := openNodes_eq_nil (c:=c) fun m hmem => hmask m (mem_append_right _ hmem)
      rw [← hb,h'.blocked_self hmask,hrest]
      rfl
    rw [ih h' rfl hfront,hb]
    rfl

lemma SigOk.handleUnBlock_eq (h : SigOk c) : handleUnBlock vectors c =
      (c.osHandleUnBlockSignal,(c.openNodes c.sigInfoList).filterMap (handlerCall vectors)) := by
  rw [h.osHandleUnBlockSignal_eq]
  simp only [handleUnBlock]
  split
  . next hz =>
    have hm : ∀ n∈c.sigInfoList, c.sigMask &&& sigBit n.signo≠0 :=
      fun n hn => h.masked_of_zero hz hn
    rw [h.blocked_self hm,openNodes_eq_nil hm]
    rfl
  exact h.unBlockLoop_eq vectors rfl nofun

def SigKeeps (c c' : TskCb) : Prop := c'.sigInfoList.Sublist c.sigInfoList ∧ (SigOk c → SigOk c')

lemma sigKeeps_signals : Signals SigKeeps where
  trans h h' := ⟨h'.1.trans h.1,fun hc => h'.2 (h.2 hc)⟩
  masks _ _ _ := ⟨.refl _,fun hc => hc.congr rfl rfl⟩
  take _ _ hn := ⟨erase_sublist,fun hc => hc.take hn⟩

lemma sigKeeps_same {c c'' : TskCb} (h : SigKeeps c c') (he : c''.sigs=c'.sigs) :
    SigKeeps c c'' := by
  simp only [sigs,Prod.mk.injEq] at he
  obtain ⟨-,-,hp,hl⟩ := he
  refine ⟨?_,fun hc => (h.2 hc).congr hl hp⟩
  rw [hl]
  exact h.1

lemma sigOk_empty (hl : c.sigInfoList=[]) (hp : c.sigPending=0) : SigOk c := by
  refine ⟨?_,?_,?_⟩
  . simp [hl]
  . simp [hl]
  simp [hl,hp]

lemma sigKeeps_birth (c c' : TskCb) (prio : Nat) : SigKeeps c (osTskCreateTcbInit prio c') :=
  ⟨nil_sublist _,fun _ => sigOk_empty rfl rfl⟩

/-- The nodes of a task carry the data of the latest delivery of their signal, in the order in which
the signals became pending. -/
structure Noted (latest : Nat → Option SigInfo) (since : Nat → Nat) (clock : Nat) (c : TskCb) :
    Prop where
  ok : SigOk c
  latest : ∀ n∈c.sigInfoList, latest n.signo=some n
  order : c.sigInfoList.Pairwise fun n m => since n.signo<since m.signo
  past : ∀ n∈c.sigInfoList, since n.signo<clock

variable {latest : Nat → Option SigInfo} {since : Nat → Nat} {clock : Nat}

lemma Noted.keeps (h : Noted latest since clock c) (hc : SigKeeps c c') :
    Noted latest since clock c' where
  ok := hc.2 h.ok
  latest n hn := h.latest n (hc.1.subset hn)
  order := h.order.sublist hc.1
  past n hn := h.past n (hc.1.subset hn)

lemma Noted.later (h : Noted latest since clock c) : Noted latest since (clock+1) c :=
  {h with past:=fun n hn => Nat.lt_succ_of_lt (h.past n hn)}

lemma Noted.renew (h : Noted latest since clock c) (info : SigInfo) :
    Noted (update latest info.signo (some info)) since (clock+1) {c with
      sigInfoList := c.sigInfoList.map fun n => if n.signo=info.signo then info else n} := by
  have hsigno (n : SigInfo) : (if n.signo=info.signo then info else n).signo=n.signo := by
    split
    . next he => exact he.symm
    rfl
  have hmap : (c.sigInfoList.map fun n => if n.signo=info.signo then info else n).map
      SigInfo.signo=c.sigInfoList.map SigInfo.signo := by
    rw [map_map]
    exact map_congr_left fun n _ => hsigno n
  have hmem (s : Nat) : (∃ n∈c.sigInfoList.map fun n => if n.signo=info.signo then info else n,
      n.signo=s) ↔ ∃ n∈c.sigInfoList, n.signo=s := by
    rw [← mem_map,← mem_map,hmap]
  refine ⟨⟨?_,?_,?_⟩,?_,?_,?_⟩
  . intro n hn
    obtain ⟨m,hm,rfl⟩ := mem_map.mp hn
    rw [hsigno]
    exact h.ok.valid m hm
  . rw [hmap]
    exact h.ok.nodup
  . intro s hs
    rw [hmem]
    exact h.ok.pending s hs
  . intro n hn
    obtain ⟨m,hm,rfl⟩ := mem_map.mp hn
    split
    . simp
    next hne =>
    rw [update_of_ne hne]
    exact h.latest m hm
  . rw [pairwise_map]
    apply h.order.imp
    intro n m hnm
    rw [hsigno,hsigno]
    exact hnm
  intro n hn
  obtain ⟨m,hm,rfl⟩ := mem_map.mp hn
  rw [hsigno]
  exact Nat.lt_succ_of_lt (h.past m hm)

lemma Noted.append (h : Noted latest since clock c) {info : SigInfo}
    (hv : sigValid info.signo=true) (hp : c.sigPending &&& sigBit info.signo=0) :
    Noted (update latest info.signo (some info)) (update since info.signo clock) (clock+1) {c with
        sigInfoList := c.sigInfoList ++ [info]
        sigPending := c.sigPending ||| sigBit info.signo} := by
  have hpos : 0 < info.signo := by
    simp only [sigValid,decide_eq_true_eq] at hv
    exact hv.1
  have hnew : ∀ n∈c.sigInfoList, n.signo≠info.signo := by
    intro n hn he
    exact (h.ok.pending info.signo hpos).mpr ⟨n,hn,he⟩ hp
  have hcase {P : SigInfo → Prop} (hold : ∀ n∈c.sigInfoList, P n) (hinfo : P info) :
      ∀ n∈c.sigInfoList++[info], P n := by
    intro n hn
    rcases mem_append.mp hn with hn | hn
    . exact hold n hn
    rw [mem_singleton.mp hn]
    exact hinfo
  refine ⟨⟨hcase h.ok.valid hv,?_,?_⟩,?_,?_,?_⟩
  . rw [map_append,map_singleton,nodup_append]
    refine ⟨h.ok.nodup,nodup_singleton _,?_⟩
    intro s hs s' hs'
    obtain ⟨n,hn,rfl⟩ := mem_map.mp hs
    rw [mem_singleton.mp hs']
    exact hnew n hn
  . intro s hs
    rw [or_sigBit hs hv,h.ok.pending s hs]
    simp only [mem_append,mem_singleton,or_and_right,exists_or,exists_eq_left]
    exact or_congr_right eq_comm
  . apply hcase
    . intro n hn
      rw [update_of_ne (hnew n hn)]
      exact h.latest n hn
    exact update_self ..
  . rw [pairwise_append]
    refine ⟨?_,pairwise_singleton _ _,?_⟩
    . apply h.order.imp_of_mem
      intro n m hn hm hlt
      rw [update_of_ne (hnew n hn),update_of_ne (hnew m hm)]
      exact hlt
    intro n hn m hm
    rw [mem_singleton.mp hm,update_of_ne (hnew n hn),update_self]
    exact h.past n hn
  apply hcase
  . intro n hn
    rw [update_of_ne (hnew n hn)]
    exact Nat.lt_succ_of_lt (h.past n hn)
  rw [update_self]
  exact Nat.lt_succ_self clock

/-- The time from which a signal is pending, after a delivery at the time `clock`. -/
def sinceAfter (c : TskCb) (since : Nat → Nat) (clock signo : Nat) : Nat → Nat :=
  if c.sigPending &&& sigBit signo≠0 then since else update since signo clock

lemma Noted.add (h : Noted latest since clock c) {info : SigInfo} {memOk : Bool}
    (hv : sigValid info.signo=true) (hc : c.osAddSignalPendingFlag info memOk=some c') :
    Noted (update latest info.signo (some info)) (c.sinceAfter since clock info.signo)
      (clock+1) c' := by
  unfold osAddSignalPendingFlag at hc
  unfold sinceAfter
  split at hc
  . next hp =>
    cases hc
    rw [if_pos hp]
    exact h.renew info
  split at hc
  . next hp _ =>
    cases hc
    rw [if_neg hp]
    exact h.append hv (not_not.mp hp)
  cases hc

end TskCb

/-- The kernel with the latest accepted delivery for each task and signal, and when it became
pending. -/
structure Signalled where
  kernel : Kernel
  latest : Nat → Nat → Option SigInfo
  since : Nat → Nat → Nat
  clock : Nat

namespace Signalled

def tcb (x : Signalled) (t : Nat) : TskCb := x.kernel.sched.tcb t

def noteDelivery (x : Signalled) (t : Nat) (info : SigInfo) (k : Kernel) : Signalled where
  kernel := k
  latest := update x.latest t (update (x.latest t) info.signo (some info))
  since := update x.since t ((x.tcb t).sinceAfter (x.since t) x.clock info.signo)
  clock := x.clock+1

def step (x : Signalled) (i : Input) : Signalled :=
  match i with
  | .call (.signalDeliver t info memOk) =>
    if x.kernel.enabled i ∧ (x.kernel.sched.prtSignalDeliver t info memOk).2=.osOk then
      x.noteDelivery t info (x.kernel.step i)
    else {x with kernel:=x.kernel.step i}
  | _ => {x with kernel:=x.kernel.step i}

def machine (cfg : Cfg) : Machine Signalled Input where
  start x := x.kernel=Kernel.init cfg
  step := step

def AllNoted (x : Signalled) : Prop := ∀ t, (x.tcb t).Noted (x.latest t) (x.since t) x.clock

variable {x : Signalled}

lemma AllNoted.keeps (h : AllNoted x) {k : Kernel}
    (hk : EachTask SigKeeps x.kernel.sched k.sched) : AllNoted {x with kernel:=k} :=
  fun t => (h t).keeps (hk t)

lemma AllNoted.deliver (h : AllNoted x) {t : Nat} {info : SigInfo} {memOk : Bool}
    (hok : (x.kernel.sched.prtSignalDeliver t info memOk).2=.osOk) {k : Kernel}
    (hk : k.sched=(x.kernel.sched.prtSignalDeliver t info memOk).1) :
    AllNoted (x.noteDelivery t info k) := by
  obtain ⟨-,hne⟩ | ⟨hv,c,hc,he⟩ := x.kernel.sched.prtSignalDeliver_cases t info memOk
  . exact absurd hok hne
  have hnote : EachTask SigKeeps (x.kernel.sched.modTcb t fun _ => c) k.sched := by
    rw [hk,he]
    have hh := EachTask.handles sigKeeps_signals sigKeeps_same sigKeeps_birth
    exact hh.step_signalNotify sigKeeps_signals Touch.any_all (hh.refl _) info.signo
      fun hI => hI.elim
  intro u
  have hu := hnote u
  by_cases hut : u=t
  . subst hut
    simp only [Sched.modTcb,update_self] at hu
    simp only [noteDelivery,update_self]
    exact ((h u).add hv hc).keeps hu
  simp only [Sched.modTcb,update_of_ne hut] at hu
  simp only [noteDelivery,update_of_ne hut]
  exact (h u).later.keeps hu

lemma AllNoted.step (h : AllNoted x) (i : Input) : AllNoted (x.step i) := by
  have hother (hi : ∀ t info memOk, i≠.call (.signalDeliver t info memOk)) :
      AllNoted {x with kernel:=x.kernel.step i} := by
    apply h.keeps
    unfold Kernel.step
    split
    . exact EachTask.act sigKeeps_signals sigKeeps_same sigKeeps_birth
        fun t info memOk _ he => absurd he (hi t info memOk)
    exact fun t => sigKeeps_signals.refl _
  unfold Signalled.step
  split
  . next t info memOk =>
    have hstep (hen : x.kernel.enabled (.call (.signalDeliver t info memOk))=true) :
        (x.kernel.step (.call (.signalDeliver t info memOk))).sched =
          (x.kernel.sched.prtSignalDeliver t info memOk).1 := by
      rw [Kernel.step,if_pos hen]
      rfl
    split
    . next hi => exact h.deliver hi.2 (hstep hi.1)
    next hi =>
    apply h.keeps
    by_cases hen : x.kernel.enabled (.call (.signalDeliver t info memOk))=true
    . -- a delivery that is refused leaves the tasks alone
      obtain ⟨he,-⟩ | ⟨-,c,-,he⟩ := x.kernel.sched.prtSignalDeliver_cases t info memOk
      . rw [hstep hen,he]
        exact fun t => sigKeeps_signals.refl _
      exact absurd ⟨hen,by rw [he]⟩ hi
    rw [Kernel.step,if_neg hen]
    exact fun t => sigKeeps_signals.refl _
  next hi => exact hother fun t info memOk he => hi t info memOk he

lemma allNoted_of_reaches {cfg : Cfg} {ok : Signalled → Input → Prop}
    (hx : (machine cfg).Reaches ok x) : AllNoted x := by
  refine hx.invariant (fun x hs t => ?_) fun x i h _ => h.step i
  have hinit : (x.tcb t).sigInfoList=[] ∧ (x.tcb t).sigPending=0 := by
    have hk : x.kernel=Kernel.init cfg := hs
    unfold tcb
    rw [hk]
    by_cases ht : t=cfg.tskMaxNum+1
    . simp [Kernel.init,ht]
    simp [Kernel.init,ht]
  refine ⟨sigOk_empty hinit.1 hinit.2,?_,?_,?_⟩
  . simp [hinit.1]
  . simp [hinit.1]
  simp [hinit.1]

/-- The nodes of one signal: none unless it is pending, and then one with the latest data. -/
lemma nodes_of_signal (h : AllNoted x) (t : Nat) {signo : Nat} (hs : 0<signo) :
    let nodes := (x.tcb t).sigInfoList.filter fun n => n.signo=signo
    ((x.tcb t).sigPending &&& sigBit signo=0 → nodes=[]) ∧
      ((x.tcb t).sigPending &&& sigBit signo≠0 →
        ∃ info, x.latest t signo=some info ∧ nodes=[info]) := by
  have hp := (h t).ok.pending signo hs
  constructor
  . intro hz
    apply filter_eq_nil_iff.mpr
    intro n hn hsig
    exact hp.mpr ⟨n,hn,of_decide_eq_true hsig⟩ hz
  intro hb
  obtain ⟨n,hn,rfl⟩ := hp.mp hb
  refine ⟨n,(h t).latest n hn,?_⟩
  have hiff : ∀ m∈(x.tcb t).sigInfoList, decide (m.signo=n.signo)=(m == n) := by
    intro m hm
    apply decide_eq_decide.mpr
    exact ⟨(h t).ok.eq_of_signo hm hn,fun he => by rw [he]⟩
  rw [filter_congr hiff,filter_beq,count_eq_one_of_mem _ hn]
  . rfl
  exact (h t).ok.nodup.of_map

/-- The handlers of the unblocked pending signals are called once each in the order of arrival, and
no such signal is left. -/
structure Unblocks {H : Type} (vectors : Nat → Option H) (since : Nat → Nat) (c : TskCb)
    (r : TskCb×List (H×Nat)) : Prop where
  calls : ∃ nodes : List SigInfo,
    (∀ n∈nodes, n∈c.sigInfoList) ∧
      (∀ signo, 0<signo → (signo∈nodes.map SigInfo.signo ↔
        c.sigPending &&& ~~~ c.sigMask &&& sigBit signo≠0)) ∧
      nodes.Pairwise (fun n m => since n.signo<since m.signo) ∧
      r.2=nodes.filterMap (TskCb.handlerCall vectors)
  none_left : r.1.sigPending &&& ~~~ r.1.sigMask=0
  nodes_left : ∀ n∈r.1.sigInfoList, r.1.sigMask &&& sigBit n.signo≠0
  model : r.1=c.osHandleUnBlockSignal

lemma unblocks {H : Type} (vectors : Nat → Option H) {latest : Nat → Option SigInfo}
    {since : Nat → Nat} {clock : Nat} {c : TskCb} (h : c.Noted latest since clock) :
    Unblocks vectors since c (handleUnBlock vectors c) := by
  rw [h.ok.handleUnBlock_eq]
  refine ⟨⟨c.openNodes c.sigInfoList,?_,?_,?_,rfl⟩,?_,?_,rfl⟩
  . intro n hn
    exact (mem_filter.mp hn).1
  . intro signo hs
    constructor
    . intro hmem
      obtain ⟨n,hn,rfl⟩ := mem_map.mp hmem
      obtain ⟨hn,hm⟩ := mem_filter.mp hn
      exact (h.ok.unblocked_iff hn).mpr (of_decide_eq_true hm)
    intro hun
    have hpend : c.sigPending &&& sigBit signo≠0 := by
      rw [and_sigBit] at hun ⊢
      rw [BitVec.getLsbD_and,Bool.and_eq_true] at hun
      exact hun.1
    obtain ⟨n,hn,rfl⟩ := (h.ok.pending signo hs).mp hpend
    have hm := (h.ok.unblocked_iff hn).mp hun
    exact mem_map.mpr ⟨n,mem_filter.mpr ⟨hn,decide_eq_true hm⟩,rfl⟩
  . exact h.order.sublist filter_sublist
  . rw [h.ok.osHandleUnBlockSignal_eq]
    simp [blocked,BitVec.and_assoc]
  rw [h.ok.osHandleUnBlockSignal_eq]
  intro n hn
  exact of_decide_eq_true (mem_filter.mp hn).2

/-- The pending set, the list of nodes and the deliveries of every task agree in every run. -/
theorem pending_bookkeeping {cfg : Cfg} {x : Signalled}
    (hx : (machine cfg).Reaches (fun _ _ => True) x) (t : Nat) : (∀ signo, 0<signo →
      let nodes := (x.tcb t).sigInfoList.filter fun n => n.signo=signo
      ((x.tcb t).sigPending &&& sigBit signo=0 → nodes=[]) ∧
        ((x.tcb t).sigPending &&& sigBit signo≠0 →
          ∃ info, x.latest t signo=some info ∧ nodes=[info])) ∧
    (∀ info memOk,
      (x.kernel.exec (.signalDeliver t info memOk)).2=some .signalNoMemory →
        (x.kernel.exec (.signalDeliver t info memOk)).1=x.kernel) ∧
    ∀ {H : Type} (vectors : Nat → Option H) (mask wait : BitVec 64),
      let c := {x.tcb t with sigMask:=mask, sigWaitMask:=wait}
      Unblocks vectors (x.since t) c (TskCb.handleUnBlock vectors c) := by
  have h := allNoted_of_reaches hx
  refine ⟨fun signo hs => nodes_of_signal h t hs,fun info memOk he => ?_,?_⟩
  . obtain ⟨hsame,-⟩ | ⟨-,c,-,hok⟩ := x.kernel.sched.prtSignalDeliver_cases t info memOk
    . simp only [Kernel.exec,Kernel.ofSched]
      rw [hsame]
    simp only [Kernel.exec,Kernel.ofSched] at he
    rw [hok] at he
    cases he
  intro H vectors mask wait
  exact unblocks vectors ((h t).keeps (TskCb.sigKeeps_signals.masks _ mask wait))

def blockedInputs : List Input :=
  [.call (.taskCreate (smallTask 9) true false),.call (.taskResume 0),.activate true,
   .call (.signalMask .setmask (~~~ 0)),.call (.signalDeliver 0 ⟨2,1⟩ true),
   .call (.signalDeliver 0 ⟨5,2⟩ true),.call (.signalDeliver 0 ⟨2,3⟩ false)]

def blockedRun : Signalled :=
  (machine smallCfg).run ⟨Kernel.init smallCfg,fun _ _ => none,fun _ _ => 0,0⟩ blockedInputs

theorem pending_bookkeeping_blocked : (blockedRun.tcb 0).sigInfoList=[⟨2,3⟩,⟨5,2⟩] ∧
      (∃ info, blockedRun.latest 0 2=some info ∧
        (blockedRun.tcb 0).sigInfoList.filter (fun n => n.signo=2)=[info]) ∧
      Unblocks (fun _ => some ()) (blockedRun.since 0)
        {blockedRun.tcb 0 with sigMask:=0, sigWaitMask:=0}
        (TskCb.handleUnBlock (fun _ => some ())
          {blockedRun.tcb 0 with sigMask:=0, sigWaitMask:=0}) ∧
      (TskCb.handleUnBlock (fun _ => some ())
        {blockedRun.tcb 0 with sigMask:=0, sigWaitMask:=0}).2=[((),2),((),5)] := by
  have hrun : (machine smallCfg).Reaches (fun _ _ => True) blockedRun :=
    Machine.Reaches.run (.start rfl) _
      ⟨trivial,trivial,trivial,trivial,trivial,trivial,trivial,trivial⟩
  obtain ⟨hnodes,-,hun⟩ := pending_bookkeeping hrun 0
  refine ⟨by decide +kernel,?_,hun _ 0 0,by decide +kernel⟩
  exact (hnodes 2 (by decide)).2 (by decide +kernel)

end Signalled

end UniProton
