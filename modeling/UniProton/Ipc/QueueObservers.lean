import UniProton.Ipc.QueueRun

namespace UniProton

open Framework List

def osQueuePidAll : Nat := 0xFFFFFFFF

namespace QueCb

variable {c : QueCb} {l : List QueMsg}

/-- The loop of `PRT_QueueGetNodeNum` over the first `n` nodes: those of `taskPid`, and all that are
in use. -/
def countNodes (c : QueCb) (taskPid : Nat) : Nat → Nat×Nat
  | 0 => (0,0)
  | n+1 =>
    let (num,numAll) := c.countNodes taskPid n
    (if (c.queue n).srcPid=taskPid then num+1 else num,
      if (c.queue n).srcPid≠osQueuePidInvalid then numAll+1 else numAll)

lemma countNodes_eq (c : QueCb) (pid n : Nat) : c.countNodes pid n =
    ((List.range n).countP fun i => decide ((c.queue i).srcPid=pid),
      (List.range n).countP fun i => decide ((c.queue i).srcPid≠osQueuePidInvalid)) := by
  induction n with
  | zero => rfl
  | succ n ih =>
    simp only [countNodes,ih,range_succ,countP_append,countP_singleton,decide_eq_true_eq]
    refine Prod.ext ?_ ?_
    all_goals
      dsimp only
      split <;> rfl

lemma countP_split {α : Type} {p p1 p2 : α → Bool} (l : List α)
    (h : ∀ a∈l, (p a).toNat=(p1 a).toNat+(p2 a).toNat) :
    l.countP p=l.countP p1+l.countP p2 := by
  induction l with
  | nil => rfl
  | cons a l ih => cases hp : p a <;> cases h1 : p1 a <;> cases h2 : p2 a <;> simp_all <;> omega

variable {n : Nat} (h : c.Shows l) (hn : n<0xFFFF)
  (hs : ∀ m∈l, ∀ t, m.src=some t → t≤n)

include hn hs

lemma tag_of_mem {m : QueMsg} (hm : m∈l) :
    m.src.getD 0xFF % 2^16=m.src.getD 0xFF ∧ m.src.getD 0xFF≠osQueuePidInvalid := by
  have hlt : m.src.getD 0xFF<0xFFFF := by
    cases hsrc : m.src with
    | none =>
      change 0xFF<0xFFFF
      omega
    | some t =>
      have ht := hs m hm t hsrc
      change t<0xFFFF
      omega
  refine ⟨Nat.mod_eq_of_lt (by omega),?_⟩
  unfold osQueuePidInvalid
  omega

include h

lemma Shows.countNodes_all (pid : Nat) : (c.countNodes pid c.nodeNum).2=l.length := by
  rw [countNodes_eq]
  refine (Ring.Shows.countP_range (p:=fun x => decide (x.srcPid≠osQueuePidInvalid))
    (r:=fun _ => true) h (fun x m hm hx => ?_) fun x hx => ?_).trans ?_
  . obtain ⟨htag,hne⟩ := tag_of_mem hn hs hm
    rw [hx.src,htag]
    exact decide_eq_true hne
  . exact decide_eq_false fun hne => hne hx
  rw [countP_true]

lemma Shows.countNodes_pid {t : Nat} (ht : t≤n) : (c.countNodes t c.nodeNum).1 =
    l.countP (fun m => decide (m.src=some t)) + l.countP fun m => decide (t=0xFF ∧ m.src=none) := by
  rw [countNodes_eq]
  refine (Ring.Shows.countP_range (p:=fun x => decide (x.srcPid=t))
    (r:=fun m => decide (m.src.getD 0xFF=t)) h (fun x m hm hx => ?_) fun x hx => ?_).trans ?_
  . rw [hx.src,(tag_of_mem hn hs hm).1]
  . refine decide_eq_false fun he => ?_
    have hf : x.srcPid=0xFFFF := hx
    omega
  refine countP_split l fun m _ => ?_
  cases hsrc : m.src with
  | none => simp [eq_comm]
  | some s => simp

end QueCb

namespace QueEvent

lemma replay_mem {cap : Nat} {log : List QueEvent} {l : List QueMsg}
    (h : replay cap log=some l) : ∀ m∈l, ∃ urgent, .wrote m.src urgent m.data∈log := by
  induction log generalizing l with
  | nil =>
    cases h
    nofun
  | cons e log ih =>
    simp only [replay,Option.bind_eq_some_iff] at h
    obtain ⟨l0,h0,he⟩ := h
    intro m hm
    have hold (hm0 : m∈l0) : ∃ urgent, .wrote m.src urgent m.data∈e::log := by
      obtain ⟨urgent,hmem⟩ := ih h0 m hm0
      exact ⟨urgent,mem_cons_of_mem e hmem⟩
    cases e with
    | wrote src urgent data =>
      simp only [apply] at he
      split at he
      . cases he
        have hm' : m=⟨src,data⟩ ∨ m∈l0 := by
          cases urgent with
          | true => exact mem_cons.mp hm
          | false => exact (mem_append.mp hm).symm.imp_left mem_singleton.mp
        rcases hm' with rfl | hm'
        . exact ⟨urgent,mem_cons_self⟩
        exact hold hm'
      cases he
    | got bufLen len data =>
      cases l0 with
      | nil => cases he
      | cons m0 l1 =>
        simp only [apply] at he
        split at he
        . cases he
          exact hold (mem_cons_of_mem m0 hm)
        cases he

end QueEvent

namespace Kernel

open Sched

section observers

variable (k : Kernel)

def osQueueGetParaCheck (q : Nat) : Errno :=
  if k.sched.cfg.maxQueue≤q then .queueInvalid
  else if (k.queues q).used=false then .queueNotCreate
  else .osOk

def prtQueueGetUsedPeak (queueId : Nat) : Except Errno Nat :=
  let q := osQueueInnerId queueId
  match k.osQueueGetParaCheck q with
  | .osOk => .ok (k.queues q).nodePeak
  | e => .error e

def prtQueueGetNodeNum (queueId taskPid : Nat) : Except Errno Nat :=
  let q := osQueueInnerId queueId
  match k.osQueueGetParaCheck q with
  | .osOk =>
    let c := k.queues q
    let (num,numAll) :=
      if taskPid≠osQueuePidInvalid then c.countNodes taskPid c.nodeNum else (0,0)
    .ok (if taskPid=osQueuePidAll then numAll else num)
  | e => .error e

end observers

variable {k : Kernel} {i : Input} {q id t : Nat} {cfg : Cfg}

lemma act_queLog (k : Kernel) (i : Input) (q : Nat) :
    (k.act i).1.queLog q=k.queLog q ∨ (k.act i).1.queLog q=[] ∨
      ∃ op e, k.queueDoes i=some (q,op) ∧ op.Logs e ∧ (k.act i).1.queLog q=e::k.queLog q := by
  by_cases hc : ∃ num size memOk, i=.call (.queueCreate num size memOk)
  . obtain ⟨num,size,memOk,rfl⟩ := hc
    change (k.prtQueueCreate num size memOk).1.queLog q=_ ∨
      (k.prtQueueCreate num size memOk).1.queLog q=[] ∨ _
    simp only [prtQueueCreate]
    split
    . exact .inl rfl
    split
    . exact .inl rfl
    next p hfind =>
    split
    . exact .inl rfl
    by_cases hq : q=p
    . subst hq
      exact .inr (.inl (Function.update_self _ _ _))
    exact .inl (Function.update_of_ne hq _ _)
  have hstep : QueueStep k q i := queueStep i fun num size memOk hi => absurd ⟨num,size,memOk,hi⟩ hc
  by_cases hok : ∃ op, k.queueDoes i=some (q,op) ∧ (k.act i).2=some .osOk
  . obtain ⟨op,hop,hok⟩ := hok
    obtain ⟨e,he,hlog⟩ := hstep.done op hop hok
    exact .inr (.inr ⟨op,e,hop,he,hlog⟩)
  exact .inl (hstep.other fun op hop hres => hok ⟨op,hop,hres⟩).log

def Sourced (k : Kernel) : Prop :=
  ∀ q t urgent data, .wrote (some t) urgent data∈k.queLog q → t≤k.sched.cfg.tskMaxNum

lemma queSource_le {c u : Prop} (hab : Able c u k.sched) (hb : k.sched.cpu.bgdActive=true)
    (hs : k.queSource=some t) : t≤k.sched.cfg.tskMaxNum := by
  unfold queSource at hs
  split at hs
  . cases hs
  next hi =>
  have htask : k.sched.cpu.taskContext=true := by
    simp only [Cpu.intActive,Bool.or_eq_true,not_or,Bool.not_eq_true] at hi
    simp only [Cpu.taskContext,hb,hi,Bool.not_false,Bool.and_self]
  have hle := hab.run.real htask
  rw [← Option.some.inj hs]
  exact le_of_eq_of_le (hab.core.pids _ hle) hle

lemma queueDoes_source {c u : Prop} (hab : Able c u k.sched) (hen : k.enabled i=true)
    {urgent : Bool} {data : List UInt8}
    (hd : k.queueDoes i=some (q,.write (some t) urgent data)) : t≤k.sched.cfg.tskMaxNum := by
  cases i with
  | call call =>
    cases call with
    | queueWrite id data n prio =>
      obtain ⟨-,hop⟩ := Prod.mk.inj (Option.some.inj hd)
      refine queSource_le hab ?_ (QueOp.write.inj hop).1
      exact (enabled_call hen).2.bgd.resolve_right nofun
    | queueRead id len n =>
      obtain ⟨-,hop⟩ := Prod.mk.inj (Option.some.inj hd)
      cases hop
    | _ => cases hd
  | proceed =>
    have hb : k.sched.cpu.bgdActive=true := by
      simp only [enabled,Cpu.taskContext,Bool.and_eq_true] at hen
      exact hen.2.1.1.1
    simp only [queueDoes] at hd
    split at hd
    . cases hd
    . obtain ⟨-,hop⟩ := Prod.mk.inj (Option.some.inj hd)
      exact queSource_le hab hb (QueOp.write.inj hop).1
    cases hd
  | _ => cases hd

lemma Sourced.act {c u : Prop} (h : k.Sourced) (hab : Able c u k.sched)
    (hcfg : (k.act i).1.sched.cfg=k.sched.cfg) (hen : k.enabled i=true) :
    (k.act i).1.Sourced := by
  intro q t urgent data hm
  rw [hcfg]
  rcases act_queLog k i q with hlog | hlog | ⟨op,e,hd,he,hlog⟩
  . rw [hlog] at hm
    exact h q t urgent data hm
  . rw [hlog] at hm
    cases hm
  rw [hlog] at hm
  rcases mem_cons.mp hm with rfl | hm
  . cases op with
    | read n =>
      obtain ⟨len,d,hne⟩ := he
      cases hne
    | write src urg d =>
      cases he
      exact queueDoes_source hab hen hd
  exact h q t urgent data hm

lemma sourced_of_plain (hr : (kernelMachine cfg).Reaches (fun _ i => i.plain=true) k) :
    k.Sourced ∧ k.sched.cfg=cfg := by
  refine hr.invariant_of (P:=fun k => k.Sourced ∧ k.sched.cfg=cfg) (fun _ => fine_of_plain) ?_
    fun k i hf hk hi => ?_
  . rintro k rfl
    exact ⟨nofun,rfl⟩
  change (k.step i).Sourced ∧ (k.step i).sched.cfg=cfg
  unfold Kernel.step
  split
  . next hen =>
    have hab := hf.able .none (enabled_alive hen)
    have hcfg := (act_keeps hab hf.sem False.elim hen (Input.plain_ok hi k)).cfg
    exact ⟨hk.1.act hab hcfg hen,hcfg.trans hk.2⟩
  exact hk

/-- The number of all messages and the peak are right, and so is the number for a task, unless it is
the task 255 and an interrupt has a message in the queue. -/
theorem queue_observers_iff (hr : (kernelMachine cfg).Reaches (fun _ i => i.plain=true) k)
    (hn : cfg.tskMaxNum<0xFFFF) (hid : osQueueInnerId id<cfg.maxQueue)
    (hu : (k.queues (osQueueInnerId id)).used=true) :
    ∃ l, QueEvent.replay (k.queues (osQueueInnerId id)).nodeNum (k.queLog (osQueueInnerId id)) =
        some l ∧ k.prtQueueGetNodeNum id osQueuePidAll=.ok l.length ∧
      k.prtQueueGetUsedPeak id=.ok (QueEvent.peak (k.queLog (osQueueInnerId id))) ∧
      ∀ t≤cfg.tskMaxNum, k.prtQueueGetNodeNum id t=.ok (l.countP fun m => m.src=some t) ↔
        (t=0xFF → ∀ m∈l, m.src≠none) := by
  obtain ⟨hsrc,hcfg⟩ := sourced_of_plain hr
  obtain ⟨l,hl⟩ := (queOk_of_plain hr).used _ hu
  have hs : ∀ m∈l, ∀ t, m.src=some t → t≤cfg.tskMaxNum := by
    intro m hm t ht
    obtain ⟨urgent,hmem⟩ := QueEvent.replay_mem hl.replay m hm
    rw [ht] at hmem
    rw [← hcfg]
    exact hsrc _ t urgent m.data hmem
  have hcheck : k.osQueueGetParaCheck (osQueueInnerId id)=.osOk := by
    unfold osQueueGetParaCheck
    rw [hcfg,if_neg (Nat.not_le_of_lt hid),if_neg (by simp [hu])]
  refine ⟨l,hl.replay,?_,?_,fun t ht => ?_⟩
  . have hne : osQueuePidAll≠osQueuePidInvalid := by decide
    simp only [prtQueueGetNodeNum,hcheck]
    rw [if_pos hne,if_pos trivial,hl.shows.countNodes_all hn hs]
  . simp only [prtQueueGetUsedPeak,hcheck]
    rw [hl.peak]
  have hne : t≠osQueuePidInvalid ∧ t≠osQueuePidAll := by
    unfold osQueuePidInvalid osQueuePidAll
    omega
  simp only [prtQueueGetNodeNum,hcheck]
  rw [if_pos hne.1,if_neg hne.2,hl.shows.countNodes_pid hn hs ht]
  simp only [Except.ok.injEq,Nat.add_eq_left,countP_eq_zero,decide_eq_true_eq,not_and]
  exact ⟨fun h he m hm => h m hm he,fun h m hm he => h he m hm⟩

/-- Tasks of the priority 3 up to number 255, which runs, and a queue of two nodes into which an
interrupt writes. -/
def wideCfg : Cfg := {smallCfg with tskMaxNum:=256, tsk_lt:=by decide}

def irqWroteInputs : List Input :=
  List.replicate 256 (.call (.taskCreate (smallTask 3) true false)) ++
    [.call (.queueCreate 2 8 true),.call (.taskResume 255),.activate true,.hwiEnter,
     .call (.queueWrite 1 [7] 0 0)]

def irqWrote : Kernel := (kernelMachine wideCfg).run (init wideCfg) irqWroteInputs

theorem queue_observers_irq : irqWrote.sched.cpu.runningTask=255 ∧
    irqWrote.queLog 0=[.wrote none false [7]] ∧
    QueEvent.replay 2 (irqWrote.queLog 0)=some [⟨none,[7]⟩] ∧
    (irqWrote.prtQueueGetNodeNum 1 255).toOption=some 1 := by
  decide +kernel

theorem queue_observers_handed :
    (handed.queues 0).used=true ∧ handed.queLog 0=[.wrote (some 1) false [7,9]] ∧
      ∃ l, QueEvent.replay (handed.queues 0).nodeNum (handed.queLog 0)=some l ∧
        handed.prtQueueGetNodeNum 1 1=.ok (l.countP fun m => m.src=some 1) := by
  have hrun : (kernelMachine smallCfg).Allowed (fun _ i => i.plain=true) (init smallCfg)
      handedInputs := ⟨rfl,rfl,rfl,rfl,rfl,rfl,rfl,rfl,rfl,trivial⟩
  have hu : (handed.queues 0).used=true := by decide +kernel
  refine ⟨hu,by decide +kernel,?_⟩
  have hid : osQueueInnerId 1<smallCfg.maxQueue := by decide
  obtain ⟨l,hl,-,-,hpid⟩ := queue_observers_iff
    (Machine.Reaches.run (.start rfl) handedInputs hrun) (by decide) hid hu
  exact ⟨l,hl,(hpid 1 (by decide)).mpr nofun⟩

end Kernel

end UniProton
