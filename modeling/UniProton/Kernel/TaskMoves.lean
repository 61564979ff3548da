import UniProton.Kernel.TaskMode

namespace UniProton

open TskMode

namespace TskMode

def mark (x : Bool) (b : TskStatus) : TskMode → TskStatus
  | .sem _ => {b with pend:=x}
  | .queue _ _ => {b with queuePend:=x}
  | .event => {b with eventPend:=x}
  | .rw _ _ => {b with rwPend:=x}
  | .delay => {b with delay:=x}
  | .delayInt => {b with delayInterruptible:=x}
  | _ => b

def head : TskMode → Option PendHead
  | .sem i => some (.sem i)
  | .queue q w => some (.queue q w)
  | .rw l w => some (.rw l w)
  | _ => none

end TskMode

namespace Fits

variable {L : Nat} {m : TskMode} {v : TaskView}

lemma readyDel (h : Fits L m v) (hm : m.runnable=true) : Fits L .out v.readyDel := by
  have ht : v.timed=false := h.timed_of_runnable hm
  obtain rfl | rfl := eq_of_runnable hm
  all_goals exact
    {h with
      ready := rfl
      suspend := nofun
      unused := nofun
      loc := rfl
      obj := trivial
      ctx := h.plain
      timer := fun ht' => by simp [ht] at ht'
      busy := fun hb => ⟨rfl,(h.busy hb).2⟩
      handed := fun _ => h.handed rfl}

lemma readyAdd (h : Fits L .out v) (hs : v.bits.suspend=false) : Fits L .ready v.readyAdd :=
  {h with
    ready := rfl
    suspend := fun _ => hs
    unused := nofun
    loc := by
      have hl : v.loc=none := h.loc
      simp [At,hl]
    timer := fun ht => by simp [h.timed_of_runnable rfl] at ht
    busy := fun hb => ⟨rfl,(h.busy hb).2⟩
    handed := fun _ => h.handed rfl}

lemma setPrio (h : Fits L m v) (hm : m≠.ready) {p : Nat} (hp : p≤L) :
    Fits L m (v.modTcb fun c => {c with priority:=p}) :=
  {h with
    loc := by
      have hl := h.loc
      cases m <;> simp_all [At]
    obj := by
      have ho := h.obj
      cases m <;> simp_all [Obj]
    prio := hp}

lemma modTcb (h : Fits L m v) {f : TskCb → TskCb} (hb : (f v.tcb).taskStatus=v.tcb.taskStatus)
    (hp : (f v.tcb).priority=v.tcb.priority) (ho : (f v.tcb).taskPend=v.tcb.taskPend)
    (hg : (f v.tcb).origPriority≤L) : Fits L m (v.modTcb f) := by
  have hbits : (v.modTcb f).bits=v.bits := hb
  have hprio : (v.modTcb f).tcb.priority=v.tcb.priority := hp
  have hobj : m.Obj (v.modTcb f).tcb := by
    have hold := h.obj
    cases m <;> simp_all [Obj]
  obtain ⟨_,_,_,_,_,_,_,_,_,_,_,_,_,_,_,_,_,_,_,_⟩ := h
  constructor
  all_goals try simp only [hbits,hprio]
  all_goals first | exact hobj | exact hg | assumption

lemma wait (h : Fits L .out v) (hm : m.timeable=true) {o : Option PendObj} {k : Cont}
    (ho : m.Obj {v.tcb with taskPend:=o}) (hk : m.Ctx k) (hb : v.bits.queueBusy=false) :
    Fits L m ⟨{v.tcb with taskPend:=o, taskStatus:=m.mark true v.tcb.taskStatus},k,
      m.head.elim v.loc (fun hd => some (v.loc.getD hd)),v.timed⟩ := by
  have hl : v.loc=none := h.loc
  have ht : v.timed=false := h.timed_of_runnable rfl
  cases m with
  | unused | out | ready | delay => cases hm
  | _ => exact
    {h with
      pend := by first | rfl | exact h.pend
      queuePend := by first | rfl | exact h.queuePend
      eventPend := by first | rfl | exact h.eventPend
      rwPend := by first | rfl | exact h.rwPend
      delayInterruptible := by first | rfl | exact h.delayInterruptible
      suspend := by simp
      unused := by simp
      loc := by simp [At,head,hl]
      obj := ho
      ctx := hk
      timer := fun ht' => by simp [ht] at ht'
      busy := fun hb' => absurd (hb.symm.trans hb') (by simp)
      handed := (by rintro ⟨⟩)}

lemma pendDelay (h : Fits L .out v) (hk : v.cont=.user) (tick : Nat) :
    Fits L .delay ((v.modStatus fun b => {b with delay:=true}).timerAdd tick) :=
  {h with
    delay := rfl
    suspend := nofun
    unused := nofun
    ctx := hk
    timer := fun _ => trivial
    busy := fun hb => absurd (by rw [hk]; rfl) (h.busy hb).2
    handed := nofun}

lemma timeLimit (h : Fits L m v) (hm : m.timeable=true)
    (hk : m≠.delayInt → v.cont.timed=true) (tick : Nat) :
    Fits L m ((v.modStatus fun b => {b with timeout:=true}).timerAdd tick) :=
  {h with
    unused := fun hu => by subst hu; cases hm
    loc := h.loc
    obj := by
      have ho := h.obj
      cases m <;> simp_all [Obj]
    timer := fun _ => by cases m <;> simp_all [Timer,timeable,TaskView.bits]
    handed := fun hr => by cases m <;> simp_all [runnable,timeable]}

lemma noLimit (h : Fits L m v) (hm : m.timeable=true) (hv : v.timed=false) :
    Fits L m (v.modStatus fun b => {b with timeout:=false}) :=
  {h with
    unused := fun hu => by subst hu; cases hm
    obj := by
      have ho := h.obj
      cases m <;> simp_all [Obj]
    timer := fun ht => by simp [hv] at ht
    handed := fun hr => by cases m <;> simp_all [runnable,timeable]}

lemma ended (h : Fits L m v) (hm : m.runnable=false) (hu : m≠.unused) {o : Option PendObj}
    {loc : Option PendHead} {x y : Bool} (hl : loc=none)
    (hy : if m.mayQueue then y = !x else y=v.bits.queueBusy) : Fits L .out ⟨{v.tcb with
      taskPend := o
      taskStatus := {m.mark false v.tcb.taskStatus with timeout:=x, queueBusy:=y}},
      v.cont,loc,false⟩ := by
  subst hl
  have hbusy : y=true → v.cont.queueOf≠none := by
    intro hyt hq
    have hctx := h.ctx
    have hfree := h.busy_of_not_runnable hm
    cases m <;> simp_all [mayQueue,Ctx,runnable]
  have hhand : v.cont.queueOf≠none → y = !x := by
    intro hq
    rwa [h.ctx.mayQueue hq,if_pos rfl] at hy
  cases m with
  | unused => exact absurd rfl hu
  | out | ready => cases hm
  | _ => exact
    {h with
      pend := by first | rfl | exact h.pend
      queuePend := by first | rfl | exact h.queuePend
      eventPend := by first | rfl | exact h.eventPend
      rwPend := by first | rfl | exact h.rwPend
      delay := by first | rfl | exact h.delay
      delayInterruptible := by first | rfl | exact h.delayInterruptible
      suspend := by simp
      unused := by simp
      loc := rfl
      obj := trivial
      ctx := h.plain
      timer := by simp
      busy := fun hb => ⟨rfl,hbusy hb⟩
      handed := fun _ => hhand}

lemma setSuspend (h : Fits L m v) (hm : m≠.ready) (hu : m≠.unused) (x : Bool) :
    Fits L m (v.modStatus fun b => {b with suspend:=x}) :=
  {h with
    suspend := fun hr => absurd hr hm
    unused := fun hn => absurd hn hu
    obj := by
      have ho := h.obj
      cases m <;> simp_all [Obj]
    timer := fun ht => by
      have hT := h.timer ht
      cases m <;> simp_all [Timer,TaskView.bits]}

lemma setRunning (h : Fits L m v) {x : Bool} (hu : m=.unused → x=false) :
    Fits L m (v.modStatus fun b => {b with running:=x}) :=
  {h with
    unused := fun hn => by
      have hz : v.tcb.taskStatus={} := h.unused hn
      change ({v.tcb.taskStatus with running:=x} : TskStatus)={}
      rw [hz,hu hn]
    obj := by
      have ho := h.obj
      cases m <;> simp_all [Obj]
    timer := fun ht => by
      have hT := h.timer ht
      cases m <;> simp_all [Timer,TaskView.bits]}

lemma settle (h : Fits L m v) (hm : m.runnable=true) (x z : Bool) {k : Cont}
    (hk : k.queueOf=none) (hp : k.plain=true) : Fits L m ⟨{ v.tcb with taskStatus :=
        {v.tcb.taskStatus with timeout:=x, queueBusy:=false, eventType:=z} },
      k,v.loc,v.timed⟩ :=
  {h with
    suspend := h.suspend
    unused := fun hn => by subst hn; cases hm
    obj := by cases m <;> simp_all [Obj,runnable]
    ctx := by cases m <;> simp_all [Ctx,runnable]
    timer := fun ht => by simp [h.timed_of_runnable hm] at ht
    busy := nofun
    handed := fun _ hq => absurd hk hq}

lemma create (h : Fits L .unused v) {p : Nat} (hp : p≤L) {f : TskCb → TskCb}
    (hs : (f v.tcb).taskStatus={inuse:=true, suspend:=true})
    (hprio : (f v.tcb).priority=p) (horig : (f v.tcb).origPriority=p) :
    Fits L .out ⟨f v.tcb,.user,none,v.timed⟩ := by
  generalize f v.tcb=b at hs hprio horig
  cases b
  dsimp only at hs hprio horig
  subst hs
  exact
    { inuse := rfl, ready := rfl, pend := rfl, queuePend := rfl, eventPend := rfl, rwPend := rfl
      delay := rfl, delayInterruptible := rfl, waitqueuePend := rfl, holdSignal := rfl
      suspend := nofun, unused := nofun, loc := rfl, obj := trivial, ctx := rfl
      prio := le_of_eq_of_le hprio hp
      orig := le_of_eq_of_le horig hp
      timer := fun ht => h.timer ht
      busy := nofun
      handed := nofun }

end Fits

end UniProton
