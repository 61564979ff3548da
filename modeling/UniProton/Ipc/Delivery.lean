import UniProton.Ipc.Counting
import UniProton.Kernel.Lives

namespace UniProton

open Framework Function List Sched

namespace EvEvent

/-- The events that are there after a history: writes add theirs, and a read takes its mask away. -/
def word : List EvEvent → BitVec 32
  | [] => 0
  | .wrote events::l => word l ||| events
  | .read mask _ _::l => word l &&& ~~~ mask
  | .missed _ _::l => word l

/-- Every read has handed out what was there of its mask, and enough of it. -/
def Fair : List EvEvent → Prop
  | [] => True
  | .read mask all events::l =>
    events=word l &&& mask ∧ eventNotMatch all (word l) mask=false ∧ Fair l
  | _::l => Fair l

lemma Fair.suffix {l1 l2 : List EvEvent} (h : Fair (l1++l2)) : Fair l2 := by
  induction l1 with
  | nil => exact h
  | cons e l ih =>
    cases e with
    | wrote events => exact ih h
    | read mask all events => exact ih h.2.2
    | missed mask all => exact ih h

lemma written_of_word {l : List EvEvent} {i : Nat} (h : (word l).getLsbD i=true) :
    ∃ l1 events l2, l=l1 ++ .wrote events::l2 ∧ events.getLsbD i=true ∧
      ∀ mask all events, .read mask all events∈l1 → mask.getLsbD i=false := by
  induction l with
  | nil => simp [word] at h
  | cons e l ih =>
    cases e with
    | wrote events =>
      by_cases hi : events.getLsbD i=true
      . exact ⟨[],events,l,rfl,hi,nofun⟩
      have hl : (word l).getLsbD i=true := by simpa [word,hi] using h
      obtain ⟨l1,ev,l2,rfl,hev,hno⟩ := ih hl
      exact ⟨_::l1,ev,l2,rfl,hev,fun m a e he => hno m a e (by simpa using he)⟩
    | read mask all events =>
      simp only [word,BitVec.getLsbD_and,BitVec.getLsbD_not,Bool.and_eq_true,Bool.not_eq_true'] at h
      obtain ⟨l1,ev,l2,rfl,hev,hno⟩ := ih h.1
      refine ⟨_::l1,ev,l2,rfl,hev,fun m a e he => ?_⟩
      rcases mem_cons.mp he with he | he
      . obtain ⟨rfl,-,-⟩ := EvEvent.read.inj he
        exact h.2.2
      exact hno m a e he
    | missed mask all =>
      obtain ⟨l1,ev,l2,rfl,hev,hno⟩ := ih h
      exact ⟨_::l1,ev,l2,rfl,hev,fun m a e he => hno m a e (by simpa using he)⟩

end EvEvent

variable {event mask : BitVec 32} {all : Bool}

lemma eventNotMatch_all (h : eventNotMatch true event mask=false) : event &&& mask=mask := by
  simp only [eventNotMatch,if_true,decide_eq_false_iff_not,not_not] at h
  exact h.symm

lemma eventNotMatch_any (h : eventNotMatch false event mask=false) : event &&& mask≠0 := by
  simpa only [eventNotMatch,Bool.false_eq_true,if_false,decide_eq_false_iff_not] using h

lemma eventNotMatch_or (events : BitVec 32) (h : eventNotMatch all event mask=false) :
    eventNotMatch all (event ||| events) mask=false := by
  cases all with
  | true =>
    have hm := eventNotMatch_all h
    simp only [eventNotMatch,if_true,decide_eq_false_iff_not,not_not]
    refine BitVec.eq_of_getLsbD_eq fun i _ => ?_
    have hi := congrArg (fun x : BitVec 32 => x.getLsbD i) hm
    simp only [BitVec.getLsbD_and,BitVec.getLsbD_or] at hi ⊢
    cases he : event.getLsbD i <;> cases hk : mask.getLsbD i <;> simp_all
  | false =>
    have hm := eventNotMatch_any h
    simp only [eventNotMatch,Bool.false_eq_true,if_false,decide_eq_false_iff_not]
    intro hz
    refine hm (BitVec.eq_of_getLsbD_eq fun i _ => ?_)
    have hi := congrArg (fun x : BitVec 32 => x.getLsbD i) hz
    simp only [BitVec.getLsbD_and,BitVec.getLsbD_or] at hi ⊢
    cases he : event.getLsbD i <;> cases hk : mask.getLsbD i <;> simp_all

/-- A returned event is in the mask, was written, and has not been returned since; a read returns
all it wants, or some of it. -/
structure Delivered (log : List EvEvent) : Prop where
  written : ∀ l1 mask all events l2 i, log=l1 ++ .read mask all events::l2 →
    events.getLsbD i=true → mask.getLsbD i=true ∧
      ∃ l3 new l4, l2=l3 ++ .wrote new::l4 ∧ new.getLsbD i=true ∧
        ∀ mask' all' events', .read mask' all' events'∈l3 → events'.getLsbD i=false
  enough : ∀ mask all events, .read mask all events∈log →
    if all then events=mask else events≠0

lemma EvEvent.Fair.mem {log : List EvEvent} (h : Fair log)
    {events : BitVec 32} (hm : .read mask all events∈log) : ∃ event,
      events=event &&& mask ∧ eventNotMatch all event mask=false := by
  obtain ⟨l1,l2,rfl⟩ := append_of_mem hm
  have hf := h.suffix
  exact ⟨word l2,hf.1,hf.2.1⟩

lemma Delivered.of_fair {log : List EvEvent} (h : EvEvent.Fair log) : Delivered log := by
  constructor
  . rintro l1 mask all events l2 i rfl hi
    obtain ⟨rfl,-,hf⟩ := h.suffix
    rw [BitVec.getLsbD_and,Bool.and_eq_true] at hi
    obtain ⟨l3,new,l4,rfl,hnew,hno⟩ := EvEvent.written_of_word hi.1
    refine ⟨hi.2,l3,new,l4,rfl,hnew,fun mask' all' events' hm => ?_⟩
    obtain ⟨event,rfl,-⟩ := hf.mem (mem_append_left _ hm)
    rw [BitVec.getLsbD_and,hno mask' all' _ hm,Bool.and_false]
  intro mask all events hm
  obtain ⟨event,rfl,hev⟩ := h.mem hm
  cases all with
  | true => exact eventNotMatch_all hev
  | false => exact eventNotMatch_any hev

/-- A task inside a read sleeps until its events come, and was woken because they have, unless its
time was over. -/
structure EvWait (c : TskCb) (mask : BitVec 32) (all : Bool) : Prop where
  wants : c.eventMask=mask
  kind : c.taskStatus.eventType=all
  pend : c.taskStatus.eventPend=true → eventNotMatch all c.event mask=true
  woken : c.taskStatus.eventPend=false → c.taskStatus.timeout=false →
    eventNotMatch all c.event mask=false

lemma Cont.eq_of_eventOf {k : Cont}
    (h : k.eventOf=some (mask,all)) : k=.eventRead mask all := by
  cases k <;> simp_all [Cont.eventOf]

namespace Sched

variable {tick : Prop} {s s' s1 : Sched} {t : Nat}

def evTouch (X : Nat → Prop) (t : Nat) (tick : Prop) : Touch :=
  ⟨X,fun _ => True,True,True,True,True,fun t' => t'≠t,tick⟩

structure EvCalm (tick : Prop) (t : Nat) (s s' : Sched) : Prop where
  inuse : (s'.status t).inuse=(s.status t).inuse
  eventOf : (s'.cont t).eventOf=(s.cont t).eventOf
  kept : EventKept tick (s.cont t) (s.tcb t) (s'.tcb t)

lemma eventKept_refl (k : Cont) (c : TskCb) : EventKept tick k c c :=
  ⟨rfl,id,fun _ => rfl,fun _ => rfl,fun _ => rfl,fun _ => .inl⟩

lemma EvCalm.trans (h : EvCalm tick t s s1) (h' : EvCalm tick t s1 s') : EvCalm tick t s s' := by
  have hk := h.kept
  have hk' := h'.kept
  have he := h.eventOf
  refine ⟨h'.inuse.trans h.inuse,h'.eventOf.trans he,hk'.event.trans hk.event,
    fun hp => hk.pend (hk'.pend hp),fun hn => ?_,fun hn => ?_,fun hn => ?_,fun hn ha => ?_⟩
  . exact (hk'.timeout (by rwa [he])).trans (hk.timeout hn)
  . exact (hk'.mask (by rwa [he])).trans (hk.mask hn)
  . exact (hk'.type (by rwa [he])).trans (hk.type hn)
  rcases hk.ended hn ha with hb | hb
  . have := hk'.ended (by rwa [he]) hb
    rwa [hk.timeout hn] at this
  exact .inr hb

lemma EvCalm.awake (h : EvCalm tick t s s') (hp : (s.status t).eventPend=false) :
    (s'.status t).eventPend=false := by
  by_contra hn
  have hp' := h.kept.pend ((Bool.not_eq_false _).mp hn)
  rw [show (s.tcb t).taskStatus.eventPend=false from hp] at hp'
  cases hp'

lemma EvCalm.of_eq (ht : s'.tcb=s.tcb) (hc : s'.cont=s.cont) : EvCalm tick t s s' := by
  refine ⟨by rw [status,status,ht],by rw [hc],?_⟩
  rw [ht]
  exact eventKept_refl _ _

lemma ev_quiet {X : Nat → Prop} (hx : ¬X t) : Quiet (evTouch X t tick) (EvCalm tick t) where
  refl s := .of_eq rfl rfl
  trans := .trans
  frame ht hc _ := .of_eq ht hc
  modTcb s t' f hf := by
    by_cases e : t=t'
    . subst e
      have hev := (hf.event.resolve_left hx).resolve_left fun hn => hn rfl
      refine ⟨?_,rfl,?_⟩
      . simp only [status,modTcb,update_self]
        exact hf.inuse.resolve_left hx
      simp only [modTcb,update_self]
      exact hev
    have ht : (s.modTcb t' f).tcb t=s.tcb t := update_of_ne e _ _
    refine ⟨by rw [status,status,ht],rfl,?_⟩
    rw [ht]
    exact eventKept_refl _ _
  setCont s t' k hk := by
    refine ⟨rfl,?_,eventKept_refl _ _⟩
    by_cases e : t=t'
    . subst e
      obtain ⟨h1,h2⟩ := (hk.event.resolve_left hx).resolve_left fun hn => hn rfl
      rw [setCont_self,h1,h2]
    simp only [setCont,update_of_ne e]
  pendInsert s t' h i _ := .of_eq rfl rfl
  pendDelete s t' := .of_eq rfl rfl

end Sched

namespace Kernel

variable {k k' : Kernel} {a : Input} {t : Nat}

/-- The events of a task agree with its history. -/
structure EvOk (k : Kernel) (t : Nat) : Prop where
  fair : EvEvent.Fair (k.evLog t)
  fresh : (k.sched.status t).inuse=false → k.evLog t=[]
  word : (k.sched.status t).inuse=true → (k.sched.tcb t).event=EvEvent.word (k.evLog t)
  wait : (k.sched.status t).inuse=true → ∀ mask all, k.sched.cont t=.eventRead mask all →
    EvWait (k.sched.tcb t) mask all

lemma EvOk.calm {tick : Prop} (h : k.EvOk t) (hc : EvCalm tick t k.sched k'.sched)
    (hl : k'.evLog t=k.evLog t) : k'.EvOk t := by
  refine ⟨by rw [hl]; exact h.fair,fun hin => ?_,fun hin => ?_,fun hin mask all hk => ?_⟩
  . rw [hc.inuse] at hin
    rw [hl]
    exact h.fresh hin
  . rw [hc.inuse] at hin
    rw [hl,hc.kept.event]
    exact h.word hin
  rw [hc.inuse] at hin
  have he : (k.sched.cont t).eventOf=some (mask,all) := by
    rw [← hc.eventOf,hk]
    rfl
  have hn : (k.sched.cont t).eventOf≠none := by
    rw [he]
    nofun
  have hw := h.wait hin mask all (Cont.eq_of_eventOf he)
  have hkept := hc.kept
  refine ⟨(hkept.mask hn).trans hw.wants,(hkept.type hn).trans hw.kind,fun hp => ?_,
    fun hp hto => ?_⟩
  . rw [hkept.event]
    exact hw.pend (hkept.pend hp)
  rw [hkept.timeout hn] at hto
  rw [hkept.event]
  refine hw.woken ?_ hto
  by_contra hpend
  rcases hkept.ended hn (by simpa using hpend) with hb | ⟨-,hb⟩
  . rw [hp] at hb
    cases hb
  rw [hto] at hb
  cases hb

lemma EvOk.of_user (hf : EvEvent.Fair (k.evLog t)) (hin : (k.sched.status t).inuse=true)
    (hw : (k.sched.tcb t).event=EvEvent.word (k.evLog t)) (hu : k.sched.cont t=.user) :
    k.EvOk t := by
  refine ⟨hf,fun hn => ?_,fun _ => hw,fun _ mask all hk => ?_⟩
  . rw [hin] at hn
    cases hn
  rw [hu] at hk
  cases hk

lemma EvOk.missed (h : k.EvOk t) (hin : (k.sched.status t).inuse=true) (mask : BitVec 32)
    (all : Bool) : (k.logEvent t (.missed mask all)).EvOk t := by
  have hl : (k.logEvent t (.missed mask all)).evLog t=.missed mask all::k.evLog t := update_self ..
  refine ⟨?_,fun hn => ?_,fun _ => ?_,h.wait⟩
  . rw [hl]
    exact h.fair
  . rw [show (k.sched.status t).inuse=false from hn] at hin
    cases hin
  rw [hl]
  exact h.word hin

variable {mask : BitVec 32} {all : Bool}

lemma EvOk.take {s : Sched}
    (hf : EvEvent.Fair (k.evLog t)) (hin : (s.status t).inuse=true)
    (hw : (s.tcb t).event=EvEvent.word (k.evLog t)) (hu : s.cont t=.user)
    (hm : eventNotMatch all (s.tcb t).event mask=false) (ht : s.cpu.runningTask=t) :
    ({k with sched:=(s.osEventTake mask).1}.logEvent t
      (.read mask all (s.osEventTake mask).2)).EvOk t := by
  subst ht
  have hl : ({k with sched:=(s.osEventTake mask).1}.logEvent s.cpu.runningTask
      (.read mask all (s.osEventTake mask).2)).evLog s.cpu.runningTask =
        .read mask all (s.osEventTake mask).2::k.evLog s.cpu.runningTask :=
    update_self ..
  have htcb : (s.osEventTake mask).1.tcb s.cpu.runningTask = { s.tcb s.cpu.runningTask with
      event := (s.tcb s.cpu.runningTask).event &&& ~~~ mask } := by
    simp only [osEventTake,modTcb,update_self]
  refine EvOk.of_user ?_ ?_ ?_ hu
  . rw [hl]
    rw [hw] at hm
    refine ⟨?_,hm,hf⟩
    rw [← hw]
    rfl
  . change ((s.osEventTake mask).1.tcb s.cpu.runningTask).taskStatus.inuse=true
    rw [htcb]
    exact hin
  rw [hl]
  change ((s.osEventTake mask).1.tcb s.cpu.runningTask).event=_
  rw [htcb,EvEvent.word,← hw]

lemma logRead_error (k : Kernel) (t : Nat) (mask : BitVec 32) (all : Bool) {e : Errno}
    (he : e≠.osOk) (events : BitVec 32) :
    k.logRead t mask all (some (e,events))=k.logEvent t (.missed mask all) := by
  unfold logRead
  split
  . next h => cases h
  . next h =>
    obtain ⟨rfl,-⟩ := Prod.mk.inj (Option.some.inj h)
    exact absurd rfl he
  rfl

lemma osEventBlock_tcb (s : Sched) (mask : BitVec 32) (all : Bool) (n : Nat) :
    ∃ x y, (s.osEventBlock mask all n).tcb s.cpu.runningTask = { s.tcb s.cpu.runningTask with
      expirationTick := x
      taskStatus := { s.status s.cpu.runningTask with
        ready := false, eventPend := true, timeout := y } } := by
  unfold osEventBlock osEventTimeOutSet
  split
  . refine ⟨(s.tcb s.cpu.runningTask).expirationTick,false,?_⟩
    simp [modStatus,modTcb,osTskReadyDel,setCont,osTskHighestSet,osDequeueTaskAmp,pendDelete,status]
  refine ⟨(s.cpu.uniTicks+n)%2^64,true,?_⟩
  simp [modStatus,modTcb,osTskReadyDel,setCont,osTskHighestSet,osDequeueTaskAmp,pendDelete,status,
    osTskTimerAdd]

lemma osEventBlock_cont (s : Sched) (mask : BitVec 32) (all : Bool) (n : Nat) :
    (s.osEventBlock mask all n).cont s.cpu.runningTask=.eventRead mask all := by
  have h : (s.osEventBlock mask all n).cont =
      (s.setCont s.cpu.runningTask (.eventRead mask all)).cont := by
    unfold osEventBlock osEventTimeOutSet
    split <;> rfl
  rw [h,setCont_self]

lemma osTskSchedule_evCalm (s : Sched) (t : Nat) : EvCalm False t s s.osTskSchedule :=
  (ev_quiet (X:=fun _ => False) id).step_osTskSchedule (.of_eq rfl rfl)

lemma eventRead_ok (h : k.EvOk t) (hin : (k.sched.status t).inuse=true)
    (ht : k.sched.cpu.runningTask=t)
    (hu : k.sched.cpu.intActive=false → k.sched.cont t=.user) (mask flags : BitVec 32)
    (n : Nat) : (k.eventRead mask flags n).1.EvOk t := by
  subst ht
  simp only [eventRead,prtEventRead]
  split
  . next he =>
    rw [logRead_error _ _ _ _ he]
    exact EvOk.missed h hin _ _
  split
  . exact EvOk.missed h hin _ _
  next hi =>
  have hcont := hu (Bool.eq_false_iff.mpr hi)
  generalize hall : decide (flags &&& osEventAll≠0)=all
  generalize hs1 : (k.sched.modTcb k.sched.cpu.runningTask fun c =>
    {c with eventMask:=mask, taskStatus:={c.taskStatus with eventType:=all}})=s1
  have htcb : s1.tcb k.sched.cpu.runningTask = { k.sched.tcb k.sched.cpu.runningTask with
      eventMask := mask
      taskStatus := {k.sched.status k.sched.cpu.runningTask with eventType:=all} } := by
    rw [← hs1]
    simp only [modTcb,update_self]
    rfl
  have hcpu : s1.cpu=k.sched.cpu := by
    rw [← hs1]
    rfl
  have hin1 : (s1.status k.sched.cpu.runningTask).inuse=true := by
    rw [status,htcb]
    exact hin
  have hw1 : (s1.tcb k.sched.cpu.runningTask).event =
      EvEvent.word (k.evLog k.sched.cpu.runningTask) := by
    rw [htcb]
    exact h.word hin
  have hu1 : s1.cont k.sched.cpu.runningTask=.user := by
    rw [← hs1]
    exact hcont
  have h1 : ({k with sched:=s1} : Kernel).EvOk k.sched.cpu.runningTask :=
    .of_user h.fair hin1 hw1 hu1
  split
  . next hno =>
    split
    . exact h1.missed hin1 _ _
    split
    . exact h1.missed hin1 _ _
    -- asleep, and the events have not come
    obtain ⟨x,y,hb⟩ := osEventBlock_tcb s1 mask all n
    have hc := osEventBlock_cont s1 mask all n
    rw [hcpu] at hb hc
    have hblock : ({k with sched:=s1.osEventBlock mask all n} : Kernel).EvOk
        k.sched.cpu.runningTask := by
      refine ⟨h.fair,fun hn => ?_,fun _ => ?_,fun _ mask' all' hk => ?_⟩
      . rw [status,hb] at hn
        rw [show (s1.status k.sched.cpu.runningTask).inuse=false from hn] at hin1
        cases hin1
      . rw [hb]
        exact hw1
      obtain ⟨rfl,rfl⟩ := Cont.eventRead.inj (hc.symm.trans hk)
      rw [hb]
      refine ⟨?_,?_,fun _ => hno,by simp⟩
      . rw [htcb]
      rw [status,htcb]
    exact hblock.calm (osTskSchedule_evCalm _ _) rfl
  next hyes =>
  exact EvOk.take h.fair hin1 hw1 hu1 (by simpa using hyes) (by rw [hcpu])

lemma eventReadRest_ok (h : k.EvOk t) (hin : (k.sched.status t).inuse=true)
    (hp : (k.sched.status t).eventPend=false) (ht : k.sched.cpu.runningTask=t)
    (hk : k.sched.cont t=.eventRead mask all) :
    (k.eventReadRest mask all).1.EvOk t := by
  subst ht
  have hw := h.wait hin mask all hk
  have hu := k.sched.setCont_self k.sched.cpu.runningTask .user
  simp only [eventReadRest,eventReadCont]
  split
  . have hu' : ((k.sched.setCont k.sched.cpu.runningTask .user).modStatus
        k.sched.cpu.runningTask fun b => {b with timeout:=false}).cont
          k.sched.cpu.runningTask=.user := hu
    have htcb : ((k.sched.setCont k.sched.cpu.runningTask .user).modStatus
        k.sched.cpu.runningTask fun b => {b with timeout:=false}).tcb
          k.sched.cpu.runningTask = { k.sched.tcb k.sched.cpu.runningTask with
        taskStatus := {k.sched.status k.sched.cpu.runningTask with timeout:=false} } := by
      simp only [modStatus,modTcb,update_self]
      rfl
    generalize ((k.sched.setCont k.sched.cpu.runningTask .user).modStatus
      k.sched.cpu.runningTask fun b => {b with timeout:=false})=s1 at hu' htcb ⊢
    have hin1 : (s1.status k.sched.cpu.runningTask).inuse=true := by
      rw [status,htcb]
      exact hin
    have h1 : ({k with sched:=s1} : Kernel).EvOk k.sched.cpu.runningTask := by
      refine .of_user h.fair hin1 ?_ hu'
      rw [htcb]
      exact h.word hin
    exact h1.missed hin1 _ _
  next hto =>
  exact EvOk.take h.fair hin (h.word hin) hu (hw.woken hp (Bool.eq_false_iff.mpr hto)) rfl

lemma eventWrite_ok (h : k.EvOk t) (hin : (k.sched.status t).inuse=true)
    (events : BitVec 32) : (k.eventWrite t events).1.EvOk t := by
  unfold eventWrite prtEventWrite
  split
  . exact h
  split
  . exact h
  split
  . exact h
  generalize hs1 : (k.sched.modTcb t fun c => {c with event:=c.event ||| events})=s1
  have htcb : s1.tcb t={k.sched.tcb t with event:=(k.sched.tcb t).event ||| events} := by
    rw [← hs1]
    simp only [modTcb,update_self]
  have hcont : s1.cont t=k.sched.cont t := by
    rw [← hs1]
    rfl
  -- the state with the events, and with the sleeper awake or not
  have hlog : ∀ s : Sched, (s.status t).inuse=true → (s.tcb t).event=(s1.tcb t).event →
      s.cont t=s1.cont t → (∀ mask all, s.cont t=.eventRead mask all → EvWait (s.tcb t) mask all) →
      ({k with sched:=s}.logEvent t (.wrote events)).EvOk t := by
    intro s hs he hk hw
    have hl : ({k with sched:=s}.logEvent t (.wrote events)).evLog t =
        .wrote events::k.evLog t := update_self ..
    refine ⟨?_,fun hn => ?_,fun _ => ?_,fun _ => hw⟩
    . rw [hl]
      exact h.fair
    . rw [show (s.status t).inuse=false from hn] at hs
      cases hs
    rw [hl]
    change (s.tcb t).event=_
    rw [he,htcb,EvEvent.word,← h.word hin]
  have hwait : ∀ mask all, s1.cont t=.eventRead mask all →
      EvWait (k.sched.tcb t) mask all := fun mask all hk => h.wait hin mask all (hcont ▸ hk)
  dsimp only
  split
  . next hm =>
    generalize hs2 : ((s1.modStatus t fun b => {b with eventPend:=false}).timeoutClear t)=s2
    have htcb2 : s2.tcb t = { s1.tcb t with
        taskStatus := {s1.status t with eventPend:=false, timeout:=false} } := by
      rw [← hs2,timeoutClear]
      split
      . simp [modStatus,modTcb,timerDelete,status]
      next hto =>
      have hto' : (s1.status t).timeout=false := by simpa [modStatus,modTcb,status] using hto
      simp only [modStatus,modTcb,update_self]
      rw [← hto']
      rfl
    have hcont2 : s2.cont t=s1.cont t := by
      rw [← hs2,timeoutClear]
      split <;> rfl
    have h2 : ({k with sched:=s2}.logEvent t (.wrote events)).EvOk t := by
      refine hlog s2 ?_ (by rw [htcb2]) hcont2 fun mask all hk => ?_
      . rw [status,htcb2]
        rw [status,htcb]
        exact hin
      have hw := hwait mask all (hcont2 ▸ hk)
      rw [htcb2]
      have hm2 := hm.2
      rw [htcb] at hm2 ⊢
      refine ⟨hw.wants,?_,by simp,fun _ _ => ?_⟩
      . rw [status,htcb]
        exact hw.kind
      rw [hw.kind,hw.wants] at hm2
      exact hm2
    refine h2.calm (EvCalm.trans ?_ (osTskSchedule_evCalm _ t)) rfl
    unfold osEventStateChange
    rw [hs2]
    exact (ev_quiet (X:=fun _ => False) id).step_readyAddUnlessSuspend (.of_eq rfl rfl)
  next hm =>
  refine hlog s1 ?_ rfl rfl fun mask all hk => ?_
  . rw [status,htcb]
    exact hin
  have hw := hwait mask all hk
  rw [htcb] at hm ⊢
  refine ⟨hw.wants,hw.kind,fun hp => ?_,fun hp hto => ?_⟩
  . by_contra hno
    refine hm ⟨hp,?_⟩
    rw [hw.kind,hw.wants]
    simpa using hno
  exact eventNotMatch_or events (hw.woken hp hto)

lemma eventWrite_pend (h : k.EvOk t) (hin : (k.sched.status t).inuse=true)
    (hle : t≤k.sched.cfg.tskMaxNum) (hp : (k.sched.status t).eventPend=true)
    (hk : k.sched.cont t=.eventRead mask all)
    (events : BitVec 32) : ((k.eventWrite t events).1.sched.status t).eventPend =
      eventNotMatch all ((k.sched.tcb t).event ||| events) mask := by
  have hw := h.wait hin mask all hk
  have hs : (k.eventWrite t events).1.sched=(k.sched.prtEventWrite t events).1 := by
    simp only [eventWrite]
    split <;> rfl
  rw [hs]
  unfold prtEventWrite
  split
  . next hov =>
    simp only [pidOverflow,decide_eq_true_eq] at hov
    omega
  split
  . next hz =>
    rw [hz,show (k.sched.tcb t).event ||| 0=(k.sched.tcb t).event from BitVec.or_zero,hw.pend hp]
    exact hp
  split
  . next hun =>
    have hb : k.sched.status t={} := by simpa [TskStatus.unused] using hun
    rw [hb] at hin
    cases hin
  have htcb : (k.sched.modTcb t fun c => {c with event:=c.event ||| events}).tcb t =
      {k.sched.tcb t with event:=(k.sched.tcb t).event ||| events} := by
    simp only [modTcb,update_self]
  have hm : ((k.sched.modTcb t fun c => {c with event:=c.event ||| events}).tcb
      t).taskStatus.eventPend=true ∧
      eventNotMatch ((k.sched.modTcb t fun c => {c with event:=c.event ||| events}).tcb
        t).taskStatus.eventType ((k.sched.modTcb t fun c => {c with event:=c.event ||| events}).tcb
        t).event ((k.sched.modTcb t fun c => {c with event:=c.event ||| events}).tcb
        t).eventMask=false ↔
      eventNotMatch all ((k.sched.tcb t).event ||| events) mask=false := by
    rw [htcb]
    rw [hw.kind,hw.wants]
    exact ⟨fun hx => hx.2,fun hx => ⟨hp,hx⟩⟩
  generalize (k.sched.modTcb t fun c => {c with event:=c.event ||| events})=s1 at htcb hm ⊢
  by_cases hno : eventNotMatch all ((k.sched.tcb t).event ||| events) mask=false
  . rw [if_pos (hm.mpr hno),hno]
    have hq : Quiet (evTouch (fun _ => False) t False) (EvCalm False t) := ev_quiet id
    have h1 : (((s1.modStatus t fun b => {b with eventPend:=false}).timeoutClear t).status
        t).eventPend=false := by
      unfold timeoutClear
      split <;> simp [modStatus,modTcb,timerDelete,status]
    have hcalm : EvCalm False t
        ((s1.modStatus t fun b => {b with eventPend:=false}).timeoutClear t)
        (((s1.modStatus t fun b => {b with eventPend:=false}).osEventStateChange
          t).osTskSchedule) :=
      hq.step_osTskSchedule (hq.step_readyAddUnlessSuspend (.of_eq rfl rfl))
    exact hcalm.awake h1
  rw [if_neg fun hx => hno (hm.mp hx)]
  change (s1.tcb t).taskStatus.eventPend=_
  rw [htcb]
  simp only [Bool.not_eq_false] at hno
  rw [hno]
  exact hp

end Kernel

namespace Sched

variable {s : Sched} {t u : Nat}

lemma osTaskExpire_tcb_ne (s : Sched) (h : t≠u) : (s.osTaskExpire u).tcb t=s.tcb t := by
  simp only [osTaskExpire]
  repeat' split
  all_goals simp [timerDelete,pendDelete,modStatus,modTcb,kthreadStateSet,h]

lemma osTskReadyAdd_tcb_ne (s : Sched) (h : t≠u) : (s.osTskReadyAdd u).tcb t=s.tcb t := by
  simp [osTskReadyAdd,osEnqueueTaskAmp,osTskHighestSet,modStatus,modTcb,pendTailAdd,pendInsert,h]

lemma osTaskScanLoop_tcb (n : Nat) (s : Sched) (need : Bool)
    (h : ¬(t∈s.delayList ∧ (s.tcb t).expirationTick ≤ s.cpu.uniTicks)) :
    (osTaskScanLoop n s need).1.tcb t=s.tcb t := by
  induction n generalizing s need with
  | zero => rfl
  | succ n ih =>
    unfold osTaskScanLoop
    split
    . rfl
    next u rest hd =>
    split
    . rfl
    next hlt =>
    have hne : t≠u := by
      rintro rfl
      refine h ⟨?_,not_lt.mp hlt⟩
      rw [hd]
      exact mem_cons_self
    have hrest : ∀ (s2 : Sched) (b : Bool), s2.timer=s.timer.delete u → s2.cpu=s.cpu →
        s2.tcb t=s.tcb t → (osTaskScanLoop n s2 b).1.tcb t=s.tcb t := by
      intro s2 b htm hcpu htcb
      rw [ih s2 b,htcb]
      rw [htcb,hcpu,delayList,htm,Links.delete_lists_eq]
      exact fun hx => h ⟨mem_of_mem_erase hx.1,hx.2⟩
    have hs := s.osTaskExpire_frame u
    dsimp only
    split
    . exact hrest _ _ hs.2.1 hs.1 (s.osTaskExpire_tcb_ne hne)
    refine hrest _ _ hs.2.1 hs.1 ?_
    rw [osTskReadyAdd_tcb_ne _ hne,s.osTaskExpire_tcb_ne hne]

lemma osTskSchedule_bit {f : TskStatus → Bool} (hf : ∀ b x, f {b with running:=x} = f b)
    (s : Sched) (t : Nat) : f (s.osTskSchedule.status t)=f (s.status t) := by
  have hswitch (s : Sched) (u : Nat) : f ((s.switchTo u).status t)=f (s.status t) :=
    (congrArg (fun v : TaskView => f v.bits) (switchTo_view_eq t)).trans (hf _ _)
  simp only [osTskSchedule,osMainSchedule]
  repeat' split
  all_goals first
    | rfl
    | exact hswitch _ _

lemma tickScan_bit (f : TskStatus → Bool) (hf : ∀ b x, f {b with running:=x} = f b)
    (h : ¬s.Due t) : f (s.tickScan.status t)=f (s.status t) := by
  have hl := osTaskScanLoop_tcb s.delayList.length
    {s with cpu:={s.cpu with uniTicks:=(s.cpu.uniTicks+1)%2^64, tickPhase:=.hooks}}
    false h
  have hl' := congrArg (fun c : TskCb => f c.taskStatus) hl
  simp only [tickScan,osTaskScan]
  split
  . rw [osTskSchedule_bit hf]
    exact hl'
  exact hl'

end Sched

namespace Kernel

variable {k : Kernel} {a : Input} {t : Nat}

lemma evOf_proceed (h : k.evOf .proceed=some t) :
    k.inputPart .proceed=.event ∧ k.sched.cpu.runningTask=t := by
  simp only [evOf] at h
  split at h
  . next hpart => exact ⟨hpart,Option.some.inj h⟩
  cases h

lemma logRead_ne (k : Kernel) {t t' : Nat} (h : t≠t') (mask : BitVec 32) (all : Bool)
    (x : Option (Errno×BitVec 32)) : (k.logRead t' mask all x).evLog t=k.evLog t := by
  unfold logRead
  split
  . rfl
  . exact update_of_ne h _ _
  exact update_of_ne h _ _

lemma act_evLog (h : k.evOf a≠some t) : (k.act a).1.evLog t=k.evLog t := by
  by_cases hpart : k.inputPart a=.event
  . cases a with
    | call call =>
      cases call with
      | eventRead mask flags n =>
        have hne : t≠k.sched.cpu.runningTask := fun he => h (congrArg some he.symm)
        exact logRead_ne _ hne _ _ _
      | eventWrite t' events =>
        have hne : t≠t' := fun he => h (congrArg some he.symm)
        change (k.eventWrite t' events).1.evLog t=_
        simp only [eventWrite]
        split
        . exact update_of_ne hne _ _
        rfl
      | _ => cases hpart
    | proceed =>
      have hne : t≠k.sched.cpu.runningTask := fun he => h (by rw [evOf,if_pos hpart,he])
      unfold inputPart at hpart
      change k.proceed.1.evLog t=_
      unfold proceed
      cases hk : k.sched.cont k.sched.cpu.runningTask with
      | eventRead mask all => exact logRead_ne _ hne _ _ _
      | _ => simp [hk,Cont.part] at hpart
    | _ => cases hpart
  rw [(k.act_only a).events hpart]

lemma act_evCalm (hab : Able False False k.sched) (hen : k.enabled a=true)
    (hp : a.plain=true) (hle : t≤k.sched.cfg.tskMaxNum)
    (hin : (k.sched.status t).inuse=true) (hd : ¬Deletes k.sched a t) (h : k.evOf a≠some t) :
    EvCalm (a=.tickScan) t k.sched (k.act a).1.sched := by
  refine act_quiet (ev_quiet (X:=k.Turns a) (not_turns hle hin hd)) hab hen
    (Input.plain_ok hp k) ?_
  apply within_turns (fun t ht => ⟨ht,trivial⟩) trivial trivial (fun _ => trivial) ?_
    (fun _ => trivial) id
  rintro t' he rfl
  exact h he

lemma running_awake (hab : Able False False k.sched)
    (hle : k.sched.cpu.runningTask≤k.sched.cfg.tskMaxNum) :
    (k.sched.status k.sched.cpu.runningTask).inuse=true ∧
      (k.sched.status k.sched.cpu.runningTask).eventPend=false := by
  obtain ⟨m,hf,hr⟩ := hab.run.runnable hle
  have h1 : (k.sched.status k.sched.cpu.runningTask).inuse=m.bits.inuse := hf.inuse
  have h2 : (k.sched.status k.sched.cpu.runningTask).eventPend=m.bits.eventPend := hf.eventPend
  rcases TskMode.eq_of_runnable hr with rfl | rfl
  . exact ⟨h1,h2⟩
  exact ⟨h1,h2⟩

lemma unused_of_inuse (hc : k.sched.Core) (hle : t≤k.sched.cfg.tskMaxNum)
    (hin : (k.sched.status t).inuse=false) : (k.sched.status t).unused=true := by
  obtain ⟨m,hf,-⟩ := hc.tasks t hle
  have hm : m.bits.inuse=false := hf.inuse.symm.trans hin
  have hu : m=.unused := by cases m <;> first | rfl | cases hm
  have hb : k.sched.status t={} := hf.unused hu
  rw [hb]
  rfl

lemma act_evLog_unused (hab : Able False False k.sched)
    (hle : t≤k.sched.cfg.tskMaxNum) (hin : (k.sched.status t).inuse=false) :
    (k.act a).1.evLog t=k.evLog t := by
  have hne : t≠k.sched.cpu.runningTask := by
    rintro rfl
    rw [(running_awake hab hle).1] at hin
    cases hin
  by_cases h : k.evOf a=some t
  . cases a with
    | call call =>
      cases call with
      | eventRead mask flags n => exact absurd (Option.some.inj h).symm hne
      | eventWrite t' events =>
        obtain rfl : t'=t := Option.some.inj h
        have hun := unused_of_inuse hab.core hle hin
        have he : (k.sched.prtEventWrite t' events).2≠.osOk := by
          unfold prtEventWrite
          split
          . nofun
          split
          . nofun
          nofun
        change (k.eventWrite t' events).1.evLog t'=_
        simp only [eventWrite]
        rw [if_neg he]
      | _ => cases h
    | proceed => exact absurd (evOf_proceed h).2.symm hne
    | _ => cases h
  exact act_evLog h

lemma EvOk.act (h : k.EvOk t) (hf : Fine False False False False False k)
    (hle : t≤k.sched.cfg.tskMaxNum) (hp : a.plain=true) (hd : ¬Deletes k.sched a t)
    (hen : k.enabled a=true) : (k.act a).1.EvOk t := by
  have hab := hf.able .none (enabled_alive hen)
  cases hin : (k.sched.status t).inuse with
  | false =>
    have hnil : (k.act a).1.evLog t=[] := by
      rw [act_evLog_unused hab hle hin]
      exact h.fresh hin
    rcases act_born hab hen (Input.plain_ok hp k) hle hin with hu | hb
    . refine ⟨by rw [hnil]; trivial,fun _ => hnil,fun hn => ?_,fun hn => ?_⟩
      . rw [hu] at hn
        cases hn
      rw [hu] at hn
      cases hn
    refine ⟨by rw [hnil]; trivial,fun _ => hnil,fun _ => ?_,fun _ mask all hk => ?_⟩
    . rw [hnil,hb.event]
      rfl
    rw [hb.cont] at hk
    cases hk
  | true =>
    by_cases hev : k.evOf a=some t
    . cases a with
      | call call =>
        cases call with
        | eventRead mask flags n =>
          have ht : k.sched.cpu.runningTask=t := Option.some.inj hev
          have hm := (enabled_call hen).2
          refine eventRead_ok h hin ht (fun hi => ?_) mask flags n
          have hc := taskContext_of (hm.bgd.resolve_right nofun) (by simp [hi])
          rw [← ht]
          exact hm.user hc
        | eventWrite t' events =>
          obtain rfl : t'=t := Option.some.inj hev
          exact eventWrite_ok h hin events
        | _ => cases hev
      | proceed =>
        obtain ⟨hpart,ht⟩ := evOf_proceed hev
        unfold inputPart at hpart
        change k.proceed.1.EvOk t
        unfold proceed
        cases hk : k.sched.cont k.sched.cpu.runningTask with
        | eventRead mask all =>
          refine eventReadRest_ok h hin ?_ ht (ht ▸ hk)
          rw [← ht] at hle ⊢
          exact (running_awake hab hle).2
        | _ => rw [hk] at hpart; cases hpart
      | _ => cases hev
    exact h.calm (act_evCalm hab hen hp hle hin hd hev) (act_evLog hev)

lemma init_evOk {cfg : Cfg} (hle : t≤cfg.tskMaxNum) : (init cfg).EvOk t := by
  have hin : ((init cfg).sched.status t).inuse=false := by
    rw [status,init_tcb hle]
  refine ⟨trivial,fun _ => rfl,fun hn => ?_,fun hn => ?_⟩
  . rw [hin] at hn
    cases hn
  rw [hin] at hn
  cases hn

end Kernel

/-- A sleeper goes on with the first write that gives it what it waits for, or when its time is
over; a read takes nothing outside its mask. -/
structure EvStep (k : Kernel) (a : Input) (t : Nat) : Prop where
  left : (k.sched.status t).eventPend=true → ((k.act a).1.sched.status t).eventPend=false →
    (∃ mask all events, k.sched.cont t=.eventRead mask all ∧ a=.call (.eventWrite t events) ∧
      eventNotMatch all ((k.sched.tcb t).event ||| events) mask=false) ∨
    (a=.tickScan ∧ k.sched.Due t)
  woken : (k.sched.status t).eventPend=true → ∀ mask all events,
    k.sched.cont t=.eventRead mask all → a=.call (.eventWrite t events) →
    eventNotMatch all ((k.sched.tcb t).event ||| events) mask=false →
    ((k.act a).1.sched.status t).eventPend=false
  read : ∀ mask all events, (k.act a).1.evLog t=.read mask all events::k.evLog t →
    ((k.act a).1.sched.tcb t).event=(k.sched.tcb t).event &&& ~~~ mask
  missed : ∀ mask all, (k.act a).1.evLog t=.missed mask all::k.evLog t →
    ((k.act a).1.sched.tcb t).event=(k.sched.tcb t).event

/-- Delivery of the events of the task `t`. A sleeper has not got what it waits for yet. -/
structure EventDelivery (k : Kernel) (t : Nat) : Prop where
  delivered : Delivered (k.evLog t)
  waiting : (k.sched.status t).eventPend=true → ∃ mask all,
    k.sched.cont t=.eventRead mask all ∧ eventNotMatch all (k.sched.tcb t).event mask=true
  step : ∀ a : Input, a.plain=true → ¬Kernel.Deletes k.sched a t → k.enabled a=true → EvStep k a t

namespace Kernel

variable {k : Kernel} {a : Input} {t : Nat}

lemma sleeper (hf : Fine False False False False False k) (hle : t≤k.sched.cfg.tskMaxNum)
    (hp : (k.sched.status t).eventPend=true) : (k.sched.status t).inuse=true ∧
      ∃ mask all, k.sched.cont t=.eventRead mask all := by
  obtain ⟨m,hm,-⟩ := hf.core.tasks t hle
  obtain rfl := hm.eq_event hp
  exact ⟨hm.inuse,hm.ctx⟩

lemma EvOk.evStep (h : k.EvOk t) (hf : Fine False False False False False k)
    (hle : t≤k.sched.cfg.tskMaxNum) (hp : a.plain=true) (hd : ¬Deletes k.sched a t)
    (hen : k.enabled a=true) : EvStep k a t := by
  have hab := hf.able .none (enabled_alive hen)
  have h' := h.act hf hle hp hd hen
  -- a history that grows belongs to a task in use
  have hword : ∀ e, (k.act a).1.evLog t=e::k.evLog t →
      (k.sched.tcb t).event=EvEvent.word (k.evLog t) ∧
        ((k.act a).1.sched.tcb t).event=EvEvent.word (e::k.evLog t) := by
    intro e he
    have hin : (k.sched.status t).inuse=true := by
      by_contra hn
      rw [act_evLog_unused hab hle (Bool.eq_false_iff.mpr hn)] at he
      exact List.cons_ne_self _ _ he.symm
    have hin' : ((k.act a).1.sched.status t).inuse=true := by
      by_contra hn
      rw [h'.fresh (Bool.eq_false_iff.mpr hn)] at he
      cases he
    refine ⟨h.word hin,?_⟩
    rw [← he]
    exact h'.word hin'
  refine ⟨fun hpend hnot => ?_,fun hpend mask all events hk ha hm => ?_,
    fun mask all events he => ?_,fun mask all he => ?_⟩
  . obtain ⟨hin,mask,all,hk⟩ := sleeper hf hle hpend
    have hrun : k.sched.cpu.runningTask≠t := by
      rintro rfl
      rw [(running_awake hab hle).2] at hpend
      cases hpend
    by_cases hev : k.evOf a=some t
    . cases a with
      | call call =>
        cases call with
        | eventRead mask flags n => exact absurd (Option.some.inj hev) hrun
        | eventWrite t' events =>
          obtain rfl : t'=t := Option.some.inj hev
          refine .inl ⟨mask,all,events,hk,rfl,?_⟩
          rw [← eventWrite_pend h hin hle hpend hk events]
          exact hnot
        | _ => cases hev
      | proceed => exact absurd (evOf_proceed hev).2 hrun
      | _ => cases hev
    have hc := act_evCalm hab hen hp hle hin hd hev
    have hn : (k.sched.cont t).eventOf≠none := by
      rw [hk]
      nofun
    rcases hc.kept.ended hn hpend with hb | ⟨rfl,-⟩
    . rw [show ((k.act a).1.sched.tcb t).taskStatus.eventPend=false from hnot] at hb
      cases hb
    refine .inr ⟨rfl,?_⟩
    by_contra hdue
    rw [show ((k.act .tickScan).1.sched.status t).eventPend=(k.sched.status t).eventPend from
      tickScan_bit (·.eventPend) (fun _ _ => rfl) hdue,hpend] at hnot
    cases hnot
  . subst ha
    obtain ⟨hin,-⟩ := sleeper hf hle hpend
    exact (eventWrite_pend h hin hle hpend hk events).trans hm
  . obtain ⟨h1,h2⟩ := hword _ he
    rw [h2,h1]
    rfl
  obtain ⟨h1,h2⟩ := hword _ he
  rw [h2,h1]
  rfl

end Kernel

open Kernel

theorem event_delivery {cfg : Cfg} {k : Kernel} {t : Nat} (hle : t≤cfg.tskMaxNum)
    (h : (kernelMachine cfg).Reaches (fun k a => a.plain=true ∧ ¬Deletes k.sched a t) k) :
    EventDelivery k t := by
  have hfine : ∀ k, (kernelMachine cfg).Reaches (fun k a => a.plain=true ∧ ¬Deletes k.sched a t) k →
      Fine False False False False False k ∧ k.sched.cfg=cfg := by
    intro k hk
    have hk' := hk.mono fun _ _ ha => ha.1
    exact ⟨fine_of_plain hk',cfg_of_plain hk'⟩
  have hok : k.EvOk t := by
    refine h.invariant_of (P:=fun k => k.EvOk t) hfine ?_ fun k a hf hk ha => ?_
    . rintro k rfl
      exact init_evOk hle
    change (k.step a).EvOk t
    unfold Kernel.step
    split
    . next hen => exact hk.act hf.1 (by rw [hf.2]; exact hle) ha.1 ha.2 hen
    exact hk
  obtain ⟨hf,hcfg⟩ := hfine k h
  have hle' : t≤k.sched.cfg.tskMaxNum := by rwa [hcfg]
  refine ⟨.of_fair hok.fair,fun hp => ?_,fun a hp hd hen => hok.evStep hf hle' hp hd hen⟩
  obtain ⟨hin,mask,all,hk⟩ := sleeper hf hle' hp
  exact ⟨mask,all,hk,(hok.wait hin mask all hk).pend hp⟩

def eventInputs : List Input :=
  [.call (.taskCreate (smallTask 9) true false),.call (.taskResume 0),
   .call (.taskCreate (smallTask 5) true false),.call (.taskResume 1),.activate true,
   .call (.eventRead 3 (osEventAll ||| osEventWait) osWaitForever),.call (.eventWrite 1 5),
   .call (.eventWrite 1 2),.proceed]

theorem event_delivery_all :
    let k := (kernelMachine smallCfg).run (Kernel.init smallCfg) eventInputs
    k.evLog 1=[.read 3 true 3,.wrote 2,.wrote 5] ∧ (k.sched.tcb 1).event=4 ∧ EventDelivery k 1 := by
  have hrun : (kernelMachine smallCfg).Reaches (fun k a => a.plain=true ∧ ¬Deletes k.sched a 1)
      ((kernelMachine smallCfg).run (Kernel.init smallCfg) eventInputs) := by
    apply Machine.Reaches.run (.start rfl) _
    exact ⟨⟨rfl,id⟩,⟨rfl,id⟩,⟨rfl,id⟩,⟨rfl,id⟩,⟨rfl,id⟩,⟨rfl,id⟩,⟨rfl,id⟩,⟨rfl,id⟩,⟨rfl,id⟩,trivial⟩
  refine ⟨?_,?_,event_delivery (by decide) hrun⟩
  all_goals decide +kernel

end UniProton
