import UniProton.Framework.Ring
import UniProton.Ipc.Queue

namespace UniProton

open Framework List

/-- A message and the task that wrote it; an interrupt is no task. -/
structure QueMsg where
  src : Option Nat
  data : List UInt8
  deriving DecidableEq

namespace QueEvent

/-- A deque of at most `cap` messages: a normal write appends, an urgent one pushes in front, a read
takes the front, cut to its buffer. -/
def apply (cap : Nat) : QueEvent → List QueMsg → Option (List QueMsg)
  | .wrote src urgent data, l =>
    if l.length<cap then some (if urgent then ⟨src,data⟩::l else l++[⟨src,data⟩]) else none
  | .got _ _ _, [] => none
  | .got bufLen len data, m::l =>
    if len=min bufLen m.data.length ∧ data=m.data.take len then some l else none

def replay (cap : Nat) : List QueEvent → Option (List QueMsg)
  | [] => some []
  | e::log => (replay cap log).bind (e.apply cap)

def isWrite : QueEvent → Bool
  | .wrote _ _ _ => true
  | .got _ _ _ => false

def stored (log : List QueEvent) : Nat := log.countP isWrite-log.countP (!isWrite ·)

def peak : List QueEvent → Nat
  | [] => 0
  | e::log => if e.isWrite then max (peak log) (stored (e::log)) else peak log

variable {cap : Nat} {e : QueEvent} {log : List QueEvent} {l : List QueMsg} {m : QueMsg}

lemma replay_wrote (h : replay cap log=some l) (hl : l.length<cap) (urgent : Bool) :
    replay cap (.wrote m.src urgent m.data::log)=some (if urgent then m::l else l++[m]) := by
  simp only [replay,h,Option.bind_some,apply,if_pos hl]

lemma replay_got (h : replay cap log=some (m::l)) (bufLen : Nat) :
    replay cap (.got bufLen (min bufLen m.data.length)
      (m.data.take (min bufLen m.data.length))::log)=some l := by
  simp only [replay,h,Option.bind_some,apply,and_self,if_true]

/-- By induction on the history: a write adds one message and a read takes one. -/
lemma replay_length (h : replay cap log=some l) :
    l.length≤cap ∧ log.countP (!isWrite ·)+l.length=log.countP isWrite := by
  induction log generalizing l with
  | nil =>
    cases h
    exact ⟨Nat.zero_le _,rfl⟩
  | cons e log ih =>
    simp only [replay,Option.bind_eq_some_iff] at h
    obtain ⟨l0,h0,he⟩ := h
    obtain ⟨hle,hcnt⟩ := ih h0
    cases e with
    | wrote src urgent data =>
      simp only [apply] at he
      split at he
      . next hlt =>
        cases he
        have hlen : (if urgent then ⟨src,data⟩::l0 else l0++[⟨src,data⟩]).length=l0.length+1 := by
          cases urgent <;> simp
        simp only [isWrite,countP_cons,hlen]
        simp only [isWrite] at hcnt
        refine ⟨hlt,?_⟩
        simp
        omega
      cases he
    | got bufLen len data =>
      cases l0 with
      | nil => cases he
      | cons m l1 =>
        simp only [apply] at he
        split at he
        . cases he
          simp only [length_cons] at hle hcnt
          refine ⟨by omega,?_⟩
          simp [isWrite] at hcnt ⊢
          omega
        cases he

lemma replay_stored (h : replay cap log=some l) : stored log=l.length := by
  have hl := (replay_length h).2
  unfold stored
  omega

end QueEvent

namespace QueNode

structure Holds (n : QueNode) (m : QueMsg) : Prop where
  size : n.size=m.data.length
  buf : n.buf.take m.data.length=m.data
  src : n.srcPid=m.src.getD 0xFF % 2^16

def Free (n : QueNode) : Prop := n.srcPid=osQueuePidInvalid

end QueNode

namespace QueCb

variable {c : QueCb} {l : List QueMsg} {m : QueMsg}

def Shows (c : QueCb) (l : List QueMsg) : Prop :=
  Ring.Shows QueNode.Holds QueNode.Free c.nodeNum c.queue c.queueHead c.queueTail l

/-- What the queue has for a side: messages for readers, and with `true` free nodes for writers. -/
def room (c : QueCb) (l : List QueMsg) (w : Bool) : Nat :=
  if w then c.nodeNum-l.length else l.length

lemma Shows.cpData (h : c.Shows l) (hl : l.length<c.nodeNum) (hd : m.data.length<2^16)
    (urgent : Bool) : (c.cpData urgent (m.src.getD 0xFF) m.data).Shows
      (if urgent then m::l else l++[m]) := by
  have hold (i : Nat) : QueNode.Holds ⟨m.src.getD 0xFF % 2^16,m.data.length%2^16,
      m.data++(c.queue i).buf.drop m.data.length⟩ m :=
    ⟨Nat.mod_eq_of_lt hd,take_left,rfl⟩
  cases urgent with
  | true => exact Ring.Shows.pushFront h hl (hold _)
  | false => exact Ring.Shows.pushBack h hl (hold _)

lemma Shows.readOut (h : c.Shows (m::l)) : Shows {c with
      queue := Function.update c.queue c.queueHead
        {c.queue c.queueHead with srcPid:=osQueuePidInvalid}
      queueHead := c.next c.queueHead} l :=
  Ring.Shows.popFront h rfl

lemma Shows.read (h : c.Shows (m::l)) (len : Nat) :
    (if (c.queue c.queueHead).size<len then (c.queue c.queueHead).size else len) =
        min len m.data.length ∧ (c.queue c.queueHead).buf.take (min len m.data.length) =
        m.data.take (min len m.data.length) := by
  have hm := Ring.Shows.front h
  constructor
  . rw [hm.size]
    split <;> omega
  have hbuf := congrArg (List.take (min len m.data.length)) hm.buf
  rw [take_take,Nat.min_assoc,Nat.min_self] at hbuf
  exact hbuf

lemma Shows.peakSet (h : c.Shows l) (hl : l≠[]) :
    c.peakSet={c with nodePeak:=max c.nodePeak l.length} := by
  have hlen := Ring.Shows.length_eq h hl
  unfold QueCb.peakSet
  have hmax : (if c.nodePeak<l.length then l.length else c.nodePeak)=max c.nodePeak l.length := by
    split <;> omega
  simp only [hlen,hmax]

end QueCb

end UniProton
