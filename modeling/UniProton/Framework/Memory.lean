import Mathlib

namespace UniProton.Framework

/-- Byte-addressed memory. -/
structure Memory where
  byte : Nat → UInt8

namespace Memory

def read (m : Memory) : Nat → Nat → Nat
  | _, 0 => 0
  | a, n+1 => (m.byte a).toNat+256 * m.read (a+1) n

def write (m : Memory) (a n v : Nat) : Memory where
  byte x := if a≤x ∧ x<a+n then UInt8.ofNat (v/256 ^ (x-a)) else m.byte x

def fill (m : Memory) (a n : Nat) (b : UInt8) : Memory where
  byte x := if a≤x ∧ x<a+n then b else m.byte x

/-- Two memories with the same bytes from `a` on, `n` of them. -/
def Same (m m' : Memory) (a n : Nat) : Prop := ∀ x, a≤x → x<a+n → m'.byte x=m.byte x

variable {m m' : Memory} {a b n k v : Nat} {c : UInt8}

lemma Same.read (h : m.Same m' a n) : m'.read a n=m.read a n := by
  induction n generalizing a with
  | zero => rfl
  | succ n ih =>
    have hrest : m.Same m' (a+1) n := by
      intro x hx hxn
      exact h x (by omega) (by omega)
    simp only [Memory.read,ih hrest,h a (by omega) (by omega)]

lemma Same.trans {m'' : Memory} (h : m.Same m' a n) (h' : m'.Same m'' a n) : m.Same m'' a n := by
  intro x hx hxn
  rw [h' x hx hxn,h x hx hxn]

lemma Same.sub (h : m.Same m' a n) (hab : a≤b) (hbk : b+k≤a+n) : m.Same m' b k := by
  intro x hx hxk
  exact h x (by omega) (by omega)

lemma same_write (hd : b+k≤a ∨ a+n≤b) : m.Same (m.write a n v) b k := by
  intro x hx hxk
  have hout : ¬(a≤x ∧ x<a+n) := by omega
  simp [write,hout]

lemma same_fill (hd : b+k≤a ∨ a+n≤b) : m.Same (m.fill a n c) b k := by
  intro x hx hxk
  have hout : ¬(a≤x ∧ x<a+n) := by omega
  simp [fill,hout]

lemma read_write_of_disjoint (hd : b+k≤a ∨ a+n≤b) : (m.write a n v).read b k=m.read b k :=
  (same_write hd).read

lemma read_write_self (m : Memory) (a n v : Nat) : (m.write a n v).read a n=v%256^n := by
  induction n generalizing m a v with
  | zero => simp [Memory.read,Nat.mod_one]
  | succ n ih =>
    have htail : (m.write (a+1) n (v/256)).Same (m.write a (n+1) v) (a+1) n := by
      intro x hx hxn
      have hin : a≤x ∧ x<a+(n+1) := by omega
      have hin' : a+1≤x ∧ x<a+1+n := by omega
      have hpow : (256 : Nat) ^ (x-a)=256*256 ^ (x-(a+1)) := by
        rw [← Nat.pow_succ']
        congr 1
        omega
      simp only [write,hin,hin',and_self,if_true,hpow,Nat.div_div_eq_div_mul]
    have hbyte : ((m.write a (n+1) v).byte a).toNat=v%256 := by simp [write]
    rw [Memory.read,hbyte,htail.read,ih,Nat.pow_succ',Nat.mod_mul]

lemma read_write_of_lt (m : Memory) (a : Nat) {n v : Nat} (hv : v<256^n) :
    (m.write a n v).read a n=v := by
  rw [read_write_self,Nat.mod_eq_of_lt hv]

lemma read_lt (m : Memory) (a n : Nat) : m.read a n<256^n := by
  induction n generalizing a with
  | zero => simp [Memory.read]
  | succ n ih =>
    have hrest := ih (a+1)
    have hbyte := (m.byte a).toNat_lt
    rw [Memory.read,Nat.pow_succ']
    omega

end Memory

end UniProton.Framework
