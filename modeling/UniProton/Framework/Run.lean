import Mathlib

namespace UniProton.Framework

variable {σ ι : Type}

/-- A deterministic machine: start states, and the state after an input. -/
structure Machine (σ ι : Type) where
  start : σ → Prop
  step : σ → ι → σ

namespace Machine

variable (M : Machine σ ι)

/-- States that runs reach when every input of the run was allowed in the state it met. -/
inductive Reaches (ok : σ → ι → Prop) : σ → Prop
  | start {s : σ} (hs : M.start s) : Reaches ok s
  | step {s : σ} {i : ι} (hs : Reaches ok s) (hi : ok s i) : Reaches ok (M.step s i)

def run (s : σ) (is : List ι) : σ := is.foldl M.step s

def Allowed (ok : σ → ι → Prop) : σ → List ι → Prop
  | _, [] => True
  | s, i::is => ok s i ∧ Allowed ok (M.step s i) is

variable {M} {ok ok' : σ → ι → Prop} {P Q : σ → Prop} {s : σ}

lemma Reaches.run (hs : M.Reaches ok s) (is : List ι) (his : M.Allowed ok s is) :
    M.Reaches ok (M.run s is) := by
  induction is generalizing s with
  | nil => exact hs
  | cons i is ih => exact ih (hs.step his.1) his.2

lemma Reaches.mono (hs : M.Reaches ok s) (h : ∀ s i, ok s i → ok' s i) : M.Reaches ok' s := by
  induction hs with
  | start hs => exact .start hs
  | step _ hi ih => exact .step ih (h _ _ hi)

lemma Reaches.invariant (hs : M.Reaches ok s) (hstart : ∀ s, M.start s → P s)
    (hstep : ∀ s i, P s → ok s i → P (M.step s i)) : P s := by
  induction hs with
  | start hs => exact hstart _ hs
  | step _ hi ih => exact hstep _ _ ih hi

lemma Allowed.mono {is : List ι} (his : M.Allowed ok s is) (h : ∀ s i, ok s i → ok' s i) :
    M.Allowed ok' s is := by
  induction is generalizing s with
  | nil => trivial
  | cons i is ih => exact ⟨h s i his.1,ih his.2⟩

lemma Allowed.invariant {is : List ι} (his : M.Allowed ok s is) (hs : P s)
    (hstep : ∀ s i, P s → ok s i → P (M.step s i)) : P (M.run s is) := by
  induction is generalizing s with
  | nil => exact hs
  | cons i is ih => exact ih his.2 (hstep s i hs his.1)

/-- An invariant may be used while a second one is proved. -/
lemma Reaches.invariant_of (hs : M.Reaches ok s) (hQ : ∀ s, M.Reaches ok s → Q s)
    (hstart : ∀ s, M.start s → P s) (hstep : ∀ s i, Q s → P s → ok s i → P (M.step s i)) : P s := by
  induction hs with
  | start hs => exact hstart _ hs
  | step hs hi ih => exact hstep _ _ (hQ _ hs) ih hi

end Machine

end UniProton.Framework
