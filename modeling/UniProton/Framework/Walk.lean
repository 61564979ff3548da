import Mathlib

namespace UniProton.Framework

variable {α : Type} {next : α → Option α} {p q : α → Prop} {a b c x : α}

/-- On the way from one node to another along `next` every node, both ends included, has the
property. -/
inductive OnPath (next : α → Option α) (p : α → Prop) : α → α → Prop
  | here {a : α} (ha : p a) : OnPath next p a a
  | step {a b c : α} (ha : p a) (hb : next a=some b) (hc : OnPath next p b c) : OnPath next p a c

namespace OnPath

lemma first (h : OnPath next p a c) : p a := by
  cases h with
  | here ha => exact ha
  | step ha _ _ => exact ha

lemma last (h : OnPath next p a c) : p c := by
  induction h with
  | here ha => exact ha
  | step _ _ _ ih => exact ih

lemma of_next {next' : α → Option α} (hn : ∀ x, p x → next' x=next x)
    (h : OnPath next p a c) : OnPath next' p a c := by
  induction h with
  | here ha => exact .here ha
  | @step a b c ha hb _ ih => exact .step ha ((hn a ha).trans hb) ih

lemma mono (hpq : ∀ x, p x → q x) (h : OnPath next p a c) : OnPath next q a c := by
  induction h with
  | here ha => exact .here (hpq _ ha)
  | step ha hb _ ih => exact .step (hpq _ ha) hb ih

lemma avoid (h : OnPath next p x c) (a : α) : OnPath next (fun y => p y ∧ y≠a) x c ∨ c=a ∨
      ∃ b, next a=some b ∧ OnPath next (fun y => p y ∧ y≠a) b c := by
  induction h with
  | @here x hx =>
    by_cases hxa : x=a
    . exact .inr (.inl hxa)
    exact .inl (.here ⟨hx,hxa⟩)
  | @step x b c hx hb _ ih =>
    rcases ih with hleft | hend | hbehind
    . by_cases hxa : x=a
      . subst hxa
        exact .inr (.inr ⟨b,hb,hleft⟩)
      exact .inl (.step ⟨hx,hxa⟩ hb hleft)
    . exact .inr (.inl hend)
    exact .inr (.inr hbehind)

lemma iff_avoid : OnPath next p a c ↔
    p a ∧ (c=a ∨ ∃ b, next a=some b ∧ OnPath next (fun y => p y ∧ y≠a) b c) := by
  constructor
  . intro h
    refine ⟨h.first,?_⟩
    rcases h.avoid a with hav | hend | hbehind
    . exact absurd rfl hav.first.2
    . exact .inl hend
    exact .inr hbehind
  rintro ⟨ha,rfl | ⟨b,hb,hc⟩⟩
  . exact .here ha
  exact .step ha hb (hc.mono fun _ hy => hy.1)

end OnPath

end UniProton.Framework
