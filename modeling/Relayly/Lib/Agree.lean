import Mathlib.Tactic.Common

/-!
# Computations that agree up to their errors

Two computations that may throw agree under a relation if both throw, whatever they throw, or both
return and what they return is related. `Agree.bind` takes two sequences of steps apart.
-/

universe u v

variable {ε : Type u} {α β γ δ : Type v}

/-- A sequence that returns, step by step. -/
theorem Except.bind_ok {x : Except ε α} {f : α → Except ε β} {b : β} (h : x >>= f = .ok b) :
    ∃ a, x = .ok a ∧ f a = .ok b := by
  cases x with
  | error e => cases h
  | ok a => exact ⟨a, rfl, h⟩

/-- Both throw, or both return what `R` relates. -/
inductive Agree (R : α → β → Prop) : Except ε α → Except ε β → Prop
  | error (e e' : ε) : Agree R (.error e) (.error e')
  | ok {a : α} {b : β} (h : R a b) : Agree R (.ok a) (.ok b)

/-- Throws. -/
def Throws (x : Except ε α) : Prop := ∃ e, x = .error e

namespace Throws

variable {x : Except ε α} {f : α → Except ε β}

theorem error (e : ε) : Throws (.error e : Except ε α) := ⟨e, rfl⟩

theorem bind (h : Throws x) (f : α → Except ε β) : Throws (x >>= f) := by
  obtain ⟨e, rfl⟩ := h
  exact .error e

theorem map (h : Throws x) (f : α → β) : Throws (x.map f) := by
  obtain ⟨e, rfl⟩ := h
  exact .error e

/-- A later step throws, if it is reached. -/
theorem bind_right (h : ∀ a, x = .ok a → Throws (f a)) : Throws (x >>= f) := by
  cases x with
  | error e => exact .error e
  | ok a => exact h a rfl

end Throws

namespace Agree

variable {R : α → β → Prop} {S : γ → δ → Prop} {x : Except ε α} {y : Except ε β}

theorem bind (h : Agree R x y) {f : α → Except ε γ} {g : β → Except ε δ}
    (hfg : ∀ a b, x = .ok a → y = .ok b → R a b → Agree S (f a) (g b)) :
    Agree S (x >>= f) (y >>= g) := by
  cases h with
  | error e e' => exact .error e e'
  | ok hR => exact hfg _ _ rfl rfl hR

theorem elim (h : Agree R x y) : (∃ e e', x = .error e ∧ y = .error e')
    ∨ ∃ a b, x = .ok a ∧ y = .ok b ∧ R a b := by
  cases h with
  | error e e' => exact Or.inl ⟨e, e', rfl, rfl⟩
  | ok hR => exact Or.inr ⟨_, _, rfl, rfl, hR⟩

theorem of_throws (hx : Throws x) (hy : Throws y) : Agree R x y := by
  obtain ⟨e, rfl⟩ := hx
  obtain ⟨e', rfl⟩ := hy
  exact .error e e'

theorem self (x : Except ε α) : Agree Eq x x := by
  cases x with
  | error e => exact .error e e
  | ok a => exact .ok rfl

/-- The same step on both sides. -/
theorem bind_self {f : α → Except ε γ} {g : α → Except ε δ}
    (hfg : ∀ a, x = .ok a → Agree S (f a) (g a)) : Agree S (x >>= f) (x >>= g) :=
  (self x).bind fun a b ha _ hab => by
    subst hab
    exact hfg a ha

theorem map (h : Agree R x y) {f : α → γ} {g : β → δ} (hfg : ∀ a b, R a b → S (f a) (g b)) :
    Agree S (x.map f) (y.map g) := by
  cases h with
  | error e e' => exact .error e e'
  | ok hR => exact .ok (hfg _ _ hR)

end Agree
