import Mathlib.Logic.Function.Basic
import Mathlib.Order.Basic
import Mathlib.Tactic.Common

/-!
# Entries that are made on demand

A map from keys to states. A call uses the state of its key, and makes a fresh one where there is
none. An entry is spent if every later call would do with a fresh one what it does with it; then
nobody can tell whether the entry is still there.
-/

namespace OnDemand

variable {κ β τ ρ : Type*}

/-- The state of one key: how it is made, and what a call does to it, at a given time. -/
structure Machine (β τ ρ : Type*) where
  fresh : τ → β
  use : β → τ → ρ × β

variable (M : Machine β τ ρ)

/-- What a call does with the entry of `k`. -/
def reply (m : κ → Option β) (k : κ) (now : τ) : ρ × β := M.use ((m k).getD (M.fresh now)) now

def call [DecidableEq κ] (m : κ → Option β) (k : κ) (now : τ) : ρ × (κ → Option β) :=
  ((reply M m k now).1, Function.update m k (some (reply M m k now).2))

section
variable {M} [DecidableEq κ] {m : κ → Option β} {k : κ} {now : τ}

lemma call_snd_self : (call M m k now).2 k = some (reply M m k now).2 := Function.update_self ..

lemma call_snd_of_ne {k' : κ} (h : k' ≠ k) : (call M m k now).2 k' = m k' :=
  Function.update_of_ne h ..

end

/-- From `t` on a call cannot tell the entry from a fresh one. -/
def Spent [LE τ] (t : τ) (b : β) : Prop := ∀ now, t ≤ now → M.use b now = M.use (M.fresh now) now

/-- `m` lacks nothing of `full` but entries that are spent. -/
def Agree [LE τ] (t : τ) (m full : κ → Option β) : Prop :=
  ∀ k, m k = full k ∨ m k = none ∧ ∃ b, full k = some b ∧ Spent M t b

section
variable {M} [Preorder τ] {t now : τ} {m full : κ → Option β} {k : κ}

lemma Spent.later {b : β} (h : Spent M t b) (hle : t ≤ now) : Spent M now b :=
  fun later hlater => h later (hle.trans hlater)

lemma Agree.refl (t : τ) (m : κ → Option β) : Agree M t m m := fun _ => .inl rfl

lemma Agree.later (h : Agree M t m full) (hle : t ≤ now) : Agree M now m full := by
  intro k
  rcases h k with heq | ⟨hnone, b, hb, hspent⟩
  · exact .inl heq
  · exact .inr ⟨hnone, b, hb, hspent.later hle⟩

/-- A call does the same on both. -/
lemma Agree.reply_eq (h : Agree M t m full) (hle : t ≤ now) (k : κ) :
    reply M m k now = reply M full k now := by
  unfold reply
  rcases h k with heq | ⟨hnone, b, hb, hspent⟩
  · rw [heq]
  · rw [hnone, hb]
    exact (hspent now hle).symm

variable [DecidableEq κ]

lemma Agree.call_fst (h : Agree M t m full) (hle : t ≤ now) (k : κ) :
    (call M m k now).1 = (call M full k now).1 := by
  show (reply M m k now).1 = (reply M full k now).1
  rw [h.reply_eq hle k]

lemma Agree.call (h : Agree M t m full) (hle : t ≤ now) (k : κ) :
    Agree M now (call M m k now).2 (call M full k now).2 := by
  intro k'
  by_cases hk : k' = k
  · subst hk
    left
    rw [call_snd_self, call_snd_self, h.reply_eq hle k']
  · rw [call_snd_of_ne hk, call_snd_of_ne hk]
    exact h.later hle k'

/-- A spent entry may be removed. -/
lemma Agree.remove (h : Agree M t m full) (hspent : ∀ b, m k = some b → Spent M t b) :
    Agree M t (Function.update m k none) full := by
  intro k'
  by_cases hk : k' = k
  · subst hk
    rw [Function.update_self]
    rcases h k' with heq | ⟨hnone, hlost⟩
    · cases hb : m k' with
      | none => exact .inl (hb ▸ heq)
      | some b => exact .inr ⟨rfl, b, heq ▸ hb, hspent b hb⟩
    · exact .inr ⟨rfl, hlost⟩
  · rw [Function.update_of_ne hk]
    exact h k'

end

end OnDemand
