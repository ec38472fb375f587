import Mathlib.Tactic.Common

/-!
# Ownership

Agents take resources into use, change them in several steps and give them back. What holds of a
resource at rest need not hold of one in use; the agent that uses it keeps track of it instead. If a
resource is used by one agent at a time, a step concerns the stage of one agent and the resources
that it gives back.
-/

namespace Ownership

variable {σ α ρ : Type*}

structure Discipline (σ α ρ : Type*) where
  uses : σ → α → ρ → Prop
  stage : σ → α → Prop
  rest : σ → ρ → Prop

/-- Each resource is used by one agent at most, each agent is at its stage and each resource that is
not in use is at rest. -/
structure Discipline.Inv (D : Discipline σ α ρ) (s : σ) : Prop where
  exclusive : ∀ {a b r}, D.uses s a r → D.uses s b r → a = b
  stage : ∀ a, D.stage s a
  rest : ∀ r, (∀ a, ¬ D.uses s a r) → D.rest s r

variable {D : Discipline σ α ρ} {s s' : σ}

/-- No resource is taken or given back. -/
theorem Discipline.Inv.keep (h : D.Inv s) (huses : ∀ a r, D.uses s' a r ↔ D.uses s a r)
    (hstage : ∀ a, D.stage s a → D.stage s' a) (hrest : ∀ r, D.rest s r → D.rest s' r) :
    D.Inv s' where
  exclusive ha hb := h.exclusive ((huses ..).1 ha) ((huses ..).1 hb)
  stage a := hstage a (h.stage a)
  rest r hr := hrest r (h.rest r fun a ha => hr a ((huses ..).2 ha))

/-- A step of the agent `a`. It may take resources that are not in use, and changes those it uses;
`same` is what it leaves alone, and what the others and the resources at rest depend on. -/
theorem Discipline.Inv.step {same : ρ → Prop} (h : D.Inv s) (a : α)
    (others : ∀ b, b ≠ a → ∀ r, D.uses s' b r ↔ D.uses s b r)
    (takes : ∀ r, D.uses s' a r → D.uses s a r ∨ ∀ b, ¬ D.uses s b r)
    (leaves : ∀ r, ¬ D.uses s a r → ¬ D.uses s' a r → same r)
    (frameStage : ∀ b, b ≠ a → (∀ r, D.uses s b r → same r) → D.stage s b → D.stage s' b)
    (frameRest : ∀ r, same r → D.rest s r → D.rest s' r) (stage : D.stage s' a)
    (gives : ∀ r, D.uses s a r → ¬ D.uses s' a r → D.rest s' r) : D.Inv s' := by
  have apart : ∀ b, b ≠ a → ∀ r, D.uses s b r → ¬ D.uses s' a r := by
    intro b hb r hu hu'
    rcases takes r hu' with ha | hfree
    · exact hb (h.exclusive hu ha)
    · exact hfree b hu
  refine ⟨fun {b b' r} hb hb' => ?_, fun b => ?_, fun r hr => ?_⟩
  · by_cases hba : b = a <;> by_cases hba' : b' = a
    · rw [hba, hba']
    · exact absurd (hba ▸ hb) (apart b' hba' r ((others b' hba' r).1 hb'))
    · exact absurd (hba' ▸ hb') (apart b hba r ((others b hba r).1 hb))
    · exact h.exclusive ((others b hba r).1 hb) ((others b' hba' r).1 hb')
  · by_cases hba : b = a
    · exact hba ▸ stage
    · refine frameStage b hba (fun r hu => leaves r (fun ha => hba (h.exclusive hu ha)) ?_) (h.stage b)
      exact apart b hba r hu
  · by_cases ha : D.uses s a r
    · exact gives r ha (hr a)
    · refine frameRest r (leaves r ha (hr a)) (h.rest r fun b hb => ?_)
      by_cases hba : b = a
      · exact ha (hba ▸ hb)
      · exact hr b ((others b hba r).2 hb)

end Ownership
