import Mathlib.Logic.Function.Basic
import Mathlib.Tactic.Common

/-!
# Runs of a labelled transition system

A system is a partial step function: `step s a` is the state after `a`, or `none` where `a` is
not enabled. A schedule is a list of labels, so what holds after every list holds in every state
some interleaving reaches. `Meets` says that each step of a schedule finds a condition true in
the state it starts from.
-/

namespace Lts

variable {σ τ α : Type*}

/-- The state after the labels of `as`, if each is enabled in its turn. -/
def run (step : σ → α → Option σ) : σ → List α → Option σ
  | s, [] => some s
  | s, a :: as => (step s a).bind (run step · as)

/-- Every step taken along `as` starts in a state that meets `cond` with its label. -/
def Meets (step : σ → α → Option σ) (cond : σ → α → Prop) : σ → List α → Prop
  | _, [] => True
  | s, a :: as => cond s a ∧ ∀ s' ∈ step s a, Meets step cond s' as

variable {step : σ → α → Option σ} {cond : σ → α → Prop}

instance Meets.decidable [∀ s a, Decidable (cond s a)] :
    ∀ (s : σ) (as : List α), Decidable (Meets step cond s as)
  | _, [] => isTrue trivial
  | s, a :: as =>
    have : ∀ s', Decidable (Meets step cond s' as) := fun s' => Meets.decidable s' as
    inferInstanceAs (Decidable (cond s a ∧ ∀ s' ∈ step s a, Meets step cond s' as))

@[simp] theorem run_nil (s : σ) : run step s [] = some s := rfl

theorem run_cons (s : σ) (a : α) (as : List α) :
    run step s (a :: as) = (step s a).bind (run step · as) := rfl

theorem run_cons_eq_some {s t : σ} {a : α} {as : List α} :
    run step s (a :: as) = some t ↔ ∃ s', step s a = some s' ∧ run step s' as = some t := by
  simp [run_cons, Option.bind_eq_some_iff]

theorem run_append (s : σ) : ∀ as bs : List α,
    run step s (as ++ bs) = (run step s as).bind (run step · bs)
  | [], bs => rfl
  | a :: as, bs => by
    rw [List.cons_append, run_cons, run_cons, Option.bind_assoc]
    congr 1
    funext s'
    exact run_append s' as bs

/-- What each step keeps, where it meets the condition, holds after a schedule that meets it. -/
theorem run_inv {I : σ → Prop}
    (hstep : ∀ s a s', I s → cond s a → step s a = some s' → I s') :
    ∀ (as : List α) {s t : σ}, I s → Meets step cond s as → run step s as = some t → I t
  | [], s, t, hs, _, h => by
    rw [run_nil, Option.some.injEq] at h
    exact h ▸ hs
  | a :: as, s, t, hs, hm, h => by
    obtain ⟨s', h1, h2⟩ := run_cons_eq_some.1 h
    exact run_inv hstep as (hstep s a s' hs hm.1 h1) (hm.2 s' h1) h2

theorem Meets.cons {s s' : σ} {a : α} {as : List α} (ha : cond s a) (hs : step s a = some s')
    (hm : Meets step cond s' as) : Meets step cond s (a :: as) :=
  ⟨ha, fun t ht => by
    obtain rfl : s' = t := Option.some.inj (hs.symm.trans ht)
    exact hm⟩

theorem Meets.imp {cond' : σ → α → Prop} (h : ∀ s a, cond s a → cond' s a) :
    ∀ {as : List α} {s : σ}, Meets step cond s as → Meets step cond' s as
  | [], _, _ => trivial
  | _ :: _, _, hm => ⟨h _ _ hm.1, fun s' hs' => (hm.2 s' hs').imp h⟩

/-- Two conditions that agree where an invariant holds, which each step keeps that meets them. -/
theorem meets_congr {I : σ → Prop} {cond' : σ → α → Prop}
    (hstep : ∀ s a s', I s → cond s a → step s a = some s' → I s')
    (hiff : ∀ s a, I s → (cond' s a ↔ cond s a)) :
    ∀ (as : List α) {s : σ}, I s → (Meets step cond' s as ↔ Meets step cond s as)
  | [], _, _ => Iff.rfl
  | a :: as, s, hs => by
    unfold Meets
    rw [hiff s a hs]
    refine and_congr_right fun hc => forall₂_congr fun s' hs' => ?_
    exact meets_congr hstep hiff as (hstep s a s' hs hc hs')

theorem Meets.and {cond' : σ → α → Prop} : ∀ {as : List α} {s : σ}, Meets step cond s as →
    Meets step cond' s as → Meets step (fun s a => cond s a ∧ cond' s a) s as
  | [], _, _, _ => trivial
  | _ :: _, _, hm, hm' => ⟨⟨hm.1, hm'.1⟩, fun s' hs' => (hm.2 s' hs').and (hm'.2 s' hs')⟩

theorem meets_of_forall {p : α → Prop} : ∀ {as : List α} (s : σ), (∀ a ∈ as, p a) →
    Meets step (fun _ a => p a) s as
  | [], _, _ => trivial
  | a :: _, _, hp => ⟨hp a (List.mem_cons_self ..), fun s' _ =>
      meets_of_forall s' fun b hb => hp b (List.mem_cons_of_mem _ hb)⟩

theorem Meets.and_forall {p : α → Prop} {as : List α} {s : σ} (hm : Meets step cond s as)
    (hp : ∀ a ∈ as, p a) : Meets step (fun s a => cond s a ∧ p a) s as :=
  hm.and (meets_of_forall s hp)

theorem meets_true (as : List α) (s : σ) : Meets step (fun _ _ => True) s as :=
  meets_of_forall s fun _ _ => trivial

/-- What every step keeps holds after every schedule. -/
theorem run_inv_of_step {I : σ → Prop} (hstep : ∀ s a s', I s → step s a = some s' → I s')
    (as : List α) {s t : σ} (hs : I s) (h : run step s as = some t) : I t :=
  run_inv (fun s a s' hi _ => hstep s a s' hi) as hs (meets_true as s) h

/-- An invariant of the state and of the schedule that led to it. -/
theorem run_inv_history {start : σ} {I : List α → σ → Prop} (hnil : I [] start)
    (hstep : ∀ as s a s', run step start as = some s → I as s → step s a = some s' →
      I (as ++ [a]) s')
    (as : List α) {t : σ} (h : run step start as = some t) : I as t := by
  -- the rest of a schedule, after a part that the invariant has been shown for
  have hrest : ∀ (bs as : List α) (s : σ), run step start as = some s → I as s →
      run step s bs = some t → I (as ++ bs) t := by
    intro bs
    induction bs with
    | nil =>
      intro as s _ hs h
      rw [run_nil, Option.some.injEq] at h
      rw [List.append_nil, ← h]
      exact hs
    | cons b bs ih =>
      intro as s has hs h
      obtain ⟨s', hb, hbs⟩ := run_cons_eq_some.1 h
      have has' : run step start (as ++ [b]) = some s' := by
        simp [run_append, has, run_cons, hb]
      have := ih (as ++ [b]) s' has' (hstep as s b s' has hs hb) hbs
      rwa [List.append_assoc, List.singleton_append] at this
  exact hrest as [] start rfl hnil h

section Observed

variable {β : Type*}

/-- What can be seen of the steps along a schedule. -/
def observed (step : σ → α → Option σ) (obs : σ → α → Option β) : σ → List α → List β
  | _, [] => []
  | s, a :: as => (obs s a).toList ++ (step s a).elim [] (observed step obs · as)

/-- An invariant of the state and of what has been seen so far. -/
theorem run_inv_observed (obs : σ → α → Option β) {I : σ → List β → Prop}
    (hstep : ∀ s a s' h, I s h → cond s a → step s a = some s' → I s' (h ++ (obs s a).toList)) :
    ∀ (as : List α) {s t : σ} {h : List β}, I s h → Meets step cond s as → run step s as = some t →
      I t (h ++ observed step obs s as)
  | [], s, t, h, hs, _, hrun => by
    rw [run_nil, Option.some.injEq] at hrun
    simpa [observed, hrun] using hs
  | a :: as, s, t, h, hs, hm, hrun => by
    obtain ⟨s', h1, h2⟩ := run_cons_eq_some.1 hrun
    have := run_inv_observed obs hstep as (hstep s a s' h hs hm.1 h1) (hm.2 s' h1) h2
    simpa [observed, h1] using this

end Observed

/-- What a step cannot bring about holds all along, if it holds in the end. -/
theorem meets_of_final {P : σ → Prop} (hback : ∀ s a s', step s a = some s' → P s' → P s) :
    ∀ (as : List α) {s t : σ}, run step s as = some t → P t →
      P s ∧ Meets step (fun s _ => P s) s as
  | [], s, t, h, ht => by
    rw [run_nil, Option.some.injEq] at h
    exact ⟨h ▸ ht, trivial⟩
  | a :: as, s, t, h, ht => by
    obtain ⟨s', h1, h2⟩ := run_cons_eq_some.1 h
    obtain ⟨hs', hm⟩ := meets_of_final hback as h2 ht
    have hs := hback s a s' h1 hs'
    refine ⟨hs, hs, fun s'' hs'' => ?_⟩
    obtain rfl : s' = s'' := Option.some.inj (h1.symm.trans hs'')
    exact hm

/-- A run of steps that each come down a measure is no longer than the measure. -/
theorem length_le_of_measure {p : α → Prop} (μ : σ → ℕ)
    (hstep : ∀ s a s', p a → step s a = some s' → μ s' < μ s) :
    ∀ (as : List α) {s t : σ}, (∀ a ∈ as, p a) → run step s as = some t → as.length + μ t ≤ μ s
  | [], s, t, _, h => by
    rw [run_nil, Option.some.injEq] at h
    simp [h]
  | a :: as, s, t, hp, h => by
    obtain ⟨s', h1, h2⟩ := run_cons_eq_some.1 h
    have hlt := hstep s a s' (hp a (List.mem_cons_self ..)) h1
    have ih := length_le_of_measure μ hstep as (fun b hb => hp b (List.mem_cons_of_mem _ hb)) h2
    rw [List.length_cons]
    omega

/-- Steps that are enabled and come down a measure until they are done can be taken to the end. -/
theorem exists_run_of_measure {I done : σ → Prop} {p : α → Prop} (μ : σ → ℕ)
    (hstep : ∀ s, I s → ¬ done s → ∃ a s', p a ∧ step s a = some s' ∧ I s' ∧ μ s' < μ s)
    (s : σ) (hs : I s) : ∃ as t, (∀ a ∈ as, p a) ∧ run step s as = some t ∧ I t ∧ done t := by
  induction hn : μ s using Nat.strongRecOn generalizing s with
  | _ n ih =>
    by_cases hd : done s
    · exact ⟨[], s, by simp, rfl, hs, hd⟩
    · obtain ⟨a, s', ha, hstep', hs', hlt⟩ := hstep s hs hd
      obtain ⟨as, t, has, hrun, ht, hdt⟩ := ih (μ s') (hn ▸ hlt) s' hs' rfl
      refine ⟨a :: as, t, ?_, run_cons_eq_some.2 ⟨s', hstep', hrun⟩, ht, hdt⟩
      simpa [ha] using has

/-- Where a step reaches a state with `P` exactly from a state with `P` that meets the condition,
so does a schedule. -/
theorem run_iff {I P : σ → Prop} (hinv : ∀ s a s', I s → step s a = some s' → I s')
    (hstep : ∀ s a s', I s → step s a = some s' → (P s' ↔ P s ∧ cond s a)) :
    ∀ (as : List α) {s t : σ}, I s → run step s as = some t → (P t ↔ P s ∧ Meets step cond s as)
  | [], s, t, _, h => by
    rw [run_nil, Option.some.injEq] at h
    simp [h, Meets]
  | a :: as, s, t, hs, h => by
    obtain ⟨s', h1, h2⟩ := run_cons_eq_some.1 h
    rw [run_iff hinv hstep as (hinv s a s' hs h1) h2, hstep s a s' hs h1, Meets, and_assoc]
    simp [h1]

end Lts
