import Mathlib.Algebra.GroupWithZero.Nat
import Mathlib.Data.List.Perm.Basic
import Mathlib.Data.List.Range
import Mathlib.Tactic.Common

/-!
# Lists up to order

Numbers handed out from a counter and collected in two lists, those put away and those still held,
are together a permutation of an initial segment. The next one put away keeps the first list in
counting order exactly if it is the least one held.
-/

namespace ListPerm

variable {α β : Type*}

theorem perm_cons_eraseIdx {l : List α} {t : ℕ} {x : α} (h : l[t]? = some x) :
    l.Perm (x :: l.eraseIdx t) := by
  obtain ⟨ht, rfl⟩ := List.getElem?_eq_some_iff.1 h
  exact (List.getElem_cons_eraseIdx_perm ht).symm

theorem sum_map_set {l : List α} {t : ℕ} {x : α} (h : l[t]? = some x) (y : α) (f : α → ℕ) :
    ((l.set t y).map f).sum + f x = (l.map f).sum + f y := by
  induction l generalizing t with
  | nil => simp at h
  | cons z l ih =>
    cases t with
    | zero =>
      obtain rfl : z = x := by simpa using h
      simp only [List.set_cons_zero, List.map_cons, List.sum_cons]
      omega
    | succ t =>
      have := ih (t := t) (by simpa using h)
      simp only [List.set_cons_succ, List.map_cons, List.sum_cons]
      omega

theorem countP_set_add {l : List α} {t : ℕ} {x : α} (h : l[t]? = some x) (y : α) (p : α → Bool) :
    (l.set t y).countP p + (if p x then 1 else 0) = l.countP p + if p y then 1 else 0 := by
  obtain ⟨ht, rfl⟩ := List.getElem?_eq_some_iff.1 h
  have hle := List.boole_getElem_le_countP (p := p) ht
  rw [List.countP_set ht]
  omega

theorem countP_modify {p : α → Bool} {f : α → α} (h : ∀ x, p (f x) = p x) :
    ∀ (l : List α) (t : ℕ), (l.modify t f).countP p = l.countP p
  | [], _ => by simp
  | x :: l, 0 => by simp [List.countP_cons, h]
  | x :: l, t + 1 => by simp [List.countP_cons, countP_modify h l t]

theorem countP_modify_le {p : α → Bool} {f : α → α} (h : ∀ x, p (f x) = false) :
    ∀ (l : List α) (t : ℕ), (l.modify t f).countP p ≤ l.countP p
  | [], _ => by simp
  | x :: l, 0 => by simp [List.countP_cons, h]
  | x :: l, t + 1 => by simp [List.countP_cons, countP_modify_le h l t]

theorem filterMap_perm_eraseIdx {l : List α} {t : ℕ} {x : α} (h : l[t]? = some x)
    (f : α → Option β) : (l.filterMap f).Perm ((f x).toList ++ (l.eraseIdx t).filterMap f) := by
  refine ((perm_cons_eraseIdx h).filterMap f).trans ?_
  rcases hx : f x with _ | b <;> simp [hx]

theorem filterMap_set_perm {l : List α} {t : ℕ} {x : α} (h : l[t]? = some x) (y : α)
    (f : α → Option β) :
    ((l.set t y).filterMap f).Perm ((f y).toList ++ (l.eraseIdx t).filterMap f) := by
  have ht := (List.getElem?_eq_some_iff.1 h).1
  refine ((List.set_perm_cons_eraseIdx ht y).filterMap f).trans ?_
  rcases hy : f y with _ | b <;> simp [hy]

theorem le_of_range_append_perm {m n : ℕ} {l : List ℕ}
    (h : (List.range m ++ l).Perm (List.range n)) {y : ℕ} (hy : y ∈ l) : m ≤ y := by
  have hnd := h.nodup_iff.2 List.nodup_range
  have hdisj := (List.nodup_append.1 hnd).2.2
  by_contra hlt
  exact hdisj y (List.mem_range.2 (by omega)) y hy rfl

/-- The counting order goes on exactly with the least number held. -/
theorem eq_iff_least {m n x : ℕ} {l : List ℕ}
    (h : (List.range m ++ x :: l).Perm (List.range n)) : x = m ↔ ∀ y ∈ l, x < y := by
  have hnd := (List.nodup_append.1 (h.nodup_iff.2 List.nodup_range)).2.1
  have hx := (List.nodup_cons.1 hnd).1
  have hmx := le_of_range_append_perm h (List.mem_cons_self ..)
  constructor
  · rintro rfl y hy
    have hle := le_of_range_append_perm h (List.mem_cons_of_mem _ hy)
    have hne : y ≠ x := fun he => hx (he ▸ hy)
    omega
  · intro hleast
    by_contra hne
    have hxn : x ∈ List.range n := h.subset (by simp)
    have hm : m ∈ List.range m ++ x :: l :=
      h.symm.subset (List.mem_range.2 (by have := List.mem_range.1 hxn; omega))
    rcases List.mem_append.1 hm with hr | hr
    · have := List.mem_range.1 hr
      omega
    rcases List.mem_cons.1 hr with he | hl
    · exact hne he.symm
    · have := hleast m hl
      omega

theorem append_singleton_eq_range {l : List ℕ} {x : ℕ} :
    l ++ [x] = List.range (l ++ [x]).length ↔ l = List.range l.length ∧ x = l.length := by
  rw [List.length_append, List.length_singleton, List.range_succ]
  constructor
  · intro h
    obtain ⟨h1, h2⟩ := List.append_inj h (List.length_range ..).symm
    exact ⟨h1, List.singleton_inj.1 h2⟩
  · rintro ⟨h1, h2⟩
    rw [← h1, ← h2]

end ListPerm
