import Mathlib.Data.Multiset.AddSub
import Mathlib.Data.Multiset.Filter
import Mathlib.Data.Multiset.UnionInter
import Mathlib.Data.Set.Insert

/-!
# One-shot cells

A cell is made empty and is meant to be filled once, by whoever holds it. A cell that is held may
be passed on, dropped or filled, and none is held again that has been filled. So if no cell is held
in two places when it is made, none ever is, and a cell that is held is empty.
-/

namespace OneShot

variable {α : Type*}

/-- The cells made so far, where they are held, which were filled and which are empty. A cell
counts in `held` once for each place that holds it. -/
structure Cells (α : Type*) where
  made : Set α
  held : Multiset α
  filled : Multiset α
  empty : Set α

namespace Cells

variable {c c' : Cells α} {x : α}

/-- No cell is held twice, filled twice, or held once it was filled; what was not filled is
empty. -/
structure Valid (c : Cells α) : Prop where
  nodup : (c.held + c.filled).Nodup
  made : ∀ x ∈ c.held + c.filled, x ∈ c.made
  empty : ∀ x ∈ c.made, x ∉ c.filled → x ∈ c.empty

/-- Cells are passed on, dropped or emptied. -/
structure Passes (c c' : Cells α) : Prop where
  made : c'.made = c.made
  held : c'.held ≤ c.held
  filled : c'.filled = c.filled
  empty : c.empty ⊆ c'.empty

/-- `x` is made, for one place to hold it. -/
structure Makes (x : α) (c c' : Cells α) : Prop where
  fresh : x ∉ c.made
  made : c'.made = insert x c.made
  held : c'.held ≤ x ::ₘ c.held
  filled : c'.filled = c.filled
  empty : insert x c.empty ⊆ c'.empty

/-- The place that holds `x` fills it. -/
structure Fills (x : α) (c c' : Cells α) : Prop where
  made : c'.made = c.made
  held : x ::ₘ c'.held ≤ c.held
  filled : c'.filled = x ::ₘ c.filled
  empty : c.empty \ {x} ⊆ c'.empty

/-- What a step may do. -/
inductive Step (c c' : Cells α) : Prop
  | passes (h : Passes c c')
  | makes (x : α) (h : Makes x c c')
  | fills (x : α) (h : Fills x c c')

theorem Passes.valid (h : Passes c c') (hv : c.Valid) : c'.Valid := by
  have hle : c'.held + c'.filled ≤ c.held + c.filled := by
    rw [h.filled]
    exact Multiset.add_le_add_right h.held
  refine ⟨Multiset.nodup_of_le hle hv.nodup, fun x hx => ?_, fun x hx hf => ?_⟩
  · rw [h.made]
    exact hv.made x (Multiset.mem_of_le hle hx)
  · rw [h.made] at hx
    rw [h.filled] at hf
    exact h.empty (hv.empty x hx hf)

theorem Makes.valid (h : Makes x c c') (hv : c.Valid) : c'.Valid := by
  have hle : c'.held + c'.filled ≤ x ::ₘ (c.held + c.filled) := by
    rw [h.filled, ← Multiset.cons_add]
    exact Multiset.add_le_add_right h.held
  refine ⟨Multiset.nodup_of_le hle ?_, fun y hy => ?_, fun y hy hf => ?_⟩
  · exact Multiset.nodup_cons.2 ⟨fun hx => h.fresh (hv.made x hx), hv.nodup⟩
  · rw [h.made]
    exact (Multiset.mem_cons.1 (Multiset.mem_of_le hle hy)).imp id (hv.made y)
  · rw [h.made] at hy
    rw [h.filled] at hf
    exact h.empty (hy.imp id fun hy => hv.empty y hy hf)

theorem Fills.valid (h : Fills x c c') (hv : c.Valid) : c'.Valid := by
  have hle : c'.held + c'.filled ≤ c.held + c.filled := by
    rw [h.filled, Multiset.add_cons, ← Multiset.cons_add]
    exact Multiset.add_le_add_right h.held
  refine ⟨Multiset.nodup_of_le hle hv.nodup, fun y hy => ?_, fun y hy hf => ?_⟩
  · rw [h.made]
    exact hv.made y (Multiset.mem_of_le hle hy)
  · rw [h.made] at hy
    rw [h.filled, Multiset.mem_cons, not_or] at hf
    exact h.empty ⟨hv.empty y hy hf.2, hf.1⟩

/-- Each step keeps the cells one-shot. -/
theorem Step.valid (h : Step c c') (hv : c.Valid) : c'.Valid := by
  cases h with
  | passes h => exact h.valid hv
  | makes x h => exact h.valid hv
  | fills x h => exact h.valid hv

theorem Valid.not_filled (hv : c.Valid) (hx : x ∈ c.held) : x ∉ c.filled :=
  (Multiset.disjoint_left.1 (Multiset.nodup_add.1 hv.nodup).2.2) hx

/-- Whoever holds a cell finds it empty. -/
theorem Valid.empty_of_held (hv : c.Valid) (hx : x ∈ c.held) : x ∈ c.empty :=
  hv.empty x (hv.made x (Multiset.mem_add.2 (.inl hx))) (hv.not_filled hx)

/-- A cell is filled once at most. -/
theorem Valid.nodup_filled (hv : c.Valid) : c.filled.Nodup := (Multiset.nodup_add.1 hv.nodup).2.1

end Cells

/-! ## Cells held in a map -/

section Keyed

variable {κ β : Type*} [DecidableEq κ] (cell : β → α) (l : List (κ × β)) (key : κ)

theorem map_filter_ne_le :
    (↑((l.filter (·.1 ≠ key)).map fun p => cell p.2) : Multiset α) ≤ ↑(l.map fun p => cell p.2) :=
  Multiset.coe_le.2 (List.filter_sublist.map _).subperm

variable {l key}

/-- An entry taken out of the map. -/
theorem cons_map_filter_ne_le {b : β} (h : (key, b) ∈ l) :
    cell b ::ₘ (↑((l.filter (·.1 ≠ key)).map fun p => cell p.2) : Multiset α) ≤
      ↑(l.map fun p => cell p.2) := by
  obtain ⟨l₁, l₂, rfl⟩ := List.append_of_mem h
  have hsub : ((l₁ ++ (key, b) :: l₂).filter (·.1 ≠ key)).Sublist (l₁ ++ l₂) := by
    rw [List.filter_append, List.filter_cons_of_neg (by simp)]
    exact List.filter_sublist.append List.filter_sublist
  have hle := Multiset.coe_le.2 (hsub.map fun p => cell p.2).subperm
  refine (Multiset.cons_le_cons (cell b) hle).trans_eq (Multiset.coe_eq_coe.2 ?_)
  simp only [List.map_append, List.map_cons]
  exact List.perm_middle.symm

variable (l key)

/-- What is under the key, and the rest. -/
theorem map_filter_ne_add :
    (↑((l.filter (·.1 ≠ key)).map fun p => cell p.2) +
      ↑((l.filter (·.1 = key)).map fun p => cell p.2) : Multiset α) = ↑(l.map fun p => cell p.2) := by
  rw [Multiset.coe_add, ← List.map_append]
  refine Multiset.coe_eq_coe.2 (List.Perm.map _ ?_)
  simpa using (List.perm_append_comm.trans (List.filter_append_perm (·.1 = key) l))

variable {l key}

/-- In a map with one entry for a key, the entry taken out and the rest are all of it. -/
theorem cons_map_filter_ne_eq {b : β} (hkeys : (l.map (·.1)).Nodup) (h : (key, b) ∈ l) :
    cell b ::ₘ (↑((l.filter (·.1 ≠ key)).map fun p => cell p.2) : Multiset α) =
      ↑(l.map fun p => cell p.2) := by
  have hone : l.filter (·.1 = key) = [(key, b)] := by
    have hinj := List.inj_on_of_nodup_map hkeys
    refine List.perm_singleton.1 ((List.perm_ext_iff_of_nodup ?_ (List.nodup_singleton _)).2 ?_)
    · exact (List.Nodup.of_map _ hkeys).filter _
    · rintro ⟨k, b'⟩
      rw [List.mem_filter, List.mem_singleton, decide_eq_true_eq]
      constructor
      · rintro ⟨hmem, hk⟩
        exact hinj hmem h hk
      · intro heq
        rw [heq]
        exact ⟨h, rfl⟩
  rw [← map_filter_ne_add cell l key, hone, List.map_singleton, Multiset.add_comm]
  rfl

/-- An entry set in the map: there is still one for each key. -/
theorem nodup_keys_insert (b : β) (hkeys : (l.map (·.1)).Nodup) :
    (((key, b) :: l.filter (·.1 ≠ key)).map (·.1)).Nodup := by
  rw [List.map_cons, List.nodup_cons]
  refine ⟨?_, hkeys.sublist (List.filter_sublist.map _)⟩
  simp

end Keyed

/-! ## Cells in a list

The cells are the places of a list, empty until they are filled. Those that are empty are accounted
for by who holds them and by those that were dropped. -/

section Accounted

variable {β : Type*} {cells : List (Option β)} {held lost dropped : Multiset ℕ} {i : ℕ}

/-- What is held and what was dropped are the empty cells, each of them once. -/
structure Accounted (cells : List (Option β)) (held lost : Multiset ℕ) : Prop where
  nodup : (held + lost).Nodup
  empty : ∀ i, i ∈ held + lost ↔ cells[i]? = some none

theorem Accounted.nil : Accounted ([] : List (Option β)) 0 0 :=
  ⟨Multiset.nodup_zero, by simp⟩

theorem Accounted.empty_of_held (h : Accounted cells (i ::ₘ held) lost) : cells[i]? = some none :=
  (h.empty i).1 (Multiset.mem_add.2 (.inl (Multiset.mem_cons_self ..)))

theorem Accounted.drop (h : Accounted cells (held + dropped) lost) :
    Accounted cells held (lost + dropped) := by
  have hsum : held + (lost + dropped) = held + dropped + lost := by
    rw [Multiset.add_comm lost, Multiset.add_assoc]
  refine ⟨?_, fun i => ?_⟩
  · rw [hsum]
    exact h.nodup
  · rw [hsum]
    exact h.empty i

theorem Accounted.make (h : Accounted cells held lost) :
    Accounted (cells ++ [none]) (cells.length ::ₘ held) lost := by
  have hfresh : cells.length ∉ held + lost := fun hmem => by
    simpa using (h.empty _).1 hmem
  refine ⟨?_, fun i => ?_⟩
  · rw [Multiset.cons_add]
    exact Multiset.nodup_cons.2 ⟨hfresh, h.nodup⟩
  · rw [Multiset.cons_add, Multiset.mem_cons, h.empty]
    rcases Nat.lt_trichotomy i cells.length with hlt | rfl | hgt
    · rw [List.getElem?_append_left hlt]
      simp [hlt.ne]
    · simp
    · rw [List.getElem?_eq_none hgt.le, List.getElem?_eq_none (by simp; omega)]
      simp [hgt.ne']

theorem Accounted.fill (h : Accounted cells (i ::ₘ held) lost) (b : β) :
    Accounted (cells.set i (some b)) held lost := by
  have hnodup := h.nodup
  rw [Multiset.cons_add, Multiset.nodup_cons] at hnodup
  refine ⟨hnodup.2, fun j => ?_⟩
  rcases eq_or_ne i j with rfl | hne
  · simp [hnodup.1, List.getElem?_set]
  · rw [List.getElem?_set_ne hne, ← h.empty, Multiset.cons_add, Multiset.mem_cons]
    exact ⟨.inr, fun hj => hj.resolve_left hne.symm⟩

end Accounted

end OneShot
