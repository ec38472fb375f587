import Mathlib.Data.List.Nodup
import Mathlib.Tactic.Common

/-!
# A loop over a list that changes

`forEach` calls a function on the items of a list, by index and up to the length that the list had
at the start. Meanwhile items are added at the end and taken out anywhere. An item never moves
to a higher index, so none is called twice; but what stands at the loop's place when an item before
it is taken out moves behind that place and is missed.
-/

namespace ForEach

variable {α : Type*}

/-- `len` and `next` are the loop's own. The rest is its history: the items at the start, those
called, those that moved behind its place before they were called, and those taken out by another
call than their own. -/
structure Loop (α : Type*) where
  len : ℕ
  next : ℕ := 0
  start : List α
  called : List α := []
  missed : List α := []
  removed : List α := []

namespace Loop

def ofItems (items : List α) : Loop α := { len := items.length, start := items }

/-- The item at the loop's place is called, if there is one. -/
def visit (l : Loop α) (items : List α) : Loop α :=
  { l with next := l.next + 1, called := l.called ++ items[l.next]?.toList }

/-- `x` is still to come. -/
def Ahead (l : Loop α) (items : List α) (x : α) : Prop := ∃ j, l.next ≤ j ∧ items[j]? = some x

structure Inv (items : List α) (l : Loop α) : Prop where
  nodup : l.called.Nodup
  ahead : ∀ x, l.Ahead items x → x ∉ l.called ∧ x ∉ l.missed
  within : ∀ j x, items[j]? = some x → x ∈ l.start → j < l.len
  missed : ∀ x ∈ l.missed, x ∈ l.start ∧ x ∉ l.called
  covered : ∀ x ∈ l.start, x ∈ l.called ∨ l.Ahead items x ∨ x ∈ l.missed ∨ x ∈ l.removed

/-- What holds of a loop that ended. -/
structure Done (l : Loop α) : Prop where
  nodup : l.called.Nodup
  missed : ∀ x ∈ l.missed, x ∈ l.start ∧ x ∉ l.called
  covered : ∀ x ∈ l.start, x ∈ l.called ∨ x ∈ l.missed ∨ x ∈ l.removed

variable {l : Loop α} {items : List α} {idx : ℕ} {x : α}

theorem Inv.ofItems (items : List α) : Inv items (Loop.ofItems items) where
  nodup := List.nodup_nil
  ahead x _ := ⟨List.not_mem_nil, List.not_mem_nil⟩
  within j x hx _ := (List.getElem?_eq_some_iff.mp hx).1
  missed x hx := absurd hx List.not_mem_nil
  covered x hx := by
    obtain ⟨j, hj⟩ := List.mem_iff_getElem?.mp hx
    exact .inr (.inl ⟨j, Nat.zero_le _, hj⟩)

theorem Inv.push (h : Inv items l) (hcalled : x ∉ l.called) (hstart : x ∉ l.start) :
    Inv (items ++ [x]) l where
  nodup := h.nodup
  ahead y hy := by
    obtain ⟨j, hj, hget⟩ := hy
    rw [List.getElem?_append] at hget
    split_ifs at hget with hlt
    · exact h.ahead y ⟨j, hj, hget⟩
    · obtain rfl : y = x := by simpa using List.mem_of_getElem? hget
      exact ⟨hcalled, fun hm => hstart (h.missed y hm).1⟩
  within j y hget hy := by
    rw [List.getElem?_append] at hget
    split_ifs at hget with hlt
    · exact h.within j y hget hy
    · obtain rfl : y = x := by simpa using List.mem_of_getElem? hget
      exact absurd hy hstart
  missed := h.missed
  covered y hy := by
    refine (h.covered y hy).imp_right (Or.imp_left ?_)
    rintro ⟨j, hj, hget⟩
    refine ⟨j, hj, ?_⟩
    rwa [List.getElem?_append_left (List.getElem?_eq_some_iff.mp hget).1]

theorem Inv.visit (h : Inv items l) (hitems : items.Nodup) : Inv items (l.visit items) := by
  have hcurrent : ∀ x ∈ items[l.next]?, x ∉ l.called ∧ x ∉ l.missed := fun x hx =>
    h.ahead x ⟨l.next, Nat.le_refl _, hx⟩
  refine ⟨?_, ?_, h.within, ?_, ?_⟩
  · refine List.nodup_append'.mpr ⟨h.nodup, ?_, ?_⟩
    · cases items[l.next]? <;> simp
    · intro x hx hx'
      exact (hcurrent x (by simpa using hx')).1 hx
  · rintro x ⟨j, hj, hget⟩
    have hj' : l.next + 1 ≤ j := hj
    obtain ⟨hcalled, hmissed⟩ := h.ahead x ⟨j, by omega, hget⟩
    refine ⟨fun hx => ?_, hmissed⟩
    rcases List.mem_append.mp hx with hx | hx
    · exact hcalled hx
    · have heq : items[l.next]? = items[j]? := by rw [hget]; simpa using hx
      have hlt : j < items.length := (List.getElem?_eq_some_iff.mp hget).1
      have := (List.getElem?_inj (by omega) hitems).mp heq
      omega
  · intro x hx
    refine ⟨(h.missed x hx).1, fun hx' => ?_⟩
    rcases List.mem_append.mp hx' with hx' | hx'
    · exact (h.missed x hx).2 hx'
    · exact (hcurrent x (by simpa using hx')).2 hx
  · intro x hx
    rcases h.covered x hx with hx | ⟨j, hj, hget⟩ | hx | hx
    · exact .inl (List.mem_append_left _ hx)
    · by_cases hnext : j = l.next
      · exact .inl (List.mem_append_right _ (by simp [← hnext, hget]))
      · refine .inr (.inl ⟨j, ?_, hget⟩)
        show l.next + 1 ≤ j
        omega
    · exact .inr (.inr (.inl hx))
    · exact .inr (.inr (.inr hx))

lemma ahead_of_eraseIdx {j : ℕ} (hj : l.next ≤ j) (h : (items.eraseIdx idx)[j]? = some x) :
    l.Ahead items x := by
  rw [List.getElem?_eraseIdx] at h
  split_ifs at h
  · exact ⟨j, hj, h⟩
  · exact ⟨j + 1, by omega, h⟩

/-- Taking an item out leaves the others ahead, but for the one at the loop's place. -/
lemma Ahead.eraseIdx (h : l.Ahead items x) (idx : ℕ) :
    l.Ahead (items.eraseIdx idx) x ∨ items[idx]? = some x ∨
      (idx < l.next ∧ items[l.next]? = some x) := by
  obtain ⟨j, hj, hget⟩ := h
  by_cases hidx : j = idx
  · exact .inr (.inl (hidx ▸ hget))
  by_cases hnext : idx < l.next ∧ j = l.next
  · exact .inr (.inr ⟨hnext.1, hnext.2 ▸ hget⟩)
  left
  by_cases hlt : j < idx
  · exact ⟨j, hj, by rw [List.getElem?_eraseIdx, if_pos hlt, hget]⟩
  · refine ⟨j - 1, by omega, ?_⟩
    rw [List.getElem?_eraseIdx, if_neg (by omega), Nat.sub_add_cancel (by omega), hget]

theorem Inv.done (h : Inv items l) (hend : l.len ≤ l.next) : Done l where
  nodup := h.nodup
  missed := h.missed
  covered x hx := by
    refine (h.covered x hx).imp_right fun hrest => hrest.resolve_left ?_
    rintro ⟨j, hj, hget⟩
    have := h.within j x hget hx
    omega

section Erase

variable [DecidableEq α]

/-- The item at `idx` is taken out. -/
def erase (l : Loop α) (items : List α) (idx : ℕ) (byOther : Bool) : Loop α :=
  { l with
    missed := l.missed ++ if idx < l.next then items[l.next]?.toList.filter (· ∈ l.start) else []
    removed := l.removed ++ if byOther then items[idx]?.toList else [] }

/-- The loop ends where it is. -/
def abort (l : Loop α) (items : List α) : Loop α :=
  { l with missed := l.missed ++ (items.drop l.next).filter (· ∈ l.start) }

/-- The loop called everything that was there at the start and was not taken out by another call,
once. -/
def Reaches (l : Loop α) : Prop := ∀ x ∈ l.start, x ∉ l.removed → l.called.count x = 1

lemma mem_erase_missed {byOther : Bool} : x ∈ (l.erase items idx byOther).missed ↔
    x ∈ l.missed ∨ (idx < l.next ∧ items[l.next]? = some x ∧ x ∈ l.start) := by
  by_cases h : idx < l.next
  · simp [erase, h]
  · simp [erase, h]

/-- An item is taken out by another call, or by its own, which has begun. -/
theorem Inv.erase (h : Inv items l) (hitems : items.Nodup) {byOther : Bool}
    (hown : byOther = false → ∀ x ∈ items[idx]?, x ∈ l.called) :
    Inv (items.eraseIdx idx) (l.erase items idx byOther) where
  nodup := h.nodup
  ahead x hx := by
    obtain ⟨j, hj, hget⟩ := hx
    obtain ⟨hcalled, hmissed⟩ := h.ahead x (ahead_of_eraseIdx hj hget)
    refine ⟨hcalled, fun hx => ?_⟩
    rcases mem_erase_missed.mp hx with hx | ⟨hidx, hnext, -⟩
    · exact hmissed hx
    · -- what is ahead now stood behind the item that was missed
      have hj' : l.next ≤ j := hj
      rw [List.getElem?_eraseIdx, if_neg (by omega)] at hget
      have hlt : l.next < items.length := (List.getElem?_eq_some_iff.mp hnext).1
      have := (List.getElem?_inj hlt hitems).mp (hnext.trans hget.symm)
      omega
  within j x hget hx := by
    rw [List.getElem?_eraseIdx] at hget
    split_ifs at hget
    · exact h.within j x hget hx
    · exact Nat.lt_of_succ_lt (h.within (j + 1) x hget hx)
  missed x hx := by
    rcases mem_erase_missed.mp hx with hx | ⟨hidx, hnext, hstart⟩
    · exact h.missed x hx
    · exact ⟨hstart, (h.ahead x ⟨l.next, Nat.le_refl _, hnext⟩).1⟩
  covered x hx := by
    rcases h.covered x hx with hcalled | hahead | hmissed | hremoved
    · exact .inl hcalled
    · rcases hahead.eraseIdx idx with hkept | hout | hnext
      · exact .inr (.inl hkept)
      · cases byOther with
        | false => exact absurd (hown rfl x hout) (h.ahead x hahead).1
        | true => exact .inr (.inr (.inr (List.mem_append_right _ (by simp [hout]))))
      · exact .inr (.inr (.inl (mem_erase_missed.mpr (.inr ⟨hnext.1, hnext.2, hx⟩))))
    · exact .inr (.inr (.inl (mem_erase_missed.mpr (.inl hmissed))))
    · exact .inr (.inr (.inr (List.mem_append_left _ hremoved)))

theorem Inv.abort (h : Inv items l) : Done (l.abort items) where
  nodup := h.nodup
  missed x hx := by
    rcases List.mem_append.mp hx with hx | hx
    · exact h.missed x hx
    · rw [List.mem_filter, decide_eq_true_eq] at hx
      obtain ⟨j, hj⟩ := List.mem_iff_getElem?.mp hx.1
      rw [List.getElem?_drop] at hj
      exact ⟨hx.2, (h.ahead x ⟨l.next + j, by omega, hj⟩).1⟩
  covered x hx := by
    rcases h.covered x hx with hcalled | ⟨j, hj, hget⟩ | hmissed | hremoved
    · exact .inl hcalled
    · refine .inr (.inl (List.mem_append_right _ ?_))
      rw [List.mem_filter, decide_eq_true_eq]
      refine ⟨List.mem_of_getElem? (i := j - l.next) ?_, hx⟩
      rw [List.getElem?_drop, Nat.add_sub_cancel' hj, hget]
    · exact .inr (.inl (List.mem_append_left _ hmissed))
    · exact .inr (.inr hremoved)

/-- The loop reached everything exactly if what it missed was taken out by another call. -/
theorem Done.reaches_iff (h : Done l) : l.Reaches ↔ ∀ x ∈ l.missed, x ∈ l.removed := by
  constructor
  · intro hreaches x hx
    by_contra hremoved
    obtain ⟨hstart, hcalled⟩ := h.missed x hx
    have hone := hreaches x hstart hremoved
    rw [List.count_eq_zero.mpr hcalled] at hone
    cases hone
  · intro hmissed x hx hremoved
    rcases h.covered x hx with hcalled | hm | hr
    · exact List.count_eq_one_of_mem h.nodup hcalled
    · exact absurd (hmissed x hm) hremoved
    · exact absurd hr hremoved

end Erase

end Loop

end ForEach
