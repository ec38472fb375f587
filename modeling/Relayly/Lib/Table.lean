import Mathlib.Data.List.Nodup
import Mathlib.Tactic.Common

/-!
# Tables with unique columns

A table is a list of rows, and its unique columns are functions of a row. `INSERT` refuses a row
that agrees with another in one of them, an `UPDATE` here sets none of them, so at most one row has a
given value there and a table can be read as a function of any unique column (`find`).
-/

namespace Sql

variable {ρ κ : Type*}

/-- Rows, no two of which agree in a column of `keys`. -/
structure Table (keys : List (ρ → κ)) where
  rows : List ρ
  unique : ∀ key ∈ keys, (rows.map key).Nodup

namespace Table

variable {keys : List (ρ → κ)}

@[ext] theorem ext {t t' : Table keys} (h : t.rows = t'.rows) : t = t' := by
  cases t
  cases t'
  simpa using h

def empty : Table keys := ⟨[], fun _ _ => List.nodup_nil⟩

instance [DecidableEq ρ] : DecidableEq (Table keys) := fun _ _ => decidable_of_iff _ Table.ext_iff.symm

/-- `UPDATE … SET f WHERE p`, which sets no unique column. -/
def update (t : Table keys) (p : ρ → Bool) (f : ρ → ρ) (hf : ∀ key ∈ keys, ∀ r, key (f r) = key r) :
    Table keys where
  rows := t.rows.map fun r => if p r then f r else r
  unique key hkey := by
    have hsame : (key ∘ fun r => if p r then f r else r) = key := by
      funext r
      simp only [Function.comp_apply]
      split_ifs
      · exact hf key hkey r
      · rfl
    rw [List.map_map, hsame]
    exact t.unique key hkey

/-- `DELETE … WHERE p`. -/
def delete (t : Table keys) (p : ρ → Bool) : Table keys where
  rows := t.rows.filter (!p ·)
  unique key hkey := (t.unique key hkey).sublist (List.filter_sublist.map key)

variable [DecidableEq κ]

/-- `INSERT`, or `none` where a unique column refuses the row. -/
def insert (t : Table keys) (r : ρ) : Option (Table keys) :=
  if h : ∀ key ∈ keys, key r ∉ t.rows.map key then
    some ⟨t.rows ++ [r], fun key hkey => by
      rw [List.map_append]
      exact List.Nodup.append (t.unique key hkey) (List.nodup_singleton _) (by simpa using h key hkey)⟩
  else none

/-- `SELECT … WHERE key = x`. -/
def find (t : Table keys) (key : ρ → κ) (x : κ) : Option ρ := t.rows.find? fun r => key r = x

variable {t t' : Table keys} {key : ρ → κ} {x : κ} {r : ρ}

theorem find_eq_some (hkey : key ∈ keys) : t.find key x = some r ↔ r ∈ t.rows ∧ key r = x := by
  constructor
  · intro h
    exact ⟨List.mem_of_find?_eq_some h, by simpa using List.find?_some h⟩
  · rintro ⟨hr, rfl⟩
    rcases hfind : t.find key (key r) with _ | r'
    · have := List.find?_eq_none.1 hfind r hr
      simp at this
    · have hr' := List.mem_of_find?_eq_some hfind
      have hx : key r' = key r := by simpa using List.find?_some hfind
      rw [List.inj_on_of_nodup_map (t.unique key hkey) hr' hr hx]

theorem find_update {p : ρ → Bool} {f : ρ → ρ} {hf : ∀ key ∈ keys, ∀ r, key (f r) = key r}
    (hkey : key ∈ keys) :
    (t.update p f hf).find key x = (t.find key x).map fun r => if p r then f r else r := by
  have hsame : ((fun r => decide (key r = x)) ∘ fun r => if p r then f r else r)
      = fun r => decide (key r = x) := by
    funext r
    simp only [Function.comp_apply]
    split_ifs
    · rw [hf key hkey r]
    · rfl
  unfold find update
  rw [List.find?_map, hsame]

theorem find_delete {p : ρ → Bool} (hkey : key ∈ keys) :
    (t.delete p).find key x = (t.find key x).filter (!p ·) := by
  ext r
  rw [find_eq_some hkey, Option.filter_eq_some_iff, find_eq_some hkey]
  simp only [delete, List.mem_filter]
  tauto

theorem find_of_insert (hkey : key ∈ keys) (h : t.insert r = some t') : t.find key (key r) = none := by
  unfold insert at h
  split_ifs at h with hfresh
  refine List.find?_eq_none.2 fun r' hr' => ?_
  simpa using fun heq : key r' = key r => hfresh key hkey (heq ▸ List.mem_map_of_mem hr')

theorem find_insert (hkey : key ∈ keys) (h : t.insert r = some t') :
    t'.find key x = if key r = x then some r else t.find key x := by
  have hrows : t'.rows = t.rows ++ [r] := by
    unfold insert at h
    split_ifs at h
    cases h
    rfl
  unfold find
  rw [hrows, List.find?_append]
  split_ifs with hx
  · rw [← hx, show t.rows.find? (fun r' => key r' = key r) = none from find_of_insert hkey h]
    simp
  · simp [hx]

end Table

end Sql
