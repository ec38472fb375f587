import Mathlib.Data.String.Basic
import Mathlib.Data.List.Pairwise

/-!
# JSON documents

A document as a tree. What a number is depends on the reader, so it is left open. The members of an
object are a list: a text may give a key more than once, and a map of keys is a list in the order
of its keys.
-/

inductive Json (ν : Type) where
  | null
  | bool (b : Bool)
  | num (n : ν)
  | str (s : String)
  | arr (elems : List (Json ν))
  | obj (members : List (String × Json ν))

namespace Json

variable {ν : Type}

mutual

/-- How deep arrays and objects are nested. -/
def depth : Json ν → ℕ
  | .arr elems => depthElems elems + 1
  | .obj members => depthMembers members + 1
  | _ => 0

def depthElems : List (Json ν) → ℕ
  | [] => 0
  | e :: rest => max (depth e) (depthElems rest)

def depthMembers : List (String × Json ν) → ℕ
  | [] => 0
  | (_, v) :: rest => max (depth v) (depthMembers rest)

end

mutual

/-- The document with its numbers read in another way. -/
def map {μ : Type} (f : ν → μ) : Json ν → Json μ
  | .null => .null
  | .bool b => .bool b
  | .num n => .num (f n)
  | .str s => .str s
  | .arr elems => .arr (mapElems f elems)
  | .obj members => .obj (mapMembers f members)

def mapElems {μ : Type} (f : ν → μ) : List (Json ν) → List (Json μ)
  | [] => []
  | e :: rest => map f e :: mapElems f rest

def mapMembers {μ : Type} (f : ν → μ) : List (String × Json ν) → List (String × Json μ)
  | [] => []
  | (k, v) :: rest => (k, map f v) :: mapMembers f rest

end

/-- A map of keys, changed or extended at `key`. -/
def assign (key : String) (v : Json ν) : List (String × Json ν) → List (String × Json ν)
  | [] => [(key, v)]
  | (k, w) :: rest =>
    if key < k then (key, v) :: (k, w) :: rest
    else if key = k then (key, v) :: rest
    else (k, w) :: assign key v rest

/-- A field is entered if it has a value. -/
def assignField (members : List (String × Json ν)) (field : String × Option (Json ν)) :
    List (String × Json ν) :=
  field.2.elim members fun v => assign field.1 v members

/-- The map of some fields, entered one after the other. -/
def assignAll (fields : List (String × Option (Json ν))) : List (String × Json ν) :=
  fields.foldl assignField []

mutual

/-- The document with every object as a map. -/
def toMaps : Json ν → Json ν
  | .arr elems => .arr (toMapsElems elems)
  | .obj members => .obj (assignAll (toMapsMembers members))
  | j => j

def toMapsElems : List (Json ν) → List (Json ν)
  | [] => []
  | e :: rest => toMaps e :: toMapsElems rest

def toMapsMembers : List (String × Json ν) → List (String × Option (Json ν))
  | [] => []
  | (k, v) :: rest => (k, some (toMaps v)) :: toMapsMembers rest

end

/-- The members of some fields, written one after the other. -/
def members (fields : List (String × Option (Json ν))) : List (String × Json ν) :=
  fields.filterMap fun field => field.2.map (field.1, ·)

section assign
variable {key k : String} {v : Json ν}

theorem lookup_cons_of_ne (h : k ≠ key) (members : List (String × Json ν)) :
    ((key, v) :: members).lookup k = members.lookup k := by
  rw [List.lookup_cons, beq_false_of_ne h]

theorem lookup_assign_self (key : String) (v : Json ν) :
    ∀ members : List (String × Json ν), (assign key v members).lookup key = some v
  | [] => by simp [assign]
  | (k, w) :: rest => by
    unfold assign
    split_ifs with hlt heq
    · simp
    · simp
    · rw [lookup_cons_of_ne heq]
      exact lookup_assign_self key v rest

theorem lookup_assign_of_ne (h : k ≠ key) :
    ∀ members : List (String × Json ν), (assign key v members).lookup k = members.lookup k
  | [] => lookup_cons_of_ne h []
  | (k', w) :: rest => by
    have ih := lookup_assign_of_ne h rest
    unfold assign
    split_ifs with hlt heq
    · rw [lookup_cons_of_ne h]
    · subst heq
      rw [lookup_cons_of_ne h, lookup_cons_of_ne h]
    · rw [List.lookup_cons, List.lookup_cons, ih]

theorem mem_assign {members : List (String × Json ν)} {m : String × Json ν}
    (hm : m ∈ assign key v members) : m = (key, v) ∨ m ∈ members := by
  induction members with
  | nil => simpa [assign] using hm
  | cons m' rest ih =>
    obtain ⟨k', w⟩ := m'
    unfold assign at hm
    split_ifs at hm with hlt heq
    · simpa using hm
    · rcases List.mem_cons.mp hm with rfl | hrest
      · exact .inl rfl
      · exact .inr (List.mem_cons_of_mem _ hrest)
    · rcases List.mem_cons.mp hm with rfl | hrest
      · exact .inr List.mem_cons_self
      · exact (ih hrest).imp_right (List.mem_cons_of_mem _)

theorem pairwise_assign {members : List (String × Json ν)}
    (h : members.Pairwise fun a b => a.1 < b.1) :
    (assign key v members).Pairwise fun a b => a.1 < b.1 := by
  induction members with
  | nil => simp [assign]
  | cons m' rest ih =>
    obtain ⟨k', w⟩ := m'
    obtain ⟨hhead, hrest⟩ := List.pairwise_cons.mp h
    unfold assign
    split_ifs with hlt heq
    · refine List.pairwise_cons.mpr ⟨fun m hm => ?_, h⟩
      rcases List.mem_cons.mp hm with rfl | hm
      · exact hlt
      · exact hlt.trans (hhead m hm)
    · subst heq
      exact List.pairwise_cons.mpr ⟨hhead, hrest⟩
    · refine List.pairwise_cons.mpr ⟨fun m hm => ?_, ih hrest⟩
      rcases mem_assign hm with rfl | hm
      · exact lt_of_le_of_ne (not_lt.mp hlt) fun h => heq h.symm
      · exact hhead m hm

end assign

section assignAll

theorem lookup_assignField_self {members : List (String × Json ν)} {k : String}
    (h : members.lookup k = none) (v : Option (Json ν)) :
    (assignField members (k, v)).lookup k = v := by
  cases v with
  | none => exact h
  | some v => exact lookup_assign_self k v members

theorem lookup_assignField_of_ne {k key : String} (h : k ≠ key) (members : List (String × Json ν))
    (v : Option (Json ν)) : (assignField members (key, v)).lookup k = members.lookup k := by
  cases v with
  | none => rfl
  | some v => exact lookup_assign_of_ne h members

theorem lookup_foldl_of_notMem {k : String} : ∀ (fields : List (String × Option (Json ν)))
    (members : List (String × Json ν)), k ∉ fields.map (·.1) →
      (fields.foldl assignField members).lookup k = members.lookup k
  | [], _, _ => rfl
  | (key, v) :: rest, members, h => by
    simp only [List.map_cons, List.mem_cons, not_or] at h
    rw [List.foldl_cons, lookup_foldl_of_notMem rest _ h.2, lookup_assignField_of_ne h.1]

theorem lookup_foldl_of_mem {k : String} {v : Option (Json ν)} :
    ∀ (fields : List (String × Option (Json ν))) {members : List (String × Json ν)},
      (fields.map (·.1)).Nodup → (k, v) ∈ fields → members.lookup k = none →
      (fields.foldl assignField members).lookup k = v
  | (key, w) :: rest, members, hnodup, hmem, hnone => by
    obtain ⟨hkey, hrest⟩ := List.nodup_cons.mp hnodup
    rw [List.foldl_cons]
    rcases List.mem_cons.mp hmem with heq | htail
    · cases heq
      rw [lookup_foldl_of_notMem rest _ hkey, lookup_assignField_self hnone]
    · have hne : k ≠ key := fun heq => hkey (List.mem_map.mpr ⟨(k, v), htail, heq⟩)
      exact lookup_foldl_of_mem rest hrest htail
        ((lookup_assignField_of_ne hne members w).trans hnone)

/-- What is in the map has been there, or is the value of a field. -/
theorem mem_foldl_assignField : ∀ (fields : List (String × Option (Json ν)))
    {members : List (String × Json ν)} {m : String × Json ν},
      m ∈ fields.foldl assignField members → m ∈ members ∨ (m.1, some m.2) ∈ fields
  | [], _, _, hm => .inl hm
  | (key, value) :: rest, members, m, hm => by
    rcases mem_foldl_assignField rest hm with hmem | hrest
    · cases value with
      | none => exact .inl hmem
      | some v =>
        rcases mem_assign hmem with rfl | hmem
        · exact .inr List.mem_cons_self
        · exact .inl hmem
    · exact .inr (List.mem_cons_of_mem _ hrest)

theorem mem_assignAll {fields : List (String × Option (Json ν))} {m : String × Json ν}
    (hm : m ∈ assignAll fields) : (m.1, some m.2) ∈ fields :=
  (mem_foldl_assignField fields hm).resolve_left List.not_mem_nil

theorem lookup_assignAll_of_notMem {fields : List (String × Option (Json ν))} {k : String}
    (h : k ∉ fields.map (·.1)) : (assignAll fields).lookup k = none :=
  lookup_foldl_of_notMem fields [] h

/-- A field of its own key is found again. -/
theorem lookup_assignAll {fields : List (String × Option (Json ν))} {k : String}
    {v : Option (Json ν)} (hnodup : (fields.map (·.1)).Nodup) (h : (k, v) ∈ fields) :
    (assignAll fields).lookup k = v :=
  lookup_foldl_of_mem fields hnodup h rfl

theorem pairwise_foldl_assign : ∀ (fields : List (String × Option (Json ν)))
    {members : List (String × Json ν)}, (members.Pairwise fun a b => a.1 < b.1) →
      (fields.foldl assignField members).Pairwise fun a b => a.1 < b.1
  | [], _, h => h
  | (key, value) :: rest, members, h => by
    refine pairwise_foldl_assign rest ?_
    cases value with
    | none => exact h
    | some v => exact pairwise_assign h

/-- The keys of a map are there once. -/
theorem nodup_keys_assignAll (fields : List (String × Option (Json ν))) :
    ((assignAll fields).map (·.1)).Nodup :=
  List.pairwise_map.2 ((pairwise_foldl_assign fields .nil).imp fun h => ne_of_lt h)

end assignAll

theorem depthElems_le {n : ℕ} {elems : List (Json ν)} (h : ∀ e ∈ elems, e.depth ≤ n) :
    depthElems elems ≤ n := by
  induction elems with
  | nil => exact Nat.zero_le n
  | cons e rest ih =>
    rw [List.forall_mem_cons] at h
    exact max_le h.1 (ih h.2)

theorem depthMembers_le {n : ℕ} {members : List (String × Json ν)} (h : ∀ m ∈ members, m.2.depth ≤ n) :
    depthMembers members ≤ n := by
  induction members with
  | nil => exact Nat.zero_le n
  | cons m rest ih =>
    rw [List.forall_mem_cons] at h
    exact max_le h.1 (ih h.2)

section members

variable {μ : Type} {fields : List (String × Option (Json ν))} {k : String}

theorem mapElems_eq (f : ν → μ) (elems : List (Json ν)) : mapElems f elems = elems.map (map f) := by
  induction elems with
  | nil => rfl
  | cons e rest ih => rw [mapElems, ih, List.map_cons]

theorem mapMembers_eq (f : ν → μ) (members : List (String × Json ν)) :
    mapMembers f members = members.map fun m => (m.1, m.2.map f) := by
  induction members with
  | nil => rfl
  | cons m rest ih => rw [mapMembers, ih, List.map_cons]

theorem toMapsElems_eq (elems : List (Json ν)) : toMapsElems elems = elems.map toMaps := by
  induction elems with
  | nil => rfl
  | cons e rest ih => rw [toMapsElems, ih, List.map_cons]

theorem toMapsMembers_eq (members : List (String × Json ν)) :
    toMapsMembers members = members.map fun m => (m.1, some m.2.toMaps) := by
  induction members with
  | nil => rfl
  | cons m rest ih => rw [toMapsMembers, ih, List.map_cons]

theorem lookup_map_snd {β γ : Type*} (g : β → γ) (l : List (String × β)) (k : String) :
    (l.map fun m => (m.1, g m.2)).lookup k = (l.lookup k).map g := by
  induction l with
  | nil => rfl
  | cons m rest ih =>
    obtain ⟨key, v⟩ := m
    rw [List.map_cons, List.lookup_cons, List.lookup_cons, ih]
    cases k == key <;> rfl

theorem members_cons_some (key : String) (v : Json ν) (rest : List (String × Option (Json ν))) :
    members ((key, some v) :: rest) = (key, v) :: members rest := rfl

theorem members_cons_none (key : String) (rest : List (String × Option (Json ν))) :
    members ((key, none) :: rest) = members rest := rfl

theorem keys_members_sublist (fields : List (String × Option (Json ν))) :
    ((members fields).map (·.1)).Sublist (fields.map (·.1)) := by
  induction fields with
  | nil => exact .slnil
  | cons field rest ih =>
    obtain ⟨key, value⟩ := field
    cases value with
    | none => exact ih.cons _
    | some v => exact ih.cons_cons _

theorem lookup_eq_none_of_notMem {β : Type*} {l : List (String × β)} (h : k ∉ l.map (·.1)) :
    l.lookup k = none := by
  rw [List.lookup_eq_none_iff]
  intro m hm
  simp only [ne_eq, bne_iff_ne]
  rintro rfl
  exact h (List.mem_map_of_mem hm)

/-- A field of its own key is found among the members. -/
theorem lookup_members {v : Option (Json ν)} (hnodup : (fields.map (·.1)).Nodup)
    (h : (k, v) ∈ fields) : (members fields).lookup k = v := by
  induction fields with
  | nil => cases h
  | cons field rest ih =>
    obtain ⟨hkey, hrest⟩ := List.nodup_cons.mp hnodup
    rcases List.mem_cons.mp h with rfl | hmem
    · cases v with
      | none =>
        rw [members_cons_none]
        exact lookup_eq_none_of_notMem fun hmem => hkey ((keys_members_sublist rest).subset hmem)
      | some v => rw [members_cons_some, List.lookup_cons_self]
    · obtain ⟨key, value⟩ := field
      have hne : k ≠ key := fun heq => hkey (List.mem_map.mpr ⟨(k, v), hmem, heq⟩)
      cases value with
      | none => exact ih hrest hmem
      | some w => rw [members_cons_some, lookup_cons_of_ne hne, ih hrest hmem]

theorem mem_of_lookup_eq {β : Type*} {l : List (String × β)} {b : β} (h : l.lookup k = some b) :
    (k, b) ∈ l := by
  obtain ⟨l₁, l₂, rfl, -⟩ := List.lookup_eq_some_iff.mp h
  exact List.mem_append_right _ (List.mem_cons_self ..)

/-- What a map that was made of members has for a key, if none of them is there twice. -/
theorem lookup_toMaps {l : List (String × Json ν)} (hnodup : (l.map (·.1)).Nodup) (k : String) :
    (assignAll (toMapsMembers l)).lookup k = (l.lookup k).map toMaps := by
  have hkeys : (toMapsMembers l).map (·.1) = l.map (·.1) := by
    rw [toMapsMembers_eq, List.map_map]
    rfl
  rcases hl : l.lookup k with _ | v
  · refine lookup_assignAll_of_notMem fun hmem => ?_
    rw [hkeys] at hmem
    obtain ⟨m, hm, rfl⟩ := List.mem_map.mp hmem
    have := (List.lookup_eq_none_iff.mp hl) m hm
    simp at this
  · refine lookup_assignAll (hkeys ▸ hnodup) ?_
    rw [toMapsMembers_eq]
    exact List.mem_map.mpr ⟨(k, v), mem_of_lookup_eq hl, rfl⟩

end members

end Json
