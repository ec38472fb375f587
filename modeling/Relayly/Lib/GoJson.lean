import Mathlib.Data.Int.Notation
import Relayly.Lib.Json

/-!
# Decoding with Go's `encoding/json`

How `json.Unmarshal` decodes a document into a struct. The field of a key is the one of that name,
or else the one whose name it is up to case; a key without a field is skipped. A value that does not
fit its field is an error, `null` leaves the field as it is, and of several members for one field
the last one counts.
-/

namespace GoJson

/-- A number as it is written: an integer, or one with a fraction or an exponent. -/
inductive NumberText
  | integer (n : ℤ)
  | decimal (mantissa exponent : ℤ)
  deriving DecidableEq, Repr

abbrev Document := Json NumberText

/-- Documents that are nested deeper are not accepted. -/
def maxNestingDepth : ℕ := 10000

/-- The characters besides the small letters of ASCII that fold to a letter of ASCII are the long s
and the Kelvin sign. -/
def foldRune (c : Char) : Char :=
  if c.isLower then c.toUpper
  else if c = '\u017f' then 'S'
  else if c = '\u212a' then 'K'
  else c

def foldName (name : String) : List Char := name.toList.map foldRune

/-- The field of a key, among fields of the given names. -/
def fieldFor (names : List String) (key : String) : Option String :=
  if key ∈ names then some key else names.find? fun name => foldName name = foldName key

/-- A value for a field of type `string`. -/
def fitsString : Document → Bool
  | .null | .str _ => true
  | _ => false

def minInt : ℤ := -9223372036854775808
def maxInt : ℤ := 9223372036854775807

/-- A value for a field of type `int`, which has 64 bits. -/
def fitsInt : Document → Bool
  | .null => true
  | .num (.integer n) => decide (minInt ≤ n ∧ n ≤ maxInt)
  | _ => false

/-- A value for a field of type `*bool`. -/
def fitsBool : Document → Bool
  | .null | .bool _ => true
  | _ => false

/-- A value for a slice whose elements are decoded as `fits` says. -/
def fitsSlice (fits : Document → Bool) : Document → Bool
  | .null => true
  | .arr elems => elems.all fits
  | _ => false

/-- A value for a struct whose fields, all of type `string`, have the given names. -/
def fitsStrings (names : List String) : Document → Bool
  | .null => true
  | .obj members => members.all fun m => (fieldFor names m.1).isNone || fitsString m.2
  | _ => false

/-- The string that a member gives to the field `name`. -/
def stringOf (names : List String) (name : String) (m : String × Document) : Option String :=
  match m.2 with
  | .str s => if fieldFor names m.1 = some name then some s else none
  | _ => none

/-- What the members leave in a field of type `string`, which was empty. -/
def stringField (names : List String) (name : String) (members : List (String × Document)) :
    String :=
  ((members.filterMap (stringOf names name)).getLast?).getD ""

theorem fieldFor_of_mem {names : List String} {key : String} (h : key ∈ names) :
    fieldFor names key = some key := if_pos h

/-- Where each key is the name of a field and none is there twice, a field gets what is under its
name. -/
theorem stringField_eq {names : List String} (name : String) {members : List (String × Document)}
    (hkeys : ∀ m ∈ members, m.1 ∈ names) (hnodup : (members.map (·.1)).Nodup) {o : Option String}
    (h : members.lookup name = o.map .str) : stringField names name members = o.getD "" := by
  have hone : members.filterMap (stringOf names name) = o.toList := by
    induction members with
    | nil =>
      cases o with
      | none => rfl
      | some s => cases h
    | cons m rest ih =>
      obtain ⟨key, v⟩ := m
      obtain ⟨hkey, hrest⟩ := List.nodup_cons.mp hnodup
      rw [List.forall_mem_cons] at hkeys
      by_cases heq : name = key
      · subst heq
        -- the rest has nothing for this field
        have hnone : rest.lookup name = none := Json.lookup_eq_none_of_notMem hkey
        have hzero : rest.filterMap (stringOf names name) = [] :=
          List.filterMap_eq_nil_iff.mpr fun m hm => by
            have hne : m.1 ≠ name := fun h => hkey (List.mem_map.mpr ⟨m, hm, h⟩)
            unfold stringOf
            rw [fieldFor_of_mem (hkeys.2 m hm)]
            split
            · simp [hne]
            · rfl
        rw [List.lookup_cons_self] at h
        cases o with
        | none => cases h
        | some s =>
          cases h
          rw [List.filterMap_cons, hzero]
          simp [stringOf, fieldFor_of_mem hkeys.1]
      · rw [Json.lookup_cons_of_ne heq] at h
        have hskip : stringOf names name (key, v) = none := by
          unfold stringOf
          rw [fieldFor_of_mem hkeys.1]
          split
          · simp [Ne.symm heq]
          · rfl
        rw [List.filterMap_cons, hskip]
        exact ih hkeys.2 hrest h
  rw [stringField, hone]
  cases o <;> rfl

end GoJson
