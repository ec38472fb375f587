import Mathlib.Data.List.TakeWhile

/-!
# Queries of URIs

The generic syntax: the fragment starts at the first `#`, the query at the first `?` before it. A
query is a list of parameters separated by `&`, the name of a parameter ends at its first `=`, and
names and values are percent-decoded.
-/

namespace Uri

/-- The octets of a text in ASCII. -/
def ascii (s : String) : List UInt8 := s.toList.map fun c => UInt8.ofNat c.toNat

/-- The characters with a meaning of their own. -/
def hashMark : UInt8 := 0x23
def percent : UInt8 := 0x25
def ampersand : UInt8 := 0x26
def equals : UInt8 := 0x3D
def question : UInt8 := 0x3F

def hexValue (c : UInt8) : Option UInt8 :=
  if 0x30 ≤ c ∧ c ≤ 0x39 then some (c - 0x30)
  else if 0x41 ≤ c ∧ c ≤ 0x46 then some (c - 0x37)
  else if 0x61 ≤ c ∧ c ≤ 0x66 then some (c - 0x57)
  else none

/-- A `%` stands before two hexadecimal digits, and nowhere else. -/
def percentDecode : List UInt8 → Option (List UInt8)
  | [] => some []
  | c :: rest =>
    if c = percent then
      match rest with
      | hi :: lo :: tail => do
        let h ← hexValue hi
        let l ← hexValue lo
        let decoded ← percentDecode tail
        return (h * 16 + l) :: decoded
      | _ => none
    else (percentDecode rest).map (c :: ·)

/-- The part before the fragment. -/
def beforeFragment (uri : List UInt8) : List UInt8 := uri.takeWhile (· != hashMark)

def query (uri : List UInt8) : Option (List UInt8) :=
  match (beforeFragment uri).dropWhile (· != question) with
  | [] => none
  | _ :: q => some q

def parameterName (p : List UInt8) : List UInt8 := p.takeWhile (· != equals)

def parameterValue (p : List UInt8) : List UInt8 := (p.dropWhile (· != equals)).drop 1

/-- The decoded values a query gives to `name`, in order; `none` is a value that cannot be
decoded. -/
def queryValues (name q : List UInt8) : List (Option (List UInt8)) :=
  ((q.splitOn ampersand).filter fun p => percentDecode (parameterName p) == some name).map
    fun p => percentDecode (parameterValue p)

def values (name uri : List UInt8) : List (Option (List UInt8)) :=
  match query uri with
  | none => []
  | some q => queryValues name q

section decode
variable (rest : List UInt8)

@[simp] lemma percentDecode_nil : percentDecode [] = some [] := rfl

lemma percentDecode_cons {c : UInt8} (h : c ≠ percent) :
    percentDecode (c :: rest) = (percentDecode rest).map (c :: ·) := by
  rw [percentDecode.eq_def]
  simp [h]

lemma percentDecode_escape (hi lo : UInt8) :
    percentDecode (percent :: hi :: lo :: rest) =
      (hexValue hi).bind fun h => (hexValue lo).bind fun l =>
        (percentDecode rest).map ((h * 16 + l) :: ·) := by
  rw [percentDecode.eq_def]
  simp only [if_true]
  rcases hexValue hi with - | h
  · rfl
  rcases hexValue lo with - | l
  · rfl
  cases percentDecode rest <;> rfl

lemma percentDecode_truncated (hi : UInt8) : percentDecode [percent, hi] = none := by
  rw [percentDecode.eq_def]
  simp

end decode

section query
variable {uri : List UInt8}

lemma bne_of_notMem {c : UInt8} {l : List UInt8} (h : c ∉ l) : ∀ x ∈ l, (x != c) = true := by
  intro x hx
  have : x ≠ c := fun heq => h (heq ▸ hx)
  simpa using this

/-- A scheme and an authority say nothing about the query. -/
lemma values_append_left {p : List UInt8} (h : hashMark ∉ p) (hq : question ∉ p)
    (name : List UInt8) : values name (p ++ uri) = values name uri := by
  have hquery : query (p ++ uri) = query uri := by
    rw [query, beforeFragment, List.takeWhile_append_of_pos (bne_of_notMem h),
      List.dropWhile_append_of_pos (bne_of_notMem hq), query, beforeFragment]
  rw [values, values, hquery]

/-- What stands behind a fragment is part of it. -/
lemma values_append_of_hash (h : hashMark ∈ uri) (name s : List UInt8) :
    values name (uri ++ s) = values name uri := by
  have hlen : (uri.takeWhile (· != hashMark)).length ≠ uri.length := by
    intro heq
    have hself := (List.takeWhile_prefix (· != hashMark)).eq_of_length heq
    have := List.takeWhile_eq_self_iff.mp hself hashMark h
    simp at this
  have hpre : beforeFragment (uri ++ s) = beforeFragment uri := by
    rw [beforeFragment, List.takeWhile_append, if_neg hlen, beforeFragment]
  rw [values, values, query, query, hpre]

lemma beforeFragment_of_notMem (h : hashMark ∉ uri) : beforeFragment uri = uri :=
  List.takeWhile_eq_self_iff.mpr (bne_of_notMem h)

lemma query_of_notMem (h : hashMark ∉ uri) (hq : question ∉ uri) : query uri = none := by
  rw [query, beforeFragment_of_notMem h, List.dropWhile_eq_nil_iff.mpr (bne_of_notMem hq)]

lemma query_append {q : List UInt8} (h : hashMark ∉ uri ++ question :: q) (hq : question ∉ uri) :
    query (uri ++ question :: q) = some q := by
  rw [query, beforeFragment_of_notMem h, List.dropWhile_append_of_pos (bne_of_notMem hq)]
  simp

lemma queryValues_append (name q s : List UInt8) :
    queryValues name (q ++ ampersand :: s) = queryValues name q ++ queryValues name s := by
  rw [queryValues, List.splitOn_append_cons_self, List.filter_append, List.map_append,
    queryValues, queryValues]

/-- Parameters are added behind a `?`, or behind a `&` where there is a query already. -/
lemma values_append {s : List UInt8} (h : hashMark ∉ uri) (hs : hashMark ∉ s) (name : List UInt8) :
    values name (uri ++ (if question ∈ uri then ampersand else question) :: s) =
      values name uri ++ queryValues name s := by
  by_cases hq : question ∈ uri
  · obtain ⟨path, q, rfl, hpath⟩ := List.eq_append_cons_of_mem hq
    have hlong : hashMark ∉ path ++ question :: (q ++ ampersand :: s) := by
      simp only [List.mem_append, List.mem_cons, not_or] at h ⊢
      exact ⟨h.1, h.2.1, h.2.2, by decide, hs⟩
    rw [if_pos hq, List.append_assoc, List.cons_append, values, query_append hlong hpath,
      values, query_append h hpath]
    exact queryValues_append name q s
  · have hlong : hashMark ∉ uri ++ question :: s := by
      simp only [List.mem_append, List.mem_cons, not_or]
      exact ⟨h, by decide, hs⟩
    rw [if_neg hq, values, query_append hlong hq, values, query_of_notMem h hq]
    rfl

/-- One parameter. -/
lemma queryValues_single {n v : List UInt8} (hn : equals ∉ n) (hamp : ampersand ∉ n)
    (hv : ampersand ∉ v) (name : List UInt8) :
    queryValues name (n ++ equals :: v) =
      if percentDecode n = some name then [percentDecode v] else [] := by
  have hsplit : (n ++ equals :: v).splitOn ampersand = [n ++ equals :: v] := by
    have hnot : ampersand ∉ n ++ equals :: v := by
      simp only [List.mem_append, List.mem_cons, not_or]
      exact ⟨hamp, by decide, hv⟩
    have := @List.splitOn_intercalate _ [n ++ equals :: v] _ _ ampersand (by simpa using hnot)
      (by simp)
    simpa using this
  have hname : parameterName (n ++ equals :: v) = n := by
    rw [parameterName, List.takeWhile_append_of_pos (bne_of_notMem hn)]
    simp
  have hvalue : parameterValue (n ++ equals :: v) = v := by
    rw [parameterValue, List.dropWhile_append_of_pos (bne_of_notMem hn)]
    simp
  rw [queryValues, hsplit]
  by_cases h : percentDecode n = some name <;> simp [h, hname, hvalue]

end query

end Uri
