import Mathlib.Tactic.Common

/-!
# Base64

The standard alphabet with padding: three bytes make four characters, a last group of one or two
bytes is padded with `=`. Decoding skips line breaks and refuses every other foreign character.
-/

namespace Base64

/-- The standard alphabet, by value. -/
def alphabet : List Char :=
  "ABCDEFGHIJKLMNOPQRSTUVWXYZabcdefghijklmnopqrstuvwxyz0123456789+/".toList

def charOf (n : ℕ) : Char := alphabet.getD n 'A'

def valueOf (c : Char) : Option ℕ := alphabet.idxOf? c

/-- The characters of a byte string. -/
def encodeChars : List UInt8 → List Char
  | [] => []
  | [a] => [charOf (a.toNat / 4), charOf (a.toNat % 4 * 16), '=', '=']
  | [a, b] =>
    [charOf (a.toNat / 4), charOf (a.toNat % 4 * 16 + b.toNat / 16),
      charOf (b.toNat % 16 * 4), '=']
  | a :: b :: c :: bs =>
    charOf (a.toNat / 4) :: charOf (a.toNat % 4 * 16 + b.toNat / 16)
      :: charOf (b.toNat % 16 * 4 + c.toNat / 64) :: charOf (c.toNat % 64) :: encodeChars bs

def byteOf (n : ℕ) : UInt8 := UInt8.ofNat n

/-- The bytes of a list of characters without line breaks. -/
def decodeQuads : List Char → Option (List UInt8)
  | [] => some []
  | [x, y, '=', '='] => do
    let a ← valueOf x
    let b ← valueOf y
    return [byteOf (a * 4 + b / 16)]
  | [x, y, z, '='] => do
    let a ← valueOf x
    let b ← valueOf y
    let c ← valueOf z
    return [byteOf (a * 4 + b / 16), byteOf (b % 16 * 16 + c / 4)]
  | x :: y :: z :: w :: cs => do
    let a ← valueOf x
    let b ← valueOf y
    let c ← valueOf z
    let d ← valueOf w
    let rest ← decodeQuads cs
    return byteOf (a * 4 + b / 16) :: byteOf (b % 16 * 16 + c / 4) :: byteOf (c % 4 * 64 + d)
      :: rest
  | _ => none

def decodeChars (cs : List Char) : Option (List UInt8) :=
  decodeQuads (cs.filter fun c => c ≠ '\n' ∧ c ≠ '\r')

theorem charOf_spec : ∀ n < 64, valueOf (charOf n) = some n ∧ charOf n ≠ '='
    ∧ charOf n ≠ '\n' ∧ charOf n ≠ '\r' := by
  decide +kernel

theorem valueOf_charOf {n : ℕ} (h : n < 64) : valueOf (charOf n) = some n := (charOf_spec n h).1

theorem filter_encodeChars : ∀ bs : List UInt8,
    (encodeChars bs).filter (fun c => c ≠ '\n' ∧ c ≠ '\r') = encodeChars bs
  | [] => rfl
  | [a] => by
    have ha := a.toNat_lt
    have h1 := charOf_spec (a.toNat / 4) (by omega)
    have h2 := charOf_spec (a.toNat % 4 * 16) (by omega)
    simp [encodeChars, h1, h2]
  | [a, b] => by
    have ha := a.toNat_lt
    have hb := b.toNat_lt
    have h1 := charOf_spec (a.toNat / 4) (by omega)
    have h2 := charOf_spec (a.toNat % 4 * 16 + b.toNat / 16) (by omega)
    have h3 := charOf_spec (b.toNat % 16 * 4) (by omega)
    simp [encodeChars, h1, h2, h3]
  | a :: b :: c :: bs => by
    have ih := filter_encodeChars bs
    have ha := a.toNat_lt
    have hb := b.toNat_lt
    have hc := c.toNat_lt
    have h1 := charOf_spec (a.toNat / 4) (by omega)
    have h2 := charOf_spec (a.toNat % 4 * 16 + b.toNat / 16) (by omega)
    have h3 := charOf_spec (b.toNat % 16 * 4 + c.toNat / 64) (by omega)
    have h4 := charOf_spec (c.toNat % 64) (by omega)
    simp only [Bool.decide_and, decide_not] at ih
    simp [encodeChars, h1, h2, h3, h4, ih]

theorem byteOf_eq {n : ℕ} {a : UInt8} (h : n = a.toNat) : byteOf n = a := by
  rw [h, byteOf, UInt8.ofNat_toNat]

theorem decodeQuads_cons {x y z w : Char} {cs : List Char} (hw : w ≠ '=') :
    decodeQuads (x :: y :: z :: w :: cs) = (do
      let a ← valueOf x
      let b ← valueOf y
      let c ← valueOf z
      let d ← valueOf w
      let rest ← decodeQuads cs
      return byteOf (a * 4 + b / 16) :: byteOf (b % 16 * 16 + c / 4) :: byteOf (c % 4 * 64 + d)
        :: rest) := by
  rw [decodeQuads.eq_def]
  split
  · simp_all
  · simp_all
  · simp_all
  · simp_all
  · rename_i hne
    exact absurd rfl (hne x y z w cs)

theorem decodeQuads_padded {x y z : Char} (hz : z ≠ '=') :
    decodeQuads [x, y, z, '='] = (do
      let a ← valueOf x
      let b ← valueOf y
      let c ← valueOf z
      return [byteOf (a * 4 + b / 16), byteOf (b % 16 * 16 + c / 4)]) := by
  rw [decodeQuads.eq_def]
  split
  · simp_all
  · simp_all
  · simp_all
  · rename_i hne h
    simp only [List.cons.injEq] at h
    obtain ⟨rfl, rfl, rfl, rfl, rfl⟩ := h
    exact (hne rfl rfl).elim
  · rename_i hne
    exact absurd rfl (hne x y z '=' [])

theorem decodeQuads_encodeChars : ∀ bs : List UInt8, decodeQuads (encodeChars bs) = some bs
  | [] => rfl
  | [a] => by
    have ha := a.toNat_lt
    have h1 := valueOf_charOf (n := a.toNat / 4) (by omega)
    have h2 := valueOf_charOf (n := a.toNat % 4 * 16) (by omega)
    have e : byteOf (a.toNat / 4 * 4 + a.toNat % 4 * 16 / 16) = a := byteOf_eq (by omega)
    simp only [encodeChars, decodeQuads, h1, h2, e, Option.bind_eq_bind, Option.bind_some,
      Option.pure_def]
  | [a, b] => by
    have ha := a.toNat_lt
    have hb := b.toNat_lt
    have h1 := valueOf_charOf (n := a.toNat / 4) (by omega)
    have h2 := valueOf_charOf (n := a.toNat % 4 * 16 + b.toNat / 16) (by omega)
    have h3 := charOf_spec (b.toNat % 16 * 4) (by omega)
    have e1 : byteOf (a.toNat / 4 * 4 + (a.toNat % 4 * 16 + b.toNat / 16) / 16) = a :=
      byteOf_eq (by omega)
    have e2 : byteOf ((a.toNat % 4 * 16 + b.toNat / 16) % 16 * 16 + b.toNat % 16 * 4 / 4) = b :=
      byteOf_eq (by omega)
    rw [encodeChars, decodeQuads_padded h3.2.1]
    simp only [h1, h2, h3.1, e1, e2, Option.bind_eq_bind, Option.bind_some, Option.pure_def]
  | a :: b :: c :: bs => by
    have ih := decodeQuads_encodeChars bs
    have ha := a.toNat_lt
    have hb := b.toNat_lt
    have hc := c.toNat_lt
    have h1 := valueOf_charOf (n := a.toNat / 4) (by omega)
    have h2 := valueOf_charOf (n := a.toNat % 4 * 16 + b.toNat / 16) (by omega)
    have h3 := valueOf_charOf (n := b.toNat % 16 * 4 + c.toNat / 64) (by omega)
    have h4 := charOf_spec (c.toNat % 64) (by omega)
    have e1 : byteOf (a.toNat / 4 * 4 + (a.toNat % 4 * 16 + b.toNat / 16) / 16) = a :=
      byteOf_eq (by omega)
    have e2 : byteOf ((a.toNat % 4 * 16 + b.toNat / 16) % 16 * 16
        + (b.toNat % 16 * 4 + c.toNat / 64) / 4) = b := byteOf_eq (by omega)
    have e3 : byteOf ((b.toNat % 16 * 4 + c.toNat / 64) % 4 * 64 + c.toNat % 64) = c :=
      byteOf_eq (by omega)
    rw [encodeChars, decodeQuads_cons h4.2.1]
    simp only [h1, h2, h3, h4.1, ih, e1, e2, e3, Option.bind_eq_bind, Option.bind_some,
      Option.pure_def]

/-- Decoding undoes encoding. -/
theorem decodeChars_encodeChars (bs : List UInt8) : decodeChars (encodeChars bs) = some bs := by
  rw [decodeChars, filter_encodeChars, decodeQuads_encodeChars]

end Base64
