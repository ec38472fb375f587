import Mathlib.Data.List.Basic
import Mathlib.Tactic.Common

/-!
# HMAC and HKDF

HMAC (RFC 2104) and HKDF (RFC 5869) over a hash function with blocks of `block` bytes. `expand`
is chopped off after the bytes that are asked for; two whole blocks of output are the first two
blocks of its sequence (`hkdf_two`).
-/

namespace Hkdf

/-- A key is hashed if it is longer than a block, and filled up with zeros. -/
def keyBlock (hash : List UInt8 → List UInt8) (block : ℕ) (key : List UInt8) : List UInt8 :=
  let key := if block < key.length then hash key else key
  key ++ List.replicate (block - key.length) 0

def hmac (hash : List UInt8 → List UInt8) (block : ℕ) (key text : List UInt8) : List UInt8 :=
  let k := keyBlock hash block key
  hash (k.map (· ^^^ 0x5c) ++ hash (k.map (· ^^^ 0x36) ++ text))

section

variable (mac : List UInt8 → List UInt8 → List UInt8)

def extract (salt ikm : List UInt8) : List UInt8 := mac salt ikm

/-- The blocks `T(i)`, `T(i + 1)`, … after the block `last`, `count` of them in a row. -/
def blocks (prk info : List UInt8) : ℕ → List UInt8 → ℕ → List UInt8
  | 0, _, _ => []
  | count + 1, last, i =>
    let t := mac prk (last ++ info ++ [UInt8.ofNat i])
    t ++ blocks prk info count t (i + 1)

/-- `length` bytes, from as many blocks of `hashLen` bytes as are needed. -/
def expand (hashLen : ℕ) (prk info : List UInt8) (length : ℕ) : List UInt8 :=
  (blocks mac prk info ((length + hashLen - 1) / hashLen) [] 1).take length

def hkdf (hashLen : ℕ) (ikm salt info : List UInt8) (length : ℕ) : List UInt8 :=
  expand mac hashLen (extract mac salt ikm) info length

/-- The first block of the output. -/
def first (prk info : List UInt8) : List UInt8 := mac prk (info ++ [1])

/-- The second block of the output. -/
def second (prk info : List UInt8) : List UInt8 := mac prk (first mac prk info ++ info ++ [2])

variable {mac} {hashLen : ℕ}

theorem hkdf_two (hm : ∀ key text, (mac key text).length = hashLen) (hpos : 0 < hashLen)
    (ikm salt info : List UInt8) :
    hkdf mac hashLen ikm salt info (hashLen * 2)
      = first mac (extract mac salt ikm) info ++ second mac (extract mac salt ikm) info := by
  have hcount : (hashLen * 2 + hashLen - 1) / hashLen = 2 := by
    rw [show hashLen * 2 + hashLen - 1 = (hashLen - 1) + hashLen * 2 by omega,
      Nat.add_mul_div_left _ _ hpos, Nat.div_eq_of_lt (by omega)]
  have hlen : (first mac (extract mac salt ikm) info
      ++ second mac (extract mac salt ikm) info).length = hashLen * 2 := by
    rw [List.length_append, first, second, hm, hm]
    omega
  rw [hkdf, expand, hcount, ← hlen]
  simp only [blocks, List.append_nil]
  exact List.take_length

end

end Hkdf
