import Relayly.Wire

/-!
# The device tokens of `internal/pairing/pairing.go`

`base58Encode` goes through its input in chunks of eight bytes. A chunk is a 64-bit number in big
endian, and its digits are appended from the lowest on, as many as it has; the leading zero bytes of
the input are appended as zero digits, and the whole is reversed at the end.
-/

namespace Relayly.Relay

def base58Alphabet : List Char :=
  "123456789ABCDEFGHJKLMNPQRSTUVWXYZabcdefghijkmnopqrstuvwxyz".toList

/-- `base58Alphabet[mod]`. -/
def base58Digit (mod : ℕ) : Char := base58Alphabet.getD mod '1'

/-- The loop over the digits of a chunk. -/
def appendDigits (num : ℕ) : List Char :=
  if num = 0 then [] else base58Digit (num % 58) :: appendDigits (num / 58)
termination_by num
decreasing_by exact Nat.div_lt_self (by omega) (by decide)

def leadingZeros : Bytes → ℕ
  | [] => 0
  | b :: rest => if b ≠ 0 then 0 else leadingZeros rest + 1

/-- `binary.BigEndian.Uint64`. -/
def bigEndian (chunk : Bytes) : ℕ := chunk.foldl (fun num b => num * 256 + b.toNat) 0

/-- The number of the chunk at `i`, copied to the end of eight zero bytes. -/
def chunkAt (input : Bytes) (i : ℕ) : ℕ :=
  let part := (input.drop i).take 8
  bigEndian (List.replicate (8 - part.length) 0 ++ part)

/-- The loop over the chunks, from `i := 0` in steps of eight. -/
def encodeChunks (input : Bytes) : List Char :=
  (List.range ((input.length + 7) / 8)).flatMap fun k => appendDigits (chunkAt input (8 * k))

def base58Encode (input : Bytes) : String :=
  String.ofList
    (encodeChunks input ++ List.replicate (leadingZeros input) (base58Digit 0)).reverse

/-- `random` is what `rand.Read` gives, if it does not fail: 32 bytes. -/
def generateDeviceToken (random : Option (Fin 32 → UInt8)) : Option String :=
  random.map fun b => base58Encode (List.ofFn b)

end Relayly.Relay
