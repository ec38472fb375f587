import Mathlib.Algebra.Group.Nat.Defs
import Relayly.Lib.Hkdf
import Relayly.NoiseXX.Handshake

/-!
# `primitives.ts` and `primitives.cpp`

What the two implementations put around the primitives of their libraries: the nonce of the AEAD
and the HKDF. TypeScript takes the HKDF from its library and chops 64 bytes of output in two; C++
has none and writes out HMAC and the two blocks.
-/

namespace Relayly.NoiseXX

/-- The primitives of the libraries: X25519, BLAKE2s and ChaCha20-Poly1305, which takes its nonce as
12 bytes. -/
structure Primitives where
  publicKey : Bytes → Bytes
  dh : Bytes → Bytes → Except String Bytes
  hash : Bytes → Bytes
  aeadEncrypt : Bytes → Bytes → Bytes → Bytes → Bytes
  aeadDecrypt : Bytes → Bytes → Bytes → Bytes → Except String Bytes

/-- The block length of BLAKE2s. -/
def blockLen : ℕ := 64

/-! ## TypeScript -/

namespace Ts

/-- The counter modulo `2 ^ 64` in little endian, after four zeros. -/
def encodeNonce (n : ℕ) : Bytes :=
  List.replicate 4 0 ++ (List.range 8).map fun i => UInt8.ofNat (n % 2 ^ 64 / 2 ^ (8 * i) % 2 ^ 8)

def noiseHKDF (hash : Bytes → Bytes) (chainingKey inputKeyMaterial : Bytes) : Bytes × Bytes :=
  let okm := Hkdf.hkdf (Hkdf.hmac hash blockLen) hashLen inputKeyMaterial chainingKey [] (hashLen * 2)
  (slice okm 0 hashLen, slice okm hashLen (hashLen * 2))

end Ts

def Primitives.ts (P : Primitives) : Crypto where
  publicKey := P.publicKey
  dh := P.dh
  hash := P.hash
  hkdf := Ts.noiseHKDF P.hash
  aeadEncrypt key n ad plaintext := P.aeadEncrypt key (Ts.encodeNonce n) ad plaintext
  aeadDecrypt key n ad ciphertext := P.aeadDecrypt key (Ts.encodeNonce n) ad ciphertext

/-! ## C++ -/

namespace Cpp

/-- The eight bytes of a 64-bit counter from the lowest on, after four zeros. -/
def encodeNonce (n : UInt64) : Bytes :=
  List.replicate 4 0 ++ (List.range 8).map fun i => ((n >>> UInt64.ofNat (8 * i)) &&& 0xff).toUInt8

/-- `std::copy` into an array of 64 bytes, which starts out as zeros. -/
def toBlock (b : Bytes) : Bytes := b.take blockLen ++ List.replicate (blockLen - b.length) 0

def hmacBlake2s (hash : Bytes → Bytes) (key data : Bytes) : Bytes :=
  let keyBlock := if blockLen < key.length then toBlock (hash key) else toBlock key
  let ipad := keyBlock.map (· ^^^ 0x36)
  let opad := keyBlock.map (· ^^^ 0x5c)
  let innerHash := hash (ipad ++ data)
  hash (opad ++ innerHash)

def hkdf2 (hash : Bytes → Bytes) (chainingKey inputKeyMaterial : Bytes) : Bytes × Bytes :=
  let tempKey := hmacBlake2s hash chainingKey inputKeyMaterial
  let output1 := hmacBlake2s hash tempKey [0x01]
  let output2 := hmacBlake2s hash tempKey (output1 ++ [0x02])
  (output1, output2)

end Cpp

/-- The counter wraps around at `2 ^ 64`. -/
def Primitives.cpp (P : Primitives) : Crypto where
  publicKey := P.publicKey
  dh := P.dh
  hash := P.hash
  hkdf := Cpp.hkdf2 P.hash
  aeadEncrypt key n ad plaintext := P.aeadEncrypt key (Cpp.encodeNonce (.ofNat n)) ad plaintext
  aeadDecrypt key n ad ciphertext := P.aeadDecrypt key (Cpp.encodeNonce (.ofNat n)) ad ciphertext

end Relayly.NoiseXX
