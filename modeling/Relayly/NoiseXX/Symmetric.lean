import Relayly.Wire

/-!
# `symmetricState.ts` and `symmetric_state.cpp`

The cipher state and the symmetric state of Noise, which TypeScript and C++ write by hand over the
primitives of a library. The two agree, so there is one definition of each: C++ keeps `ck` and `h`
in arrays of 32 bytes and the counter in 64 bits, of which a handshake uses the first three values.
-/

namespace Relayly.NoiseXX

/-- The primitives. `dh` and `aeadDecrypt` throw. -/
structure Crypto where
  publicKey : Bytes → Bytes
  dh : Bytes → Bytes → Except String Bytes
  hash : Bytes → Bytes
  hkdf : Bytes → Bytes → Bytes × Bytes
  aeadEncrypt : Bytes → ℕ → Bytes → Bytes → Bytes
  aeadDecrypt : Bytes → ℕ → Bytes → Bytes → Except String Bytes

structure KeyPair where
  privateKey : Bytes
  publicKey : Bytes
  deriving DecidableEq, Repr

def dhLen : ℕ := 32
def hashLen : ℕ := 32
def tagLen : ℕ := 16

def protocolName : Bytes :=
  "Noise_XX_25519_ChaChaPoly_BLAKE2s".toList.map fun c => UInt8.ofNat c.toNat

/-- The key pair of a private key, as `generateKeypair` makes it. -/
def Crypto.keyPair (C : Crypto) (privateKey : Bytes) : KeyPair where
  privateKey
  publicKey := C.publicKey privateKey

structure CipherState where
  key : Option Bytes := none
  n : ℕ := 0
  deriving DecidableEq, Repr

namespace CipherState

def initializeKey (key : Bytes) : CipherState := { key := some key, n := 0 }

variable (C : Crypto)

/-- Without a key the plaintext goes out as it is. -/
def encryptWithAd (cs : CipherState) (ad plaintext : Bytes) : Bytes × CipherState :=
  match cs.key with
  | none => (plaintext, cs)
  | some key => (C.aeadEncrypt key cs.n ad plaintext, { cs with n := cs.n + 1 })

def decryptWithAd (cs : CipherState) (ad ciphertext : Bytes) :
    Except String (Bytes × CipherState) :=
  match cs.key with
  | none => .ok (ciphertext, cs)
  | some key =>
    match C.aeadDecrypt key cs.n ad ciphertext with
    | .error e => .error e
    | .ok plaintext => .ok (plaintext, { cs with n := cs.n + 1 })

end CipherState

structure SymmetricState where
  ck : Bytes
  h : Bytes
  cipherState : CipherState := {}
  deriving DecidableEq, Repr

namespace SymmetricState

variable (C : Crypto)

/-- A protocol name that is longer than a hash is hashed. -/
def initializeSymmetric (name : Bytes) : SymmetricState :=
  let h := if name.length ≤ hashLen then name ++ List.replicate (hashLen - name.length) 0
    else C.hash name
  { ck := h, h }

def mixKey (s : SymmetricState) (inputKeyMaterial : Bytes) : SymmetricState :=
  let (ck, tempK) := C.hkdf s.ck inputKeyMaterial
  { s with ck, cipherState := .initializeKey tempK }

def mixHash (s : SymmetricState) (data : Bytes) : SymmetricState :=
  { s with h := C.hash (s.h ++ data) }

def encryptAndHash (s : SymmetricState) (plaintext : Bytes) : Bytes × SymmetricState :=
  let (ciphertext, cipherState) := s.cipherState.encryptWithAd C s.h plaintext
  (ciphertext, { s with cipherState }.mixHash C ciphertext)

def decryptAndHash (s : SymmetricState) (ciphertext : Bytes) :
    Except String (Bytes × SymmetricState) :=
  match s.cipherState.decryptWithAd C s.h ciphertext with
  | .error e => .error e
  | .ok (plaintext, cipherState) => .ok (plaintext, { s with cipherState }.mixHash C ciphertext)

def split (s : SymmetricState) : CipherState × CipherState :=
  let (k1, k2) := C.hkdf s.ck []
  (.initializeKey k1, .initializeKey k2)

end SymmetricState

end Relayly.NoiseXX
