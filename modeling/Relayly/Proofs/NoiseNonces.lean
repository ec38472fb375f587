import Mathlib.Data.List.Nodup
import Relayly.NoiseXX.Transport
import Relayly.Proofs.NoisePorts

/-!
# The nonces of one key

Each call counts up, and a nonce is the counter in eight bytes. Nothing stops at the end of their
range, so the nonces of one key are distinct as long as there are no more than `2 ^ 64` of them.
-/

namespace Relayly.NoiseXX

/-! ## The nonce of a counter -/

/-- The lowest `k` bytes of a number determine it modulo `256 ^ k`. -/
lemma mod_eq_of_bytes_eq {a b : ℕ} : ∀ k : ℕ,
    (∀ i < k, a / 2 ^ (8 * i) % 2 ^ 8 = b / 2 ^ (8 * i) % 2 ^ 8) → a % 2 ^ (8 * k) = b % 2 ^ (8 * k)
  | 0, _ => by simp [Nat.mod_one]
  | k + 1, h => by
    have ih := mod_eq_of_bytes_eq k fun i hi => h i (by omega)
    rw [Nat.mul_succ, pow_add, Nat.mod_mul, Nat.mod_mul, ih, h k (by omega)]

lemma Ts.encodeNonce_inj {a b : ℕ} : encodeNonce a = encodeNonce b ↔ a % 2 ^ 64 = b % 2 ^ 64 := by
  constructor
  · intro h
    have hbytes := List.append_cancel_left h
    have hmod : a % 2 ^ 64 % 2 ^ (8 * 8) = b % 2 ^ 64 % 2 ^ (8 * 8) := by
      refine mod_eq_of_bytes_eq 8 fun i hi => ?_
      have hbyte := List.map_inj_left.mp hbytes i (List.mem_range.mpr hi)
      have hnat := congrArg UInt8.toNat hbyte
      simpa using hnat
    simpa using hmod
  · intro h
    rw [encodeNonce, encodeNonce, h]

namespace CipherState

variable {P : Primitives}

lemma aeadEncrypt_crypto (port : Port) (P : Primitives) (key : Bytes) (n : ℕ) (ad text : Bytes) :
    (port.crypto P).aeadEncrypt key n ad text = P.aeadEncrypt key (Ts.encodeNonce n) ad text := by
  cases port with
  | ts => rfl
  | cpp => simp only [Port.crypto, Primitives.cpp, Cpp.encodeNonce_eq]

/-! ## Calls in a row -/

lemma ciphertexts_cons (C : Crypto) (key : Bytes) (n : ℕ) (m : Framed) (messages : List Framed) :
    ciphertexts C ⟨some key, n⟩ (m :: messages) =
      C.aeadEncrypt key n m.1 m.2 :: ciphertexts C ⟨some key, n + 1⟩ messages := rfl

/-- The counters of the calls are the numbers from `n` on. -/
lemma nonces_eq (port : Port) (P : Primitives) (key : Bytes) :
    ∀ (messages : List Framed) (n : ℕ),
      nonces port P ⟨some key, n⟩ messages =
        (List.range' n messages.length).map Ts.encodeNonce
  | [], _ => rfl
  | m :: messages, n => by
    have ih := nonces_eq port P key messages (n + 1)
    rw [nonces] at ih ⊢
    rw [ciphertexts_cons, ih, aeadEncrypt_crypto, List.length_cons, List.range'_succ, List.map_cons]
    rfl

/-- These are the nonces of the ciphertexts, whatever the AEAD is. -/
lemma ciphertexts_eq (port : Port) (P : Primitives) (key : Bytes) :
    ∀ (messages : List Framed) (n : ℕ),
      ciphertexts (port.crypto P) ⟨some key, n⟩ messages =
        List.zipWith (fun nonce (m : Framed) => P.aeadEncrypt key nonce m.1 m.2)
          (nonces port P ⟨some key, n⟩ messages) messages
  | [], _ => rfl
  | m :: messages, n => by
    have ih := ciphertexts_eq port P key messages (n + 1)
    rw [nonces_eq] at ih ⊢
    rw [ciphertexts_cons, ih, aeadEncrypt_crypto, List.length_cons, List.range'_succ, List.map_cons,
      List.zipWith_cons_cons]

/-- The counters from `n` on give distinct nonces as far as they are distinct modulo `2 ^ 64`. -/
lemma nodup_encodeNonce_iff (n m : ℕ) :
    ((List.range' n m).map Ts.encodeNonce).Nodup ↔ m ≤ 2 ^ 64 := by
  rw [List.nodup_map_iff_inj_on List.nodup_range']
  simp only [List.mem_range'_1, Ts.encodeNonce_inj]
  constructor
  · intro hinj
    by_contra hlt
    have := hinj n (by omega) (n + 2 ^ 64) (by omega) (by simp)
    omega
  · intro hle a ha b hb hab
    omega

/-- After `initializeKey` each ciphertext of either port has a nonce, and they are pairwise distinct
exactly if there are at most `2 ^ 64` of them. -/
theorem nonces_nodup_iff (port : Port) (P : Primitives) (key : Bytes) (messages : List Framed) :
    ciphertexts (port.crypto P) (initializeKey key) messages =
        List.zipWith (fun nonce (m : Framed) => P.aeadEncrypt key nonce m.1 m.2)
          (nonces port P (initializeKey key) messages) messages ∧
      ((nonces port P (initializeKey key) messages).Nodup ↔ messages.length ≤ 2 ^ 64) := by
  constructor
  · exact ciphertexts_eq port P key messages 0
  · rw [initializeKey, nonces_eq, nodup_encodeNonce_iff]

lemma not_nodup_nonces {messages : List Framed} (h : 2 ^ 64 < messages.length) (port : Port)
    (P : Primitives) (key : Bytes) : ¬ (nonces port P (initializeKey key) messages).Nodup := by
  rw [initializeKey, nonces_eq, nodup_encodeNonce_iff]
  omega

/-- The first nonce comes back with the call after the last one of the range. -/
theorem nonces_repeat :
    ¬ (nonces .ts plainPrimitives (initializeKey [1])
      (List.replicate (2 ^ 64 + 1) ([], []))).Nodup ∧
    ¬ (nonces .cpp plainPrimitives (initializeKey [1])
      (List.replicate (2 ^ 64 + 1) ([], []))).Nodup := by
  have hlength : 2 ^ 64 < (List.replicate (2 ^ 64 + 1) (([], []) : Framed)).length := by
    rw [List.length_replicate]
    omega
  exact ⟨not_nodup_nonces hlength _ _ _, not_nodup_nonces hlength _ _ _⟩

end CipherState

end Relayly.NoiseXX
