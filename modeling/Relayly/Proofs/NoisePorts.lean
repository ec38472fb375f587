import Relayly.Lib.Agree
import Relayly.NoiseXX.Primitives
import Relayly.Proofs.NoiseXX
import Mathlib.Data.Nat.Bitwise

/-!
# The sessions of TypeScript and C++ are one state machine

The two put the same around their primitives (`ts_eq_cpp`), so it is one `Crypto`. Their handshake
states run side by side (`Match`): where both have what they need of a message they compute the
same of it, and where one of them finds it too short the other one comes to a DH with a key that
is not 32 bytes long, or to a ciphertext without a tag.
-/

namespace Relayly.NoiseXX

/-- What is assumed of the primitives. -/
structure Primitives.Lawful (P : Primitives) : Prop where
  length_hash : ∀ data, (P.hash data).length = hashLen
  dh_length : ∀ privateKey publicKey, publicKey.length ≠ dhLen →
    ∃ e, P.dh privateKey publicKey = .error e
  length_aeadDecrypt : ∀ key nonce ad ciphertext plaintext,
    P.aeadDecrypt key nonce ad ciphertext = .ok plaintext →
      plaintext.length + tagLen = ciphertext.length

/-! ## Around the primitives -/

theorem Cpp.hmacBlake2s_eq {hash : Bytes → Bytes} (hlen : ∀ data, (hash data).length = hashLen)
    (key data : Bytes) : hmacBlake2s hash key data = Hkdf.hmac hash blockLen key data := by
  have hblock : (if blockLen < key.length then toBlock (hash key) else toBlock key)
      = Hkdf.keyBlock hash blockLen key := by
    unfold Hkdf.keyBlock
    split_ifs with h
    · rw [toBlock, List.take_of_length_le (by rw [hlen]; decide)]
    · rw [toBlock, List.take_of_length_le (Nat.le_of_not_lt h)]
  simp only [hmacBlake2s, Hkdf.hmac, hblock]

theorem Cpp.hkdf2_eq {hash : Bytes → Bytes} (hlen : ∀ data, (hash data).length = hashLen)
    (chainingKey inputKeyMaterial : Bytes) :
    hkdf2 hash chainingKey inputKeyMaterial = Ts.noiseHKDF hash chainingKey inputKeyMaterial := by
  have hmac : ∀ key text, (Hkdf.hmac hash blockLen key text).length = hashLen := fun _ _ => hlen _
  have hfirst : ∀ prk, (Hkdf.first (Hkdf.hmac hash blockLen) prk []).length = hashLen :=
    fun _ => hmac _ _
  have hsecond : ∀ prk, (Hkdf.second (Hkdf.hmac hash blockLen) prk []).length = hashLen :=
    fun _ => hmac _ _
  simp only [Ts.noiseHKDF, Hkdf.hkdf_two hmac (by decide), slice, hkdf2, hmacBlake2s_eq hlen]
  rw [List.drop_zero, Nat.sub_zero, List.take_left' (hfirst _), List.drop_left' (hfirst _),
    List.take_of_length_le (by rw [hsecond]; decide)]
  simp only [Hkdf.first, Hkdf.second, Hkdf.extract, List.nil_append, List.append_nil]

theorem Cpp.encodeNonce_eq (n : ℕ) : encodeNonce (.ofNat n) = Ts.encodeNonce n := by
  unfold encodeNonce Ts.encodeNonce
  congr 1
  refine List.map_congr_left fun i hi => ?_
  have hi : i < 8 := List.mem_range.1 hi
  apply UInt8.toNat_inj.1
  have hshift : 8 * i % 64 = 8 * i := by omega
  have hmask : ∀ m : ℕ, m &&& 255 = m % 2 ^ 8 := fun m => Nat.and_two_pow_sub_one_eq_mod m 8
  simp [hshift, hmask, Nat.shiftRight_eq_div_pow]

theorem Primitives.ts_eq_cpp {P : Primitives} (hP : P.Lawful) : P.ts = P.cpp := by
  have hhkdf : Ts.noiseHKDF P.hash = Cpp.hkdf2 P.hash := by
    funext ck ikm
    exact (Cpp.hkdf2_eq hP.length_hash ck ikm).symm
  simp only [Primitives.ts, Primitives.cpp, hhkdf, Cpp.encodeNonce_eq]

/-! ## Side by side -/

/-- What the sessions need to know of the primitives. -/
structure Crypto.Sized (C : Crypto) : Prop where
  dh_length : ∀ privateKey publicKey, publicKey.length ≠ dhLen → Throws (C.dh privateKey publicKey)
  length_aeadDecrypt : ∀ key n ad ciphertext plaintext,
    C.aeadDecrypt key n ad ciphertext = .ok plaintext → plaintext.length + tagLen = ciphertext.length

theorem Primitives.Lawful.sized {P : Primitives} (hP : P.Lawful) : P.ts.Sized where
  dh_length := hP.dh_length
  length_aeadDecrypt key n := hP.length_aeadDecrypt key (Ts.encodeNonce n)

variable {C : Crypto}

namespace SymmetricState

variable {s s' : SymmetricState}

theorem HasKey.length_decryptAndHash (h : s.HasKey) (hC : C.Sized) {ciphertext plaintext : Bytes}
    (hd : s.decryptAndHash C ciphertext = .ok (plaintext, s')) :
    plaintext.length + tagLen = ciphertext.length := by
  obtain ⟨key, hk⟩ := Option.isSome_iff_exists.1 h
  simp only [decryptAndHash, CipherState.decryptWithAd, hk] at hd
  rcases ha : C.aeadDecrypt key s.cipherState.n s.h ciphertext with e | p <;> simp only [ha] at hd
  · cases hd
  · obtain ⟨rfl, -⟩ := Prod.mk.inj (Except.ok.inj hd)
    exact hC.length_aeadDecrypt _ _ _ _ _ ha

end SymmetricState

/-- The state of C++ that corresponds to one of TypeScript. -/
def Ts.HandshakeState.toCpp (t : Ts.HandshakeState) : Cpp.HandshakeState where
  initiator := t.initiator
  symmetric := t.symmetric
  s := t.s
  rand := t.rand
  messageIndex := t.writeCount + t.readCount
  e := t.e
  re := t.re
  rs := t.rs

theorem Cpp.take_throws {n : ℕ} {message : Bytes} (h : message.length < n) :
    Throws (take n message) := by
  rw [take, if_pos h]
  exact .error _

theorem Cpp.take_of_le {n : ℕ} {message : Bytes} (h : n ≤ message.length) :
    take n message = .ok (message.take n, message.drop n) := by
  rw [take, if_neg (Nat.not_lt.2 h)]

theorem Cpp.toKey_take {b : Bytes} (h : dhLen ≤ b.length) : toKey (b.take dhLen) = b.take dhLen :=
  toKey_of_length (by rw [List.length_take, Nat.min_eq_left h])

/-- A static key from a ciphertext of less than 48 bytes is refused by the DH that follows. -/
theorem dh_throws_of_short (hC : C.Sized) {s s' : SymmetricState} (hk : s.HasKey)
    {ciphertext rs privateKey : Bytes} (hlen : ciphertext.length < dhLen + tagLen)
    (hd : s.decryptAndHash C ciphertext = .ok (rs, s')) : Throws (C.dh privateKey rs) := by
  have := hk.length_decryptAndHash hC hd
  exact hC.dh_length _ _ (by omega)

/-- A static key from a ciphertext of 48 bytes fills an array of 32. -/
theorem Cpp.toKey_decrypted (hC : C.Sized) {s s' : SymmetricState} (hk : s.HasKey)
    {ciphertext rs : Bytes} (hlen : ciphertext.length = dhLen + tagLen)
    (hd : s.decryptAndHash C ciphertext = .ok (rs, s')) : toKey rs = rs := by
  have := hk.length_decryptAndHash hC hd
  exact toKey_of_length (by omega)

/-- The role, and how many messages have been written and read. -/
structure Ts.HandshakeState.At (t : Ts.HandshakeState) (initiator : Bool) (w r : ℕ) : Prop where
  role : t.initiator = initiator
  written : t.writeCount = w
  read : t.readCount = r

/-- What the two read that corresponds. -/
def SameRead (a : Ts.HandshakeState × Option (Bytes × Bytes))
    (b : Cpp.HandshakeState × Option (Bytes × Bytes)) : Prop := b = (a.1.toCpp, a.2)

/-- What the two write that corresponds. -/
def SameWritten (a : Bytes × Ts.HandshakeState × Option (Bytes × Bytes))
    (b : Bytes × Cpp.HandshakeState × Option (Bytes × Bytes)) : Prop :=
  b = (a.1, a.2.1.toCpp, a.2.2)

section

open Ts.HandshakeState (toCpp)

variable {t : Ts.HandshakeState}

/-- A `msg1` of at least 32 bytes. -/
theorem read_msg1_same (ht : t.At false 0 0) {data : Bytes} (hlen : dhLen ≤ data.length) :
    Agree (fun a b => SameRead a b ∧ a.2 = none ∧ a.1.At false 0 1)
      ((tsNoise C).readMessage t data) ((cppNoise C).readMessage t.toCpp data) := by
  obtain ⟨i, sym, s, rand, e, rs, re, wc, rc⟩ := t
  obtain ⟨rfl, rfl, rfl⟩ := ht
  refine Agree.map (R := fun a b => b = (a.1.toCpp, none) ∧ a.2 = none ∧ a.1.At false 0 1) ?_ ?_
  · simp only [Ts.HandshakeState.readMessage, toCpp, Cpp.HandshakeState.readMessage,
      Cpp.HandshakeState.readTokens, pure_bind, Cpp.take_of_le hlen, ok_bind,
      Cpp.toKey_take hlen, Bool.false_eq_true, not_false_eq_true, true_and, if_true]
    refine .bind_self fun x _ => ?_
    exact .ok ⟨rfl, rfl, rfl, rfl, rfl⟩
  · rintro ⟨t, r⟩ b ⟨rfl, rfl, hat⟩
    exact ⟨rfl, rfl, hat⟩

/-- C++ refuses a shorter one. TypeScript takes it and then has no key for the DH of `msg2`. -/
theorem read_msg1_short (hC : C.Sized) (ht : t.At false 0 0) {data : Bytes}
    (hlen : data.length < dhLen) : Throws ((cppNoise C).readMessage t.toCpp data)
      ∧ ∀ a, (tsNoise C).readMessage t data = .ok a → Throws ((tsNoise C).writeMessage a.1) := by
  obtain ⟨i, sym, s, rand, e, rs, re, wc, rc⟩ := t
  obtain ⟨rfl, rfl, rfl⟩ := ht
  refine ⟨(((Cpp.take_throws hlen).bind _).bind _).map _, fun a ha => ?_⟩
  simp only [tsNoise, Ts.HandshakeState.readMessage, Bool.false_eq_true, not_false_eq_true,
    true_and, if_true] at ha
  rcases hd : (sym.mixHash C (slice data 0 dhLen)).decryptAndHash C (data.drop dhLen)
    with err | ⟨p, sym'⟩ <;> rw [hd] at ha
  · cases ha
  · obtain rfl := Except.ok.inj ha
    refine Throws.map ?_ _
    simp only [Ts.HandshakeState.writeMessage, Bool.false_eq_true, not_false_eq_true, true_and,
      false_and, if_true, if_false, required, ok_bind]
    refine (hC.dh_length _ _ ?_).bind _
    simp only [slice, List.drop_zero, List.length_take]
    omega

/-- TypeScript refuses a shorter `msg2` than C++ expects at one DH or the other. -/
theorem read_msg2_same (hC : C.Sized) (ht : t.At true 1 0) (data : Bytes) :
    Agree (fun a b => SameRead a b ∧ a.2 = none ∧ a.1.At true 1 1 ∧ a.1.rs.isSome = true)
      ((tsNoise C).readMessage t data) ((cppNoise C).readMessage t.toCpp data) := by
  obtain ⟨i, sym, s, rand, e, rs, re, wc, rc⟩ := t
  obtain ⟨rfl, rfl, rfl⟩ := ht
  refine Agree.map (R := fun a b => b = (a.1.toCpp, none) ∧ a.2 = none ∧ a.1.At true 1 1
    ∧ a.1.rs.isSome = true) ?_ ?_
  · simp only [Ts.HandshakeState.readMessage, toCpp, Cpp.HandshakeState.readMessage,
      Cpp.HandshakeState.readTokens, bind_assoc, pure_bind, not_true, false_and, if_false, true_and,
      if_true]
    by_cases hshort : data.length < dhLen
    · refine .of_throws (.bind_right fun e _ => ?_) ((Cpp.take_throws hshort).bind _)
      refine (hC.dh_length _ _ ?_).bind _
      simp only [slice, List.drop_zero, List.length_take]
      omega
    · have hlen : dhLen ≤ data.length := Nat.le_of_not_lt hshort
      have hslice : slice data 0 dhLen = data.take dhLen := rfl
      simp only [Cpp.take_of_le hlen, ok_bind, Cpp.toKey_take hlen, hslice]
      refine .bind_self fun e _ => .bind_self fun ee _ => ?_
      have hk : ((sym.mixHash C (data.take dhLen)).mixKey C ee).HasKey :=
        SymmetricState.hasKey_mixKey _ _
      by_cases hshort' : (data.drop dhLen).length < dhLen + tagLen
      · refine .of_throws (.bind_right fun x hx => ?_) ((Cpp.take_throws hshort').bind _)
        refine (dh_throws_of_short hC hk ?_ hx).bind _
        rw [slice, List.length_take]
        omega
      · have hlen' : dhLen + tagLen ≤ (data.drop dhLen).length := Nat.le_of_not_lt hshort'
        have hs : slice data dhLen (dhLen + dhLen + tagLen)
            = (data.drop dhLen).take (dhLen + tagLen) := rfl
        have hdrop : data.drop (dhLen + dhLen + tagLen)
            = (data.drop dhLen).drop (dhLen + tagLen) := by
          rw [List.drop_drop]
          rfl
        simp only [Cpp.take_of_le hlen', ok_bind, hs, hdrop]
        refine .bind_self fun x hx => ?_
        have hkey : Cpp.toKey x.1 = x.1 :=
          Cpp.toKey_decrypted hC hk (by rw [List.length_take, Nat.min_eq_left hlen']) hx
        simp only [hkey]
        refine .bind_self fun es _ => .bind_self fun y _ => ?_
        exact .ok ⟨rfl, rfl, ⟨rfl, rfl, rfl⟩, rfl⟩
  · rintro ⟨t, r⟩ b ⟨rfl, rfl, hat⟩
    exact ⟨rfl, rfl, hat⟩

theorem read_msg3_same (hC : C.Sized) (ht : t.At false 1 1) (hk : t.symmetric.HasKey) (data : Bytes) :
    Agree (fun a b => SameRead a b ∧ a.2.isSome = true)
      ((tsNoise C).readMessage t data) ((cppNoise C).readMessage t.toCpp data) := by
  obtain ⟨i, sym, s, rand, e, rs, re, wc, rc⟩ := t
  obtain ⟨rfl, rfl, rfl⟩ := ht
  refine Agree.map (R := fun a b => a.1.initiator = false ∧ ∃ k1 k2 rs,
    a.2 = some ⟨.initializeKey k1, .initializeKey k2⟩
      ∧ b = (a.1.toCpp, some ⟨.initializeKey k2, .initializeKey k1, rs⟩)) ?_ ?_
  · simp only [Ts.HandshakeState.readMessage, toCpp, Cpp.HandshakeState.readMessage,
      Cpp.HandshakeState.readTokens, bind_assoc, pure_bind, Bool.false_eq_true, not_false_eq_true,
      true_and, if_true, one_ne_zero, false_and, if_false]
    have hs : slice data 0 (dhLen + tagLen) = data.take (dhLen + tagLen) := rfl
    by_cases hshort : data.length < dhLen + tagLen
    · refine .of_throws (.bind_right fun x hx => .bind_right fun e _ => ?_)
        ((Cpp.take_throws hshort).bind _)
      refine (dh_throws_of_short hC hk ?_ hx).bind _
      rw [hs, List.length_take]
      omega
    · have hlen : dhLen + tagLen ≤ data.length := Nat.le_of_not_lt hshort
      simp only [Cpp.take_of_le hlen, ok_bind, hs]
      refine .bind_self fun x hx => ?_
      have hkey : Cpp.toKey x.1 = x.1 :=
        Cpp.toKey_decrypted hC hk (by rw [List.length_take, Nat.min_eq_left hlen]) hx
      simp only [hkey]
      refine .bind_self fun e _ => .bind_self fun se _ => .bind_self fun y _ => ?_
      exact .ok ⟨rfl, _, _, _, rfl, rfl⟩
  · rintro ⟨⟨i, _⟩, r⟩ b ⟨hi, k1, k2, rs, rfl, rfl⟩
    obtain rfl : i = false := hi
    exact ⟨rfl, rfl⟩

theorem write_msg1_same (ht : t.At true 0 0) :
    ∃ msg1 t', (tsNoise C).writeMessage t = .ok (msg1, t', none) ∧ t'.At true 1 0
      ∧ (cppNoise C).writeMessage t.toCpp = .ok (msg1, t'.toCpp, none) := by
  obtain ⟨i, sym, s, rand, e, rs, re, wc, rc⟩ := t
  obtain ⟨rfl, rfl, rfl⟩ := ht
  exact ⟨_, _, rfl, ⟨rfl, rfl, rfl⟩, rfl⟩

theorem write_msg2_same (ht : t.At false 0 1) :
    Agree (fun a b => SameWritten a b ∧ a.2.1.At false 1 1 ∧ a.2.1.symmetric.HasKey ∧ a.2.2 = none)
      ((tsNoise C).writeMessage t) ((cppNoise C).writeMessage t.toCpp) := by
  obtain ⟨i, sym, s, rand, e, rs, re, wc, rc⟩ := t
  obtain ⟨rfl, rfl, rfl⟩ := ht
  refine Agree.map (R := fun a b => b = (a.1, a.2.1.toCpp, none) ∧ a.2.2 = none ∧ a.2.1.At false 1 1
    ∧ a.2.1.symmetric.HasKey) ?_ ?_
  · simp only [Ts.HandshakeState.writeMessage, toCpp, Cpp.HandshakeState.writeMessage,
      Cpp.HandshakeState.writeTokens, bind_assoc, pure_bind, Bool.false_eq_true, not_false_eq_true,
      true_and, if_true, false_and, if_false]
    refine .bind_self fun re _ => .bind_self fun ee _ => .bind_self fun es _ => ?_
    exact .ok ⟨rfl, rfl, ⟨rfl, rfl, rfl⟩, (SymmetricState.hasKey_mixKey _ _).encryptAndHash _⟩
  · rintro ⟨m, t, r⟩ b ⟨rfl, rfl, hat, hk⟩
    exact ⟨rfl, hat, hk, rfl⟩

theorem write_msg3_same (ht : t.At true 1 1) (hrs : t.rs.isSome = true) :
    Agree (fun a b => SameWritten a b ∧ a.2.2.isSome = true)
      ((tsNoise C).writeMessage t) ((cppNoise C).writeMessage t.toCpp) := by
  obtain ⟨i, sym, s, rand, e, rs, re, wc, rc⟩ := t
  obtain ⟨rfl, rfl, rfl⟩ := ht
  obtain ⟨rs, rfl⟩ := Option.isSome_iff_exists.1 hrs
  refine Agree.map (R := fun a b => a.2.1.initiator = true ∧ ∃ k1 k2 rs,
    a.2.2 = some ⟨.initializeKey k1, .initializeKey k2⟩
      ∧ b = (a.1, a.2.1.toCpp, some ⟨.initializeKey k1, .initializeKey k2, rs⟩)) ?_ ?_
  · simp only [Ts.HandshakeState.writeMessage, toCpp, Cpp.HandshakeState.writeMessage,
      Cpp.HandshakeState.writeTokens, bind_assoc, pure_bind, one_ne_zero, not_true, true_and,
      if_true, and_false, if_false]
    refine .bind_self fun re _ => .bind_self fun se _ => ?_
    exact .ok ⟨rfl, _, _, _, rfl, rfl⟩
  · rintro ⟨m, ⟨i, _⟩, r⟩ b ⟨hi, k1, k2, rs, rfl, rfl⟩
    obtain rfl : i = true := hi
    exact ⟨rfl, rfl⟩

end

/-! ## Sessions -/

/-- What can be seen of a session: its status and, once it is ready, the peer's static key and the
keys it sends and receives with. -/
structure Seen where
  status : SessionStatus
  ready : Option (Option Bytes × Option Bytes × Option Bytes)
  deriving DecidableEq, Repr

section

variable {N : Noise} (key : N.Key → Bytes)

def seen (s : Sdk.Session N) : Seen where
  status := s.status
  ready := if s.ready then
      some (s.peerStatic, s.sendCipher.map fun cs => key cs.key, s.recvCipher.map fun cs => key cs.key)
    else none

/-- The replies to the messages that a session is fed while it is handshaking, each with what is
then seen of the session. -/
def feed (port : Sdk.Port) : Sdk.Session N → List Bytes → List (Option Bytes × Seen)
  | _, [] => []
  | s, data :: rest =>
    if s.status = .handshaking then
      match s.handleHandshakeMessage port data with
      | none => []
      | some (s', reply) => (reply, seen key s') :: feed port s' rest
    else []

/-- A session from its start: what an initiator sends first, and then `feed`. -/
def transcript (port : Sdk.Port) (initiator : Bool) (hs : N.Hs) (messages : List Bytes) :
    Option (Option Bytes × List (Option Bytes × Seen)) :=
  if initiator then
    match N.writeMessage hs with
    | .error _ => none
    | .ok (msg1, hs, _) => some (some msg1, feed key port { initiator, hs } messages)
  else some (none, feed key port { initiator, hs } messages)

end

/-- Sessions of the two that correspond, in the handshake state as long as they use it. -/
structure Same (t : Sdk.Session (tsNoise C)) (c : Sdk.Session (cppNoise C)) : Prop where
  status : c.status = t.status
  initiator : c.initiator = t.initiator
  hs : t.status = .handshaking → c.hs = t.hs.toCpp
  peerStatic : c.peerStatic = t.peerStatic
  send : (c.sendCipher.map fun cs => (cs.key : Bytes)) = t.sendCipher.map fun cs => cs.key
  recv : (c.recvCipher.map fun cs => (cs.key : Bytes)) = t.recvCipher.map fun cs => cs.key

/-- Which message a session waits for. -/
inductive Waits (t : Sdk.Session (tsNoise C)) : Prop
  | msg1 (h : t.hs.At false 0 0) (hi : t.initiator = false) (hg : t.gotFirstMessage = false)
  | msg2 (h : t.hs.At true 1 0) (hi : t.initiator = true)
  | msg3 (h : t.hs.At false 1 1) (hk : t.hs.symmetric.HasKey) (hi : t.initiator = false)
      (hg : t.gotFirstMessage = true)

namespace Same

variable {t t' : Sdk.Session (tsNoise C)} {c c' : Sdk.Session (cppNoise C)}

theorem seen_eq (h : Same t c) :
    seen (N := cppNoise C) (fun key => key) c = seen (N := tsNoise C) (fun key => key) t := by
  have hready : c.ready = t.ready := by rw [Sdk.Session.ready, h.status, Sdk.Session.ready]
  simp only [seen, h.status, hready, h.peerStatic]
  rw [h.send, h.recv]
  rfl

/-- Once they have failed, their handshake states do not matter. -/
theorem fail (h : Same t c) (hs : Ts.HandshakeState) (hs' : Cpp.HandshakeState)
    (gotFirstMessage : Bool) :
    Same (Sdk.Session.fail { t with hs, gotFirstMessage }) (Sdk.Session.fail { c with hs := hs' }) :=
  ⟨rfl, h.initiator, nofun, h.peerStatic, h.send, h.recv⟩

theorem finish (h : Same t c) (ht : t.status = .handshaking) (keys : Bytes × Bytes) :
    Same (t.finish keys) (c.finish keys) := by
  refine ⟨rfl, h.initiator, nofun, ?_, ?_, ?_⟩
  · simp only [Sdk.Session.finish, h.hs ht]
    rfl
  · simp only [Sdk.Session.finish, h.initiator, Option.map_some]
    split_ifs <;> rfl
  · simp only [Sdk.Session.finish, h.initiator, Option.map_some]
    split_ifs <;> rfl

/-- With another handshake state, and whatever `gotFirstMessage` says. -/
theorem withHs (h : Same t c) (hs : Ts.HandshakeState) (gotFirstMessage : Bool) :
    Same { t with hs, gotFirstMessage } { c with hs := hs.toCpp } :=
  ⟨h.status, h.initiator, fun _ => rfl, h.peerStatic, h.send, h.recv⟩

end Same

/-- The two do the same with a message, and go on waiting for the same one. -/
def SameStep (t : Sdk.Session (tsNoise C)) (c : Sdk.Session (cppNoise C)) (data : Bytes) : Prop :=
  ∃ t' c' reply, t.handleTs data = some (t', reply) ∧ c.handleRustCpp data = (c', reply)
    ∧ Same t' c' ∧ (t'.status = .handshaking → Waits t')

section

variable {t : Sdk.Session (tsNoise C)} {c : Sdk.Session (cppNoise C)}

theorem sameStep_msg1 (hC : C.Sized) (h : Same t c) (ht : t.status = .handshaking)
    (hat : t.hs.At false 0 0) (hi : t.initiator = false) (hg : t.gotFirstMessage = false)
    (data : Bytes) : SameStep t c data := by
  obtain ⟨st, i, hs, g, sc, rc, ps⟩ := t
  obtain rfl : st = .handshaking := ht
  obtain rfl : i = false := hi
  obtain rfl : g = false := hg
  have hc : c.status = .handshaking := h.status
  have hhs : c.hs = hs.toCpp := h.hs rfl
  unfold SameStep Sdk.Session.handleTs Sdk.Session.handleRustCpp
  rw [if_neg (not_not.2 hc), hhs]
  simp only [ne_eq, not_true, Bool.false_eq_true, Bool.not_false, if_false, if_true]
  rcases Nat.lt_or_ge data.length dhLen with hlen | hlen
  · obtain ⟨⟨e, he⟩, hw⟩ := read_msg1_short hC hat hlen
    rw [he]
    rcases hr : (tsNoise C).readMessage hs data with e' | ⟨hs₁, r⟩
    · exact ⟨_, _, _, rfl, rfl, h.fail hs c.hs true, nofun⟩
    · obtain ⟨e', he'⟩ := hw _ hr
      simp only [he']
      exact ⟨_, _, _, rfl, rfl, h.fail hs₁ c.hs true, nofun⟩
  · obtain ⟨e, e', hr, hr'⟩ | ⟨⟨hs₁, _⟩, b, hr, hr', rfl, rfl, hat₁⟩ :=
      (read_msg1_same (C := C) hat hlen).elim
    · rw [hr, hr']
      exact ⟨_, _, _, rfl, rfl, h.fail hs c.hs true, nofun⟩
    · obtain ⟨e, e', hw, hw'⟩ | ⟨⟨m, hs₂, _⟩, b, hw, hw', rfl, hat₂, hk, rfl⟩ :=
        (write_msg2_same (C := C) hat₁).elim
      · simp only [hr, hr', hw, hw']
        exact ⟨_, _, _, rfl, rfl, h.fail hs₁ hs₁.toCpp true, nofun⟩
      · simp only [hr, hr', hw, hw']
        exact ⟨_, _, _, rfl, rfl, h.withHs hs₂ true, fun _ => .msg3 hat₂ hk rfl rfl⟩

theorem sameStep_msg2 (hC : C.Sized) (h : Same t c) (ht : t.status = .handshaking)
    (hat : t.hs.At true 1 0) (hi : t.initiator = true) (data : Bytes) : SameStep t c data := by
  obtain ⟨st, i, hs, g, sc, rc, ps⟩ := t
  obtain rfl : st = .handshaking := ht
  obtain rfl : i = true := hi
  have hc : c.status = .handshaking := h.status
  have hhs : c.hs = hs.toCpp := h.hs rfl
  unfold SameStep Sdk.Session.handleTs Sdk.Session.handleRustCpp
  rw [if_neg (not_not.2 hc), hhs]
  simp only [ne_eq, not_true, if_false, if_true]
  obtain ⟨e, e', hr, hr'⟩ | ⟨⟨hs₁, _⟩, b, hr, hr', rfl, rfl, hat₁, hrs⟩ :=
    (read_msg2_same hC hat data).elim
  · rw [hr, hr']
    exact ⟨_, _, _, rfl, rfl, h.fail hs c.hs g, nofun⟩
  · obtain ⟨e, e', hw, hw'⟩ | ⟨⟨m, hs₂, split⟩, b, hw, hw', rfl, hsplit⟩ :=
      (write_msg3_same (C := C) hat₁ hrs).elim
    · simp only [hr, hr', hw, hw']
      exact ⟨_, _, _, rfl, rfl, h.fail hs₁ hs₁.toCpp g, nofun⟩
    · obtain ⟨keys, rfl⟩ := Option.isSome_iff_exists.1 hsplit
      simp only [hr, hr', hw, hw']
      exact ⟨_, _, _, rfl, rfl, (h.withHs hs₂ g).finish rfl keys, nofun⟩

theorem sameStep_msg3 (hC : C.Sized) (h : Same t c) (ht : t.status = .handshaking)
    (hat : t.hs.At false 1 1) (hk : t.hs.symmetric.HasKey) (hi : t.initiator = false)
    (hg : t.gotFirstMessage = true) (data : Bytes) : SameStep t c data := by
  obtain ⟨st, i, hs, g, sc, rc, ps⟩ := t
  obtain rfl : st = .handshaking := ht
  obtain rfl : i = false := hi
  obtain rfl : g = true := hg
  have hc : c.status = .handshaking := h.status
  have hhs : c.hs = hs.toCpp := h.hs rfl
  unfold SameStep Sdk.Session.handleTs Sdk.Session.handleRustCpp
  rw [if_neg (not_not.2 hc), hhs]
  simp only [ne_eq, not_true, Bool.false_eq_true, Bool.not_true, if_false]
  obtain ⟨e, e', hr, hr'⟩ | ⟨⟨hs₁, split⟩, b, hr, hr', rfl, hsplit⟩ :=
    (read_msg3_same hC hat hk data).elim
  · rw [hr, hr']
    exact ⟨_, _, _, rfl, rfl, h.fail hs c.hs true, nofun⟩
  · obtain ⟨keys, rfl⟩ := Option.isSome_iff_exists.1 hsplit
    simp only [hr, hr']
    exact ⟨_, _, _, rfl, rfl, (h.withHs hs₁ true).finish rfl keys, nofun⟩

theorem Waits.sameStep (hw : Waits t) (hC : C.Sized) (h : Same t c) (ht : t.status = .handshaking)
    (data : Bytes) : SameStep t c data := by
  cases hw with
  | msg1 hat hi hg => exact sameStep_msg1 hC h ht hat hi hg data
  | msg2 hat hi => exact sameStep_msg2 hC h ht hat hi data
  | msg3 hat hk hi hg => exact sameStep_msg3 hC h ht hat hk hi hg data

end

/-- Sessions that correspond give the same replies and are seen to be the same, message after
message. -/
theorem feed_eq (hC : C.Sized) : ∀ (messages : List Bytes) {t : Sdk.Session (tsNoise C)}
    {c : Sdk.Session (cppNoise C)}, Same t c → (t.status = .handshaking → Waits t) →
    feed (N := cppNoise C) (fun key => key) .cpp c messages
      = feed (N := tsNoise C) (fun key => key) .ts t messages
  | [], _, _, _, _ => rfl
  | data :: rest, t, c, h, hw => by
    simp only [feed, h.status]
    by_cases ht : t.status = .handshaking
    · obtain ⟨t', c', reply, hstep, hstep', hsame, hw'⟩ := (hw ht).sameStep hC h ht data
      simp only [if_pos ht, Sdk.Session.handleHandshakeMessage, hstep, hstep', hsame.seen_eq,
        feed_eq hC rest hsame hw']
    · rw [if_neg ht, if_neg ht]

/-- For either role, every static key pair, every ephemeral key and every sequence of byte strings
fed as handshake messages, the two send the same and are seen to be in the same state after each. -/
theorem transcript_ts_eq_cpp (P : Primitives) (hP : P.Lawful) (initiator : Bool) (s : KeyPair)
    (ephemeral : Bytes) (messages : List Bytes) :
    ∃ tr, transcript (N := tsNoise P.ts) (fun key => key) .ts initiator
        (Ts.HandshakeState.new P.ts initiator s ephemeral) messages = some tr
      ∧ transcript (N := cppNoise P.cpp) (fun key => key) .cpp initiator
        (Cpp.HandshakeState.new P.cpp initiator s ephemeral) messages = some tr := by
  rw [← Primitives.ts_eq_cpp hP]
  have hC := hP.sized
  cases initiator with
  | true =>
    obtain ⟨msg1, t', hw, hat, hw'⟩ := write_msg1_same (C := P.ts)
      (t := .new P.ts true s ephemeral) ⟨rfl, rfl, rfl⟩
    refine ⟨(some msg1, feed (N := tsNoise P.ts) (fun key => key) .ts
      { initiator := true, hs := t' } messages), by simp only [transcript, if_true, hw], ?_⟩
    have hc : (cppNoise P.ts).writeMessage (Cpp.HandshakeState.new P.ts true s ephemeral)
        = .ok (msg1, t'.toCpp, none) := hw'
    simp only [transcript, if_true, hc]
    rw [feed_eq hC messages (t := { initiator := true, hs := t' })
      ⟨rfl, rfl, fun _ => rfl, rfl, rfl, rfl⟩ fun _ => .msg2 hat rfl]
  | false =>
    refine ⟨_, rfl, ?_⟩
    simp only [transcript, Bool.false_eq_true, if_false]
    rw [feed_eq hC messages (t := { initiator := false, hs := .new P.ts false s ephemeral })
      ⟨rfl, rfl, fun _ => rfl, rfl, rfl, rfl⟩ fun _ => .msg1 ⟨rfl, rfl, rfl⟩ rfl rfl]

/-- Primitives without the cryptography: a key is its own public key, a hash is what the data begins
with, and the tag is 16 zeros. -/
def plainPrimitives : Primitives where
  publicKey priv := priv
  dh a b := if b.length = dhLen then .ok (List.zipWith (· + ·) a b) else .error "bad key"
  hash data := (data ++ List.replicate hashLen 0).take hashLen
  aeadEncrypt _ _ _ plaintext := plaintext ++ List.replicate tagLen 0
  aeadDecrypt _ _ _ ciphertext :=
    if ciphertext.length < tagLen then .error "too short"
    else if ciphertext.drop (ciphertext.length - tagLen) = List.replicate tagLen 0 then
      .ok (ciphertext.take (ciphertext.length - tagLen))
    else .error "invalid tag"

theorem plainPrimitives_lawful : plainPrimitives.Lawful where
  length_hash data := by simp [plainPrimitives, hashLen]
  dh_length privateKey publicKey h := ⟨_, if_neg h⟩
  length_aeadDecrypt key nonce ad ciphertext plaintext h := by
    simp only [plainPrimitives] at h
    split_ifs at h with hshort htag
    rw [← Except.ok.inj h, List.length_take]
    omega

/-- A `msg2` under them. -/
def plainMsg2 : Bytes :=
  List.replicate 32 4 ++ (List.replicate 32 3 ++ List.replicate 16 0) ++ List.replicate 16 0

/-- What the TypeScript session of an initiator does with it. -/
def plainTranscript : Option (Option Bytes × List (Option Bytes × Seen)) :=
  transcript (N := tsNoise plainPrimitives.ts) (fun key => key) .ts true
    (Ts.HandshakeState.new plainPrimitives.ts true ⟨List.replicate 32 1, List.replicate 32 1⟩
      (List.replicate 32 2)) [plainMsg2]

theorem transcript_ts_eq_cpp_msg2 :
    (∃ tr, plainTranscript = some tr
      ∧ transcript (N := cppNoise plainPrimitives.cpp) (fun key => key) .cpp true
        (Cpp.HandshakeState.new plainPrimitives.cpp true
          ⟨List.replicate 32 1, List.replicate 32 1⟩ (List.replicate 32 2)) [plainMsg2] = some tr)
    ∧ plainTranscript.map (fun tr => tr.2.map fun r => (r.2.status, r.2.ready.map Prod.fst))
      = some [(.ready, some (some (List.replicate 32 3)))] :=
  ⟨transcript_ts_eq_cpp plainPrimitives plainPrimitives_lawful _ _ _ _, by decide +kernel⟩

end Relayly.NoiseXX
