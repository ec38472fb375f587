import Relayly.NoiseXX.Handshake
import Relayly.Sdk.Session
import Mathlib.Tactic.Common

/-!
# The hand-written handshakes complete

Both sides of an exchange go through one sequence of symmetric states, in which `Exchange` has
the three shared secrets: a side that encrypts moves on as the side that decrypts does
(`decryptAndHash_encryptAndHash`). Each message of an implementation takes its two parties from
one state of the sequence to the next.
-/

namespace Relayly.NoiseXX

variable {C : Crypto}

/-- What is assumed of the primitives. -/
structure Crypto.Lawful (C : Crypto) : Prop where
  dh_comm : ∀ a b, C.dh a (C.publicKey b) = C.dh b (C.publicKey a)
  opens : ∀ key n ad plaintext,
    C.aeadDecrypt key n ad (C.aeadEncrypt key n ad plaintext) = .ok plaintext
  length_aeadEncrypt : ∀ key n ad plaintext,
    (C.aeadEncrypt key n ad plaintext).length = plaintext.length + tagLen

theorem ok_bind {ε α β : Type} (a : α) (f : α → Except ε β) : (Except.ok a >>= f) = f a := rfl

namespace SymmetricState

variable {s : SymmetricState}

/-- Decrypting in the state that a ciphertext was made in gives the plaintext and the state that
making it led to. -/
theorem decryptAndHash_encryptAndHash (hC : C.Lawful) (s : SymmetricState) (plaintext : Bytes) :
    s.decryptAndHash C (s.encryptAndHash C plaintext).1
      = .ok (plaintext, (s.encryptAndHash C plaintext).2) := by
  unfold decryptAndHash encryptAndHash CipherState.decryptWithAd CipherState.encryptWithAd
  cases hk : s.cipherState.key with
  | none => simp
  | some key => simp [hC.opens]

/-- A key has been mixed in. -/
def HasKey (s : SymmetricState) : Prop := s.cipherState.key.isSome = true

theorem hasKey_mixKey (s : SymmetricState) (inputKeyMaterial : Bytes) :
    (s.mixKey C inputKeyMaterial).HasKey := rfl

theorem HasKey.encryptAndHash (h : s.HasKey) (plaintext : Bytes) :
    (s.encryptAndHash C plaintext).2.HasKey := by
  obtain ⟨key, hk⟩ := Option.isSome_iff_exists.1 h
  simp [HasKey, SymmetricState.encryptAndHash, CipherState.encryptWithAd, hk, mixHash]

theorem HasKey.length_encryptAndHash (h : s.HasKey) (hC : C.Lawful) (plaintext : Bytes) :
    (s.encryptAndHash C plaintext).1.length = plaintext.length + tagLen := by
  obtain ⟨key, hk⟩ := Option.isSome_iff_exists.1 h
  simp [SymmetricState.encryptAndHash, CipherState.encryptWithAd, hk, hC.length_aeadEncrypt]

end SymmetricState

/-- The private keys of the two sides, static and ephemeral, with the secrets they share. -/
structure Exchange (C : Crypto) where
  si : Bytes
  ei : Bytes
  sr : Bytes
  er : Bytes
  ee : Bytes
  es : Bytes
  se : Bytes
  length_si : (C.publicKey si).length = dhLen
  length_ei : (C.publicKey ei).length = dhLen
  length_sr : (C.publicKey sr).length = dhLen
  length_er : (C.publicKey er).length = dhLen
  ee_initiator : C.dh ei (C.publicKey er) = .ok ee
  ee_responder : C.dh er (C.publicKey ei) = .ok ee
  es_initiator : C.dh ei (C.publicKey sr) = .ok es
  es_responder : C.dh sr (C.publicKey ei) = .ok es
  se_initiator : C.dh si (C.publicKey er) = .ok se
  se_responder : C.dh er (C.publicKey si) = .ok se

namespace Exchange

variable (X : Exchange C)

/-- Both sides before the first message. -/
def start (_ : Exchange C) : SymmetricState :=
  (SymmetricState.initializeSymmetric C protocolName).mixHash C []

/-- The payload of the first message and the state after it. -/
def payload1 : Bytes × SymmetricState :=
  (X.start.mixHash C (C.publicKey X.ei)).encryptAndHash C []

/-- The responder's static key in the second message. -/
def static2 : Bytes × SymmetricState :=
  ((X.payload1.2.mixHash C (C.publicKey X.er)).mixKey C X.ee).encryptAndHash C (C.publicKey X.sr)

def payload2 : Bytes × SymmetricState := (X.static2.2.mixKey C X.es).encryptAndHash C []

/-- The initiator's static key in the third message. -/
def static3 : Bytes × SymmetricState := X.payload2.2.encryptAndHash C (C.publicKey X.si)

def payload3 : Bytes × SymmetricState := (X.static3.2.mixKey C X.se).encryptAndHash C []

def msg1 : Bytes := C.publicKey X.ei ++ X.payload1.1

def msg2 : Bytes := C.publicKey X.er ++ X.static2.1 ++ X.payload2.1

def msg3 : Bytes := X.static3.1 ++ X.payload3.1

variable {X} (hC : C.Lawful)

include hC

theorem length_static2 : X.static2.1.length = dhLen + tagLen := by
  rw [static2, (SymmetricState.hasKey_mixKey _ _).length_encryptAndHash hC, X.length_sr]

theorem length_static3 : X.static3.1.length = dhLen + tagLen := by
  have hk : X.payload2.2.HasKey := (SymmetricState.hasKey_mixKey _ _).encryptAndHash []
  rw [static3, hk.length_encryptAndHash hC, X.length_si]

/-- What the receiving side does with the payload of the first message, and so on. -/
theorem decrypt_payload1 :
    (X.start.mixHash C (C.publicKey X.ei)).decryptAndHash C X.payload1.1
      = .ok ([], X.payload1.2) :=
  SymmetricState.decryptAndHash_encryptAndHash hC _ _

theorem decrypt_static2 :
    ((X.payload1.2.mixHash C (C.publicKey X.er)).mixKey C X.ee).decryptAndHash C X.static2.1
      = .ok (C.publicKey X.sr, X.static2.2) :=
  SymmetricState.decryptAndHash_encryptAndHash hC _ _

theorem decrypt_payload2 :
    (X.static2.2.mixKey C X.es).decryptAndHash C X.payload2.1 = .ok ([], X.payload2.2) :=
  SymmetricState.decryptAndHash_encryptAndHash hC _ _

theorem decrypt_static3 :
    X.payload2.2.decryptAndHash C X.static3.1 = .ok (C.publicKey X.si, X.static3.2) :=
  SymmetricState.decryptAndHash_encryptAndHash hC _ _

theorem decrypt_payload3 :
    (X.static3.2.mixKey C X.se).decryptAndHash C X.payload3.1 = .ok ([], X.payload3.2) :=
  SymmetricState.decryptAndHash_encryptAndHash hC _ _

end Exchange

/-! ## TypeScript -/

namespace Ts

open HandshakeState Exchange

variable (X : Exchange C)

/-- The initiator after each of its messages. -/
def initiator0 : HandshakeState := new C true (C.keyPair X.si) X.ei

def initiator1 : HandshakeState :=
  { initiator0 X with
    e := some (C.keyPair X.ei), symmetric := X.payload1.2, writeCount := 1 }

def initiator2 : HandshakeState :=
  { initiator1 X with
    re := some (C.publicKey X.er), rs := some (C.publicKey X.sr), symmetric := X.payload2.2
    readCount := 1 }

def initiator3 : HandshakeState :=
  { initiator2 X with symmetric := X.payload3.2, writeCount := 2 }

/-- The responder after each of its messages. -/
def responder0 : HandshakeState := new C false (C.keyPair X.sr) X.er

def responder1 : HandshakeState :=
  { responder0 X with
    re := some (C.publicKey X.ei), symmetric := X.payload1.2, readCount := 1 }

def responder2 : HandshakeState :=
  { responder1 X with e := some (C.keyPair X.er), symmetric := X.payload2.2, writeCount := 1 }

def responder3 : HandshakeState :=
  { responder2 X with
    rs := some (C.publicKey X.si), symmetric := X.payload3.2, readCount := 2 }

theorem write_msg1 : (initiator0 X).writeMessage C = .ok (X.msg1, initiator1 X, none) := rfl

theorem write_msg2 : (responder1 X).writeMessage C = .ok (X.msg2, responder2 X, none) := by
  simp only [HandshakeState.writeMessage, responder1, responder0, new, required, Crypto.keyPair,
    ok_bind, X.ee_responder, X.es_responder, Bool.false_eq_true, false_and, not_false_eq_true,
    true_and, if_true, if_false]
  rfl

theorem write_msg3 : (initiator2 X).writeMessage C
    = .ok (X.msg3, initiator3 X, some (result C X.payload3.2)) := by
  simp only [HandshakeState.writeMessage, initiator2, initiator1, initiator0, new, required,
    Crypto.keyPair, ok_bind, X.se_initiator]
  rfl

theorem read_msg1 (hC : C.Lawful) :
    (responder0 X).readMessage C X.msg1 = .ok (responder1 X, none) := by
  have he : slice X.msg1 0 dhLen = C.publicKey X.ei := List.take_left' X.length_ei
  have hp : X.msg1.drop dhLen = X.payload1.1 := List.drop_left' X.length_ei
  have hd : ((responder0 X).symmetric.mixHash C (C.publicKey X.ei)).decryptAndHash C X.payload1.1
      = .ok ([], X.payload1.2) := decrypt_payload1 hC
  simp only [HandshakeState.readMessage, he, hp, hd, ok_bind]
  rfl

theorem read_msg2 (hC : C.Lawful) :
    (initiator1 X).readMessage C X.msg2 = .ok (initiator2 X, none) := by
  have he : slice X.msg2 0 dhLen = C.publicKey X.er := by
    rw [slice, msg2, List.append_assoc]
    exact List.take_left' X.length_er
  have hs : slice X.msg2 dhLen (dhLen + dhLen + tagLen) = X.static2.1 := by
    rw [slice, msg2, List.append_assoc, List.drop_left' X.length_er]
    exact List.take_left' (length_static2 hC)
  have hp : X.msg2.drop (dhLen + dhLen + tagLen) = X.payload2.1 := by
    refine List.drop_left' ?_
    rw [List.length_append, X.length_er, length_static2 hC]
    rfl
  have hd : (((initiator1 X).symmetric.mixHash C (C.publicKey X.er)).mixKey C X.ee).decryptAndHash C
      X.static2.1 = .ok (C.publicKey X.sr, X.static2.2) := decrypt_static2 hC
  have hee : C.dh (C.keyPair X.ei).privateKey (C.publicKey X.er) = .ok X.ee := X.ee_initiator
  have hes : C.dh (C.keyPair X.ei).privateKey (C.publicKey X.sr) = .ok X.es := X.es_initiator
  have hre : required (initiator1 X).e = .ok (C.keyPair X.ei) := rfl
  simp only [HandshakeState.readMessage, he, hs, hp, hre, hd, hee, hes, decrypt_payload2 hC, ok_bind]
  rfl

theorem read_msg3 (hC : C.Lawful) : (responder2 X).readMessage C X.msg3
    = .ok (responder3 X, some (result C X.payload3.2)) := by
  have hs : slice X.msg3 0 (dhLen + tagLen) = X.static3.1 := List.take_left' (length_static3 hC)
  have hp : X.msg3.drop (dhLen + tagLen) = X.payload3.1 := List.drop_left' (length_static3 hC)
  have hd : (responder2 X).symmetric.decryptAndHash C X.static3.1
      = .ok (C.publicKey X.si, X.static3.2) := decrypt_static3 hC
  have hse : C.dh (C.keyPair X.er).privateKey (C.publicKey X.si) = .ok X.se := X.se_responder
  have hre : required (responder2 X).e = .ok (C.keyPair X.er) := rfl
  simp only [HandshakeState.readMessage, hs, hp, hre, hd, hse, decrypt_payload3 hC, ok_bind]
  rfl

theorem pass_eq (hC : C.Lawful) :
    pass (HandshakeState.writeMessage C) (HandshakeState.readMessage C) (initiator0 X) (responder0 X)
      = .ok ((initiator3 X, some (result C X.payload3.2)), responder3 X,
        some (result C X.payload3.2)) := by
  simp only [pass, write_msg1, read_msg1 X hC, write_msg2, read_msg2 X hC, write_msg3,
    read_msg3 X hC, ok_bind]
  rfl

end Ts

/-! ## C++ -/

namespace Cpp

open HandshakeState Exchange

variable (X : Exchange C)

theorem toKey_of_length {b : Bytes} (h : b.length = dhLen) : toKey b = b := by
  simp [toKey, ← h]

theorem take_append {n : ℕ} {a b : Bytes} (h : a.length = n) : take n (a ++ b) = .ok (a, b) := by
  simp [take, ← h]

/-- The initiator after each of its messages. -/
def initiator0 : HandshakeState := new C true (C.keyPair X.si) X.ei

def initiator1 : HandshakeState :=
  { initiator0 X with
    e := some (C.keyPair X.ei), symmetric := X.payload1.2, messageIndex := 1 }

def initiator2 : HandshakeState :=
  { initiator1 X with
    re := some (C.publicKey X.er), rs := some (C.publicKey X.sr), symmetric := X.payload2.2
    messageIndex := 2 }

def initiator3 : HandshakeState :=
  { initiator2 X with symmetric := X.payload3.2, messageIndex := 3 }

/-- The responder after each of its messages. -/
def responder0 : HandshakeState := new C false (C.keyPair X.sr) X.er

def responder1 : HandshakeState :=
  { responder0 X with
    re := some (C.publicKey X.ei), symmetric := X.payload1.2, messageIndex := 1 }

def responder2 : HandshakeState :=
  { responder1 X with e := some (C.keyPair X.er), symmetric := X.payload2.2, messageIndex := 2 }

def responder3 : HandshakeState :=
  { responder2 X with
    rs := some (C.publicKey X.si), symmetric := X.payload3.2, messageIndex := 3 }

theorem write_msg1 : (initiator0 X).writeMessage C = .ok (X.msg1, initiator1 X, none) := rfl

theorem write_msg2 : (responder1 X).writeMessage C = .ok (X.msg2, responder2 X, none) := by
  simp only [HandshakeState.writeMessage, writeTokens, responder1, responder0, new, required,
    Crypto.keyPair, ok_bind, X.ee_responder, X.es_responder]
  rfl

/-- What `Split` gives the initiator. -/
def splitI : SplitResult :=
  ⟨(X.payload3.2.split C).1, (X.payload3.2.split C).2, C.publicKey X.sr⟩

/-- What `Split` gives the responder. -/
def splitR : SplitResult :=
  ⟨(X.payload3.2.split C).2, (X.payload3.2.split C).1, C.publicKey X.si⟩

theorem write_msg3 : (initiator2 X).writeMessage C
    = .ok (X.msg3, initiator3 X, some (splitI X)) := by
  simp only [HandshakeState.writeMessage, writeTokens, initiator2, initiator1, initiator0, new,
    required, Crypto.keyPair, ok_bind, X.se_initiator]
  rfl

theorem read_msg1 (hC : C.Lawful) :
    (responder0 X).readMessage C X.msg1 = .ok (responder1 X, none) := by
  have hd : ((responder0 X).symmetric.mixHash C (C.publicKey X.ei)).decryptAndHash C X.payload1.1
      = .ok ([], X.payload1.2) := decrypt_payload1 hC
  have ht : (responder0 X).readTokens C X.msg1 = .ok ({ responder0 X with
      re := some (C.publicKey X.ei)
      symmetric := (responder0 X).symmetric.mixHash C (C.publicKey X.ei) }, X.payload1.1) := by
    simp only [readTokens, responder0, new, msg1, take_append X.length_ei,
      toKey_of_length X.length_ei, ok_bind]
    rfl
  simp only [HandshakeState.readMessage, ht, hd, ok_bind]
  rfl

theorem read_msg2 (hC : C.Lawful) :
    (initiator1 X).readMessage C X.msg2 = .ok (initiator2 X, none) := by
  have hd := decrypt_static2 (X := X) hC
  have ht : (initiator1 X).readTokens C X.msg2 = .ok ({ initiator1 X with
      re := some (C.publicKey X.er)
      rs := some (C.publicKey X.sr)
      symmetric := X.static2.2.mixKey C X.es }, X.payload2.1) := by
    simp only [readTokens, initiator1, initiator0, new, msg2, List.append_assoc, required,
      Crypto.keyPair, take_append X.length_er, take_append (length_static2 hC),
      toKey_of_length X.length_er, toKey_of_length X.length_sr, X.ee_initiator, X.es_initiator, hd,
      ok_bind]
    rfl
  simp only [HandshakeState.readMessage, ht, decrypt_payload2 hC, ok_bind]
  rfl

theorem read_msg3 (hC : C.Lawful) :
    (responder2 X).readMessage C X.msg3 = .ok (responder3 X, some (splitR X)) := by
  have hd := decrypt_static3 (X := X) hC
  have ht : (responder2 X).readTokens C X.msg3 = .ok ({ responder2 X with
      rs := some (C.publicKey X.si)
      symmetric := X.static3.2.mixKey C X.se }, X.payload3.1) := by
    simp only [readTokens, responder2, responder1, responder0, new, msg3, required, Crypto.keyPair,
      take_append (length_static3 hC), toKey_of_length X.length_si, X.se_responder, hd, ok_bind]
    rfl
  simp only [HandshakeState.readMessage, ht, decrypt_payload3 hC, ok_bind]
  rfl

theorem pass_eq (hC : C.Lawful) :
    pass (HandshakeState.writeMessage C) (HandshakeState.readMessage C) (initiator0 X) (responder0 X)
      = .ok ((initiator3 X, some (splitI X)), responder3 X, some (splitR X)) := by
  simp only [pass, write_msg1, read_msg1 X hC, write_msg2, read_msg2 X hC, write_msg3,
    read_msg3 X hC, ok_bind]
  rfl

end Cpp

/-! ## Both -/

/-- Between two parties with 32-byte public keys on which DH does not fail, the three messages
succeed, and both ends come out with one chaining key, one hash, each other's static key and each
other's cipher states, at nonce 0. -/
theorem handshake_completes (C : Crypto) (hC : C.Lawful) (si ei sr er ee es se : Bytes)
    (hlen : ∀ key ∈ [si, ei, sr, er], (C.publicKey key).length = dhLen)
    (hee : C.dh ei (C.publicKey er) = .ok ee) (hes : C.dh ei (C.publicKey sr) = .ok es)
    (hse : C.dh si (C.publicKey er) = .ok se) :
    (∃ (i r : Ts.HandshakeState) (splitI splitR : Ts.HandshakeResult),
      pass (Ts.HandshakeState.writeMessage C) (Ts.HandshakeState.readMessage C)
          (.new C true (C.keyPair si) ei) (.new C false (C.keyPair sr) er)
        = .ok ((i, some splitI), r, some splitR)
      ∧ i.symmetric.ck = r.symmetric.ck ∧ i.symmetric.h = r.symmetric.h
      ∧ i.rs = some (C.publicKey sr) ∧ r.rs = some (C.publicKey si)
      ∧ (splitI.ciphers true).1 = (splitR.ciphers false).2
      ∧ (splitI.ciphers true).2 = (splitR.ciphers false).1
      ∧ (splitI.ciphers true).1.n = 0 ∧ (splitI.ciphers true).2.n = 0)
    ∧ ∃ (i r : Cpp.HandshakeState) (splitI splitR : Cpp.SplitResult),
      pass (Cpp.HandshakeState.writeMessage C) (Cpp.HandshakeState.readMessage C)
          (.new C true (C.keyPair si) ei) (.new C false (C.keyPair sr) er)
        = .ok ((i, some splitI), r, some splitR)
      ∧ i.symmetric.ck = r.symmetric.ck ∧ i.symmetric.h = r.symmetric.h
      ∧ splitI.peerStatic = C.publicKey sr ∧ splitR.peerStatic = C.publicKey si
      ∧ splitI.send = splitR.recv ∧ splitI.recv = splitR.send
      ∧ splitI.send.n = 0 ∧ splitI.recv.n = 0 := by
  let X : Exchange C := {
    si, ei, sr, er, ee, es, se
    length_si := hlen si (by simp)
    length_ei := hlen ei (by simp)
    length_sr := hlen sr (by simp)
    length_er := hlen er (by simp)
    ee_initiator := hee
    ee_responder := by rw [hC.dh_comm, hee]
    es_initiator := hes
    es_responder := by rw [hC.dh_comm, hes]
    se_initiator := hse
    se_responder := by rw [hC.dh_comm, hse] }
  exact ⟨⟨_, _, _, _, Ts.pass_eq X hC, rfl, rfl, rfl, rfl, rfl, rfl, rfl, rfl⟩,
    ⟨_, _, _, _, Cpp.pass_eq X hC, rfl, rfl, rfl, rfl, rfl, rfl, rfl, rfl⟩⟩

/-! ## The sessions over them -/

/-- A library taking two parties that pass its messages to the end of the pattern. -/
structure Completion (N : Noise) (pub : Bytes → Bytes) (pa ra pb rb : Bytes) where
  (hi0 hi1 hi2 hi3 hr0 hr1 hr2 hr3 : N.Hs)
  (m1 m2 m3 : Bytes)
  keys : N.Key × N.Key
  new_initiator : N.newHandshakeState true pa ra = .ok hi0
  new_responder : N.newHandshakeState false pb rb = .ok hr0
  write1 : N.writeMessage hi0 = .ok (m1, hi1, none)
  read1 : N.readMessage hr0 m1 = .ok (hr1, none)
  write2 : N.writeMessage hr1 = .ok (m2, hr2, none)
  read2 : N.readMessage hi1 m2 = .ok (hi2, none)
  write3 : N.writeMessage hi2 = .ok (m3, hi3, some keys)
  read3 : N.readMessage hr2 m3 = .ok (hr3, some keys)
  peerStatic_initiator : N.peerStatic hi3 = pub pb
  peerStatic_responder : N.peerStatic hr3 = pub pa

theorem tsNoise_writeMessage {hs hs' : Ts.HandshakeState} {m : Bytes} {r : Option Ts.HandshakeResult}
    (h : hs.writeMessage C = .ok (m, hs', r)) : (tsNoise C).writeMessage hs
      = .ok (m, hs', r.bind fun r => keysOf r.cipherState1 r.cipherState2) := by
  simp only [tsNoise, h, Except.map]

theorem tsNoise_readMessage {hs hs' : Ts.HandshakeState} {m : Bytes} {r : Option Ts.HandshakeResult}
    (h : hs.readMessage C m = .ok (hs', r)) : (tsNoise C).readMessage hs m
      = .ok (hs', r.bind fun r => keysOf r.cipherState1 r.cipherState2) := by
  simp only [tsNoise, h, Except.map]

theorem cppNoise_writeMessage {hs hs' : Cpp.HandshakeState} {m : Bytes} {r : Option Cpp.SplitResult}
    (h : hs.writeMessage C = .ok (m, hs', r)) :
    (cppNoise C).writeMessage hs = .ok (m, hs', r.bind (·.keys hs'.initiator)) := by
  simp only [cppNoise, h, Except.map]

theorem cppNoise_readMessage {hs hs' : Cpp.HandshakeState} {m : Bytes} {r : Option Cpp.SplitResult}
    (h : hs.readMessage C m = .ok (hs', r)) :
    (cppNoise C).readMessage hs m = .ok (hs', r.bind (·.keys hs'.initiator)) := by
  simp only [cppNoise, h, Except.map]

def tsCompletion (hC : C.Lawful) (X : Exchange C) :
    Completion (tsNoise C) C.publicKey X.si X.ei X.sr X.er where
  hi0 := Ts.initiator0 X
  hi1 := Ts.initiator1 X
  hi2 := Ts.initiator2 X
  hi3 := Ts.initiator3 X
  hr0 := Ts.responder0 X
  hr1 := Ts.responder1 X
  hr2 := Ts.responder2 X
  hr3 := Ts.responder3 X
  m1 := X.msg1
  m2 := X.msg2
  m3 := X.msg3
  keys := C.hkdf X.payload3.2.ck []
  new_initiator := rfl
  new_responder := rfl
  write1 := tsNoise_writeMessage (Ts.write_msg1 X)
  read1 := tsNoise_readMessage (Ts.read_msg1 X hC)
  write2 := tsNoise_writeMessage (Ts.write_msg2 X)
  read2 := tsNoise_readMessage (Ts.read_msg2 X hC)
  write3 := tsNoise_writeMessage (Ts.write_msg3 X)
  read3 := tsNoise_readMessage (Ts.read_msg3 X hC)
  peerStatic_initiator := rfl
  peerStatic_responder := rfl

def cppCompletion (hC : C.Lawful) (X : Exchange C) :
    Completion (cppNoise C) C.publicKey X.si X.ei X.sr X.er where
  hi0 := Cpp.initiator0 X
  hi1 := Cpp.initiator1 X
  hi2 := Cpp.initiator2 X
  hi3 := Cpp.initiator3 X
  hr0 := Cpp.responder0 X
  hr1 := Cpp.responder1 X
  hr2 := Cpp.responder2 X
  hr3 := Cpp.responder3 X
  m1 := X.msg1
  m2 := X.msg2
  m3 := X.msg3
  keys := C.hkdf X.payload3.2.ck []
  new_initiator := rfl
  new_responder := rfl
  write1 := cppNoise_writeMessage (Cpp.write_msg1 X)
  read1 := cppNoise_readMessage (Cpp.read_msg1 X hC)
  write2 := cppNoise_writeMessage (Cpp.write_msg2 X)
  read2 := cppNoise_readMessage (Cpp.read_msg2 X hC)
  write3 := cppNoise_writeMessage (Cpp.write_msg3 X)
  read3 := cppNoise_readMessage (Cpp.read_msg3 X hC)
  peerStatic_initiator := rfl
  peerStatic_responder := rfl

/-- The sessions of a port over such a library are ready after the three messages, each with the
other's key and with its ciphers the other way round. -/
theorem Completion.sessions {N : Noise} {pub : Bytes → Bytes} {pa ra pb rb : Bytes}
    (c : Completion N pub pa ra pb rb) (port : Sdk.Port) :
    ∃ a b a' b' b'' : Sdk.Session N,
      Sdk.asInitiator N pa ra = .ok (a, c.m1) ∧ Sdk.asResponder N pb rb = .ok b
      ∧ b.handleHandshakeMessage port c.m1 = some (b', some c.m2)
      ∧ a.handleHandshakeMessage port c.m2 = some (a', some c.m3)
      ∧ b'.handleHandshakeMessage port c.m3 = some (b'', none)
      ∧ a'.status = .ready ∧ b''.status = .ready
      ∧ a'.peerStatic = some (pub pb) ∧ b''.peerStatic = some (pub pa)
      ∧ a'.sendCipher = b''.recvCipher ∧ a'.recvCipher = b''.sendCipher := by
  have ha : Sdk.asInitiator N pa ra = .ok ({ initiator := true, hs := c.hi1 }, c.m1) := by
    simp only [Sdk.asInitiator, c.new_initiator, c.write1]
  have hb : Sdk.asResponder N pb rb = .ok { initiator := false, hs := c.hr0 } := by
    simp only [Sdk.asResponder, c.new_responder]
  have hstatic := congrArg some c.peerStatic_initiator
  have hstatic' := congrArg some c.peerStatic_responder
  let a' := Sdk.Session.finish { initiator := true, hs := c.hi3 } c.keys
  cases port with
  | ts =>
    let b' : Sdk.Session N := { initiator := false, hs := c.hr2, gotFirstMessage := true }
    refine ⟨_, _, a', b', { b' with hs := c.hr3 }.finish c.keys, ha, hb, ?_, ?_, ?_, rfl, rfl,
      hstatic, hstatic', rfl, rfl⟩
    · simp [Sdk.Session.handleHandshakeMessage, Sdk.Session.handleTs, c.read1, c.write2, b']
    · simp [Sdk.Session.handleHandshakeMessage, Sdk.Session.handleTs, c.read2, c.write3,
        Sdk.Session.finishIf, a']
    · simp [Sdk.Session.handleHandshakeMessage, Sdk.Session.handleTs, c.read3,
        Sdk.Session.finishIf, b']
  | rust | cpp =>
    let b' : Sdk.Session N := { initiator := false, hs := c.hr2 }
    refine ⟨_, _, a', b', { b' with hs := c.hr3 }.finish c.keys, ha, hb, ?_, ?_, ?_, rfl, rfl,
      hstatic, hstatic', rfl, rfl⟩
    · simp [Sdk.Session.handleHandshakeMessage, Sdk.Session.handleRustCpp, c.read1, c.write2, b',
        Sdk.Session.finishIf]
    · simp [Sdk.Session.handleHandshakeMessage, Sdk.Session.handleRustCpp, c.read2, c.write3,
        Sdk.Session.finishIf, a']
    · simp [Sdk.Session.handleHandshakeMessage, Sdk.Session.handleRustCpp, c.read3, b']
  | py =>
    let b' : Sdk.Session N := { initiator := false, hs := c.hr2 }
    refine ⟨_, _, a', b', { b' with hs := c.hr3 }.finish c.keys, ha, hb, ?_, ?_, ?_, rfl, rfl,
      hstatic, hstatic', rfl, rfl⟩
    · simp [Sdk.Session.handleHandshakeMessage, Sdk.Session.handlePy, c.read1, c.write2, b']
    · simp [Sdk.Session.handleHandshakeMessage, Sdk.Session.handlePy, c.read2, c.write3,
        Sdk.Session.finishIf, a']
    · simp [Sdk.Session.handleHandshakeMessage, Sdk.Session.handlePy, c.read3, b']

/-- Primitives without the cryptography: a key of 32 bytes is its own public key, a shared secret
is the sum of the two keys, and the tag is 16 zeros. -/
def plainCrypto : Crypto where
  publicKey priv := priv
  dh a b := .ok (List.zipWith (· + ·) a b)
  hash data := data
  hkdf ck ikm := (ck ++ ikm, ikm ++ ck)
  aeadEncrypt _ _ _ plaintext := plaintext ++ List.replicate tagLen 0
  aeadDecrypt _ _ _ ciphertext := .ok (ciphertext.take (ciphertext.length - tagLen))

theorem plainCrypto_lawful : plainCrypto.Lawful where
  dh_comm a b := by simp [plainCrypto, List.zipWith_comm_of_comm UInt8.add_comm]
  opens key n ad plaintext := by simp [plainCrypto]
  length_aeadEncrypt key n ad plaintext := by simp [plainCrypto]

theorem handshake_completes_plain :
    ∃ (i r : Ts.HandshakeState) (splitI splitR : Ts.HandshakeResult),
      pass (Ts.HandshakeState.writeMessage plainCrypto) (Ts.HandshakeState.readMessage plainCrypto)
          (.new plainCrypto true ⟨List.replicate 32 1, List.replicate 32 1⟩ (List.replicate 32 2))
          (.new plainCrypto false ⟨List.replicate 32 3, List.replicate 32 3⟩ (List.replicate 32 4))
        = .ok ((i, some splitI), r, some splitR)
      ∧ i.rs = some (List.replicate 32 3) ∧ r.rs = some (List.replicate 32 1) := by
  obtain ⟨⟨i, r, splitI, splitR, h, -, -, hi, hr, -⟩, -⟩ := handshake_completes plainCrypto
    plainCrypto_lawful (List.replicate 32 1) (List.replicate 32 2) (List.replicate 32 3)
    (List.replicate 32 4) _ _ _ (by simp [plainCrypto, dhLen]) rfl rfl rfl
  exact ⟨i, r, splitI, splitR, h, hi, hr⟩

end Relayly.NoiseXX
