import Relayly.Lib.HashChain
import Relayly.NoiseXX.Transport
import Relayly.Proofs.NoiseTransport

/-!
# What an accepted third message says about the first two

Whoever passes the messages on may change them. A responder opens the third one under the hash of
what it has seen of the first two, so that what the initiator has sealed under another hash is
refused. Each side's hash is a chain over the pieces of these messages as that side has them, and
chains that end alike have the same pieces. Then both have been in one exchange, in which they come
out with each other's keys.
-/

namespace Relayly

namespace Noise

variable {N : Noise}

theorem initiator_of_writes {priv rand m : Bytes} {hs₀ hs : N.Hs} {x : Option (N.Key × N.Key)}
    (hnew : N.newHandshakeState true priv rand = .ok hs₀) (hwrite : N.writeMessage hs₀ = .ok (m, hs, x)) :
    N.initiator priv rand = some (m, hs) := by
  simp only [initiator, hnew, hwrite]

theorem responder_of_writes {priv rand data m : Bytes} {hs₀ hs₁ hs : N.Hs}
    {x y : Option (N.Key × N.Key)} (hnew : N.newHandshakeState false priv rand = .ok hs₀)
    (hread : N.readMessage hs₀ data = .ok (hs₁, x)) (hwrite : N.writeMessage hs₁ = .ok (m, hs, y)) :
    N.responder priv rand data = some (m, hs) := by
  simp only [responder, hnew, hread, hwrite]

theorem responder_eq_some {priv rand data m : Bytes} {hs : N.Hs}
    (h : N.responder priv rand data = some (m, hs)) :
    ∃ hs₀ hs₁ x y, N.newHandshakeState false priv rand = .ok hs₀ ∧ N.readMessage hs₀ data = .ok (hs₁, x)
      ∧ N.writeMessage hs₁ = .ok (m, hs, y) := by
  unfold responder at h
  split at h
  · cases h
  · rename_i hs₀ hnew
    split at h
    · cases h
    · rename_i hs₁ x hread
      split at h
      · cases h
      · rename_i y hwrite
        cases h
        exact ⟨hs₀, hs₁, x, _, hnew, hread, hwrite⟩

end Noise

namespace NoiseXX

/-! ## The two ports -/

namespace Port

variable (P : Primitives)

/-- What the client of a port has for a Noise library. -/
def noise : Port → Noise
  | .ts => tsNoise P.ts
  | .cpp => cppNoise P.cpp

def symmetric : (port : Port) → (port.noise P).Hs → SymmetricState
  | .ts, hs => Ts.HandshakeState.symmetric hs
  | .cpp, hs => Cpp.HandshakeState.symmetric hs

/-- The two transport keys as bytes. -/
def keys : (port : Port) → Option ((port.noise P).Key × (port.noise P).Key) → Option (Bytes × Bytes)
  | .ts, split => split
  | .cpp, split => split

/-- The state of a port, as TypeScript would have it. -/
def Like : (port : Port) → (port.noise P).Hs → Ts.HandshakeState → Prop
  | .ts, hs, t => hs = t
  | .cpp, hs, t => hs = Ts.HandshakeState.toCpp t

end Port

/-! ## What is hashed -/

/-- The empty prologue and what either side hashes of the first two messages. -/
def pieces (m1 m2 : Bytes) : List Bytes :=
  [[], m1.take dhLen, m1.drop dhLen,
    m2.take dhLen, (m2.drop dhLen).take (dhLen + tagLen), m2.drop (dhLen + dhLen + tagLen)]

theorem pieces_inj {m1 m1' m2 m2' : Bytes} (h : pieces m1 m2 = pieces m1' m2') :
    m1 = m1' ∧ m2 = m2' := by
  simp only [pieces, List.cons.injEq, true_and, and_true] at h
  obtain ⟨h1, h2, h3, h4, h5⟩ := h
  have hdrop : m2.drop dhLen = m2'.drop dhLen := by
    rw [← List.take_append_drop (dhLen + tagLen) (m2.drop dhLen), h4, List.drop_drop,
      ← Nat.add_assoc, h5, Nat.add_assoc, ← List.drop_drop, List.take_append_drop]
  constructor
  · rw [← List.take_append_drop dhLen m1, h1, h2, List.take_append_drop]
  · rw [← List.take_append_drop dhLen m2, h3, hdrop, List.take_append_drop]

theorem pieces_append {m1 e c p : Bytes} (he : e.length = dhLen) (hc : c.length = dhLen + tagLen) :
    pieces m1 (e ++ c ++ p) = [[], m1.take dhLen, m1.drop dhLen, e, c, p] := by
  have h1 : (e ++ (c ++ p)).take dhLen = e := List.take_left' he
  have h2 : (e ++ (c ++ p)).drop dhLen = c ++ p := List.drop_left' he
  have h3 : (c ++ p).take (dhLen + tagLen) = c := List.take_left' hc
  have h4 : (c ++ p).drop (dhLen + tagLen) = p := List.drop_left' hc
  rw [pieces, List.append_assoc, Nat.add_assoc, ← List.drop_drop, h1, h2, h3, h4]

variable {C : Crypto}

/-- The strings that one side has hashed after the first two messages. -/
def hashedIn (C : Crypto) (m1 m2 : Bytes) : List Bytes :=
  HashChain.hashed C.hash (C.hash protocolName) (pieces m1 m2)

/-- The handshake hash of a side that has these first two messages. -/
def handshakeHash (C : Crypto) (m1 m2 : Bytes) : Bytes :=
  HashChain.chain C.hash (C.hash protocolName) (pieces m1 m2)

namespace SymmetricState

variable {s s' : SymmetricState}

theorem decryptAndHash_h {ciphertext plaintext : Bytes}
    (h : s.decryptAndHash C ciphertext = .ok (plaintext, s')) : s'.h = C.hash (s.h ++ ciphertext) := by
  unfold decryptAndHash at h
  split at h
  · cases h
  · cases h
    rfl

theorem mixKey_h (s : SymmetricState) (ikm : Bytes) : (s.mixKey C ikm).h = s.h := rfl

theorem HasKey.decryptAndHash (hk : s.HasKey) {ciphertext plaintext : Bytes}
    (h : s.decryptAndHash C ciphertext = .ok (plaintext, s')) : s'.HasKey := by
  obtain ⟨key, hkey⟩ := Option.isSome_iff_exists.1 hk
  simp only [SymmetricState.decryptAndHash, CipherState.decryptWithAd, hkey] at h
  split at h
  · cases h
  · rename_i r hr
    split at hr
    · cases hr
    · cases hr
      cases h
      rfl

/-- What is sealed in `s` is opened in `t` only under the same hash. -/
def Binds (C : Crypto) (s t : SymmetricState) : Prop :=
  ∀ plaintext r, t.decryptAndHash C (s.encryptAndHash C plaintext).1 = .ok r → t.h = s.h

theorem initializeSymmetric_protocolName :
    initializeSymmetric C protocolName = { ck := C.hash protocolName, h := C.hash protocolName } := by
  have hlen : ¬ protocolName.length ≤ hashLen := by decide
  rw [initializeSymmetric, if_neg hlen]

end SymmetricState

/-! ## TypeScript -/

namespace Ts

open SymmetricState

variable {si ei sr er msg1 m1 msg2 m2 msg3 : Bytes} {t t' : HandshakeState}

theorem new_h (initiator : Bool) (s : KeyPair) (rand : Bytes) :
    (HandshakeState.new C initiator s rand).symmetric.h = C.hash (C.hash protocolName ++ []) := by
  rw [HandshakeState.new, initializeSymmetric_protocolName]
  rfl

theorem required_eq_ok {α : Type} {x : Option α} {a : α} (h : required x = .ok a) : x = some a := by
  cases x with
  | none => cases h
  | some b => exact congrArg some (Except.ok.inj h)

theorem exists_readMessage {x : Option (Bytes × Bytes)} {m : Bytes}
    (h : (tsNoise C).readMessage t m = .ok (t', x)) : ∃ r, t.readMessage C m = .ok (t', r) := by
  simp only [tsNoise] at h
  rcases hr : t.readMessage C m with e | ⟨t₁, r⟩ <;> rw [hr] at h <;> cases h
  exact ⟨r, rfl⟩

theorem exists_writeMessage {x : Option (Bytes × Bytes)} {m : Bytes}
    (h : (tsNoise C).writeMessage t = .ok (m, t', x)) : ∃ r, t.writeMessage C = .ok (m, t', r) := by
  simp only [tsNoise] at h
  rcases hw : t.writeMessage C with e | ⟨m₁, t₁, r⟩ <;> rw [hw] at h <;> cases h
  exact ⟨r, rfl⟩

/-- What reading the second message does to the hash, and what it leaves as it was. -/
theorem readMessage_msg2 (ht : t.At true 1 0) {r : Option HandshakeResult}
    (h : t.readMessage C m2 = .ok (t', r)) :
    t'.At true 1 1 ∧ t'.s = t.s ∧ t'.re = some (m2.take dhLen) ∧ t'.rs.isSome = true
      ∧ t'.symmetric.HasKey
      ∧ t'.symmetric.h = HashChain.chain C.hash t.symmetric.h [m2.take dhLen,
        (m2.drop dhLen).take (dhLen + tagLen), m2.drop (dhLen + dhLen + tagLen)] := by
  obtain ⟨i, sym, s, rand, e, rs, re, wc, rc⟩ := t
  obtain ⟨rfl, rfl, rfl⟩ := ht
  obtain ⟨e, -, h⟩ := Except.bind_ok h
  obtain ⟨ee, -, h⟩ := Except.bind_ok h
  obtain ⟨⟨rs, sA⟩, hA, h⟩ := Except.bind_ok h
  obtain ⟨es, -, h⟩ := Except.bind_ok h
  obtain ⟨⟨p, sB⟩, hB, h⟩ := Except.bind_ok h
  cases h
  refine ⟨⟨rfl, rfl, rfl⟩, rfl, rfl, rfl, (hasKey_mixKey _ _).decryptAndHash hB, ?_⟩
  have hAh := decryptAndHash_h hA
  have hBh := decryptAndHash_h hB
  rw [mixKey_h, hAh] at hBh
  exact hBh

/-- An initiator that has read a second message. -/
structure Read2 (C : Crypto) (si : Bytes) (msg1 m2 : Bytes) (t : HandshakeState) : Prop where
  at_ : t.At true 1 1
  s : t.s = C.keyPair si
  re : t.re = some (m2.take dhLen)
  rs : t.rs.isSome = true
  key : t.symmetric.HasKey
  h : t.symmetric.h = handshakeHash C msg1 m2

theorem initiator_at (h : (tsNoise C).initiator si ei = some (msg1, t)) : t.At true 1 0 := by
  cases h
  exact ⟨rfl, rfl, rfl⟩

theorem read2 (hlen : (C.publicKey ei).length = dhLen)
    (h1 : (tsNoise C).initiator si ei = some (msg1, t)) {x : Option (Bytes × Bytes)}
    (h2 : (tsNoise C).readMessage t m2 = .ok (t', x)) : Read2 C si msg1 m2 t' := by
  obtain ⟨r, hread⟩ := exists_readMessage h2
  obtain ⟨hat, hs, hre, hrs, hk, hh⟩ := readMessage_msg2 (initiator_at h1) hread
  cases h1
  refine ⟨hat, hs, hre, hrs, hk, hh.trans ?_⟩
  have htake : (C.publicKey ei ++ []).take dhLen = C.publicKey ei := List.take_left' hlen
  have hdrop : (C.publicKey ei ++ []).drop dhLen = [] := List.drop_left' hlen
  have hstart := new_h (C := C) true (C.keyPair si) ei
  show HashChain.chain C.hash (C.hash (C.hash ((HandshakeState.new C true (C.keyPair si) ei).symmetric.h
    ++ C.publicKey ei) ++ [])) _ = HashChain.chain C.hash (C.hash protocolName) (pieces (C.publicKey ei ++ []) m2)
  rw [hstart, pieces, htake, hdrop]
  rfl

theorem readMessage_msg1 (ht : t.At false 0 0) {r : Option HandshakeResult}
    (h : t.readMessage C m1 = .ok (t', r)) :
    t'.At false 0 1 ∧ t'.s = t.s ∧ t'.rand = t.rand ∧ t'.re = some (m1.take dhLen)
      ∧ t'.symmetric.h = HashChain.chain C.hash t.symmetric.h [m1.take dhLen, m1.drop dhLen] := by
  obtain ⟨i, sym, s, rand, e, rs, re, wc, rc⟩ := t
  obtain ⟨rfl, rfl, rfl⟩ := ht
  obtain ⟨⟨p, sA⟩, hA, h⟩ := Except.bind_ok h
  cases h
  exact ⟨⟨rfl, rfl, rfl⟩, rfl, rfl, rfl, decryptAndHash_h hA⟩

/-- The second message is the ephemeral key, the sealed static key `c` and the sealed payload `p`. -/
theorem writeMessage_msg2 (hC : C.Lawful) (ht : t.At false 0 1) {r : Option HandshakeResult}
    (h : t.writeMessage C = .ok (msg2, t', r)) :
    ∃ re ee es c p, t.re = some re ∧ C.dh t.rand re = .ok ee ∧ C.dh t.s.privateKey re = .ok es
      ∧ msg2 = C.publicKey t.rand ++ c ++ p ∧ c.length = t.s.publicKey.length + tagLen
      ∧ t'.At false 1 1 ∧ t'.symmetric.HasKey
      ∧ t'.symmetric.h = HashChain.chain C.hash t.symmetric.h [C.publicKey t.rand, c, p] := by
  obtain ⟨i, sym, s, rand, e, rs, re, wc, rc⟩ := t
  obtain ⟨rfl, rfl, rfl⟩ := ht
  obtain ⟨re', hre, h⟩ := Except.bind_ok h
  obtain ⟨ee, hee, h⟩ := Except.bind_ok h
  obtain ⟨es, hes, h⟩ := Except.bind_ok h
  cases h
  refine ⟨re', ee, es, _, _, required_eq_ok hre, hee, hes, rfl, ?_, ⟨rfl, rfl, rfl⟩,
    (hasKey_mixKey _ _).encryptAndHash _, rfl⟩
  exact (hasKey_mixKey _ _).length_encryptAndHash hC _

/-- A responder that has written a second message. -/
structure Wrote2 (C : Crypto) (sr er m1 msg2 : Bytes) (t : HandshakeState) : Prop where
  at_ : t.At false 1 1
  key : t.symmetric.HasKey
  h : t.symmetric.h = handshakeHash C m1 msg2
  e : msg2.take dhLen = C.publicKey er
  ee : ∃ ee, C.dh er (m1.take dhLen) = .ok ee
  es : ∃ es, C.dh sr (m1.take dhLen) = .ok es

theorem wrote2 (hC : C.Lawful) (hsr : (C.publicKey sr).length = dhLen)
    (her : (C.publicKey er).length = dhLen)
    (h : (tsNoise C).responder sr er m1 = some (msg2, t)) : Wrote2 C sr er m1 msg2 t := by
  obtain ⟨t₀, t₁, x, y, hnew, hread, hwrite⟩ := Noise.responder_eq_some h
  cases hnew
  obtain ⟨r, hread⟩ := exists_readMessage hread
  obtain ⟨r', hwrite⟩ := exists_writeMessage hwrite
  obtain ⟨hat, hs, hrand, hre, hh⟩ := readMessage_msg1 ⟨rfl, rfl, rfl⟩ hread
  obtain ⟨re, ee, es, c, p, hre', hee, hes, rfl, hc, hat', hkey, hh'⟩ := writeMessage_msg2 hC hat hwrite
  cases hre.symm.trans hre'
  rw [hs] at hes hc
  rw [hrand] at hee hh' ⊢
  refine ⟨hat', hkey, ?_, by rw [List.append_assoc]; exact List.take_left' her, ⟨ee, hee⟩, ⟨es, hes⟩⟩
  have hlen : c.length = dhLen + tagLen := by rw [hc, ← hsr]; rfl
  rw [hh', hh, new_h, handshakeHash]
  show _ = HashChain.chain C.hash (C.hash protocolName) (pieces m1 (C.publicKey er ++ c ++ p))
  rw [pieces_append her hlen]
  rfl

/-- The static key that the third message begins with is sealed in the state before it. -/
theorem writeMessage_msg3 (ht : t.At true 1 1) {x : Option (Bytes × Bytes)}
    (h : (tsNoise C).writeMessage t = .ok (msg3, t', x)) :
    ∃ re se payload, t.re = some re ∧ C.dh t.s.privateKey re = .ok se
      ∧ msg3 = (t.symmetric.encryptAndHash C t.s.publicKey).1 ++ payload := by
  obtain ⟨i, sym, s, rand, e, rs, re, wc, rc⟩ := t
  obtain ⟨rfl, rfl, rfl⟩ := ht
  obtain ⟨r, h⟩ := exists_writeMessage h
  obtain ⟨re', hre, h⟩ := Except.bind_ok h
  obtain ⟨se, hse, h⟩ := Except.bind_ok h
  cases h
  exact ⟨re', se, _, required_eq_ok hre, hse, rfl⟩

/-- A responder that accepts a third message has opened the static key in it. -/
theorem readMessage_msg3 (ht : t.At false 1 1) {x : Option (Bytes × Bytes)}
    (h : (tsNoise C).readMessage t msg3 = .ok (t', x)) :
    ∃ r, t.symmetric.decryptAndHash C (msg3.take (dhLen + tagLen)) = .ok r := by
  obtain ⟨i, sym, s, rand, e, rs, re, wc, rc⟩ := t
  obtain ⟨rfl, rfl, rfl⟩ := ht
  obtain ⟨r, h⟩ := exists_readMessage h
  obtain ⟨r, hr, h⟩ := Except.bind_ok h
  exact ⟨r, hr⟩

/-- An initiator's third message is accepted by a responder only if both have the same first two. -/
theorem messages_eq (hC : C.Lawful) (hhashLen : ∀ x, (C.hash x).length = hashLen)
    (hlen : ∀ key ∈ [si, ei, sr, er], (C.publicKey key).length = dhLen)
    {i1 i2 i3 r2 r3 : HandshakeState} {x y z : Option (Bytes × Bytes)}
    (hi1 : (tsNoise C).initiator si ei = some (msg1, i1))
    (hr2 : (tsNoise C).responder sr er m1 = some (msg2, r2))
    (hi2 : (tsNoise C).readMessage i1 m2 = .ok (i2, x))
    (hi3 : (tsNoise C).writeMessage i2 = .ok (msg3, i3, y))
    (hr3 : (tsNoise C).readMessage r2 msg3 = .ok (r3, z))
    (hapart : HashChain.Apart C.hash (hashedIn C msg1 m2) (hashedIn C m1 msg2))
    (hbinds : Binds C i2.symmetric r2.symmetric) : m1 = msg1 ∧ m2 = msg2 := by
  have hI := read2 (hlen ei (by simp)) hi1 hi2
  have hR := wrote2 hC (hlen sr (by simp)) (hlen er (by simp)) hr2
  obtain ⟨re, se, payload, -, -, rfl⟩ := writeMessage_msg3 hI.at_ hi3
  obtain ⟨r, hopened⟩ := readMessage_msg3 hR.at_ hr3
  have hsealed := hI.key.length_encryptAndHash hC i2.s.publicKey
  rw [hI.s] at hsealed hopened
  rw [show (C.keyPair si).publicKey.length = dhLen from hlen si (by simp)] at hsealed
  rw [List.take_left' hsealed] at hopened
  have hh := hbinds _ _ hopened
  rw [hI.h, hR.h] at hh
  obtain ⟨-, hpieces⟩ := HashChain.eq_of_chain_eq hhashLen rfl hapart hh.symm
  obtain ⟨h1, h2⟩ := pieces_inj hpieces
  exact ⟨h1.symm, h2⟩

/-- The keys that such an exchange has run on. -/
theorem exists_exchange (hC : C.Lawful)
    (hlen : ∀ key ∈ [si, ei, sr, er], (C.publicKey key).length = dhLen)
    {i1 i2 i3 r2 : HandshakeState} {x y : Option (Bytes × Bytes)}
    (hi1 : (tsNoise C).initiator si ei = some (msg1, i1))
    (hr2 : (tsNoise C).responder sr er msg1 = some (msg2, r2))
    (hi2 : (tsNoise C).readMessage i1 msg2 = .ok (i2, x))
    (hi3 : (tsNoise C).writeMessage i2 = .ok (msg3, i3, y)) :
    ∃ X : Exchange C, X.si = si ∧ X.ei = ei ∧ X.sr = sr ∧ X.er = er := by
  have hei := hlen ei (by simp)
  have her := hlen er (by simp)
  have hI := read2 hei hi1 hi2
  obtain ⟨-, -, -, hmsg2, ⟨ee, hee⟩, ⟨es, hes⟩⟩ := wrote2 hC (hlen sr (by simp)) her hr2
  obtain ⟨re, se, payload, hre, hse, -⟩ := writeMessage_msg3 hI.at_ hi3
  have hmsg1 : msg1.take dhLen = C.publicKey ei := by
    cases hi1
    exact List.take_left' hei
  rw [hmsg1] at hee hes
  rw [hI.re, hmsg2] at hre
  cases hre
  rw [hI.s] at hse
  have hse' : C.dh si (C.publicKey er) = .ok se := hse
  exact ⟨{
    si, ei, sr, er, ee, es, se
    length_si := hlen si (by simp)
    length_ei := hei
    length_sr := hlen sr (by simp)
    length_er := her
    ee_initiator := by rw [hC.dh_comm, hee]
    ee_responder := hee
    es_initiator := by rw [hC.dh_comm, hes]
    es_responder := hes
    se_initiator := hse'
    se_responder := by rw [hC.dh_comm, hse'] }, rfl, rfl, rfl, rfl⟩

end Ts

/-! ## Parties of one exchange -/

namespace Completion

variable {N : Noise} {pub : Bytes → Bytes} {pa ra pb rb : Bytes}

theorem initiator (c : Completion N pub pa ra pb rb) : N.initiator pa ra = some (c.m1, c.hi1) :=
  Noise.initiator_of_writes c.new_initiator c.write1

theorem responder (c : Completion N pub pa ra pb rb) : N.responder pb rb c.m1 = some (c.m2, c.hr2) :=
  Noise.responder_of_writes c.new_responder c.read1 c.write2

/-- What two parties that pass their own messages come out with. -/
theorem agrees (c : Completion N pub pa ra pb rb) {msg1 msg2 msg3 : Bytes} {i1 i2 i3 r2 r3 : N.Hs}
    {x y z : Option (N.Key × N.Key)} (hi1 : N.initiator pa ra = some (msg1, i1))
    (hr2 : N.responder pb rb msg1 = some (msg2, r2)) (hi2 : N.readMessage i1 msg2 = .ok (i2, x))
    (hi3 : N.writeMessage i2 = .ok (msg3, i3, y)) (hr3 : N.readMessage r2 msg3 = .ok (r3, z)) :
    N.peerStatic i3 = pub pb ∧ N.peerStatic r3 = pub pa ∧ ∃ keys, y = some keys ∧ z = some keys := by
  cases c.initiator.symm.trans hi1
  cases c.responder.symm.trans hr2
  cases c.read2.symm.trans hi2
  cases c.write3.symm.trans hi3
  cases c.read3.symm.trans hr3
  exact ⟨c.peerStatic_initiator, c.peerStatic_responder, c.keys, rfl, rfl⟩

end Completion

/-! ## Either port -/

namespace Port

variable {P : Primitives} (hP : P.Lawful) {port : Port} {t : Ts.HandshakeState}
  {si ei sr er msg1 m1 msg2 m2 msg3 : Bytes}

theorem Like.symmetric_eq {hs : (port.noise P).Hs} (h : port.Like P hs t) :
    port.symmetric P hs = t.symmetric := by
  cases port <;> cases h <;> rfl

theorem Like.peerStatic_eq {hs : (port.noise P).Hs} (h : port.Like P hs t) :
    (port.noise P).peerStatic hs = (tsNoise P.ts).peerStatic t := by
  cases port <;> cases h <;> rfl

include hP

theorem exists_initiator {hs : (port.noise P).Hs}
    (h : (port.noise P).initiator si ei = some (msg1, hs)) :
    ∃ t, port.Like P hs t ∧ (tsNoise P.ts).initiator si ei = some (msg1, t) := by
  cases port with
  | ts => exact ⟨hs, rfl, h⟩
  | cpp =>
    have h : (cppNoise P.cpp).initiator si ei = some (msg1, hs) := h
    rw [← Primitives.ts_eq_cpp hP] at h
    obtain ⟨m, t, hw, -, hw'⟩ := write_msg1_same (C := P.ts)
      (t := .new P.ts true (P.ts.keyPair si) ei) ⟨rfl, rfl, rfl⟩
    cases (Noise.initiator_of_writes (N := cppNoise P.ts) rfl hw').symm.trans h
    exact ⟨t, rfl, Noise.initiator_of_writes (N := tsNoise P.ts) rfl hw⟩

theorem Like.read2 {hs hs' : (port.noise P).Hs} {x : Option ((port.noise P).Key × (port.noise P).Key)}
    (hl : port.Like P hs t) (hat : t.At true 1 0)
    (h : (port.noise P).readMessage hs m2 = .ok (hs', x)) :
    ∃ t', port.Like P hs' t' ∧ (tsNoise P.ts).readMessage t m2 = .ok (t', port.keys P x) := by
  cases port with
  | ts =>
    cases hl
    exact ⟨hs', rfl, h⟩
  | cpp =>
    cases hl
    have h : (cppNoise P.cpp).readMessage t.toCpp m2 = .ok (hs', x) := h
    rw [← Primitives.ts_eq_cpp hP] at h
    obtain ⟨e, e', -, hr⟩ | ⟨⟨t', y⟩, b, hr, hr', hsame, -⟩ := (read_msg2_same hP.sized hat m2).elim
    · cases hr.symm.trans h
    · cases hsame
      cases hr'.symm.trans h
      exact ⟨t', rfl, hr⟩

theorem exists_responder {hs : (port.noise P).Hs}
    (h : (port.noise P).responder sr er m1 = some (msg2, hs)) :
    ∃ t, port.Like P hs t ∧ (tsNoise P.ts).responder sr er m1 = some (msg2, t) := by
  cases port with
  | ts => exact ⟨hs, rfl, h⟩
  | cpp =>
    have h : (cppNoise P.cpp).responder sr er m1 = some (msg2, hs) := h
    rw [← Primitives.ts_eq_cpp hP] at h
    obtain ⟨c₀, c₁, x, y, hnew, hread, hwrite⟩ := Noise.responder_eq_some h
    cases hnew
    have hat : (Ts.HandshakeState.new P.ts false (P.ts.keyPair sr) er).At false 0 0 := ⟨rfl, rfl, rfl⟩
    -- C++ refuses a message that is too short to hold a key.
    rcases Nat.lt_or_ge m1.length dhLen with hlen | hlen
    · obtain ⟨⟨e, he⟩, -⟩ := read_msg1_short hP.sized hat hlen
      cases he.symm.trans hread
    · obtain ⟨e, e', -, hr⟩ | ⟨⟨t₁, x'⟩, b, hr, hr', hsame, -, hat₁⟩ :=
        (read_msg1_same (C := P.ts) hat hlen).elim
      · cases hr.symm.trans hread
      · cases hsame
        cases hr'.symm.trans hread
        obtain ⟨e, e', -, hw⟩ | ⟨⟨m, t₂, y'⟩, b, hw, hw', hsame, -⟩ := (write_msg2_same (C := P.ts) hat₁).elim
        · cases hw.symm.trans hwrite
        · cases hsame
          cases hw'.symm.trans hwrite
          exact ⟨t₂, rfl, Noise.responder_of_writes (N := tsNoise P.ts) rfl hr hw⟩

theorem Like.write3 {hs hs' : (port.noise P).Hs} {x : Option ((port.noise P).Key × (port.noise P).Key)}
    (hl : port.Like P hs t) (hat : t.At true 1 1) (hrs : t.rs.isSome = true)
    (h : (port.noise P).writeMessage hs = .ok (msg3, hs', x)) :
    ∃ t', port.Like P hs' t' ∧ (tsNoise P.ts).writeMessage t = .ok (msg3, t', port.keys P x) := by
  cases port with
  | ts =>
    cases hl
    exact ⟨hs', rfl, h⟩
  | cpp =>
    cases hl
    have h : (cppNoise P.cpp).writeMessage t.toCpp = .ok (msg3, hs', x) := h
    rw [← Primitives.ts_eq_cpp hP] at h
    obtain ⟨e, e', -, hw⟩ | ⟨⟨m, t', y⟩, b, hw, hw', hsame, -⟩ := (write_msg3_same (C := P.ts) hat hrs).elim
    · cases hw.symm.trans h
    · cases hsame
      cases hw'.symm.trans h
      exact ⟨t', rfl, hw⟩

theorem Like.read3 {hs hs' : (port.noise P).Hs} {x : Option ((port.noise P).Key × (port.noise P).Key)}
    (hl : port.Like P hs t) (hat : t.At false 1 1) (hk : t.symmetric.HasKey)
    (h : (port.noise P).readMessage hs msg3 = .ok (hs', x)) :
    ∃ t', port.Like P hs' t' ∧ (tsNoise P.ts).readMessage t msg3 = .ok (t', port.keys P x) := by
  cases port with
  | ts =>
    cases hl
    exact ⟨hs', rfl, h⟩
  | cpp =>
    cases hl
    have h : (cppNoise P.cpp).readMessage t.toCpp msg3 = .ok (hs', x) := h
    rw [← Primitives.ts_eq_cpp hP] at h
    obtain ⟨e, e', -, hr⟩ | ⟨⟨t', y⟩, b, hr, hr', hsame, -⟩ := (read_msg3_same hP.sized hat hk msg3).elim
    · cases hr.symm.trans h
    · cases hsame
      cases hr'.symm.trans h
      exact ⟨t', rfl, hr⟩

end Port

/-- The parts of `Crypto.Lawful` from what is assumed of the primitives. -/
theorem Primitives.Lawful.crypto {P : Primitives} (hP : P.Lawful) (hopens : P.Opens)
    (hcomm : ∀ a b, P.dh a (P.publicKey b) = P.dh b (P.publicKey a)) : P.ts.Lawful where
  dh_comm := hcomm
  opens _ _ := hopens _ _
  length_aeadEncrypt key n ad plaintext :=
    (hP.length_aeadDecrypt _ _ _ _ _ (hopens key (Ts.encodeNonce n) ad plaintext)).symm

/-- Whoever passes on, changes or makes up the first two messages of a handshake between two clients
of either port: if the responder accepts the initiator's third message, then it got the first message
as the initiator wrote it and the initiator got the second as the responder wrote it, each has the
other's static key, and they have the same two transport keys. This is so unless a hash collides with
the one across from it, or the AEAD opens what was sealed under another hash. -/
theorem third_message_agrees (P : Primitives) (hP : P.Lawful) (hopens : P.Opens)
    (hcomm : ∀ a b, P.dh a (P.publicKey b) = P.dh b (P.publicKey a)) (p q : Port)
    {si ei sr er msg1 m1 msg2 m2 msg3 : Bytes}
    (hlen : ∀ key ∈ [si, ei, sr, er], (P.publicKey key).length = dhLen)
    {i1 i2 i3 : (p.noise P).Hs} {r2 r3 : (q.noise P).Hs}
    {x y : Option ((p.noise P).Key × (p.noise P).Key)} {z : Option ((q.noise P).Key × (q.noise P).Key)}
    (hi1 : (p.noise P).initiator si ei = some (msg1, i1))
    (hr2 : (q.noise P).responder sr er m1 = some (msg2, r2))
    (hi2 : (p.noise P).readMessage i1 m2 = .ok (i2, x))
    (hi3 : (p.noise P).writeMessage i2 = .ok (msg3, i3, y))
    (hr3 : (q.noise P).readMessage r2 msg3 = .ok (r3, z))
    (hapart : HashChain.Apart P.hash (hashedIn P.ts msg1 m2) (hashedIn P.ts m1 msg2))
    (hbinds : SymmetricState.Binds P.ts (p.symmetric P i2) (q.symmetric P r2)) :
    m1 = msg1 ∧ m2 = msg2 ∧ (p.noise P).peerStatic i3 = P.publicKey sr
      ∧ (q.noise P).peerStatic r3 = P.publicKey si
      ∧ ∃ keys, p.keys P y = some keys ∧ q.keys P z = some keys := by
  have hC := hP.crypto hopens hcomm
  obtain ⟨t1, hl1, ht1⟩ := Port.exists_initiator hP hi1
  obtain ⟨u2, hm2, hu2⟩ := Port.exists_responder hP hr2
  obtain ⟨t2, hl2, ht2⟩ := hl1.read2 hP (Ts.initiator_at ht1) hi2
  have hI := Ts.read2 (hlen ei (by simp)) ht1 ht2
  have hR := Ts.wrote2 hC (hlen sr (by simp)) (hlen er (by simp)) hu2
  obtain ⟨t3, hl3, ht3⟩ := hl2.write3 hP hI.at_ hI.rs hi3
  obtain ⟨u3, hm3, hu3⟩ := hm2.read3 hP hR.at_ hR.key hr3
  rw [hl2.symmetric_eq, hm2.symmetric_eq] at hbinds
  obtain ⟨rfl, rfl⟩ := Ts.messages_eq hC hP.length_hash hlen ht1 hu2 ht2 ht3 hu3 hapart hbinds
  obtain ⟨X, rfl, rfl, rfl, rfl⟩ := Ts.exists_exchange hC hlen ht1 hu2 ht2 ht3
  obtain ⟨hpI, hpR, keys, hy, hz⟩ := (tsCompletion hC X).agrees ht1 hu2 ht2 ht3 hu3
  rw [hl3.peerStatic_eq, hm3.peerStatic_eq]
  exact ⟨rfl, rfl, hpI, hpR, keys, hy, hz⟩

/-- Primitives without the cryptography, with a DH that fails on either key alike. -/
def symmetricPrimitives : Primitives :=
  { plainPrimitives with
    dh := fun a b =>
      if a.length = dhLen ∧ b.length = dhLen then .ok (List.zipWith (· + ·) a b) else .error "bad key" }

theorem symmetricPrimitives_lawful : symmetricPrimitives.Lawful :=
  { plainPrimitives_lawful with dh_length := fun _ _ h => ⟨_, if_neg fun hlen => h hlen.2⟩ }

theorem symmetricPrimitives_comm (a b : Bytes) : symmetricPrimitives.dh a (symmetricPrimitives.publicKey b)
    = symmetricPrimitives.dh b (symmetricPrimitives.publicKey a) := by
  have hzip : List.zipWith (· + ·) a b = List.zipWith (· + ·) b a :=
    List.zipWith_comm_of_comm UInt8.add_comm
  simp only [symmetricPrimitives, plainPrimitives, hzip, and_comm]

/-- Four keys under them. -/
def plainExchange : Exchange symmetricPrimitives.ts where
  si := List.replicate 32 1
  ei := List.replicate 32 2
  sr := List.replicate 32 3
  er := List.replicate 32 4
  ee := List.replicate 32 6
  es := List.replicate 32 5
  se := List.replicate 32 5
  length_si := rfl
  length_ei := rfl
  length_sr := rfl
  length_er := rfl
  ee_initiator := by decide
  ee_responder := by decide
  es_initiator := by decide
  es_responder := by decide
  se_initiator := by decide
  se_responder := by decide

/-- The handshake with these keys. -/
def plainCompletion :=
  tsCompletion (symmetricPrimitives_lawful.crypto CipherState.plainPrimitives_opens
    symmetricPrimitives_comm) plainExchange

theorem third_message_agrees_plain :
    (tsNoise symmetricPrimitives.ts).peerStatic plainCompletion.hi3 = List.replicate 32 3
      ∧ (tsNoise symmetricPrimitives.ts).peerStatic plainCompletion.hr3 = List.replicate 32 1 := by
  obtain ⟨-, -, hi, hr, -⟩ := third_message_agrees symmetricPrimitives symmetricPrimitives_lawful
    CipherState.plainPrimitives_opens symmetricPrimitives_comm .ts .ts (by decide) plainCompletion.initiator
    plainCompletion.responder plainCompletion.read2 plainCompletion.write3 plainCompletion.read3
    (HashChain.Apart.self _) fun _ _ _ => rfl
  exact ⟨hi, hr⟩

end NoiseXX

end Relayly
