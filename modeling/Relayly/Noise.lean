import Relayly.Wire

/-!
# The Noise library

Every SDK drives `Noise_XX_25519_ChaChaPoly_BLAKE2s` through a library: `flynn/noise` in Go,
`snow` in Rust, `noiseprotocol` in Python, the hand-written `HandshakeState` in TypeScript and
C++. `Noise` is what the clients see of it: a handshake state that writes and reads messages in
turn, the two transport keys once the pattern ends, and an AEAD used under an implicit counter.
-/

namespace Relayly

/-- A Noise library. `newHandshakeState` is given the role, the static private key and the
randomness its ephemeral key is drawn from; a message that ends the pattern comes with the two
transport keys, initiator to responder first. -/
structure Noise where
  Hs : Type
  Key : Type
  newHandshakeState : Bool → Bytes → Bytes → Except String Hs
  writeMessage : Hs → Except String (Bytes × Hs × Option (Key × Key))
  readMessage : Hs → Bytes → Except String (Hs × Option (Key × Key))
  peerStatic : Hs → Bytes
  aeadEncrypt : Key → ℕ → Bytes → Bytes
  aeadDecrypt : Key → ℕ → Bytes → Except String Bytes
  maxNonce : Option ℕ
  maxNonceError : String

variable {N : Noise}

namespace Noise

/-- What an initiator holds once it has written `msg1`, and that message. -/
def initiator (N : Noise) (priv rand : Bytes) : Option (Bytes × N.Hs) :=
  match N.newHandshakeState true priv rand with
  | .error _ => none
  | .ok hs =>
    match N.writeMessage hs with
    | .error _ => none
    | .ok (msg1, hs, _) => some (msg1, hs)

/-- What a responder holds once it has read `data` as `msg1` and written `msg2`. -/
def responder (N : Noise) (priv rand data : Bytes) : Option (Bytes × N.Hs) :=
  match N.newHandshakeState false priv rand with
  | .error _ => none
  | .ok hs =>
    match N.readMessage hs data with
    | .error _ => none
    | .ok (hs, _) =>
      match N.writeMessage hs with
      | .error _ => none
      | .ok (msg2, hs, _) => some (msg2, hs)

/-- The XX pattern between parties that follow it: `msg2` and `msg3` authenticate the transcript
they end, so each is refused in any other place, and a `msg3` in its place gives both ends the
same transport keys. The messages have different lengths. -/
structure XX (N : Noise) (pub : Bytes → Bytes) : Prop where
  msg2_binds : ∀ {pa ra pb rb data m1 m2 hi hr r}, N.initiator pa ra = some (m1, hi) →
    N.responder pb rb data = some (m2, hr) → N.readMessage hi m2 = .ok r → data = m1
  msg3_completes : ∀ {pa ra pb rb m1 m2 m3 hi hi' hi'' hr r split},
    N.initiator pa ra = some (m1, hi) → N.responder pb rb m1 = some (m2, hr) →
    N.readMessage hi m2 = .ok (hi', r) → N.writeMessage hi' = .ok (m3, hi'', split) →
    N.peerStatic hi'' = pub pb ∧ split.isSome
      ∧ ∃ hr', N.readMessage hr m3 = .ok (hr', split) ∧ N.peerStatic hr' = pub pa
  refuses_msg1 : ∀ {pa ra pb rb data m1 m2 hi hr}, N.initiator pa ra = some (m1, hi) →
    N.responder pb rb data = some (m2, hr) → ∃ e, N.readMessage hr m1 = .error e
  refuses_msg2 : ∀ {pa ra pb rb data data' m2 m2' hr hr'},
    N.responder pa ra data = some (m2, hr) → N.responder pb rb data' = some (m2', hr') →
    ∃ e, N.readMessage hr m2' = .error e
  msg1_ne_msg2 : ∀ {pa ra pb rb data m1 m2 hi hr}, N.initiator pa ra = some (m1, hi) →
    N.responder pb rb data = some (m2, hr) → m1 ≠ m2
  msg1_ne_msg3 : ∀ {pa ra ra' m1 m1' m2 m3 hi hi' h h' r split}, N.initiator pa ra = some (m1, hi) →
    N.initiator pa ra' = some (m1', hi') → N.readMessage hi' m2 = .ok (h, r) →
    N.writeMessage h = .ok (m3, h', split) → m1 ≠ m3

/-- The handshakes that `priv` starts have distinct ephemeral keys: a `msg1` is the public ephemeral
key of its handshake. -/
def Fresh (N : Noise) (priv : Bytes) (rand : ℕ → Bytes) : Prop :=
  ∀ {i j m h h'}, N.initiator priv (rand i) = some (m, h) → N.initiator priv (rand j) = some (m, h') →
    i = j

/-- The messages of parties that follow the pattern are answered: a responder with 32 bytes of
private key and of randomness reads every `msg1`, and an initiator reads the `msg2` that answers its
own, but no `msg1`, which is shorter. -/
structure Answers (N : Noise) : Prop where
  msg1 : ∀ {pa ra pb rb m1 hi}, N.initiator pa ra = some (m1, hi) → pb.length = 32 → rb.length = 32 →
    ∃ r, N.responder pb rb m1 = some r
  msg2 : ∀ {pa ra pb rb m1 m2 hi hr}, N.initiator pa ra = some (m1, hi) →
    N.responder pb rb m1 = some (m2, hr) →
    ∃ hi' r m3 hi'' split, N.readMessage hi m2 = .ok (hi', r) ∧ N.writeMessage hi' = .ok (m3, hi'', split)
  refuses_msg1 : ∀ {pa ra pb rb m1 m1' hi hi'}, N.initiator pa ra = some (m1, hi) →
    N.initiator pb rb = some (m1', hi') → ∃ e, N.readMessage hi m1' = .error e

/-- The AEAD opens what it has sealed under the same key and nonce. -/
def Opens (N : Noise) : Prop :=
  ∀ key n plaintext, N.aeadDecrypt key n (N.aeadEncrypt key n plaintext) = .ok plaintext

end Noise

/-- One direction of a transport session: a key and the counter used as nonce. -/
structure CipherState (N : Noise) where
  key : N.Key
  n : ℕ := 0

/-- The cipher state from initiator to responder that a split leaves, with its counter at 0. -/
def cs1 (split : Option (N.Key × N.Key)) : Option (CipherState N) :=
  split.map fun keys => { key := keys.1 }

/-- The cipher state from responder to initiator. -/
def cs2 (split : Option (N.Key × N.Key)) : Option (CipherState N) :=
  split.map fun keys => { key := keys.2 }

/-- Whether the counter has run out. -/
def CipherState.exhausted (cs : CipherState N) : Bool :=
  match N.maxNonce with
  | some m => decide (m < cs.n)
  | none => false

def CipherState.encrypt (cs : CipherState N) (plaintext : Bytes) :
    Except String (Bytes × CipherState N) :=
  if cs.exhausted then .error N.maxNonceError
  else .ok (N.aeadEncrypt cs.key cs.n plaintext, { cs with n := cs.n + 1 })

/-- A ciphertext that does not authenticate leaves the counter where it is. -/
def CipherState.decrypt (cs : CipherState N) (ciphertext : Bytes) :
    Except String (Bytes × CipherState N) :=
  if cs.exhausted then .error N.maxNonceError
  else
    match N.aeadDecrypt cs.key cs.n ciphertext with
    | .ok plaintext => .ok (plaintext, { cs with n := cs.n + 1 })
    | .error e => .error e

theorem CipherState.decrypt_aeadEncrypt (hN : N.Opens) {cs : CipherState N}
    (hx : cs.exhausted = false) (plaintext : Bytes) :
    cs.decrypt (N.aeadEncrypt cs.key cs.n plaintext) = .ok (plaintext, { cs with n := cs.n + 1 }) := by
  simp [CipherState.decrypt, hx, hN cs.key cs.n plaintext]

inductive SessionStatus
  | handshaking
  | ready
  | failed
  deriving DecidableEq, Repr

end Relayly
