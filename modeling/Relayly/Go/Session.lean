import Relayly.Noise

/-!
# `noise.go`: one Noise XX session

A session drives one handshake in either role. The initiator is finished by writing `msg3`, the
responder by reading it; a message the library refuses fails the session, and a session that has
left `handshaking` takes no further handshake message.
-/

namespace Relayly.Go

/-- The sentinel an error wraps, for `errors.Is`. -/
inductive Sentinel
  | errNotReady
  | errPeerKeyMismatch
  | errKeyMismatch
  | errInvalidCode
  | errCodeExpired
  | errAlreadyPaired
  | errPeerOffline
  | errRateLimited
  | errMalformed
  | errInternal
  deriving DecidableEq, Repr

structure GoError where
  text : String
  wraps : Option Sentinel := none
  deriving DecidableEq, Repr

/-- `fmt.Errorf` with the cause at `%w`. -/
def GoError.wrap (before : String) (e : GoError) (after : String) : GoError :=
  ⟨before ++ e.text ++ after, e.wraps⟩

/-- An error of a library, under the client's own words. -/
def GoError.because (before cause : String) : GoError := GoError.wrap before ⟨cause, none⟩ ""

def errNotReady : GoError := ⟨"relayly: peer session is not ready", some .errNotReady⟩

def errPeerKeyMismatch : GoError :=
  ⟨"relayly: peer's authenticated key does not match the pinned key", some .errPeerKeyMismatch⟩

def errKeyMismatch : GoError :=
  ⟨"relayly: announced static key does not match the server's record", some .errKeyMismatch⟩

/-- An X25519 key: 32 bytes. -/
structure Key32 where
  raw : Bytes
  length_raw : raw.length = 32

/-- The key whose bytes are all `b`. -/
def Key32.ofByte (b : UInt8) : Key32 := ⟨List.replicate 32 b, List.length_replicate⟩

abbrev PrivateKey := Key32
abbrev PublicKey := Key32

variable {N : Noise}

structure NoiseSession (N : Noise) where
  status : SessionStatus := .handshaking
  err : Option GoError := none
  initiator : Bool
  hs : N.Hs
  gotMsg1 : Bool := false
  sendCS : Option (CipherState N) := none
  recvCS : Option (CipherState N) := none
  peerStatic : Bytes := []

/-- A new initiator session and its `msg1`. -/
def newInitiatorSession (N : Noise) (priv : PrivateKey) (rand : Bytes) :
    Except GoError (NoiseSession N × Bytes) :=
  match N.newHandshakeState true priv.raw rand with
  | .error e => .error (GoError.because "relayly: starting noise handshake: " e)
  | .ok hs =>
    match N.writeMessage hs with
    | .error e => .error (GoError.because "relayly: writing noise msg1: " e)
    | .ok (msg1, hs, _) => .ok ({ initiator := true, hs }, msg1)

def newResponderSession (N : Noise) (priv : PrivateKey) (rand : Bytes) :
    Except GoError (NoiseSession N) :=
  match N.newHandshakeState false priv.raw rand with
  | .error e => .error (GoError.because "relayly: starting noise handshake: " e)
  | .ok hs => .ok { initiator := false, hs }

namespace NoiseSession

def ready (s : NoiseSession N) : Bool := s.status == .ready

def finishLocked (s : NoiseSession N) (sendCS recvCS : Option (CipherState N)) :
    NoiseSession N :=
  { s with sendCS, recvCS, peerStatic := N.peerStatic s.hs, status := .ready }

def failLocked (s : NoiseSession N) (err : GoError) : NoiseSession N :=
  if s.status = .failed then s else { s with status := .failed, err := some err }

/-- What `handleHandshakeMessage` leaves and returns. -/
structure Handled (N : Noise) where
  session : NoiseSession N
  reply : Option Bytes := none
  done : Bool
  err : Option GoError := none

/-- The session fails with `err`, which is also returned. -/
def failWith (s : NoiseSession N) (err : GoError) : Handled N :=
  { session := s.failLocked err, done := true, err := (s.failLocked err).err }

def handleHandshakeMessage (s : NoiseSession N) (data : Bytes) : Handled N :=
  if s.status ≠ .handshaking then
    { session := s, done := true,
      err := some ⟨"relayly: handshake message received after handshake finished", none⟩ }
  else if s.initiator then
    match N.readMessage s.hs data with
    | .error e => s.failWith (GoError.because "relayly: reading noise msg2: " e)
    | .ok (hs, _) =>
      match N.writeMessage hs with
      | .error e =>
        { s with hs }.failWith (GoError.because "relayly: writing noise msg3: " e)
      | .ok (reply, hs, cs) =>
        { session := { s with hs }.finishLocked (cs1 cs) (cs2 cs),
          reply := some reply, done := true }
  else if !s.gotMsg1 then
    match N.readMessage s.hs data with
    | .error e => s.failWith (GoError.because "relayly: reading noise msg1: " e)
    | .ok (hs, _) =>
      match N.writeMessage hs with
      | .error e =>
        { s with hs, gotMsg1 := true }.failWith
          (GoError.because "relayly: writing noise msg2: " e)
      | .ok (reply, hs, _) =>
        { session := { s with hs, gotMsg1 := true }, reply := some reply, done := false }
  else
    match N.readMessage s.hs data with
    | .error e => s.failWith (GoError.because "relayly: reading noise msg3: " e)
    | .ok (hs, cs) =>
      { session := { s with hs }.finishLocked (cs2 cs) (cs1 cs), done := true }

/-- A finished session always holds both cipher states, so the last case is a nil dereference
that no handshake of the library leads to. -/
def encrypt (s : NoiseSession N) (plaintext : Bytes) : Except GoError (Bytes × NoiseSession N) :=
  if s.status ≠ .ready then .error errNotReady
  else
    match s.sendCS with
    | some cs =>
      match cs.encrypt plaintext with
      | .ok (ciphertext, cs) => .ok (ciphertext, { s with sendCS := some cs })
      | .error e => .error ⟨e, none⟩
    | none => .error ⟨"runtime error: invalid memory address or nil pointer dereference", none⟩

def decrypt (s : NoiseSession N) (ciphertext : Bytes) :
    Except GoError (Bytes × NoiseSession N) :=
  if s.status ≠ .ready then .error errNotReady
  else
    match s.recvCS with
    | some cs =>
      match cs.decrypt ciphertext with
      | .ok (plaintext, cs) => .ok (plaintext, { s with recvCS := some cs })
      | .error e => .error ⟨e, none⟩
    | none => .error ⟨"runtime error: invalid memory address or nil pointer dereference", none⟩

end NoiseSession

end Relayly.Go
