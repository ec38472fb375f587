import Relayly.Noise

/-!
# The sessions of the TypeScript, Rust, Python and C++ clients

The four ports of the Go client drive one handshake each in a `NoiseSession`. They agree on what
a session is and differ in how they find out that the pattern has ended and in what a message does
to a session that has already ended.
-/

namespace Relayly.Sdk

variable {N : Noise}

/-- The ports. -/
inductive Port
  | ts
  | rust
  | py
  | cpp
  deriving DecidableEq, Repr

/-- A `NoiseSession`. `gotFirstMessage` is a field of the TypeScript class only. -/
structure Session (N : Noise) where
  status : SessionStatus := .handshaking
  initiator : Bool
  hs : N.Hs
  gotFirstMessage : Bool := false
  sendCipher : Option (CipherState N) := none
  recvCipher : Option (CipherState N) := none
  peerStatic : Option Bytes := none

/-- `startAsInitiator`, `as_initiator`, `AsInitiator`: the session and its `msg1`. -/
def asInitiator (N : Noise) (priv rand : Bytes) : Except String (Session N × Bytes) :=
  match N.newHandshakeState true priv rand with
  | .error e => .error e
  | .ok hs =>
    match N.writeMessage hs with
    | .error e => .error e
    | .ok (msg1, hs, _) => .ok ({ initiator := true, hs }, msg1)

/-- `startAsResponder`, `as_responder`, `AsResponder`. -/
def asResponder (N : Noise) (priv rand : Bytes) : Except String (Session N) :=
  match N.newHandshakeState false priv rand with
  | .error e => .error e
  | .ok hs => .ok { initiator := false, hs }

namespace Session

def ready (s : Session N) : Bool := s.status == .ready

/-- The end of the pattern, with the transport keys in the order of the roles. -/
def finish (s : Session N) (keys : N.Key × N.Key) : Session N :=
  let first : CipherState N := { key := keys.1 }
  let second : CipherState N := { key := keys.2 }
  { s with
    status := .ready
    peerStatic := some (N.peerStatic s.hs)
    sendCipher := some (if s.initiator then first else second)
    recvCipher := some (if s.initiator then second else first) }

def fail (s : Session N) : Session N := { s with status := .failed }

/-- `finish` where the message ended the pattern. -/
def finishIf (s : Session N) : Option (N.Key × N.Key) → Session N
  | some keys => s.finish keys
  | none => s

/-- TypeScript: a message to a session that has ended throws, which is `none`. -/
def handleTs (s : Session N) (data : Bytes) : Option (Session N × Option Bytes) :=
  if s.status ≠ .handshaking then none
  else if s.initiator then
    match N.readMessage s.hs data with
    | .error _ => some (s.fail, none)
    | .ok (hs, _) =>
      match N.writeMessage hs with
      | .error _ => some ({ s with hs }.fail, none)
      | .ok (message, hs, result) => some ({ s with hs }.finishIf result, some message)
  else if !s.gotFirstMessage then
    match N.readMessage s.hs data with
    | .error _ => some ({ s with gotFirstMessage := true }.fail, none)
    | .ok (hs, _) =>
      match N.writeMessage hs with
      | .error _ => some ({ s with hs, gotFirstMessage := true }.fail, none)
      | .ok (message, hs, _) => some ({ s with hs, gotFirstMessage := true }, some message)
  else
    match N.readMessage s.hs data with
    | .error _ => some (s.fail, none)
    | .ok (hs, result) => some ({ s with hs }.finishIf result, none)

/-- Rust and C++: read, and write unless that ended the pattern, whatever the role. A session that
has ended fails. -/
def handleRustCpp (s : Session N) (data : Bytes) : Session N × Option Bytes :=
  if s.status ≠ .handshaking then (s.fail, none)
  else
    match N.readMessage s.hs data with
    | .error _ => (s.fail, none)
    | .ok (hs, some keys) => ({ s with hs }.finish keys, none)
    | .ok (hs, none) =>
      match N.writeMessage hs with
      | .error _ => ({ s with hs }.fail, none)
      | .ok (reply, hs, split) => ({ s with hs }.finishIf split, some reply)

/-- Python: the initiator always writes, the responder unless reading ended the pattern. A session
that has ended fails. -/
def handlePy (s : Session N) (data : Bytes) : Session N × Option Bytes :=
  if s.status ≠ .handshaking then (s.fail, none)
  else if s.initiator then
    match N.readMessage s.hs data with
    | .error _ => (s.fail, none)
    | .ok (hs, _) =>
      match N.writeMessage hs with
      | .error _ => ({ s with hs }.fail, none)
      | .ok (reply, hs, split) => ({ s with hs }.finishIf split, some reply)
  else
    match N.readMessage s.hs data with
    | .error _ => (s.fail, none)
    | .ok (hs, some keys) => ({ s with hs }.finish keys, none)
    | .ok (hs, none) =>
      match N.writeMessage hs with
      | .error _ => ({ s with hs }.fail, none)
      | .ok (reply, hs, _) => ({ s with hs }, some reply)

/-- The session after a handshake message and the reply, if any; `none` throws. -/
def handleHandshakeMessage (port : Port) (s : Session N) (data : Bytes) :
    Option (Session N × Option Bytes) :=
  match port with
  | .ts => s.handleTs data
  | .rust => some (s.handleRustCpp data)
  | .py => some (s.handlePy data)
  | .cpp => some (s.handleRustCpp data)

/-- `none` where the session is not ready or its counter has run out. -/
def encrypt (s : Session N) (plaintext : Bytes) : Option (Bytes × Session N) :=
  if s.status ≠ .ready then none
  else
    match s.sendCipher with
    | none => none
    | some cs =>
      match cs.encrypt plaintext with
      | .ok (ciphertext, cs) => some (ciphertext, { s with sendCipher := some cs })
      | .error _ => none

/-- `none` where the session is not ready or the ciphertext does not authenticate. -/
def decrypt (s : Session N) (ciphertext : Bytes) : Option (Bytes × Session N) :=
  if s.status ≠ .ready then none
  else
    match s.recvCipher with
    | none => none
    | some cs =>
      match cs.decrypt ciphertext with
      | .ok (plaintext, cs) => some (plaintext, { s with recvCipher := some cs })
      | .error _ => none

end Session

end Relayly.Sdk
