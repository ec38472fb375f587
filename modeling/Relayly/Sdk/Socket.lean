import Mathlib.Algebra.Group.Nat.Defs
import Relayly.Sdk.Client

/-!
# The TypeScript and the C++ client on their connections

Both clients leave the connection to a WebSocket library that reconnects by itself, and are called
back for each connection that opens and each frame that comes in. The TypeScript client looks at the
type of a text frame and at nothing else. The C++ client takes the first text frame of a connection
for its `welcome`, and remembers only that it has had one.
-/

namespace Relayly.Sdk

variable {N : Noise}

inductive SocketSdk
  | ts
  | cpp
  deriving DecidableEq, Repr

def SocketSdk.port : SocketSdk → Port
  | .ts => .ts
  | .cpp => .cpp

def protocolVersion : ℕ := 1

/-- A text frame as it is parsed. A field is `none` where it is absent or of another type; in
particular a `protocol_version` that is no unsigned integer. -/
inductive Text
  | malformed
  | welcome (version : Option ℕ) (peers : List (String × String))
  | pairCode (code : Option String) (expiresIn : Option ℕ)
  | pairComplete (peerID code peerStaticKey : Option String)
  | unpaired (peerID : Option String)
  | peerStatus (peerID : Option String) (online : Option Bool)
  | error (code message : Option String)
  | pong
  | other (type : String)
  deriving DecidableEq, Repr

/-- A `welcome` of the version that the clients implement. -/
def Text.welcomes : Text → Bool
  | .welcome version _ => version = some protocolVersion
  | _ => false

/-- A `welcome` of any other version. -/
def Text.refuses : Text → Bool
  | .welcome version _ => version ≠ some protocolVersion
  | _ => false

/-- The type of the frame is one that `handleControlMessage` or `Dispatch` has a handler for. -/
def Text.handled : SocketSdk → Text → Bool
  | _, .pairCode .. | _, .pairComplete .. | _, .peerStatus .. | _, .error .. => true
  | .ts, .welcome .. | .ts, .unpaired _ => true
  | _, _ => false

/-- The frame is an envelope of a kind that there is a handler for. -/
def handledEnvelope (data : Bytes) : Bool :=
  (decodeEnvelope data).any fun e => e.1 = envelopeHandshake ∨ e.1 = envelopeTransport

/-- A client and its connection. `codeWaiter` is `pendingPairRequest` or `code_waiter`, as far as it
is set; `pendingUnpair` is there in TypeScript only, `awaitingWelcome` in C++ only. `welcomed` and
`refused` record which `welcome` frames the connection has delivered; no handler reads them. -/
structure Socket (N : Noise) where
  client : Client N
  codeWaiter : Bool := false
  pendingUnpair : Bool := false
  awaitingWelcome : Bool := true
  connected : Bool := false
  welcomed : Bool := false
  refused : Bool := false

/-- What the application and the resolutions under way do. -/
inductive SocketAction
  | register (code : String) (weAreAcceptor : Bool)
  | send (peerID : String) (payload : Bytes)
  | pin (k : ℕ) (stamp : String) (fault : Option StoreFault)
  | settle (k : ℕ)

def SocketAction.event : SocketAction → Event
  | .register code weAreAcceptor => .register code weAreAcceptor
  | .send peerID payload => .send peerID payload
  | .pin k stamp fault => .pin k stamp fault
  | .settle k => .settle k

inductive SocketLabel
  | opened
  | closed
  | text (t : Text)
  | binary (pick now : ℕ) (data : Bytes)
  | requestPairCode
  | unpair
  | act (a : SocketAction)

namespace Socket

/-- `handleControlMessage`. -/
def handleControlMessage (s : Socket N) : Text → Socket N
  | .welcome version peers =>
    if version = some protocolVersion then { s with client := s.client.handleWelcome .ts peers }
    else s
  | .pairCode code _ =>
    if !s.codeWaiter ∨ code.getD "" = "" then s else { s with codeWaiter := false }
  | .pairComplete peerID code peerStaticKey =>
    { s with client := s.client.handlePairComplete .ts peerID code peerStaticKey }
  | .unpaired peerID =>
    { s with client := s.client.handleUnpaired .ts peerID, pendingUnpair := false }
  | .peerStatus peerID online =>
    { s with client := s.client.handlePeerStatus peerID (online.getD false) }
  | .error _ _ =>
    { s with
      client := { s.client with pairWaiters := fun _ => none }
      codeWaiter := false
      pendingUnpair := false }
  | .malformed | .pong | .other _ => s

/-- `Decode` keeps the low 32 bits of `protocol_version`. -/
def acceptedVersion (version : Option ℕ) : Bool := version.getD 0 % 2 ^ 32 = protocolVersion

/-- `HandleWelcome`. `FailConnect` only tells the caller, which stops the socket after the first
connection, and does nothing after another one. -/
def handleWelcome (s : Socket N) (t : Text) : Socket N :=
  let s := { s with awaitingWelcome := false }
  match t with
  | .welcome version peers =>
    if acceptedVersion version then { s with client := s.client.handleWelcome .cpp peers } else s
  | _ => s

/-- `Dispatch`. -/
def dispatch (s : Socket N) : Text → Socket N
  | .pairCode _ _ => { s with codeWaiter := false }
  | .pairComplete peerID code peerStaticKey =>
    { s with client := s.client.handlePairComplete .cpp peerID code peerStaticKey }
  | .peerStatus peerID online =>
    { s with client := s.client.handlePeerStatus peerID (online.getD false) }
  | .error _ _ =>
    { s with client := { s.client with pairWaiters := fun _ => none }, codeWaiter := false }
  | .malformed | .welcome .. | .unpaired _ | .pong | .other _ => s

/-- `OnText`. -/
def onText (s : Socket N) (t : Text) : Socket N :=
  if t = .malformed then s
  else if s.awaitingWelcome then s.handleWelcome t
  else s.dispatch t

def handleText (sdk : SocketSdk) (s : Socket N) (t : Text) : Socket N :=
  match sdk with
  | .ts => s.handleControlMessage t
  | .cpp => s.onText t

/-- `handleMessage` and `OnBinary` on a binary frame. -/
def handleBinary (sdk : SocketSdk) (s : Socket N) (pick now : ℕ) (data : Bytes) : Socket N :=
  match decodeEnvelope data with
  | none => s
  | some (kind, payload) =>
    if kind = envelopeHandshake then
      { s with client := s.client.handleHandshakeEnvelope sdk.port pick now payload }
    else if kind = envelopeTransport then
      { s with client := s.client.handleTransportEnvelope sdk.port pick payload }
    else s

/-- What the connection has delivered, with this frame. -/
def deliver (s : Socket N) (t : Text) : Socket N :=
  { s with welcomed := s.welcomed || t.welcomes, refused := s.refused || t.refuses }

/-- A frame comes in only on a connection, and while the client reads. -/
def reading (sdk : SocketSdk) (s : Socket N) : Bool := s.connected && s.client.reads sdk.port

/-- The state after a step; `none` where it is not enabled. -/
def step (sdk : SocketSdk) (s : Socket N) : SocketLabel → Option (Socket N)
  | .opened =>
    some { s with awaitingWelcome := true, connected := true, welcomed := false, refused := false }
  | .closed => some { s with connected := false }
  | .text t => if s.reading sdk then some ((s.handleText sdk t).deliver t) else none
  | .binary pick now data =>
    if s.reading sdk then some (s.handleBinary sdk pick now data) else none
  | .requestPairCode => some { s with codeWaiter := true }
  | .unpair => if sdk = .ts then some { s with pendingUnpair := true } else none
  | .act a => (s.client.step sdk.port a.event).map fun client => { s with client }

/-- A handler of the frame runs. -/
def dispatches (sdk : SocketSdk) (s : Socket N) : SocketLabel → Bool
  | .text t => t.handled sdk || (sdk == .cpp && s.awaitingWelcome && t ≠ .malformed)
  | .binary _ _ data => handledEnvelope data
  | _ => false

end Socket

end Relayly.Sdk
