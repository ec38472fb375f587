import Relayly.Go.Client

/-!
# Two Go clients and the relay between them

Each endpoint has a client and what is in flight to it: binary frames, in the order they were sent,
and `peer_status` frames. A connection may drop at any moment, which loses any of the frames in
flight, and when both ends are connected again each of them is sent `peer_status online:true`.

A frame carries what its sender meant by it, and `sent` and `messages` record what was sent and
received; no step reads these.
-/

namespace Relayly.Go

variable {N : Noise}

inductive Tag
  | msg1
  | msg2
  | msg3
  | transport (payload : Bytes)
  deriving DecidableEq, Repr

/-- A binary frame in flight. -/
structure Frame where
  tag : Tag
  bytes : Bytes
  deriving DecidableEq, Repr

/-- What an output puts on the wire. -/
def Output.wire : Output → Option Bytes
  | .envelope kind payload => some (encodeEnvelope kind payload)
  | _ => none

/-- What an output puts on `c.messages`. -/
def Output.received : Output → Option Bytes
  | .message _ payload => some payload
  | _ => none

/-- `readLoop` on one binary frame. -/
def Client.handleBinary (c : Client N) (env : Env) (data : Bytes) :
    Option (Client N × List Output) :=
  match decodeEnvelope data with
  | none => some (c, [])
  | some (kind, payload) =>
    if kind = envelopeHandshake then c.handleHandshakeEnvelope env payload
    else if kind = envelopeTransport then some (c.handleTransportEnvelope payload)
    else some (c, [])

/-- The reply of an initiator is `msg3`, that of a responder `msg2`. -/
def Client.replyTag (c : Client N) : Tag :=
  if (c.peer.pending.bind (c.sessions[·]?)).any NoiseSession.initiator then .msg3 else .msg2

structure Endpoint (N : Noise) where
  client : Client N
  inbox : List Frame := []
  up : Bool := true
  statuses : ℕ := 0
  sent : List Bytes := []
  messages : List Bytes := []

namespace Endpoint

/-- The frames that outputs put on the wire to `e`. -/
def push (e : Endpoint N) (tag : Tag) (out : List Output) : Endpoint N :=
  { e with inbox := e.inbox ++ (out.filterMap Output.wire).map (Frame.mk tag) }

/-- `self` handles the next frame in flight to it. -/
def deliver (self other : Endpoint N) (env : Env) : Option (Endpoint N × Endpoint N) :=
  match self.up, self.inbox with
  | true, frame :: inbox =>
    (self.client.handleBinary env frame.bytes).map fun (client, out) =>
      ({ self with client, inbox, messages := self.messages ++ out.filterMap Output.received },
        other.push self.client.replyTag out)
  | _, _ => none

/-- `self` handles a `peer_status online:true`. -/
def status (self other : Endpoint N) : Option (Endpoint N × Endpoint N) :=
  match self.up, self.statuses with
  | true, statuses + 1 =>
    let (client, out) := self.client.handlePeerStatus other.client.deviceID true
    some ({ self with client, statuses }, other.push .msg1 out)
  | _, _ => none

/-- `Send` on `self`. -/
def send (self other : Endpoint N) (payload : Bytes) : Endpoint N × Endpoint N :=
  match self.client.send self.client.peer.id payload with
  | .error _ => (self, other)
  | .ok (client, bytes) =>
    ({ self with client, sent := self.sent ++ [payload] },
      { other with inbox := other.inbox ++ [⟨.transport payload, bytes⟩] })

/-- The connection of `self` is up again. -/
def connect (self other : Endpoint N) : Option (Endpoint N × Endpoint N) :=
  if self.up then none
  else if other.up then
    some ({ self with up := true, statuses := self.statuses + 1 },
      { other with statuses := other.statuses + 1 })
  else some ({ self with up := true }, other)

end Endpoint

structure Pair (N : Noise) where
  a : Endpoint N
  b : Endpoint N

inductive Side
  | a
  | b
  deriving DecidableEq, Repr

inductive PairLabel
  | deliver (side : Side) (env : Env)
  | status (side : Side)
  | send (side : Side) (payload : Bytes)
  | connect (side : Side)
  | drop (side : Side) (toA toB : List Frame)
  | lose (toA toB : List Frame)

namespace Pair

/-- A step of `side`, given as a function of that endpoint and of the other one. -/
def act (p : Pair N) (side : Side)
    (f : Endpoint N → Endpoint N → Option (Endpoint N × Endpoint N)) : Option (Pair N) :=
  match side with
  | .a => (f p.a p.b).map fun (a, b) => { a, b }
  | .b => (f p.b p.a).map fun (b, a) => { a, b }

/-- Of the frames in flight `toA` and `toB` are left. -/
def keep (p : Pair N) (toA toB : List Frame) : Option (Pair N) :=
  if toA.Sublist p.a.inbox ∧ toB.Sublist p.b.inbox then
    some { a := { p.a with inbox := toA }, b := { p.b with inbox := toB } }
  else none

/-- One step; frames are lost when a connection drops and while one is down. -/
def step (p : Pair N) : PairLabel → Option (Pair N)
  | .deliver side env => p.act side fun self other => self.deliver other env
  | .status side => p.act side Endpoint.status
  | .send side payload => p.act side fun self other => some (self.send other payload)
  | .connect side => p.act side Endpoint.connect
  | .drop side toA toB =>
    (p.keep toA toB).bind fun p => p.act side fun self other =>
      some ({ self with up := false, statuses := 0 }, other)
  | .lose toA toB => if p.a.up && p.b.up then none else p.keep toA toB

end Pair

end Relayly.Go
