import Relayly.Relay.Frame
import Relayly.Sdk.WireMessage

/-!
# Control frames between the relay and the C++ client

`sendJSON` writes the fields of a struct in their order and leaves out those that are empty. The texts
themselves are left open: `json::parse` and `json::dump` are arguments, and so is what the relay's
library makes of a text. Of these, only what they do with the frames of the two sides is assumed.
-/

namespace Relayly.Relay

open GoJson

/-- `controlMessage`, with all its fields. -/
structure OutMessage where
  type : String
  protocolVersion : ℤ := 0
  deviceID : String := ""
  peers : List PeerInfo := []
  staticKey : String := ""
  code : String := ""
  expiresIn : ℤ := 0
  peerID : String := ""
  peerStaticKey : String := ""
  online : Option Bool := none
  message : String := ""

/-- What the server hands to `sendJSON`. -/
def Control.message : Control → OutMessage
  | .welcome protocolVersion deviceID peers => { type := "welcome", protocolVersion, deviceID, peers }
  | .peerStatus peerID online => { type := "peer_status", peerID, online := some online }
  | .reply (.pairCode code expiresIn) => { type := "pair_code", code, expiresIn }
  | .reply (.pairComplete code peerID peerStaticKey) =>
    { type := "pair_complete", code, peerID, peerStaticKey }
  | .reply (.unpaired peerID) => { type := "unpaired", peerID }
  | .reply .pong => { type := "pong" }
  | .reply (.error code message) => { type := "error", code, message }

/-! ## `json.Marshal` -/

/-- A field of type `string` with `omitempty`. -/
def omitString (s : String) : Option String := if s = "" then none else some s

/-- A field of type `int` with `omitempty`. -/
def omitInt (n : ℤ) : Option ℤ := if n = 0 then none else some n

def marshalPeer (p : PeerInfo) : Document :=
  .obj [("id", .str p.id), ("static_key", .str p.staticKey)]

def omitPeers (peers : List PeerInfo) : Option (List PeerInfo) := if peers = [] then none else some peers

namespace OutMessage

def fields (m : OutMessage) : List (String × Option Document) :=
  [("type", some (.str m.type)),
    ("protocol_version", (omitInt m.protocolVersion).map fun n => .num (.integer n)),
    ("device_id", (omitString m.deviceID).map .str),
    ("peers", (omitPeers m.peers).map fun peers => .arr (peers.map marshalPeer)),
    ("static_key", (omitString m.staticKey).map .str),
    ("code", (omitString m.code).map .str),
    ("expires_in", (omitInt m.expiresIn).map fun n => .num (.integer n)),
    ("peer_id", (omitString m.peerID).map .str),
    ("peer_static_key", (omitString m.peerStaticKey).map .str),
    ("online", m.online.map .bool),
    ("message", (omitString m.message).map .str)]

def marshal (m : OutMessage) : Document := .obj (Json.members m.fields)

end OutMessage

end Relayly.Relay

namespace Relayly.Sdk.Cpp

open GoJson (NumberText)

/-! ## `json::parse` and `json::dump` -/

variable {Text : Type}

/-- `json::parse` on the text of a frame of the relay: each object becomes the map of its members, and
an integer without a sign that fits 64 bits is read as such. -/
structure ParsesFrames (print : GoJson.Document → Text) (parse : Text → Option Document)
    (read : NumberText → Number) : Prop where
  unsigned : ∀ n : UInt64, read (.integer n.toNat) = .unsigned n
  frame : ∀ m : Relay.OutMessage, parse (print m.marshal) = some (m.marshal.map read).toMaps

/-- The relay's library on what `json::dump` writes for a frame of the client: the members are there
in the order of the map, and an integer without a sign is spelled as one. -/
structure DumpsFrames (dump : Document → Text) (scan : Text → Option GoJson.Document)
    (write : Number → NumberText) : Prop where
  unsigned : ∀ n : UInt64, write (.unsigned n) = .integer n.toNat
  frame : ∀ m : WireMessage,
    scan (m.encode dump) = some (Json.map write (.obj (Json.assignAll m.fields)))

/-! ## What the client sends -/

namespace WireMessage

def announceKey (key : String) : WireMessage := { type := "announce_key", staticKey := some key }
def pairRequest : WireMessage := { type := "pair_request" }
def pairAccept (code : String) : WireMessage := { type := "pair_accept", code := some code }
def ping : WireMessage := { type := "ping" }

end WireMessage

end Relayly.Sdk.Cpp
