import Relayly.Lib.Json

/-!
# The control frames of `sdk/cpp/src/wire.cpp`

`json::parse` and `dump` are arguments: `parse` gives the document of a text, if it is JSON, and
`dump` a text of a document. `value` throws if the key is there with a value that is not a string,
and nothing in `Decode` catches that.
-/

namespace Relayly.Sdk.Cpp

/-- A number as `json::parse` stores it: an integer without a sign, one with a sign, or a `double`,
here its bits. -/
inductive Number
  | unsigned (n : UInt64)
  | integer (n : Int64)
  | float (bits : UInt64)
  deriving DecidableEq, Repr

/-- `nlohmann::json`. -/
abbrev Document := Json Number

structure WirePeer where
  id : String := ""
  staticKey : String := ""
  deriving DecidableEq, Repr

structure WireMessage where
  type : String
  protocolVersion : Option UInt32 := none
  deviceID : Option String := none
  peers : Option (List WirePeer) := none
  staticKey : Option String := none
  code : Option String := none
  expiresIn : Option UInt64 := none
  peerID : Option String := none
  peerStaticKey : Option String := none
  online : Option Bool := none
  message : Option String := none
  deriving DecidableEq, Repr

namespace WireMessage

/-! ## `Encode` -/

/-- `{{"id", p.id}, {"static_key", p.static_key}}`. -/
def peerFields (p : WirePeer) : List (String × Option Document) :=
  [("id", some (.str p.id)), ("static_key", some (.str p.staticKey))]

def encodePeer (p : WirePeer) : Document := .obj (Json.assignAll (peerFields p))

/-- What `Encode` enters into the object, in its order. -/
def fields (m : WireMessage) : List (String × Option Document) :=
  [("type", some (.str m.type)),
    ("protocol_version", m.protocolVersion.map fun v => .num (.unsigned v.toUInt64)),
    ("device_id", m.deviceID.map .str),
    ("peers", m.peers.map fun peers => .arr (peers.map encodePeer)),
    ("static_key", m.staticKey.map .str),
    ("code", m.code.map .str),
    ("expires_in", m.expiresIn.map fun v => .num (.unsigned v)),
    ("peer_id", m.peerID.map .str),
    ("peer_static_key", m.peerStaticKey.map .str),
    ("online", m.online.map .bool),
    ("message", m.message.map .str)]

variable {Text : Type}

def encode (dump : Document → Text) (m : WireMessage) : Text :=
  dump (.obj (Json.assignAll m.fields))

/-! ## `Decode` -/

/-- What `Decode` can throw. -/
inductive JsonError
  | typeError
  deriving DecidableEq, Repr

/-- `entry.value(key, "")`. -/
def value (members : List (String × Document)) (key : String) : Except JsonError String :=
  match members.lookup key with
  | none => .ok ""
  | some (.str s) => .ok s
  | some _ => .error .typeError

/-- The loop over the entries of `peers`. -/
def decodePeers : List Document → Except JsonError (List WirePeer)
  | [] => .ok []
  | .obj members :: rest => do
    let id ← value members "id"
    let staticKey ← value members "static_key"
    let peers ← decodePeers rest
    return { id, staticKey } :: peers
  | _ :: rest => decodePeers rest

/-- A key that is there with a string. -/
def stringAt (members : List (String × Document)) (key : String) : Option String :=
  match members.lookup key with
  | some (.str s) => some s
  | _ => none

/-- A key that is there with a number that `is_number_unsigned`. -/
def unsignedAt (members : List (String × Document)) (key : String) : Option UInt64 :=
  match members.lookup key with
  | some (.num (.unsigned n)) => some n
  | _ => none

def boolAt (members : List (String × Document)) (key : String) : Option Bool :=
  match members.lookup key with
  | some (.bool b) => some b
  | _ => none

def peersAt (members : List (String × Document)) : Except JsonError (Option (List WirePeer)) :=
  match members.lookup "peers" with
  | some (.arr entries) => (decodePeers entries).map some
  | _ => .ok none

/-- `get<std::uint32_t>` keeps the low 32 bits. -/
def decodeMembers (type : String) (members : List (String × Document)) :
    Except JsonError WireMessage :=
  (peersAt members).map fun peers =>
    { type
      protocolVersion := (unsignedAt members "protocol_version").map UInt64.toUInt32
      deviceID := stringAt members "device_id"
      peers
      staticKey := stringAt members "static_key"
      code := stringAt members "code"
      expiresIn := unsignedAt members "expires_in"
      peerID := stringAt members "peer_id"
      peerStaticKey := stringAt members "peer_static_key"
      online := boolAt members "online"
      message := stringAt members "message" }

def decode (parse : Text → Option Document) (text : Text) :
    Except JsonError (Option WireMessage) :=
  match parse text with
  | some (.obj members) =>
    match members.lookup "type" with
    | some (.str type) => (decodeMembers type members).map some
    | _ => .ok none
  | _ => .ok none

end WireMessage

end Relayly.Sdk.Cpp
