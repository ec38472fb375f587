import Relayly.Lib.GoJson
import Relayly.Relay.Hub

/-!
# Decoding a control frame

`handleControl` decodes every text frame into one struct, whatever its type, before it looks at the
type.
-/

namespace Relayly.Relay

open GoJson

/-- The field names of `peerInfo`. -/
def peerInfoNames : List String := ["id", "static_key"]

/-- The fields of `controlMessage`, each with the values that can be decoded into it. -/
def controlFields : List (String × (Document → Bool)) :=
  [("type", fitsString), ("protocol_version", fitsInt), ("device_id", fitsString),
    ("peers", fitsSlice (fitsStrings peerInfoNames)), ("static_key", fitsString),
    ("code", fitsString), ("expires_in", fitsInt), ("peer_id", fitsString),
    ("peer_static_key", fitsString), ("online", fitsBool), ("message", fitsString)]

def controlNames : List String := controlFields.map (·.1)

/-- No error is reported for a member. -/
def fitsControl (m : String × Document) : Bool :=
  ((fieldFor controlNames m.1).bind fun name => controlFields.lookup name).all fun fits => fits m.2

/-- The fields of `controlMessage` that the handlers read. -/
structure ControlMessage where
  type : String := ""
  staticKey : String := ""
  code : String := ""
  deriving DecidableEq, Repr

def decodeControl (members : List (String × Document)) : ControlMessage where
  type := stringField controlNames "type" members
  staticKey := stringField controlNames "static_key" members
  code := stringField controlNames "code" members

/-- `json.Unmarshal(raw, &msg)` for the document of `raw`; `none` is an error. -/
def unmarshalControl (doc : Document) : Option ControlMessage :=
  if maxNestingDepth < doc.depth then none
  else
    match doc with
    | .null => some {}
    | .obj members => if members.all fitsControl then some (decodeControl members) else none
    | _ => none

/-- The `switch` of `handleControl`. -/
def ControlMessage.inbound (msg : ControlMessage) : Inbound :=
  if msg.type = "announce_key" then .announceKey msg.staticKey
  else if msg.type = "pair_request" then .pairRequest
  else if msg.type = "pair_accept" then .pairAccept msg.code
  else if msg.type = "unpair" then .unpair
  else if msg.type = "ping" then .ping
  else .unknown

/-- What `handleControl` makes of a text frame; `none` is one that is not JSON. -/
def inbound (frame : Option Document) : Inbound :=
  match frame.bind unmarshalControl with
  | none => .malformed
  | some msg => msg.inbound

end Relayly.Relay
