import Relayly.Go.PeerStore
import Relayly.Lib.GoJson

/-!
# `LoadPeerStore`, and calls of `PinOrVerify` on what it returns

The file is decoded into the map that is already there. A file that holds `null` makes that map nil,
and a `null` in the place of a pin is a pin with an empty key.
-/

namespace Relayly.Go

open GoJson

/-- What `os.ReadFile` finds; a text that is not JSON has no document. -/
inductive StoreFile
  | absent
  | unreadable
  | empty
  | text (doc : Option Document)

/-- The field names of `pinnedPeer`. -/
def pinnedPeerNames : List String := ["static_key", "pinned_at"]

def decodePin : Document → PinnedPeer
  | .obj members =>
    { staticKey := stringField pinnedPeerNames "static_key" members
      pinnedAt := stringField pinnedPeerNames "pinned_at" members }
  | _ => { staticKey := "", pinnedAt := "" }

/-- The members in their order; the last one of a key counts. -/
def decodePins (members : List (String × Document)) : Pins :=
  members.foldl (fun pins m => Function.update pins m.1 (some (decodePin m.2))) fun _ => none

/-- `json.Unmarshal(data, &ps.peers)`: `none` is an error, `some none` a nil map. -/
def unmarshalPins (doc : Document) : Option (Option Pins) :=
  if maxNestingDepth < doc.depth then none
  else
    match doc with
    | .null => some none
    | .obj members =>
      if members.all fun m => fitsStrings pinnedPeerNames m.2 then some (some (decodePins members))
      else none
    | _ => none

/-- `none` where `LoadPeerStore` returns an error. -/
def loadPeerStore : StoreFile → Option PeerStore
  | .absent => some { peers := some fun _ => none, disk := none }
  | .unreadable => none
  | .empty => some { peers := some fun _ => none, disk := some fun _ => none }
  | .text doc =>
    (doc.bind unmarshalPins).map fun peers => { peers, disk := some (peers.getD fun _ => none) }

/-- `json.MarshalIndent(ps.peers, "", "  ")`, for the entries of the map. -/
def marshalPin (pin : PinnedPeer) : Document :=
  .obj [("static_key", .str pin.staticKey), ("pinned_at", .str pin.pinnedAt)]

def marshalPins (entries : List (String × PinnedPeer)) : Document :=
  .obj (entries.map fun e => (e.1, marshalPin e.2))

/-- The map of some entries. -/
def pinsOf (entries : List (String × PinnedPeer)) : Pins :=
  entries.foldl (fun pins e => Function.update pins e.1 (some e.2)) fun _ => none

/-- A call of `PinOrVerify`, at a time, with what goes wrong if the store has to be saved. -/
structure PinCall where
  peerID : String
  key : String
  stamp : String
  fault : Option SaveFault
  deriving DecidableEq, Repr

namespace PeerStore

/-- What a store that is loaded now has for `peerID`. -/
def onDisk (ps : PeerStore) (peerID : String) : Option PinnedPeer :=
  ps.disk.bind fun pins => pins peerID

def call (ps : PeerStore) (c : PinCall) : Option (PeerStore × Option GoError) :=
  ps.pinOrVerify c.peerID c.key c.stamp c.fault

/-- After a call that returned nil, the key it was called with is on disk. -/
def Kept (ps : PeerStore) (c : PinCall) (err : Option GoError) : Prop :=
  err = none → (ps.onDisk c.peerID).map PinnedPeer.staticKey = some c.key

/-- The law: no call panics, and each one that returns nil has persisted its pin. -/
def Persists (ps : PeerStore) : List PinCall → Prop
  | [] => True
  | c :: calls =>
    ∃ ps' err, ps.call c = some (ps', err) ∧ ps'.Kept c err ∧ ps'.Persists calls

end PeerStore

/-- The calls so far: the peers that have a pin in memory, and the pins that no save has written
since they were made. -/
structure PinHistory where
  pinned : String → Bool
  unsaved : List (String × String)

namespace PinHistory

/-- A new pin is saved together with all pins before it, or with none of them. -/
def step (h : PinHistory) (c : PinCall) : Option PinHistory :=
  if h.pinned c.peerID then some h
  else
    some
      { pinned := Function.update h.pinned c.peerID true
        unsaved := if c.fault.isSome then (c.peerID, c.key) :: h.unsaved else [] }

/-- Before the first call. -/
def start (pins : Pins) : PinHistory where
  pinned peerID := (pins peerID).isSome
  unsaved := []

/-- The call does not repeat a pin that is not saved. -/
def Settled (h : PinHistory) (c : PinCall) : Prop := (c.peerID, c.key) ∉ h.unsaved

instance (h : PinHistory) (c : PinCall) : Decidable (h.Settled c) :=
  inferInstanceAs (Decidable ((c.peerID, c.key) ∉ h.unsaved))

end PinHistory

end Relayly.Go
