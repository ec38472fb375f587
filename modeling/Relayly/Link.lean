import Relayly.Lib.Mirror
import Relayly.Go.Peers
import Relayly.Sdk.Client

/-!
# The link of a device, on the relay and in the client

The relay keeps for each device the one it is linked to, and tells a connected client of every
change: `welcome` lists the linked peer, `pair_complete` announces a link and `unpaired` its end.
A link may also come and go while the client is away. Binary frames are forwarded from the linked
peer alone and do not name it.
-/

namespace Relayly.Link

variable {N : Noise}

/-- What the relay sends to a client. -/
inductive Frame
  | welcome (peers : List (String × String))
  | pairCode (code : String) (expiresIn : ℕ)
  | pairComplete (peerID code peerStaticKey : String)
  | unpaired (peerID : String)
  | peerStatus (peerID : String) (online : Bool)
  | error (code message : String)
  | pong
  | binary (data : Bytes)

/-- `welcome` lists exactly the linked peer. -/
def snapshot (link : Option String) : Frame → Bool
  | .welcome peers => peers.map Prod.fst = link.toList
  | _ => false

/-- The link before a frame is sent and after. A device ID is not empty: the relay keeps the empty
string for a device that has no link. -/
def tells (link : Option String) (frame : Frame) (link' : Option String) : Bool :=
  match frame with
  | .welcome _ => false
  | .pairComplete peerID _ _ => peerID ≠ "" ∧ link = none ∧ link' = some peerID
  | .unpaired peerID => peerID ≠ "" ∧ link = some peerID ∧ link' = none
  | .binary _ => link.isSome ∧ link' = link
  | .pairCode .. | .peerStatus .. | .error .. | .pong => link' = link

/-- A change of the link while the client is away. -/
def changes : Option String → Option String → Bool
  | none, some peerID => peerID ≠ ""
  | some _, none => true
  | _, _ => false

/-- What a handler finds outside the client: the clock and the file system, and where the
iteration over an unordered map begins. -/
structure Found where
  env : Go.Env
  pick : ℕ

/-! ## The Go client -/

/-- What the application and its contexts do. -/
inductive GoAction
  | requestPairCode
  | acceptPair (code : String)
  | queue (i : ℕ)
  | expire (i : ℕ)
  | resume (i : ℕ)
  | send (peerID : String) (payload : Bytes)

def goAct (c : Go.FullClient N) : GoAction → Option (Go.FullClient N)
  | .requestPairCode => some c.requestPairCode
  | .acceptPair code => some (c.acceptPair code)
  | .queue i => c.queueCall i
  | .expire i => c.expireCall i
  | .resume i => c.resumeCall i
  | .send peerID payload => c.send peerID payload

/-- `dial` on its first frame, and `readLoop` with `dispatch` on the others. `dispatch` has no case
for `unpaired`. -/
def goHandle (c : Go.FullClient N) (found : Found) : Frame → Option (Go.FullClient N)
  | .welcome peers => some (c.applyWelcomePeers peers)
  | .pairCode code expiresIn => c.handlePairCode code expiresIn
  | .pairComplete peerID code peerStaticKey => c.handlePairComplete peerID code peerStaticKey
  | .peerStatus peerID online => c.handlePeerStatus peerID online
  | .error code message => c.handleError code message
  | .binary data => c.handleBinary found.pick found.env data
  | .unpaired _ | .pong => some c

def goLink (N : Noise) :
    Mirror.Protocol (Option String) Frame (Go.FullClient N) Found GoAction where
  snapshot
  tells
  changes
  handle := goHandle
  act := goAct

/-! ## The TypeScript client -/

/-- What the application and the resolutions under way do. -/
inductive TsAction
  | acceptPair (code : String)
  | send (peerID : String) (payload : Bytes)
  | pin (k : ℕ) (stamp : String) (fault : Option Sdk.StoreFault)
  | settle (k : ℕ)

def TsAction.event : TsAction → Sdk.Event
  | .acceptPair code => .register code true
  | .send peerID payload => .send peerID payload
  | .pin k stamp fault => .pin k stamp fault
  | .settle k => .settle k

/-- `handleMessage`: the event a frame is for the client, if any. `pair_code` and `pong` touch
neither its peers nor their sessions. -/
def tsEvent (found : Found) : Frame → Option Sdk.Event
  | .welcome peers => some (.welcome peers)
  | .pairComplete peerID code peerStaticKey =>
    some (.pairComplete (some peerID) (some code) (some peerStaticKey))
  | .unpaired peerID => some (.unpaired (some peerID))
  | .peerStatus peerID online => some (.peerStatus (some peerID) online)
  | .error .. => some .error
  | .binary data =>
    match decodeEnvelope data with
    | none => none
    | some (kind, payload) =>
      if kind = envelopeHandshake then some (.handshake found.pick found.env.now payload)
      else if kind = envelopeTransport then some (.transport found.pick payload)
      else none
  | .pairCode .. | .pong => none

def tsHandle (c : Sdk.Client N) (found : Found) (frame : Frame) : Option (Sdk.Client N) :=
  match tsEvent found frame with
  | none => some c
  | some e => c.step .ts e

def tsLink (N : Noise) : Mirror.Protocol (Option String) Frame (Sdk.Client N) Found TsAction where
  snapshot
  tells
  changes
  handle := tsHandle
  act c a := c.step .ts a.event

end Relayly.Link
