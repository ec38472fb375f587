import Relayly.Relay.Store
import Relayly.Wire

/-!
# The relay

`hub.go`, `client.go`, `handler.go` and `control.go`. Each connection has a goroutine that runs
`Handler` and then `readPump`, and `Hub.Run` is one more. Where a goroutine stands is its `Pc`; a
step of it is one access to what they share: a call of the database, the map of clients or the
codes, `setPeer` or `Peer`, a frame for a send queue, a channel of the hub.
-/

namespace Relayly.Relay

structure PeerInfo where
  id : String
  staticKey : String
  deriving DecidableEq, Repr

/-- A `controlMessage` that answers one, on either side of a link. -/
inductive Reply
  | pairCode (code : String) (expiresIn : ℕ)
  | pairComplete (code peerID peerStaticKey : String)
  | unpaired (peerID : String)
  | pong
  | error (code message : String)
  deriving DecidableEq, Repr

/-- `controlMessage`, as the server sends it. -/
inductive Control
  | welcome (protocolVersion : ℕ) (deviceID : String) (peers : List PeerInfo)
  | peerStatus (peerID : String) (online : Bool)
  | reply (msg : Reply)
  deriving DecidableEq, Repr

inductive Payload
  | text (msg : Control)
  | binary (data : Bytes)
  deriving DecidableEq, Repr

structure WsFrame where
  data : Payload
  closeAfter : Bool := false
  deriving DecidableEq, Repr

def protocolVersion : ℕ := 1
def sendBufferSize : ℕ := 256
def channelSize : ℕ := 64

/-- `PairingCodeTTL`, in nanoseconds. -/
def pairingCodeTTL : ℕ := 5 * 60 * 1000000000

/-- A frame that `readPump` reads. -/
inductive Inbound
  | malformed
  | announceKey (staticKey : String)
  | pairRequest
  | pairAccept (code : String)
  | unpair
  | ping
  | unknown
  | binary (payload : Bytes)
  deriving DecidableEq, Repr

/-- The next access of `sendWelcome`. -/
inductive Welcome
  | staticKey (peer : String)
  | welcome (peers : List PeerInfo) (peer : Option String)
  | lookup (peer : String)
  | status (peer : String) (online : Bool)
  deriving DecidableEq, Repr

/-- The next access of `handlePairAccept`; the `pair_complete` of the requester is its last. -/
inductive PairAccept
  | take (code : String)
  | pairDevices (code requesterID : String)
  | myKey (code requesterID : String)
  | requesterKey (code requesterID myKey : String)
  | setPeer (code requesterID myKey requesterKey : String)
  | complete (code requesterID myKey requesterKey : String)
  | lookup (code requesterID myKey : String)
  | setRequester (code requesterID myKey : String) (requester : ℕ)
  deriving DecidableEq, Repr

/-- The next access of `handleUnpair`; the `unpaired` of the peer is its last. -/
inductive Unpair
  | peer
  | unpairDevice (peerID : String)
  | setPeer (peerID : String)
  | unpaired (peerID : String)
  | lookup (peerID : String)
  | clearPeer (peerID : String) (peer : ℕ)
  deriving DecidableEq, Repr

/-- The next access for a binary frame: `Peer`, then `Route`. -/
inductive Route
  | peer (payload : Bytes)
  | lookup (peerID : String) (payload : Bytes)
  | enqueue (peer : ℕ) (payload : Bytes)
  | close (peer : ℕ)
  | unregister (peer : ℕ)
  deriving DecidableEq, Repr

/-- Where the goroutine of a connection stands. `sendJSON` is the last access of a handler, and
`unregister` and `close` are the deferred calls of `Pump`. -/
inductive Pc
  | register (device : Device)
  | sendWelcome (next : Welcome)
  | reading
  | announceKey (staticKey : String)
  | pairRequest
  | pairAccept (next : PairAccept)
  | unpair (next : Unpair)
  | route (next : Route)
  | sendJSON (dest : ℕ) (msg : Reply)
  | sendErrorAndClose (code message : String)
  | closeAfterError
  | unregister
  | close
  | returned
  deriving DecidableEq, Repr

/-- A `Client`. `accepted` records every frame its send queue took; no step reads it. -/
structure Conn where
  deviceID : String
  pairedWith : String
  send : List WsFrame := []
  closed : Bool := false
  pc : Pc
  accepted : List WsFrame := []
  deriving DecidableEq, Repr

/-- Where `Hub.Run` stands: at its `select`, or with a client it has received. -/
inductive HubPc
  | select
  | register (client : ℕ)
  | registered (client : ℕ)
  | unregister (client : ℕ)
  | unregistered (client : ℕ)
  | lookup (target about : String) (online : Bool)
  | notify (target : ℕ) (about : String) (online : Bool)
  deriving DecidableEq, Repr

structure Server where
  devices : Devices
  pairCodes : PairCodes
  conns : List Conn := []
  clients : String → Option ℕ := fun _ => none
  registerCh : List ℕ := []
  unregisterCh : List ℕ := []
  hub : HubPc := .select

/-- What a step finds outside the server: the clock, whether a call of the database fails, and the
code `GeneratePairingCode` draws, if it does. -/
structure Env where
  now : ℕ
  fault : Bool
  code : Option String

namespace Conn

def accepts (conn : Conn) : Bool := !conn.closed && decide (conn.send.length < sendBufferSize)

def enqueue (frame : WsFrame) (conn : Conn) : Conn :=
  if conn.accepts then
    { conn with send := conn.send ++ [frame], accepted := conn.accepted ++ [frame] }
  else conn

def setPeer (id : String) (conn : Conn) : Conn := { conn with pairedWith := id }

def close (conn : Conn) : Conn := { conn with closed := true }

def setPc (pc : Pc) (conn : Conn) : Conn := { conn with pc }

end Conn

/-- An access of a connection's goroutine that changes what is shared. -/
inductive Access
  | none
  | devices (t : Devices)
  | pairCodes (r : PairCodes)
  | setPeer (c : ℕ) (id : String)
  | enqueue (c : ℕ) (frame : WsFrame)
  | close (c : ℕ)
  | register (c : ℕ)
  | unregister (c : ℕ)

namespace Server

def modify (s : Server) (c : ℕ) (f : Conn → Conn) : Server := { s with conns := s.conns.modify c f }

def access (s : Server) : Access → Server
  | .none => s
  | .devices t => { s with devices := t }
  | .pairCodes r => { s with pairCodes := r }
  | .setPeer c id => s.modify c (Conn.setPeer id)
  | .enqueue c frame => s.modify c (Conn.enqueue frame)
  | .close c => s.modify c Conn.close
  | .register c => { s with registerCh := s.registerCh ++ [c] }
  | .unregister c => { s with unregisterCh := s.unregisterCh ++ [c] }

def accepts (s : Server) (c : ℕ) : Bool := s.conns[c]?.any Conn.accepts

end Server

def textFrame (msg : Control) : WsFrame := { data := .text msg }

/-- The static key of a device, or empty where the call fails. -/
def Server.staticKey (s : Server) (id : String) (env : Env) : String :=
  if env.fault then "" else (s.devices id).elim "" Device.staticKey

/-- `sendWelcome` up to its first access. -/
def startWelcome (device : Device) : Pc :=
  match device.pairedWith with
  | some peer => .sendWelcome (.staticKey peer)
  | none => .sendWelcome (.welcome [] none)

def sendWelcome (s : Server) (c : ℕ) (conn : Conn) (env : Env) : Welcome → Access × Pc
  | .staticKey peer =>
    (.none, .sendWelcome (.welcome [⟨peer, s.staticKey peer env⟩] (some peer)))
  | .welcome peers peer =>
    (.enqueue c (textFrame (.welcome protocolVersion conn.deviceID peers)),
      match peer with
      | some peer => .sendWelcome (.lookup peer)
      | none => .reading)
  | .lookup peer => (.none, .sendWelcome (.status peer (s.clients peer).isSome))
  | .status peer online => (.enqueue c (textFrame (.peerStatus peer online)), .reading)

def sendError (c : ℕ) (code message : String) : Pc := .sendJSON c (.error code message)

/-- `handleControl`, or what `readPump` does with a binary frame, up to the first access. -/
def dispatch (c : ℕ) : Inbound → Pc
  | .malformed => sendError c "malformed" "invalid JSON control frame"
  | .announceKey staticKey =>
    if staticKey = "" then sendError c "malformed" "announce_key requires static_key"
    else .announceKey staticKey
  | .pairRequest => .pairRequest
  | .pairAccept code =>
    if code = "" then sendError c "malformed" "pair_accept requires code"
    else .pairAccept (.take code)
  | .unpair => .unpair .peer
  | .ping => .sendJSON c .pong
  | .unknown => .reading
  | .binary payload => .route (.peer payload)

def handleAnnounceKey (s : Server) (c : ℕ) (conn : Conn) (env : Env) (staticKey : String) :
    Access × Pc :=
  match if env.fault then .error .other else s.devices.setStaticKeyIfUnset conn.deviceID staticKey with
  | .ok t => (.devices t, .reading)
  | .error .errStaticKeyMismatch => (.none, .sendErrorAndClose "key_mismatch"
      "announced static key does not match the key locked on first connection")
  | .error _ => (.none, sendError c "internal" "internal error")

def handlePairRequest (s : Server) (c : ℕ) (conn : Conn) (env : Env) : Access × Pc :=
  match env.code with
  | none => (.none, sendError c "internal" "internal error")
  | some code =>
    (.pairCodes (s.pairCodes.put code conn.deviceID pairingCodeTTL env.now),
      .sendJSON c (.pairCode code (pairingCodeTTL / 1000000000)))

def handlePairAccept (s : Server) (c : ℕ) (conn : Conn) (env : Env) : PairAccept → Access × Pc
  | .take code =>
    let (taken, codes) := s.pairCodes.take code env.now
    (.pairCodes codes,
      match taken with
      | .expired => sendError c "code_expired" "pairing code has expired"
      | .unknown => sendError c "invalid_code" "unknown pairing code"
      | .ok requesterID =>
        if requesterID = conn.deviceID then sendError c "invalid_code" "cannot pair with yourself"
        else .pairAccept (.pairDevices code requesterID))
  | .pairDevices code requesterID =>
    match if env.fault then .error .other
      else s.devices.pairDevices requesterID conn.deviceID with
    | .ok t => (.devices t, .pairAccept (.myKey code requesterID))
    | .error .errAlreadyPaired =>
      (.none, sendError c "already_paired" "one of the devices is already paired")
    | .error .errNotFound =>
      (.none, sendError c "invalid_code" "requesting device no longer exists")
    | .error _ => (.none, sendError c "internal" "internal error")
  | .myKey code requesterID =>
    (.none, .pairAccept (.requesterKey code requesterID (s.staticKey conn.deviceID env)))
  | .requesterKey code requesterID myKey =>
    (.none, .pairAccept (.setPeer code requesterID myKey (s.staticKey requesterID env)))
  | .setPeer code requesterID myKey requesterKey =>
    (.setPeer c requesterID, .pairAccept (.complete code requesterID myKey requesterKey))
  | .complete code requesterID myKey requesterKey =>
    (.enqueue c (textFrame (.reply (.pairComplete code requesterID requesterKey))),
      .pairAccept (.lookup code requesterID myKey))
  | .lookup code requesterID myKey =>
    (.none,
      match s.clients requesterID with
      | some requester => .pairAccept (.setRequester code requesterID myKey requester)
      | none => .reading)
  | .setRequester code _ myKey requester =>
    (.setPeer requester conn.deviceID,
      .sendJSON requester (.pairComplete code conn.deviceID myKey))

def handleUnpair (s : Server) (c : ℕ) (conn : Conn) (env : Env) : Unpair → Access × Pc
  | .peer => (.none, .unpair (.unpairDevice conn.pairedWith))
  | .unpairDevice peerID =>
    if env.fault then (.none, sendError c "internal" "internal error")
    else (.devices (s.devices.unpairDevice conn.deviceID), .unpair (.setPeer peerID))
  | .setPeer peerID => (.setPeer c "", .unpair (.unpaired peerID))
  | .unpaired peerID =>
    (.enqueue c (textFrame (.reply (.unpaired peerID))),
      if peerID ≠ "" then .unpair (.lookup peerID) else .reading)
  | .lookup peerID =>
    (.none,
      match s.clients peerID with
      | some peer => .unpair (.clearPeer peerID peer)
      | none => .reading)
  | .clearPeer _ peer => (.setPeer peer "", .sendJSON peer (.unpaired conn.deviceID))

/-- `Peer` and `Hub.Route`; a send on a full channel waits. -/
def route (s : Server) (conn : Conn) : Route → Option (Access × Pc)
  | .peer payload =>
    some (.none, if conn.pairedWith ≠ "" then .route (.lookup conn.pairedWith payload) else .reading)
  | .lookup peerID payload =>
    some (.none,
      match s.clients peerID with
      | some peer => .route (.enqueue peer payload)
      | none => .reading)
  | .enqueue peer payload =>
    some (.enqueue peer { data := .binary payload },
      if s.accepts peer then .reading else .route (.close peer))
  | .close peer => some (.close peer, .route (.unregister peer))
  | .unregister peer =>
    if s.unregisterCh.length < channelSize then some (.unregister peer, .reading) else none

/-- The next access of the goroutine of `conn`, which is connection `c`, and where it then stands. -/
def exec (s : Server) (c : ℕ) (conn : Conn) (env : Env) : Option (Access × Pc) :=
  match conn.pc with
  | .register device =>
    if s.registerCh.length < channelSize then some (.register c, startWelcome device) else none
  | .sendWelcome next => some (sendWelcome s c conn env next)
  | .reading => none
  | .announceKey staticKey => some (handleAnnounceKey s c conn env staticKey)
  | .pairRequest => some (handlePairRequest s c conn env)
  | .pairAccept next => some (handlePairAccept s c conn env next)
  | .unpair next => some (handleUnpair s c conn env next)
  | .route next => route s conn next
  | .sendJSON dest msg => some (.enqueue dest (textFrame (.reply msg)), .reading)
  | .sendErrorAndClose code message =>
    some (.enqueue c { data := .text (.reply (.error code message)), closeAfter := true },
      if s.accepts c then .reading else .closeAfterError)
  | .closeAfterError => some (.close c, .reading)
  | .unregister =>
    if s.unregisterCh.length < channelSize then some (.unregister c, .close) else none
  | .close => some (.close c, .returned)
  | .returned => none

namespace Server

def runHandler (s : Server) (c : ℕ) (env : Env) : Option Server :=
  match s.conns[c]? with
  | none => none
  | some conn => (exec s c conn env).map fun (a, pc) => (s.access a).modify c (Conn.setPc pc)

/-- `Handler` up to `hub.Register <- client`: a request it refuses makes no connection. -/
def handler (s : Server) (deviceID token : String) (now : ℕ) (upgraded : Bool) : Server :=
  if deviceID = "" ∨ token = "" then s
  else
    match s.devices.getDeviceByID deviceID with
    | .error _ => s
    | .ok device =>
      if device.deviceToken ≠ token then s
      else if device.expiresAt.any (· < now) then s
      else if !upgraded then s
      else
        { s with
          conns := s.conns ++ [{
            deviceID
            pairedWith := device.pairedWith.getD ""
            pc := .register device }] }

/-- The connection that a new one of the same device replaces is closed. -/
def evict (s : Server) (deviceID : String) : Server :=
  match s.clients deviceID with
  | some old => s.modify old Conn.close
  | none => s

/-- What `Hub.Run` does next with what it has received. -/
def runHub (s : Server) : Option Server :=
  match s.hub with
  | .select => none
  | .register c =>
    s.conns[c]?.map fun client =>
      { s.evict client.deviceID with
        clients := Function.update s.clients client.deviceID (some c)
        hub := .registered c }
  | .registered c =>
    s.conns[c]?.map fun client =>
      if client.pairedWith ≠ "" then { s with hub := .lookup client.pairedWith client.deviceID true }
      else { s with hub := .select }
  | .unregister c =>
    s.conns[c]?.map fun client =>
      if s.clients client.deviceID = some c then
        { s with
          clients := Function.update s.clients client.deviceID none
          hub := .unregistered c }
      else { s with hub := .select }
  | .unregistered c =>
    s.conns[c]?.map fun client =>
      if client.pairedWith ≠ "" then { s with hub := .lookup client.pairedWith client.deviceID false }
      else { s with hub := .select }
  | .lookup target about online =>
    match s.clients target with
    | some c => some { s with hub := .notify c about online }
    | none => some { s with hub := .select }
  | .notify c about online =>
    some { s.modify c (Conn.enqueue (textFrame (.peerStatus about online))) with hub := .select }

end Server

inductive Label
  | connect (deviceID token : String) (now : ℕ) (upgraded : Bool)
  | receive (c : ℕ) (frame : Inbound)
  | disconnect (c : ℕ)
  | handler (c : ℕ) (env : Env)
  | write (c : ℕ)
  | takeRegister
  | takeUnregister
  | hub

namespace Server

/-- `readPump` returns from `ReadMessage` with a frame or an error. -/
def read (s : Server) (c : ℕ) (pc : Pc) : Option Server :=
  match s.conns[c]? with
  | none => none
  | some conn => if conn.pc = .reading then some (s.modify c (Conn.setPc pc)) else none

/-- One step. `writePump` may take a frame from a send queue at any moment, and where both channels
are ready the `select` of `Hub.Run` may take from either. -/
def step (s : Server) : Label → Option Server
  | .connect deviceID token now upgraded => some (s.handler deviceID token now upgraded)
  | .receive c frame => s.read c (dispatch c frame)
  | .disconnect c => s.read c .unregister
  | .handler c env => s.runHandler c env
  | .write c => some (s.modify c fun conn => { conn with send := conn.send.tail })
  | .takeRegister =>
    match s.hub, s.registerCh with
    | .select, c :: rest => some { s with registerCh := rest, hub := .register c }
    | _, _ => none
  | .takeUnregister =>
    match s.hub, s.unregisterCh with
    | .select, c :: rest => some { s with unregisterCh := rest, hub := .unregister c }
    | _, _ => none
  | .hub => s.runHub

/-- Both channels are empty, and the hub is at its `select`. -/
structure Drained (s : Server) : Prop where
  register : s.registerCh = []
  unregister : s.unregisterCh = []
  hub : s.hub = .select

instance (s : Server) : Decidable s.Drained :=
  decidable_of_iff (s.registerCh = [] ∧ s.unregisterCh = [] ∧ s.hub = .select)
    ⟨fun ⟨h1, h2, h3⟩ => ⟨h1, h2, h3⟩, fun h => ⟨h.register, h.unregister, h.hub⟩⟩

/-- No connection yet. -/
def start (devices : Devices) (pairCodes : PairCodes) : Server := { devices, pairCodes }

end Server

end Relayly.Relay
