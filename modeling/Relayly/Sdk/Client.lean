import Relayly.Sdk.PeerStore

/-!
# The clients of the ports

A client keeps one connection object per linked peer, with an active session and, while a rekey is
in flight, a pending one. A handshake that has ended is resolved in two steps, the pin and the
rest, between which other events may come: all of them in TypeScript, where the pin is awaited,
only calls of `send` in C++, which pins without its lock, and none in Rust and Python. In Rust a
`send` may still come before the pin.

`sessions` and `conns` are the heaps that slots and the map of peers point into, so moving a
session from slot to slot moves an index. `rejected` records the sessions whose handshake the
resolution rejected; no handler reads it.
-/

namespace Relayly.Sdk

variable {N : Noise}

/-- Milliseconds between two unsolicited `msg1` that are answered. -/
def unsolicitedMsg1MinInterval : ℕ := 2000

structure PeerConn where
  id : String
  announcedStaticKey : String
  active : Option ℕ := none
  pending : Option ℕ := none
  lastUnsolicitedMsg1 : Option ℕ

/-- TypeScript and Python start the clock of unsolicited messages at 0, Rust and C++ unset. -/
def newPeerConn (port : Port) (id announcedStaticKey : String) : PeerConn where
  id
  announcedStaticKey
  lastUnsolicitedMsg1 :=
    match port with
    | .ts | .py => some 0
    | .rust | .cpp => none

/-- The resolution of a handshake that has ended: the pin's result once it is there, and the
announced key where it is read before the pin. -/
structure Resolution where
  conn : ℕ
  session : ℕ
  wasPending : Bool
  pin : Option PinResult := none
  announced : Option String := none

structure Client (N : Noise) where
  deviceID : String
  privateKey : Bytes
  rand : ℕ → Bytes
  store : Store
  conns : List PeerConn := []
  peers : List (String × ℕ) := []
  sessions : List (Session N) := []
  pairWaiters : String → Option Bool := fun _ => none
  outstanding : List Resolution := []
  sent : List Bytes := []
  rejected : List ℕ := []

/-- What reaches a client: the frames of the relay, the application's calls, and the turns of the
resolutions that are under way. `pick` is the entry an unordered map of peers begins with. -/
inductive Event
  | welcome (peers : List (String × String))
  | register (code : String) (weAreAcceptor : Bool)
  | pairComplete (peerID code peerStaticKey : Option String)
  | unpaired (peerID : Option String)
  | peerStatus (peerID : Option String) (online : Bool)
  | error
  | handshake (pick now : ℕ) (data : Bytes)
  | transport (pick : ℕ) (ciphertext : Bytes)
  | send (peerID : String) (payload : Bytes)
  | pin (k : ℕ) (stamp : String) (fault : Option StoreFault)
  | settle (k : ℕ)

namespace Client

def setConn (c : Client N) (p : ℕ) (conn : PeerConn) : Client N :=
  { c with conns := c.conns.set p conn }

def setSession (c : Client N) (i : ℕ) (s : Session N) : Client N :=
  { c with sessions := c.sessions.set i s }

def ready (c : Client N) (i : ℕ) : Bool := (c.sessions[i]?).any Session.ready

def nextRand (c : Client N) : Bytes := c.rand c.sessions.length

/-- The connection of a peer ID. -/
def connOf (c : Client N) (peerID : String) : Option ℕ :=
  (c.peers.find? fun e => e.1 = peerID).map Prod.snd

/-- The connection that binary frames are taken to come from: the first one linked where the map
keeps the order, any one where it does not. -/
def solePeer (port : Port) (c : Client N) (pick : ℕ) : Option ℕ :=
  match port with
  | .ts | .py => c.peers.head?.map Prod.snd
  | .rust | .cpp => c.peers[pick]?.map Prod.snd

/-- A peer that is not linked yet gets a connection. -/
def link (port : Port) (c : Client N) (peerID announced : String) : Client N :=
  match c.connOf peerID with
  | some _ => c
  | none =>
    { c with
      conns := c.conns ++ [newPeerConn port peerID announced]
      peers := c.peers ++ [(peerID, c.conns.length)] }

/-- Python skips an entry without an ID. -/
def handleWelcome (port : Port) (c : Client N) (peers : List (String × String)) : Client N :=
  peers.foldl (fun c p => if p.1 = "" ∧ port = .py then c else c.link port p.1 p.2) c

/-- `startAsInitiator` on connection `p`: the session goes to the active slot. -/
def startAsInitiator (c : Client N) (p : ℕ) : Client N :=
  match c.conns[p]?, asInitiator N c.privateKey c.nextRand with
  | some conn, .ok (session, msg1) =>
    { c with
      sessions := c.sessions ++ [session]
      conns := c.conns.set p { conn with active := some c.sessions.length }
      sent := c.sent ++ [encodeEnvelope envelopeHandshake msg1] }
  | _, _ => c

/-- `startRekeyAsInitiator` on connection `p`: the session goes to the pending slot. -/
def startRekeyAsInitiator (c : Client N) (p : ℕ) : Client N :=
  match c.conns[p]?, asInitiator N c.privateKey c.nextRand with
  | some conn, .ok (session, msg1) =>
    { c with
      sessions := c.sessions ++ [session]
      conns := c.conns.set p { conn with pending := some c.sessions.length }
      sent := c.sent ++ [encodeEnvelope envelopeHandshake msg1] }
  | _, _ => c

def setAnnounced (c : Client N) (p : ℕ) (key : String) : Client N :=
  match c.conns[p]? with
  | none => c
  | some conn => c.setConn p { conn with announcedStaticKey := key }

/-- The announced key of a peer that was linked before: TypeScript and Python take the frame's or
none, Rust takes the frame's if there is one, C++ keeps the old one. -/
def updateAnnounced (port : Port) (c : Client N) (peerID : String) (key : Option String) :
    Client N :=
  match c.connOf peerID with
  | none => c.link port peerID (key.getD "")
  | some p =>
    match port, key with
    | .ts, key => c.setAnnounced p (key.getD "")
    | .py, key => c.setAnnounced p (key.getD "")
    | .rust, some key => c.setAnnounced p key
    | .rust, none => c
    | .cpp, _ => c

def dropWaiter (c : Client N) (code : String) : Client N :=
  { c with pairWaiters := Function.update c.pairWaiters code none }

/-- The accepting device starts the first handshake. -/
def initiateIf (c : Client N) (peerID : String) (weAreAcceptor : Bool) : Client N :=
  match weAreAcceptor, c.connOf peerID with
  | true, some p => c.startAsInitiator p
  | _, _ => c

/-- C++ returns at once where no waiter has the code. The others link the peer in any case, and no
waiter is taken for an empty code. -/
def handlePairComplete (port : Port) (c : Client N) (peerID code key : Option String) :
    Client N :=
  match port with
  | .cpp =>
    match c.pairWaiters (code.getD "") with
    | none => c
    | some weAreAcceptor =>
      ((c.dropWaiter (code.getD "")).updateAnnounced .cpp (peerID.getD "") key).initiateIf
        (peerID.getD "") weAreAcceptor
  | port =>
    match peerID with
    | none => c
    | some peerID =>
      if peerID = "" ∧ port ≠ .rust then c
      else if code.getD "" = "" then c.updateAnnounced port peerID key
      else
        ((c.dropWaiter (code.getD "")).updateAnnounced port peerID key).initiateIf peerID
          ((c.pairWaiters (code.getD "")).getD false)

/-- A frame TypeScript alone knows. -/
def handleUnpaired (port : Port) (c : Client N) (peerID : Option String) : Client N :=
  match port, peerID with
  | .ts, some peerID =>
    if peerID = "" then c else { c with peers := c.peers.filter fun e => e.1 ≠ peerID }
  | _, _ => c

def handlePeerStatus (c : Client N) (peerID : Option String) (online : Bool) : Client N :=
  match peerID with
  | none => c
  | some peerID =>
    if !online then c
    else if peerID ≤ c.deviceID then c
    else
      match c.connOf peerID with
      | none => c
      | some p => c.startRekeyAsInitiator p

def rateLimited (conn : PeerConn) (now : ℕ) : Bool :=
  match conn.lastUnsolicitedMsg1 with
  | some last => decide (now < last + unsolicitedMsg1MinInterval)
  | none => false

/-- The session a handshake envelope is fed to, and whether it is the pending one; `none` where
the envelope is dropped. -/
def selectSession (c : Client N) (p : ℕ) (conn : PeerConn) (now : ℕ) :
    Client N × Option (ℕ × Bool) :=
  match conn.pending, conn.active with
  | some i, _ => (c, some (i, true))
  | none, none =>
    match asResponder N c.privateKey c.nextRand with
    | .error _ => (c, none)
    | .ok session =>
      ({ c with
          sessions := c.sessions ++ [session]
          conns := c.conns.set p { conn with active := some c.sessions.length } },
        some (c.sessions.length, false))
  | none, some i =>
    if !c.ready i then (c, some (i, false))
    else if rateLimited conn now then (c, none)
    else
      match asResponder N c.privateKey c.nextRand with
      | .error _ => (c.setConn p { conn with lastUnsolicitedMsg1 := some now }, none)
      | .ok session =>
        ({ c with
            sessions := c.sessions ++ [session]
            conns := c.conns.set p { conn with
              pending := some c.sessions.length
              lastUnsolicitedMsg1 := some now } },
          some (c.sessions.length, true))

/-- Session `i` takes the message; once it has ended it is to be resolved. -/
def feedSession (port : Port) (c : Client N) (p i : ℕ) (wasPending : Bool) (data : Bytes) :
    Client N :=
  match (c.sessions[i]?).bind (·.handleHandshakeMessage port data) with
  | none => c
  | some (s, reply) =>
    { c.setSession i s with
      sent := c.sent ++ (reply.map (encodeEnvelope envelopeHandshake)).toList
      outstanding := if s.status = .handshaking then c.outstanding
        else c.outstanding ++ [{ conn := p, session := i, wasPending }] }

def handleHandshakeEnvelope (port : Port) (c : Client N) (pick now : ℕ) (data : Bytes) :
    Client N :=
  match c.solePeer port pick with
  | none => c
  | some p =>
    match c.conns[p]? with
    | none => c
    | some conn =>
      match c.selectSession p conn now with
      | (c, some (i, wasPending)) => c.feedSession port p i wasPending data
      | (c, none) => c

/-- `promote`, `promote_pending`, `PromotePending`. TypeScript and Python check that the slot still
holds the session, Rust and C++ move whatever it holds. -/
def promote (port : Port) (c : Client N) (p i : ℕ) : Client N :=
  match c.conns[p]? with
  | none => c
  | some conn =>
    match port with
    | .ts | .py =>
      if conn.pending = some i then c.setConn p { conn with active := some i, pending := none }
      else c
    | .rust | .cpp =>
      match conn.pending with
      | none => c
      | some j => c.setConn p { conn with active := some j, pending := none }

/-- `abandon`, `abandon_pending`, `AbandonPending`. -/
def abandon (port : Port) (c : Client N) (p i : ℕ) : Client N :=
  match c.conns[p]? with
  | none => c
  | some conn =>
    match port with
    | .ts | .py =>
      if conn.pending = some i then c.setConn p { conn with pending := none } else c
    | .rust | .cpp => c.setConn p { conn with pending := none }

/-- The pin of resolution `k`. C++ reads the announced key first. -/
def pinStep (port : Port) (c : Client N) (k : ℕ) (stamp : String) (fault : Option StoreFault) :
    Option (Client N) :=
  match c.outstanding[k]? with
  | none => none
  | some r =>
    match r.pin, c.conns[r.conn]?, c.sessions[r.session]? with
    | none, some conn, some { status := .ready, peerStatic := some key, .. } =>
      let (store, result) := c.store.pinOrVerify conn.id (encodeBase64 key) stamp fault
      let announced := if port = .cpp then some conn.announcedStaticKey else none
      some { c with
        store
        outstanding := c.outstanding.set k { r with pin := some result, announced } }
    | _, _, _ => none

/-- The verdict on resolution `k`, once there is one. -/
def verdict (c : Client N) (r : Resolution) : Option Verdict :=
  match c.conns[r.conn]?, c.sessions[r.session]? with
  | some conn, some s =>
    if s.status ≠ .ready then some .handshakeFailed
    else
      match r.pin, s.peerStatic with
      | some result, some key =>
        some (crossCheck (r.announced.getD conn.announcedStaticKey) (encodeBase64 key) result)
      | _, _ => none
  | _, _ => none

/-- The rest of resolution `r`. In Python an error of the file system leaves the handler. -/
def applyVerdict (port : Port) (c : Client N) (r : Resolution) (v : Verdict) : Client N :=
  if v = .storeFault ∧ port = .py then c
  else if !r.wasPending then c
  else if v = .accepted then c.promote port r.conn r.session
  else c.abandon port r.conn r.session

def settleStep (port : Port) (c : Client N) (k : ℕ) : Option (Client N) :=
  match c.outstanding[k]? with
  | none => none
  | some r =>
    (c.verdict r).map fun v =>
      { c.applyVerdict port r v with
        outstanding := c.outstanding.eraseIdx k
        rejected := if v.rejects then r.session :: c.rejected else c.rejected }

/-- `resolveHandshake` with nothing in between, and its verdict. A handshake that failed is not
pinned. -/
def resolveHandshake (port : Port) (c : Client N) (k : ℕ) (stamp : String)
    (fault : Option StoreFault) : Option (Client N × Verdict) := do
  let c := (c.pinStep port k stamp fault).getD c
  let r ← c.outstanding[k]?
  let v ← c.verdict r
  let c ← c.settleStep port k
  some (c, v)

/-- The session that `send` would encrypt under, with the ciphertext. -/
def encryptTo (c : Client N) (peerID : String) (payload : Bytes) :
    Option (ℕ × Bytes × Session N) := do
  let p ← c.connOf peerID
  let conn ← c.conns[p]?
  let i ← conn.active
  let s ← c.sessions[i]?
  let (ciphertext, s) ← s.encrypt payload
  some (i, ciphertext, s)

/-- The session that a transport envelope is decrypted under, with the plaintext. -/
def decryptFrom (port : Port) (c : Client N) (pick : ℕ) (ciphertext : Bytes) :
    Option (ℕ × Bytes × Session N) := do
  let p ← c.solePeer port pick
  let conn ← c.conns[p]?
  let i ← conn.active
  let s ← c.sessions[i]?
  let (plaintext, s) ← s.decrypt ciphertext
  some (i, plaintext, s)

def send (c : Client N) (peerID : String) (payload : Bytes) : Client N :=
  match c.encryptTo peerID payload with
  | none => c
  | some (i, ciphertext, s) =>
    { c.setSession i s with sent := c.sent ++ [encodeEnvelope envelopeTransport ciphertext] }

def handleTransportEnvelope (port : Port) (c : Client N) (pick : ℕ) (ciphertext : Bytes) :
    Client N :=
  match c.decryptFrom port pick ciphertext with
  | none => c
  | some (i, _, s) => c.setSession i s

/-- Whether the client reads its connection now: only TypeScript does during a resolution. -/
def reads (port : Port) (c : Client N) : Bool := port == .ts || c.outstanding.isEmpty

/-- Whether a call of `send` runs now. -/
def sends (port : Port) (c : Client N) : Bool :=
  match port with
  | .ts | .cpp => true
  | .rust => c.outstanding.all (·.pin.isNone)
  | .py => c.outstanding.isEmpty

/-- The client after an event; `none` where the event cannot come now. -/
def step (port : Port) (c : Client N) : Event → Option (Client N)
  | .welcome peers => if c.reads port then some (c.handleWelcome port peers) else none
  | .register code weAreAcceptor =>
    some { c with pairWaiters := Function.update c.pairWaiters code (some weAreAcceptor) }
  | .pairComplete peerID code key =>
    if c.reads port then some (c.handlePairComplete port peerID code key) else none
  | .unpaired peerID => if c.reads port then some (c.handleUnpaired port peerID) else none
  | .peerStatus peerID online =>
    if c.reads port then some (c.handlePeerStatus peerID online) else none
  | .error => if c.reads port then some { c with pairWaiters := fun _ => none } else none
  | .handshake pick now data =>
    if c.reads port then some (c.handleHandshakeEnvelope port pick now data) else none
  | .transport pick ciphertext =>
    if c.reads port then some (c.handleTransportEnvelope port pick ciphertext) else none
  | .send peerID payload => if c.sends port then some (c.send peerID payload) else none
  | .pin k stamp fault => c.pinStep port k stamp fault
  | .settle k => c.settleStep port k

/-- The session an event encrypts or decrypts under. -/
def uses (port : Port) (c : Client N) : Event → Option ℕ
  | .send peerID payload =>
    if c.sends port then (c.encryptTo peerID payload).map Prod.fst else none
  | .transport pick ciphertext =>
    if c.reads port then (c.decryptFrom port pick ciphertext).map Prod.fst else none
  | _ => none

end Client

end Relayly.Sdk
