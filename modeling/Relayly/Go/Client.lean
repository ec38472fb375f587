import Relayly.Go.PeerStore

/-!
# `peer.go` and `client.go`: the peer connection and how the client drives it

A peer connection has an active session and, while a rekey is in flight, a pending one that takes
its place only once it has completed and its key has been verified. Sessions are pointers in the
source, so `sessions` is the heap they point into and the slots hold indices.

Each critical section of the source is a definition of its own; the handlers are their sequence.
-/

namespace Relayly.Go

variable {N : Noise}

/-- Nanoseconds between two unsolicited `msg1` that are answered. -/
def unsolicitedMsg1MinInterval : ℕ := 2 * 1000000000

/-- `lastUnsolicitedMsg1` is `none` for the zero time. -/
structure PeerConn where
  id : String
  announcedStaticKey : String
  active : Option ℕ := none
  pending : Option ℕ := none
  firstPairWaiter : Option ℕ := none
  lastUnsolicitedMsg1 : Option ℕ := none

def newPeerConn (id announcedStaticKey : String) : PeerConn := { id, announcedStaticKey }

/-- A client and its one linked peer. `rand i` is the randomness session `i` draws. -/
structure Client (N : Noise) where
  deviceID : String
  privateKey : PrivateKey
  rand : ℕ → Bytes
  peerStore : PeerStore
  peer : PeerConn
  sessions : List (NoiseSession N) := []

/-- What an event finds outside the client: the clock, the time as a pin records it, and whether
saving the peer store fails. -/
structure Env where
  now : ℕ
  stamp : String
  fault : Option SaveFault

/-- What a pairing waiter is told. -/
structure PairResult where
  peerID : String
  peerPublicKey : Option PublicKey := none
  error : Option GoError := none

/-- What a handler does outside the client: an envelope put on `c.sends`, a result put on a
pairing waiter's channel, the callbacks, and a message put on `c.messages`. -/
inductive Output
  | envelope (kind : UInt8) (payload : Bytes)
  | pairResult (waiter : ℕ) (result : PairResult)
  | onReady (peerID : String)
  | onPeerStatus (peerID : String) (online : Bool)
  | message (sender : String) (payload : Bytes)

/-- The end of the critical section that opens `peerConn.handleHandshakeEnvelope`. -/
inductive Selected
  | session (i : ℕ) (wasPending : Bool)
  | dropped
  | failed (err : GoError)

/-- What `peerConn.handleHandshakeEnvelope` returns. -/
structure Envelope where
  reply : Option Bytes := none
  completed : Option ℕ := none
  wasPending : Bool := false
  err : Option GoError := none

def publicKeyFromBase64 (s : String) : Except GoError PublicKey :=
  match decodeBase64 s with
  | none => .error ⟨"illegal base64 data", none⟩
  | some raw =>
    if h : raw.length = 32 then .ok ⟨raw, h⟩
    else .error ⟨"relayly: invalid public key length: expected 32, got " ++ toString raw.length,
      none⟩

namespace Client

/-- The status of session `i` is `ready`. -/
def ready (c : Client N) (i : ℕ) : Bool := (c.sessions[i]?).any NoiseSession.ready

def setSession (c : Client N) (i : ℕ) (s : NoiseSession N) : Client N :=
  { c with sessions := c.sessions.set i s }

/-- The randomness of the next session. -/
def nextRand (c : Client N) : Bytes := c.rand c.sessions.length

def startAsInitiator (c : Client N) : Client N × Except GoError Bytes :=
  match newInitiatorSession N c.privateKey c.nextRand with
  | .error e => (c, .error e)
  | .ok (session, msg1) =>
    ({ c with
        sessions := c.sessions ++ [session]
        peer := { c.peer with active := some c.sessions.length } }, .ok msg1)

def startRekeyAsInitiator (c : Client N) : Client N × Except GoError Bytes :=
  match newInitiatorSession N c.privateKey c.nextRand with
  | .error e => (c, .error e)
  | .ok (session, msg1) =>
    ({ c with
        sessions := c.sessions ++ [session]
        peer := { c.peer with pending := some c.sessions.length } }, .ok msg1)

/-- Whether an unsolicited `msg1` comes too soon after the last one answered. -/
def rateLimited (c : Client N) (now : ℕ) : Bool :=
  match c.peer.lastUnsolicitedMsg1 with
  | some last => decide (now < last + unsolicitedMsg1MinInterval)
  | none => false

/-- The session a handshake envelope is fed to: the pending one, else an active one still at its
first handshake, else a new responder session in whichever slot is free. -/
def selectSession (c : Client N) (now : ℕ) : Client N × Selected :=
  match c.peer.pending with
  | some i => (c, .session i true)
  | none =>
    match c.peer.active with
    | some i =>
      if !c.ready i then (c, .session i false)
      else if c.rateLimited now then (c, .dropped)
      else
        match newResponderSession N c.privateKey c.nextRand with
        | .error e => ({ c with peer := { c.peer with lastUnsolicitedMsg1 := some now } }, .failed e)
        | .ok session =>
          ({ c with
              sessions := c.sessions ++ [session]
              peer := { c.peer with
                pending := some c.sessions.length
                lastUnsolicitedMsg1 := some now } }, .session c.sessions.length true)
    | none =>
      match newResponderSession N c.privateKey c.nextRand with
      | .error e => (c, .failed e)
      | .ok session =>
        ({ c with
            sessions := c.sessions ++ [session]
            peer := { c.peer with active := some c.sessions.length } },
          .session c.sessions.length false)

/-- The critical section of `session.handleHandshakeMessage` on session `i`. -/
def feedSession (c : Client N) (i : ℕ) (wasPending : Bool) (data : Bytes) : Client N × Envelope :=
  match c.sessions[i]? with
  | none => (c, { wasPending })
  | some s =>
    let h := s.handleHandshakeMessage data
    (c.setSession i h.session,
      { reply := h.reply, completed := if h.done then some i else none, wasPending, err := h.err })

/-- `peerConn.handleHandshakeEnvelope`. -/
def peerHandleHandshakeEnvelope (c : Client N) (now : ℕ) (data : Bytes) : Client N × Envelope :=
  match c.selectSession now with
  | (c, .session i wasPending) => c.feedSession i wasPending data
  | (c, .dropped) => (c, {})
  | (c, .failed e) => (c, { err := some e })

def promote (c : Client N) (i : ℕ) : Client N :=
  if c.peer.pending = some i then { c with peer := { c.peer with active := some i, pending := none } }
  else c

def abandon (c : Client N) (i : ℕ) : Client N :=
  if c.peer.pending = some i then { c with peer := { c.peer with pending := none } } else c

/-- The part of `verifyAndPin` after the pin: the server-announced key is compared. -/
def crossCheck (c : Client N) (authenticatedB64 : String) : Except GoError PublicKey :=
  if c.peer.announcedStaticKey ≠ "" ∧ c.peer.announcedStaticKey ≠ authenticatedB64 then
    .error (GoError.wrap "" errKeyMismatch (": server-announced key for peer " ++ c.peer.id
      ++ " does not match the authenticated handshake"))
  else
    match publicKeyFromBase64 authenticatedB64 with
    | .ok pub => .ok pub
    | .error e => .error (GoError.wrap "relayly: invalid authenticated peer key: " e "")

/-- `none` is a panic inside the peer store. -/
def verifyAndPin (c : Client N) (authenticated : Bytes) (env : Env) :
    Option (Client N × Except GoError PublicKey) :=
  let authenticatedB64 := encodeBase64 authenticated
  match c.peerStore.pinOrVerify c.peer.id authenticatedB64 env.stamp env.fault with
  | none => none
  | some (ps, some e) =>
    some ({ c with peerStore := ps }, .error (GoError.wrap "" e (" (peer " ++ c.peer.id ++ ")")))
  | some (ps, none) => some ({ c with peerStore := ps }, c.crossCheck authenticatedB64)

/-- The critical section of `resolveHandshake` that records a rejection in session `i`. -/
def markFailed (c : Client N) (i : ℕ) (verr : GoError) : Client N :=
  match c.sessions[i]? with
  | none => c
  | some s => c.setSession i { s with status := .failed, err := some verr }

def takeFirstPairWaiter (c : Client N) : Client N × Option ℕ :=
  ({ c with peer := { c.peer with firstPairWaiter := none } }, c.peer.firstPairWaiter)

/-- The end of `resolveHandshake`: the slots, the waiter and `OnReady`. -/
def settle (c : Client N) (i : ℕ) (wasPending : Bool) (result : PairResult) :
    Client N × List Output :=
  if wasPending ∧ result.error.isSome then (c.abandon i, [])
  else
    let c := if wasPending then c.promote i else c
    let (c, waiter) := c.takeFirstPairWaiter
    (c, (waiter.map fun w => Output.pairResult w result).toList
      ++ if result.error.isNone then [.onReady c.peer.id] else [])

def resolveHandshake (c : Client N) (i : ℕ) (wasPending : Bool) (hsErr : Option GoError)
    (env : Env) : Option (Client N × List Output) :=
  match hsErr with
  | some e =>
    some (c.settle i wasPending
      { peerID := c.peer.id, error := some (GoError.wrap "relayly: handshake failed: " e "") })
  | none =>
    match c.sessions[i]? with
    | none => some (c, [])
    | some s =>
      match c.verifyAndPin s.peerStatic env with
      | none => none
      | some (c, .error verr) =>
        some ((c.markFailed i verr).settle i wasPending { peerID := c.peer.id, error := some verr })
      | some (c, .ok pub) =>
        some (c.settle i wasPending { peerID := c.peer.id, peerPublicKey := some pub })

/-- The envelope a reply goes out in. -/
def replyOutput (reply : Option Bytes) : List Output :=
  (reply.map fun r => Output.envelope envelopeHandshake r).toList

/-- `Client.handleHandshakeEnvelope`: the reply is queued before the handshake is resolved. -/
def handleHandshakeEnvelope (c : Client N) (env : Env) (payload : Bytes) :
    Option (Client N × List Output) :=
  let (c, e) := c.peerHandleHandshakeEnvelope env.now payload
  match e.completed with
  | none => some (c, replyOutput e.reply)
  | some i =>
    (c.resolveHandshake i e.wasPending e.err env).map fun (c, out) => (c, replyOutput e.reply ++ out)

def handlePeerStatus (c : Client N) (peerID : String) (online : Bool) : Client N × List Output :=
  let status := [Output.onPeerStatus peerID online]
  if !online then (c, status)
  else if peerID ≠ c.peer.id then (c, status)
  else if c.peer.id ≤ c.deviceID then (c, status)
  else
    match c.startRekeyAsInitiator with
    | (c, .error _) => (c, status)
    | (c, .ok msg1) => (c, status ++ [.envelope envelopeHandshake msg1])

/-- `Client.Send` up to the frame it hands to `c.sends`. -/
def send (c : Client N) (peerID : String) (payload : Bytes) :
    Except GoError (Client N × Bytes) :=
  if peerID ≠ c.peer.id then
    .error ⟨"relayly: no paired peer with ID \"" ++ peerID
      ++ "\" — call AcceptPair or RequestPairCode first", none⟩
  else
    match c.peer.active with
    | none => .error errNotReady
    | some i =>
      match c.sessions[i]? with
      | none => .error errNotReady
      | some s =>
        match s.encrypt payload with
        | .error e => .error e
        | .ok (ciphertext, s) =>
          .ok (c.setSession i s, encodeEnvelope envelopeTransport ciphertext)

/-- `Client.handleTransportEnvelope` with room in `c.messages`. -/
def handleTransportEnvelope (c : Client N) (ciphertext : Bytes) : Client N × List Output :=
  match c.peer.active with
  | none => (c, [])
  | some i =>
    match c.sessions[i]? with
    | none => (c, [])
    | some s =>
      match s.decrypt ciphertext with
      | .error _ => (c, [])
      | .ok (plaintext, s) => (c.setSession i s, [.message c.peer.id plaintext])

end Client

/-- What reaches the read loop from the relay, apart from transport envelopes. -/
inductive RelayEvent
  | handshake (env : Env) (payload : Bytes)
  | peerStatus (peerID : String) (online : Bool)

/-- The client after the read loop has handled one event; `none` is a panic. -/
def Client.handleEvent (c : Client N) : RelayEvent → Option (Client N)
  | .handshake env payload => (c.handleHandshakeEnvelope env payload).map Prod.fst
  | .peerStatus peerID online => some (c.handlePeerStatus peerID online).1

/-- The calls that change the slots of a `peerConn`. -/
inductive PeerCall
  | handleHandshakeEnvelope (now : ℕ) (data : Bytes)
  | resolveHandshake (i : ℕ) (wasPending : Bool) (hsErr : Option GoError) (env : Env)
  | startAsInitiator
  | startRekeyAsInitiator

/-- The client after one of them; `none` is a panic. -/
def Client.peerStep (c : Client N) : PeerCall → Option (Client N)
  | .handleHandshakeEnvelope now data => some (c.peerHandleHandshakeEnvelope now data).1
  | .resolveHandshake i wasPending hsErr env =>
    (c.resolveHandshake i wasPending hsErr env).map Prod.fst
  | .startAsInitiator => some c.startAsInitiator.1
  | .startRekeyAsInitiator => some c.startRekeyAsInitiator.1

/-- The pending session that an event completes and `verifyAndPin` accepts. -/
def Client.accepted (c : Client N) : RelayEvent → Option (ℕ × NoiseSession N)
  | .handshake env payload =>
    match c.peerHandleHandshakeEnvelope env.now payload with
    | (c, { completed := some i, wasPending := true, err := none, .. }) =>
      match c.sessions[i]? with
      | none => none
      | some s =>
        match c.verifyAndPin s.peerStatic env with
        | some (_, .ok _) => some (i, s)
        | _ => none
    | _ => none
  | .peerStatus .. => none

end Relayly.Go
