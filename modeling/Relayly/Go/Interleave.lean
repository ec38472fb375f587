import Relayly.Go.Client

/-!
# The goroutines of a Go client

The read loop handles one event at a time and any number of `Send` calls run beside it. A step is
one critical section of the source, or one operation on the channel `c.sends`, so the runs are the
interleavings of `Send`, `readLoop`, `writeLoop` and `Close`.

A `Send` reads the active slot, encrypts under the session it found there, and only then waits for
room in `c.sends`, for its context or for the client to be closed.
-/

namespace Relayly.Go

variable {N : Noise}

/-- A transport frame, with the session and the nonce it was encrypted under. -/
structure Sealed where
  session : ℕ
  nonce : ℕ
  payload : Bytes
  frame : Bytes
  deriving DecidableEq, Repr

/-- A frame put on `c.sends`; `origin` is there for what `Send` put there. -/
structure OutFrame where
  data : Bytes
  origin : Option Sealed := none
  deriving DecidableEq, Repr

/-- Where a call of `Send` is. -/
inductive Sending
  | called (peerID : String) (payload : Bytes)
  | picked (i : ℕ) (payload : Bytes)
  | encrypted (e : Sealed)
  | gaveUp (e : Sealed)
  | returned (err : Option GoError)

/-- What a call has encrypted and not put on `c.sends`. -/
def Sending.unsent : Sending → Option Sealed
  | .encrypted e => some e
  | .gaveUp e => some e
  | _ => none

/-- A handshake that has ended: its session, whether it was pending, and its error. -/
structure Ended where
  env : Env
  i : ℕ
  wasPending : Bool
  err : Option GoError

/-- Where the read loop is. -/
inductive Reader
  | idle
  | selected (env : Env) (i : ℕ) (wasPending : Bool) (data : Bytes)
  | replying (msg : Bytes) (ended : Option Ended)
  | completed (ended : Ended)
  | verified (i : ℕ) (wasPending : Bool) (result : Except GoError PublicKey)
  | resolved (i : ℕ) (wasPending : Bool) (result : PairResult)

/-- `sends` is all that was ever put on `c.sends`, of which `writeLoop` has taken `written`. -/
structure State (N : Noise) where
  client : Client N
  reader : Reader := .idle
  threads : List Sending := []
  sends : List OutFrame := []
  written : ℕ := 0
  closed : Bool := false

inductive Label
  | handshake (env : Env) (data : Bytes)
  | feed
  | reply (dropped : Bool)
  | verify
  | mark
  | finish
  | peerStatus (peerID : String) (online : Bool)
  | startAsInitiator
  | transport (ciphertext : Bytes)
  | call (peerID : String) (payload : Bytes)
  | pick (t : ℕ)
  | encrypt (t : ℕ)
  | enqueue (t : ℕ)
  | giveUp (t : ℕ)
  | control (data : Bytes)
  | write
  | close

/-- The capacity of `c.sends`. -/
def sendsCapacity : ℕ := 64

namespace State

/-- `c.sends` has room. -/
def room (st : State N) : Bool := decide (st.sends.length < st.written + sendsCapacity)

def put (st : State N) (f : OutFrame) : State N := { st with sends := st.sends ++ [f] }

def setThread (st : State N) (t : ℕ) (s : Sending) : State N :=
  { st with threads := st.threads.set t s }

/-- The read loop after it has dealt with the reply. -/
def afterReply : Option Ended → Reader
  | none => .idle
  | some ended => .completed ended

def afterFeed (env : Env) (e : Envelope) : Reader :=
  let ended := e.completed.map fun i => ({ env, i, wasPending := e.wasPending, err := e.err } : Ended)
  match e.reply with
  | some msg => .replying msg ended
  | none => afterReply ended

/-- `peerConn.handleHandshakeEnvelope` up to its unlock. -/
def handshake (st : State N) (env : Env) (data : Bytes) : State N :=
  match st.client.selectSession env.now with
  | (client, .session i wasPending) =>
    { st with client, reader := .selected env i wasPending data }
  | (client, _) => { st with client }

/-- `session.handleHandshakeMessage`. -/
def feed (st : State N) (env : Env) (i : ℕ) (wasPending : Bool) (data : Bytes) : State N :=
  let (client, e) := st.client.feedSession i wasPending data
  { st with client, reader := afterFeed env e }

/-- `resolveHandshake` up to the end of `verifyAndPin`; `none` is a panic. -/
def verify (st : State N) (ended : Ended) : Option (State N) :=
  match ended.err with
  | some e =>
    let error := some (GoError.wrap "relayly: handshake failed: " e "")
    some { st with
      reader := .resolved ended.i ended.wasPending { peerID := st.client.peer.id, error } }
  | none =>
    match st.client.sessions[ended.i]? with
    | none => some { st with reader := .idle }
    | some s =>
      (st.client.verifyAndPin s.peerStatic ended.env).map fun (client, result) =>
        { st with client, reader := .verified ended.i ended.wasPending result }

/-- The status update of `resolveHandshake`. -/
def mark (st : State N) (i : ℕ) (wasPending : Bool) : Except GoError PublicKey → State N
  | .error verr =>
    { st with
      client := st.client.markFailed i verr
      reader := .resolved i wasPending { peerID := st.client.peer.id, error := some verr } }
  | .ok pub =>
    { st with
      reader := .resolved i wasPending { peerID := st.client.peer.id, peerPublicKey := some pub } }

/-- `handlePeerStatus`, whose `msg1` is then to be enqueued. -/
def peerStatus (st : State N) (peerID : String) (online : Bool) : State N :=
  if !online then st
  else if peerID ≠ st.client.peer.id then st
  else if st.client.peer.id ≤ st.client.deviceID then st
  else
    match st.client.startRekeyAsInitiator with
    | (client, .error _) => { st with client }
    | (client, .ok msg1) => { st with client, reader := .replying msg1 none }

/-- `startAsInitiator` for a peer that has no session yet. -/
def startAsInitiator (st : State N) : State N :=
  match st.client.startAsInitiator with
  | (client, .error _) => { st with client }
  | (client, .ok msg1) => { st with client, reader := .replying msg1 none }

/-- `getPeerConn` and the critical section of `peerConn.send`. -/
def pick (st : State N) (t : ℕ) (peerID : String) (payload : Bytes) : State N :=
  if peerID ≠ st.client.peer.id then
    st.setThread t (.returned (some ⟨"relayly: no paired peer with ID \"" ++ peerID
      ++ "\" — call AcceptPair or RequestPairCode first", none⟩))
  else
    match st.client.peer.active with
    | none => st.setThread t (.returned (some errNotReady))
    | some i => st.setThread t (.picked i payload)

/-- The nonce a session encrypts next under. -/
def nextNonce (s : NoiseSession N) : ℕ := (s.sendCS.map CipherState.n).getD 0

/-- `noiseSession.encrypt`. -/
def encrypt (st : State N) (t i : ℕ) (payload : Bytes) : State N :=
  match st.client.sessions[i]? with
  | none => st.setThread t (.returned (some errNotReady))
  | some s =>
    match s.encrypt payload with
    | .error e => st.setThread t (.returned (some e))
    | .ok (ciphertext, s') =>
      { st.setThread t (.encrypted {
          session := i
          nonce := nextNonce s
          payload
          frame := encodeEnvelope envelopeTransport ciphertext }) with
        client := st.client.setSession i s' }

/-- The state after a step; `none` where it is not enabled. -/
def step (st : State N) : Label → Option (State N)
  | .handshake env data =>
    match st.reader with
    | .idle => some (st.handshake env data)
    | _ => none
  | .feed =>
    match st.reader with
    | .selected env i wasPending data => some (st.feed env i wasPending data)
    | _ => none
  | .reply dropped =>
    match st.reader with
    | .replying msg ended =>
      if dropped then
        if st.closed then some { st with reader := afterReply ended } else none
      else if st.room then
        some { st.put { data := encodeEnvelope envelopeHandshake msg } with
          reader := afterReply ended }
      else none
    | _ => none
  | .verify =>
    match st.reader with
    | .completed ended => st.verify ended
    | _ => none
  | .mark =>
    match st.reader with
    | .verified i wasPending result => some (st.mark i wasPending result)
    | _ => none
  | .finish =>
    match st.reader with
    | .resolved i wasPending result =>
      some { st with client := (st.client.settle i wasPending result).1, reader := .idle }
    | _ => none
  | .peerStatus peerID online =>
    match st.reader with
    | .idle => some (st.peerStatus peerID online)
    | _ => none
  | .startAsInitiator =>
    match st.reader, st.client.peer.active with
    | .idle, none => some st.startAsInitiator
    | _, _ => none
  | .transport ciphertext =>
    match st.reader with
    | .idle => some { st with client := (st.client.handleTransportEnvelope ciphertext).1 }
    | _ => none
  | .call peerID payload => some { st with threads := st.threads ++ [.called peerID payload] }
  | .pick t =>
    match st.threads[t]? with
    | some (.called peerID payload) => some (st.pick t peerID payload)
    | _ => none
  | .encrypt t =>
    match st.threads[t]? with
    | some (.picked i payload) => some (st.encrypt t i payload)
    | _ => none
  | .enqueue t =>
    match st.threads[t]? with
    | some (.encrypted e) =>
      if st.room then
        some ((st.put { data := e.frame, origin := some e }).setThread t (.returned none))
      else none
    | _ => none
  | .giveUp t =>
    match st.threads[t]? with
    | some (.encrypted e) => some (st.setThread t (.gaveUp e))
    | _ => none
  | .control data => if st.room then some (st.put { data }) else none
  | .write => if st.written < st.sends.length then some { st with written := st.written + 1 } else none
  | .close => some { st with closed := true }

end State

end Relayly.Go
