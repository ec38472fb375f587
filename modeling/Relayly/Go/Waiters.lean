import Relayly.Go.Interleave
import Relayly.Link

/-!
# The pairing waiters of a Go client

The read loop beside any number of calls of `RequestPairCode`, `AcceptPair` and `PairCode.Wait`. A
step is one critical section on `pairWaiters` or one operation on a channel, so that the calls also
run after the read loop has taken a waiter and before it sends on the waiter's channel.

What a frame does to a peer and its sessions is one step, since no call but `Send` looks at these;
what the handler puts out follows, one output at a time.
-/

namespace Relayly.Go

variable {N : Noise}

/-- Where the read loop is: at `ReadMessage`, or in the handler of a frame. `handleError` holds the
lock of `pairWaiters` until it has told all of them. -/
inductive Handling
  | reading
  | pairCode (w : PairWaiter) (code : String) (expiresIn : ℕ)
  | pairComplete (w : PairWaiter) (peerID peerStaticKey : String)
  | linked (p : PeerConn)
  | putting (out : List Output)
  | failing (err : GoError)

/-- `registering` are the codes that a `RequestPairCode` has received and has not registered a
waiter for yet. `puts` records the channels sent on; no step reads it. -/
structure Waiting (N : Noise) where
  client : FullClient N
  reader : Handling := .reading
  registering : List String := []
  closed : Bool := false
  puts : List ℕ := []

/-- `proceed` is the next step of a handler. -/
inductive WaitLabel
  | requestPairCode
  | acceptPair (code : String)
  | queue (i : ℕ)
  | expire (i : ℕ)
  | receive (i : ℕ)
  | register (k : ℕ)
  | send (peerID : String) (payload : Bytes)
  | frame (found : Link.Found) (frame : Link.Frame)
  | proceed (pick : ℕ)
  | drop
  | write
  | close

/-- The client once a handler has changed one of its peers. -/
def FullClient.adopt (c : FullClient N) (d : Client N) : FullClient N :=
  ({ c with peerStore := d.peerStore, sessions := d.sessions } : FullClient N).setPeerConn d.peer

namespace Waiting

/-- The client that `Connect` makes, which has read nothing yet. -/
def connect (N : Noise) (deviceID : String) (privateKey : PrivateKey) (rand : ℕ → Bytes)
    (peerStore : PeerStore) : Waiting N :=
  { client := { deviceID, privateKey, rand, peerStore } }

/-- The lock of `pairWaiters` is held across steps. -/
def locked (s : Waiting N) : Bool :=
  match s.reader with
  | .failing _ => true
  | _ => false

/-- `c.sends` has room. -/
def room (s : Waiting N) : Bool := decide (s.client.sends.length < sendsCapacity)

def put (s : Waiting N) (ch : ℕ) (r : WaiterResult) : Option (Waiting N) :=
  (s.client.put ch r).map fun client => { s with client, puts := s.puts ++ [ch] }

def perform (s : Waiting N) : Output → Option (Waiting N)
  | .pairResult ch result => s.put ch (.pair result)
  | .envelope kind payload =>
    if s.room then
      (s.client.perform (.envelope kind payload)).map fun client => { s with client }
    else none
  | o => (s.client.perform o).map fun client => { s with client }

/-- `handlePairComplete` where the device has accepted: the first handshake is started. -/
def initiate (s : Waiting N) (p : PeerConn) : Waiting N :=
  match (s.client.at_ p).startAsInitiator with
  | (d, .error e) =>
    let (d, waiter) := d.takeFirstPairWaiter
    { s with
      client := s.client.adopt d
      reader := .putting (waiter.map fun ch => Output.pairResult ch
        { peerID := "", error := some (GoError.wrap "relayly: starting handshake: " e "") }).toList }
  | (d, .ok msg1) =>
    { s with client := s.client.adopt d, reader := .putting [.envelope envelopeHandshake msg1] }

/-- `readLoop` on a frame, up to the first operation on a channel. -/
def handle (s : Waiting N) (found : Link.Found) : Link.Frame → Option (Waiting N)
  | .welcome peers => some { s with client := s.client.applyWelcomePeers peers }
  | .pairCode code expiresIn =>
    match s.client.takePairWaiter requestKey with
    | (client, some w) => some { s with client, reader := .pairCode w code expiresIn }
    | (client, none) => some { s with client }
  | .pairComplete peerID code peerStaticKey =>
    match s.client.takePairWaiter code with
    | (client, some w) => some { s with client, reader := .pairComplete w peerID peerStaticKey }
    | (client, none) => some { s with client }
  | .peerStatus peerID online =>
    match s.client.getPeerConn peerID with
    | none => some { s with reader := .putting [.onPeerStatus peerID online] }
    | some p =>
      let (d, out) := (s.client.at_ p).handlePeerStatus peerID online
      some { s with client := s.client.adopt d, reader := .putting out }
  | .error code message => some { s with reader := .failing (errForCode code message) }
  | .binary data =>
    match s.client.getSolePeer found.pick with
    | none => some s
    | some p =>
      ((s.client.at_ p).handleBinary found.env data).map fun (d, out) =>
        { s with client := s.client.adopt d, reader := .putting out }
  | .unpaired _ | .pong => some s

/-- The entry of `pairWaiters` that the `range` of `handleError` gives next, which is any one of
those left. -/
def nextWaiter (s : Waiting N) (pick : ℕ) : Option (String × PairWaiter) :=
  s.client.pairWaiters[pick % s.client.pairWaiters.length]?

/-- The next step of the handler; `none` where it blocks. -/
def proceed (s : Waiting N) (pick : ℕ) : Option (Waiting N) :=
  match s.reader with
  | .reading => none
  | .pairCode w code expiresIn =>
    (s.put w.ch (.code code expiresIn)).map fun s => { s with reader := .reading }
  | .pairComplete w peerID peerStaticKey =>
    let p := FullClient.pairedPeer peerID peerStaticKey w
    some { s with
      client := s.client.setPeerConn p
      reader := if w.weAreAcceptor then .linked p else .reading }
  | .linked p => some (s.initiate p)
  | .putting [] => some { s with reader := .reading }
  | .putting (o :: out) => (s.perform o).map fun s => { s with reader := .putting out }
  | .failing err =>
    match s.nextWaiter pick with
    | none => some { s with reader := .reading }
    | some (key, w) =>
      (s.put w.ch (.pair { peerID := "", error := some err })).map fun s =>
        { s with client := s.client.removePairWaiter key }

/-- Call `i` takes the result from its channel. -/
def receive (s : Waiting N) (i : ℕ) : Option (Waiting N) :=
  match s.client.calls[i]? with
  | some (.requestPairCode ch true) =>
    match s.client.chans[ch]? with
    | some (some result) =>
      some { s with
        client := (s.client.drain ch).setCall i .returned
        registering := s.registering ++ result.assigned.toList }
    | _ => none
  | _ => (s.client.resumeCall i).map fun client => { s with client }

/-- `RequestPairCode` registers the waiter of a code and returns its `PairCode`. -/
def register (s : Waiting N) (k : ℕ) : Option (Waiting N) :=
  match s.registering[k]? with
  | none => none
  | some short =>
    let ch := s.client.chans.length
    let client := s.client.makeChan.setPairWaiter short { ch }
    some { s with
      client := { client with calls := client.calls ++ [.wait ch] }
      registering := s.registering.eraseIdx k }

/-- A critical section of the application on `pairWaiters`. -/
def whenUnlocked (s : Waiting N) (s' : Option (Waiting N)) : Option (Waiting N) :=
  if s.locked then none else s'

/-- The state after a step; `none` where it is not enabled. -/
def step (s : Waiting N) : WaitLabel → Option (Waiting N)
  | .requestPairCode => s.whenUnlocked (some { s with client := s.client.requestPairCode })
  | .acceptPair code => s.whenUnlocked (some { s with client := s.client.acceptPair code })
  | .queue i =>
    if s.room then (s.client.queueCall i).map fun client => { s with client } else none
  | .expire i => s.whenUnlocked ((s.client.expireCall i).map fun client => { s with client })
  | .receive i => s.receive i
  | .register k => s.whenUnlocked (s.register k)
  | .send peerID payload =>
    if s.room then (s.client.send peerID payload).map fun client => { s with client } else none
  | .frame found frame =>
    match s.reader with
    | .reading => s.handle found frame
    | _ => none
  | .proceed pick => s.proceed pick
  -- `enqueueBinary` of a client that is closed
  | .drop =>
    match s.reader with
    | .putting (.envelope .. :: out) =>
      if s.closed then some { s with reader := .putting out } else none
    | _ => none
  | .write =>
    match s.client.sends with
    | [] => none
    | _ :: sends => some { s with client := { s.client with sends } }
  | .close => some { s with closed := true }

/-- The waiter channel that the handler's next step sends on. -/
def sendsOn (s : Waiting N) (pick : ℕ) : Option ℕ :=
  match s.reader with
  | .pairCode w .. => some w.ch
  | .putting (.pairResult ch _ :: _) => some ch
  | .failing _ => (s.nextWaiter pick).map fun w => w.2.ch
  | _ => none

end Waiting

end Relayly.Go
