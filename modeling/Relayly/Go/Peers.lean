import Relayly.Go.Pair

/-!
# `client.go` and `pairing.go`: the map of peers and the calls that pair

The whole client: its peers by device ID, the waiters of `RequestPairCode` and `AcceptPair`, and
the goroutines that are in one of these calls. A peer is added by `welcome` and by a
`pair_complete` for which a waiter is registered; nothing removes one.

A channel that a waiter holds has room for one result. The read loop handles one frame at a time,
and what it does in between to a single peer is `Client`.
-/

namespace Relayly.Go

variable {N : Noise}

/-- What `errForCode` gives for the code of an `error` frame, before its message. -/
def errorOfCode : String → GoError
  | "invalid_code" => ⟨"relayly: invalid pairing code", some .errInvalidCode⟩
  | "code_expired" => ⟨"relayly: pairing code expired", some .errCodeExpired⟩
  | "already_paired" => ⟨"relayly: device already paired", some .errAlreadyPaired⟩
  | "peer_offline" => ⟨"relayly: peer is offline", some .errPeerOffline⟩
  | "rate_limited" => ⟨"relayly: rate limited", some .errRateLimited⟩
  | "malformed" => ⟨"relayly: malformed request", some .errMalformed⟩
  | "key_mismatch" => errKeyMismatch
  | _ => ⟨"relayly: internal server error", some .errInternal⟩

def errForCode (code message : String) : GoError :=
  if message = "" then errorOfCode code
  else GoError.wrap "" (errorOfCode code) (": " ++ message)

/-- What is put on a waiter's channel: the code asked for, or how the pairing ended. -/
inductive WaiterResult
  | code (short : String) (expiresIn : ℕ)
  | pair (result : PairResult)

/-- The `Code` of a result that is no error, which is empty in one about a pairing. -/
def WaiterResult.assigned : WaiterResult → Option String
  | .code short _ => some short
  | .pair result => if result.error.isNone then some "" else none

/-- `ch` is the channel, as an index. -/
structure PairWaiter where
  ch : ℕ
  weAreAcceptor : Bool := false

/-- Where a call stands: at its first `select`, which hands the frame to `c.sends`, or at its
second, which waits for the result. `wait` is `PairCode.Wait`. -/
inductive PairCall
  | requestPairCode (ch : ℕ) (queued : Bool)
  | acceptPair (code : String) (ch : ℕ) (queued : Bool)
  | wait (ch : ℕ)
  | returned

/-- What is put on `c.sends`. -/
inductive QueuedFrame
  | pairRequest
  | pairAccept (code : String)
  | binary (data : Bytes)

/-- A peer is kept under its own ID, so `peers` is the list of the map's values, in no particular
order. -/
structure FullClient (N : Noise) where
  deviceID : String
  privateKey : PrivateKey
  rand : ℕ → Bytes
  peerStore : PeerStore
  peers : List PeerConn := []
  sessions : List (NoiseSession N) := []
  pairWaiters : List (String × PairWaiter) := []
  chans : List (Option WaiterResult) := []
  calls : List PairCall := []
  sends : List QueuedFrame := []
  messages : List (String × Bytes) := []

/-- The key of `pairWaiters` for a code that has not been assigned yet. -/
def requestKey : String := "__request__"

namespace FullClient

def getPeerConn (c : FullClient N) (id : String) : Option PeerConn := c.peers.find? (·.id = id)

def setPeerConn (c : FullClient N) (p : PeerConn) : FullClient N :=
  if c.peers.any (·.id = p.id) then
    { c with peers := c.peers.map fun q => if q.id = p.id then p else q }
  else { c with peers := c.peers ++ [p] }

/-- The first entry that a `range` over the map gives, which is any one of them. -/
def getSolePeer (c : FullClient N) (pick : ℕ) : Option PeerConn := c.peers[pick % c.peers.length]?

def applyWelcomePeers (c : FullClient N) (peers : List (String × String)) : FullClient N :=
  peers.foldl (fun c p =>
    if (c.getPeerConn p.1).isNone then c.setPeerConn (newPeerConn p.1 p.2) else c) c

def setPairWaiter (c : FullClient N) (key : String) (w : PairWaiter) : FullClient N :=
  { c with pairWaiters := c.pairWaiters.filter (·.1 ≠ key) ++ [(key, w)] }

def removePairWaiter (c : FullClient N) (key : String) : FullClient N :=
  { c with pairWaiters := c.pairWaiters.filter (·.1 ≠ key) }

def pairWaiter (c : FullClient N) (key : String) : Option PairWaiter :=
  (c.pairWaiters.find? (·.1 = key)).map Prod.snd

def takePairWaiter (c : FullClient N) (key : String) : FullClient N × Option PairWaiter :=
  (c.removePairWaiter key, c.pairWaiter key)

/-- `ch <- r`; `none` where the channel is full and the send blocks. -/
def put (c : FullClient N) (ch : ℕ) (r : WaiterResult) : Option (FullClient N) :=
  match c.chans[ch]? with
  | some none => some { c with chans := c.chans.set ch (some r) }
  | _ => none

/-- The client as its handlers see one peer. -/
def at_ (c : FullClient N) (p : PeerConn) : Client N where
  deviceID := c.deviceID
  privateKey := c.privateKey
  rand := c.rand
  peerStore := c.peerStore
  peer := p
  sessions := c.sessions

/-- What a handler put out. The callbacks leave the client alone. -/
def perform (c : FullClient N) : Output → Option (FullClient N)
  | .envelope kind payload =>
    some { c with sends := c.sends ++ [.binary (encodeEnvelope kind payload)] }
  | .pairResult ch result => c.put ch (.pair result)
  | .message sender payload => some { c with messages := c.messages ++ [(sender, payload)] }
  | .onReady _ | .onPeerStatus .. => some c

/-- What a handler of one peer leaves behind. -/
def update (c : FullClient N) (d : Client N) (out : List Output) : Option (FullClient N) :=
  out.foldlM perform
    (({ c with peerStore := d.peerStore, sessions := d.sessions } : FullClient N).setPeerConn d.peer)

def handlePairCode (c : FullClient N) (code : String) (expiresIn : ℕ) : Option (FullClient N) :=
  match c.takePairWaiter requestKey with
  | (c, some w) => c.put w.ch (.code code expiresIn)
  | (c, none) => some c

/-- The peer that `pair_complete` links. -/
def pairedPeer (peerID peerStaticKey : String) (w : PairWaiter) : PeerConn :=
  { newPeerConn peerID peerStaticKey with firstPairWaiter := some w.ch }

/-- The accepting device starts the first handshake. -/
def initiate (c : FullClient N) (p : PeerConn) (w : PairWaiter) : Option (FullClient N) :=
  match (c.at_ p).startAsInitiator with
  | (d, .error e) =>
    c.update d.takeFirstPairWaiter.1 [.pairResult w.ch
      { peerID := "", error := some (GoError.wrap "relayly: starting handshake: " e "") }]
  | (d, .ok msg1) => c.update d [.envelope envelopeHandshake msg1]

def handlePairComplete (c : FullClient N) (peerID code peerStaticKey : String) :
    Option (FullClient N) :=
  match c.takePairWaiter code with
  | (c, none) => some c
  | (c, some w) =>
    let p := pairedPeer peerID peerStaticKey w
    if w.weAreAcceptor then (c.setPeerConn p).initiate p w else some (c.setPeerConn p)

def handlePeerStatus (c : FullClient N) (peerID : String) (online : Bool) :
    Option (FullClient N) :=
  match c.getPeerConn peerID with
  | none => c.perform (.onPeerStatus peerID online)
  | some p =>
    let (d, out) := (c.at_ p).handlePeerStatus peerID online
    c.update d out

/-- Every waiter is told of the error and forgotten. -/
def handleError (c : FullClient N) (code message : String) : Option (FullClient N) :=
  c.pairWaiters.foldlM
    (fun c w => c.put w.2.ch (.pair { peerID := "", error := some (errForCode code message) }))
    { c with pairWaiters := [] }

/-- `readLoop` on one binary frame. -/
def handleBinary (c : FullClient N) (pick : ℕ) (env : Env) (data : Bytes) :
    Option (FullClient N) :=
  match c.getSolePeer pick with
  | none => some c
  | some p =>
    match (c.at_ p).handleBinary env data with
    | none => none
    | some (d, out) => c.update d out

/-! ## The calls -/

/-- `make(chan PairResult, 1)`. -/
def makeChan (c : FullClient N) : FullClient N := { c with chans := c.chans ++ [none] }

/-- `<-ch` of a result that is there. -/
def drain (c : FullClient N) (ch : ℕ) : FullClient N := { c with chans := c.chans.set ch none }

/-- The part of `RequestPairCode` before its first `select`. -/
def requestPairCode (c : FullClient N) : FullClient N :=
  let ch := c.chans.length
  let c := c.makeChan.setPairWaiter requestKey { ch }
  { c with calls := c.calls ++ [.requestPairCode ch false] }

/-- The part of `AcceptPair` before its first `select`. -/
def acceptPair (c : FullClient N) (code : String) : FullClient N :=
  let ch := c.chans.length
  let c := c.makeChan.setPairWaiter code { ch, weAreAcceptor := true }
  { c with calls := c.calls ++ [.acceptPair code ch false] }

def setCall (c : FullClient N) (i : ℕ) (call : PairCall) : FullClient N :=
  { c with calls := c.calls.set i call }

/-- Call `i` hands its frame to `c.sends`. -/
def queueCall (c : FullClient N) (i : ℕ) : Option (FullClient N) :=
  match c.calls[i]? with
  | some (.requestPairCode ch false) =>
    some { c.setCall i (.requestPairCode ch true) with sends := c.sends ++ [.pairRequest] }
  | some (.acceptPair code ch false) =>
    some { c.setCall i (.acceptPair code ch true) with sends := c.sends ++ [.pairAccept code] }
  | _ => none

/-- The context of call `i` expires. `Wait` leaves the code's waiter in place, and may be called
again. -/
def expireCall (c : FullClient N) (i : ℕ) : Option (FullClient N) :=
  match c.calls[i]? with
  | some (.requestPairCode ..) => some ((c.removePairWaiter requestKey).setCall i .returned)
  | some (.acceptPair code ..) => some ((c.removePairWaiter code).setCall i .returned)
  | some (.wait _) => some c
  | _ => none

/-- Call `i` takes the result from its channel. `RequestPairCode` registers the waiter of the code
only now. -/
def resumeCall (c : FullClient N) (i : ℕ) : Option (FullClient N) :=
  match c.calls[i]? with
  | some (.requestPairCode ch true) =>
    match c.chans[ch]? with
    | some (some result) =>
      match result.assigned with
      | some short =>
        let resultCh := c.chans.length
        some (((c.drain ch).makeChan.setPairWaiter short { ch := resultCh }).setCall i
          (.wait resultCh))
      | none => some ((c.drain ch).setCall i .returned)
    | _ => none
  | some (.acceptPair _ ch true) | some (.wait ch) =>
    match c.chans[ch]? with
    | some (some _) => some ((c.drain ch).setCall i .returned)
    | _ => none
  | _ => none

/-- `Client.Send`; an error changes nothing. -/
def send (c : FullClient N) (peerID : String) (payload : Bytes) : Option (FullClient N) :=
  match c.getPeerConn peerID with
  | none => some c
  | some p =>
    match (c.at_ p).send peerID payload with
    | .error _ => some c
    | .ok (d, data) =>
      (c.update d []).map fun c => { c with sends := c.sends ++ [.binary data] }

end FullClient

end Relayly.Go
