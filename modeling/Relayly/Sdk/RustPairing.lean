import Relayly.Wire

/-!
# `sdk/rust`: the pairing waiters and the errors they get

The read loop beside any number of calls of `request_pair_code`, `accept_pair` and `PairCode::wait`.
Each waits for a oneshot channel. Its sender is in `pair_waiters`, under the key of the request or
under a pairing code, until a handler sends on it or keeps it for a peer's first handshake; a sender
that is replaced or removed is dropped, which closes the channel. A handler holds the lock of
`pair_waiters` while it sends, so a frame is one step.
-/

namespace Relayly.Sdk.Rust

/-! ## `errors.rs` -/

/-- `io` has the text of the `std::io::Error`. -/
inductive Error
  | connection (message : String)
  | auth (message : String)
  | peerNotFound (peerId : String)
  | crypto (message : String)
  | closed
  | timeout
  | io (text : String)
  | invalidCode (message : String)
  | codeExpired (message : String)
  | alreadyPaired (message : String)
  | peerOffline (message : String)
  | rateLimited (message : String)
  | malformed (message : String)
  | internal (message : String)
  | keyMismatch (message : String)
  | notReady
  | peerKeyMismatch (peerId : String)
  deriving DecidableEq, Repr

def suffix (message : String) : String := if message = "" then "" else ": " ++ message

/-- `to_string` -/
def Error.display : Error → String
  | .connection message => "connection error: " ++ message
  | .auth message => "auth failed: " ++ message
  | .peerNotFound peerId => "no paired peer: " ++ peerId
  | .crypto message => "crypto error: " ++ message
  | .closed => "client closed"
  | .timeout => "operation timed out"
  | .io text => "IO error: " ++ text
  | .invalidCode message => "invalid pairing code" ++ suffix message
  | .codeExpired message => "pairing code expired" ++ suffix message
  | .alreadyPaired message => "device already paired" ++ suffix message
  | .peerOffline message => "peer is offline" ++ suffix message
  | .rateLimited message => "rate limited" ++ suffix message
  | .malformed message => "malformed request" ++ suffix message
  | .internal message => "internal server error" ++ suffix message
  | .keyMismatch message =>
    "announced static key does not match the server's record" ++ suffix message
  | .notReady => "peer session is not ready"
  | .peerKeyMismatch peerId =>
    "peer's authenticated key does not match the pinned key (" ++ peerId ++ ")"

def errorForCode (code message : String) : Error :=
  match code with
  | "invalid_code" => .invalidCode message
  | "code_expired" => .codeExpired message
  | "already_paired" => .alreadyPaired message
  | "peer_offline" => .peerOffline message
  | "rate_limited" => .rateLimited message
  | "malformed" => .malformed message
  | "key_mismatch" => .keyMismatch message
  | _ => .internal message

def errClone (err : Error) : Error := errorForCode "" err.display

/-! ## The state -/

structure PairResult where
  code : String := ""
  expiresIn : ℕ := 0
  peerId : String := ""
  peerPublicKey : Option Bytes := none
  error : Option Error := none
  deriving DecidableEq, Repr

/-- `sender` is the channel, as an index. -/
structure PairWaiter where
  sender : ℕ
  weAreAcceptor : Bool
  deriving DecidableEq, Repr

/-- What a call returns if it succeeds. -/
inductive Paired
  | code (short : String) (expiresIn : ℕ)
  | peer (id : String) (publicKey : Bytes)
  deriving DecidableEq, Repr

/-- A call with its channel. `queued`: its frame is in `send_tx`, and it waits for the channel. A
`PairCode` waits from when it is made, since the result stays in the channel until then. -/
inductive Call
  | requestPairCode (ch : ℕ) (queued : Bool)
  | acceptPair (code : String) (ch : ℕ) (queued : Bool)
  | wait (ch : ℕ)
  | returned (result : Except Error Paired)

/-- `firstPairWaiters` are those of the peers. `chans` are the channels with what was sent on them;
`sends` records the channels sent on, and no step reads it. -/
structure Pairing where
  pairWaiters : List (String × PairWaiter) := []
  firstPairWaiters : List (String × ℕ) := []
  chans : List (Option PairResult) := []
  calls : List Call := []
  sends : List ℕ := []

/-- `unsent` is `send_tx` closed, `elapse` the end of the ten seconds, `resume` the end of a call's
`await`. The handlers: `pairComplete` has the error of `start_as_initiator`, if any, and
`handshake` what `resolve_handshake` finds of the peer. -/
inductive PairLabel
  | requestPairCode
  | acceptPair (code : String)
  | queue (i : ℕ)
  | unsent (i : ℕ)
  | elapse (i : ℕ)
  | resume (i : ℕ)
  | pairCode (code : Option String) (expiresIn : Option ℕ)
  | pairComplete (peerId code : Option String) (startError : Option Error)
  | handshake (peerId : String) (wasPending : Bool) (found : Except Error (Option Bytes))
  | error (code message : Option String)

def requestKey : String := "__request__"

namespace Pairing

/-! ## The maps and the channels -/

def insertWaiter (s : Pairing) (key : String) (w : PairWaiter) : Pairing :=
  { s with pairWaiters := (key, w) :: s.pairWaiters.filter (·.1 ≠ key) }

def removeWaiter (s : Pairing) (key : String) : Pairing :=
  { s with pairWaiters := s.pairWaiters.filter (·.1 ≠ key) }

def setFirstPairWaiter (s : Pairing) (peerId : String) (ch : ℕ) : Pairing :=
  { s with firstPairWaiters := (peerId, ch) :: s.firstPairWaiters.filter (·.1 ≠ peerId) }

def clearFirstPairWaiter (s : Pairing) (peerId : String) : Pairing :=
  { s with firstPairWaiters := s.firstPairWaiters.filter (·.1 ≠ peerId) }

/-- The senders that are not dropped. -/
def senders (s : Pairing) : List ℕ :=
  s.pairWaiters.map (·.2.sender) ++ s.firstPairWaiters.map (·.2)

def channel (s : Pairing) : Pairing := { s with chans := s.chans ++ [none] }

/-- A result for a call that has returned is lost, which the handlers ignore. -/
def send (s : Pairing) (ch : ℕ) (r : PairResult) : Pairing :=
  { s with chans := s.chans.set ch (some r), sends := s.sends ++ [ch] }

/-- What waiting for a channel gives; `none` while it does not end. -/
def awaited (s : Pairing) (ch : ℕ) : Option (Except Error PairResult) :=
  match s.chans[ch]? with
  | some (some r) => some (.ok r)
  | _ => if ch ∈ s.senders then none else some (.error .closed)

/-! ## The calls -/

def call (s : Pairing) (c : Call) : Pairing := { s with calls := s.calls ++ [c] }

def setCall (s : Pairing) (i : ℕ) (c : Call) : Pairing := { s with calls := s.calls.set i c }

def requestPairCode (s : Pairing) : Pairing :=
  let ch := s.chans.length
  (s.channel.insertWaiter requestKey ⟨ch, false⟩).call (.requestPairCode ch false)

def acceptPair (s : Pairing) (code : String) : Pairing :=
  let ch := s.chans.length
  (s.channel.insertWaiter code ⟨ch, true⟩).call (.acceptPair code ch false)

/-- The end of `accept_pair` and of `PairCode::wait`. -/
def peerOf : Except Error PairResult → Except Error Paired
  | .error e => .error e
  | .ok r =>
    match r.error with
    | some e => .error e
    | none =>
      match r.peerPublicKey with
      | none => .error .closed
      | some key => .ok (.peer r.peerId key)

/-- The end of `request_pair_code`: the waiter of the code is registered. -/
def codeOf (s : Pairing) (i : ℕ) : Except Error PairResult → Pairing
  | .error e => s.setCall i (.returned (.error e))
  | .ok r =>
    match r.error with
    | some e => s.setCall i (.returned (.error e))
    | none =>
      let ch := s.chans.length
      ((s.channel.insertWaiter r.code ⟨ch, false⟩).setCall i
        (.returned (.ok (.code r.code r.expiresIn)))).call (.wait ch)

def queue (s : Pairing) (i : ℕ) : Option Pairing :=
  match s.calls[i]? with
  | some (.requestPairCode ch false) => some (s.setCall i (.requestPairCode ch true))
  | some (.acceptPair code ch false) => some (s.setCall i (.acceptPair code ch true))
  | _ => none

def unsent (s : Pairing) (i : ℕ) : Option Pairing :=
  match s.calls[i]? with
  | some (.requestPairCode _ false) =>
    some ((s.removeWaiter requestKey).setCall i (.returned (.error .closed)))
  | some (.acceptPair code _ false) =>
    some ((s.removeWaiter code).setCall i (.returned (.error .closed)))
  | _ => none

/-- `timeout` looks at the channel first. The waiter stays where it is. -/
def elapse (s : Pairing) (i : ℕ) : Option Pairing :=
  match s.calls[i]? with
  | some (.requestPairCode ch true) | some (.acceptPair _ ch true) =>
    if (s.awaited ch).isNone then some (s.setCall i (.returned (.error .timeout))) else none
  | _ => none

def resume (s : Pairing) (i : ℕ) : Option Pairing :=
  match s.calls[i]? with
  | some (.requestPairCode ch true) => (s.awaited ch).map fun r => s.codeOf i r
  | some (.acceptPair _ ch true) | some (.wait ch) =>
    (s.awaited ch).map fun r => s.setCall i (.returned (peerOf r))
  | _ => none

/-! ## The handlers -/

def handlePairCode (s : Pairing) (code : Option String) (expiresIn : Option ℕ) : Pairing :=
  match s.pairWaiters.lookup requestKey with
  | none => s
  | some w => (s.removeWaiter requestKey).send w.sender
      { code := code.getD "", expiresIn := expiresIn.getD 0 }

/-- The first handshake of a peer failed or succeeded; a rekey has no waiter to tell. -/
def settle (s : Pairing) (peerId : String) (r : PairResult) : Pairing :=
  match s.firstPairWaiters.lookup peerId with
  | none => s
  | some ch => (s.clearFirstPairWaiter peerId).send ch r

def handlePairComplete (s : Pairing) (peerId code : Option String) (startError : Option Error) :
    Pairing :=
  match peerId with
  | none => s
  | some peerId =>
    let code := code.getD ""
    match if code = "" then none else s.pairWaiters.lookup code with
    | none => s
    | some w =>
      let s := (s.removeWaiter code).setFirstPairWaiter peerId w.sender
      match startError with
      | some e => if w.weAreAcceptor then s.settle peerId { error := some e } else s
      | none => s

def resolveHandshake (s : Pairing) (peerId : String) (wasPending : Bool) :
    Except Error (Option Bytes) → Pairing
  | .error e => if wasPending then s else s.settle peerId { error := some e }
  | .ok publicKey => s.settle peerId { peerId, peerPublicKey := publicKey }

/-- The loop over the waiters taken from the map, whose order is any. -/
def drain (ws : List (String × PairWaiter)) (r : PairResult) (s : Pairing) : Pairing :=
  ws.foldl (fun s w => s.send w.2.sender r) s

def handleError (s : Pairing) (code message : Option String) : Pairing :=
  let err := errorForCode (code.getD "") (message.getD "")
  drain s.pairWaiters { error := some (errClone err) } { s with pairWaiters := [] }

/-- The state after a step; `none` where it is not enabled. -/
def step (s : Pairing) : PairLabel → Option Pairing
  | .requestPairCode => some s.requestPairCode
  | .acceptPair code => some (s.acceptPair code)
  | .queue i => s.queue i
  | .unsent i => s.unsent i
  | .elapse i => s.elapse i
  | .resume i => s.resume i
  | .pairCode code expiresIn => some (s.handlePairCode code expiresIn)
  | .pairComplete peerId code startError => some (s.handlePairComplete peerId code startError)
  | .handshake peerId wasPending found => some (s.resolveHandshake peerId wasPending found)
  | .error code message => some (s.handleError code message)

end Pairing

end Relayly.Sdk.Rust
