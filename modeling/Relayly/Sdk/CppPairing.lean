import Relayly.Wire
import Mathlib.Data.Int.Notation

/-!
# `sdk/cpp`: the futures of the pairing calls

`RequestPairCode` and `AcceptPair` on any number of threads beside the thread of the WebSocket, which
runs one callback after the other. A promise is kept by a `shared_ptr` in `code_waiter`, in
`pair_waiters` under its code, in `first_pair_waiters` under a peer, or in a local variable of the
callback that has taken it out to set it. What is done under one lock, and setting a promise, is one
step. A promise that is set a second time throws.
-/

namespace Relayly.Sdk.Cpp

/-! ## `errors.hpp` -/

inductive ErrorCode
  | connection
  | auth
  | peerNotFound
  | crypto
  | closed
  | timeout
  | io
  | invalidCode
  | codeExpired
  | alreadyPaired
  | peerOffline
  | rateLimited
  | malformed
  | internal
  | keyMismatch
  | notReady
  | peerKeyMismatch
  deriving DecidableEq, Repr

structure Error where
  code : ErrorCode
  message : String
  deriving DecidableEq, Repr

/-- What a future can throw: the library's error, or an exception that `ResolveHandshake` caught. -/
inductive Exception
  | error (err : Error)
  | other (what : String)
  deriving DecidableEq, Repr

def errorCodes : List (String × ErrorCode) :=
  [("invalid_code", .invalidCode), ("code_expired", .codeExpired), ("already_paired", .alreadyPaired),
    ("peer_offline", .peerOffline), ("rate_limited", .rateLimited), ("malformed", .malformed),
    ("key_mismatch", .keyMismatch)]

def errorForCode (code message : String) : Error where
  code := (errorCodes.lookup code).getD .internal
  message

/-! ## The state -/

structure PairCodeEvent where
  code : String
  expiresIn : Int32
  deriving DecidableEq, Repr

structure Peer where
  id : String
  publicKey : Bytes
  deriving DecidableEq, Repr

/-- `promise` is the promise of a `Peer`, as an index. -/
structure PairWaiter where
  weAreAcceptor : Bool
  promise : ℕ
  deriving DecidableEq, Repr

/-- Where the thread of the WebSocket is: between two callbacks, or in one, with what it has taken. -/
inductive Io
  | idle
  | setCode (w : ℕ) (event : PairCodeEvent)
  | link (w : PairWaiter) (peerID : String)
  | attach (w : PairWaiter) (peerID : String)
  | failCode (w : ℕ) (err : Error)
  | failPairs (err : Error)
  | take (peerID : String) (found : Except Exception Bytes)
  | settle (w : ℕ) (outcome : Except Exception Peer)
  | threw

/-- A call: `RequestPairCode` blocks on its future, then has the event, and returns a `PairCode` with a
promise of its own; `AcceptPair` returns the future of its promise. -/
inductive Call
  | requestPairCode (w : ℕ)
  | gotCode (event : PairCodeEvent)
  | pairCode (event : PairCodeEvent) (w : ℕ)
  | acceptPair (w : ℕ)
  | threw (err : Error)

/-- `codeReplaced` and `replaced` record the promises that another one took the place of. No step
reads them. The source drops such a promise with its waiter, so that `get` on its future throws
`broken_promise`; here it is a promise that is never set. -/
structure Pairing where
  codeWaiter : Option ℕ := none
  pairWaiters : List (String × PairWaiter) := []
  firstPairWaiters : List (String × ℕ) := []
  peers : List String := []
  codePromises : List (Option (Except Error PairCodeEvent)) := []
  promises : List (Option (Except Exception Peer)) := []
  io : Io := .idle
  calls : List Call := []
  codeReplaced : List ℕ := []
  replaced : List ℕ := []

/-- What starts a callback. A handshake that is done comes with what `ResolveHandshake` finds: the
authenticated key, or why it is not accepted. -/
inductive Frame
  | pairCode (code : Option String) (expiresIn : Option UInt64)
  | pairComplete (peerID code : Option String)
  | error (code message : Option String)
  | handshake (peerID : String) (found : Except Exception Bytes)

inductive PairLabel
  | requestPairCode
  | resume (i : ℕ)
  | acceptPair (code : String)
  | frame (f : Frame)
  | io

namespace Pairing

/-! ## The calls -/

def setCall (s : Pairing) (i : ℕ) (c : Call) : Pairing := { s with calls := s.calls.set i c }

def requestPairCode (s : Pairing) : Pairing :=
  { s with
    codePromises := s.codePromises ++ [none]
    codeWaiter := some s.codePromises.length
    codeReplaced := s.codeReplaced ++ s.codeWaiter.toList
    calls := s.calls ++ [.requestPairCode s.codePromises.length] }

/-- `pair_waiters[code] = PairWaiter{weAreAcceptor, promise}` with a new promise. -/
def register (s : Pairing) (code : String) (weAreAcceptor : Bool) : Pairing :=
  { s with
    promises := s.promises ++ [none]
    pairWaiters := (code, ⟨weAreAcceptor, s.promises.length⟩) :: s.pairWaiters.filter (·.1 ≠ code)
    replaced := s.replaced ++ (s.pairWaiters.filter (·.1 = code)).map (·.2.promise) }

def acceptPair (s : Pairing) (code : String) : Pairing :=
  { s.register code true with calls := s.calls ++ [.acceptPair s.promises.length] }

/-- `RequestPairCode` goes on: `get` returns or throws, and then the code is registered. -/
def resume (s : Pairing) (i : ℕ) : Option Pairing :=
  match s.calls[i]? with
  | some (.requestPairCode w) =>
    match s.codePromises[w]? with
    | some (some (.ok event)) => some (s.setCall i (.gotCode event))
    | some (some (.error err)) => some (s.setCall i (.threw err))
    | _ => none
  | some (.gotCode event) =>
    some ((s.register event.code false).setCall i (.pairCode event s.promises.length))
  | _ => none

/-! ## The callbacks -/

def handlePairCode (s : Pairing) (code : Option String) (expiresIn : Option UInt64) : Pairing :=
  match s.codeWaiter with
  | none => s
  | some w =>
    { s with
      codeWaiter := none
      io := .setCode w ⟨code.getD "", (expiresIn.getD 0).toUInt32.toInt32⟩ }

def handlePairComplete (s : Pairing) (peerID code : Option String) : Pairing :=
  match s.pairWaiters.lookup (code.getD "") with
  | none => s
  | some w =>
    { s with
      pairWaiters := s.pairWaiters.filter (·.1 ≠ code.getD "")
      io := .link w (peerID.getD "") }

def handleError (s : Pairing) (code message : Option String) : Pairing :=
  let err := errorForCode (code.getD "") (message.getD "")
  { s with
    codeWaiter := none
    io := match s.codeWaiter with
      | some w => .failCode w err
      | none => .failPairs err }

/-- A callback begins, up to the end of its first lock. -/
def handle (s : Pairing) : Frame → Option Pairing
  | .pairCode code expiresIn => some (s.handlePairCode code expiresIn)
  | .pairComplete peerID code => some (s.handlePairComplete peerID code)
  | .error code message => some (s.handleError code message)
  | .handshake peerID found => if peerID ∈ s.peers then some { s with io := .take peerID found } else none

/-- `set_value` or `set_exception` on a promise of a code. -/
def setCodePromise (s : Pairing) (w : ℕ) (result : Except Error PairCodeEvent) (next : Io) : Pairing :=
  match s.codePromises[w]? with
  | some none => { s with codePromises := s.codePromises.set w (some result), io := next }
  | _ => { s with io := .threw }

/-- The same on a promise of a `Peer`. -/
def setPromise (s : Pairing) (w : ℕ) (result : Except Exception Peer) : Pairing :=
  match s.promises[w]? with
  | some none => { s with promises := s.promises.set w (some result), io := .idle }
  | _ => { s with io := .threw }

/-- The loop over `pair_waiters`, and `clear` after it. -/
def failAll (s : Pairing) (err : Error) : List (String × PairWaiter) → Pairing
  | [] => { s with pairWaiters := [], io := .idle }
  | w :: ws =>
    match s.promises[w.2.promise]? with
    | some none =>
      failAll { s with promises := s.promises.set w.2.promise (some (.error (.error err))) } err ws
    | _ => { s with io := .threw }

/-- `first_pair_waiters[peerID] = promise`. -/
def setFirstPairWaiter (s : Pairing) (peerID : String) (w : ℕ) : Pairing :=
  { s with
    firstPairWaiters := (peerID, w) :: s.firstPairWaiters.filter (·.1 ≠ peerID)
    replaced := s.replaced ++ (s.firstPairWaiters.filter (·.1 = peerID)).map (·.2) }

/-- The callback goes on. -/
def ioStep (s : Pairing) : Option Pairing :=
  match s.io with
  | .idle | .threw => none
  | .setCode w event => some (s.setCodePromise w (.ok event) .idle)
  | .link w peerID =>
    some { s with
      peers := if peerID ∈ s.peers then s.peers else peerID :: s.peers
      io := .attach w peerID }
  | .attach w peerID => some { s.setFirstPairWaiter peerID w.promise with io := .idle }
  | .failCode w err => some (s.setCodePromise w (.error err) (.failPairs err))
  | .failPairs err => some (s.failAll err s.pairWaiters)
  | .take peerID found =>
    match s.firstPairWaiters.lookup peerID with
    | none => some { s with io := .idle }
    | some w =>
      some { s with
        firstPairWaiters := s.firstPairWaiters.filter (·.1 ≠ peerID)
        io := .settle w (found.map (Peer.mk peerID)) }
  | .settle w outcome => some (s.setPromise w outcome)

def step (s : Pairing) : PairLabel → Option Pairing
  | .requestPairCode => some s.requestPairCode
  | .resume i => s.resume i
  | .acceptPair code => some (s.acceptPair code)
  | .frame f =>
    match s.io with
    | .idle => s.handle f
    | _ => none
  | .io => s.ioStep

end Pairing

end Relayly.Sdk.Cpp
