import Mathlib.Data.Nat.Notation
import Relayly.Wire

/-!
# Dialing beside the write loop

`dial` of the Go client and `_dial` of the Python client open a connection, publish it in `c.conn`
or `self._ws`, read the `welcome` and write `announce_key`. The first dial comes before the loops
are started. On a reconnect the write loop runs beside it: it takes what the ping loop, `Send`, the
pairing calls and the handshakes have queued, and writes it on the connection that is published.

A write has a beginning and an end, and other steps come in between. The goroutines of the Go client
also interleave between taking a frame, loading `c.conn` and writing; a Python task runs on to the
`await` of `ws.send`.
-/

namespace Relayly.Dial

inductive Sdk
  | go
  | py
  deriving DecidableEq, Repr

/-- What is put on the queue of the write loop. -/
inductive Queued
  | ping
  | pairRequest
  | pairAccept (code : String)
  | binary (data : Bytes)
  deriving DecidableEq, Repr

/-- A frame on the wire. -/
inductive Frame
  | announceKey (staticKey : String)
  | queued (f : Queued)
  deriving DecidableEq, Repr

/-- How far `dial` has got on a connection. -/
inductive Stage
  | opened
  | announcing
  | announced
  deriving DecidableEq, Repr

/-- `frames` is what the client has begun to write while the connection was open. -/
structure Conn where
  stage : Stage := .opened
  closed : Bool := false
  frames : List Frame := []
  deriving DecidableEq, Repr

/-- Where `dial` is; `k` is its connection. -/
inductive Dialing
  | idle
  | reading (k : ℕ)
  | welcomed (k : ℕ)
  | announcing (k : ℕ)
  deriving DecidableEq, Repr

/-- Where the write loop is. -/
inductive Writing
  | idle
  | took (f : Queued)
  | loaded (f : Queued) (k : ℕ)
  | writing (k : ℕ)
  deriving DecidableEq, Repr

/-- `current` is `c.conn`. The loops run once `started`; a client whose first dial has failed is
`gone`. -/
structure Client where
  staticKey : String
  conns : List Conn := []
  current : Option ℕ := none
  dial : Dialing := .idle
  started : Bool := false
  gone : Bool := false
  queue : List Queued := []
  writer : Writing := .idle
  deriving DecidableEq, Repr

inductive Label
  | connect
  | welcome
  | refuse
  | timeOut
  | keyError
  | announce
  | announced (ok : Bool)
  | enqueue (f : Queued)
  | take
  | load
  | write
  | written
  | lost (k : ℕ)
  deriving DecidableEq, Repr

/-- The capacity of the queue. -/
def sendsCapacity : ℕ := 64

namespace Client

def modifyConn (s : Client) (k : ℕ) (f : Conn → Conn) : Client :=
  { s with conns := s.conns.modify k f }

def close (s : Client) (k : ℕ) : Client := s.modifyConn k fun conn => { conn with closed := true }

/-- `dial` returns an error. -/
def fail (s : Client) : Client := { s with dial := .idle, gone := !s.started }

/-- The connection is there and not closed. -/
def isOpen (s : Client) (k : ℕ) : Bool := (s.conns[k]?).any fun conn => !conn.closed

/-- `dial` begins to write `announce_key`; an error ends it. -/
def announce (s : Client) (k : ℕ) : Client :=
  if s.isOpen k then
    { s.modifyConn k fun conn =>
        { conn with stage := .announcing, frames := conn.frames ++ [.announceKey s.staticKey] } with
      dial := .announcing k }
  else (s.close k).fail

/-- The write of `announce_key` ends. -/
def announced (s : Client) (k : ℕ) (ok : Bool) : Client :=
  if ok then
    { s.modifyConn k fun conn => { conn with stage := .announced } with
      dial := .idle
      started := true }
  else (s.close k).fail

/-- The write loop begins to write a frame; it ignores an error. -/
def beginWrite (s : Client) (f : Queued) (k : ℕ) : Client :=
  if s.isOpen k then
    { s.modifyConn k fun conn => { conn with frames := conn.frames ++ [.queued f] } with
      writer := .writing k }
  else { s with writer := .idle }

/-- The write loop has a frame. -/
def take (sdk : Sdk) (s : Client) (f : Queued) : Client :=
  match sdk, s.current with
  | .go, _ => { s with writer := .took f }
  | .py, some k => s.beginWrite f k
  | .py, none => s

/-- The state after a step; `none` where it is not enabled. -/
def step (sdk : Sdk) (s : Client) : Label → Option Client
  | .connect =>
    match s.dial with
    | .idle =>
      if s.gone then none
      else
        let k := s.conns.length
        some { s with conns := s.conns ++ [{}], current := some k, dial := .reading k }
    | _ => none
  -- a `welcome` of the version that the client implements
  | .welcome =>
    match s.dial with
    | .reading k => some { s with dial := .welcomed k }
    | _ => none
  -- any other first frame; in Go also an error of `ReadMessage`
  | .refuse =>
    match s.dial with
    | .reading k => some (s.close k).fail
    | _ => none
  -- `ws.recv` times out or raises, and `_dial` leaves the connection as it is
  | .timeOut =>
    match sdk, s.dial with
    | .py, .reading _ => some s.fail
    | _, _ => none
  | .keyError =>
    match sdk, s.dial with
    | .go, .welcomed k => some (s.close k).fail
    | _, _ => none
  | .announce =>
    match s.dial with
    | .welcomed k => some (s.announce k)
    | _ => none
  | .announced ok =>
    match s.dial with
    | .announcing k => some (s.announced k ok)
    | _ => none
  | .enqueue f =>
    if s.started ∧ s.queue.length < sendsCapacity then some { s with queue := s.queue ++ [f] }
    else none
  | .take =>
    match s.started, s.writer, s.queue with
    | true, .idle, f :: queue => some (take sdk { s with queue } f)
    | _, _, _ => none
  | .load =>
    match s.writer, s.current with
    | .took f, some k => some { s with writer := .loaded f k }
    | _, _ => none
  | .write =>
    match s.writer with
    | .loaded f k => some (s.beginWrite f k)
    | _ => none
  | .written =>
    match s.writer with
    | .writing _ => some { s with writer := .idle }
    | _ => none
  -- the relay, the network or `Close` closes a connection
  | .lost k => some (s.close k)

/-- The first frame written on each connection is `announce_key`. -/
def AnnouncesFirst (s : Client) : Prop :=
  ∀ conn ∈ s.conns, ∀ frame ∈ conn.frames.head?, frame = .announceKey s.staticKey

instance (s : Client) : Decidable s.AnnouncesFirst :=
  inferInstanceAs (Decidable (∀ conn ∈ s.conns, ∀ frame ∈ conn.frames.head?, _))

/-- `dial` and the write loop are both in a write on one connection. -/
def Overlaps (s : Client) : Prop := ∃ k, s.dial = .announcing k ∧ s.writer = .writing k

/-- The connection that the write loop begins a write on with this step, if it is open. -/
def beginsOn (sdk : Sdk) (s : Client) (l : Label) : Option ℕ :=
  match l, s.writer with
  | .write, .loaded _ k => some k
  | .take, .idle => if sdk = .py ∧ s.started ∧ s.queue ≠ [] then s.current else none
  | _, _ => none

/-- The write loop begins no write on an open connection before `dial` has written `announce_key`
there. -/
def Waits (sdk : Sdk) (s : Client) (l : Label) : Prop :=
  ∀ k ∈ s.beginsOn sdk l, ∀ conn ∈ s.conns[k]?, conn.closed = false → conn.stage = .announced

end Client

end Relayly.Dial
