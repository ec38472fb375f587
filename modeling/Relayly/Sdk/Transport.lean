import Mathlib.Tactic.Common
import Relayly.Wire

/-!
# `WebSocketTransport` of `sdk/ts/src/transport.ts`

The event loop runs one callback at a time, and a callback of the transport may call the
application, which may call the transport again before it returns, or throw. So an event comes with
what each callback of the application does. The sockets and the timers are the browser's: all that
were ever made, with what has become of them.
-/

namespace Relayly.Sdk.Ts

structure TransportOptions where
  reconnectDelayMs : ℕ := 1000
  maxReconnectDelayMs : ℕ := 60000
  deriving DecidableEq, Repr

/-- `readyState` of a WebSocket. -/
inductive ReadyState
  | connecting
  | opened
  | closing
  | closed
  deriving DecidableEq, Repr

/-- `ws.close()`. -/
def ReadyState.close : ReadyState → ReadyState
  | .connecting | .opened => .closing
  | state => state

structure Timer where
  delay : ℕ
  pending : Bool := true
  deriving DecidableEq, Repr

/-- `event.data`. -/
inductive MessageData
  | string (s : String)
  | arrayBuffer (bytes : Bytes)
  | other
  deriving DecidableEq, Repr

/-- What a frame is for the application. -/
inductive FrameData
  | string (s : String)
  | uint8Array (bytes : Bytes)
  deriving DecidableEq, Repr

/-- What the transport does: it calls the application back, writes to a socket, sets a timer, or
throws. -/
inductive Effect
  | onOpen
  | onClose (reason : String)
  | onMessage (data : FrameData)
  | onReconnecting (attempt : ℕ)
  | setTimeout (delay : ℕ)
  | wrote (socket : ℕ) (data : FrameData)
  | threw
  deriving DecidableEq, Repr

inductive TransportCall
  | connect
  | send (data : FrameData)
  | close
  deriving DecidableEq, Repr

/-- What a callback of the application does: its calls of the transport, and whether it throws after
them. -/
structure Callback where
  calls : List TransportCall := []
  throws : Bool := false
  deriving DecidableEq, Repr

/-- `connects` counts the calls of `connect` that the application makes, `abandoned` the callbacks
that threw before a timer was set, and `effects` is what the transport has done; no step reads them. -/
structure WebSocketTransport where
  opts : TransportOptions
  ws : Option ℕ := none
  reconnectTimer : Option ℕ := none
  reconnectAttempt : ℕ := 0
  currentDelay : ℕ
  closed : Bool := false
  sockets : List ReadyState := []
  timers : List Timer := []
  connects : ℕ := 0
  abandoned : ℕ := 0
  effects : List Effect := []
  deriving DecidableEq, Repr

inductive TransportEvent
  | call (c : TransportCall)
  | opened (socket : ℕ) (onOpen : Callback)
  | message (socket : ℕ) (data : MessageData) (onMessage : Callback)
  | closing (socket : ℕ)
  | closed (socket code : ℕ) (reason : String) (onClose onReconnecting : Callback)
  | timeout (timer : ℕ)
  deriving DecidableEq, Repr

namespace WebSocketTransport

def new (opts : TransportOptions) : WebSocketTransport :=
  { opts, currentDelay := opts.reconnectDelayMs }

def emit (t : WebSocketTransport) (e : Effect) : WebSocketTransport :=
  { t with effects := t.effects ++ [e] }

/-- `new WebSocket` is taken not to throw. -/
def connect (t : WebSocketTransport) : WebSocketTransport :=
  if t.closed then t
  else { t with ws := some t.sockets.length, sockets := t.sockets ++ [.connecting] }

def send (t : WebSocketTransport) (data : FrameData) : WebSocketTransport :=
  match t.ws with
  | none => t.emit .threw
  | some i => if t.sockets[i]? = some .opened then t.emit (.wrote i data) else t.emit .threw

def clearTimeout (t : WebSocketTransport) : WebSocketTransport :=
  match t.reconnectTimer with
  | none => t
  | some j =>
    { t with
      timers := t.timers.modify j fun timer => { timer with pending := false }
      reconnectTimer := none }

def close (t : WebSocketTransport) : WebSocketTransport :=
  let t := { t with closed := true }.clearTimeout
  match t.ws with
  | none => t
  | some i => { t with sockets := t.sockets.modify i ReadyState.close, ws := none }

def call (t : WebSocketTransport) : TransportCall → WebSocketTransport
  | .connect => { t.connect with connects := t.connects + 1 }
  | .send data => t.send data
  | .close => t.close

def calls (t : WebSocketTransport) (cs : List TransportCall) : WebSocketTransport := cs.foldl call t

/-- An exception ends the listener it comes from. -/
def abandon (t : WebSocketTransport) : WebSocketTransport := { t with abandoned := t.abandoned + 1 }

/-- `setTimeout(.., this.currentDelay)`. -/
def setTimeout (t : WebSocketTransport) : WebSocketTransport :=
  { t.emit (.setTimeout t.currentDelay) with
    timers := t.timers ++ [⟨t.currentDelay, true⟩]
    reconnectTimer := some t.timers.length }

/-- The timer is set after `onReconnecting` has returned, whatever that has called. -/
def scheduleReconnect (t : WebSocketTransport) (onReconnecting : Callback) : WebSocketTransport :=
  if t.closed ∨ t.opts.reconnectDelayMs = 0 then t
  else
    let t := { t with reconnectAttempt := t.reconnectAttempt + 1 }
    let t := (t.emit (.onReconnecting t.reconnectAttempt)).calls onReconnecting.calls
    if onReconnecting.throws then t.abandon else t.setTimeout

/-- The listener of `open`. -/
def handleOpen (t : WebSocketTransport) (onOpen : Callback) : WebSocketTransport :=
  ({ t with reconnectAttempt := 0, currentDelay := t.opts.reconnectDelayMs }.emit .onOpen).calls
    onOpen.calls

/-- The listener of `message`. -/
def handleMessage (t : WebSocketTransport) (onMessage : Callback) : MessageData → WebSocketTransport
  | .string s => (t.emit (.onMessage (.string s))).calls onMessage.calls
  | .arrayBuffer bytes => (t.emit (.onMessage (.uint8Array bytes))).calls onMessage.calls
  | .other => t

/-- The listener of `close`. -/
def handleClose (t : WebSocketTransport) (code : ℕ) (reason : String)
    (onClose onReconnecting : Callback) : WebSocketTransport :=
  if t.closed then t
  else
    let reason := if reason = "" then "code " ++ toString code else reason
    let t := (t.emit (.onClose reason)).calls onClose.calls
    if onClose.throws then t.abandon else t.scheduleReconnect onReconnecting

/-- The callback of the timer. -/
def handleTimeout (t : WebSocketTransport) : WebSocketTransport :=
  { t with currentDelay := min (t.currentDelay * 2) t.opts.maxReconnectDelayMs }.connect

def setSocket (t : WebSocketTransport) (i : ℕ) (state : ReadyState) : WebSocketTransport :=
  { t with sockets := t.sockets.set i state }

/-- The next event. A socket opens once, delivers messages while it is open, and closes once, from
wherever it is; `closing` is the start of a close by the other side. -/
def step (t : WebSocketTransport) : TransportEvent → Option WebSocketTransport
  | .call c => some (t.call c)
  | .opened i onOpen =>
    if t.sockets[i]? = some .connecting then some ((t.setSocket i .opened).handleOpen onOpen)
    else none
  | .message i data onMessage =>
    if t.sockets[i]? = some .opened then some (t.handleMessage onMessage data) else none
  | .closing i =>
    if t.sockets[i]? = some .opened then some (t.setSocket i .closing) else none
  | .closed i code reason onClose onReconnecting =>
    match t.sockets[i]? with
    | none | some .closed => none
    | some _ => some ((t.setSocket i .closed).handleClose code reason onClose onReconnecting)
  | .timeout j =>
    match t.timers[j]? with
    | some ⟨delay, true⟩ => some { t with timers := t.timers.set j ⟨delay, false⟩ }.handleTimeout
    | _ => none

/-- The sockets whose `close` event is still to come. -/
def live (t : WebSocketTransport) : ℕ := t.sockets.countP (· ≠ .closed)

/-- The timers that are still to fire. -/
def pending (t : WebSocketTransport) : ℕ := t.timers.countP Timer.pending

end WebSocketTransport

end Relayly.Sdk.Ts
