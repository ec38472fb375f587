import Relayly.Relay.Hub

/-!
# `writePump`

Beside the goroutine that reads from a connection there is one that writes to it. `Pump` starts it
once the handler has welcomed the device. It takes the frames of the send queue one by one, in
between it pings, and it returns at the first `WriteMessage` that fails. `Server.step` lets a frame
leave a queue at any moment; here it is the write pump that takes it.

`close` closes the socket before it closes the queue, so a `WriteMessage` fails from then on.
-/

namespace Relayly.Relay

/-- What `WriteMessage` has written. -/
inductive Written
  | frame (frame : WsFrame)
  | ping
  | close
  deriving DecidableEq, Repr

/-- Where `writePump` stands: not started yet, at its `select`, with a frame it has received, at a
queue that is closed and empty, or at the `Close` after a frame that asks for it. -/
inductive WriterPc
  | idle
  | select
  | writing (frame : WsFrame)
  | closeMessage
  | closing
  | returned
  deriving DecidableEq, Repr

/-- `written` and `failed` record what was written and the frame that was not; no step reads them. -/
structure Writer where
  pc : WriterPc := .idle
  written : List Written := []
  failed : Option WsFrame := none
  deriving DecidableEq, Repr

/-- The relay with the write pumps of its connections. -/
structure Pumps where
  server : Server
  writers : ℕ → Writer := fun _ => {}

/-- A step of the relay, or one of a write pump. `ok` says whether the network takes what is
written. -/
inductive PumpLabel
  | server (l : Label)
  | start (c : ℕ)
  | take (c : ℕ)
  | tick (c : ℕ) (ok : Bool)
  | write (c : ℕ) (ok : Bool)

/-- The handler has got to `Pump`. -/
def Pc.pumping : Pc → Bool
  | .register _ | .sendWelcome _ => false
  | _ => true

/-- `WriteMessage` succeeds. -/
def Conn.delivers (conn : Conn) (ok : Bool) : Bool := ok && !conn.closed

namespace Writer

def setPc (w : Writer) (pc : WriterPc) : Writer := { w with pc }

/-- A frame received from the queue is written. -/
def writeFrame (w : Writer) (frame : WsFrame) (delivered : Bool) : Writer :=
  if delivered then
    { w with
      written := w.written ++ [.frame frame]
      pc := if frame.closeAfter then .closing else .select }
  else { w with pc := .returned, failed := some frame }

/-- The queue is closed: a close message, whatever comes of it. -/
def writeClose (w : Writer) (delivered : Bool) : Writer :=
  { w with pc := .returned, written := if delivered then w.written ++ [.close] else w.written }

def writePing (w : Writer) (delivered : Bool) : Writer :=
  if delivered then { w with written := w.written ++ [.ping] } else w.setPc .returned

/-- The frames that were written. -/
def frames (w : Writer) : List WsFrame :=
  w.written.filterMap fun
    | .frame frame => some frame
    | _ => none

end Writer

namespace Pumps

variable (s : Pumps)

def setWriter (c : ℕ) (w : Writer) : Pumps := { s with writers := Function.update s.writers c w }

/-- `go c.writePump()`. -/
def startWriter (c : ℕ) (conn : Conn) : Option Pumps :=
  if (s.writers c).pc = .idle ∧ conn.pc.pumping = true then
    some (s.setWriter c ((s.writers c).setPc .select))
  else none

/-- `frame, ok := <-c.send`; it waits where there is none and the queue is open. -/
def take (c : ℕ) (conn : Conn) : Option Pumps :=
  if (s.writers c).pc = .select then
    match conn.send with
    | frame :: _ =>
      (s.server.step (.write c)).map fun server =>
        { s with server }.setWriter c ((s.writers c).setPc (.writing frame))
    | [] => if conn.closed then some (s.setWriter c ((s.writers c).setPc .closeMessage)) else none
  else none

def tick (c : ℕ) (conn : Conn) (ok : Bool) : Option Pumps :=
  if (s.writers c).pc = .select then
    some (s.setWriter c ((s.writers c).writePing (conn.delivers ok)))
  else none

def write (c : ℕ) (conn : Conn) (ok : Bool) : Option Pumps :=
  match (s.writers c).pc with
  | .writing frame => some (s.setWriter c ((s.writers c).writeFrame frame (conn.delivers ok)))
  | .closeMessage => some (s.setWriter c ((s.writers c).writeClose (conn.delivers ok)))
  | .closing => some (s.setWriter c ((s.writers c).setPc .returned))
  | _ => none

def step (s : Pumps) : PumpLabel → Option Pumps
  | .server (.write _) => none
  | .server l => (s.server.step l).map fun server => { s with server }
  | .start c => s.server.conns[c]?.bind (s.startWriter c)
  | .take c => s.server.conns[c]?.bind (s.take c)
  | .tick c ok => s.server.conns[c]?.bind (s.tick c · ok)
  | .write c ok => s.server.conns[c]?.bind (s.write c · ok)

/-- No connection yet. -/
def start (devices : Devices) (pairCodes : PairCodes) : Pumps := { server := .start devices pairCodes }

end Pumps

end Relayly.Relay
