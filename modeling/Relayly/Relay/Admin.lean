import Relayly.Relay.Hub

/-!
# The database behind the relay

Other handlers of the server change `devices` while connections are up: `handleCreateDevice`, the
admin's `handlePairDevices` (and `relayly link`), and `handleDeleteDevice`, which is `DeleteDevice` and
nothing else. Neither looks at the hub.
-/

namespace Relayly.Relay

inductive AdminLabel
  | server (l : Label)
  | createDevice (id deviceToken : String) (expiresAt : ℕ)
  | pairDevices (idA idB : String)
  | clearPairedWith (id : String)
  | deleteRow (id : String)

namespace Server

/-- A step of the relay, or a call of the database by another handler that it does not refuse;
`DeleteDevice` is two steps. -/
def adminStep (s : Server) : AdminLabel → Option Server
  | .server l => s.step l
  | .createDevice id deviceToken expiresAt =>
    if s.devices id = none then
      some { s with devices :=
        Function.update s.devices id (some { deviceToken, expiresAt := some expiresAt }) }
    else none
  | .pairDevices idA idB =>
    match s.devices.pairDevices idA idB with
    | .ok t => some { s with devices := t }
    | .error _ => none
  | .clearPairedWith id => some { s with devices := s.devices.clearPairedWith id }
  | .deleteRow id => some { s with devices := s.devices.deleteRow id }

end Server

/-- `handleDeleteDevice`, with nothing between its two statements. -/
def handleDeleteDevice (id : String) : List AdminLabel := [.clearPairedWith id, .deleteRow id]

/-! ## The other two ways of pairing, with their checks -/

/-- The text of an error; that of the driver is not known. -/
def DbError.text : DbError → String
  | .errNotFound => "device not found"
  | .errAlreadyPaired => "device already paired"
  | .errStaticKeyMismatch => "static key mismatch"
  | .other => ""

/-- What `http.Error` writes. -/
structure HttpError where
  status : ℕ
  text : String
  deriving DecidableEq, Repr

/-- The admin's `handlePairDevices`; `parsed` says whether `ParseForm` succeeds. -/
def handlePairDevices (t : Devices) (parsed : Bool) (id1 id2 : String) (fault : Bool) :
    Except HttpError Devices :=
  if !parsed then .error ⟨400, "bad request"⟩
  else if id1 = "" ∨ id2 = "" ∨ id1 = id2 then .error ⟨400, "invalid device IDs"⟩
  else
    match if fault then .error .other else t.pairDevices id1 id2 with
    | .error e => .error ⟨500, "pairing failed: " ++ e.text⟩
    | .ok t => .ok t

/-- `fmt.Errorf` with a context and the error at `%w`. -/
structure CliError where
  context : String
  cause : DbError
  deriving DecidableEq, Repr

/-- Where `runLink` may fail for a reason of its own. -/
inductive LinkFault
  | config
  | openDB
  | device1
  | device2
  | pairDevices
  deriving DecidableEq, Repr

/-- A call that fails, or one that is made. -/
def LinkFault.guard {α : Type} (fault : Option LinkFault) (here : LinkFault) (context : String)
    (x : Except DbError α) : Except CliError α :=
  match if fault = some here then .error .other else x with
  | .error e => .error ⟨context, e⟩
  | .ok a => .ok a

/-- `relayly link`. -/
def runLink (t : Devices) (id1 id2 : String) (fault : Option LinkFault) : Except CliError Devices := do
  LinkFault.guard fault .config "loading config" (.ok ())
  LinkFault.guard fault .openDB "opening database" (.ok ())
  let _ ← LinkFault.guard fault .device1 ("device 1 (" ++ id1 ++ ")") (t.getDeviceByID id1)
  let _ ← LinkFault.guard fault .device2 ("device 2 (" ++ id2 ++ ")") (t.getDeviceByID id2)
  LinkFault.guard fault .pairDevices "pairing failed" (t.pairDevices id1 id2)

/-- A step of the relay, among them those of `handlePairAccept`, or one of the two requests. -/
inductive Request
  | relay (l : Label)
  | handlePairDevices (parsed : Bool) (id1 id2 : String) (fault : Bool)
  | runLink (id1 id2 : String) (fault : Option LinkFault)

/-- The table after a request that may fail. -/
def Server.commit {ε : Type} (s : Server) : Except ε Devices → Server
  | .ok t => { s with devices := t }
  | .error _ => s

def Server.request (s : Server) : Request → Option Server
  | .relay l => s.step l
  | .handlePairDevices parsed id1 id2 fault =>
    some (s.commit (Relay.handlePairDevices s.devices parsed id1 id2 fault))
  | .runLink id1 id2 fault => some (s.commit (Relay.runLink s.devices id1 id2 fault))

end Relayly.Relay
