import Relayly.Relay.Admin
import Relayly.Relay.Table
import Relayly.Relay.Token

/-!
# Registering a device and letting it in

`NewDevice`, the two ways to it (`POST /api/v1/devices` and `relayly pair`), and what `Handler` asks
of a request before it upgrades it. Times are in nanoseconds.
-/

namespace Relayly.Relay

def deviceTokenTTL : ℕ := 5 * 60 * 1000000000

/-- `random` is what `rand.Read` gives, if it does not fail, and `uuid` what `uuid.NewString` does. -/
def newDevice (name : String) (random : Option (Fin 32 → UInt8)) (uuid : String) (now : ℕ) :
    Option Row :=
  (generateDeviceToken random).map fun deviceToken =>
    { id := uuid, name, deviceToken, createdAt := now, expiresAt := some (now + deviceTokenTTL) }

structure CreateDeviceResponse where
  deviceID : String
  deviceToken : String
  expiresAt : Option ℕ
  deriving DecidableEq, Repr

/-- `handleCreateDevice`; `name` is the name in the body, `none` where `Decode` fails. -/
def handleCreateDevice (t : DeviceTable) (name : Option String) (random : Option (Fin 32 → UInt8))
    (uuid : String) (now : ℕ) (fault : Option ℕ) :
    Except HttpError (CreateDeviceResponse × DeviceTable) :=
  if name.getD "" = "" then .error ⟨400, "body must be JSON with non-empty \"name\" field"⟩
  else
    match newDevice (name.getD "") random uuid now with
    | none => .error ⟨500, "internal server error"⟩
    | some dev =>
      match (Stmt.createDevice dev).exec fault t with
      | .error _ => .error ⟨500, "internal server error"⟩
      | .ok t => .ok (⟨dev.id, dev.deviceToken, dev.expiresAt⟩, t)

/-- Where `runPair` may fail for a reason of its own. -/
inductive PairFault
  | config
  | openDB
  deriving DecidableEq, Repr

/-- `relayly pair` up to where it prints the device. -/
def runPair (t : DeviceTable) (deviceName : String) (random : Option (Fin 32 → UInt8)) (uuid : String)
    (now : ℕ) (early : Option PairFault) (fault : Option ℕ) : Except CliError (Row × DeviceTable) :=
  match early with
  | some .config => .error ⟨"loading config", .other⟩
  | some .openDB => .error ⟨"opening database", .other⟩
  | none =>
    match newDevice deviceName random uuid now with
    | none => .error ⟨"generating device", .other⟩
    | some device =>
      match (Stmt.createDevice device).exec fault t with
      | .error e => .error ⟨"saving device", e⟩
      | .ok t => .ok (device, t)

/-- `Handler` up to `Upgrade`. -/
def Devices.authenticate (t : Devices) (deviceID token : String) (now : ℕ) : Except HttpError Device :=
  if deviceID = "" ∨ token = "" then .error ⟨400, "missing device_id or token"⟩
  else
    match t.getDeviceByID deviceID with
    | .error _ => .error ⟨401, "unauthorized"⟩
    | .ok device =>
      if device.deviceToken ≠ token then .error ⟨401, "unauthorized"⟩
      else if device.expiresAt.any (· < now) then .error ⟨401, "pairing code expired"⟩
      else .ok device

end Relayly.Relay
