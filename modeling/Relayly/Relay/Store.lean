import Mathlib.Logic.Function.Basic
import Mathlib.Tactic.Common

/-!
# The `devices` table and the pairing codes

`internal/database/pairing.go`, `internal/relay/paircodes.go` and `GeneratePairingCode`. A call of
the database that the relay makes is atomic: `PairDevices` and `SetStaticKeyIfUnset` run their
statements in one transaction. `DeleteDevice` has two statements of its own.
-/

namespace Relayly.Relay

/-- A row of `devices` but for its `id`; a `static_key` that is NULL is read as empty. -/
structure Device where
  deviceToken : String
  staticKey : String := ""
  pairedWith : Option String := none
  expiresAt : Option ℕ := none
  deriving DecidableEq, Repr

inductive DbError
  | errNotFound
  | errAlreadyPaired
  | errStaticKeyMismatch
  | other
  deriving DecidableEq, Repr

/-- The rows under their `id`. -/
abbrev Devices := String → Option Device

namespace Devices

/-- What `paired_with` says of a device, empty where it is NULL. -/
def link (t : Devices) (id : String) : String := ((t id).bind Device.pairedWith).getD ""

def getDeviceByID (t : Devices) (id : String) : Except DbError Device :=
  match t id with
  | some row => .ok row
  | none => .error .errNotFound

def checkUnpaired (t : Devices) (id : String) : Except DbError Unit :=
  match t id with
  | none => .error .errNotFound
  | some row => if row.pairedWith.isSome then .error .errAlreadyPaired else .ok ()

/-- `UPDATE devices SET paired_with = peerID, expires_at = NULL WHERE id = thisID`. -/
def setPairedWith (t : Devices) (thisID peerID : String) : Devices := fun id =>
  if id = thisID then (t id).map fun row => { row with pairedWith := some peerID, expiresAt := none }
  else t id

def pairDevices (t : Devices) (idA idB : String) : Except DbError Devices :=
  match t.checkUnpaired idA, t.checkUnpaired idB with
  | .error e, _ => .error e
  | .ok _, .error e => .error e
  | .ok _, .ok _ => .ok ((t.setPairedWith idA idB).setPairedWith idB idA)

/-- `UPDATE devices SET paired_with = NULL WHERE id = ? OR paired_with = ?`. -/
def unpairDevice (t : Devices) (id : String) : Devices := fun d =>
  (t d).map fun row =>
    if d = id ∨ row.pairedWith = some id then { row with pairedWith := none } else row

/-- `UPDATE devices SET paired_with = NULL WHERE paired_with = ?`. -/
def clearPairedWith (t : Devices) (id : String) : Devices := fun d =>
  (t d).map fun row => if row.pairedWith = some id then { row with pairedWith := none } else row

/-- `DELETE FROM devices WHERE id = ?`, without the `ON DELETE SET NULL` of the schema. -/
def deleteRow (t : Devices) (id : String) : Devices := Function.update t id none

def setStaticKeyIfUnset (t : Devices) (id staticKey : String) : Except DbError Devices :=
  match t id with
  | none => .error .errNotFound
  | some row =>
    if row.staticKey ≠ "" then
      if row.staticKey ≠ staticKey then .error .errStaticKeyMismatch else .ok t
    else .ok (Function.update t id (some { row with staticKey }))

end Devices

structure PairCodeEntry where
  requesterID : String
  expiresAt : ℕ
  deriving DecidableEq, Repr

/-- `%06d`. -/
def sixDigits (n : ℕ) : String :=
  let digits := Nat.toDigits 10 n
  String.ofList (List.replicate (6 - digits.length) '0' ++ digits)

/-- `GeneratePairingCode` with the four bytes that `rand.Read` gives, unless it fails. -/
def generatePairingCode (random : Option UInt32) : Option String :=
  random.map fun b => sixDigits (b.toNat % 1000000)

/-- The pairing codes that wait for a `pair_accept`. -/
abbrev PairCodes := String → Option PairCodeEntry

/-- What `Take` returns. -/
inductive Taken
  | unknown
  | expired
  | ok (requesterID : String)
  deriving DecidableEq, Repr

namespace PairCodes

def put (r : PairCodes) (code requesterID : String) (ttl now : ℕ) : PairCodes :=
  Function.update r code (some ⟨requesterID, now + ttl⟩)

def take (r : PairCodes) (code : String) (now : ℕ) : Taken × PairCodes :=
  match r code with
  | none => (.unknown, r)
  | some entry =>
    (if entry.expiresAt < now then .expired else .ok entry.requesterID, Function.update r code none)

end PairCodes

end Relayly.Relay
