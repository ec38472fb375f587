import Relayly.Lib.Run
import Relayly.Lib.Table
import Relayly.Relay.Store

/-!
# The rows of `devices`

The calls of `internal/database/pairing.go` on the rows themselves. A call is a list of statements
that are atomic each: one that the driver commits by itself, or a transaction. Any of them may fail,
a transaction at each of its own statements, and with one connection to the database the statements of
several calls come one after the other in any order.
-/

namespace Relayly.Relay

/-- A row of `devices`, and the `Device` that `CreateDevice` is given. -/
structure Row where
  id : String
  name : String := ""
  publicKey : String := ""
  deviceToken : String
  staticKey : Option String := none
  pairedWith : Option String := none
  createdAt : ℕ := 0
  lastSeen : Option ℕ := none
  expiresAt : Option ℕ := none
  deriving DecidableEq, Repr

/-- The columns of a row that the relay reads. -/
def Row.scanDevice (row : Row) : Device where
  deviceToken := row.deviceToken
  staticKey := row.staticKey.getD ""
  pairedWith := row.pairedWith
  expiresAt := row.expiresAt

/-- `devices`: `id` is its primary key, and `device_token` is unique. -/
abbrev DeviceTable := Sql.Table [Row.id, Row.deviceToken]

/-- Statement `n` of a call, where `fault` is the one that fails. -/
def attempt {α : Type} (fault : Option ℕ) (n : ℕ) (x : Except DbError α) : Except DbError α :=
  if fault = some n then .error .other else x

namespace DeviceTable

/-- The table as the relay reads it. -/
def devices (t : DeviceTable) : Devices := fun id => (t.find Row.id id).map Row.scanDevice

/-- `INSERT INTO devices (id, name, public_key, device_token, created_at, expires_at)`. -/
def createDevice (t : DeviceTable) (d : Row) : Except DbError DeviceTable :=
  match t.insert { d with staticKey := none, pairedWith := none, lastSeen := none } with
  | some t' => .ok t'
  | none => .error .other

def checkUnpaired (t : DeviceTable) (id : String) : Except DbError Unit :=
  match t.find Row.id id with
  | none => .error .errNotFound
  | some row => if row.pairedWith.isSome then .error .errAlreadyPaired else .ok ()

def setPairedWith (t : DeviceTable) (thisID peerID : String) : DeviceTable :=
  t.update (fun row => row.id = thisID)
    (fun row => { row with pairedWith := some peerID, expiresAt := none }) (by simp)

/-- `Begin`, two `SELECT`s, an `UPDATE` for each of the two ids (in the order of a Go map, which does
not matter here), `Commit`. -/
def pairDevices (t : DeviceTable) (idA idB : String) (fault : Option ℕ) : Except DbError DeviceTable := do
  attempt fault 0 (.ok ())
  attempt fault 1 (t.checkUnpaired idA)
  attempt fault 2 (t.checkUnpaired idB)
  let t ← attempt fault 3 (.ok (t.setPairedWith idA idB))
  let t ← if idA = idB then .ok t else attempt fault 4 (.ok (t.setPairedWith idB idA))
  attempt fault 5 (.ok t)

def unpairDevice (t : DeviceTable) (id : String) : DeviceTable :=
  t.update (fun row => row.id = id ∨ row.pairedWith = some id)
    (fun row => { row with pairedWith := none }) (by simp)

def updatePublicKey (t : DeviceTable) (id pubKey : String) : DeviceTable :=
  t.update (fun row => row.id = id) (fun row => { row with publicKey := pubKey }) (by simp)

def setStaticKey (t : DeviceTable) (id staticKey : String) : DeviceTable :=
  t.update (fun row => row.id = id) (fun row => { row with staticKey := some staticKey }) (by simp)

/-- `Begin`, `SELECT`, `UPDATE` unless the key is locked, `Commit`. -/
def setStaticKeyIfUnset (t : DeviceTable) (id staticKey : String) (fault : Option ℕ) :
    Except DbError DeviceTable := do
  attempt fault 0 (.ok ())
  let row ← attempt fault 1 (match t.find Row.id id with
    | none => .error .errNotFound
    | some row => .ok row)
  if row.staticKey.getD "" ≠ "" then
    if row.staticKey.getD "" ≠ staticKey then .error .errStaticKeyMismatch
    else attempt fault 3 (.ok t)
  else
    let t ← attempt fault 2 (.ok (t.setStaticKey id staticKey))
    attempt fault 3 (.ok t)

def touchLastSeen (t : DeviceTable) (id : String) (now : ℕ) : DeviceTable :=
  t.update (fun row => row.id = id) (fun row => { row with lastSeen := some now }) (by simp)

/-- The first statement of `DeleteDevice`. -/
def clearPairedWith (t : DeviceTable) (id : String) : DeviceTable :=
  t.update (fun row => row.pairedWith = some id) (fun row => { row with pairedWith := none }) (by simp)

/-- The second statement of `DeleteDevice`. The `ON DELETE SET NULL` of the schema is left out: a row
that names `id` keeps it. -/
def deleteRow (t : DeviceTable) (id : String) : DeviceTable := t.delete fun row => row.id = id

/-- `paired_with` is a symmetric matching on the rows that exist. -/
def Matching (t : DeviceTable) : Prop :=
  ∀ row ∈ t.rows, ∀ b ∈ row.pairedWith, ∃ row' ∈ t.rows, row'.id = b ∧ row'.pairedWith = some row.id

instance (t : DeviceTable) : Decidable t.Matching :=
  inferInstanceAs (Decidable (∀ row ∈ t.rows, ∀ b ∈ row.pairedWith,
    ∃ row' ∈ t.rows, row'.id = b ∧ row'.pairedWith = some row.id))

end DeviceTable

/-- What the database runs as one. -/
inductive Stmt
  | createDevice (d : Row)
  | pairDevices (idA idB : String)
  | unpairDevice (id : String)
  | updatePublicKey (id pubKey : String)
  | setStaticKeyIfUnset (id staticKey : String)
  | touchLastSeen (id : String) (now : ℕ)
  | clearPairedWith (id : String)
  | deleteRow (id : String)
  deriving DecidableEq, Repr

def Stmt.exec (fault : Option ℕ) (t : DeviceTable) : Stmt → Except DbError DeviceTable
  | .createDevice d => attempt fault 0 (t.createDevice d)
  | .pairDevices idA idB => t.pairDevices idA idB fault
  | .unpairDevice id => attempt fault 0 (.ok (t.unpairDevice id))
  | .updatePublicKey id pubKey => attempt fault 0 (.ok (t.updatePublicKey id pubKey))
  | .setStaticKeyIfUnset id staticKey => t.setStaticKeyIfUnset id staticKey fault
  | .touchLastSeen id now => attempt fault 0 (.ok (t.touchLastSeen id now))
  | .clearPairedWith id => attempt fault 0 (.ok (t.clearPairedWith id))
  | .deleteRow id => attempt fault 0 (.ok (t.deleteRow id))

inductive Call
  | createDevice (d : Row)
  | pairDevices (idA idB : String)
  | unpairDevice (id : String)
  | updatePublicKey (id pubKey : String)
  | setStaticKeyIfUnset (id staticKey : String)
  | touchLastSeen (id : String) (now : ℕ)
  | deleteDevice (id : String)
  deriving DecidableEq, Repr

def Call.stmts : Call → List Stmt
  | .createDevice d => [.createDevice d]
  | .pairDevices idA idB => [.pairDevices idA idB]
  | .unpairDevice id => [.unpairDevice id]
  | .updatePublicKey id pubKey => [.updatePublicKey id pubKey]
  | .setStaticKeyIfUnset id staticKey => [.setStaticKeyIfUnset id staticKey]
  | .touchLastSeen id now => [.touchLastSeen id now]
  | .deleteDevice id => [.clearPairedWith id, .deleteRow id]

/-- The statements up to one that fails, and what the call then returns. -/
def runStmts (t : DeviceTable) : List Stmt → Except DbError Unit × DeviceTable
  | [] => (.ok (), t)
  | q :: rest =>
    match q.exec none t with
    | .ok t' => runStmts t' rest
    | .error e => (.error e, t)

/-- A call with nothing between its statements. -/
def Call.run (t : DeviceTable) (c : Call) : Except DbError Unit × DeviceTable := runStmts t c.stmts

/-- The table after complete calls. -/
def runCalls (t : DeviceTable) (calls : List Call) : DeviceTable :=
  calls.foldl (fun t c => (c.run t).2) t

/-- A call that has not returned. `changed` records whether a statement of it has changed the table;
no step reads it. -/
structure Running where
  call : Call
  rest : List Stmt
  changed : Bool
  deriving DecidableEq, Repr

structure Database where
  table : DeviceTable
  running : List Running := []

inductive DbLabel
  | call (c : Call)
  | exec (i : ℕ) (fault : Option ℕ)

namespace Database

/-- A call begins, or the next statement of one is run; a call whose statement fails returns. -/
def step (s : Database) : DbLabel → Option Database
  | .call c => some { s with running := s.running ++ [⟨c, c.stmts, false⟩] }
  | .exec i fault =>
    match s.running[i]? with
    | some ⟨c, q :: rest, changed⟩ =>
      match q.exec fault s.table with
      | .ok t =>
        some {
          table := t
          running := if rest = [] then s.running.eraseIdx i
            else s.running.set i ⟨c, rest, changed || decide (t ≠ s.table)⟩ }
      | .error _ => some { s with running := s.running.eraseIdx i }
    | _ => none

/-- The call that returns an error at this step. -/
def failed (s : Database) : DbLabel → Option Running
  | .call _ => none
  | .exec i fault =>
    match s.running[i]? with
    | some ⟨c, q :: rest, changed⟩ =>
      match q.exec fault s.table with
      | .ok _ => none
      | .error _ => some ⟨c, q :: rest, changed⟩
    | _ => none

end Database

end Relayly.Relay
