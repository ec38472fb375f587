import Relayly.Lib.Migrate
import Mathlib.Data.Finset.Basic

/-!
# The schema of `internal/database/db.go` and its migrations

A statement of a migration script is atomic and committed by itself. `ALTER TABLE` fails where what
it does has been done already; the statements with `IF NOT EXISTS` or `IF EXISTS` then do nothing.
-/

namespace Relayly.Database

inductive Column
  | id
  | name
  | publicKey
  | pairToken
  | deviceToken
  | pairedWith
  | createdAt
  | lastSeen
  | expiresAt
  | staticKey
  deriving DecidableEq, Repr

/-- The indexes, by the column after which each is named. -/
inductive Index
  | pairToken
  | pairedWith
  | deviceToken
  deriving DecidableEq, Repr

def Index.column : Index → Column
  | .pairToken => .pairToken
  | .pairedWith => .pairedWith
  | .deviceToken => .deviceToken

/-- The values of a row, `none` for `NULL`; only those of the table's columns count. -/
abbrev Values := Column → Option String

/-- The table `devices`. -/
structure Devices where
  columns : List Column
  rows : List Values

structure Content where
  devices : Option Devices
  indexes : Finset Index

/-- The statements of the scripts. -/
inductive Stmt
  | createDevices (columns : List Column)
  | createIndex (index : Index)
  | addColumn (column : Column)
  | renameColumn (old new : Column)
  | copyPublicKey
  | dropIndex (index : Index)
  deriving DecidableEq, Repr

/-- `SET static_key = public_key WHERE public_key IS NOT NULL AND public_key != ''`. -/
def copyPublicKey (row : Values) : Values :=
  match row .publicKey with
  | none => row
  | some key => if key = "" then row else Function.update row .staticKey (some key)

def exec (db : Content) : Stmt → Option Content
  | .createDevices columns =>
    match db.devices with
    | some _ => some db
    | none => some { db with devices := some ⟨columns, []⟩ }
  | .createIndex index =>
    if index ∈ db.indexes then some db
    else do
      let t ← db.devices
      if index.column ∈ t.columns then some { db with indexes := insert index db.indexes } else none
  | .addColumn column => do
    let t ← db.devices
    if column ∈ t.columns then none
    else
      some { db with
        devices := some ⟨t.columns ++ [column], t.rows.map fun row => Function.update row column none⟩ }
  | .renameColumn old new => do
    let t ← db.devices
    if old ∈ t.columns ∧ new ∉ t.columns then
      some { db with
        devices := some ⟨t.columns.map fun col => if col = old then new else col,
          t.rows.map fun row => Function.update row new (row old)⟩ }
    else none
  | .copyPublicKey => do
    let t ← db.devices
    if Column.staticKey ∈ t.columns ∧ Column.publicKey ∈ t.columns then
      some { db with devices := some ⟨t.columns, t.rows.map Database.copyPublicKey⟩ }
    else none
  | .dropIndex index => some { db with indexes := db.indexes.erase index }

/-- The base schema. -/
def migration1SQL : List Stmt :=
  [.createDevices [.id, .name, .publicKey, .pairToken, .pairedWith, .createdAt, .lastSeen],
    .createIndex .pairToken, .createIndex .pairedWith]

def migration2SQL : List Stmt := [.addColumn .expiresAt]

def migration3SQL : List Stmt :=
  [.renameColumn .pairToken .deviceToken, .addColumn .staticKey, .copyPublicKey,
    .dropIndex .pairToken, .createIndex .deviceToken]

def migrations : List (Migrate.Migration Stmt) :=
  [⟨1, migration1SQL⟩, ⟨2, migration2SQL⟩, ⟨3, migration3SQL⟩]

abbrev DB := Migrate.Db Content

/-- `Open`, not stopped: `none` where `migrate` returns an error. -/
def openDB (db : DB) : Option DB := Migrate.migrate exec migrations db

/-- An `Open` that is stopped, by a crash or an error, after `n` of the statements of `migrate`. -/
def stoppedOpen (db : DB) (n : ℕ) : Option DB := Migrate.attempt exec migrations db n

/-- What happens to a file after its first `Open`: it is opened again, or its content is changed in
any way, as by a device that announces its key. -/
inductive Event
  | reopen
  | write (change : Content → Content)

def Event.step (db : DB) : Event → Option DB
  | .reopen => openDB db
  | .write change => some { db with content := change db.content }

/-- What the changes alone make of a content. -/
def Event.change (c : Content) : Event → Content
  | .reopen => c
  | .write change => change c

/-! ## What the versions look like -/

/-- The columns of `devices` at a version. -/
def columnsAt : ℕ → List Column
  | 0 | 1 => [.id, .name, .publicKey, .pairToken, .pairedWith, .createdAt, .lastSeen]
  | 2 => [.id, .name, .publicKey, .pairToken, .pairedWith, .createdAt, .lastSeen, .expiresAt]
  | _ => [.id, .name, .publicKey, .deviceToken, .pairedWith, .createdAt, .lastSeen, .expiresAt,
      .staticKey]

def indexesAt : ℕ → Finset Index
  | 0 | 1 | 2 => {.pairToken, .pairedWith}
  | _ => {.pairedWith, .deviceToken}

/-- The schema of a version. Before the first script has been recorded it may have run in part. -/
def HasSchema (k : ℕ) (c : Content) : Prop :=
  match c.devices with
  | none => k = 0 ∧ c.indexes = ∅
  | some t => t.columns = columnsAt k ∧ c.indexes ⊆ indexesAt k ∧ (0 < k → c.indexes = indexesAt k)

/-- The name under which version `k` has a column. -/
def nameAt (k : ℕ) (col : Column) : Column :=
  if 3 ≤ k ∧ col = .pairToken then .deviceToken else col

def Content.columns (c : Content) : List Column := c.devices.elim [] Devices.columns

def Content.rows (c : Content) : List Values := c.devices.elim [] Devices.rows

/-- Every row of `old` is in `new`, in its place and with every value it had, where `new` has version
`k`. -/
def Kept (k : ℕ) (old new : Content) : Prop :=
  List.Forall₂ (fun row row' : Values => ∀ col ∈ old.columns, row' (nameAt k col) = row col)
    old.rows new.rows

/-- A file of version `k`, with the first `k` versions recorded, that no script was stopped in. -/
structure Clean (k : ℕ) (db : DB) : Prop where
  le : k ≤ 3
  versions : db.versions = (migrations.take k).map Migrate.Migration.version
  hasSchema : HasSchema k db.content

end Relayly.Database
