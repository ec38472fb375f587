import Relayly.Lib.Run
import Relayly.Sdk.PeerStore

/-!
# Peer stores that share a file

Clients on one machine may use one `peers.json`, in whatever language they are written. A store of
Go or Rust reads the file once, when it is loaded, and checks and writes back its own map; the one
of TypeScript reads the file in every call. Each writes the whole map to a temporary file and
renames it, and what happens in between is up to the others.

Go holds a mutex for the whole call and Rust a mutable borrow, so such a store is in one call at a
time. A `FilePeerKeyStore` has no state, so two calls on one are two stores here.
-/

namespace Relayly.PeerFile

open Sdk (PinResult fileLookup comparePin withPin)

inductive Kind
  | go
  | ts
  | rust
  deriving DecidableEq, Repr

/-- A file name up to its last dot. -/
def fileStem (name : List Char) : List Char :=
  match name.reverse.dropWhile (· ≠ '.') with
  | [] | [_] => name
  | _ :: stem => stem.reverse

/-- `Path::with_extension`. -/
def withExtension (path ext : String) : String :=
  let dir := (path.toList.reverse.dropWhile (· ≠ '/')).reverse
  let name := (path.toList.reverse.takeWhile (· ≠ '/')).reverse
  String.ofList (dir ++ (fileStem name ++ '.' :: ext.toList))

/-- The temporary file. The three names agree where `path` ends in `.json`. -/
def tmpName (path : String) : Kind → String
  | .go | .ts => path ++ ".tmp"
  | .rust => withExtension path "json.tmp"

/-- Where a call of `PinOrVerify` stands that has found no pin. -/
inductive Phase
  | idle
  | writing (peerID key : String) (pins : Pins)
  | renaming (peerID key : String)

/-- `peers` is the map in memory, which TypeScript does not have. -/
structure OpenStore where
  kind : Kind
  peers : Pins := fun _ => none
  phase : Phase := .idle

/-- How a call of `PinOrVerify` has returned. -/
structure Return where
  store : ℕ
  peerID : String
  key : String
  result : PinResult
  deriving DecidableEq, Repr

/-- `files` are the maps that the files decode to; no step reads `returned`. -/
structure Machine where
  files : String → Option Pins
  stores : List OpenStore := []
  returned : List Return := []

inductive Label
  | load (kind : Kind)
  | pinOrVerify (i : ℕ) (peerID key stamp : String)
  | writeTemp (i : ℕ) (fault : Bool)
  | rename (i : ℕ) (fault : Bool)

namespace Machine

/-- What a store loaded now would hold. -/
def load (path : String) (s : Machine) : Pins := (s.files path).getD fun _ => none

/-- The map that a call on `h` checks and writes back. -/
def known (path : String) (s : Machine) (h : OpenStore) : Pins :=
  match h.kind with
  | .ts => s.load path
  | .go | .rust => h.peers

/-- The key that a call on `h` finds. -/
def lookup (path : String) (s : Machine) (h : OpenStore) (peerID : String) :
    Option (Option String) :=
  match h.kind with
  | .ts => fileLookup (s.load path) peerID
  | .go | .rust => (h.peers peerID).map fun pin => some pin.staticKey

def setStore (s : Machine) (i : ℕ) (h : OpenStore) : Machine :=
  { s with stores := s.stores.set i h }

/-- The call on store `i` returns. -/
def finish (s : Machine) (i : ℕ) (h : OpenStore) (peerID key : String) (result : PinResult) :
    Machine :=
  { s.setStore i { h with phase := .idle } with
    returned := s.returned ++ [⟨i, peerID, key, result⟩] }

/-- A new pin is in the map of Go and Rust before it is saved. -/
def insertPin (h : OpenStore) (peerID key : String) (pins : Pins) : OpenStore where
  kind := h.kind
  peers := if h.kind = .ts then h.peers else pins
  phase := .writing peerID key pins

/-- One step of one store. A rename finds no temporary file if another store has renamed it. -/
def step (path : String) (s : Machine) : Label → Option Machine
  | .load kind =>
    let peers := if kind = .ts then fun _ => none else s.load path
    some { s with stores := s.stores ++ [{ kind, peers }] }
  | .pinOrVerify i peerID key stamp =>
    match s.stores[i]? with
    | some h =>
      match h.phase with
      | .idle =>
        match s.lookup path h peerID with
        | some existing => some (s.finish i h peerID key (comparePin existing key))
        | none =>
          some (s.setStore i (insertPin h peerID key (withPin (s.known path h) peerID key stamp)))
      | _ => none
    | none => none
  | .writeTemp i fault =>
    match s.stores[i]? with
    | some h =>
      match h.phase with
      | .writing peerID key pins =>
        if fault then some (s.finish i h peerID key .fault)
        else some { s.setStore i { h with phase := .renaming peerID key } with
          files := Function.update s.files (tmpName path h.kind) (some pins) }
      | _ => none
    | none => none
  | .rename i fault =>
    match s.stores[i]? with
    | some h =>
      match h.phase with
      | .renaming peerID key =>
        match s.files (tmpName path h.kind), fault with
        | some pins, false =>
          some { s.finish i h peerID key .ok with
            files := Function.update (Function.update s.files (tmpName path h.kind) none) path
              (some pins) }
        | _, _ => some (s.finish i h peerID key .fault)
      | _ => none
    | none => none

end Machine

end Relayly.PeerFile
