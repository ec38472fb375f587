import Relayly.Sdk.Session

/-!
# The peer stores of the ports

TypeScript takes any `PeerKeyStore`: the default one lives in memory, `FilePeerKeyStore` reads its
file on every call. Rust, Python and C++ load the file once and write it back on a first pin, as
the Go client does.
-/

namespace Relayly.Sdk

/-- A peer store. A file that is not there is `none`. -/
inductive Store
  | memory (pins : Pins)
  | file (disk : Option Pins)
  | loaded (peers : Pins) (disk : Option Pins)

/-- Why a call fails in the file system. -/
inductive StoreFault
  | load
  | save
  deriving DecidableEq, Repr

inductive PinResult
  | ok
  | mismatch
  | fault
  deriving DecidableEq, Repr

/-- The names every object literal of JavaScript inherits: `pins[peerId]` finds a function or an
object under them, which has no `static_key`. -/
def objectPrototype : List String :=
  ["constructor", "__defineGetter__", "__defineSetter__", "hasOwnProperty", "__lookupGetter__",
    "__lookupSetter__", "isPrototypeOf", "propertyIsEnumerable", "toString", "valueOf",
    "__proto__", "toLocaleString"]

/-- `pins[peerId]?.static_key`, with `some none` for an inherited member. -/
def fileLookup (pins : Pins) (peerID : String) : Option (Option String) :=
  match pins peerID with
  | some pin => some (some pin.staticKey)
  | none => if peerID ∈ objectPrototype then some none else none

/-- A pin that exists is compared with the key. -/
def comparePin (existing : Option String) (staticKey : String) : PinResult :=
  if existing = some staticKey then .ok else .mismatch

def withPin (pins : Pins) (peerID staticKey stamp : String) : Pins :=
  Function.update pins peerID (some ⟨staticKey, stamp⟩)

namespace Store

/-- `InMemoryPeerKeyStore.pinOrVerify`. -/
def pinOrVerifyMemory (pins : Pins) (peerID staticKey stamp : String) : Store × PinResult :=
  match pins peerID with
  | some existing => (.memory pins, comparePin (some existing.staticKey) staticKey)
  | none => (.memory (withPin pins peerID staticKey stamp), .ok)

/-- `FilePeerKeyStore.pinOrVerify`. -/
def pinOrVerifyFile (disk : Option Pins) (peerID staticKey stamp : String)
    (fault : Option StoreFault) : Store × PinResult :=
  if fault = some .load then (.file disk, .fault)
  else
    let pins := disk.getD fun _ => none
    match fileLookup pins peerID with
    | some existing => (.file disk, comparePin existing staticKey)
    | none =>
      if fault = some .save then (.file disk, .fault)
      else (.file (some (withPin pins peerID staticKey stamp)), .ok)

/-- `PeerStore.pin_or_verify` of Rust and Python, and `PeerStore::PinOrVerify` of C++ as far as a
save that fails throws. -/
def pinOrVerifyLoaded (peers : Pins) (disk : Option Pins) (peerID staticKey stamp : String)
    (fault : Option StoreFault) : Store × PinResult :=
  match peers peerID with
  | some existing => (.loaded peers disk, comparePin (some existing.staticKey) staticKey)
  | none =>
    let peers := withPin peers peerID staticKey stamp
    if fault = some .save then (.loaded peers disk, .fault)
    else (.loaded peers (some peers), .ok)

def pinOrVerify (store : Store) (peerID staticKey stamp : String) (fault : Option StoreFault) :
    Store × PinResult :=
  match store with
  | .memory pins => pinOrVerifyMemory pins peerID staticKey stamp
  | .file disk => pinOrVerifyFile disk peerID staticKey stamp fault
  | .loaded peers disk => pinOrVerifyLoaded peers disk peerID staticKey stamp fault

end Store

/-- How the resolution of a finished handshake ends. -/
inductive Verdict
  | accepted
  | handshakeFailed
  | pinMismatch
  | announcedMismatch
  | storeFault
  deriving DecidableEq, Repr

/-- The verdicts that reject a completed handshake for its key. -/
def Verdict.rejects : Verdict → Bool
  | .pinMismatch => true
  | .announcedMismatch => true
  | _ => false

/-- The cross-check after the pin, against the key the server announced. -/
def crossCheck (announced authenticatedB64 : String) : PinResult → Verdict
  | .mismatch => .pinMismatch
  | .fault => .storeFault
  | .ok =>
    if announced ≠ "" ∧ announced ≠ authenticatedB64 then .announcedMismatch else .accepted

/-- The pin and the cross-check in turn. -/
def verify (store : Store) (peerID announced : String) (authenticated : Bytes) (stamp : String)
    (fault : Option StoreFault) : Store × Verdict :=
  let (store, result) := store.pinOrVerify peerID (encodeBase64 authenticated) stamp fault
  (store, crossCheck announced (encodeBase64 authenticated) result)

end Relayly.Sdk
