import Relayly.Sdk.PeerStore
import Relayly.Sdk.WireMessage

/-!
# `sdk/cpp/src/peer_store.cpp` and its files

`Save` writes a temporary file and renames it over the store. The stream it writes to reports
nothing: if it cannot be opened the temporary file stays as it was, if the disk is full it ends
early, and the rename follows in any case. Only `create_directories` and `rename` throw.
-/

namespace Relayly.Sdk.Cpp

/-- The JSON library: `dump(2)`, and `in >> doc`, which throws where `parse` has no document. -/
structure JsonText where
  dump : Document → Bytes
  parse : Bytes → Option Document

/-- The text of a document is read back. Its last character closes it, so what is left of the text
if it ends early is not read. -/
structure JsonText.Reads (lib : JsonText) (doc : Document) : Prop where
  whole : lib.parse (lib.dump doc) = some doc
  short : ∀ n < (lib.dump doc).length, lib.parse ((lib.dump doc).take n) = none

/-- `peers_`; the order of an `unordered_map` is any. -/
structure PeerStore where
  peers : List (String × PinnedPeer)
  nodup : (peers.map (·.1)).Nodup

namespace PeerStore

def empty : PeerStore := ⟨[], List.nodup_nil⟩

def get (store : PeerStore) (peerID : String) : Option PinnedPeer := store.peers.lookup peerID

/-- `peers_.emplace`, which leaves an entry that is there. -/
def emplace (store : PeerStore) (peerID : String) (entry : PinnedPeer) : PeerStore :=
  if h : peerID ∈ store.peers.map (·.1) then store
  else ⟨(peerID, entry) :: store.peers, List.nodup_cons.mpr ⟨h, store.nodup⟩⟩

/-! ## `Load` -/

/-- `doc.items()`: an array has its indices for keys, another value is an item of its own. -/
def items : Document → List (String × Document)
  | .null => []
  | .obj members => members
  | .arr elems => elems.zipIdx.map fun e => (toString e.2, e.1)
  | doc => [("", doc)]

/-- `value` throws on what is not an object. -/
def loadEntry : Document → Except WireMessage.JsonError PinnedPeer
  | .obj members => do
    let staticKey ← WireMessage.value members "static_key"
    let pinnedAt ← WireMessage.value members "pinned_at"
    return { staticKey, pinnedAt }
  | _ => .error .typeError

def loadItems : List (String × Document) → PeerStore → Option PeerStore
  | [], store => some store
  | (peerID, value) :: rest, store =>
    (loadEntry value).toOption.bind fun entry => loadItems rest (store.emplace peerID entry)

/-- `none` where `Load` throws. -/
def load (lib : JsonText) : Option Bytes → Option PeerStore
  | none => some empty
  | some text => (lib.parse text).bind fun doc => loadItems (items doc) empty

/-! ## `Save` -/

def entryFields (entry : PinnedPeer) : List (String × Option Document) :=
  [("static_key", some (.str entry.staticKey)), ("pinned_at", some (.str entry.pinnedAt))]

def entryDocument (entry : PinnedPeer) : Document := .obj (Json.assignAll (entryFields entry))

def fields (store : PeerStore) : List (String × Option Document) :=
  store.peers.map fun p => (p.1, some (entryDocument p.2))

def document (store : PeerStore) : Document := .obj (Json.assignAll store.fields)

/-- The file at `path_` and the temporary file beside it. -/
structure Files where
  target : Option Bytes
  tmp : Option Bytes
  deriving DecidableEq, Repr

/-- How the calls to the file system go: whether the directory can be created, the temporary file
opened and renamed, and how many bytes reach it. -/
structure SaveFate where
  created : Bool
  opened : Bool
  written : ℕ
  renamed : Bool
  deriving DecidableEq, Repr

/-- The temporary file when the stream is closed. -/
def tmpText (lib : JsonText) (store : PeerStore) (files : Files) (fate : SaveFate) :
    Option Bytes :=
  if fate.opened then some ((lib.dump store.document).take fate.written) else files.tmp

def save (lib : JsonText) (store : PeerStore) (files : Files) (fate : SaveFate) :
    Files × PinResult :=
  if fate.created then
    match tmpText lib store files fate with
    | none => ({ files with tmp := none }, .fault)
    | some text =>
      if fate.renamed then ({ target := some text, tmp := none }, .ok)
      else ({ files with tmp := some text }, .fault)
  else (files, .fault)

/-! ## `PinOrVerify` -/

/-- A call, at a time. -/
structure Call where
  peerID : String
  key : String
  stamp : String
  fate : SaveFate
  deriving DecidableEq, Repr

/-- The store with the pin of a call on a new peer. -/
def pinned (store : PeerStore) (c : Call) : PeerStore := store.emplace c.peerID ⟨c.key, c.stamp⟩

def pinOrVerify (lib : JsonText) (store : PeerStore) (files : Files) (c : Call) :
    PeerStore × Files × PinResult :=
  match store.get c.peerID with
  | some existing => (store, files, comparePin (some existing.staticKey) c.key)
  | none => (store.pinned c, save lib (store.pinned c) files c.fate)

/-! ## The law -/

/-- The file loads, has every pin of `before`, and, after a call that returned, the pin of the
call. -/
def Keeps (lib : JsonText) (before : PeerStore) (c : Call) (target : Option Bytes)
    (result : PinResult) : Prop :=
  ∃ after, load lib target = some after ∧
    (∀ peerID pin, before.get peerID = some pin → after.get peerID = some pin) ∧
    (result = .ok → (after.get c.peerID).map PinnedPeer.staticKey = some c.key)

/-- The text that is renamed over the store is the whole text; or a stale file is renamed which has
all that it should have. -/
def Whole (lib : JsonText) (store : PeerStore) (files : Files) (before : PeerStore) (c : Call) :
    Prop :=
  if c.fate.opened then (lib.dump (store.pinned c).document).length ≤ c.fate.written
  else ∀ text, files.tmp = some text → Keeps lib before c (some text) .ok

/-- When a call keeps the law: a pin in memory that it confirms is in the file too, and what it
renames is whole. -/
def Safe (lib : JsonText) (store : PeerStore) (files : Files) (before : PeerStore) (c : Call) :
    Prop :=
  match store.get c.peerID with
  | some existing => existing.staticKey = c.key →
      (before.get c.peerID).map PinnedPeer.staticKey = some c.key
  | none => c.fate.created = true → c.fate.renamed = true → Whole lib store files before c

end PeerStore

end Relayly.Sdk.Cpp
