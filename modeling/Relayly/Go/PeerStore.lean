import Relayly.Go.Session

/-!
# `peerstore.go`: the pinned peer keys

The store is a map in memory and its JSON on disk. `pinOrVerify` writes a first pin to the map
and then saves the whole map; a pin that exists is only compared.
-/

namespace Relayly.Go

/-- `peers` is `none` for a nil map, which a file holding `null` decodes to; `disk` is the map
the file at `path` decodes to, `none` while there is no file. -/
structure PeerStore where
  peers : Option Pins
  disk : Option Pins

/-- Where saving the store fails, with the cause. -/
inductive SaveFault
  | mkdir (cause : String)
  | write (cause : String)
  | rename (cause : String)
  deriving DecidableEq, Repr

def SaveFault.error : SaveFault → GoError
  | .mkdir cause => GoError.because "relayly: creating peer store directory: " cause
  | .write cause => GoError.because "relayly: writing peer store: " cause
  | .rename cause => GoError.because "relayly: saving peer store: " cause

namespace PeerStore

def get (ps : PeerStore) (peerID : String) : Option PinnedPeer :=
  ps.peers.bind fun peers => peers peerID

/-- Everything before the rename leaves the file at `path` alone. -/
def saveLocked (ps : PeerStore) : Option SaveFault → PeerStore × Option GoError
  | some fault => (ps, some fault.error)
  | none => ({ ps with disk := ps.peers }, none)

/-- `none` is a panic: the first pin into a nil map. -/
def pinOrVerify (ps : PeerStore) (peerID staticKeyB64 stamp : String) (fault : Option SaveFault) :
    Option (PeerStore × Option GoError) :=
  match ps.get peerID with
  | some existing =>
    if existing.staticKey ≠ staticKeyB64 then some (ps, some errPeerKeyMismatch)
    else some (ps, none)
  | none =>
    match ps.peers with
    | none => none
    | some peers =>
      some ({ ps with peers := some (Function.update peers peerID
        (some ⟨staticKeyB64, stamp⟩)) }.saveLocked fault)

end PeerStore

end Relayly.Go
