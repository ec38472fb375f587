import Relayly.Noise
import Relayly.NoiseXX.Symmetric

/-!
# `handshakeState.ts` and `handshake_state.cpp`

The XX pattern `-> e` / `<- e, ee, s, es` / `-> s, se`, written out message by message. TypeScript
counts what it has written and read and looks at its role; C++ counts messages and leaves it to the
caller whether the next one is written or read. A message that throws leaves nothing behind that is
used again, so the state is given back only on success.
-/

namespace Relayly.NoiseXX

variable (C : Crypto)

/-- `this.re!` and `*re_`: a value that must be there. -/
def required {α : Type} : Option α → Except String α
  | some a => .ok a
  | none => .error "no value"

/-- `message.slice(i, j)`. -/
def slice (b : Bytes) (i j : ℕ) : Bytes := (b.drop i).take (j - i)

/-! ## TypeScript -/

namespace Ts

/-- `cipherState1` is for the messages of the initiator. -/
structure HandshakeResult where
  cipherState1 : CipherState
  cipherState2 : CipherState
  deriving DecidableEq, Repr

/-- The sending and the receiving cipher state, as `NoiseSession` takes them from the result. -/
def HandshakeResult.ciphers (r : HandshakeResult) (initiator : Bool) : CipherState × CipherState :=
  if initiator then (r.cipherState1, r.cipherState2) else (r.cipherState2, r.cipherState1)

/-- `rand` is what `randomBytes` gives for the ephemeral key. -/
structure HandshakeState where
  initiator : Bool
  symmetric : SymmetricState
  s : KeyPair
  rand : Bytes
  e : Option KeyPair := none
  rs : Option Bytes := none
  re : Option Bytes := none
  writeCount : ℕ := 0
  readCount : ℕ := 0
  deriving DecidableEq, Repr

namespace HandshakeState

/-- The constructor, which mixes in the empty prologue. -/
def new (initiator : Bool) (s : KeyPair) (rand : Bytes) : HandshakeState where
  initiator
  symmetric := (SymmetricState.initializeSymmetric C protocolName).mixHash C []
  s
  rand

/-- `split`, as a result. -/
def result (symmetric : SymmetricState) : HandshakeResult :=
  let (cipherState1, cipherState2) := symmetric.split C
  { cipherState1, cipherState2 }

def writeMessage (hs : HandshakeState) :
    Except String (Bytes × HandshakeState × Option HandshakeResult) :=
  if hs.initiator ∧ hs.writeCount = 0 then do
    -- -> e
    let e := C.keyPair hs.rand
    let symmetric := hs.symmetric.mixHash C e.publicKey
    let (payload, symmetric) := symmetric.encryptAndHash C []
    return (e.publicKey ++ payload,
      { hs with e := some e, symmetric, writeCount := hs.writeCount + 1 }, none)
  else if ¬ hs.initiator ∧ hs.writeCount = 0 then do
    -- <- e, ee, s, es
    let e := C.keyPair hs.rand
    let symmetric := hs.symmetric.mixHash C e.publicKey
    let re ← required hs.re
    let symmetric := symmetric.mixKey C (← C.dh e.privateKey re)
    let (encryptedS, symmetric) := symmetric.encryptAndHash C hs.s.publicKey
    let symmetric := symmetric.mixKey C (← C.dh hs.s.privateKey re)
    let (payload, symmetric) := symmetric.encryptAndHash C []
    return (e.publicKey ++ encryptedS ++ payload,
      { hs with e := some e, symmetric, writeCount := hs.writeCount + 1 }, none)
  else if hs.initiator ∧ hs.writeCount = 1 then do
    -- -> s, se
    let (encryptedS, symmetric) := hs.symmetric.encryptAndHash C hs.s.publicKey
    let symmetric := symmetric.mixKey C (← C.dh hs.s.privateKey (← required hs.re))
    let (payload, symmetric) := symmetric.encryptAndHash C []
    return (encryptedS ++ payload, { hs with symmetric, writeCount := hs.writeCount + 1 },
      some (result C symmetric))
  else .error "relayly: no handshake message to write in this state"

def readMessage (hs : HandshakeState) (message : Bytes) :
    Except String (HandshakeState × Option HandshakeResult) :=
  if ¬ hs.initiator ∧ hs.readCount = 0 then do
    -- -> e
    let re := slice message 0 dhLen
    let symmetric := hs.symmetric.mixHash C re
    let (_, symmetric) ← symmetric.decryptAndHash C (message.drop dhLen)
    return ({ hs with re := some re, symmetric, readCount := hs.readCount + 1 }, none)
  else if hs.initiator ∧ hs.readCount = 0 then do
    -- <- e, ee, s, es
    let re := slice message 0 dhLen
    let symmetric := hs.symmetric.mixHash C re
    let e ← required hs.e
    let symmetric := symmetric.mixKey C (← C.dh e.privateKey re)
    let encryptedS := slice message dhLen (dhLen + dhLen + tagLen)
    let (rs, symmetric) ← symmetric.decryptAndHash C encryptedS
    let symmetric := symmetric.mixKey C (← C.dh e.privateKey rs)
    let (_, symmetric) ← symmetric.decryptAndHash C (message.drop (dhLen + dhLen + tagLen))
    return ({ hs with re := some re, rs := some rs, symmetric, readCount := hs.readCount + 1 }, none)
  else if ¬ hs.initiator ∧ hs.readCount = 1 then do
    -- -> s, se
    let encryptedS := slice message 0 (dhLen + tagLen)
    let (rs, symmetric) ← hs.symmetric.decryptAndHash C encryptedS
    let e ← required hs.e
    let symmetric := symmetric.mixKey C (← C.dh e.privateKey rs)
    let (_, symmetric) ← symmetric.decryptAndHash C (message.drop (dhLen + tagLen))
    return ({ hs with rs := some rs, symmetric, readCount := hs.readCount + 1 },
      some (result C symmetric))
  else .error "relayly: no handshake message expected in this state"

end HandshakeState

end Ts

/-! ## C++ -/

namespace Cpp

structure SplitResult where
  send : CipherState
  recv : CipherState
  peerStatic : Bytes
  deriving DecidableEq, Repr

/-- `rand` is the private part of the ephemeral key, drawn or fixed. -/
structure HandshakeState where
  initiator : Bool
  symmetric : SymmetricState
  s : KeyPair
  rand : Bytes
  messageIndex : ℕ := 0
  e : Option KeyPair := none
  re : Option Bytes := none
  rs : Option Bytes := none
  deriving DecidableEq, Repr

/-- `std::copy` into an array of 32 bytes, which starts out as zeros. -/
def toKey (b : Bytes) : Bytes := b.take dhLen ++ List.replicate (dhLen - b.length) 0

/-- `take(n)`: the next `n` bytes and the rest. -/
def take (n : ℕ) (message : Bytes) : Except String (Bytes × Bytes) :=
  if message.length < n then .error "relayly: handshake message too short"
  else .ok (message.take n, message.drop n)

namespace HandshakeState

def new (initiator : Bool) (s : KeyPair) (rand : Bytes) : HandshakeState where
  initiator
  symmetric := (SymmetricState.initializeSymmetric C protocolName).mixHash C []
  s
  rand

/-- The part of `WriteMessage` before the payload: what goes into the buffer. -/
def writeTokens (hs : HandshakeState) : Except String (Bytes × HandshakeState) :=
  match hs.messageIndex with
  | 0 => do
    -- -> e
    let e := C.keyPair hs.rand
    return (e.publicKey, { hs with e := some e, symmetric := hs.symmetric.mixHash C e.publicKey })
  | 1 => do
    -- <- e, ee, s, es
    let e := C.keyPair hs.rand
    let symmetric := hs.symmetric.mixHash C e.publicKey
    let re ← required hs.re
    let symmetric := symmetric.mixKey C (← C.dh e.privateKey re)
    let (sCt, symmetric) := symmetric.encryptAndHash C hs.s.publicKey
    let symmetric := symmetric.mixKey C (← C.dh hs.s.privateKey re)
    return (e.publicKey ++ sCt, { hs with e := some e, symmetric })
  | 2 => do
    -- -> s, se
    let (sCt, symmetric) := hs.symmetric.encryptAndHash C hs.s.publicKey
    let symmetric := symmetric.mixKey C (← C.dh hs.s.privateKey (← required hs.re))
    return (sCt, { hs with symmetric })
  | _ => .error "relayly: WriteMessage called after XX pattern completed"

/-- After the third message, `split` in the order of `swap`, with the peer's key. -/
def finish (hs : HandshakeState) (swap : Bool) : Except String (Option SplitResult) :=
  if hs.messageIndex = 3 then do
    let (c1, c2) := hs.symmetric.split C
    let peerStatic ← required hs.rs
    return some (if swap then ⟨c2, c1, peerStatic⟩ else ⟨c1, c2, peerStatic⟩)
  else .ok none

def writeMessage (hs : HandshakeState) :
    Except String (Bytes × HandshakeState × Option SplitResult) := do
  let (buffer, hs) ← hs.writeTokens C
  let (payloadCt, symmetric) := hs.symmetric.encryptAndHash C []
  let hs := { hs with symmetric, messageIndex := hs.messageIndex + 1 }
  return (buffer ++ payloadCt, hs, ← hs.finish C false)

/-- The part of `ReadMessage` before the payload, with what remains of the message. -/
def readTokens (hs : HandshakeState) (message : Bytes) : Except String (HandshakeState × Bytes) :=
  match hs.messageIndex with
  | 0 => do
    -- -> e
    let (eBytes, rest) ← take dhLen message
    return ({ hs with re := some (toKey eBytes), symmetric := hs.symmetric.mixHash C eBytes }, rest)
  | 1 => do
    -- <- e, ee, s, es
    let (eBytes, rest) ← take dhLen message
    let re := toKey eBytes
    let symmetric := hs.symmetric.mixHash C eBytes
    let e ← required hs.e
    let symmetric := symmetric.mixKey C (← C.dh e.privateKey re)
    let (sCt, rest) ← take (dhLen + tagLen) rest
    let (sPt, symmetric) ← symmetric.decryptAndHash C sCt
    let rs := toKey sPt
    let symmetric := symmetric.mixKey C (← C.dh e.privateKey rs)
    return ({ hs with re := some re, rs := some rs, symmetric }, rest)
  | 2 => do
    -- -> s, se
    let (sCt, rest) ← take (dhLen + tagLen) message
    let (sPt, symmetric) ← hs.symmetric.decryptAndHash C sCt
    let rs := toKey sPt
    let e ← required hs.e
    let symmetric := symmetric.mixKey C (← C.dh e.privateKey rs)
    return ({ hs with rs := some rs, symmetric }, rest)
  | _ => .error "relayly: ReadMessage called after XX pattern completed"

def readMessage (hs : HandshakeState) (message : Bytes) :
    Except String (HandshakeState × Option SplitResult) := do
  let (hs, remaining) ← hs.readTokens C message
  let (_, symmetric) ← hs.symmetric.decryptAndHash C remaining
  let hs := { hs with symmetric, messageIndex := hs.messageIndex + 1 }
  return (hs, ← hs.finish C (!hs.initiator))

end HandshakeState

end Cpp

/-! ## As the clients see them -/

/-- The keys of two cipher states. -/
def keysOf (c1 c2 : CipherState) : Option (Bytes × Bytes) := do return (← c1.key, ← c2.key)

/-- The library of the TypeScript client. -/
def tsNoise : Noise where
  Hs := Ts.HandshakeState
  Key := Bytes
  newHandshakeState initiator priv rand := .ok (.new C initiator (C.keyPair priv) rand)
  writeMessage hs := (hs.writeMessage C).map fun (message, hs, r) =>
    (message, hs, r.bind fun r => keysOf r.cipherState1 r.cipherState2)
  readMessage hs message := (hs.readMessage C message).map fun (hs, r) =>
    (hs, r.bind fun r => keysOf r.cipherState1 r.cipherState2)
  peerStatic hs := hs.rs.getD []
  aeadEncrypt key n plaintext := C.aeadEncrypt key n [] plaintext
  aeadDecrypt key n ciphertext := C.aeadDecrypt key n [] ciphertext
  maxNonce := none
  maxNonceError := ""

/-- The keys of a split, those of the initiator's messages first. -/
def Cpp.SplitResult.keys (r : Cpp.SplitResult) (initiator : Bool) : Option (Bytes × Bytes) :=
  if initiator then keysOf r.send r.recv else keysOf r.recv r.send

/-- The library of the C++ client. -/
def cppNoise : Noise where
  Hs := Cpp.HandshakeState
  Key := Bytes
  newHandshakeState initiator priv rand := .ok (.new C initiator (C.keyPair priv) rand)
  writeMessage hs := (hs.writeMessage C).map fun (message, hs, r) =>
    (message, hs, r.bind (·.keys hs.initiator))
  readMessage hs message := (hs.readMessage C message).map fun (hs, r) =>
    (hs, r.bind (·.keys hs.initiator))
  peerStatic hs := hs.rs.getD []
  aeadEncrypt key n plaintext := C.aeadEncrypt key n [] plaintext
  aeadDecrypt key n ciphertext := C.aeadDecrypt key n [] ciphertext
  maxNonce := none
  maxNonceError := ""

/-! ## Between an initiator and a responder -/

/-- The three messages passed from one to the other, and what each ends with. -/
def pass {Hs Split : Type} (write : Hs → Except String (Bytes × Hs × Option Split))
    (read : Hs → Bytes → Except String (Hs × Option Split)) (i r : Hs) :
    Except String ((Hs × Option Split) × Hs × Option Split) := do
  let (msg1, i, _) ← write i
  let (r, _) ← read r msg1
  let (msg2, r, _) ← write r
  let (i, _) ← read i msg2
  let (msg3, i, splitI) ← write i
  let (r, splitR) ← read r msg3
  return ((i, splitI), r, splitR)

end Relayly.NoiseXX
