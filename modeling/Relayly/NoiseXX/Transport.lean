import Relayly.Lib.Lockstep
import Relayly.NoiseXX.Primitives

/-!
# `cipherState.ts` and `cipher_state.cpp` after the handshake

A transport message goes through one cipher state on each side. The methods change the object they
are called on, and one that throws leaves it as it was when the exception was raised.
-/

namespace Relayly.NoiseXX

inductive Port
  | ts
  | cpp
  deriving DecidableEq, Repr

def Port.crypto (P : Primitives) : Port → Crypto
  | .ts => P.ts
  | .cpp => P.cpp

/-- The AEAD replaced by one that shows the nonce it is called with. -/
def Primitives.spied (P : Primitives) : Primitives :=
  { P with aeadEncrypt := fun _ nonce _ _ => nonce }

namespace CipherState

variable (C : Crypto)

/-- `aeadDecrypt` throws before the counter is counted up. -/
def decrypt (ad ciphertext : Bytes) : ExceptT String (StateM CipherState) Bytes := do
  let cs ← get
  match cs.key with
  | none => return ciphertext
  | some key =>
    let plaintext ← ExceptT.mk (pure (C.aeadDecrypt key cs.n ad ciphertext))
    modify fun cs => { cs with n := cs.n + 1 }
    return plaintext

/-- A message, or a frame on the wire: the associated data and the text. -/
abbrev Framed := Bytes × Bytes

/-- One call on the sending side. -/
def send (cs : CipherState) (message : Framed) : Framed × CipherState :=
  let (ciphertext, cs') := cs.encryptWithAd C message.1 message.2
  ((message.1, ciphertext), cs')

/-- One call on the receiving side. -/
def recv (cs : CipherState) (frame : Framed) : Except String Bytes × CipherState :=
  (decrypt C frame.1 frame.2).run.run cs

/-- The results of calls of `encryptWithAd`, one after the other. -/
def ciphertexts (cs : CipherState) (messages : List Framed) : List Bytes :=
  (Lockstep.sendAll (send C) cs messages).1.map (·.2)

/-- The nonces that these calls pass to the AEAD. -/
def nonces (port : Port) (P : Primitives) (cs : CipherState) (messages : List Framed) :
    List Bytes :=
  cs.ciphertexts (port.crypto P.spied) messages

end CipherState

end Relayly.NoiseXX
