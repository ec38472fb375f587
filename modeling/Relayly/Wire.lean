import Relayly.Lib.Base64
import Mathlib.Logic.Function.Basic

/-!
# What the SDKs share on the wire and on disk

Binary frames are one byte of envelope type and a payload, keys travel as base64 text, and every
SDK keeps its pinned peers in one JSON schema.
-/

namespace Relayly

/-- Byte strings. -/
abbrev Bytes := List UInt8

def encodeBase64 (b : Bytes) : String := String.ofList (Base64.encodeChars b)

def decodeBase64 (s : String) : Option Bytes := Base64.decodeChars s.toList

theorem decodeBase64_encodeBase64 (b : Bytes) : decodeBase64 (encodeBase64 b) = some b := by
  rw [decodeBase64, encodeBase64, String.toList_ofList, Base64.decodeChars_encodeChars]

theorem encodeBase64_injective : Function.Injective encodeBase64 := fun a b h => by
  have := congrArg decodeBase64 h
  rwa [decodeBase64_encodeBase64, decodeBase64_encodeBase64, Option.some.injEq] at this

/-- The envelope types of a binary frame. -/
def envelopeHandshake : UInt8 := 0x01
def envelopeTransport : UInt8 := 0x02

def encodeEnvelope (kind : UInt8) (payload : Bytes) : Bytes := kind :: payload

def decodeEnvelope : Bytes → Option (UInt8 × Bytes)
  | [] => none
  | kind :: payload => some (kind, payload)

@[simp] theorem decodeEnvelope_encodeEnvelope (kind : UInt8) (payload : Bytes) :
    decodeEnvelope (encodeEnvelope kind payload) = some (kind, payload) := rfl

/-- One entry of `peers.json`. -/
structure PinnedPeer where
  staticKey : String
  pinnedAt : String
  deriving DecidableEq, Repr

/-- Pins by peer device ID. -/
abbrev Pins := String → Option PinnedPeer

end Relayly
