import Relayly.Lib.Uri
import Relayly.Wire

/-!
# The connect URL of `sdk/cpp/src/client.cpp`

The credentials of a device are two parameters of the URL's query, percent-encoded byte by byte.
-/

namespace Relayly.Sdk.Cpp

open Uri

/-- `std::isalnum` in the "C" locale. -/
def isalnum (c : UInt8) : Bool :=
  (0x30 ≤ c && c ≤ 0x39) || (0x41 ≤ c && c ≤ 0x5A) || (0x61 ≤ c && c ≤ 0x7A)

/-- The bytes that `PercentEncode` copies: the alphanumeric ones, `-`, `_`, `.` and `~`. -/
def copied (c : UInt8) : Bool :=
  isalnum c || c == 0x2D || c == 0x5F || c == 0x2E || c == 0x7E

def hexDigit (d : UInt8) : UInt8 := if d < 10 then 0x30 + d else 0x37 + d

/-- A number under `std::uppercase << std::hex`: as many digits as it has. -/
def hex (c : UInt8) : Bytes :=
  if c < 16 then [hexDigit c] else [hexDigit (c / 16), hexDigit (c % 16)]

/-- One round of the loop of `PercentEncode`. -/
def encodeByte (c : UInt8) : Bytes := if copied c then [c] else percent :: hex c

def percentEncode (raw : Bytes) : Bytes := raw.flatMap encodeByte

/-- `http` becomes `ws`, `https` becomes `wss`. -/
def websocketUrl (url : Bytes) : Bytes :=
  if ascii "http://" <+: url then ascii "ws://" ++ url.drop 7
  else if ascii "https://" <+: url then ascii "wss://" ++ url.drop 8
  else url

/-- The names of the two parameters. -/
def deviceIDName : Bytes := ascii "device_id"
def tokenName : Bytes := ascii "token"

/-- What is appended after the separator. -/
def credentials (deviceID token : Bytes) : Bytes :=
  deviceIDName ++ equals :: percentEncode deviceID ++
    ampersand :: (tokenName ++ equals :: percentEncode token)

def buildConnectUrl (serverUrl deviceID token : Bytes) : Bytes :=
  let url := websocketUrl serverUrl
  let separator := if question ∈ url then ampersand else question
  url ++ separator :: credentials deviceID token

end Relayly.Sdk.Cpp
