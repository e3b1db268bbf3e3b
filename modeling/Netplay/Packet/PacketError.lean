/-
  Why a frame cannot be written or is refused, and how that is said.
-/
import Netplay.Bytes.Hex
import Netplay.Packet.Kind

namespace Netplay

/-- Reasons for which a frame or message is not written or not accepted. -/
inductive PacketError where
  /-- Fewer bytes than a header. -/
  | truncated (needed available : Nat)
  | badMagic
  | unsupportedVersion (version : UInt8)
  | unknownDirection (code : UInt8)
  | unknownMessageType (code : UInt8)
  /-- The frame is not as long as its header says. -/
  | lengthMismatch (declared actual : Nat)
  /-- The trailer is not the check value of what precedes it. -/
  | checksumMismatch (transmitted computed : UInt32)
  | payloadTooLarge (size : Nat)
  /-- A frame of another kind than the one wanted. -/
  | unexpectedMessage (expected actual : MessageType)
  /-- A frame that travels against the direction of its kind. -/
  | wrongDirection (kind : MessageType)
  | malformedPayload (kind : MessageType)
  deriving DecidableEq

namespace PacketError

def name : PacketError → String
  | truncated .. => "Truncated"
  | badMagic => "BadMagic"
  | unsupportedVersion _ => "UnsupportedVersion"
  | unknownDirection _ => "UnknownDirection"
  | unknownMessageType _ => "UnknownMessageType"
  | lengthMismatch .. => "LengthMismatch"
  | checksumMismatch .. => "ChecksumMismatch"
  | payloadTooLarge _ => "PayloadTooLarge"
  | unexpectedMessage .. => "UnexpectedMessage"
  | wrongDirection _ => "WrongDirection"
  | malformedPayload _ => "MalformedPayload"

def message : PacketError → String
  | truncated needed available =>
    s!"buffer too short: needed {needed} bytes, had {available}"
  | badMagic => "bad protocol magic"
  | unsupportedVersion version => s!"unsupported protocol version {version}"
  | unknownDirection code => s!"unknown packet direction 0x{Hex.padded 2 code.toNat}"
  | unknownMessageType code => s!"unknown message type 0x{Hex.padded 2 code.toNat}"
  | lengthMismatch declared actual =>
    s!"declared payload of {declared} bytes does not match frame of {actual} bytes"
  | checksumMismatch transmitted computed =>
    s!"crc mismatch: transmitted 0x{Hex.padded 8 transmitted.toNat}, " ++
      s!"computed 0x{Hex.padded 8 computed.toNat}"
  | payloadTooLarge size => s!"payload of {size} bytes does not fit a frame"
  | unexpectedMessage expected actual => s!"expected {expected.name}, got {actual.name}"
  | wrongDirection kind => s!"{kind.name} packet travelling in the wrong direction"
  | malformedPayload kind => s!"malformed {kind.name} payload"

end PacketError

end Netplay
