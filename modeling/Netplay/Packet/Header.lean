/-
  The fifteen bytes in front of every packet.

  In order: the two protocol bytes; the version in seven bits below the mark
  for a compressed payload; direction; kind; sequence; tick; the payload's
  size; its size before compression.  Words are big-endian.

  `decode` tests length, protocol bytes, version, direction and kind in this
  order and reports the first that fails.
-/
import Netplay.Bytes.Field
import Netplay.Packet.PacketError

namespace Netplay

/-- The version of the protocol spoken here. -/
def protocolVersion : UInt8 := 1

/-- The two bytes every packet starts with. -/
def protocolMagic : Bytes := [0xA3, 0x5F]

def headerSize : Nat := 15

/-- What a packet says of itself before its payload. -/
structure Header where
  /-- Protocol version; seven bits of it travel. -/
  version : UInt8 := protocolVersion
  compressed : Bool := false
  direction : Direction
  messageType : MessageType
  sequence : UInt16 := 0
  tick : UInt32 := 0
  /-- Length of the payload as sent. -/
  payloadSize : UInt16 := 0
  /-- Length of the payload before compression. -/
  originalSize : UInt16 := 0
  deriving DecidableEq

namespace Header

/-- The mark of a compressed payload in the version byte. -/
def compressedMark : UInt8 := 0x80

def versionMask : UInt8 := 0x7F

/-- Version and compression mark in one byte. -/
def versionByte (h : Header) : UInt8 :=
  (h.version &&& versionMask) ||| (if h.compressed then compressedMark else 0)

def encode (h : Header) : Bytes :=
  protocolMagic ++ [h.versionByte, h.direction.code, h.messageType.code] ++
    Bytes.be16 h.sequence ++ Bytes.be32 h.tick ++
    Bytes.be16 h.payloadSize ++ Bytes.be16 h.originalSize

@[simp] theorem length_encode (h : Header) : h.encode.length = headerSize := by
  simp [encode, protocolMagic, headerSize]

/-- The words behind the five leading bytes. -/
def readSizes (version : UInt8) (compressed : Bool) (direction : Direction)
    (messageType : MessageType) : Reader Header := do
  let sequence ← Reader.u16
  let tick ← Reader.u32
  let payloadSize ← Reader.u16
  let originalSize ← Reader.u16
  return { version, compressed, direction, messageType, sequence, tick, payloadSize, originalSize }

def decode (bs : Bytes) : Except PacketError Header :=
  match bs with
  | m₀ :: m₁ :: v :: d :: t :: rest =>
    if bs.length < headerSize then .error (.truncated headerSize bs.length)
    else if [m₀, m₁] ≠ protocolMagic then .error .badMagic
    else if v &&& versionMask ≠ protocolVersion then
      .error (.unsupportedVersion (v &&& versionMask))
    else match Direction.ofCode? d, MessageType.ofCode? t with
      | none, _ => .error (.unknownDirection d)
      | some _, none => .error (.unknownMessageType t)
      | some direction, some messageType =>
        match (readSizes (v &&& versionMask) (v &&& compressedMark != 0) direction
            messageType rest).1 with
        | some h => .ok h
        | none => .error (.truncated headerSize bs.length)
  | _ => .error (.truncated headerSize bs.length)

end Header

end Netplay
