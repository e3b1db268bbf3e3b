/-
  Frames: a header, a payload of the size that the header says, and the check
  value of both.

  * `Frame.encode` fills in the sizes; a compressed payload keeps the original
    size that the header states.
  * `Frame.decode` accepts a byte string exactly if it is a header, as many
    bytes as the header says and their check value, with nothing left over.
-/
import Netplay.Bytes.Crc32
import Netplay.Packet.Header

namespace Netplay

/-- The length of the check value behind the payload. -/
def trailerSize : Nat := 4

/-- The longest datagram that a receiver makes room for. -/
def maxPacketSize : Nat := 1200

/-- A header with the payload behind it. -/
structure Frame where
  header : Header
  payload : Bytes
  deriving DecidableEq

namespace Frame

def maxPayload : Nat := 65535

/-- A header that states the size of a payload, and its original size unless
    the payload is compressed. -/
def sized (h : Header) (size : UInt16) : Header :=
  { h with
    payloadSize := size
    originalSize := if h.compressed then h.originalSize else size }

def sealed (body : Bytes) : Bytes := body ++ Bytes.be32 (crc32 body)

/-- The bytes of a payload framed behind a header. -/
def encode (h : Header) (payload : Bytes) : Except PacketError Bytes :=
  if payload.length ≤ maxPayload then
    .ok (sealed ((sized h (UInt16.ofNat payload.length)).encode ++ payload))
  else .error (.payloadTooLarge payload.length)

def decode (bs : Bytes) : Except PacketError Frame :=
  match Header.decode bs with
  | .error e => .error e
  | .ok header =>
    let body := headerSize + header.payloadSize.toNat
    if bs.length ≠ body + trailerSize then
      .error (.lengthMismatch (body + trailerSize) bs.length)
    else
      let transmitted := UInt32.ofNat (Bytes.ofBigEndian (bs.drop body))
      let computed := crc32 (bs.take body)
      if transmitted ≠ computed then .error (.checksumMismatch transmitted computed)
      else .ok ⟨header, (bs.take body).drop headerSize⟩

end Frame

end Netplay
