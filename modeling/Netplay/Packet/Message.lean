/-
  Messages: typed payloads, each kind with its own code and direction.

  A type of messages says how its payload is written and read.  Framing is the
  same for all: `Message.encode` puts the payload behind a fresh header, and
  `Message.ofFrame?` takes a frame of the right kind and direction whose whole
  payload reads as one message.
-/
import Netplay.Packet.Frame

namespace Netplay

/-- A type of messages. -/
class Message (μ : Type) where
  messageType : MessageType
  direction : Direction
  write : μ → Bytes
  /-- Read a message off the front of a payload. -/
  read : Reader μ

namespace Message

variable {μ : Type} [Message μ]

/-- The header of a message, sizes still open. -/
def header (μ : Type) [Message μ] (sequence : UInt16) (tick : UInt32) : Header :=
  { direction := direction μ, messageType := messageType μ, sequence := sequence, tick := tick }

def encode (m : μ) (sequence : UInt16) (tick : UInt32) : Except PacketError Bytes :=
  Frame.encode (header μ sequence tick) (write m)

/-- The message that a frame carries. -/
def ofFrame? (f : Frame) : Option (Header × μ) :=
  if f.header.messageType = messageType μ ∧ f.header.direction = direction μ then
    ((read (μ := μ)).whole f.payload).map (f.header, ·)
  else none

def decode (bs : Bytes) : Option (Header × μ) :=
  match Frame.decode bs with
  | .ok f => ofFrame? f
  | .error _ => none

end Message

end Netplay
