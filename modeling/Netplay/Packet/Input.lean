/-
  Input packets: one sample of a player's buttons and aim, a frame of 37
  bytes.

  Whatever the header says before, an input packet goes out as an
  uncompressed client packet of its own kind and size.  It is read only from a
  frame of exactly that size, kind and direction with three finite numbers.
-/
import Netplay.Control.Buttons
import Netplay.Packet.Frame

namespace Netplay

/-- One sample of a player's controls. -/
structure InputPacket where
  /-- The packet's header; its sequence numbers the sample. -/
  header : Header
  playerId : UInt32
  buttons : Buttons
  /-- Where the player believes to be. -/
  position : Vec2
  angle : Binary32
  deriving DecidableEq

namespace InputPacket

def payloadSize : Nat := 18

def size : Nat := headerSize + payloadSize + trailerSize

/-- A header made that of an input packet. -/
def normalize (h : Header) : Header :=
  { h with
    direction := .clientToServer
    messageType := .input
    compressed := false
    payloadSize := 18
    originalSize := 18 }

/-- The header of the sample with the given number. -/
def numbered (sequence : UInt16) : Header :=
  normalize { direction := .clientToServer, messageType := .input, sequence := sequence }

def payload (p : InputPacket) : Bytes :=
  Bytes.be32 p.playerId ++ Bytes.be16 p.buttons.bits ++ Bytes.ofBinary32 p.position.x ++
    Bytes.ofBinary32 p.position.y ++ Bytes.ofBinary32 p.angle

def encode (p : InputPacket) : Bytes :=
  Frame.sealed ((normalize p.header).encode ++ p.payload)

/-- Read a payload behind a header; the numbers have to be finite. -/
def read (header : Header) : Reader InputPacket := do
  let playerId ← Reader.u32
  let buttons ← Reader.u16
  let x ← Reader.f32
  let y ← Reader.f32
  let angle ← Reader.f32
  if x.isFinite && y.isFinite && angle.isFinite then
    return { header, playerId, buttons := ⟨buttons⟩, position := ⟨x, y⟩, angle }
  else Reader.fail

def decode (bs : Bytes) : Option InputPacket :=
  if bs.length ≠ size then none
  else match Frame.decode bs with
    | .error _ => none
    | .ok f =>
      if f.header.messageType = .input ∧ f.header.direction = .clientToServer ∧
          f.header.payloadSize.toNat = payloadSize then
        (read f.header).whole f.payload
      else none

end InputPacket

end Netplay
