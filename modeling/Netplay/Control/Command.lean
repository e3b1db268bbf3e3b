/-
  Commands: what a player did in one step, numbered from the start of play.

  A command is what is sent, kept for replay and applied; on the way to the
  server its number is cut to 16 bits.
-/
import Netplay.Packet.Input

namespace Netplay

/-- The usual length of a step, in seconds: sixteen thousandths. -/
def standardStep : Binary32 := ⟨0x3c83126f⟩

/-- What a player did in one step. -/
structure Command where
  sequence : UInt32
  buttons : Buttons
  /-- Where the player was after it. -/
  position : Vec2 := .zero
  angle : Binary32 := .zero
  /-- The length of the step, in seconds. -/
  deltaTime : Binary32 := standardStep
  deriving DecidableEq

namespace Command

def toPacket (c : Command) (playerId : UInt32) : InputPacket :=
  { header := InputPacket.numbered c.sequence.toUInt16
    playerId := playerId
    buttons := c.buttons
    position := c.position
    angle := c.angle }

end Command

end Netplay
