/-
  Movement: what one step of held buttons does to a position.

  Prediction, replay and the server all move through `Movement.apply`, so they
  agree bit for bit on the same commands.
-/
import Netplay.Control.Buttons

namespace Netplay

namespace Movement

/-- The usual speed, 200 units a second. -/
def standardSpeed : Binary32 := ⟨0x43480000⟩

/-- How far held buttons move at `speed` in `dt` seconds. -/
def delta (b : Buttons) (speed dt : Binary32) : Vec2 := b.direction.scale (speed * dt)

/-- Whether the step moves at all. -/
def moves (b : Buttons) (speed dt : Binary32) : Bool :=
  !(delta b speed dt).sameValue Vec2.zero

/-- The position after a step; a step that does not move leaves it as it is. -/
def apply (position : Vec2) (b : Buttons) (speed dt : Binary32) : Vec2 :=
  if moves b speed dt then position + delta b speed dt else position

end Movement

end Netplay
