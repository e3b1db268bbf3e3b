/-
  A player that follows a script: six legs of equal length walked in a loop,
  a shot now and then, and an aim that turns one degree a step.
-/
import Netplay.Control.Buttons

namespace Netplay

/-- A scripted player. -/
structure Script where
  /-- Steps to each leg; never zero. -/
  legTicks : UInt32
  /-- Steps from shot to shot; zero for no shots. -/
  fireEvery : UInt32
  tick : UInt32 := 0

namespace Script

def make (legTicks fireEvery : UInt32) : Script :=
  { legTicks := max legTicks 1, fireEvery := fireEvery }

/-- Legs of 45 steps and a shot every 20. -/
def standard : Script := make 45 20

/-- What is held on each leg: right, down, left, up, right and up, nothing. -/
def leg : Nat → Buttons
  | 0 => .right
  | 1 => .down
  | 2 => .left
  | 3 => .up
  | 4 => Buttons.right.union .up
  | _ => .none

/-- What the player does in the next step: what is held, and the aim. -/
def sample (s : Script) : Buttons × Binary32 :=
  let walking := leg ((s.tick / s.legTicks).toNat % 6)
  let shooting := s.fireEvery != 0 && s.tick % s.fireEvery == 0
  (if shooting then walking.union .fire else walking, Binary32.ofNat (s.tick % 360).toNat)

def advance (s : Script) : Script := { s with tick := s.tick + 1 }

def skip (s : Script) (n : Nat) : Script := { s with tick := s.tick + .ofNat n }

end Script

end Netplay
