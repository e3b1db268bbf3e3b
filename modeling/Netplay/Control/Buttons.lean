/-
  Held buttons, as the sixteen bits of an input sample.

  Bits that name no button are kept.  The direction of movement is a unit
  vector or zero; of several charge buttons the highest counts.
-/
import Netplay.Numeric.Vec2

namespace Netplay

/-- A set of held buttons. -/
structure Buttons where
  bits : UInt16
  deriving DecidableEq, Inhabited

namespace Buttons

def none : Buttons := ⟨0⟩
def up : Buttons := ⟨0x001⟩
def down : Buttons := ⟨0x002⟩
def left : Buttons := ⟨0x004⟩
def right : Buttons := ⟨0x008⟩
def fire : Buttons := ⟨0x010⟩

/-- The four buttons of movement. -/
def movement : Buttons := ⟨0x00f⟩

/-- The five buttons of charging. -/
def charge : Buttons := ⟨0x3e0⟩

def all : Buttons := ⟨0x3ff⟩

def union (a b : Buttons) : Buttons := ⟨a.bits ||| b.bits⟩

def inter (a b : Buttons) : Buttons := ⟨a.bits &&& b.bits⟩

/-- Every button of `b` is held. -/
def holds (a b : Buttons) : Bool := a.bits &&& b.bits == b.bits

/-- Add `step` to `start` if the button is held. -/
def nudge (held : Bool) (start step : Binary32) : Binary32 :=
  if held then start + step else start

/-- The direction of movement: a unit vector, or zero if no direction is held
    or opposite ones cancel. -/
def direction (b : Buttons) : Vec2 :=
  let minusOne : Binary32 := ⟨0xbf800000⟩
  let y := nudge (b.holds down) (nudge (b.holds up) .zero minusOne) .one
  let x := nudge (b.holds right) (nudge (b.holds left) .zero minusOne) .one
  Vec2.normalizeOrZero ⟨x, y⟩

/-- The highest charge button held, from 1 to 5. -/
def chargeLevel (b : Buttons) : Option Nat :=
  let held := (b.inter charge).bits.toNat >>> 5
  if held = 0 then Option.none else some (held.log2 + 1)

end Buttons

end Netplay
