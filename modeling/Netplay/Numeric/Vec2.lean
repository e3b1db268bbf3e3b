/-
  Points and displacements of the plane, in single precision.

  `length` is the root of the sum of squares and `normalizeOrZero` scales by
  the reciprocal of the length where that is finite and positive; each
  operation rounds once, so two programs that follow the same order agree bit
  for bit.
-/
import Netplay.Numeric.Binary32

namespace Netplay

/-- A point or displacement; `y` grows downward. -/
structure Vec2 where
  x : Binary32
  y : Binary32
  deriving DecidableEq, Inhabited

namespace Vec2

def zero : Vec2 := ⟨.zero, .zero⟩

instance : Add Vec2 := ⟨fun a b => ⟨a.x + b.x, a.y + b.y⟩⟩
instance : Sub Vec2 := ⟨fun a b => ⟨a.x - b.x, a.y - b.y⟩⟩

def scale (v : Vec2) (k : Binary32) : Vec2 := ⟨v.x * k, v.y * k⟩

def length (v : Vec2) : Binary32 := (v.x * v.x + v.y * v.y).sqrt

def distance (a b : Vec2) : Binary32 := (a - b).length

/-- The unit vector of the same direction, or the origin where the length has
    no positive finite reciprocal. -/
def normalizeOrZero (v : Vec2) : Vec2 :=
  let r := Binary32.one / v.length
  if r.isFinite && Binary32.lt .zero r then v.scale r else zero

/-- Numeric equality of both coordinates. -/
def sameValue (a b : Vec2) : Bool := a.x.sameValue b.x && a.y.sameValue b.y

def isFinite (v : Vec2) : Bool := v.x.isFinite && v.y.isFinite

end Vec2

end Netplay
