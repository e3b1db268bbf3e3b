/-
  What entities are made of.

  Each kind of component is a type of values, `Component.Kind.Value`; an
  entity has at most one value of each kind.
-/
import Netplay.Numeric.Vec2
import Netplay.Prediction.CommandLog

namespace Netplay

/-- Where an entity is and which way it faces. -/
structure Transform where
  position : Vec2
  rotation : Binary32
  deriving DecidableEq

namespace Transform

/-- At a position, facing the way of angle zero. -/
def placed (position : Vec2) : Transform := ⟨position, .zero⟩

end Transform

/-- How healthy an entity is. -/
structure Health where
  current : Int16
  max : Int16
  deriving DecidableEq

namespace Health

def full (max : Int16) : Health := ⟨max, max⟩

def isDead (h : Health) : Bool := h.current ≤ 0

end Health

namespace Component

/-- The kinds of component. -/
inductive Kind where
  | transform
  | velocity
  | health
  | lives
  | score
  /-- For how many seconds it cannot be hurt. -/
  | invincibility
  | render
  /-- Which player controls it. -/
  | controller
  /-- Its player's commands that the server has not confirmed. -/
  | history
  deriving DecidableEq

namespace Kind

def all : List Kind :=
  [transform, velocity, health, lives, score, invincibility, render, controller, history]

def name : Kind → String
  | transform => "transform"
  | velocity => "velocity"
  | health => "health"
  | lives => "lives"
  | score => "score"
  | invincibility => "invincibility"
  | render => "render"
  | controller => "controller"
  | history => "history"

end Kind

/-- The values of a kind. -/
@[reducible] def Kind.Value : Kind → Type
  | .transform => Transform
  | .velocity => Vec2
  | .health => Health
  | .lives => UInt8
  | .score => Int32
  | .invincibility => Binary32
  | .render => UInt8
  | .controller => UInt32
  | .history => CommandLog

end Component

end Netplay
