/-
  What is captured of an entity at a tick, written back on a rollback and
  digested.

  `EntityState` is what a type of captured states offers.  There are two:

  * `FullState`, the server's: position, velocity, health, lives, score, status
    bits and looks;
  * `CoreState`, a client's: position, velocity and health.

  Only an entity with a transform is captured, and what it lacks is captured as
  zero.  Writing back gives a transform to an entity without one and leaves
  health, lives and score away where the entity has none.  Both types digest
  the same critical bytes.
-/
import Netplay.Bytes.Field
import Netplay.World.Basic

namespace Netplay

/-- A type of captured states. -/
class EntityState (σ : Type) where
  /-- The state of an entity; none without a transform. -/
  capture : World → EntityId → Option σ
  restore : σ → World → EntityId → World
  /-- The state holds captured values. -/
  isInitialized : σ → Bool
  /-- The digested bytes. -/
  fieldBytes : σ → Bytes
  /-- The digested bytes that server and clients share. -/
  criticalBytes : σ → Bytes

namespace EntityState

/-- Seconds of invincibility given back by a rollback. -/
def restoredInvincibility : Binary32 := .two

def pointBytes (v : Vec2) : Bytes := Bytes.ofBinary32 v.x ++ Bytes.ofBinary32 v.y

/-- Put an entity at a position; it keeps the way it faces. -/
def restorePosition (r : World) (id : EntityId) (position : Vec2) : World :=
  if r.has .transform id then
    r.modify .transform id fun t => { t with position := position }
  else r.attach .transform id (.placed position)

/-- Give an entity a velocity, unless it is zero. -/
def restoreVelocity (r : World) (id : EntityId) (velocity : Vec2) : World :=
  if velocity.sameValue .zero then r
  else if r.has .velocity id then r.modify .velocity id fun _ => velocity
  else r.attach .velocity id velocity

/-- Set an entity's health where it has any. -/
def restoreHealth (r : World) (id : EntityId) (health : Int16) : World :=
  r.modify .health id fun h => { h with current := health }

/-- Give or take invincibility; seconds that are left are kept. -/
def restoreInvincibility (r : World) (id : EntityId) (invincible : Bool) : World :=
  if invincible && !r.has .invincibility id then
    r.attach .invincibility id restoredInvincibility
  else if !invincible && r.has .invincibility id then r.detach .invincibility id
  else r

end EntityState

/-- The server's view of one entity at one tick. -/
structure FullState where
  position : Vec2
  velocity : Vec2
  health : Int16
  lives : UInt8
  score : Int32
  status : UInt8
  typeId : UInt8
  /-- The values have been captured. -/
  initialized : Bool := true
  deriving DecidableEq

namespace FullState

/-- The status bit of an entity that cannot be hurt. -/
def invincibleBit : UInt8 := 0x02

def isInvincible (s : FullState) : Bool := s.status &&& invincibleBit == invincibleBit

def capture (r : World) (id : EntityId) : Option FullState :=
  (r.get? .transform id).map fun t =>
    { position := t.position
      velocity := (r.get? .velocity id).getD .zero
      health := match r.get? .health id with
        | some h => h.current
        | none => 0
      lives := (r.get? .lives id).getD 0
      score := (r.get? .score id).getD 0
      status := if r.has .invincibility id then invincibleBit else 0
      typeId := (r.get? .render id).getD 0 }

def restore (s : FullState) (r : World) (id : EntityId) : World :=
  let r := EntityState.restorePosition r id s.position
  let r := EntityState.restoreVelocity r id s.velocity
  let r := EntityState.restoreHealth r id s.health
  let r := r.modify .lives id fun _ => s.lives
  let r := r.modify .score id fun _ => s.score
  EntityState.restoreInvincibility r id s.isInvincible

end FullState

instance : EntityState FullState where
  capture := FullState.capture
  restore := FullState.restore
  isInitialized s := s.initialized
  fieldBytes s := EntityState.pointBytes s.position ++ EntityState.pointBytes s.velocity ++
    Bytes.ofInt16 s.health ++ [s.lives] ++ Bytes.ofInt32 s.score ++ [s.status, s.typeId]
  criticalBytes s := EntityState.pointBytes s.position ++ Bytes.ofInt16 s.health

/-- A client's view of one entity at one tick. -/
structure CoreState where
  position : Vec2
  velocity : Vec2
  health : Int16
  /-- The values have been captured. -/
  initialized : Bool := true
  deriving DecidableEq

namespace CoreState

def capture (r : World) (id : EntityId) : Option CoreState :=
  (r.get? .transform id).map fun t =>
    { position := t.position
      velocity := (r.get? .velocity id).getD .zero
      health := match r.get? .health id with
        | some h => h.current
        | none => 0 }

def restore (s : CoreState) (r : World) (id : EntityId) : World :=
  let r := EntityState.restorePosition r id s.position
  let r := EntityState.restoreVelocity r id s.velocity
  EntityState.restoreHealth r id s.health

end CoreState

instance : EntityState CoreState where
  capture := CoreState.capture
  restore := CoreState.restore
  isInitialized s := s.initialized
  fieldBytes s := EntityState.pointBytes s.position ++ EntityState.pointBytes s.velocity ++
    Bytes.ofInt16 s.health
  criticalBytes s := EntityState.pointBytes s.position ++ Bytes.ofInt16 s.health

end Netplay
