/-
  Steering: the server's application of input packets to entities.

  Inputs wait in a bounded queue until the tick; when it is full the oldest
  makes room.  An input moves its entity one fixed step, unless it is not newer
  than the newest one applied to that entity or the entity is nowhere.
-/
import Netplay.Packet.Input
import Netplay.Packet.Sequence
import Netplay.Timeline.Timestep
import Netplay.World.Movement
import Netplay.World.Basic

namespace Netplay

structure PendingInput where
  /-- The entity that the sender controls. -/
  entity : EntityId
  packet : InputPacket
  deriving DecidableEq

/-- The inputs that wait for the next tick, oldest first. -/
structure Inbox where
  waiting : List PendingInput := []
  capacity : Nat
  capacity_pos : 0 < capacity

namespace Inbox

def ofCapacity (capacity : Nat) : Inbox :=
  { capacity := max capacity 1, capacity_pos := Nat.le_max_right capacity 1 }

def size (q : Inbox) : Nat := q.waiting.length

/-- Append an input; when the queue is full the oldest makes room. -/
def push (q : Inbox) (entity : EntityId) (packet : InputPacket) : Inbox :=
  let kept := if q.size ≥ q.capacity then q.waiting.drop 1 else q.waiting
  { q with waiting := kept ++ [⟨entity, packet⟩] }

def clear (q : Inbox) : Inbox := { q with waiting := [] }

end Inbox

/-- How inputs move entities, and the newest input applied to each. -/
structure Steering where
  /-- Units per second. -/
  speed : Binary32
  /-- Seconds per input. -/
  dt : Binary32
  /-- The sequence of the newest input applied to each entity. -/
  lastApplied : EntityMap UInt16 := .empty

namespace Steering

/-- The usual speed at sixty inputs a second. -/
def standard : Steering :=
  { speed := Movement.standardSpeed
    dt := Binary32.one / Binary32.ofNat Timestep.standardRate.toNat }

/-- The input is newer than the newest one applied to its entity. -/
def isFresh (s : Steering) (p : PendingInput) : Bool :=
  match s.lastApplied.get? p.entity with
  | some last => Sequence.newer p.packet.header.sequence last
  | none => true

/-- The input takes effect: it is fresh and its entity is somewhere. -/
def accepts (s : Steering) (r : World) (p : PendingInput) : Bool :=
  s.isFresh p && r.has .transform p.entity

/-- Where a transform is after an input. -/
def steer (s : Steering) (p : InputPacket) (t : Transform) : Transform :=
  ⟨Movement.apply t.position p.buttons s.speed s.dt, p.angle⟩

/-- Apply one input; answers whether it took effect. -/
def apply (s : Steering) (r : World) (p : PendingInput) : Bool × Steering × World :=
  if s.accepts r p then
    (true, { s with lastApplied := s.lastApplied.insert p.entity p.packet.header.sequence },
      r.modify .transform p.entity (s.steer p.packet))
  else (false, s, r)

/-- Apply inputs in order; answers how many took effect. -/
def applyAll (s : Steering) (r : World) (ps : List PendingInput) : Nat × Steering × World :=
  ps.foldl
    (fun (n, s, r) p =>
      let (took, s, r) := s.apply r p
      (if took then n + 1 else n, s, r))
    (0, s, r)

def forget (s : Steering) (id : EntityId) : Steering :=
  { s with lastApplied := s.lastApplied.erase id }

end Steering

end Netplay
