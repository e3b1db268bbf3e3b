/-
  Snapshots: the server's world as told to one client.

  A snapshot names the entity that the client controls and the newest of its
  inputs that has been applied, and lists every entity with its position and
  health.  It is read only if the list is exactly as long as announced and
  every coordinate is finite.
-/
import Netplay.Numeric.Vec2
import Netplay.Packet.Message

namespace Netplay

/-- One entity as a snapshot shows it. -/
structure Sighting where
  id : UInt32
  position : Vec2
  health : Int16
  deriving DecidableEq

namespace Sighting

def wireSize : Nat := 14

def write (s : Sighting) : Bytes :=
  Bytes.be32 s.id ++ Bytes.ofBinary32 s.position.x ++ Bytes.ofBinary32 s.position.y ++
    Bytes.ofInt16 s.health

@[simp] theorem length_write (s : Sighting) : s.write.length = wireSize := by
  simp [write, wireSize, Bytes.ofBinary32, Bytes.ofInt16]

/-- Read one entity; its coordinates have to be finite. -/
def read : Reader Sighting := do
  let id ← Reader.u32
  let x ← Reader.f32
  let y ← Reader.f32
  let health ← Reader.i16
  if Vec2.isFinite ⟨x, y⟩ then return { id, position := ⟨x, y⟩, health } else Reader.fail

end Sighting

/-- The world as told to one client. -/
structure Snapshot where
  playerEntity : UInt32
  /-- The newest of the client's inputs that has been applied. -/
  lastInputSequence : UInt16
  entities : List Sighting
  deriving DecidableEq

namespace Snapshot

/-- The first entry of an entity. -/
def entity? (s : Snapshot) (id : UInt32) : Option Sighting :=
  s.entities.find? fun e => e.id == id

end Snapshot

instance : Message Snapshot where
  messageType := .snapshot
  direction := .serverToClient
  write m :=
    let listed := m.entities.take Bytes.maxPrefixed
    Bytes.be32 m.playerEntity ++ Bytes.be16 m.lastInputSequence ++
      Bytes.be16 (UInt16.ofNat listed.length) ++ listed.flatMap Sighting.write
  read := do
    let playerEntity ← Reader.u32
    let lastInputSequence ← Reader.u16
    let count ← Reader.u16
    if (← Reader.remaining) ≠ count.toNat * Sighting.wireSize then Reader.fail
    else return { playerEntity, lastInputSequence,
                  entities := ← Reader.times count.toNat Sighting.read }

end Netplay
