/-
  Digests of captured worlds.

  A world is digested in ascending order of id: each entity's id and then its
  bytes.  The critical digest takes in only what server and clients share, so
  the two sides can compare theirs.
-/
import Netplay.Bytes.Crc32
import Netplay.World.EntityState

namespace Netplay

namespace Digest

variable {σ : Type} [EntityState σ]

/-- The bytes of a world, given those of each entity's state. -/
def stream (bytes : σ → Bytes) (world : EntityMap σ) : Bytes :=
  world.entries.flatMap fun p => Bytes.be32 p.1 ++ bytes p.2

/-- The digest of every captured field. -/
def full (world : EntityMap σ) : UInt32 := crc32 (stream EntityState.fieldBytes world)

/-- The digest of the fields that server and clients share. -/
def critical (world : EntityMap σ) : UInt32 := crc32 (stream EntityState.criticalBytes world)

end Digest

end Netplay
