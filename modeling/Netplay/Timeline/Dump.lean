/-
  Dumps of recorded worlds, for looking into a desync afterwards.

  A dump is a row of 32-byte entity records in ascending order of id, and
  behind it a 24-byte root: tick, digest, where the records start and how many
  there are.  Words are little-endian.  The start is counted from the place
  where it is written, so it is a negative number; fields that alignment leaves
  unused are zero when written and passed over when read.

  * `Dump.encode` fails only for so many records that the start would not fit.
  * `Dump.decode` asks that the root lies on a multiple of eight, and that the
    records lie on a multiple of four, in front of the root.
-/
import Netplay.Bytes.Reader
import Netplay.Timeline.Basic
import Netplay.World.EntityState

namespace Netplay

structure Dump where
  tick : UInt64
  /-- Its digest when it was recorded. -/
  checksum : UInt32
  records : List (EntityId × FullState)
  deriving DecidableEq

/-- Why there is no dump. -/
inductive DumpError where
  /-- The records would not fit in front of the root. -/
  | tooManyRecords
  | malformed
  deriving DecidableEq

namespace Dump

def recordSize : Nat := 32

def rootSize : Nat := 24

/-- Where in the root the start of the records is written. -/
def startField : Nat := 12

/-- The most records whose start can be written. -/
def maxRecords : Nat := 67108863

/-- The dump of a recorded world; whether a state was captured is not dumped. -/
def ofRecorded (world : Recorded FullState) : Dump :=
  { tick := UInt64.ofNat world.tick
    checksum := world.checksum
    records := world.entities.entries.map fun p => (p.1, { p.2 with initialized := true }) }

/-- The entities of a dump; of several records for one id the last counts. -/
def entities (d : Dump) : EntityMap FullState := EntityMap.ofList d.records

def le32 (w : UInt32) : Bytes := Bytes.littleEndian 4 w.toNat

def writeRecord (p : EntityId × FullState) : Bytes :=
  le32 p.1 ++ le32 p.2.position.x.bits ++ le32 p.2.position.y.bits ++
    le32 p.2.velocity.x.bits ++ le32 p.2.velocity.y.bits ++
    Bytes.littleEndian 2 p.2.health.toUInt16.toNat ++ [p.2.lives, 0] ++
    le32 p.2.score.toUInt32 ++ [p.2.status, p.2.typeId, 0, 0]

/-- The number of four-byte words, by which a negative distance wraps. -/
def wordRange : Nat := 4294967296

/-- The bytes of a root behind `count` records. -/
def writeRoot (tick : UInt64) (checksum : UInt32) (count : Nat) : Bytes :=
  Bytes.littleEndian 8 tick.toNat ++ le32 checksum ++
    Bytes.littleEndian 4 (wordRange - (recordSize * count + startField)) ++
    Bytes.littleEndian 4 count ++ [0, 0, 0, 0]

def encode (d : Dump) : Except DumpError Bytes :=
  if d.records.length ≤ maxRecords then
    .ok (d.records.flatMap writeRecord ++ writeRoot d.tick d.checksum d.records.length)
  else .error .tooManyRecords

/-- The next `w` bytes as a number, least significant first. -/
def readLittle (w : Nat) : Reader Nat := do return Bytes.ofLittleEndian (← Reader.take w)

def readBinary32 : Reader Binary32 := do return ⟨UInt32.ofNat (← readLittle 4)⟩

def readRecord : Reader (EntityId × FullState) := do
  let id ← readLittle 4
  let position : Vec2 := ⟨← readBinary32, ← readBinary32⟩
  let velocity : Vec2 := ⟨← readBinary32, ← readBinary32⟩
  let health ← readLittle 2
  let lives ← Reader.u8
  let _ ← Reader.take 1
  let score ← readLittle 4
  let status ← Reader.u8
  let typeId ← Reader.u8
  let _ ← Reader.take 2
  return (UInt32.ofNat id,
    { position, velocity
      health := (UInt16.ofNat health).toInt16
      lives
      score := (UInt32.ofNat score).toInt32
      status, typeId })

/-- Read a root: tick, digest, start of the records counted from its own
    place, and their number. -/
def readRoot : Reader (UInt64 × UInt32 × Int × Nat) := do
  let tick ← readLittle 8
  let checksum ← readLittle 4
  let start ← readLittle 4
  let count ← readLittle 4
  return (UInt64.ofNat tick, UInt32.ofNat checksum, (UInt32.ofNat start).toInt32.toInt, count)

def decode (bs : Bytes) : Except DumpError Dump :=
  if bs.length < rootSize then .error .malformed
  else
    let root := bs.length - rootSize
    match (readRoot (bs.drop root)).1 with
    | none => .error .malformed
    | some (tick, checksum, start, count) =>
      let first : Int := root + startField + start
      if root % 8 ≠ 0 ∨ first % 4 ≠ 0 ∨ first < 0 ∨ first + recordSize * count > root then
        .error .malformed
      else match (Reader.times count readRecord (bs.drop first.toNat)).1 with
        | some records => .ok { tick, checksum, records }
        | none => .error .malformed

end Dump

end Netplay
