/-
  Messages by which client and server keep in step.

  * `StateChecksum`: the server's digests of its world at a tick.
  * `DesyncReport`: a client's digest for a tick differs from the server's.
  * `RollbackRequest`: the server asks a client to go back to an earlier tick;
    a request to go forward is refused when read.
  * `Ping` and `Pong`: a round trip, the answer under the sequence of the
    question.
-/
import Netplay.Packet.Message

namespace Netplay

/-- The server's digests of its world at a tick. -/
structure StateChecksum where
  tick : UInt32
  /-- Digest of all captured fields. -/
  checksum : UInt32
  /-- Digest of the fields that clients hold too. -/
  criticalChecksum : UInt32
  entityCount : UInt16
  deriving DecidableEq

instance : Message StateChecksum where
  messageType := .stateChecksum
  direction := .serverToClient
  write m := Bytes.be32 m.tick ++ Bytes.be32 m.checksum ++ Bytes.be32 m.criticalChecksum ++
    Bytes.be16 m.entityCount
  read := do
    let tick ← Reader.u32
    let checksum ← Reader.u32
    let criticalChecksum ← Reader.u32
    let entityCount ← Reader.u16
    return { tick, checksum, criticalChecksum, entityCount }

/-- The server asks a client to go back to `targetTick`. -/
structure RollbackRequest where
  targetTick : UInt32
  /-- The server's tick when it asked. -/
  currentTick : UInt32
  deriving DecidableEq

instance : Message RollbackRequest where
  messageType := .rollbackRequest
  direction := .serverToClient
  write m := Bytes.be32 m.targetTick ++ Bytes.be32 m.currentTick
  read := do
    let targetTick ← Reader.u32
    let currentTick ← Reader.u32
    if targetTick > currentTick then Reader.fail else return { targetTick, currentTick }

/-- A client's digest for `tick` is not the server's. -/
structure DesyncReport where
  tick : UInt32
  /-- The server's digest. -/
  expected : UInt32
  /-- The client's digest. -/
  actual : UInt32
  deriving DecidableEq

instance : Message DesyncReport where
  messageType := .desyncDetected
  direction := .clientToServer
  write m := Bytes.be32 m.tick ++ Bytes.be32 m.expected ++ Bytes.be32 m.actual
  read := do
    let tick ← Reader.u32
    let expected ← Reader.u32
    let actual ← Reader.u32
    return { tick, expected, actual }

/-- A client asks for an answer. -/
structure Ping where
  deriving DecidableEq

instance : Message Ping where
  messageType := .clientPing
  direction := .clientToServer
  write _ := []
  read := pure {}

/-- The server's answer to a ping. -/
structure Pong where
  deriving DecidableEq

instance : Message Pong where
  messageType := .serverPong
  direction := .serverToClient
  write _ := []
  read := pure {}

end Netplay
