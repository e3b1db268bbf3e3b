/-
  Messages of the lobby: listing, opening and joining rooms.

  A password travels as a text, empty if there is none, so an empty password
  reads as no password.  A refusal without a reason has an empty payload.
-/
import Netplay.Bytes.Utf8
import Netplay.Packet.Message

namespace Netplay

namespace Room

/-- Whether a room counts for ranking. -/
inductive Mode where
  | casual | ranked
  deriving DecidableEq

/-- How far a room's game has come. -/
inductive Phase where
  | waiting | countdown | inGame | finished
  deriving DecidableEq

/-- Whether a room is listed. -/
inductive Visibility where
  | isPublic | unlisted
  deriving DecidableEq

namespace Mode

def all : List Mode := [casual, ranked]

def code : Mode → UInt8
  | casual => 0
  | ranked => 1

def ofCode? : UInt8 → Option Mode
  | 0 => some casual
  | 1 => some ranked
  | _ => none

def name : Mode → String
  | casual => "Casual"
  | ranked => "Ranked"

end Mode

namespace Phase

def all : List Phase := [waiting, countdown, inGame, finished]

def code : Phase → UInt8
  | waiting => 0
  | countdown => 1
  | inGame => 2
  | finished => 3

def ofCode? : UInt8 → Option Phase
  | 0 => some waiting
  | 1 => some countdown
  | 2 => some inGame
  | 3 => some finished
  | _ => none

def name : Phase → String
  | waiting => "Waiting"
  | countdown => "Countdown"
  | inGame => "InGame"
  | finished => "Finished"

end Phase

namespace Visibility

def all : List Visibility := [isPublic, unlisted]

def code : Visibility → UInt8
  | isPublic => 0
  | unlisted => 1

def ofCode? : UInt8 → Option Visibility
  | 0 => some isPublic
  | 1 => some unlisted
  | _ => none

def name : Visibility → String
  | isPublic => "Public"
  | unlisted => "Unlisted"

end Visibility

end Room

/-- What the lobby tells of a room. -/
structure Room where
  id : UInt32
  mode : Room.Mode
  playerCount : UInt16
  maxPlayers : UInt16
  /-- Where its server listens. -/
  port : UInt16
  phase : Room.Phase
  /-- Who opened it. -/
  owner : UInt32
  passwordProtected : Bool
  visibility : Room.Visibility
  /-- Seconds to the start. -/
  countdown : UInt8
  name : String
  /-- The code under which friends find it. -/
  inviteCode : String
  deriving DecidableEq

namespace Room

def isFull (r : Room) : Bool := r.playerCount ≥ r.maxPlayers

def writeText (s : String) : Bytes := Bytes.behindLength (Utf8.encode s)

def write (r : Room) : Bytes :=
  Bytes.be32 r.id ++ [r.mode.code] ++ Bytes.be16 r.playerCount ++ Bytes.be16 r.maxPlayers ++
    Bytes.be16 r.port ++ [r.phase.code] ++ Bytes.be32 r.owner ++
    Bytes.ofBool r.passwordProtected ++ [r.visibility.code, r.countdown] ++
    writeText r.name ++ writeText r.inviteCode

def read : Reader Room := do
  let id ← Reader.u32
  let mode ← Reader.ofOption (Mode.ofCode? (← Reader.u8))
  let playerCount ← Reader.u16
  let maxPlayers ← Reader.u16
  let port ← Reader.u16
  let phase ← Reader.ofOption (Phase.ofCode? (← Reader.u8))
  let owner ← Reader.u32
  let passwordProtected ← Reader.bool
  let visibility ← Reader.ofOption (Visibility.ofCode? (← Reader.u8))
  let countdown ← Reader.u8
  let name ← Reader.text
  let inviteCode ← Reader.text
  return { id, mode, playerCount, maxPlayers, port, phase, owner, passwordProtected, visibility,
           countdown, name, inviteCode }

/-- A password as it travels: empty if there is none. -/
def writePassword (p : Option String) : Bytes := writeText (p.getD "")

/-- Read a password; an empty one is none. -/
def readPassword : Reader (Option String) := do
  let s ← Reader.text
  return if s.isEmpty then none else some s

end Room

/-- A client asks which rooms there are. -/
structure ListRooms where
  deriving DecidableEq

instance : Message ListRooms where
  messageType := .lobbyListRooms
  direction := .clientToServer
  write _ := []
  read := pure {}

/-- The rooms there are. -/
structure RoomList where
  rooms : List Room
  deriving DecidableEq

instance : Message RoomList where
  messageType := .lobbyRoomList
  direction := .serverToClient
  write m :=
    let listed := m.rooms.take Bytes.maxPrefixed
    Bytes.be16 (UInt16.ofNat listed.length) ++ listed.flatMap Room.write
  read := do
    let count ← Reader.u16
    return ⟨← Reader.times count.toNat Room.read⟩

/-- A client opens a room. -/
structure CreateRoom where
  name : String
  mode : Room.Mode
  maxPlayers : UInt16
  visibility : Room.Visibility
  password : Option String
  deriving DecidableEq

instance : Message CreateRoom where
  messageType := .lobbyCreateRoom
  direction := .clientToServer
  write m := Room.writeText m.name ++ [m.mode.code] ++ Bytes.be16 m.maxPlayers ++
    [m.visibility.code] ++ Room.writePassword m.password
  read := do
    let name ← Reader.text
    let mode ← Reader.ofOption (Room.Mode.ofCode? (← Reader.u8))
    let maxPlayers ← Reader.u16
    let visibility ← Reader.ofOption (Room.Visibility.ofCode? (← Reader.u8))
    let password ← Room.readPassword
    return { name, mode, maxPlayers, visibility, password }

/-- A room has been opened. -/
structure RoomCreated where
  roomId : UInt32
  port : UInt16
  deriving DecidableEq

instance : Message RoomCreated where
  messageType := .lobbyRoomCreated
  direction := .serverToClient
  write m := Bytes.be32 m.roomId ++ Bytes.be16 m.port
  read := do
    let roomId ← Reader.u32
    let port ← Reader.u16
    return { roomId, port }

/-- A client wants into a room. -/
structure JoinRoom where
  roomId : UInt32
  /-- Only to watch. -/
  spectator : Bool
  password : Option String
  deriving DecidableEq

instance : Message JoinRoom where
  messageType := .lobbyJoinRoom
  direction := .clientToServer
  write m := Bytes.be32 m.roomId ++ Bytes.ofBool m.spectator ++ Room.writePassword m.password
  read := do
    let roomId ← Reader.u32
    let spectator ← Reader.bool
    let password ← Room.readPassword
    return { roomId, spectator, password }

/-- A client may enter a room. -/
structure JoinSuccess where
  roomId : UInt32
  port : UInt16
  deriving DecidableEq

instance : Message JoinSuccess where
  messageType := .lobbyJoinSuccess
  direction := .serverToClient
  write m := Bytes.be32 m.roomId ++ Bytes.be16 m.port
  read := do
    let roomId ← Reader.u32
    let port ← Reader.u16
    return { roomId, port }

/-- A client may not enter a room. -/
structure JoinFailed where
  reason : Option String
  deriving DecidableEq

instance : Message JoinFailed where
  messageType := .lobbyJoinFailed
  direction := .serverToClient
  write m := match m.reason with
    | none => []
    | some reason => Room.writeText reason
  read := do
    if (← Reader.remaining) = 0 then return ⟨none⟩
    else return ⟨some (← Reader.text)⟩

end Netplay
