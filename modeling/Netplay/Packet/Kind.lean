/-
  What a packet is and which way it travels.

  Every packet names its kind and its direction by one byte each.
  `MessageType.ofCode?` reads exactly the codes that `MessageType.code` writes.
-/
import Netplay.Bytes.Word

namespace Netplay

/-- Which way a packet travels. -/
inductive Direction where
  | clientToServer
  | serverToClient
  deriving DecidableEq

namespace Direction

/-- The byte that names the direction. -/
def code : Direction → UInt8
  | clientToServer => 0x01
  | serverToClient => 0x02

def all : List Direction := [clientToServer, serverToClient]

def ofCode? (b : UInt8) : Option Direction := all.find? fun d => d.code == b

def name : Direction → String
  | clientToServer => "ClientToServer"
  | serverToClient => "ServerToClient"

end Direction

/-- The kinds of packet. -/
inductive MessageType where
  | invalid
  | clientHello
  | clientJoinRequest
  | clientReady
  | clientPing
  | input
  | clientAcknowledge
  | clientDisconnect
  | serverHello
  | serverJoinAccept
  | serverJoinDeny
  | serverPong
  | snapshot
  | gameStart
  | gameEnd
  | serverKick
  | serverDisconnect
  | playerDisconnected
  | entitySpawn
  | entityDestroyed
  | lobbyListRooms
  | lobbyRoomList
  | lobbyCreateRoom
  | lobbyRoomCreated
  | lobbyJoinRoom
  | lobbyJoinSuccess
  | lobbyJoinFailed
  | lobbyPasswordRequired
  | lobbyPasswordIncorrect
  | lobbyLeaveRoom
  | stateChecksum
  | rollbackRequest
  | desyncDetected
  deriving DecidableEq

namespace MessageType

/-- The byte that names the kind: clients' packets from 0, the server's from
    `0x10`, the lobby's from `0x40`, those on synchrony from `0x60`. -/
def code : MessageType → UInt8
  | invalid => 0x00
  | clientHello => 0x01
  | clientJoinRequest => 0x02
  | clientReady => 0x03
  | clientPing => 0x04
  | input => 0x05
  | clientAcknowledge => 0x06
  | clientDisconnect => 0x07
  | serverHello => 0x10
  | serverJoinAccept => 0x11
  | serverJoinDeny => 0x12
  | serverPong => 0x13
  | snapshot => 0x14
  | gameStart => 0x15
  | gameEnd => 0x16
  | serverKick => 0x17
  | serverDisconnect => 0x1A
  | playerDisconnected => 0x1C
  | entitySpawn => 0x1D
  | entityDestroyed => 0x1E
  | lobbyListRooms => 0x40
  | lobbyRoomList => 0x41
  | lobbyCreateRoom => 0x42
  | lobbyRoomCreated => 0x43
  | lobbyJoinRoom => 0x44
  | lobbyJoinSuccess => 0x45
  | lobbyJoinFailed => 0x46
  | lobbyPasswordRequired => 0x47
  | lobbyPasswordIncorrect => 0x48
  | lobbyLeaveRoom => 0x49
  | stateChecksum => 0x60
  | rollbackRequest => 0x61
  | desyncDetected => 0x62

def all : List MessageType :=
  [invalid, clientHello, clientJoinRequest, clientReady, clientPing, input, clientAcknowledge,
    clientDisconnect, serverHello, serverJoinAccept, serverJoinDeny, serverPong, snapshot,
    gameStart, gameEnd, serverKick, serverDisconnect, playerDisconnected, entitySpawn,
    entityDestroyed, lobbyListRooms, lobbyRoomList, lobbyCreateRoom, lobbyRoomCreated,
    lobbyJoinRoom, lobbyJoinSuccess, lobbyJoinFailed, lobbyPasswordRequired,
    lobbyPasswordIncorrect, lobbyLeaveRoom, stateChecksum, rollbackRequest, desyncDetected]

def ofCode? (b : UInt8) : Option MessageType := all.find? fun t => t.code == b

def name : MessageType → String
  | invalid => "Invalid"
  | clientHello => "ClientHello"
  | clientJoinRequest => "ClientJoinRequest"
  | clientReady => "ClientReady"
  | clientPing => "ClientPing"
  | input => "Input"
  | clientAcknowledge => "ClientAcknowledge"
  | clientDisconnect => "ClientDisconnect"
  | serverHello => "ServerHello"
  | serverJoinAccept => "ServerJoinAccept"
  | serverJoinDeny => "ServerJoinDeny"
  | serverPong => "ServerPong"
  | snapshot => "Snapshot"
  | gameStart => "GameStart"
  | gameEnd => "GameEnd"
  | serverKick => "ServerKick"
  | serverDisconnect => "ServerDisconnect"
  | playerDisconnected => "PlayerDisconnected"
  | entitySpawn => "EntitySpawn"
  | entityDestroyed => "EntityDestroyed"
  | lobbyListRooms => "LobbyListRooms"
  | lobbyRoomList => "LobbyRoomList"
  | lobbyCreateRoom => "LobbyCreateRoom"
  | lobbyRoomCreated => "LobbyRoomCreated"
  | lobbyJoinRoom => "LobbyJoinRoom"
  | lobbyJoinSuccess => "LobbyJoinSuccess"
  | lobbyJoinFailed => "LobbyJoinFailed"
  | lobbyPasswordRequired => "LobbyPasswordRequired"
  | lobbyPasswordIncorrect => "LobbyPasswordIncorrect"
  | lobbyLeaveRoom => "LobbyLeaveRoom"
  | stateChecksum => "StateChecksum"
  | rollbackRequest => "RollbackRequest"
  | desyncDetected => "DesyncDetected"

theorem ofCode?_code (t : MessageType) : ofCode? t.code = some t := by
  cases t <;> decide

theorem eq_code_of_ofCode? {b : UInt8} {t : MessageType} (h : ofCode? b = some t) :
    b = t.code := by
  have := List.find?_some h
  simpa using (beq_iff_eq.1 this).symm

end MessageType

theorem Direction.ofCode?_code (d : Direction) : ofCode? d.code = some d := by
  cases d <;> decide

theorem Direction.eq_code_of_ofCode? {b : UInt8} {d : Direction} (h : ofCode? b = some d) :
    b = d.code := by
  have := List.find?_some h
  simpa using (beq_iff_eq.1 this).symm

end Netplay
