/-
  The sender: a loop that takes commands from a buffer, oldest first, and
  sends each as an input packet.

  At most one loop runs at a time; `start` opens the socket if need be and
  reports why it cannot, `step` is one turn of the loop, and `stop` ends the
  loop and closes the socket if it is the sender's own.
-/
import Netplay.Control.CommandBuffer
import Netplay.Transport.Socket
import Netplay.Transport.Traffic

namespace Netplay

/-- Where and as whom a sender sends. -/
structure SenderConfig where
  remote : Address := ⟨.localhost, Address.gamePort⟩
  bind : Address := ⟨.unspecified, 0⟩
  playerId : UInt32 := 0
  /-- The time from one turn of the loop to the next. -/
  interval : Duration := Duration.milliseconds 16
  deriving DecidableEq

/-- The sender, apart from its socket and its buffer. -/
structure Sender where
  config : SenderConfig
  /-- The socket is its own. -/
  ownsSocket : Bool
  playerId : UInt32
  running : Bool := false
  stats : Traffic := {}
  deriving DecidableEq

namespace Sender

def make (config : SenderConfig) (ownsSocket : Bool) : Sender :=
  { config, ownsSocket, playerId := config.playerId }

variable {σ : Type} [Socket σ]

/-- Open the socket if need be and make its calls not wait. -/
def prepare (s : Sender) (socket : σ) : Except SocketError Unit × σ :=
  let (opened, socket) :=
    if Socket.isOpen socket then (.ok (), socket)
    else Socket.openAt socket s.config.bind
  match opened with
  | .ok () => Socket.setNonblocking socket
  | .error e => (.error e, socket)

/-- Start the loop: nothing if it runs or the socket cannot be prepared, and
    then why not. -/
def start (s : Sender) (socket : σ) : Bool × Sender × σ × List SenderReport :=
  if s.running then (false, s, socket, [])
  else match s.prepare socket with
    | (.ok (), socket) => (true, { s with running := true }, socket, [])
    | (.error e, socket) => (false, s, socket, [.socketOpen s.config.bind e])

def packet (s : Sender) (c : Command) : Bytes := (c.toPacket s.playerId).encode

/-- Send one command; a failure that is not transient is counted and
    reported. -/
def sendCommand (s : Sender) (socket : σ) (c : Command) : Sender × σ × List SenderReport :=
  let (outcome, socket) := Socket.send socket (s.packet c) s.config.remote
  let reported := match outcome with
    | .ok _ => []
    | .error e => if e.isTransient then [] else [.send s.config.remote e]
  ({ s with stats := s.stats.countOutcome outcome }, socket, reported)

/-- One turn of the loop: the oldest command of the buffer, if there is one. -/
def step (s : Sender) (socket : σ) (buffer : CommandBuffer) :
    Sender × σ × CommandBuffer × List SenderReport :=
  match s.running, buffer.pop with
  | true, (some c, rest) =>
    let (s, socket, reported) := s.sendCommand socket c
    (s, socket, rest, reported)
  | _, _ => (s, socket, buffer, [])

/-- Turns of the loop until the buffer is empty. -/
def flush (s : Sender) (socket : σ) : List Command → Sender × σ × List SenderReport
  | [] => (s, socket, [])
  | c :: rest =>
    let (s, socket, first) := s.sendCommand socket c
    let (s, socket, later) := flush s socket rest
    (s, socket, first ++ later)

def stop (s : Sender) (socket : σ) : Sender × σ :=
  if s.running then
    ({ s with running := false }, if s.ownsSocket then Socket.close socket else socket)
  else (s, socket)

def setPlayerId (s : Sender) (playerId : UInt32) : Sender := { s with playerId := playerId }

end Sender

end Netplay
