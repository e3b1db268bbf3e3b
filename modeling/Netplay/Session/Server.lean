/-
  The game server.

  The server owns the world.  Clients join by their first input packet; the
  inputs that arrive wait in the inbox until the next tick, which applies them,
  records the world, tells every client of it at the configured rate, and drops
  the clients that have been silent for too long.

  Each operation gives the server after it and, in order, what has to be done
  outside: datagrams to send and dumps to write.  What comes of the sending is
  told to `settle`, which keeps the counters.

  * `tick`: one tick.
  * `handle`: one frame from an address.
  * `receive`: datagrams in order; `process`: what a socket answers to
    receiving, which is all set aside if it ends with a failure.
  * `turn`: one turn of the main loop; `run`: some turns.
-/
import Netplay.Packet.Lobby
import Netplay.Packet.Snapshot
import Netplay.Packet.Sync
import Netplay.Session.Roster
import Netplay.Session.Turn
import Netplay.Timeline.Dump
import Netplay.Timeline.Rewind
import Netplay.Transport.Traffic
import Netplay.World.Steering

namespace Netplay

structure ServerConfig where
  tickRate : UInt32 := Timestep.standardRate
  maxClients : Nat := 32
  /-- Snapshots go out every this many ticks. -/
  snapshotEvery : UInt32 := 3
  /-- Units per second. -/
  moveSpeed : Binary32 := Movement.standardSpeed
  /-- A client silent for longer is dropped. -/
  clientTimeout : Duration := 5 * Duration.perSecond
  inboxCapacity : Nat := 1024
  /-- Where dumps are written; nowhere unless set. -/
  dumpDirectory : Option String := none
  deriving DecidableEq

structure Server where
  config : ServerConfig
  port : UInt16
  world : World := .empty
  timeline : Timeline FullState := .empty
  inbox : Inbox
  steering : Steering
  roster : Roster := {}
  timestep : Timestep
  traffic : Traffic := {}

/-- What has to be done outside the server. -/
inductive Effect where
  | send (datagram : Datagram)
  | dump (tick : Tick) (bytes : Bytes)
  deriving DecidableEq

namespace Server

/-- The number of the server's only room. -/
def roomId : UInt32 := 1

def playerHealth : Int16 := 100

def playerLives : UInt8 := 3

def make (config : ServerConfig) (port : UInt16) : Server :=
  let timestep := Timestep.ofRate config.tickRate
  { config, port, timestep
    inbox := .ofCapacity config.inboxCapacity
    steering := { speed := config.moveSpeed, dt := timestep.dt } }

/-- The datagram of a message, if it fits a frame. -/
def post {μ : Type} [Message μ] (m : μ) (sequence : UInt16) (tick : Tick) (target : Address) :
    List Effect :=
  match Message.encode m sequence (UInt32.ofNat tick) with
  | .ok data => [.send ⟨target, data⟩]
  | .error _ => []

/-! ## Ticks -/

/-- Every entity with a transform, as snapshots show it. -/
def sightings (w : World) : List Sighting :=
  (w.entitiesWith .transform).filterMap fun id =>
    (w.get? .transform id).map fun t =>
      { id, position := t.position
        health := match w.get? .health id with
          | some h => h.current
          | none => 0 }

/-- The digests that go out with the snapshots of a tick. -/
def stateChecksum (s : Server) (tick : Tick) : StateChecksum :=
  { tick := UInt32.ofNat tick
    checksum := (s.timeline.checksum? tick).getD 0
    criticalChecksum := (s.timeline.critical? tick).getD 0
    entityCount := UInt16.ofNat (min (sightings s.world).length 65535) }

def snapshotFor (s : Server) (seat : Seat) : Snapshot :=
  { playerEntity := seat.entity
    lastInputSequence := (s.steering.lastApplied.get? seat.entity).getD 0
    entities := sightings s.world }

def broadcast (s : Server) (tick : Tick) : Server × List Effect :=
  let digests := s.stateChecksum tick
  ({ s with roster := ⟨s.roster.seats.map fun p =>
      (p.1, { p.2 with nextSequence := p.2.nextSequence + 2 })⟩ },
    s.roster.seats.flatMap fun p =>
      post (s.snapshotFor p.2) p.2.nextSequence tick p.1 ++
        post digests (p.2.nextSequence + 1) tick p.1)

def applyInbox (s : Server) : Server :=
  let (_, steering, world) := s.steering.applyAll s.world s.inbox.waiting
  { s with steering, world, inbox := s.inbox.clear }

def record (s : Server) (tick : Tick) : Server :=
  { s with timeline := (s.timeline.capture tick s.world).2 }

/-- Drop the clients that have been silent for too long, and their entities. -/
def dropSilent (s : Server) (now : Duration) : Server :=
  (s.roster.silent now s.config.clientTimeout).foldl
    (fun s seat => { s with
      world := (s.world.destroy seat.entity).2
      steering := s.steering.forget seat.entity })
    { s with roster := s.roster.withoutSilent now s.config.clientTimeout }

def tick (s : Server) (tick : Tick) (now : Duration) : Server × List Effect :=
  let s := s.applyInbox.record tick
  let (s, effects) :=
    if tick % max s.config.snapshotEvery.toNat 1 = 0 then s.broadcast tick else (s, [])
  (s.dropSilent now, effects)

def ticks (s : Server) (now : Duration) : List Tick → Server × List Effect
  | [] => (s, [])
  | t :: rest =>
    let (s, first) := s.tick t now
    let (s, later) := s.ticks now rest
    (s, first ++ later)

/-! ## Frames -/

/-- A new player's entity: at the origin, in full health. -/
def newPlayer (w : World) (id : EntityId) (playerId : UInt32) : World :=
  ((((w.attach .transform id (.placed .zero)).attach .health id (.full playerHealth)).attach
    .lives id playerLives).attach .score id 0).attach .controller id playerId

/-- Let a client join if there is room for it; answers its entity. -/
def join? (s : Server) (a : Address) (playerId : UInt32) (now : Duration) :
    Option (EntityId × Server) :=
  if s.roster.size ≥ s.config.maxClients then none
  else s.world.create?.map fun (id, world) =>
    (id, { s with
      world := newPlayer world id playerId
      roster := s.roster.append a { entity := id, lastHeard := now } })

/-- An input packet waits for the tick; with the first one of an address its
    client joins. -/
def queueInput (s : Server) (p : InputPacket) (source : Address) (now : Duration) : Server :=
  match s.roster.find? source with
  | some seat => { s with inbox := s.inbox.push seat.entity p }
  | none =>
    match s.join? source p.playerId now with
    | some (id, s) => { s with inbox := s.inbox.push id p }
    | none => s

def room (s : Server) : Room :=
  { id := roomId
    mode := .casual
    playerCount := UInt16.ofNat (min s.roster.size 65535)
    maxPlayers := UInt16.ofNat (min s.config.maxClients 65535)
    port := s.port
    phase := .inGame
    owner := 0
    passwordProtected := false
    visibility := .isPublic
    countdown := 0
    name := "strafe"
    inviteCode := "" }

def refusal? (s : Server) (request : JoinRoom) : Option String :=
  if request.roomId ≠ s.room.id then some "unknown room"
  else if s.room.isFull && !request.spectator then some "room is full"
  else none

def answerJoin (s : Server) (request : JoinRoom) (sequence : UInt16) (source : Address) :
    List Effect :=
  match s.refusal? request with
  | some reason => post (JoinFailed.mk (some reason)) sequence s.timestep.tick source
  | none => post (JoinSuccess.mk s.room.id s.room.port) sequence s.timestep.tick source

def dumpName (tick : Tick) : String := s!"desync-{tick}.bin"

/-- Answer a desync report for a recorded tick with a request to go back to it,
    and dump the tick. -/
def answerReport (s : Server) (report : DesyncReport) (source : Address) : Server × List Effect :=
  match s.timeline.find? report.tick.toNat with
  | none => (s, [])
  | some world =>
    let dumped := match (Dump.ofRecorded world).encode with
      | .ok bytes => [Effect.dump world.tick bytes]
      | .error _ => []
    let request : RollbackRequest := ⟨report.tick, UInt32.ofNat s.timestep.tick⟩
    let sequence := match s.roster.find? source with
      | some seat => seat.nextSequence
      | none => 0
    ({ s with roster := s.roster.takeSequences source 1 },
      dumped ++ post request sequence s.timestep.tick source)

def countDropped (s : Server) : Server := { s with traffic := s.traffic.countDropped }

/-- Handle a frame by its kind: inputs, pings, desync reports and the lobby's
    questions; everything else is passed over. -/
def handleKind (s : Server) (data : Bytes) (f : Frame) (source : Address) (now : Duration) :
    Server × List Effect :=
  let tick := s.timestep.tick
  match f.header.messageType with
  | .input =>
    match InputPacket.decode data with
    | some p => (s.queueInput p source now, [])
    | none => (s.countDropped, [])
  | .clientPing =>
    match Message.ofFrame? (μ := Ping) f with
    | some _ => (s, post Pong.mk f.header.sequence tick source)
    | none => (s, [])
  | .desyncDetected =>
    match Message.ofFrame? (μ := DesyncReport) f with
    | some (_, report) => s.answerReport report source
    | none => (s.countDropped, [])
  | .lobbyListRooms =>
    match Message.ofFrame? (μ := ListRooms) f with
    | some _ => (s, post (RoomList.mk [s.room]) f.header.sequence tick source)
    | none => (s, [])
  | .lobbyJoinRoom =>
    match Message.ofFrame? (μ := JoinRoom) f with
    | some (_, request) => (s, s.answerJoin request f.header.sequence source)
    | none => (s.countDropped, [])
  | _ => (s, [])

/-- Handle a frame; its sender, if a client, has been heard of. -/
def handle (s : Server) (data : Bytes) (f : Frame) (source : Address) (now : Duration) :
    Server × List Effect :=
  let (s, effects) := s.handleKind data f source now
  ({ s with roster := s.roster.heard source now }, effects)

def receiveOne (s : Server) (d : Datagram) (now : Duration) : Server × List Effect :=
  let s := { s with traffic := s.traffic.countReceived d.data.length }
  match Frame.decode d.data with
  | .ok f => s.handle d.data f d.peer now
  | .error _ => (s.countDropped, [])

def receive (s : Server) (now : Duration) : List Datagram → Server × List Effect
  | [] => (s, [])
  | d :: rest =>
    let (s, first) := s.receiveOne d now
    let (s, later) := s.receive now rest
    (s, first ++ later)

/-- Read the socket until it has nothing more.  If that ends with a failure,
    what was read before it is lost. -/
def process (s : Server) (now : Duration) (outcomes : List (Except SocketError Datagram)) :
    Except SocketError Unit × Server × List Effect :=
  match Endpoint.drainOutcomes outcomes with
  | (ds, .ok ()) => (.ok (), s.receive now ds)
  | (_, .error e) => (.error e, s, [])

/-! ## The main loop -/

def runTicks (s : Server) (now : Duration) : List Tick × Server × List Effect :=
  let (due, timestep) := s.timestep.consumeAll
  (due, ({ s with timestep := timestep }).ticks now due)

def turn (s : Server) (t : Turn) : Server × List Effect :=
  let s := { s with timestep := s.timestep.accumulate t.elapsed }
  let (_, s, first) := s.process t.now t.outcomes
  let (_, s, later) := s.runTicks t.now
  (s, first ++ later)

def run (s : Server) : List Turn → Server × List Effect
  | [] => (s, [])
  | t :: rest =>
    let (s, first) := s.turn t
    let (s, later) := s.run rest
    (s, first ++ later)

def sent (effects : List Effect) : List Datagram :=
  effects.filterMap fun
    | .send d => some d
    | .dump .. => none

/-- The dumps among the effects, by file name; of several under one name the
    last. -/
def dumps (effects : List Effect) : List (String × Bytes) :=
  effects.foldl (fun files => fun
    | .send _ => files
    | .dump tick bytes => files.filter (·.1 != dumpName tick) ++ [(dumpName tick, bytes)]) []

def settle (s : Server) (outcomes : List (Except SocketError Nat)) : Server :=
  { s with traffic := outcomes.foldl Traffic.countOutcome s.traffic }

end Server

end Netplay
