/-
  The game client.

  A client keeps two worlds: `authority`, the server's as last told, and
  `world`, in which its own player is predicted.  Each tick a command is taken
  from the script, applied to the player at once, logged, and put into the
  buffer from which the sender sends it.  A snapshot replaces the authority, is
  recorded, and corrects the prediction; the server's digests are compared with
  the client's own, and a difference is reported; a request to go back rewinds
  the authority.

  Handlers give the client after them and the datagrams to send to the server,
  in order.  What comes of the sending is told to `settle`.
-/
import Netplay.Control.Script
import Netplay.Packet.Sequence
import Netplay.Packet.Snapshot
import Netplay.Packet.Sync
import Netplay.Prediction.Corrector
import Netplay.Session.Turn
import Netplay.Timeline.Rewind
import Netplay.Transport.Sender

namespace Netplay

structure ClientConfig where
  server : Address := ⟨.localhost, Address.gamePort⟩
  bind : Address := ⟨.unspecified, 0⟩
  playerId : UInt32 := 1
  tickRate : UInt32 := Timestep.standardRate
  /-- The time from one input packet to the next. -/
  sendInterval : Duration := Duration.milliseconds 16
  pingInterval : Duration := Duration.milliseconds 250
  /-- The least time from one desync report to the next. -/
  reportInterval : Duration := Duration.perSecond
  /-- How long the script is played. -/
  duration : Duration := 30 * Duration.perSecond
  tolerance : Tolerance := {}
  deriving DecidableEq

structure Client where
  config : ClientConfig
  /-- The commands that the sender has not taken yet. -/
  buffer : CommandBuffer := []
  sender : Sender
  world : World := .empty
  authority : World := .empty
  /-- The authorities of the last snapshots. -/
  timeline : Timeline CoreState := .empty
  /-- How often the server took the client back. -/
  rollbacks : Nat := 0
  corrector : Corrector
  script : Script := .standard
  timestep : Timestep
  player : Option EntityId := none
  /-- The number of the last command. -/
  inputSequence : UInt32 := 0
  /-- The newest command that the server is known to have applied. -/
  lastAck : UInt32 := 0
  lastSnapshotTick : Option UInt32 := none
  /-- The sequence of the next ping or report. -/
  controlSequence : UInt16 := 0
  lastPing : Duration
  lastReport : Option Duration := none
  corrections : Nat := 0
  /-- What has been sent and received, input packets apart. -/
  traffic : Traffic := {}

namespace Client

def make (config : ClientConfig) (now : Duration) : Client :=
  { config
    sender := Sender.make
      { remote := config.server, bind := config.bind, playerId := config.playerId,
        interval := config.sendInterval } false
    corrector := { config := config.tolerance }
    timestep := .ofRate config.tickRate
    lastPing := now }

/-! ## Ticks -/

def predict (c : Client) (held : Buttons) (angle : Binary32) (t : Transform) : Transform :=
  ⟨Movement.apply t.position held c.config.tolerance.moveSpeed c.timestep.dt, angle⟩

/-- One tick: the script's next command, applied to the player, logged and
    buffered. -/
def tick (c : Client) : Client :=
  let (held, angle) := c.script.sample
  let sequence := c.inputSequence + 1
  let command (position : Vec2) : Command :=
    { sequence, buttons := held, position, angle, deltaTime := c.timestep.dt }
  let (world, position) := match c.player with
    | none => (c.world, Vec2.zero)
    | some id =>
      let world := c.world.modify .transform id (c.predict held angle)
      let position := match world.get? .transform id with
        | some t => t.position
        | none => .zero
      (world.modify .history id fun h => h.push (command position), position)
  { c with
    script := c.script.advance
    inputSequence := sequence
    world
    buffer := c.buffer.push (command position) }

/-! ## Messages to the server -/

def post {μ : Type} [Message μ] (c : Client) (m : μ) : Client × List Bytes :=
  ({ c with controlSequence := c.controlSequence + 1 },
    match Message.encode m c.controlSequence (UInt32.ofNat c.timestep.tick) with
    | .ok data => [data]
    | .error _ => [])

def ping (c : Client) (now : Duration) : Client × List Bytes :=
  post { c with
    lastPing := now
    traffic := c.traffic.notePing c.controlSequence now } Ping.mk

/-! ## Messages from the server -/

def adoptOne (w : World) (e : Sighting) : World :=
  let put (w : World) : World :=
    (w.attach .transform e.id (.placed e.position)).attach .health e.id (.full e.health)
  if w.isAlive e.id then put w
  else match w.spawn e.id with
    | (true, w) => put w
    | (false, w) => w

/-- Make an authority hold exactly the entities of a snapshot. -/
def adopt (w : World) (snapshot : Snapshot) : World :=
  let gone := (w.entitiesWith .transform).filter fun id => (snapshot.entity? id).isNone
  let w := gone.foldl (fun w id => (w.destroy id).2) w
  snapshot.entities.foldl adoptOne w

/-- Take control of the entity that a snapshot names, where it was seen. -/
def takeControl (c : Client) (seen : Sighting) : Option Client :=
  match c.world.spawn seen.id with
  | (false, _) => none
  | (true, w) => some { c with
      world := (w.attach .transform seen.id (.placed seen.position)).attach .history seen.id .empty
      sender := c.sender.setPlayerId seen.id
      player := some seen.id }

/-- Correct the prediction of the player by a position of the server. -/
def reconcile (c : Client) (id : EntityId) (position : Vec2) : Verdict × Client :=
  let (verdict, corrector, world) := c.corrector.reconcile c.world id position c.lastAck
  (verdict, { c with corrector, world })

def follow (c : Client) (snapshot : Snapshot) (id : EntityId) (seen : Sighting) : Client :=
  let c := { c with lastAck := Sequence.widen c.inputSequence snapshot.lastInputSequence }
  match c.reconcile id seen.position with
  | (.corrected .., c) => { c with corrections := c.corrections + 1 }
  | (_, c) => c

/-- A snapshot for a tick; one that is not newer than the last is passed
    over. -/
def applySnapshot (c : Client) (tick : UInt32) (snapshot : Snapshot) : Client :=
  if c.lastSnapshotTick.any fun last => tick ≤ last then c
  else
    let authority := adopt c.authority snapshot
    let c := { c with
      lastSnapshotTick := some tick
      authority
      timeline := (c.timeline.capture tick.toNat authority).2 }
    match snapshot.entity? snapshot.playerEntity with
    | none => c
    | some seen =>
      match c.player with
      | some id => c.follow snapshot id seen
      | none =>
        match c.takeControl seen with
        | some c => c.follow snapshot seen.id seen
        | none => c

/-- A report has been sent so recently that another has to wait. -/
def isThrottled (c : Client) (now : Duration) : Bool :=
  c.lastReport.any fun last => now - last < c.config.reportInterval

/-- The server's digests for a tick: a recorded tick with another critical
    digest is reported. -/
def compareDigests (c : Client) (m : StateChecksum) (now : Duration) : Client × List Bytes :=
  match c.timeline.critical? m.tick.toNat with
  | none => (c, [])
  | some own =>
    if own = m.criticalChecksum || c.isThrottled now then (c, [])
    else ({ c with lastReport := some now }).post
      (DesyncReport.mk m.tick m.criticalChecksum own)

/-- A client counts how often it was taken back. -/
def countRollback (_ _ : Tick) (rollbacks : Nat) : Nat := rollbacks + 1

/-- A request to go back: the authority is rewound, and the prediction
    corrected by it.  A request for a tick that is not recorded is passed
    over. -/
def goBack (c : Client) (m : RollbackRequest) : Client :=
  match c.timeline.rewindCalling (some countRollback) m.targetTick.toNat m.currentTick.toNat
    c.authority c.rollbacks with
  | (false, _, _) => c
  | (true, authority, rollbacks) =>
    let c := { c with authority, rollbacks }
    match c.player with
    | none => c
    | some id =>
      match c.authority.get? .transform id with
      | none => c
      | some t => (c.reconcile id t.position).2

def takePong (c : Client) (sequence : UInt16) (now : Duration) : Client :=
  { c with traffic := (c.traffic.notePong sequence now).2 }

def countDropped (c : Client) : Client := { c with traffic := c.traffic.countDropped }

/-- Handle a frame by its kind: snapshots, digests, requests to go back and
    pongs; everything else is passed over. -/
def handle (c : Client) (f : Frame) (now : Duration) : Client × List Bytes :=
  match f.header.messageType with
  | .snapshot =>
    match Message.ofFrame? (μ := Snapshot) f with
    | some (h, snapshot) => (c.applySnapshot h.tick snapshot, [])
    | none => (c.countDropped, [])
  | .stateChecksum =>
    match Message.ofFrame? (μ := StateChecksum) f with
    | some (_, m) => c.compareDigests m now
    | none => (c.countDropped, [])
  | .rollbackRequest =>
    match Message.ofFrame? (μ := RollbackRequest) f with
    | some (_, m) => (c.goBack m, [])
    | none => (c.countDropped, [])
  | .serverPong =>
    match Message.ofFrame? (μ := Pong) f with
    | some (h, _) => (c.takePong h.sequence now, [])
    | none => (c.countDropped, [])
  | _ => (c, [])

def receiveOne (c : Client) (data : Bytes) (now : Duration) : Client × List Bytes :=
  let c := { c with traffic := c.traffic.countReceived data.length }
  match Frame.decode data with
  | .ok f => c.handle f now
  | .error _ => (c.countDropped, [])

def receive (c : Client) (now : Duration) : List Bytes → Client × List Bytes
  | [] => (c, [])
  | data :: rest =>
    let (c, first) := c.receiveOne data now
    let (c, later) := c.receive now rest
    (c, first ++ later)

/-- Read the socket until it has nothing more.  If that ends with a failure,
    what was read before it is lost. -/
def process (c : Client) (now : Duration) (outcomes : List (Except SocketError Datagram)) :
    Except SocketError Unit × Client × List Bytes :=
  match Endpoint.drainOutcomes outcomes with
  | (ds, .ok ()) => (.ok (), c.receive now (ds.map (·.data)))
  | (_, .error e) => (.error e, c, [])

/-! ## The main loop -/

def runTicks (c : Client) : List Tick × Client :=
  let (due, timestep) := c.timestep.consumeAll
  (due, due.foldl (fun c _ => c.tick) { c with timestep })

def start {σ : Type} [Socket σ] (c : Client) (socket : σ) : Bool × Client × σ :=
  let (started, sender, socket, _) := c.sender.start socket
  (started, { c with sender }, socket)

def sendNext {σ : Type} [Socket σ] (c : Client) (socket : σ) : Client × σ :=
  let (sender, socket, buffer, _) := c.sender.step socket c.buffer
  ({ c with sender, buffer }, socket)

def stop {σ : Type} [Socket σ] (c : Client) (socket : σ) : Client × σ :=
  let (sender, socket) := c.sender.stop socket
  ({ c with sender }, socket)

/-- One turn of the main loop: read the socket, tick, and ping when it is
    time. -/
def turn (c : Client) (t : Turn) : Client × List Bytes :=
  let c := { c with timestep := c.timestep.accumulate t.elapsed }
  let (_, c, first) := c.process t.now t.outcomes
  let (_, c) := c.runTicks
  if t.now - c.lastPing ≥ c.config.pingInterval then
    let (c, later) := c.ping t.now
    (c, first ++ later)
  else (c, first)

def turns (c : Client) : List Turn → Client × List Bytes
  | [] => (c, [])
  | t :: rest =>
    let (c, first) := c.turn t
    let (c, later) := c.turns rest
    (c, first ++ later)

/-- Play for some turns of the main loop: the sender runs meanwhile, and there
    is nothing to play if it does not start. -/
def run {σ : Type} [Socket σ] (c : Client) (socket : σ) (ts : List Turn) :
    Bool × Client × σ × List Bytes :=
  match c.start socket with
  | (false, c, socket) => (false, c, socket, [])
  | (true, c, socket) =>
    let (c, sent) := c.turns ts
    let (c, socket) := c.stop socket
    (true, c, socket, sent)

def settle (c : Client) (outcomes : List (Except SocketError Nat)) : Client :=
  { c with traffic := outcomes.foldl Traffic.countOutcome c.traffic }

end Client

end Netplay
