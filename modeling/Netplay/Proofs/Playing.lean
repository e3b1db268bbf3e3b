/-
  What one operation of a client does.

  * `act_cases`: of itself a client ticks, sends a command, or changes clocks and
    counters;
  * `receiveOne_cases`: a datagram is a snapshot, digests, a request to go back,
    or it changes counters only;
  * `applySnapshot_cases`: a snapshot is stale, or it replaces the authority and
    then says something of the player or not;
  * `lastAck_applySnapshot`, `keepsNewer_receiveOne`: what is taken for confirmed,
    and what the history keeps;
  * `tick_cases`: the next command is issued;
  * `tuned_performAll`: prediction and correction go by one set-up.
-/
import Netplay.Proofs.Rings
import Netplay.Proofs.Runs
import Netplay.Proofs.Windows
import Netplay.Proofs.Wire

namespace Netplay

namespace Client

/-! ## Acts -/

theorem post_eq {μ : Type} [Message μ] (c : Client) (m : μ) :
    c.post m = ({ c with controlSequence := c.controlSequence + 1 }, (c.post m).2) := rfl

theorem mem_post {μ : Type} [Message μ] {c : Client} {m : μ} {data : Bytes}
    (h : data ∈ (c.post m).2) :
    Message.encode m c.controlSequence (UInt32.ofNat c.timestep.tick) = .ok data := by
  unfold post at h
  dsimp only at h
  split at h
  · rename_i data' hdata
    cases List.mem_singleton.1 h
    exact hdata
  · cases h

theorem sendNext_cases (c : Client) (answer : Except SocketError Unit) :
    (∃ command rest sender, c.buffer = command :: rest ∧ c.sender.running = true ∧
      c.act (.send answer) = ({ c with sender, buffer := rest }, [c.sender.packet command])) ∨
    c.act (.send answer) = (c, []) := by
  unfold act sendNext Sender.step
  dsimp only
  cases hrunning : c.sender.running with
  | false => exact Or.inr rfl
  | true =>
    cases hbuffer : c.buffer with
    | nil =>
      right
      rw [CommandBuffer.pop_nil, ← hbuffer]
      rfl
    | cons command rest => exact Or.inl ⟨command, rest, _, rfl, rfl, rfl⟩

/-- **What a client does of itself.** -/
theorem act_cases (c : Client) (a : Act) :
    (∃ t, t.step = c.timestep.step ∧ c.act a = ({ c.tick with timestep := t }, [])) ∨
    (∃ command rest sender, c.buffer = command :: rest ∧
      c.act a = ({ c with sender, buffer := rest }, [c.sender.packet command])) ∨
    (∃ timestep sender controlSequence lastPing traffic out,
      timestep.step = c.timestep.step ∧
      c.act a = ({ c with timestep, sender, controlSequence, lastPing, traffic }, out) ∧
      ∀ data ∈ out, ∃ sequence tick, Message.encode Ping.mk sequence tick = .ok data) := by
  have hquiet : ∀ (timestep : Timestep) (sender : Sender) (traffic : Traffic),
      timestep.step = c.timestep.step → ∃ timestep' sender' controlSequence lastPing traffic',
        ∃ out : List Bytes, timestep'.step = c.timestep.step ∧
          (({ c with timestep, sender, traffic } : Client), ([] : List Bytes)) =
            ({ c with timestep := timestep', sender := sender', controlSequence, lastPing,
                      traffic := traffic' }, out) ∧
          ∀ data ∈ out, ∃ sequence tick, Message.encode Ping.mk sequence tick = .ok data :=
    fun timestep sender traffic h => ⟨timestep, sender, _, _, traffic, [], h, rfl, by simp⟩
  cases a with
  | elapse d => exact Or.inr (Or.inr (hquiet _ c.sender c.traffic rfl))
  | tick =>
    unfold act
    dsimp only
    split
    · exact Or.inr (Or.inr (hquiet c.timestep c.sender c.traffic rfl))
    · rename_i n t h
      have hstep : t.step = c.timestep.step := by rw [(Timestep.step_of_consume h).2]
      exact Or.inl ⟨t, hstep, by rw [tick_timestep c hstep]⟩
  | ping now =>
    refine Or.inr (Or.inr ⟨c.timestep, c.sender, _, _, _, _, rfl, rfl, fun data hdata => ?_⟩)
    exact ⟨_, _, mem_post hdata⟩
  | start answer => exact Or.inr (Or.inr (hquiet c.timestep _ c.traffic rfl))
  | send answer =>
    rcases c.sendNext_cases answer with ⟨command, rest, sender, hbuffer, -, h⟩ | h
    · exact Or.inr (Or.inl ⟨command, rest, sender, hbuffer, h⟩)
    · rw [h]
      exact Or.inr (Or.inr (hquiet c.timestep c.sender c.traffic rfl))
  | stop => exact Or.inr (Or.inr (hquiet c.timestep _ c.traffic rfl))
  | settle outcomes => exact Or.inr (Or.inr (hquiet c.timestep c.sender _ rfl))

/-! ## Datagrams -/

/-- **What a datagram does to a client.** -/
theorem receiveOne_cases (c : Client) (data : Bytes) (now : Duration) :
    (∃ traffic h m, Message.decode (μ := Snapshot) data = some (h, m) ∧
      c.receiveOne data now = (({ c with traffic }).applySnapshot h.tick m, [])) ∨
    (∃ traffic h m, Message.decode (μ := StateChecksum) data = some (h, m) ∧
      c.receiveOne data now = ({ c with traffic }).compareDigests m now) ∨
    (∃ traffic h m, Message.decode (μ := RollbackRequest) data = some (h, m) ∧
      c.receiveOne data now = (({ c with traffic }).goBack m, [])) ∨
    (∃ traffic, c.receiveOne data now = ({ c with traffic }, [])) := by
  unfold receiveOne Message.decode
  dsimp only
  cases hf : Frame.decode data with
  | error e => exact Or.inr (Or.inr (Or.inr ⟨_, rfl⟩))
  | ok f =>
    dsimp only
    unfold handle
    split
    · split
      · rename_i h m hm
        exact Or.inl ⟨_, h, m, hm, rfl⟩
      · exact Or.inr (Or.inr (Or.inr ⟨_, rfl⟩))
    · split
      · rename_i h m hm
        exact Or.inr (Or.inl ⟨_, h, m, hm, rfl⟩)
      · exact Or.inr (Or.inr (Or.inr ⟨_, rfl⟩))
    · split
      · rename_i h m hm
        exact Or.inr (Or.inr (Or.inl ⟨_, h, m, hm, rfl⟩))
      · exact Or.inr (Or.inr (Or.inr ⟨_, rfl⟩))
    · split
      · exact Or.inr (Or.inr (Or.inr ⟨_, rfl⟩))
      · exact Or.inr (Or.inr (Or.inr ⟨_, rfl⟩))
    · exact Or.inr (Or.inr (Or.inr ⟨_, rfl⟩))

/-- A snapshot for the tick has nothing new to say. -/
def IsStale (c : Client) (n : UInt32) : Prop := ∃ last, c.lastSnapshotTick = some last ∧ n ≤ last

theorem isStale_iff (c : Client) (n : UInt32) :
    (c.lastSnapshotTick.any fun last => n ≤ last) = true ↔ c.IsStale n := by
  rw [Option.any_eq_true]
  simp [IsStale]

instance (c : Client) (n : UInt32) : Decidable (c.IsStale n) :=
  decidable_of_iff _ (c.isStale_iff n)

/-- The client with the authority of a snapshot, before anything is said of the
    player. -/
def adopting (c : Client) (n : UInt32) (m : Snapshot) : Client :=
  { c with
    lastSnapshotTick := some n
    authority := adopt c.authority m
    timeline := (c.timeline.capture n.toNat (adopt c.authority m)).2 }

theorem applySnapshot_of_stale {c : Client} {n : UInt32} (h : c.IsStale n) (m : Snapshot) :
    c.applySnapshot n m = c := by
  rw [applySnapshot, if_pos ((c.isStale_iff n).2 h)]

theorem applySnapshot_of_fresh {c : Client} {n : UInt32} (h : ¬ c.IsStale n) (m : Snapshot) :
    c.applySnapshot n m = match m.entity? m.playerEntity with
      | none => c.adopting n m
      | some seen =>
        match c.player with
        | some id => (c.adopting n m).follow m id seen
        | none =>
          match (c.adopting n m).takeControl seen with
          | some taken => taken.follow m seen.id seen
          | none => c.adopting n m := by
  rw [applySnapshot, if_neg fun hs => h ((c.isStale_iff n).1 hs)]
  rfl

/-- **What a snapshot does to a client**: nothing, or it is adopted and says
    nothing of the player, or corrects the player, or hands it over first. -/
theorem applySnapshot_cases (c : Client) (n : UInt32) (m : Snapshot) :
    (c.IsStale n ∧ c.applySnapshot n m = c) ∨
    (¬ c.IsStale n ∧ c.applySnapshot n m = c.adopting n m ∧
      (m.entity? m.playerEntity = none ∨ c.player = none)) ∨
    (∃ seen id, ¬ c.IsStale n ∧ m.entity? m.playerEntity = some seen ∧ c.player = some id ∧
      c.applySnapshot n m = (c.adopting n m).follow m id seen) ∨
    (∃ seen taken, ¬ c.IsStale n ∧ m.entity? m.playerEntity = some seen ∧ c.player = none ∧
      (c.adopting n m).takeControl seen = some taken ∧
      c.applySnapshot n m = taken.follow m seen.id seen) := by
  by_cases hstale : c.IsStale n
  · exact Or.inl ⟨hstale, applySnapshot_of_stale hstale m⟩
  · rw [applySnapshot_of_fresh hstale]
    right
    cases hseen : m.entity? m.playerEntity with
    | none => exact Or.inl ⟨hstale, rfl, Or.inl rfl⟩
    | some seen =>
      dsimp only
      cases hplayer : c.player with
      | some id => exact Or.inr (Or.inl ⟨seen, id, hstale, rfl, rfl, rfl⟩)
      | none =>
        dsimp only
        cases htaken : (c.adopting n m).takeControl seen with
        | none => exact Or.inl ⟨hstale, rfl, Or.inr rfl⟩
        | some taken => exact Or.inr (Or.inr ⟨seen, taken, hstale, rfl, rfl, htaken, rfl⟩)

/-- What is said of the player changes the prediction and its counters only. -/
theorem follow_eq (c : Client) (m : Snapshot) (id : EntityId) (seen : Sighting) :
    ∃ corrections, c.follow m id seen = { c with
      lastAck := Sequence.widen c.inputSequence m.lastInputSequence
      world := (c.corrector.reconcile c.world id seen.position
        (Sequence.widen c.inputSequence m.lastInputSequence)).2.2
      corrector := (c.corrector.reconcile c.world id seen.position
        (Sequence.widen c.inputSequence m.lastInputSequence)).2.1
      corrections } := by
  unfold follow reconcile
  dsimp only
  split
  · rename_i h
    obtain ⟨-, rfl⟩ := Prod.mk.inj h
    exact ⟨_, rfl⟩
  · rename_i h
    obtain ⟨-, rfl⟩ := Prod.mk.inj h
    exact ⟨_, rfl⟩

theorem takeControl_eq {c taken : Client} {seen : Sighting} (h : c.takeControl seen = some taken) :
    ∃ w, c.world.spawn seen.id = (true, w) ∧ taken = { c with
      world := (w.attach .transform seen.id (.placed seen.position)).attach .history seen.id .empty
      sender := c.sender.setPlayerId seen.id
      player := some seen.id } := by
  unfold takeControl at h
  split at h
  · cases h
  · rename_i w hw
    cases h
    exact ⟨w, hw, rfl⟩

/-- **What a client takes control of** lives where it was seen, and no command for
    it has been issued. -/
theorem takeControl_spec {c taken : Client} {seen : Sighting}
    (h : c.takeControl seen = some taken) : taken.inputSequence = c.inputSequence ∧
      taken.world.isAlive seen.id = true ∧
      taken.world.get? .transform seen.id = some (.placed seen.position) ∧
      taken.world.get? .history seen.id = some .empty := by
  obtain ⟨w, hw, rfl⟩ := takeControl_eq h
  have hlive : w.isAlive seen.id = true := World.isAlive_of_spawn hw
  refine ⟨rfl, ?_⟩
  simp [World.get?_attach, World.get?_attach_of_ne, hlive]

/-- A client that a snapshot hands an entity to takes control where it is seen. -/
theorem takeControl_of_applySnapshot {c : Client} {n : UInt32} {m : Snapshot} {id : EntityId}
    (hnone : c.player = none) (h : (c.applySnapshot n m).player = some id) :
    ∃ seen taken, m.entity? m.playerEntity = some seen ∧ seen.id = id ∧
      (c.adopting n m).takeControl seen = some taken ∧
      c.applySnapshot n m = taken.follow m seen.id seen := by
  rcases c.applySnapshot_cases n m with ⟨-, he⟩ | ⟨-, he, -⟩ | ⟨_, _, -, -, hid, -⟩ |
    ⟨seen, taken, -, hseen, -, htaken, he⟩
  · rw [he, hnone] at h
    cases h
  · rw [he] at h
    cases hnone.symm.trans h
  · rw [hnone] at hid
    cases hid
  · obtain ⟨_, hfollow⟩ := taken.follow_eq m seen.id seen
    obtain ⟨_, -, rfl⟩ := takeControl_eq htaken
    rw [he, hfollow] at h
    exact ⟨seen, _, hseen, Option.some.inj h, htaken, he⟩

/-- A snapshot records what it makes of the authority, unless it is stale. -/
theorem timeline_applySnapshot (c : Client) (n : UInt32) (m : Snapshot) :
    (c.IsStale n ∧ (c.applySnapshot n m).timeline = c.timeline) ∨
    (¬ c.IsStale n ∧ (c.applySnapshot n m).timeline =
      (c.timeline.capture n.toNat (adopt c.authority m)).2) := by
  rcases c.applySnapshot_cases n m with ⟨hs, h⟩ | ⟨hs, h, -⟩ | ⟨seen, id, hs, -, -, h⟩ |
    ⟨seen, taken, hs, -, -, htaken, h⟩
  · exact Or.inl ⟨hs, by rw [h]⟩
  · exact Or.inr ⟨hs, by rw [h]; rfl⟩
  · obtain ⟨_, hf⟩ := (c.adopting n m).follow_eq m id seen
    exact Or.inr ⟨hs, by rw [h, hf]; rfl⟩
  · obtain ⟨_, hf⟩ := taken.follow_eq m seen.id seen
    obtain ⟨_, -, rfl⟩ := takeControl_eq htaken
    exact Or.inr ⟨hs, by rw [h, hf]; rfl⟩

/-! ## Digests and requests to go back -/

/-- Digests are met with silence unless the client has another one. -/
theorem compareDigests_cases (c : Client) (m : StateChecksum) (now : Duration) :
    c.compareDigests m now = (c, []) ∨
    ∃ own, c.timeline.critical? m.tick.toNat = some own ∧ own ≠ m.criticalChecksum ∧
      c.isThrottled now = false ∧ c.compareDigests m now = ({ c with lastReport := some now }).post
        (DesyncReport.mk m.tick m.criticalChecksum own) := by
  unfold compareDigests
  split
  · exact Or.inl rfl
  · rename_i own hown
    split
    · exact Or.inl rfl
    · rename_i h
      simp only [Bool.or_eq_true, decide_eq_true_eq, not_or, Bool.not_eq_true] at h
      exact Or.inr ⟨own, hown, h.1, h.2, rfl⟩

/-- A request to go back is passed over, or it rewinds the authority and then
    corrects the prediction by it. -/
theorem goBack_cases (c : Client) (m : RollbackRequest) :
    c.goBack m = c ∨ ∃ authority rollbacks corrector world,
      (c.timeline.rewind m.targetTick.toNat c.authority) = (true, authority) ∧
      ((corrector = c.corrector ∧ world = c.world) ∨ ∃ id position, c.player = some id ∧
        corrector = (c.corrector.reconcile c.world id position c.lastAck).2.1 ∧
        world = (c.corrector.reconcile c.world id position c.lastAck).2.2) ∧
      c.goBack m = { c with authority, rollbacks, corrector, world } := by
  unfold goBack
  split
  · exact Or.inl rfl
  · rename_i authority rollbacks h
    have hback := (Timeline.rewindCalling_eq_iff.1 h).1
    right
    dsimp only
    split
    · exact ⟨authority, rollbacks, _, _, hback, Or.inl ⟨rfl, rfl⟩, rfl⟩
    · rename_i id hplayer
      split
      · exact ⟨authority, rollbacks, _, _, hback, Or.inl ⟨rfl, rfl⟩, rfl⟩
      · rename_i t _
        exact ⟨authority, rollbacks, _, _, hback, Or.inr ⟨id, t.position, hplayer, rfl, rfl⟩, rfl⟩

/-- A request to go back to a tick that is not recorded changes nothing. -/
theorem goBack_of_none {c : Client} {m : RollbackRequest}
    (h : c.timeline.find? m.targetTick.toNat = none) : c.goBack m = c := by
  rw [goBack, Timeline.rewindCalling, Timeline.rewind, h]

/-- **What a snapshot confirms**: nothing, when it is stale, does not show the
    player, or there is none; or the number that its low bits stand for. -/
theorem lastAck_applySnapshot (c : Client) (n : UInt32) (m : Snapshot) :
    ((c.applySnapshot n m).lastAck = c.lastAck ∧ (c.applySnapshot n m).world = c.world ∧
      (c.IsStale n ∨ m.entity? m.playerEntity = none ∨ c.player = none)) ∨
    (¬ c.IsStale n ∧
      (c.applySnapshot n m).lastAck = Sequence.widen c.inputSequence m.lastInputSequence ∧
      ∃ (c' : Client) (id : EntityId) (seen : Sighting), c.applySnapshot n m = c'.follow m id seen ∧
        ∀ id', c.player = some id' → id = id' ∧ c'.world = c.world) := by
  rcases c.applySnapshot_cases n m with ⟨hs, h⟩ | ⟨-, h, hnone⟩ | ⟨seen, id, hs, -, hid, h⟩ |
    ⟨seen, taken, hs, -, hnone, htaken, h⟩
  · rw [h]
    exact Or.inl ⟨rfl, rfl, Or.inl hs⟩
  · rw [h]
    exact Or.inl ⟨rfl, rfl, Or.inr hnone⟩
  · obtain ⟨_, hf⟩ := (c.adopting n m).follow_eq m id seen
    refine Or.inr ⟨hs, by rw [h, hf]; rfl, _, id, seen, h, fun id' hid' => ?_⟩
    exact ⟨Option.some.inj (hid.symm.trans hid'), rfl⟩
  · obtain ⟨_, hf⟩ := taken.follow_eq m seen.id seen
    obtain ⟨_, -, rfl⟩ := takeControl_eq htaken
    refine Or.inr ⟨hs, by rw [h, hf]; rfl, _, seen.id, seen, h, fun id' hid' => ?_⟩
    cases hnone.symm.trans hid'

theorem lastSnapshotTick_applySnapshot {c : Client} {n : UInt32} (h : ¬ c.IsStale n)
    (m : Snapshot) : (c.applySnapshot n m).lastSnapshotTick = some n := by
  rcases c.applySnapshot_cases n m with ⟨hs, -⟩ | ⟨-, he, -⟩ | ⟨seen, id, -, -, -, he⟩ |
    ⟨seen, taken, -, -, -, htaken, he⟩
  · exact absurd hs h
  · rw [he]
    rfl
  · obtain ⟨_, hf⟩ := (c.adopting n m).follow_eq m id seen
    rw [he, hf]
    rfl
  · obtain ⟨_, hf⟩ := taken.follow_eq m seen.id seen
    obtain ⟨_, -, rfl⟩ := takeControl_eq htaken
    rw [he, hf]
    rfl

/-- What is read as a message is counted, and its frame is handled. -/
theorem receiveOne_of_decode {μ : Type} [Message μ] (c : Client) {data : Bytes} {h : Header}
    {m : μ} (hm : Message.decode data = some (h, m)) (now : Duration) :
    ∃ f, c.receiveOne data now =
        ({ c with traffic := c.traffic.countReceived data.length } : Client).handle f now ∧
      f.header.messageType = Message.messageType μ ∧ Message.ofFrame? f = some (h, m) := by
  obtain ⟨f, hf, hkind, hread⟩ := Message.decode_eq_some hm
  exact ⟨f, by rw [receiveOne, hf], hkind, hread⟩

theorem receiveOne_of_snapshot (c : Client) {data : Bytes} {h : Header} {m : Snapshot}
    (hm : Message.decode data = some (h, m)) (now : Duration) :
    ∃ traffic, c.receiveOne data now = (({ c with traffic }).applySnapshot h.tick m, []) := by
  obtain ⟨f, he, hkind, hread⟩ := c.receiveOne_of_decode hm now
  refine ⟨c.traffic.countReceived data.length, ?_⟩
  rw [he, handle, hkind]
  simp only [Message.messageType, hread]

theorem receiveOne_of_request (c : Client) {data : Bytes} {h : Header} {m : RollbackRequest}
    (hm : Message.decode data = some (h, m)) (now : Duration) :
    ∃ traffic, c.receiveOne data now = (({ c with traffic }).goBack m, []) := by
  obtain ⟨f, he, hkind, hread⟩ := c.receiveOne_of_decode hm now
  refine ⟨c.traffic.countReceived data.length, ?_⟩
  rw [he, handle, hkind]
  simp only [Message.messageType, hread]

theorem receiveOne_of_pong (c : Client) {data : Bytes} {h : Header} {m : Pong}
    (hm : Message.decode data = some (h, m)) (now : Duration) :
    c.receiveOne data now =
      (({ c with traffic := c.traffic.countReceived data.length } : Client).takePong h.sequence
        now, []) := by
  obtain ⟨f, he, hkind, hread⟩ := c.receiveOne_of_decode hm now
  rw [he, handle, hkind]
  simp only [Message.messageType, hread]

/-- From one client to the next, the player's history keeps what is newer than a
    number. -/
def KeepsNewer (c c' : Client) (n : ℕ) : Prop :=
  ∀ id log, c.player = some id → c.world.get? .history id = some log →
    ∃ log', c'.world.get? .history id = some log' ∧
      ∀ x ∈ log.entries, n < x.sequence.toNat → x ∈ log'.entries

theorem KeepsNewer.mono {c c' : Client} {n n' : ℕ} (h : c.KeepsNewer c' n) (hle : n ≤ n') :
    c.KeepsNewer c' n' := by
  intro id log hid hlog
  obtain ⟨log', hlog', hkept⟩ := h id log hid hlog
  exact ⟨log', hlog', fun x hx hnew => hkept x hx (hle.trans_lt hnew)⟩

theorem keepsNewer_of_world_eq {c c' : Client} (h : c'.world = c.world) (n : ℕ) :
    c.KeepsNewer c' n := by
  intro id log _ hlog
  exact ⟨log, h ▸ hlog, fun x hx _ => hx⟩

/-- A snapshot takes nothing from the history that is newer than what is
    confirmed. -/
theorem keepsNewer_applySnapshot (c : Client) (n : UInt32) (m : Snapshot) :
    c.KeepsNewer (c.applySnapshot n m) (c.applySnapshot n m).lastAck.toNat := by
  rcases c.lastAck_applySnapshot n m with ⟨-, hworld, -⟩ | ⟨-, -, c', id', seen, he, hsame⟩
  · exact keepsNewer_of_world_eq hworld _
  · intro id log hid hlog
    obtain ⟨rfl, hworld⟩ := hsame id hid
    obtain ⟨_, hf⟩ := c'.follow_eq m id' seen
    obtain ⟨log', hlog', hkept⟩ := c'.corrector.history_reconcile (hworld ▸ hlog) seen.position
      (Sequence.widen c'.inputSequence m.lastInputSequence)
    rw [he, hf]
    exact ⟨log', hlog', fun x hx hnew => hkept x hx (UInt32.lt_iff_toNat_lt.2 hnew)⟩

/-- **What is no snapshot** confirms nothing new: it leaves alone what the client
    issues and has heard of, and the history loses what was confirmed only. -/
theorem receiveOne_of_other (c : Client) {data : Bytes}
    (hm : Message.decode (μ := Snapshot) data = none) (now : Duration) :
    ∃ traffic authority rollbacks corrector world controlSequence lastReport out,
      c.receiveOne data now = ({ c with
        traffic, authority, rollbacks, corrector, world, controlSequence, lastReport }, out) ∧
      c.KeepsNewer (c.receiveOne data now).1 c.lastAck.toNat ∧
      ∀ data' ∈ out, ∃ (m : DesyncReport) (sequence : UInt16) (tick : UInt32),
        Message.encode m sequence tick = .ok data' := by
  rcases c.receiveOne_cases data now with ⟨traffic, h, m, hm', -⟩ | ⟨traffic, h, m, -, he⟩ |
    ⟨traffic, h, m, -, he⟩ | ⟨traffic, he⟩
  · rw [hm] at hm'
    cases hm'
  · rcases compareDigests_cases { c with traffic } m now with hq | ⟨_, -, -, -, hq⟩
    · rw [he, hq]
      exact ⟨_, _, _, _, _, _, _, _, rfl, keepsNewer_of_world_eq rfl _, by simp⟩
    · rw [he, hq, post_eq]
      exact ⟨_, _, _, _, _, _, _, _, rfl, keepsNewer_of_world_eq rfl _,
        fun _ hd => ⟨_, _, _, mem_post hd⟩⟩
  · rcases goBack_cases { c with traffic } m with hq | ⟨_, _, _, world, -, hworld, hq⟩
    · rw [he, hq]
      exact ⟨_, _, _, _, _, _, _, _, rfl, keepsNewer_of_world_eq rfl _, by simp⟩
    · rw [he, hq]
      refine ⟨_, _, _, _, _, _, _, _, rfl, ?_, by simp⟩
      rcases hworld with ⟨-, rfl⟩ | ⟨id', position, hid', -, rfl⟩
      · exact keepsNewer_of_world_eq rfl _
      · -- the authority's position is compared by what was confirmed before
        intro id log hid hlog
        obtain rfl : id = id' := Option.some.inj (hid.symm.trans hid')
        obtain ⟨log', hlog', hkept⟩ := c.corrector.history_reconcile hlog position c.lastAck
        exact ⟨log', hlog', fun x hx hnew => hkept x hx (UInt32.lt_iff_toNat_lt.2 hnew)⟩
  · rw [he]
    exact ⟨_, _, _, _, _, _, _, _, rfl, keepsNewer_of_world_eq rfl _, by simp⟩

/-- **A datagram** takes nothing from the history that is newer than what is
    confirmed. -/
theorem keepsNewer_receiveOne (c : Client) (data : Bytes) (now : Duration) :
    c.KeepsNewer (c.receiveOne data now).1 (c.receiveOne data now).1.lastAck.toNat := by
  cases hm : Message.decode (μ := Snapshot) data with
  | none =>
    obtain ⟨_, _, _, _, _, _, _, _, he, hkeeps, -⟩ := c.receiveOne_of_other hm now
    have hack : (c.receiveOne data now).1.lastAck = c.lastAck := by rw [he]
    rw [hack]
    exact hkeeps
  | some heard =>
    obtain ⟨traffic, he⟩ := c.receiveOne_of_snapshot hm now
    rw [he]
    exact ({ c with traffic }).keepsNewer_applySnapshot heard.1.tick heard.2

/-! ## Ticks -/

/-- The command of a tick, given where it leads. -/
def nextCommand (c : Client) (position : Vec2) : Command :=
  { sequence := c.inputSequence + 1, buttons := c.script.sample.1, position,
    angle := c.script.sample.2, deltaTime := c.timestep.dt }

/-- **What a tick does**: the next command is issued, and what is controlled is
    moved by it and logs it. -/
theorem tick_cases (c : Client) : ∃ position world,
    c.tick = { c with
      script := c.script.advance
      inputSequence := c.inputSequence + 1
      world
      buffer := c.buffer ++ [c.nextCommand position] } ∧
    ((c.player = none ∧ world = c.world) ∨ ∃ id, c.player = some id ∧
      world = (c.world.modify .transform id (c.predict c.script.sample.1 c.script.sample.2)).modify
        .history id fun h => h.push (c.nextCommand position)) := by
  unfold tick
  cases hplayer : c.player with
  | none => exact ⟨_, _, rfl, Or.inl ⟨rfl, rfl⟩⟩
  | some id => exact ⟨_, _, rfl, Or.inr ⟨id, rfl, rfl⟩⟩

/-- Of itself a client takes nothing for confirmed. -/
theorem lastAck_act (c : Client) (a : Act) : (c.act a).1.lastAck = c.lastAck := by
  rcases c.act_cases a with ⟨_, -, he⟩ | ⟨_, _, _, -, he⟩ | ⟨_, _, _, _, _, _, -, he, -⟩
  · obtain ⟨_, _, htick, -⟩ := c.tick_cases
    rw [he, htick]
  · rw [he]
  · rw [he]

/-! ## What a client is set up with -/

/-- A snapshot leaves alone what the client is set up with and what it issues. -/
theorem applySnapshot_frame (c : Client) (n : UInt32) (m : Snapshot) :
    ∃ sender world authority timeline corrector player lastAck lastSnapshotTick corrections,
      c.applySnapshot n m = { c with
        sender, world, authority, timeline, corrector, player, lastAck, lastSnapshotTick,
        corrections } ∧ corrector.config = c.corrector.config := by
  rcases c.applySnapshot_cases n m with ⟨-, h⟩ | ⟨-, h, -⟩ | ⟨seen, id, -, -, -, h⟩ |
    ⟨seen, taken, -, -, -, htaken, h⟩
  · exact ⟨_, _, _, _, _, _, _, _, _, h, rfl⟩
  · exact ⟨_, _, _, _, _, _, _, _, _, h, rfl⟩
  · obtain ⟨_, hf⟩ := (c.adopting n m).follow_eq m id seen
    exact ⟨_, _, _, _, _, _, _, _, _, h.trans hf, Corrector.config_reconcile _ _ _ _ _⟩
  · obtain ⟨_, hf⟩ := taken.follow_eq m seen.id seen
    obtain ⟨_, -, rfl⟩ := takeControl_eq htaken
    exact ⟨_, _, _, _, _, _, _, _, _, h.trans hf, Corrector.config_reconcile _ _ _ _ _⟩

/-- A snapshot issues no command and takes none from the sender. -/
theorem issued_applySnapshot (c : Client) (n : UInt32) (m : Snapshot) :
    (c.applySnapshot n m).inputSequence = c.inputSequence ∧
      (c.applySnapshot n m).buffer = c.buffer := by
  obtain ⟨_, _, _, _, _, _, _, _, _, he, -⟩ := c.applySnapshot_frame n m
  rw [he]
  exact ⟨rfl, rfl⟩

/-- Prediction and correction go by one tolerance and one step. -/
structure Tuned (config : ClientConfig) (c : Client) : Prop where
  setup : c.config = config
  corrector : c.corrector.config = config.tolerance
  step : c.timestep.step = (Timestep.ofRate config.tickRate).step

theorem Tuned.dt {config : ClientConfig} {c : Client} (h : Tuned config c) :
    c.timestep.dt = (Timestep.ofRate config.tickRate).dt := by
  simp only [Timestep.dt, h.step]

theorem tuned_make (config : ClientConfig) (now : Duration) : Tuned config (make config now) :=
  ⟨rfl, rfl, rfl⟩

theorem Tuned.tick {config : ClientConfig} {c : Client} (h : Tuned config c) :
    Tuned config c.tick := by
  obtain ⟨_, _, he, -⟩ := c.tick_cases
  rw [he]
  exact ⟨h.setup, h.corrector, h.step⟩

theorem Tuned.applySnapshot {config : ClientConfig} {c : Client} (h : Tuned config c) (n : UInt32)
    (m : Snapshot) : Tuned config (c.applySnapshot n m) := by
  obtain ⟨_, _, _, _, _, _, _, _, _, he, hconfig⟩ := c.applySnapshot_frame n m
  rw [he]
  exact ⟨h.setup, hconfig.trans h.corrector, h.step⟩

/-- Every event keeps to what the client is set up with. -/
theorem Tuned.perform {config : ClientConfig} {c : Client} (h : Tuned config c) (e : Event) :
    Tuned config (c.perform e).1 := by
  obtain ⟨h1, h2, h3⟩ := h
  cases e with
  | act a =>
    show Tuned config (c.act a).1
    rcases c.act_cases a with ⟨t, ht, he⟩ | ⟨_, _, _, -, he⟩ | ⟨_, _, _, _, _, _, ht, he, -⟩
    · have hticked : Tuned config c.tick := Tuned.tick ⟨h1, h2, h3⟩
      rw [he]
      exact ⟨hticked.setup, hticked.corrector, ht.trans hticked.step⟩
    · rw [he]
      exact ⟨h1, h2, h3⟩
    · rw [he]
      exact ⟨h1, h2, ht.trans h3⟩
  | hear data now =>
    show Tuned config (c.receiveOne data now).1
    rcases c.receiveOne_cases data now with ⟨traffic, hd, m, -, he⟩ | ⟨traffic, hd, m, -, he⟩ |
      ⟨traffic, hd, m, -, he⟩ | ⟨_, he⟩
    · rw [he]
      have hcounted : Tuned config { c with traffic } := ⟨h1, h2, h3⟩
      exact hcounted.applySnapshot hd.tick m
    · rw [he]
      rcases compareDigests_cases { c with traffic } m now with hq | ⟨_, -, -, -, hq⟩
      · rw [hq]
        exact ⟨h1, h2, h3⟩
      · rw [hq, post_eq]
        exact ⟨h1, h2, h3⟩
    · rw [he]
      rcases goBack_cases { c with traffic } m with hq | ⟨_, _, _, _, -, hworld, hq⟩
      · rw [hq]
        exact ⟨h1, h2, h3⟩
      · rw [hq]
        rcases hworld with ⟨rfl, rfl⟩ | ⟨_, _, -, rfl, rfl⟩
        · exact ⟨h1, h2, h3⟩
        · exact ⟨h1, (Corrector.config_reconcile _ _ _ _ _).trans h2, h3⟩
    · rw [he]
      exact ⟨h1, h2, h3⟩

theorem tuned_performAll {config : ClientConfig} {c : Client} (h : Tuned config c)
    (es : List Event) : Tuned config (c.performAll es).1 := by
  induction es generalizing c with
  | nil => exact h
  | cons e rest ih => exact ih (h.perform e)

end Client

end Netplay
