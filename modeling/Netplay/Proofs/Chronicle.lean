/-
  What a server keeps, and what it tells of it.

  Beside a run stands the list of the worlds that its ticks have recorded.  The
  timeline of the server holds the front of that list, latest first, as far as
  there are slots.

  * `Server.recorded`, `Server.holds_performAll`: the worlds that a run records,
    and the timeline after it;
  * `Server.Sound.ids_sightings`: a snapshot lists the clients' entities;
  * `Server.world_in_step`: clients, entities, waiting inputs, memory, timeline
    and snapshots of every server that can be reached.
-/
import Netplay.Proofs.Mirror
import Netplay.Proofs.Rings
import Netplay.Proofs.Seating

namespace Netplay

namespace Server

/-! ## The worlds of a run -/

/-- The world that an event records. -/
def recorded? (s : Server) : Event → Option (Recorded FullState)
  | .tick _ => s.timestep.consume?.map fun due =>
    Timeline.captured FullState due.1 (s.simulated due.1).world
  | _ => none

/-- The worlds that a run records, in order. -/
def recorded (s : Server) : List Event → List (Recorded FullState)
  | [] => []
  | e :: rest => (s.recorded? e).toList ++ (s.perform e).1.recorded rest

theorem timeline_queueInput (s : Server) (p : InputPacket) (a : Address) (now : Duration) :
    (s.queueInput p a now).timeline = s.timeline := by
  rcases s.queueInput_cases p a now with ⟨_, -, hq⟩ | ⟨-, _, _, -, -, hq⟩ | ⟨-, hq⟩
  · rw [hq]
  · rw [hq]
  · rw [hq]

theorem timeline_receiveOne (s : Server) (d : Datagram) (now : Duration) :
    (s.receiveOne d now).1.timeline = s.timeline := by
  rcases s.receiveOne_cases d now with ⟨p, traffic, q, -, rfl, he⟩ | ⟨-, _, _, _, he, -, -⟩
  · rw [he]
    exact timeline_queueInput { s with traffic } p d.peer now
  · rw [he]

theorem timeline_tick (s : Server) (n : Tick) (now : Duration) :
    (s.tick n now).1.timeline =
      s.timeline.add (Timeline.captured FullState n (s.simulated n).world) := by
  rw [tick_fst, dropSilent_eq_of_gone]
  rfl

/-- **An event records nothing, or the world of the next tick.** -/
theorem recorded?_cases (s : Server) (e : Event) :
    (s.recorded? e = none ∧ (s.perform e).1.timeline = s.timeline ∧
      (s.perform e).1.timestep.tick = s.timestep.tick) ∨
    ∃ w, s.recorded? e = some w ∧ w.tick = s.timestep.tick + 1 ∧
      (s.perform e).1.timeline = s.timeline.add w ∧
      (s.perform e).1.timestep.tick = s.timestep.tick + 1 := by
  cases e with
  | elapse d => exact Or.inl ⟨rfl, rfl, rfl⟩
  | hear d now =>
    left
    refine ⟨rfl, s.timeline_receiveOne d now, ?_⟩
    show (s.receiveOne d now).1.timestep.tick = _
    rw [timestep_receiveOne]
  | tick now =>
    cases hdue : s.timestep.consume? with
    | none =>
      left
      simp only [recorded?, perform, hdue, Option.map_none, and_self]
    | some due =>
      obtain ⟨n, t⟩ := due
      obtain ⟨rfl, ht⟩ := Timestep.step_of_consume hdue
      right
      refine ⟨Timeline.captured FullState _ (s.simulated (s.timestep.tick + 1)).world, ?_, rfl, ?_,
        ?_⟩
      · simp only [recorded?, hdue]
        rfl
      · simp only [perform, hdue]
        rw [timeline_tick]
        rfl
      · simp only [perform, hdue]
        rw [timestep_tick, ht]
  | settle outcomes => exact Or.inl ⟨rfl, rfl, rfl⟩

/-- **After a run the timeline holds the latest of the worlds that the run has
    recorded**, one for each tick. -/
theorem holds_performAll {s : Server} {n : ℕ} {before : List (Recorded FullState)}
    (h : s.timeline.Holds n before) (es : List Event) :
    (s.performAll es).1.timeline.Holds n ((s.recorded es).reverse ++ before) ∧
      (s.performAll es).1.timestep.tick = s.timestep.tick + (s.recorded es).length ∧
      (s.recorded es).map (·.tick) =
        List.range' (s.timestep.tick + 1) (s.recorded es).length := by
  induction es generalizing s before with
  | nil => exact ⟨h, rfl, rfl⟩
  | cons e rest ih =>
    rcases s.recorded?_cases e with ⟨hnone, htimeline, htick⟩ | ⟨w, hsome, hw, htimeline, htick⟩
    · obtain ⟨hholds, hclock, hticks⟩ := ih (htimeline ▸ h)
      rw [htick] at hclock hticks
      simp only [recorded, hnone, Option.toList_none, List.nil_append]
      exact ⟨hholds, hclock, hticks⟩
    · obtain ⟨hholds, hclock, hticks⟩ := ih (htimeline ▸ h.add w)
      rw [htick] at hclock hticks
      simp only [recorded, hsome, Option.toList_some, List.singleton_append, List.reverse_cons,
        List.append_assoc, List.length_cons, List.map_cons, List.range'_succ]
      refine ⟨hholds, ?_, ?_⟩
      · show ((s.perform e).1.performAll rest).1.timestep.tick = _
        rw [hclock, Nat.add_assoc, Nat.add_comm 1]
      · rw [hticks, hw]

/-! ## What snapshots list -/

theorem mem_ids_sightings {w : World} {id : EntityId} :
    id ∈ (sightings w).map (·.id) ↔ w.isAlive id = true ∧ w.has .transform id = true := by
  rw [List.mem_map]
  constructor
  · rintro ⟨e, he, rfl⟩
    rw [mem_sightings] at he
    have hplace := World.position_of_shown? he
    refine ⟨World.isAlive_of_shown? he, ?_⟩
    cases ht : w.get? .transform e.id with
    | none =>
      rw [ht] at hplace
      cases hplace
    | some t => rw [World.has, ht, Option.isSome_some]
  · rintro ⟨hlive, hplaced⟩
    obtain ⟨t, ht⟩ := Option.isSome_iff_exists.1 hplaced
    have hshown : (w.shown? id).isSome = true := by
      rw [World.shown?, if_pos hlive, ht]
      rfl
    obtain ⟨e, he⟩ := Option.isSome_iff_exists.1 hshown
    have hid := World.id_of_shown? he
    exact ⟨e, mem_sightings.2 (hid ▸ he), hid⟩

/-- **A snapshot lists the clients' entities and no others.** -/
theorem Sound.ids_sightings {s : Server} (h : s.Sound) (id : EntityId) :
    id ∈ (sightings s.world).map (·.id) ↔ id ∈ s.roster.entities := by
  rw [mem_ids_sightings, h.alive id]
  constructor
  · rintro ⟨hid, -⟩
    exact hid
  · intro hid
    exact ⟨hid, h.equipped id hid .transform (by decide)⟩

/-- A snapshot for a client that lists each of some entities once, in ascending
    order, and the client's own among them. -/
structure Lists (m : Snapshot) (own : EntityId) (ids : List EntityId) : Prop where
  player : m.playerEntity = own
  listed : m.playerEntity ∈ m.entities.map (·.id)
  ascending : (m.entities.map (·.id)).Pairwise (· < ·)
  mem_iff : ∀ id, id ∈ m.entities.map (·.id) ↔ id ∈ ids

theorem Sound.lists_snapshotFor {s : Server} (h : s.Sound) {a : Address} {seat : Seat}
    (hseat : (a, seat) ∈ s.roster.seats) :
    Lists (s.snapshotFor seat) seat.entity s.roster.entities := by
  have hentity : seat.entity ∈ s.roster.entities := by
    rw [Roster.entities_eq]
    exact List.mem_map.2 ⟨_, hseat, rfl⟩
  exact ⟨rfl, (h.ids_sightings _).2 hentity, List.pairwise_map.2 (sightings_ascending s.world),
    h.ids_sightings⟩

/-- **What a tick sends** are digests and snapshots that list all clients. -/
theorem Sound.sent_tick {s : Server} (h : s.Sound) {now : Duration} {d : Datagram}
    (hd : .send d ∈ (s.perform (.tick now)).2) :
    ∃ seat, (d.peer, seat) ∈ s.roster.seats ∧ ∃ (sequence : UInt16) (tick : UInt32),
      (∃ m : Snapshot, Message.encode m sequence tick = .ok d.data ∧
        Lists m seat.entity s.roster.entities) ∨
      ∃ m : StateChecksum, Message.encode m sequence tick = .ok d.data := by
  rcases s.perform_tick_cases now with he | ⟨t, -, he⟩
  · rw [he] at hd
    cases hd
  · rw [he] at hd
    have hsound : ({ s with timestep := t } : Server).Sound := h.congr rfl rfl rfl rfl rfl
    obtain ⟨seat, hseat, hsnapshot | hdigests⟩ := mem_sent_tick hd
    · exact ⟨seat, hseat, _, _, Or.inl ⟨_, hsnapshot, (hsound.simulated _).lists_snapshotFor hseat⟩⟩
    · exact ⟨seat, hseat, _, _, Or.inr ⟨_, hdigests⟩⟩

/-! ## Every server that can be reached -/

theorem config_performAll (s : Server) (es : List Event) :
    (s.performAll es).1.config = s.config := by
  induction es generalizing s with
  | nil => rfl
  | cons e rest ih => exact (ih (s.perform e).1).trans (s.config_perform e)

/-- **The stores of a server stay in step**, whatever it hears and whenever it
    ticks: the clients, their entities, the inputs that wait, what is remembered
    of inputs, the timeline, and what the next tick tells of all this. -/
theorem world_in_step (config : ServerConfig) (port : UInt16) (es : List Event) :
    let s := ((make config port).performAll es).1
    let worlds := (make config port).recorded es
    (s.roster.size ≤ config.maxClients ∧ (s.roster.seats.map (·.1)).Nodup) ∧
    (s.roster.entities.Nodup ∧ ∀ id, s.world.isAlive id = true ↔ id ∈ s.roster.entities) ∧
    (∀ id ∈ s.roster.entities, s.world.has .transform id = true ∧ s.world.has .health id = true ∧
      s.world.has .lives id = true ∧ s.world.has .score id = true ∧
      s.world.has .controller id = true) ∧
    (∀ p ∈ s.inbox.waiting, p.entity ∈ s.roster.entities) ∧
    (∀ id, s.steering.lastApplied.contains id = true → id ∈ s.roster.entities) ∧
    (worlds.map (·.tick) = List.range' 1 s.timestep.tick ∧
      s.timeline.recent = worlds.reverse.take 60 ∧
      s.timeline.recent.length = min s.timestep.tick 60) ∧
    ∀ now d, .send d ∈ (s.perform (.tick now)).2 →
      ∃ seat, (d.peer, seat) ∈ s.roster.seats ∧ ∃ (sequence : UInt16) (tick : UInt32),
        (∃ m : Snapshot, Message.encode m sequence tick = .ok d.data ∧
          Lists m seat.entity s.roster.entities) ∨
        ∃ m : StateChecksum, Message.encode m sequence tick = .ok d.data := by
  intro s worlds
  have h : s.Sound := sound_performAll (sound_make config port) es
  have hroom : s.roster.size ≤ config.maxClients := by
    have hconfig : s.config = config := config_performAll _ es
    rw [← hconfig]
    exact h.room
  have haddresses : (s.roster.seats.map (·.1)).Nodup := by
    have hplaces := h.addresses
    rw [Roster.places, List.map_map] at hplaces
    exact hplaces
  have hplayer : ∀ id ∈ s.roster.entities, s.world.has .transform id = true ∧
      s.world.has .health id = true ∧ s.world.has .lives id = true ∧
      s.world.has .score id = true ∧ s.world.has .controller id = true := by
    intro id hid
    have hhas := h.equipped id hid
    exact ⟨hhas _ (by decide), hhas _ (by decide), hhas _ (by decide), hhas _ (by decide),
      hhas _ (by decide)⟩
  have hstart : (make config port).timeline.Holds 60 [] := Timeline.holds_ofCapacity 60
  -- nothing is recorded before the first tick, so the run's worlds are all there are
  obtain ⟨hholds, hclock, hticks⟩ := holds_performAll hstart es
  have hcount : s.timestep.tick = worlds.length := hclock.trans (Nat.zero_add _)
  have hrecent : s.timeline.recent = worlds.reverse.take 60 := by
    rw [hholds.recent, List.append_nil]
  refine ⟨⟨hroom, haddresses⟩, ⟨h.entities, h.alive⟩, hplayer, h.waiting, h.remembered,
    ⟨?_, hrecent, ?_⟩, fun now d => h.sent_tick⟩
  · rw [hcount]
    exact hticks
  · rw [hrecent, List.length_take, List.length_reverse, hcount, Nat.min_comm]

/-- Two clients join and two ticks go by; then one of them moves on. -/
def twoJoin : List Event :=
  [.hear ⟨⟨.localhost, 4001⟩,
      (({ sequence := 1, buttons := .up } : Command).toPacket 7).encode⟩ 0,
    .hear ⟨⟨.localhost, 4002⟩,
      (({ sequence := 1, buttons := .down } : Command).toPacket 8).encode⟩ 0,
    .elapse 50000000, .tick 0, .tick 0,
    .hear ⟨⟨.localhost, 4001⟩,
      (({ sequence := 2, buttons := .up } : Command).toPacket 7).encode⟩ 0]

theorem world_in_step_twoJoin :
    let s := ((make {} 4000).performAll twoJoin).1
    s.roster.entities = [1, 2] ∧ s.inbox.waiting.map (·.entity) = [1] ∧
      s.steering.lastApplied.ids = [1, 2] ∧ s.timeline.recent.map (·.tick) = [2, 1] ∧
      s.timeline.recent = ((make {} 4000).recorded twoJoin).reverse.take 60 ∧
      ∃ d seat, .send d ∈ (s.perform (.tick 0)).2 ∧ (d.peer, seat) ∈ s.roster.seats ∧
        ∃ (sequence : UInt16) (tick : UInt32) (m : Snapshot),
          Message.encode m sequence tick = .ok d.data ∧ Lists m seat.entity s.roster.entities := by
  intro s
  have hclients : s.roster.entities = [1, 2] ∧ s.inbox.waiting.map (·.entity) = [1] ∧
      s.steering.lastApplied.ids = [1, 2] ∧ s.timeline.recent.map (·.tick) = [2, 1] := by
    decide +kernel
  obtain ⟨hentities, hwaiting, happlied, hticks⟩ := hclients
  -- what the third tick sends first is read as a snapshot, so it is no digests
  obtain ⟨d, hd, hread⟩ : ∃ d, .send d ∈ (s.perform (.tick 0)).2 ∧
      (Message.decode (μ := Snapshot) d.data).isSome = true := by
    have hfirst : (sent (s.perform (.tick 0)).2).head?.any (fun d =>
      Effect.send d ∈ (s.perform (.tick 0)).2 ∧
        (Message.decode (μ := Snapshot) d.data).isSome = true) = true := by decide +kernel
    obtain ⟨d, -, hd⟩ := (Option.any_eq_true _ _).1 hfirst
    exact ⟨d, of_decide_eq_true hd⟩
  have hs : ((make {} 4000).performAll twoJoin).1 = s := rfl
  obtain ⟨-, -, -, -, -, ⟨-, hrecent, -⟩, htold⟩ := world_in_step {} 4000 twoJoin
  obtain ⟨seat, hseat, sequence, tick, ⟨m, hm, hlists⟩ | ⟨m, hm⟩⟩ := htold 0 d hd
  · rw [hs] at hseat hlists
    exact ⟨hentities, hwaiting, happlied, hticks, hrecent, d, seat, hd, hseat, sequence, tick, m,
      hm, hlists⟩
  · rw [Message.decode_eq_none_of_kind hm (by decide)] at hread
    cases hread

end Server

end Netplay
