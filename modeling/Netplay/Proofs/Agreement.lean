/-
  No false alarm: the digests of a server and of its clients agree.

  A net is a server and its clients with every datagram that either side has
  sent.  The network is free: a client may hear any datagram of the server at
  any time, again or never, and the server may hear anything from anyone.

  * `Net.step`, `Net.run`: one event of a net, and a run of it;
  * `Net.Agrees`: there is one critical digest for each tick, and every snapshot
    and all digests that were sent, and every world that a client has recorded,
    are of it;
  * `Net.agrees_step`, `Net.agrees_run`: it stays so;
  * `Net.no_false_desync`: no digest of the server ever differs from a client's,
    and no desync is reported.
-/
import Mathlib.Logic.Function.Basic
import Netplay.Proofs.Mirror
import Netplay.Proofs.Playing
import Netplay.Proofs.Seating

namespace Netplay

/-- A server and its clients, with what has been sent. -/
structure Net (ι : Type) where
  server : Server
  clients : ι → Client
  down : List Bytes := []
  up : List Bytes := []

namespace Net

variable {ι : Type}

/-- What can happen to a net. -/
inductive Event (ι : Type) where
  /-- Something happens to the server; it may hear any datagram. -/
  | serve (e : Server.Event)
  | play (i : ι) (a : Client.Act)
  /-- A client hears the datagram at some place among those of the server. -/
  | deliver (i : ι) (k : ℕ) (now : Duration)

/-- A server without clients, and clients that have heard nothing. -/
def start (config : ServerConfig) (port : UInt16) (clients : ι → ClientConfig) (now : Duration) :
    Net ι :=
  { server := Server.make config port, clients := fun i => Client.make (clients i) now }

variable [DecidableEq ι]

/-- A net after an event. -/
def step (net : Net ι) : Event ι → Net ι
  | .serve e =>
    let (server, effects) := net.server.perform e
    { net with server, down := net.down ++ (Server.sent effects).map (·.data) }
  | .play i a =>
    let (c, out) := (net.clients i).act a
    { net with clients := Function.update net.clients i c, up := net.up ++ out }
  | .deliver i k now =>
    match net.down[k]? with
    | none => net
    | some data =>
      let (c, out) := (net.clients i).receiveOne data now
      { net with clients := Function.update net.clients i c, up := net.up ++ out }

def run (net : Net ι) (es : List (Event ι)) : Net ι := es.foldl step net

/-- There is one critical digest for each tick. -/
structure Agrees (digestAt : Tick → UInt32) (net : Net ι) : Prop where
  sound : net.server.Sound
  /-- The snapshots that were sent are of the tick's digest. -/
  snapshots : ∀ data ∈ net.down, ∀ h m, Message.decode (μ := Snapshot) data = some (h, m) →
    h.tick.toNat ≤ net.server.timestep.tick ∧
      m.entities.Pairwise (fun a b => a.id < b.id) ∧ (∀ e ∈ m.entities, e.id ≠ EntityId.invalid) ∧
        crc32 (m.entities.flatMap Sighting.write) = digestAt h.tick.toNat
  digests : ∀ data ∈ net.down, ∀ h m, Message.decode (μ := StateChecksum) data = some (h, m) →
    m.tick.toNat ≤ net.server.timestep.tick ∧ m.criticalChecksum = digestAt m.tick.toNat
  /-- The worlds that clients have recorded are of the tick's digest. -/
  records : ∀ i, ∀ w ∈ (net.clients i).timeline.recent,
    w.tick ≤ net.server.timestep.tick ∧ Digest.critical w.entities = digestAt w.tick
  quiet : ∀ data ∈ net.up, Message.decode (μ := DesyncReport) data = none

end Net

/-! ## The server -/

namespace Server

/-- The critical digest that goes out with a tick is that of its snapshots. -/
theorem criticalChecksum_simulated (s : Server) (n : Tick) :
    ((s.simulated n).stateChecksum n).criticalChecksum =
      crc32 ((sightings (s.simulated n).world).flatMap Sighting.write) := by
  rw [← critical_fullStates, simulated_eq, stateChecksum, Timeline.critical?_capture]
  rfl

end Server

namespace Net

variable {ι : Type}

/-- Nothing new is said of any tick: the server's clock does not go back and its
    new datagrams are answers. -/
theorem Agrees.answer {digestAt : Tick → UInt32} {net : Net ι} (h : Agrees digestAt net)
    {s : Server} (out : List Bytes) (hsound : s.Sound)
    (htick : net.server.timestep.tick ≤ s.timestep.tick)
    (hout : ∀ data ∈ out, Server.IsAnswer data) :
    Agrees digestAt { net with server := s, down := net.down ++ out } where
  sound := hsound
  snapshots data hdata hd m hm := by
    rcases List.mem_append.1 hdata with hdata | hdata
    · obtain ⟨hle, hrest⟩ := h.snapshots data hdata hd m hm
      exact ⟨hle.trans htick, hrest⟩
    · rw [(hout data hdata).1] at hm
      cases hm
  digests data hdata hd m hm := by
    rcases List.mem_append.1 hdata with hdata | hdata
    · obtain ⟨hle, hrest⟩ := h.digests data hdata hd m hm
      exact ⟨hle.trans htick, hrest⟩
    · rw [(hout data hdata).2] at hm
      cases hm
  records i w hw := ⟨(h.records i w hw).1.trans htick, (h.records i w hw).2⟩
  quiet := h.quiet

/-- The digest of a tick is free until the tick is done. -/
theorem Agrees.update {digestAt : Tick → UInt32} {net : Net ι} (h : Agrees digestAt net) {n : Tick}
    (hn : net.server.timestep.tick < n) (d : UInt32) :
    Agrees (Function.update digestAt n d) net where
  sound := h.sound
  snapshots data hdata hd m hm := by
    obtain ⟨hle, hasc, hids, hcrc⟩ := h.snapshots data hdata hd m hm
    refine ⟨hle, hasc, hids, ?_⟩
    rw [Function.update_of_ne (hle.trans_lt hn).ne, hcrc]
  digests data hdata hd m hm := by
    obtain ⟨hle, hcrc⟩ := h.digests data hdata hd m hm
    refine ⟨hle, ?_⟩
    rw [Function.update_of_ne (hle.trans_lt hn).ne, hcrc]
  records i w hw := by
    obtain ⟨hle, hcrc⟩ := h.records i w hw
    refine ⟨hle, ?_⟩
    rw [Function.update_of_ne (hle.trans_lt hn).ne, hcrc]
  quiet := h.quiet

/-- What a tick sends is of the digest of the world that it has recorded. -/
theorem agrees_tick {digestAt : Tick → UInt32} {net : Net ι} (h : Agrees digestAt net)
    {t : Timestep} (ht : t.tick = net.server.timestep.tick + 1) (hlt : t.tick < 4294967296)
    (now : Duration) :
    ∃ digestAt', Agrees digestAt' { net with
      server := (({ net.server with timestep := t }).tick t.tick now).1
      down := net.down ++
        (Server.sent (({ net.server with timestep := t }).tick t.tick now).2).map (·.data) } := by
  set s := { net.server with timestep := t } with hs
  set w := (s.simulated t.tick).world with hw
  have hclock : (s.tick t.tick now).1.timestep.tick = t.tick := by
    rw [Server.timestep_tick]
  have hto : (UInt32.ofNat t.tick).toNat = t.tick := UInt32.toNat_ofNat_of_lt' hlt
  have hsound : s.Sound := h.sound.congr rfl rfl rfl rfl rfl
  have hvalid : w.isAlive EntityId.invalid = false := (hsound.simulated t.tick).isAlive_invalid
  -- the digest of the tick is fixed now; no earlier tick has this number
  have hnext : net.server.timestep.tick < t.tick := ht ▸ Nat.lt_succ_self _
  have hold := (h.update hnext (crc32 ((Server.sightings w).flatMap Sighting.write))).answer
    (s := (s.tick t.tick now).1) [] (hsound.tick t.tick now)
    (Nat.le_of_lt (hnext.trans_eq hclock.symm)) (by simp)
  have hout : ∀ data ∈ (Server.sent (s.tick t.tick now).2).map (·.data), ∃ seat sequence,
      Message.encode ((s.simulated t.tick).snapshotFor seat) sequence (UInt32.ofNat t.tick) =
          .ok data ∨
        Message.encode ((s.simulated t.tick).stateChecksum t.tick) sequence (UInt32.ofNat t.tick) =
          .ok data := by
    intro data hdata
    obtain ⟨d, hd, rfl⟩ := List.mem_map.1 hdata
    obtain ⟨seat, -, he | he⟩ := Server.mem_sent_tick (Server.mem_sent.1 hd)
    · exact ⟨seat, _, Or.inl he⟩
    · exact ⟨seat, _, Or.inr he⟩
  refine ⟨Function.update digestAt t.tick (crc32 ((Server.sightings w).flatMap Sighting.write)),
    hold.sound, fun data hdata hd m hm => ?_, fun data hdata hd m hm => ?_, hold.records, h.quiet⟩
  · rcases List.mem_append.1 hdata with hdata | hdata
    · exact hold.snapshots data (List.mem_append_left _ hdata) hd m hm
    · obtain ⟨seat, sequence, he | he⟩ := hout data hdata
      · rw [Snapshot.decode_encode he] at hm
        split_ifs at hm
        cases hm
        refine ⟨?_, Server.sightings_ascending w, fun e he' hinv => ?_, ?_⟩
        · show (UInt32.ofNat t.tick).toNat ≤ _
          rw [hto, hclock]
        · have hlive := World.isAlive_of_shown? (Server.mem_sightings.1 he')
          rw [hinv, hvalid] at hlive
          cases hlive
        · show _ = (Function.update digestAt t.tick _ : ℕ → UInt32) (UInt32.ofNat t.tick).toNat
          rw [hto, Function.update_self]
          rfl
      · rw [Message.decode_eq_none_of_kind he (by decide)] at hm
        cases hm
  · rcases List.mem_append.1 hdata with hdata | hdata
    · exact hold.digests data (List.mem_append_left _ hdata) hd m hm
    · obtain ⟨seat, sequence, he | he⟩ := hout data hdata
      · rw [Message.decode_eq_none_of_kind he (by decide)] at hm
        cases hm
      · rw [StateChecksum.decode_encode he] at hm
        cases hm
        refine ⟨?_, ?_⟩
        · show (UInt32.ofNat t.tick).toNat ≤ _
          rw [hto, hclock]
        · show _ = (Function.update digestAt t.tick _ : ℕ → UInt32) (UInt32.ofNat t.tick).toNat
          rw [hto, Function.update_self, Server.criticalChecksum_simulated]

/-! ## The clients -/

/-- A client moves on, its records being of the ticks' digests, and reports
    nothing. -/
theorem Agrees.client {digestAt : Tick → UInt32} {net : Net ι} [DecidableEq ι]
    (h : Agrees digestAt net) {i : ι} {c : Client} {out : List Bytes}
    (hc : ∀ w ∈ c.timeline.recent,
      w.tick ≤ net.server.timestep.tick ∧ Digest.critical w.entities = digestAt w.tick)
    (hout : ∀ data ∈ out, Message.decode (μ := DesyncReport) data = none) :
    Agrees digestAt { net with
      clients := Function.update net.clients i c, up := net.up ++ out } where
  sound := h.sound
  snapshots := h.snapshots
  digests := h.digests
  records j w hw := by
    have hj : w ∈ (Function.update net.clients i c j).timeline.recent := hw
    rcases eq_or_ne j i with rfl | hne
    · rw [Function.update_self] at hj
      exact hc w hj
    · rw [Function.update_of_ne hne] at hj
      exact h.records j w hj
  quiet data hdata := (List.mem_append.1 hdata).elim (h.quiet data) (hout data)

theorem Agrees.own_eq {digestAt : Tick → UInt32} {net : Net ι} (h : Agrees digestAt net) (i : ι)
    {data : Bytes} (hdata : data ∈ net.down) {hd : Header} {m : StateChecksum}
    (hm : Message.decode data = some (hd, m)) {own : UInt32}
    (hown : (net.clients i).timeline.critical? m.tick.toNat = some own) :
    own = m.criticalChecksum := by
  obtain ⟨w, hw, htick, rfl⟩ := Timeline.mem_of_critical? hown
  rw [(h.digests data hdata hd m hm).2, (h.records i w hw).2, htick]

/-- A client that hears a datagram of the server says nothing. -/
theorem Agrees.silent {digestAt : Tick → UInt32} {net : Net ι} (h : Agrees digestAt net) (i : ι)
    {data : Bytes} (hdata : data ∈ net.down) (now : Duration) :
    ((net.clients i).receiveOne data now).2 = [] := by
  rcases (net.clients i).receiveOne_cases data now with ⟨_, _, _, _, he⟩ |
    ⟨traffic, hd, m, hm, he⟩ | ⟨_, _, _, _, he⟩ | ⟨_, he⟩
  · rw [he]
  · rw [he]
    rcases Client.compareDigests_cases { net.clients i with traffic } m now with hq |
      ⟨own, hown, hne, -, -⟩
    · rw [hq]
    · exact absurd (h.own_eq i hdata hm hown) hne
  · rw [he]
  · rw [he]

/-- What a client records of a snapshot is of the tick's digest. -/
theorem Agrees.recorded {digestAt : Tick → UInt32} {net : Net ι} (h : Agrees digestAt net) (i : ι)
    {data : Bytes} (hdata : data ∈ net.down) (now : Duration) :
    ∀ w ∈ ((net.clients i).receiveOne data now).1.timeline.recent,
      w.tick ≤ net.server.timestep.tick ∧ Digest.critical w.entities = digestAt w.tick := by
  rcases (net.clients i).receiveOne_cases data now with ⟨traffic, hd, m, hm, he⟩ |
    ⟨traffic, hd, m, hm, he⟩ | ⟨traffic, hd, m, hm, he⟩ | ⟨_, he⟩
  · rw [he]
    rcases Client.timeline_applySnapshot { net.clients i with traffic } hd.tick m with
      ⟨-, ht⟩ | ⟨-, ht⟩
    · rw [ht]
      exact h.records i
    · rw [ht, Timeline.capture_snd]
      intro w hw
      rcases Timeline.mem_recent_add hw with rfl | hw
      · obtain ⟨hle, hasc, hids, hcrc⟩ := h.snapshots data hdata hd m hm
        refine ⟨hle, ?_⟩
        show Digest.critical (World.states _ : EntityMap CoreState) = digestAt hd.tick.toNat
        rw [Server.critical_coreStates, Client.sightings_adopt _ hasc hids, hcrc]
      · exact h.records i w hw
  · rw [he]
    rcases Client.compareDigests_cases { net.clients i with traffic } m now with hq |
      ⟨_, _, _, _, hq⟩
    · rw [hq]
      exact h.records i
    · rw [hq, Client.post_eq]
      exact h.records i
  · rw [he]
    rcases Client.goBack_cases { net.clients i with traffic } m with hq | ⟨_, _, _, _, -, -, hq⟩
    · rw [hq]
      exact h.records i
    · rw [hq]
      exact h.records i
  · rw [he]
    exact h.records i

/-! ## Steps and runs -/

theorem agrees_start (config : ServerConfig) (port : UInt16) (clients : ι → ClientConfig)
    (now : Duration) : Agrees (fun _ => 0) (start config port clients now) where
  sound := Server.sound_make config port
  snapshots _ hdata := by cases hdata
  digests _ hdata := by cases hdata
  records _ _ hw := by cases hw
  quiet _ hdata := by cases hdata

variable [DecidableEq ι]

theorem tick_le_step (net : Net ι) (e : Event ι) :
    net.server.timestep.tick ≤ (net.step e).server.timestep.tick := by
  cases e with
  | serve e => exact net.server.tick_le_perform e
  | play i a => exact le_rfl
  | deliver i k now =>
    unfold step
    dsimp only
    split <;> exact le_rfl

theorem tick_le_run (net : Net ι) (es : List (Event ι)) :
    net.server.timestep.tick ≤ (net.run es).server.timestep.tick := by
  induction es generalizing net with
  | nil => exact le_rfl
  | cons e rest ih => exact (net.tick_le_step e).trans (ih (net.step e))

theorem agrees_serve {digestAt : Tick → UInt32} {net : Net ι} (h : Agrees digestAt net)
    (e : Server.Event) (hlt : (net.step (.serve e)).server.timestep.tick < 4294967296) :
    ∃ digestAt', Agrees digestAt' (net.step (.serve e)) := by
  cases e with
  | elapse d => exact ⟨digestAt, h.answer [] (h.sound.perform (.elapse d)) le_rfl (by simp)⟩
  | settle outcomes =>
    exact ⟨digestAt, h.answer [] (h.sound.perform (.settle outcomes)) le_rfl (by simp)⟩
  | hear d now =>
    refine ⟨digestAt, h.answer _ (h.sound.perform (.hear d now))
      (net.server.tick_le_perform (.hear d now)) fun data hdata => ?_⟩
    obtain ⟨d', hd', rfl⟩ := List.mem_map.1 hdata
    exact Server.isAnswer_of_receiveOne (Server.mem_sent.1 hd')
  | tick now =>
    unfold step at hlt ⊢
    dsimp only at hlt ⊢
    rcases net.server.perform_tick_cases now with he | ⟨t, ht, he⟩
    · rw [he]
      exact ⟨digestAt, h.answer [] h.sound le_rfl (by simp)⟩
    · rw [he, ← ht] at hlt ⊢
      rw [Server.timestep_tick] at hlt
      exact agrees_tick h ht hlt now

theorem agrees_play {digestAt : Tick → UInt32} {net : Net ι} (h : Agrees digestAt net) (i : ι)
    (a : Client.Act) : Agrees digestAt (net.step (.play i a)) := by
  unfold step
  dsimp only
  rcases (net.clients i).act_cases a with ⟨_, -, he⟩ | ⟨command, _, _, -, he⟩ |
    ⟨_, _, _, _, _, out, -, he, hout⟩
  · rw [he]
    exact h.client (h.records i) (by simp)
  · rw [he]
    refine h.client (h.records i) fun data hdata => ?_
    rw [List.mem_singleton.1 hdata]
    exact InputPacket.decode_encode_of_kind (Command.version_toPacket _ _) (by decide)
  · rw [he]
    refine h.client (h.records i) fun data hdata => ?_
    obtain ⟨_, _, hping⟩ := hout data hdata
    exact Message.decode_eq_none_of_kind hping (by decide)

theorem agrees_deliver {digestAt : Tick → UInt32} {net : Net ι} (h : Agrees digestAt net) (i : ι)
    (k : ℕ) (now : Duration) : Agrees digestAt (net.step (.deliver i k now)) := by
  unfold step
  dsimp only
  split
  · exact h
  · rename_i data hk
    have hdata := List.mem_of_getElem? hk
    refine h.client (h.recorded i hdata now) ?_
    rw [h.silent i hdata now]
    simp

/-- **One event keeps the agreement.** -/
theorem agrees_step {digestAt : Tick → UInt32} {net : Net ι} (h : Agrees digestAt net) (e : Event ι)
    (hlt : (net.step e).server.timestep.tick < 4294967296) :
    ∃ digestAt', Agrees digestAt' (net.step e) := by
  cases e with
  | serve e => exact agrees_serve h e hlt
  | play i a => exact ⟨digestAt, agrees_play h i a⟩
  | deliver i k now => exact ⟨digestAt, agrees_deliver h i k now⟩

/-- **A run keeps the agreement**, as long as ticks fit their 32 bits. -/
theorem agrees_run {digestAt : Tick → UInt32} {net : Net ι} (h : Agrees digestAt net)
    (es : List (Event ι)) (hlt : (net.run es).server.timestep.tick < 4294967296) :
    ∃ digestAt', Agrees digestAt' (net.run es) := by
  induction es generalizing digestAt net with
  | nil => exact ⟨digestAt, h⟩
  | cons e rest ih =>
    obtain ⟨digestAt', h'⟩ := agrees_step h e (((net.step e).tick_le_run rest).trans_lt hlt)
    exact ih h' hlt

/-- **No false desync.**  Whatever joins, sends, ticks and times out, and
    however the server's datagrams are lost, repeated, delayed and reordered:
    when a client hears the digests of a tick that it has recorded, the critical
    digest is its own, so it says nothing, and no client has ever reported a
    desync. -/
theorem no_false_desync (config : ServerConfig) (port : UInt16) (clients : ι → ClientConfig)
    (now : Duration) (es : List (Event ι))
    (hlt : ((start config port clients now).run es).server.timestep.tick < 2 ^ 32) :
    let net := (start config port clients now).run es
    (∀ i, ∀ data ∈ net.down, ∀ h m, Message.decode (μ := StateChecksum) data = some (h, m) →
      (∀ own, (net.clients i).timeline.critical? m.tick.toNat = some own →
        own = m.criticalChecksum) ∧
      ∀ later, ((net.clients i).receiveOne data later).2 = []) ∧
    ∀ data ∈ net.up, Message.decode (μ := DesyncReport) data = none := by
  intro net
  obtain ⟨digestAt, h⟩ := agrees_run (agrees_start config port clients now) es hlt
  refine ⟨fun i data hdata hd m hm => ⟨fun own hown => ?_, fun later => ?_⟩, h.quiet⟩
  · exact h.own_eq i hdata hm hown
  · exact h.silent i hdata later

/-- A client joins, three ticks go by, and it hears the snapshot and the digests
    of the third. -/
def firstSnapshot : List (Event Unit) :=
  [.serve (.hear ⟨⟨.localhost, 4001⟩,
      (({ sequence := 1, buttons := .none } : Command).toPacket 7).encode⟩ 0),
    .serve (.elapse 50000000), .serve (.tick 0), .serve (.tick 0), .serve (.tick 0),
    .deliver () 0 0, .deliver () 1 0]

/-- In that run the client has recorded the third tick, so the digests that it
    hears are compared. -/
theorem no_false_desync_firstSnapshot :
    let net := (start {} 4000 (fun _ => {}) 0).run firstSnapshot
    (net.server.timestep.tick < 2 ^ 32 ∧ net.down.length = 2 ∧
      (net.clients ()).timeline.has 3 = true) ∧
    (∀ i, ∀ data ∈ net.down, ∀ h m, Message.decode (μ := StateChecksum) data = some (h, m) →
      (∀ own, (net.clients i).timeline.critical? m.tick.toNat = some own →
        own = m.criticalChecksum) ∧
      ∀ later, ((net.clients i).receiveOne data later).2 = []) ∧
    ∀ data ∈ net.up, Message.decode (μ := DesyncReport) data = none :=
  ⟨by decide +kernel,
    no_false_desync {} 4000 (fun _ => {}) 0 firstSnapshot (by decide +kernel)⟩

end Net

end Netplay
