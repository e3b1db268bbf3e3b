/-
  The sizes of what a server sends.

  Apart from snapshots a server sends short messages only.  A snapshot has 14
  bytes for each client, so it fits the buffer of a receiver as long as there are
  no more than 83 clients; with one more it is cut, and what is left of it is no
  frame.

  * `Message.length_of_encode`: the length of a datagram;
  * `Server.Sound.sent_cases`: what an event sends is short, or a snapshot that
    lists every client once;
  * `Server.crowded`: a run in which as many clients are told of each other as
    one likes, up to what fits a frame;
  * `Server.received_whole`: which servers send nothing that is cut, and what is
    read of what is cut and of what is not.
-/
import Netplay.Proofs.Corruption
import Netplay.Proofs.Delivery
import Netplay.Proofs.Reports

namespace Netplay

theorem Message.length_of_encode {μ : Type} [Message μ] {m : μ} {sequence : UInt16}
    {tick : UInt32} {data : Bytes} (h : encode m sequence tick = .ok data) :
    data.length = headerSize + (write m).length + trailerSize := by
  unfold encode Frame.encode at h
  split_ifs at h
  cases h
  simp only [Frame.sealed, List.length_append, Header.length_encode, Bytes.length_be32, trailerSize]

/-- **A message that is cut is no frame.** -/
theorem Message.not_isOk_take {μ : Type} [Message μ] {m : μ} {sequence : UInt16} {tick : UInt32}
    {data : Bytes} {n : ℕ} (h : encode m sequence tick = .ok data) (hn : n < data.length) :
    (Frame.decode (data.take n)).isOk = false := by
  refine Frame.detects.shortened data n ?_ hn
  rw [(frame_of_encode h).2]
  rfl

theorem Snapshot.length_write {m : Snapshot} (h : m.entities.length ≤ Bytes.maxPrefixed) :
    (Message.write m).length = 8 + 14 * m.entities.length := by
  simp only [Message.write, List.take_of_length_le h, List.length_append, Bytes.length_be32,
    Bytes.length_be16, Sighting.length_flatMap_write, Sighting.wireSize]
  omega

theorem Snapshot.length_of_encode {m : Snapshot} {sequence : UInt16} {tick : UInt32} {data : Bytes}
    (h : Message.encode m sequence tick = .ok data) :
    data.length = 27 + 14 * m.entities.length := by
  have hfits := length_le_of_fits (Message.frame_of_encode h).1
  rw [Message.length_of_encode h, length_write hfits, headerSize, trailerSize]
  omega

/-- Every coordinate that a message tells of is finite. -/
def Topic.IsFinite : (t : Topic) → t.Content → Prop
  | .snapshot, m => ∀ e ∈ m.entities, e.position.isFinite = true
  | _, _ => True

/-- **What comes to its receiver whole is read whole.** -/
theorem Topic.decode_of_received {t : Topic} {m : t.Content} {sequence : UInt16} {tick : UInt32}
    {data : Bytes} (h : Message.encode m sequence tick = .ok data) (hm : t.received m = some m) :
    Message.decode data = some (Message.sentHeader m sequence tick, m) := by
  have hfull := t.sentInFull m
  have hfits := (Message.frame_of_encode h).1
  have hwrite := hfull.eq_of_length_le hfits
  rw [Message.decode_encode h, hwrite, t.whole_full m (hwrite ▸ hfits), hm]
  rfl

/-! ## A receiver's buffer -/

namespace Client

variable (c : Client) (a : Address) (now : Duration) {d : Datagram}

/-- What is heard of a datagram is what the buffer holds of it. -/
theorem process_one (d : Datagram) :
    c.process now (Endpoint.outcomes ⟨some ⟨a, [d]⟩⟩ maxPacketSize) =
      (.ok (), c.receiveOne (d.data.take maxPacketSize) now) := by
  simp only [process, Endpoint.outcomes, List.map_cons, List.map_nil, List.cons_append,
    List.nil_append, Endpoint.drainOutcomes, receive, List.append_nil]

/-- What is cut and no frame is counted and dropped. -/
theorem process_cut (hcut : (Frame.decode (d.data.take maxPacketSize)).isOk = false)
    (hlong : maxPacketSize < d.data.length) :
    c.process now (Endpoint.outcomes ⟨some ⟨a, [d]⟩⟩ maxPacketSize) =
      (.ok (), { c with traffic := (c.traffic.countReceived maxPacketSize).countDropped }, []) := by
  have hlength : (d.data.take maxPacketSize).length = maxPacketSize := by
    rw [List.length_take, Nat.min_eq_left (Nat.le_of_lt hlong)]
  rw [process_one, receiveOne, hlength]
  cases hdecode : Frame.decode (d.data.take maxPacketSize) with
  | ok f =>
    rw [hdecode] at hcut
    cases hcut
  | error e => rfl

end Client

namespace Server

/-! ## Short messages -/

/-- The clock has not gone round, and no world of a later tick is recorded. -/
structure InTime (s : Server) : Prop where
  clock : s.timestep.tick < 2 ^ 32
  recorded : ∀ n, s.timeline.find? n ≠ none → n ≤ s.timestep.tick

/-- The datagram of a short message that is no snapshot.  A receiver reads it as
    it was written; if it asks for a rollback, only if the server is in time. -/
def IsShort (s : Server) (data : Bytes) : Prop :=
  ∃ (t : Topic) (m : t.Content) (sequence : UInt16) (tick : UInt32), t ≠ .snapshot ∧
    Message.encode m sequence tick = .ok data ∧ (Message.write m).length ≤ 64 ∧
    ((t = .rollbackRequest → s.InTime) → t.received m = some m)

theorem isShort_of_post {s : Server} {t : Topic} {m : t.Content} {sequence : UInt16} {n : Tick}
    {a : Address} {d : Datagram} (hd : .send d ∈ post m sequence n a) (ht : t ≠ .snapshot)
    (hlength : (Message.write m).length ≤ 64)
    (hreceived : (t = .rollbackRequest → s.InTime) → t.received m = some m) : s.IsShort d.data :=
  ⟨t, m, _, _, ht, (mem_post hd).2, hlength, hreceived⟩

theorem IsShort.congr {s s' : Server} {data : Bytes} (h : s.IsShort data)
    (htimestep : s'.timestep = s.timestep) (htimeline : s'.timeline = s.timeline) :
    s'.IsShort data := by
  obtain ⟨t, m, sequence, tick, ht, hencode, hlength, hreceived⟩ := h
  refine ⟨t, m, sequence, tick, ht, hencode, hlength, fun hs => hreceived fun hr => ⟨?_, ?_⟩⟩
  · rw [← htimestep]
    exact (hs hr).clock
  · rw [← htimestep, ← htimeline]
    exact (hs hr).recorded

theorem length_write_room (s : Server) : s.room.write.length = 29 := by
  have hname : (Room.writeText "strafe").length = 8 := by decide
  have hcode : (Room.writeText "").length = 2 := by decide
  simp only [Room.write, room, List.length_append, Bytes.length_be32, Bytes.length_be16,
    List.length_cons, List.length_nil, Bytes.ofBool, hname, hcode]

theorem length_write_roomList (s : Server) : (Message.write (RoomList.mk [s.room])).length = 31 := by
  have hone : [s.room].take Bytes.maxPrefixed = [s.room] := rfl
  show (Bytes.be16 _ ++ ([s.room].take Bytes.maxPrefixed).flatMap Room.write).length = 31
  rw [hone, List.length_append, Bytes.length_be16, List.flatMap_cons, List.flatMap_nil,
    List.append_nil, length_write_room]

theorem isShort_of_answerJoin {s : Server} {request : JoinRoom} {sequence : UInt16} {a : Address}
    {d : Datagram} (hd : .send d ∈ s.answerJoin request sequence a) : s.IsShort d.data := by
  unfold answerJoin at hd
  split at hd
  · rename_i reason hreason
    refine isShort_of_post (t := .joinFailed) hd (by decide) ?_ fun _ => rfl
    unfold refusal? at hreason
    split_ifs at hreason <;> cases hreason <;> decide
  · exact isShort_of_post (t := .joinSuccess) hd (by decide) (by simp [Message.write]) fun _ => rfl

theorem isShort_of_answerReport {s : Server} {report : DesyncReport} {a : Address} {d : Datagram}
    (hd : .send d ∈ (s.answerReport report a).2) : s.IsShort d.data := by
  cases hfound : s.timeline.find? report.tick.toNat with
  | none =>
    rw [answerReport_of_none a hfound] at hd
    cases hd
  | some w =>
    obtain ⟨sequence, request, hrequest, he⟩ := answerReport_of_find? a hfound
    have hsent := mem_sent.2 hd
    rw [he, sent_append, sent_dumped] at hsent
    obtain rfl : d = ⟨a, request⟩ := by simpa [sent] using hsent
    refine ⟨.rollbackRequest, _, _, _, by decide, hrequest, by simp [Message.write], fun h => ?_⟩
    -- a receiver refuses to go forward: the world asked for is recorded, so it is no later
    have hback : report.tick ≤ UInt32.ofNat s.timestep.tick := by
      rw [UInt32.le_iff_toNat_le, UInt32.toNat_ofNat_of_lt' (h rfl).clock]
      exact (h rfl).recorded _ (by rw [hfound]; simp)
    exact if_pos hback

theorem isShort_of_handleKind {s : Server} {data : Bytes} {f : Frame} {a : Address}
    {now : Duration} {d : Datagram} (hd : .send d ∈ (s.handleKind data f a now).2) :
    s.IsShort d.data := by
  unfold handleKind at hd
  dsimp only at hd
  split at hd
  · split at hd <;> cases hd
  · split at hd
    · exact isShort_of_post (t := .pong) hd (by decide) (by simp [Message.write]) fun _ => rfl
    · cases hd
  · split at hd
    · exact isShort_of_answerReport hd
    · cases hd
  · split at hd
    · dsimp only at hd
      refine isShort_of_post (t := .roomList) hd (by decide) ?_ fun _ => rfl
      exact (Nat.le_of_eq s.length_write_roomList).trans (by decide)
    · cases hd
  · split at hd
    · exact isShort_of_answerJoin hd
    · cases hd
  · cases hd

/-- **What is sent when a datagram is heard is short.** -/
theorem isShort_of_receiveOne {s : Server} {d d' : Datagram} {now : Duration}
    (hd : .send d' ∈ (s.receiveOne d now).2) : s.IsShort d'.data := by
  unfold receiveOne at hd
  dsimp only at hd
  split at hd
  · exact (isShort_of_handleKind hd).congr rfl rfl
  · cases hd

/-! ## Snapshots -/

theorem Sound.length_eq {s : Server} (h : s.Sound) {ids : List EntityId}
    (hasc : ids.Pairwise (· < ·)) (hmem : ∀ id, id ∈ ids ↔ id ∈ s.roster.entities) :
    ids.length = s.roster.size := by
  have hnodup : ids.Nodup := hasc.imp fun hlt he => absurd (he ▸ hlt) (UInt32.lt_irrefl _)
  rw [((List.perm_ext_iff_of_nodup hnodup h.entities).2 hmem).length_eq, Roster.size_eq,
    Roster.entities, List.length_map]

/-- A snapshot lists every client once. -/
theorem Sound.length_sightings {s : Server} (h : s.Sound) :
    (sightings s.world).length = s.roster.size := by
  have hlength := h.length_eq (List.pairwise_map.2 (sightings_ascending s.world)) h.ids_sightings
  rwa [List.length_map] at hlength

/-- **What an event sends** is short, or a snapshot that lists every client once. -/
theorem Sound.sent_cases {s : Server} (h : s.Sound) {e : Event} {d : Datagram}
    (hd : .send d ∈ (s.perform e).2) : s.IsShort d.data ∨
      ∃ (m : Snapshot) (sequence : UInt16) (tick : UInt32),
        Message.encode m sequence tick = .ok d.data ∧ m.entities.length = s.roster.size := by
  cases e with
  | elapse _ => cases hd
  | settle _ => cases hd
  | hear d' now => exact Or.inl (isShort_of_receiveOne hd)
  | tick now =>
    rcases s.perform_tick_cases now with he | ⟨t, -, he⟩
    · rw [he] at hd
      cases hd
    · rw [he] at hd
      have hsound : ({ s with timestep := t } : Server).Sound := h.congr rfl rfl rfl rfl rfl
      obtain ⟨seat, -, hsnapshot | hdigests⟩ := mem_sent_tick hd
      · exact Or.inr ⟨_, _, _, hsnapshot, (hsound.simulated _).length_sightings⟩
      · refine Or.inl ⟨.stateChecksum, _, _, _, by decide, hdigests, ?_, fun _ => rfl⟩
        simp [Message.write]

/-! ## Runs -/

theorem mem_performAll {s : Server} {es : List Event} {x : Effect} (hx : x ∈ (s.performAll es).2) :
    ∃ before e after, es = before ++ e :: after ∧ x ∈ ((s.performAll before).1.perform e).2 := by
  induction es generalizing s with
  | nil => cases hx
  | cons e rest ih =>
    rcases List.mem_append.1 hx with hx | hx
    · exact ⟨[], e, rest, rfl, hx⟩
    · obtain ⟨before, e', after, rfl, hlater⟩ := ih hx
      exact ⟨e :: before, e', after, rfl, hlater⟩

theorem performAll_singleton (s : Server) (e : Event) : s.performAll [e] = s.perform e := by
  simp only [performAll, List.append_nil]

theorem inTime_performAll (config : ServerConfig) (port : UInt16) {es : List Event}
    (hclock : ((make config port).performAll es).1.timestep.tick < 2 ^ 32) :
    ((make config port).performAll es).1.InTime := by
  refine ⟨hclock, fun n hn => ?_⟩
  by_contra hlater
  exact hn ((find?_recorded config port es n).2 fun hrecent => hlater hrecent.2)

/-! ## A crowd -/

theorem firstGap_le : ∀ (ids : List EntityId) (n : ℕ), EntityId.firstGap n ids ≤ n + ids.length
  | [], n => le_rfl
  | id :: rest, n => by
    have hsame := firstGap_le rest n
    have hnext := firstGap_le rest (n + 1)
    unfold EntityId.firstGap
    rw [List.length_cons]
    split_ifs <;> omega

/-- As long as few entities live there is a new one. -/
theorem create?_of_few {w : World} (h : w.entities.length < EntityId.greatest.toNat) :
    ∃ id w', w.create? = some (id, w') := by
  have haround := firstGap_le w.entities 1
  have hfree : ∃ id, w.freeId? = some id := by
    unfold World.freeId?
    dsimp only
    split_ifs with h1 h2
    · exact ⟨_, rfl⟩
    · exact ⟨_, rfl⟩
    · omega
  obtain ⟨id, hid⟩ := hfree
  rw [World.create?, hid]
  exact ⟨_, _, rfl⟩

/-- A client's first input. -/
def hello : Bytes := (({ sequence := 1, buttons := .none } : Command).toPacket 0).encode

theorem decode_hello : (InputPacket.decode hello).isSome = true := by decide +kernel

/-- **A client joins** with its first input, if there is room for it. -/
theorem Sound.hello {s : Server} (h : s.Sound) {a : Address}
    (ha : a ∉ s.roster.places.map (·.1)) (hroom : s.roster.size < s.config.maxClients)
    (hfew : s.roster.size < EntityId.greatest.toNat) (now : Duration) :
    (s.receiveOne ⟨a, Server.hello⟩ now).1.roster.places.map (·.1) =
      s.roster.places.map (·.1) ++ [a] := by
  have hnobody : s.roster.places.lookup a = none := by
    refine List.lookup_eq_none_iff.2 fun q hq => ?_
    have hne : a ≠ q.1 := fun he => ha (he ▸ List.mem_map_of_mem hq)
    simpa using hne
  have hcount : s.world.entities.length = s.roster.size :=
    h.length_eq s.world.alive.ids_ascending fun id => (s.world.mem_entities id).trans (h.alive id)
  obtain ⟨id, w, hcreate⟩ := create?_of_few (hcount ▸ hfew)
  rcases s.receiveOne_cases ⟨a, Server.hello⟩ now with ⟨p, traffic, q, -, rfl, he⟩ | ⟨hp, -⟩
  · have hfind : s.roster.find? a = none := by
      have hsome := Roster.places_find? s.roster a
      rw [hnobody] at hsome
      exact Option.map_eq_none_iff.1 hsome
    have hjoins : (({ s with traffic } : Server).queueInput p a now).roster =
        s.roster.append a { entity := id, lastHeard := now } := by
      unfold Server.queueInput
      simp only [hfind, join?, ge_iff_le, Nat.not_le.2 hroom, if_false, hcreate, Option.map_some]
    rw [he]
    dsimp only
    rw [Roster.places_heard, hjoins, Roster.places_append, List.map_append]
    rfl
  · have hsome := decode_hello
    rw [hp] at hsome
    cases hsome

/-- Where a client of the crowd sends from. -/
def stand (i : ℕ) : Address := ⟨.localhost, UInt16.ofNat i⟩

theorem stand_injective {i j : ℕ} (hi : i < 65536) (hj : j < 65536) (h : stand i = stand j) :
    i = j := by
  have hport : (UInt16.ofNat i).toNat = (UInt16.ofNat j).toNat :=
    congrArg UInt16.toNat (congrArg Address.port h)
  rwa [UInt16.toNat_ofNat_of_lt' hi, UInt16.toNat_ofNat_of_lt' hj] at hport

/-- Some clients join. -/
def crowd (n : ℕ) : List Event := (List.range n).map fun i => .hear ⟨stand i, hello⟩ 0

/-- **All of the crowd sit**, if there is room for them. -/
theorem crowd_sits (config : ServerConfig) (port : UInt16) {n : ℕ} (hroom : n ≤ config.maxClients)
    (hn : n ≤ 65536) :
    ((make config port).performAll (crowd n)).1.roster.places.map (·.1) =
        (List.range n).map stand ∧
      ((make config port).performAll (crowd n)).1.timestep = Timestep.ofRate config.tickRate := by
  induction n with
  | zero => exact ⟨rfl, rfl⟩
  | succ n ih =>
    obtain ⟨hplaces, hclock⟩ := ih (Nat.le_of_succ_le hroom) (Nat.le_of_succ_le hn)
    have hlast : crowd (n + 1) = crowd n ++ [.hear ⟨stand n, Server.hello⟩ 0] := by
      simp [crowd, List.range_succ]
    have hconfig := config_performAll (make config port) (crowd n)
    have hsound := sound_performAll (sound_make config port) (crowd n)
    simp only [hlast, performAll_append, performAll_singleton, perform]
    generalize ((make config port).performAll (crowd n)).1 = s at *
    have hsize : s.roster.size = n := by
      have hlength := congrArg List.length hplaces
      rwa [List.length_map, ← Roster.size_eq, List.length_map, List.length_range] at hlength
    -- the ports are all different, so the next client is a new one
    have hnew : stand n ∉ s.roster.places.map (·.1) := by
      rw [hplaces, List.mem_map]
      rintro ⟨i, hi, he⟩
      have hlt := List.mem_range.1 hi
      have := stand_injective (by omega) (by omega) he
      omega
    have hgreatest := EntityId.toNat_greatest
    have hjoined := hsound.hello hnew (by rw [hsize, hconfig]; exact hroom) (by omega) 0
    constructor
    · rw [List.range_succ, List.map_append, ← hplaces]
      exact hjoined
    · rw [← hclock]
      exact s.timestep_receiveOne ⟨stand n, Server.hello⟩ 0

/-! ## Ticks -/

/-- At the start of time nobody has been silent. -/
theorem places_tick_zero (s : Server) (n : Tick) :
    (s.tick n 0).1.roster.places = s.roster.places := by
  have hnobody : ∀ r : Roster, r.withoutSilent 0 s.config.clientTimeout = r := by
    intro r
    have hall : r.seats.filter (fun p => !Roster.isSilent 0 s.config.clientTimeout p.2) =
        r.seats := by
      refine List.filter_eq_self.2 fun p _ => ?_
      simp [Roster.isSilent]
    rw [Roster.withoutSilent, hall]
  rw [tick_fst, dropSilent_eq_of_gone]
  show ((s.spoken n).roster.withoutSilent 0 s.config.clientTimeout).places = _
  rw [hnobody, places_spoken]

/-- Time enough for a tick, and the tick. -/
def round : List Event := List.replicate 4 (.elapse Timestep.maxDelta) ++ [.tick 0]

theorem performAll_elapse (s : Server) (d : Duration) (n : ℕ) :
    s.performAll (List.replicate n (.elapse d)) =
      ({ s with timestep :=
        { s.timestep with
          accumulated := s.timestep.accumulated + n * min d Timestep.maxDelta } }, []) := by
  induction n generalizing s with
  | zero => simp [performAll]
  | succ n ih =>
    have hsum : s.timestep.accumulated + min d Timestep.maxDelta + n * min d Timestep.maxDelta =
        s.timestep.accumulated + (n + 1) * min d Timestep.maxDelta := by
      rw [Nat.succ_mul, Nat.add_assoc, Nat.add_comm (min d Timestep.maxDelta)]
    simp only [List.replicate_succ, performAll, perform, ih, Timestep.accumulate, List.nil_append,
      hsum]

/-- A tick that is due is done. -/
theorem perform_tick_of_due {s : Server} (h : s.timestep.step ≤ s.timestep.accumulated)
    (now : Duration) :
    ∃ t, t.tick = s.timestep.tick + 1 ∧ t.step = s.timestep.step ∧
      s.perform (.tick now) = ({ s with timestep := t }).tick (s.timestep.tick + 1) now := by
  have hdue : ¬ s.timestep.accumulated < s.timestep.step := Nat.not_lt.2 h
  refine ⟨{ s.timestep with
    accumulated := s.timestep.accumulated - s.timestep.step
    tick := s.timestep.tick + 1 }, rfl, rfl, ?_⟩
  simp only [perform, Timestep.consume?, hdue, if_false]

/-- **A round does one tick.** -/
theorem performAll_round {s : Server} (hstep : s.timestep.step ≤ Duration.perSecond) :
    ∃ t, t.tick = s.timestep.tick + 1 ∧ t.step = s.timestep.step ∧
      s.performAll round = ({ s with timestep := t }).tick (s.timestep.tick + 1) 0 := by
  have hsecond : 4 * Timestep.maxDelta = Duration.perSecond := rfl
  rw [round, performAll_append, performAll_singleton, performAll_elapse, Nat.min_self, hsecond]
  -- a billion is no number for a unifier to count to
  generalize Duration.perSecond = w at hstep ⊢
  have hdue := hstep.trans (Nat.le_add_left w s.timestep.accumulated)
  obtain ⟨t, htick, hsame, he⟩ := perform_tick_of_due (s := { s with timestep :=
    { s.timestep with accumulated := s.timestep.accumulated + w } }) hdue 0
  refine ⟨t, htick, hsame, ?_⟩
  rw [he, List.nil_append]

/-- Rounds, one after the other. -/
def rounds (k : ℕ) : List Event := (List.replicate k round).flatten

theorem rounds_succ (k : ℕ) : rounds (k + 1) = rounds k ++ round := by
  simp only [rounds, List.replicate_succ', List.flatten_append, List.flatten_cons, List.flatten_nil,
    List.append_nil]

/-- Rounds do as many ticks, and nobody leaves. -/
theorem performAll_rounds {s : Server} (hstep : s.timestep.step ≤ Duration.perSecond) (k : ℕ) :
    (s.performAll (rounds k)).1.timestep.tick = s.timestep.tick + k ∧
      (s.performAll (rounds k)).1.timestep.step = s.timestep.step ∧
      (s.performAll (rounds k)).1.roster.places = s.roster.places := by
  induction k with
  | zero => exact ⟨rfl, rfl, rfl⟩
  | succ k ih =>
    obtain ⟨htick, hsame, hplaces⟩ := ih
    -- the length of a tick never changes, so each round is long enough for one
    obtain ⟨t, hnext, hlength, he⟩ := performAll_round (hsame.trans_le hstep)
    rw [rounds_succ, performAll_append, he]
    refine ⟨?_, ?_, ?_⟩
    · rw [timestep_tick, ← Nat.add_assoc, ← htick]
      exact hnext
    · rw [timestep_tick, ← hsame]
      exact hlength
    · rw [places_tick_zero, ← hplaces]

/-- A tick that tells sends every client its snapshot, if that fits a frame. -/
theorem mem_tick_of_tells {s : Server} {n : Tick} (htells : s.tells n) {a : Address} {seat : Seat}
    (hseat : (a, seat) ∈ s.roster.seats) (now : Duration) {data : Bytes}
    (hdata : Message.encode ((s.simulated n).snapshotFor seat) seat.nextSequence (UInt32.ofNat n) =
      .ok data) : .send ⟨a, data⟩ ∈ (s.tick n now).2 := by
  rw [tick_eq, if_pos htells]
  refine List.mem_flatMap.2 ⟨(a, seat), hseat, List.mem_append_left _ ?_⟩
  rw [post, hdata]
  exact List.mem_singleton_self _

/-- **A round in which clients are told** sends a snapshot of everybody. -/
theorem Sound.told {s : Server} (h : s.Sound) (hstep : s.timestep.step ≤ Duration.perSecond)
    (htells : s.tells (s.timestep.tick + 1)) (hpos : 0 < s.roster.size)
    (hfits : s.roster.size ≤ 4680) :
    ∃ d ∈ sent (s.performAll round).2, ∃ (m : Snapshot) (sequence : UInt16) (tick : UInt32),
      Message.encode m sequence tick = .ok d.data ∧ m.entities.length = s.roster.size := by
  obtain ⟨t, -, -, he⟩ := performAll_round hstep
  have hsound : ({ s with timestep := t } : Server).Sound := h.congr rfl rfl rfl rfl rfl
  obtain ⟨⟨a, seat⟩, hseat⟩ := List.exists_mem_of_length_pos hpos
  set m := (({ s with timestep := t } : Server).simulated (s.timestep.tick + 1)).snapshotFor seat
    with hm
  have hlength : m.entities.length = s.roster.size := (hsound.simulated _).length_sightings
  have hshort : (Message.write m).length ≤ Frame.maxPayload := by
    rw [Snapshot.length_write (by rw [hlength]; exact hfits.trans (by decide)), hlength,
      Frame.maxPayload]
    omega
  have hdata : ∃ data, Message.encode m seat.nextSequence
      (UInt32.ofNat (s.timestep.tick + 1)) = .ok data := ⟨_, if_pos hshort⟩
  obtain ⟨data, hdata⟩ := hdata
  refine ⟨⟨a, data⟩, mem_sent.2 ?_, m, _, _, hdata, hlength⟩
  rw [he]
  exact mem_tick_of_tells (s := { s with timestep := t }) htells hseat 0 hdata

/-- A crowd joins, and ticks are done until the clients are told. -/
def crowdedRun (config : ServerConfig) (n : ℕ) : List Event :=
  crowd n ++ rounds (max config.snapshotEvery.toNat 1)

/-- **Every client is told of everybody**, as long as that fits a frame. -/
theorem crowded (config : ServerConfig) (port : UInt16) {n : ℕ} (hpos : 0 < n)
    (hroom : n ≤ config.maxClients) (hfits : n ≤ 4680) :
    ∃ d ∈ sent ((make config port).performAll (crowdedRun config n)).2,
      ∃ (m : Snapshot) (sequence : UInt16) (tick : UInt32),
        Message.encode m sequence tick = .ok d.data ∧ d.data.length = 27 + 14 * n := by
  have hround : 0 < max config.snapshotEvery.toNat 1 :=
    Nat.lt_of_lt_of_le Nat.zero_lt_one (Nat.le_max_right _ _)
  obtain ⟨k, hk⟩ := Nat.exists_eq_succ_of_ne_zero hround.ne'
  have hsplit : crowdedRun config n = (crowd n ++ rounds k) ++ round := by
    rw [crowdedRun, hk, rounds_succ, List.append_assoc]
  obtain ⟨hcrowd, htimestep⟩ := crowd_sits config port hroom (hfits.trans (by decide))
  have hstep : (Timestep.ofRate config.tickRate).step ≤ Duration.perSecond := Nat.div_le_self _ _
  obtain ⟨htick, hsame, hplaces⟩ := performAll_rounds (htimestep ▸ hstep) k
  have hsound := sound_performAll (sound_make config port) (crowd n ++ rounds k)
  have hconfig := config_performAll (make config port) (crowd n ++ rounds k)
  have hbefore : ((make config port).performAll (crowd n ++ rounds k)).1 =
      (((make config port).performAll (crowd n)).1.performAll (rounds k)).1 := by
    rw [performAll_append]
  rw [← hbefore] at htick hsame hplaces
  rw [hsplit, performAll_append]
  -- the server before the round in which the clients are told
  generalize ((make config port).performAll (crowd n ++ rounds k)).1 = s at *
  have hsize : s.roster.size = n := by
    have hlength := congrArg List.length (hplaces ▸ hcrowd)
    rwa [List.length_map, ← Roster.size_eq, List.length_map, List.length_range] at hlength
  have hclock : s.timestep.tick = k := by rw [htick, htimestep]; exact Nat.zero_add k
  have htells : s.tells (s.timestep.tick + 1) := by
    rw [tells, hclock, hconfig]
    exact hk ▸ Nat.mod_self (k + 1)
  obtain ⟨d, hd, m, sequence, tick, hencode, hlength⟩ :=
    hsound.told (by rw [hsame, htimestep]; exact hstep) htells (hsize ▸ hpos) (hsize ▸ hfits)
  refine ⟨d, ?_, m, sequence, tick, hencode, ?_⟩
  · rw [sent_append]
    exact List.mem_append_right _ hd
  · rw [Snapshot.length_of_encode hencode, hlength, hsize]

/-! ## What is cut -/

theorem IsShort.length_le {s : Server} {data : Bytes} (h : s.IsShort data) : data.length ≤ 83 := by
  obtain ⟨t, m, sequence, tick, -, hencode, hlength, -⟩ := h
  rw [Message.length_of_encode hencode, headerSize, trailerSize]
  omega

/-- **How long the datagrams are** that a server sends: a snapshot as long as there
    are clients, and the rest less than a hundred bytes. -/
theorem Sound.length_of_sent {s : Server} (h : s.Sound) {e : Event} {d : Datagram}
    (hd : .send d ∈ (s.perform e).2) :
    d.data.length ≤ 83 ∨ d.data.length = 27 + 14 * s.roster.size := by
  rcases h.sent_cases hd with hshort | ⟨m, sequence, tick, hencode, hlength⟩
  · exact Or.inl hshort.length_le
  · exact Or.inr (hlength ▸ Snapshot.length_of_encode hencode)

/-- **What is sent is a message** that its receiver gets as it is, if its
    coordinates are finite and, of a request to go back, the server is in time. -/
theorem Sound.message_of_sent {s : Server} (h : s.Sound) {e : Event} {d : Datagram}
    (hd : .send d ∈ (s.perform e).2) :
    ∃ (t : Topic) (m : t.Content) (sequence : UInt16) (tick : UInt32),
      Message.encode m sequence tick = .ok d.data ∧
        (t.IsFinite m → (t = .rollbackRequest → s.InTime) → t.received m = some m) := by
  rcases h.sent_cases hd with ⟨t, m, sequence, tick, -, hencode, -, hm⟩ |
    ⟨m, sequence, tick, hencode, -⟩
  · exact ⟨t, m, sequence, tick, hencode, fun _ => hm⟩
  · refine ⟨.snapshot, m, sequence, tick, hencode, fun hfinite _ => ?_⟩
    exact if_pos (List.all_eq_true.2 hfinite)

/-- **Some datagram is cut if there is room for more than 83 clients**, and none if
    there is not. -/
theorem fits_iff (config : ServerConfig) (port : UInt16) :
    (∀ es, ∀ d ∈ sent ((make config port).performAll es).2, d.data.length ≤ maxPacketSize) ↔
      config.maxClients ≤ 83 := by
  constructor
  · intro hfits
    by_contra hmany
    obtain ⟨d, hd, -, -, -, -, hlong⟩ :=
      crowded config port (n := 84) (by decide) (Nat.lt_of_not_le hmany) (by decide)
    have hfit := hfits _ d hd
    rw [hlong, maxPacketSize] at hfit
    omega
  · intro hfew es d hd
    obtain ⟨before, e, after, rfl, hsent⟩ := mem_performAll (mem_sent.1 hd)
    have hsound := sound_performAll (sound_make config port) before
    have hroom := hsound.room
    rw [config_performAll] at hroom
    have hconfig : (make config port).config = config := rfl
    rw [hconfig] at hroom
    rw [maxPacketSize]
    rcases hsound.length_of_sent hsent with hshort | hlong <;> omega

/-- **What a server sends is received whole** if there is room for no more than 83
    clients.  What fits the receiver's buffer is read as it was written, as long as
    its coordinates are finite and, of a request to go back, as long as the clock
    has not gone round.  What does not is a snapshot of more than 83 clients, and
    what the buffer holds of it is no frame: it is counted and dropped. -/
theorem received_whole (config : ServerConfig) (port : UInt16) :
    ((∀ es, ∀ d ∈ sent ((make config port).performAll es).2, d.data.length ≤ maxPacketSize) ↔
      config.maxClients ≤ 83) ∧
    ∀ es e d, .send d ∈ (((make config port).performAll es).1.perform e).2 →
      (d.data.length ≤ maxPacketSize →
        (∀ (c : Client) (a : Address) (now : Duration),
          c.process now (Endpoint.outcomes ⟨some ⟨a, [d]⟩⟩ maxPacketSize) =
            (.ok (), c.receiveOne d.data now)) ∧
        ∃ (t : Topic) (m : t.Content) (h : Header),
          Message.encode m h.sequence h.tick = .ok d.data ∧
          (t.IsFinite m → (t = .rollbackRequest →
              ((make config port).performAll es).1.timestep.tick < 2 ^ 32) →
            Message.decode d.data = some (h, m))) ∧
      (maxPacketSize < d.data.length →
        d.data.length = 27 + 14 * ((make config port).performAll es).1.roster.size ∧
        (Frame.decode (d.data.take maxPacketSize)).isOk = false ∧
        ∀ (c : Client) (a : Address) (now : Duration),
          c.process now (Endpoint.outcomes ⟨some ⟨a, [d]⟩⟩ maxPacketSize) =
            (.ok (),
              { c with traffic := (c.traffic.countReceived maxPacketSize).countDropped }, [])) := by
  refine ⟨fits_iff config port, fun es e d hd => ?_⟩
  have hsound := sound_performAll (sound_make config port) es
  obtain ⟨t, m, sequence, tick, hencode, hreceived⟩ := hsound.message_of_sent hd
  constructor
  · intro hfits
    refine ⟨fun c a now => ?_, t, m, Message.sentHeader m sequence tick, hencode, ?_⟩
    · rw [Client.process_one, List.take_of_length_le hfits]
    · intro hfinite hclock
      refine Topic.decode_of_received hencode (hreceived hfinite fun hr => ?_)
      exact inTime_performAll config port (hclock hr)
  · intro hlong
    have hcut := Message.not_isOk_take hencode hlong
    have hlength := (hsound.length_of_sent hd).resolve_left fun hshort =>
      absurd (hlong.trans_le hshort) (by decide)
    exact ⟨hlength, hcut, fun c a now => c.process_cut a now hcut hlong⟩

/-- The snapshots of 83 clients are received whole. -/
theorem received_whole_eightyThree :
    ∃ d ∈ sent ((make { maxClients := 83 } Address.gamePort).performAll
        (crowdedRun { maxClients := 83 } 83)).2,
      d.data.length = 1189 ∧ ∀ (c : Client) (a : Address) (now : Duration),
        c.process now (Endpoint.outcomes ⟨some ⟨a, [d]⟩⟩ maxPacketSize) =
          (.ok (), c.receiveOne d.data now) := by
  obtain ⟨d, hd, -, -, -, -, hsize⟩ :=
    crowded { maxClients := 83 } Address.gamePort (n := 83) (by decide) (Nat.le_refl 83) (by decide)
  obtain ⟨es, e, later, -, hsent⟩ := mem_performAll (mem_sent.1 hd)
  have hfits : d.data.length ≤ maxPacketSize := by
    rw [hsize]
    decide
  have hwhole := (received_whole { maxClients := 83 } Address.gamePort).2 es e d hsent
  exact ⟨d, hd, hsize, (hwhole.1 hfits).1⟩

/-- A snapshot of 84 clients is cut, and what comes of it is no frame. -/
theorem snapshot_cut :
    ∃ d ∈ sent ((make { maxClients := 84 } Address.gamePort).performAll
        (crowdedRun { maxClients := 84 } 84)).2,
      d.data.length = 1203 ∧ (Frame.decode (d.data.take maxPacketSize)).isOk = false ∧
        ∀ (c : Client) (a : Address) (now : Duration),
          c.process now (Endpoint.outcomes ⟨some ⟨a, [d]⟩⟩ maxPacketSize) =
            (.ok (),
              { c with traffic := (c.traffic.countReceived maxPacketSize).countDropped }, []) := by
  obtain ⟨d, hd, m, sequence, tick, hencode, hsize⟩ :=
    crowded { maxClients := 84 } Address.gamePort (n := 84) (by decide) (Nat.le_refl 84) (by decide)
  have hlong : maxPacketSize < d.data.length := by
    rw [hsize]
    decide
  have hcut := Message.not_isOk_take hencode hlong
  exact ⟨d, hd, hsize, hcut, fun c a now => c.process_cut a now hcut hlong⟩

end Server

end Netplay
