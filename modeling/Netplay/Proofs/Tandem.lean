/-
  A consistent prediction is never visibly corrected.

  A client and the server's steering of its entity run in tandem: the client
  ticks, the server applies the client's commands one by one, and snapshots are
  taken of the server and delivered to the client, any of them late, again or
  never.

  * `Tandem.step`, `Tandem.run`: an event, and a run;
  * `Tandem.InStep`: both positions are where commands lead from one origin, the
    server's by those that it has applied, the client's by all; a snapshot is
    from where the first so many led; the client's history is the end of what
    was issued;
  * `Tandem.InStep.step`, `Tandem.inStep_run`: events keep both in step;
  * `Tandem.prediction_stays`: a snapshot leaves the player where it is.
-/
import Netplay.Proofs.Mirror
import Netplay.Proofs.Numbers
import Netplay.Proofs.Playing
import Netplay.Proofs.Serving

namespace Netplay

open Corrector (replay)

/-- A snapshot that was taken for a client. -/
structure Shot where
  tick : UInt32
  /-- The full number of the newest command applied then. -/
  newest : UInt32
  snapshot : Snapshot

/-- A client and the server's steering of its entity. -/
structure Tandem where
  client : Client
  /-- How the server's inputs move entities. -/
  steering : Steering
  world : World
  /-- The entity that the client controls. -/
  entity : EntityId
  /-- The number of the client's newest command that the server has applied. -/
  newest : UInt32
  /-- The client's commands that the server has not applied yet. -/
  unapplied : List Command := []
  shots : List Shot := []

namespace Tandem

/-- What can happen. -/
inductive Event where
  | tick
  /-- The server applies the client's next command. -/
  | serve
  /-- The server applies an input for another entity. -/
  | other (p : PendingInput)
  /-- A snapshot is taken at a tick after those of the others. -/
  | take (n : UInt32)
  | deliver (k : ℕ)

/-- What a snapshot tells the client. -/
def view (s : Tandem) : Snapshot :=
  { playerEntity := s.entity
    lastInputSequence := (s.steering.lastApplied.get? s.entity).getD 0
    entities := Server.sightings s.world }

/-- It is what a server with this steering and this world tells it. -/
theorem snapshotFor_eq_view (server : Server) (seat : Seat) (s : Tandem)
    (hsteering : s.steering = server.steering) (hworld : s.world = server.world)
    (hentity : s.entity = seat.entity) : server.snapshotFor seat = s.view := by
  simp only [Server.snapshotFor, view, hsteering, hworld, hentity]

/-- Both after an event. -/
def step (s : Tandem) : Event → Tandem
  | .tick =>
    { s with
      client := s.client.tick
      unapplied := s.unapplied ++ s.client.tick.buffer.drop s.client.buffer.length }
  | .serve =>
    match s.unapplied with
    | [] => s
    | c :: rest =>
      let (took, steering, world) := s.steering.apply s.world
        ⟨s.entity, c.toPacket s.client.sender.playerId⟩
      { s with steering, world, newest := if took then c.sequence else s.newest, unapplied := rest }
  | .other p =>
    if p.entity = s.entity then s
    else
      let (_, steering, world) := s.steering.apply s.world p
      { s with steering, world }
  | .take n =>
    if ∀ shot ∈ s.shots, shot.tick < n then
      { s with shots := s.shots ++ [⟨n, s.newest, s.view⟩] }
    else s
  | .deliver k =>
    match s.shots[k]? with
    | none => s
    | some shot => { s with client := s.client.applySnapshot shot.tick shot.snapshot }

def run (s : Tandem) (es : List Event) : Tandem := es.foldl step s

/-- What an event asks for: the counter of commands does not wrap, and when a
    snapshot is delivered that is not stale, at most 128 commands are newer than
    what it confirms. -/
def Allows (s : Tandem) : Event → Prop
  | .tick => s.client.inputSequence.toNat + 1 < 2 ^ 32
  | .deliver k => ∀ shot, s.shots[k]? = some shot → ¬ s.client.IsStale shot.tick →
      s.client.inputSequence.toNat ≤ shot.newest.toNat + 128
  | _ => True

/-- Every event of a run is allowed when it happens. -/
def Fair : Tandem → List Event → Prop
  | _, [] => True
  | s, e :: rest => s.Allows e ∧ Fair (s.step e) rest

/-- The client hears of its entity by a snapshot of the tick `n`; the server's
    newest command is the client's. -/
def start (client : Client) (steering : Steering) (world : World) (entity : EntityId) (n : UInt32) :
    Tandem :=
  let s : Tandem := { client, steering, world, entity, newest := client.inputSequence }
  { s with client := client.applySnapshot n s.view, shots := [⟨n, s.newest, s.view⟩] }

/-! ## The invariant -/

/-- A snapshot shows the player where the first so many commands led, and
    confirms these. -/
structure Shows (shot : Shot) (speed : Binary32) (origin : Vec2) (base : ℕ)
    (applied : List Command) : Prop where
  le : ∃ k ≤ applied.length, shot.newest.toNat = base + k ∧
    ∃ seen, shot.snapshot.entity? shot.snapshot.playerEntity = some seen ∧
      seen.position = replay speed origin (applied.take k)
  told : shot.snapshot.lastInputSequence = UInt16.ofNat shot.newest.toNat

/-- Both sides go from one origin by the same commands. -/
structure InStep (config : ClientConfig) (origin : Vec2) (base : ℕ) (applied : List Command)
    (acked : ℕ) (s : Tandem) : Prop where
  tuned : s.client.Tuned config
  speed : s.steering.speed = config.tolerance.moveSpeed
  dt : s.steering.dt = (Timestep.ofRate config.tickRate).dt
  player : s.client.player = some s.entity
  alive : s.client.world.isAlive s.entity = true
  /-- On the client it is where all commands lead. -/
  predicted : (s.client.world.get? .transform s.entity).map (·.position) =
    some (replay config.tolerance.moveSpeed origin (applied ++ s.unapplied))
  /-- The history is the end of what was issued. -/
  logged : ∃ h, s.client.world.get? .history s.entity = some h ∧ h.capacity = 128 ∧
    h.Holds base (applied ++ s.unapplied) acked
  numbered : Numbered base (applied ++ s.unapplied)
  counter : s.client.inputSequence.toNat = base + (applied ++ s.unapplied).length
  steps : ∀ c ∈ s.unapplied, c.deltaTime = s.steering.dt
  living : s.world.isAlive s.entity = true
  /-- On the server it is where the applied commands lead. -/
  place : (s.world.get? .transform s.entity).map (·.position) =
    some (replay config.tolerance.moveSpeed origin applied)
  newest : s.newest.toNat = base + applied.length
  remembered : (s.steering.lastApplied.get? s.entity).getD 0 = UInt16.ofNat s.newest.toNat
  /-- The snapshots show what was so. -/
  shows : ∀ shot ∈ s.shots, Shows shot config.tolerance.moveSpeed origin base applied
  /-- Later ones confirm no fewer commands. -/
  order : ∀ x ∈ s.shots, ∀ y ∈ s.shots, x.tick < y.tick → x.newest ≤ y.newest
  /-- Those that are not stale confirm no fewer than the client has heard of. -/
  fresh : ∀ shot ∈ s.shots, ¬ s.client.IsStale shot.tick → base + acked ≤ shot.newest.toNat
  acked_le : acked ≤ applied.length

variable {config : ClientConfig} {origin : Vec2} {base : ℕ} {applied : List Command} {acked : ℕ}
  {s : Tandem}

theorem Shows.append {shot : Shot} {speed : Binary32} (h : Shows shot speed origin base applied)
    (more : List Command) : Shows shot speed origin base (applied ++ more) := by
  obtain ⟨⟨k, hk, hnewest, seen, hseen, hposition⟩, htold⟩ := h
  refine ⟨⟨k, ?_, hnewest, seen, hseen, ?_⟩, htold⟩
  · rw [List.length_append]
    omega
  · rw [List.take_append_of_le_length hk, hposition]

/-! ## The client ticks -/

theorem InStep.tick (h : InStep config origin base applied acked s) (hroom : s.Allows .tick) :
    InStep config origin base applied acked (s.step .tick) := by
  obtain ⟨position, world, htick, hworld⟩ := s.client.tick_cases
  rcases hworld with ⟨hnone, -⟩ | ⟨id, hid, hworld⟩
  · rw [h.player] at hnone
    cases hnone
  · obtain rfl : s.entity = id := Option.some.inj (h.player.symm.trans hid)
    set command := s.client.nextCommand position with hcommand
    have hstep : s.step .tick = { s with
        client := { s.client with
          script := s.client.script.advance
          inputSequence := s.client.inputSequence + 1
          world
          buffer := s.client.buffer ++ [command] }
        unapplied := s.unapplied ++ [command] } := by
      simp only [step, htick, List.drop_left]
    have hissued : applied ++ (s.unapplied ++ [command]) = (applied ++ s.unapplied) ++ [command] :=
      (List.append_assoc _ _ _).symm
    have hsequence : (s.client.inputSequence + 1).toNat = s.client.inputSequence.toNat + 1 := by
      rw [UInt32.toNat_add]
      exact Nat.mod_eq_of_lt hroom
    have hnumber : command.sequence.toNat = base + 1 + (applied ++ s.unapplied).length := by
      have := h.counter
      show (s.client.inputSequence + 1).toNat = _
      omega
    have htuned := h.tuned.tick
    rw [htick] at htuned
    rw [hstep]
    obtain ⟨log, hlog, hcapacity, hholds⟩ := h.logged
    refine { h with
      tuned := htuned
      alive := ?_, predicted := ?_, logged := ?_, numbered := ?_, counter := ?_, steps := ?_ }
    · simpa [hworld] using h.alive
    · obtain ⟨t, ht, hposition⟩ := Option.map_eq_some_iff.1 h.predicted
      show (world.get? .transform s.entity).map (·.position) = some (replay _ _ (applied ++ _))
      rw [hissued, Corrector.replay_append, hworld, World.get?_modify_of_ne _ _ _ (by decide),
        World.get?_modify_self, ht]
      simp [Client.predict, hposition, h.tuned.setup, hcommand, Client.nextCommand,
        Corrector.replay]
    · refine ⟨log.push command, ?_, hcapacity, ?_⟩
      · show world.get? .history s.entity = _
        rw [hworld, World.get?_modify_self, World.get?_modify_of_ne _ _ _ (by decide), hlog]
        rfl
      · show (log.push command).Holds base (applied ++ _) acked
        rw [hissued]
        exact hholds.push command
    · show Numbered base (applied ++ _)
      rw [hissued]
      exact h.numbered.concat hnumber
    · show (s.client.inputSequence + 1).toNat = base + (applied ++ _).length
      have := h.counter
      simp only [hissued, hsequence, List.length_append, List.length_singleton] at this ⊢
      omega
    · intro c hc
      rcases List.mem_append.1 hc with hc | hc
      · exact h.steps c hc
      · rw [List.mem_singleton.1 hc]
        exact h.tuned.dt.trans h.dt.symm

/-! ## The server applies -/

theorem InStep.accepts (h : InStep config origin base applied acked s) {c : Command}
    {rest : List Command} (hnext : s.unapplied = c :: rest) (playerId : UInt32) :
    s.steering.accepts s.world ⟨s.entity, c.toPacket playerId⟩ = true := by
  have hnumber : c.sequence.toNat = s.newest.toNat + 1 := by
    have hafter := h.numbered.of_append
    rw [hnext] at hafter
    rw [hafter.1, h.newest]
  obtain ⟨t, ht, -⟩ := Option.map_eq_some_iff.1 h.place
  refine Bool.and_eq_true_iff.2 ⟨?_, ?_⟩
  · have hremembered := h.remembered
    unfold Steering.isFresh
    split
    · rename_i last hlast
      have hget : s.steering.lastApplied.get? s.entity = some last := hlast
      rw [hget, Option.getD_some] at hremembered
      have hpacket : (c.toPacket playerId).header.sequence = UInt16.ofNat c.sequence.toNat := rfl
      rw [hpacket, hremembered]
      exact (Sequence.newer_ofNat ⟨by omega, by omega⟩).2 (by omega)
    · rfl
  · show (s.world.get? .transform s.entity).isSome = true
    rw [ht]
    rfl

theorem InStep.serve (h : InStep config origin base applied acked s) :
    ∃ applied', InStep config origin base applied' acked (s.step .serve) := by
  unfold step
  dsimp only
  split
  · exact ⟨applied, h⟩
  · rename_i c rest hnext
    have hissued : applied ++ s.unapplied = (applied ++ [c]) ++ rest := by
      rw [hnext, List.append_assoc, List.singleton_append]
    have hnumber : c.sequence.toNat = base + (applied ++ [c]).length := by
      have hafter := h.numbered.of_append
      rw [hnext] at hafter
      rw [hafter.1, List.length_append]
      rfl
    rw [Steering.apply_of_accepts (h.accepts hnext _)]
    obtain ⟨t, ht, hposition⟩ := Option.map_eq_some_iff.1 h.place
    refine ⟨applied ++ [c], { h with
      predicted := ?_, logged := ?_, numbered := ?_, counter := ?_, steps := ?_, living := ?_
      place := ?_, newest := hnumber, remembered := ?_, shows := ?_, acked_le := ?_ }⟩
    · show _ = some (replay _ _ ((applied ++ [c]) ++ rest))
      rw [← hissued]
      exact h.predicted
    · show ∃ log, _ ∧ _ ∧ CommandLog.Holds log base ((applied ++ [c]) ++ rest) acked
      rw [← hissued]
      exact h.logged
    · show Numbered base ((applied ++ [c]) ++ rest)
      rw [← hissued]
      exact h.numbered
    · show _ = base + ((applied ++ [c]) ++ rest).length
      rw [← hissued]
      exact h.counter
    · intro c' hc'
      exact h.steps c' (hnext ▸ List.mem_cons_of_mem _ hc')
    · simpa using h.living
    · have hdt : c.deltaTime = s.steering.dt := h.steps c (hnext ▸ List.mem_cons_self)
      show ((World.modify _ _ _ _).get? .transform s.entity).map (·.position) = _
      rw [World.get?_modify_self, ht, Corrector.replay_append]
      simp [Steering.steer, Command.toPacket, hposition, h.speed, hdt, Corrector.replay]
    · show ((EntityMap.insert _ _ _).get? s.entity).getD 0 = UInt16.ofNat c.sequence.toNat
      rw [EntityMap.get?_insert, if_pos rfl]
      rfl
    · intro shot hshot
      exact (h.shows shot hshot).append [c]
    · have := h.acked_le
      rw [List.length_append]
      omega

theorem InStep.other (h : InStep config origin base applied acked s) (p : PendingInput) :
    InStep config origin base applied acked (s.step (.other p)) := by
  unfold step
  dsimp only
  split_ifs with hentity
  · exact h
  · have hne : s.entity ≠ p.entity := Ne.symm hentity
    rcases s.steering.apply_cases s.world p with ⟨-, he⟩ | ⟨-, he⟩
    · rw [he]
      refine { h with living := ?_, place := ?_, remembered := ?_ }
      · simpa using h.living
      · show ((World.modify _ _ _ _).get? .transform s.entity).map (·.position) = _
        rw [World.get?_modify, if_neg hne]
        exact h.place
      · show ((EntityMap.insert _ _ _).get? s.entity).getD 0 = _
        rw [EntityMap.get?_insert, if_neg hne]
        exact h.remembered
    · rw [he]
      exact h

/-! ## Snapshots -/

theorem InStep.seen (h : InStep config origin base applied acked s) :
    ∃ seen, s.view.entity? s.view.playerEntity = some seen ∧ seen.id = s.entity ∧
      seen.position = replay config.tolerance.moveSpeed origin applied := by
  obtain ⟨t, ht, hposition⟩ := Option.map_eq_some_iff.1 h.place
  obtain ⟨seen, hshown, hid, hseen⟩ : ∃ seen, s.world.shown? s.entity = some seen ∧
      seen.id = s.entity ∧ seen.position = t.position := by
    rw [World.shown?, if_pos h.living, ht]
    exact ⟨_, rfl, rfl, rfl⟩
  have hmem : seen ∈ Server.sightings s.world := Server.mem_sightings.2 (hid ▸ hshown)
  have hfind := Client.find?_of_ascending (Server.sightings_ascending s.world) hmem
  rw [hid] at hfind
  exact ⟨seen, hfind, hid, hseen.trans hposition⟩

theorem InStep.take (h : InStep config origin base applied acked s) (n : UInt32) :
    InStep config origin base applied acked (s.step (.take n)) := by
  have hshown : Shows ⟨n, s.newest, s.view⟩ config.tolerance.moveSpeed origin base applied := by
    obtain ⟨seen, hseen, -, hposition⟩ := h.seen
    refine ⟨⟨applied.length, le_rfl, h.newest, seen, hseen, ?_⟩, h.remembered⟩
    rw [List.take_length, hposition]
  unfold step
  dsimp only
  split_ifs with hlater
  · refine { h with shows := ?_, order := ?_, fresh := ?_ }
    · intro shot hshot
      rcases List.mem_append.1 hshot with hshot | hshot
      · exact h.shows shot hshot
      · rw [List.mem_singleton.1 hshot]
        exact hshown
    · intro x hx y hy hxy
      rcases List.mem_append.1 hx with hx | hx
      · rcases List.mem_append.1 hy with hy | hy
        · exact h.order x hx y hy hxy
        · obtain ⟨⟨k, hk, hnewest, -⟩, -⟩ := h.shows x hx
          rw [List.mem_singleton.1 hy]
          refine UInt32.le_iff_toNat_le.2 ?_
          show x.newest.toNat ≤ s.newest.toNat
          rw [hnewest, h.newest]
          omega
      · -- nothing is later than the new one
        rw [List.mem_singleton.1 hx] at hxy
        rcases List.mem_append.1 hy with hy | hy
        · exact absurd (UInt32.lt_trans hxy (hlater y hy)) (UInt32.lt_irrefl _)
        · rw [List.mem_singleton.1 hy] at hxy
          exact absurd hxy (UInt32.lt_irrefl _)
    · intro shot hshot hstale
      rcases List.mem_append.1 hshot with hshot | hshot
      · exact h.fresh shot hshot hstale
      · rw [List.mem_singleton.1 hshot]
        have := h.acked_le
        have := h.newest
        show base + acked ≤ s.newest.toNat
        omega
  · exact h

/-- What a delivered snapshot confirms is read as the full number. -/
theorem InStep.widen (h : InStep config origin base applied acked s) {shot : Shot}
    (hshot : shot ∈ s.shots) (hroom : s.client.inputSequence.toNat ≤ shot.newest.toNat + 128) :
    (Sequence.widen s.client.inputSequence shot.snapshot.lastInputSequence).toNat =
      shot.newest.toNat := by
  obtain ⟨⟨k, hk, hnewest, -⟩, htold⟩ := h.shows shot hshot
  have hcounter := h.counter
  rw [List.length_append] at hcounter
  rw [htold]
  exact Sequence.toNat_widen_of_near shot.newest.toNat_lt ⟨by omega, by omega⟩

/-- **A comparison with a snapshot that is not stale leaves the player where it
    is.** -/
theorem InStep.reconcile (h : InStep config origin base applied acked s) {shot : Shot}
    (hshot : shot ∈ s.shots) (hstale : ¬ s.client.IsStale shot.tick)
    (hroom : s.client.inputSequence.toNat ≤ shot.newest.toNat + 128) :
    ∃ seen t log, shot.snapshot.entity? shot.snapshot.playerEntity = some seen ∧
      s.client.world.get? .transform s.entity = some t ∧
      s.client.world.get? .history s.entity = some log ∧
      let ack := Sequence.widen s.client.inputSequence shot.snapshot.lastInputSequence
      let answer := s.client.corrector.reconcile s.client.world s.entity seen.position ack
      answer.1 ≠ .skipped ∧ answer.2.2.isAlive s.entity = true ∧
        answer.2.2.get? .transform s.entity = some t ∧
        answer.2.2.get? .history s.entity = some (log.acknowledge ack) := by
  obtain ⟨⟨k, hk, hnewest, seen, hseen, hposition⟩, -⟩ := h.shows shot hshot
  obtain ⟨t, ht, hpredicted⟩ := Option.map_eq_some_iff.1 h.predicted
  obtain ⟨log, hlog, hcapacity, hholds⟩ := h.logged
  have hcounter := h.counter
  have hfresh := h.fresh shot hshot hstale
  rw [List.length_append] at hcounter
  rw [← h.tuned.corrector] at hpredicted hposition
  have htake : applied.take k = (applied ++ s.unapplied).take k :=
    (List.take_append_of_le_length hk).symm
  rw [htake] at hposition
  refine ⟨seen, t, log, hseen, ht, hlog, ?_⟩
  refine Corrector.reconcile_of_holds h.alive hlog ht hholds h.numbered
    ((h.widen hshot hroom).trans hnewest) (by omega) ?_ hpredicted hposition
  rw [hcapacity, List.length_append]
  omega

/-- A snapshot that is not stale keeps both in step, and the player stays where
    it is. -/
theorem InStep.heard (h : InStep config origin base applied acked s) {shot : Shot}
    (hshot : shot ∈ s.shots) (hstale : ¬ s.client.IsStale shot.tick)
    (hroom : s.client.inputSequence.toNat ≤ shot.newest.toNat + 128) :
    (∃ acked', InStep config origin base applied acked'
      { s with client := s.client.applySnapshot shot.tick shot.snapshot }) ∧
    (s.client.applySnapshot shot.tick shot.snapshot).world.get? .transform s.entity =
      s.client.world.get? .transform s.entity := by
  obtain ⟨⟨k, hk, hnewest, -⟩, -⟩ := h.shows shot hshot
  obtain ⟨seen, t, log, hseen, ht, hlog, -, halive, htransform, hhistory⟩ :=
    h.reconcile hshot hstale hroom
  obtain ⟨log', hlog', hcapacity, hholds⟩ := h.logged
  obtain rfl : log = log' := Option.some.inj (hlog.symm.trans hlog')
  have hack := (h.widen hshot hroom).trans hnewest
  rcases s.client.applySnapshot_cases shot.tick shot.snapshot with ⟨hs, -⟩ | ⟨-, -, hnone⟩ |
    ⟨seen', id, -, hseen', hid, he⟩ | ⟨_, _, -, -, hnone, -, -⟩
  · exact absurd hs hstale
  · rcases hnone with hnone | hnone
    · rw [hseen] at hnone
      cases hnone
    · rw [h.player] at hnone
      cases hnone
  · obtain rfl : s.entity = id := Option.some.inj (h.player.symm.trans hid)
    obtain rfl : seen = seen' := Option.some.inj (hseen.symm.trans hseen')
    obtain ⟨_, hfollow⟩ := (s.client.adopting shot.tick shot.snapshot).follow_eq shot.snapshot
      s.entity seen
    rw [he, hfollow]
    refine ⟨⟨max acked k, { h with
      tuned := ?_, alive := halive, predicted := ?_, logged := ?_, fresh := ?_
      acked_le := ?_ }⟩, ?_⟩
    · exact ⟨h.tuned.setup, (Corrector.config_reconcile _ _ _ _ _).trans h.tuned.corrector,
        h.tuned.step⟩
    · have hpredicted := h.predicted
      rw [ht] at hpredicted
      show (World.get? _ .transform s.entity).map _ = _
      exact (congrArg _ htransform).trans hpredicted
    · refine ⟨_, hhistory, by rw [CommandLog.capacity_acknowledge, hcapacity], ?_⟩
      exact hholds.acknowledge h.numbered hack (by rw [List.length_append]; omega)
    · intro x hx hnew
      have hlt : shot.tick < x.tick := UInt32.not_le.1 fun hle => hnew ⟨shot.tick, rfl, hle⟩
      have hle := UInt32.le_iff_toNat_le.1 (h.order shot hshot x hx hlt)
      have hfresh := h.fresh shot hshot hstale
      omega
    · have := h.acked_le
      show max acked k ≤ applied.length
      omega
    · exact htransform.trans ht.symm
  · rw [h.player] at hnone
    cases hnone

/-- A delivery keeps both in step, and the player stays where it is. -/
theorem InStep.deliver (h : InStep config origin base applied acked s) {k : ℕ}
    (hroom : s.Allows (.deliver k)) :
    (∃ acked', InStep config origin base applied acked' (s.step (.deliver k))) ∧
    (s.step (.deliver k)).client.world.get? .transform s.entity =
      s.client.world.get? .transform s.entity := by
  unfold step
  dsimp only
  split
  · exact ⟨⟨acked, h⟩, rfl⟩
  · rename_i shot hshot
    have hmem : shot ∈ s.shots := List.mem_of_getElem? hshot
    by_cases hstale : s.client.IsStale shot.tick
    · rw [Client.applySnapshot_of_stale hstale]
      exact ⟨⟨acked, h⟩, rfl⟩
    · exact h.heard hmem hstale (hroom shot hshot hstale)

/-! ## Runs -/

/-- **Every event keeps both in step.** -/
theorem InStep.step (h : InStep config origin base applied acked s) {e : Event}
    (hallows : s.Allows e) :
    ∃ applied' acked', InStep config origin base applied' acked' (s.step e) := by
  cases e with
  | tick => exact ⟨applied, acked, h.tick hallows⟩
  | serve =>
    obtain ⟨applied', h'⟩ := h.serve
    exact ⟨applied', acked, h'⟩
  | other p => exact ⟨applied, acked, h.other p⟩
  | take n => exact ⟨applied, acked, h.take n⟩
  | deliver k =>
    obtain ⟨⟨acked', h'⟩, -⟩ := h.deliver hallows
    exact ⟨applied, acked', h'⟩

/-- **Every run keeps both in step.** -/
theorem inStep_run (h : InStep config origin base applied acked s) {es : List Event}
    (hfair : s.Fair es) :
    ∃ applied' acked', InStep config origin base applied' acked' (s.run es) := by
  induction es generalizing applied acked s with
  | nil => exact ⟨applied, acked, h⟩
  | cons e rest ih =>
    obtain ⟨hallows, hrest⟩ := hfair
    obtain ⟨_, _, h'⟩ := h.step hallows
    exact ih h' hrest

theorem entity_step (s : Tandem) (e : Event) : (s.step e).entity = s.entity := by
  cases e with
  | tick => rfl
  | serve =>
    unfold step
    dsimp only
    split <;> rfl
  | other p =>
    unfold step
    dsimp only
    split_ifs <;> rfl
  | take n =>
    unfold step
    dsimp only
    split_ifs <;> rfl
  | deliver k =>
    unfold step
    dsimp only
    split <;> rfl

theorem entity_run (s : Tandem) (es : List Event) : (s.run es).entity = s.entity := by
  induction es generalizing s with
  | nil => rfl
  | cons e rest ih => exact (ih (s.step e)).trans (s.entity_step e)

/-- **Both are in step when the client takes control**, if the server has applied
    all of its commands. -/
theorem inStep_start {client : Client} {steering : Steering} {world : World} {entity : EntityId}
    {n : UInt32} (htuned : client.Tuned config)
    (hspeed : steering.speed = config.tolerance.moveSpeed)
    (hdt : steering.dt = (Timestep.ofRate config.tickRate).dt) (hplayer : client.player = none)
    (hcontrol : (start client steering world entity n).client.player = some entity)
    (happlied : (steering.lastApplied.get? entity).getD 0 =
      UInt16.ofNat client.inputSequence.toNat) :
    ∃ origin, InStep config origin client.inputSequence.toNat [] 0
      (start client steering world entity n) := by
  set m : Snapshot :=
    { client, steering, world, entity, newest := client.inputSequence : Tandem }.view with hm
  have hstart : start client steering world entity n =
      { client := client.applySnapshot n m, steering, world, entity
        newest := client.inputSequence, shots := [⟨n, client.inputSequence, m⟩] } := rfl
  rw [hstart] at hcontrol ⊢
  change (client.applySnapshot n m).player = some entity at hcontrol
  obtain ⟨seen, taken, hseen, rfl, htaken, he⟩ :=
    Client.takeControl_of_applySnapshot hplayer hcontrol
  obtain ⟨hcounter, halive, htransform, hhistory⟩ := Client.takeControl_spec htaken
  obtain ⟨_, hfollow⟩ := taken.follow_eq m seen.id seen
  have hshown := Server.mem_sightings.1 (List.mem_of_find?_eq_some hseen)
  have hack : (Sequence.widen client.inputSequence m.lastInputSequence).toNat =
      client.inputSequence.toNat + 0 := by
    show (Sequence.widen _ ((steering.lastApplied.get? seen.id).getD 0)).toNat = _
    rw [happlied]
    exact Sequence.toNat_widen_of_near client.inputSequence.toNat_lt ⟨by omega, by omega⟩
  -- the prediction begins where the entity is seen, with an empty history
  have hholds : CommandLog.empty.Holds client.inputSequence.toNat [] 0 := CommandLog.holds_empty _
  have hplaced : (Transform.placed seen.position).position =
      replay taken.corrector.config.moveSpeed seen.position [] := rfl
  have hseenat : seen.position =
      replay taken.corrector.config.moveSpeed seen.position ([].take 0) := rfl
  obtain ⟨-, halive', htransform', hhistory'⟩ := Corrector.reconcile_of_holds halive hhistory
    htransform hholds trivial hack le_rfl (Nat.zero_le _) hplaced hseenat
  rw [hfollow, hcounter] at he
  refine ⟨seen.position, {
    tuned := htuned.applySnapshot n m, speed := hspeed, dt := hdt, player := hcontrol
    alive := ?_, predicted := ?_, logged := ?_, numbered := trivial, counter := ?_, steps := ?_
    living := World.isAlive_of_shown? hshown, place := World.position_of_shown? hshown
    newest := rfl, remembered := happlied, shows := ?_, order := ?_, fresh := ?_
    acked_le := le_rfl }⟩
  · rw [he]
    exact halive'
  · rw [he]
    exact congrArg (Option.map Transform.position) htransform'
  · rw [he]
    refine ⟨_, hhistory', CommandLog.capacity_acknowledge _ _, ?_⟩
    exact hholds.acknowledge trivial hack le_rfl
  · rw [he]
    rfl
  · intro c hc
    cases hc
  · intro shot hshot
    obtain rfl := List.mem_singleton.1 hshot
    exact ⟨⟨0, le_rfl, rfl, seen, hseen, rfl⟩, happlied⟩
  · intro x hx y hy _
    rw [List.mem_singleton.1 hx, List.mem_singleton.1 hy]
    exact UInt32.le_refl _
  · intro shot hshot _
    rw [List.mem_singleton.1 hshot]
    exact le_rfl

/-- **A consistent prediction is never visibly corrected.**  The client, whatever
    came before, takes control of its entity by a snapshot of a server that has
    the same speed and the same step and has applied all of its commands.  However
    it ticks from then on, its commands are applied one by one, and snapshots are
    taken and delivered, late, again or never: when a snapshot is delivered, the
    player stays where it is, although a comparison is made if it is not stale. -/
theorem prediction_stays (config : ClientConfig) (now : Duration) (past : List Client.Event)
    (steering : Steering) (world : World) (entity : EntityId) (n : UInt32) (es : List Event) (k : ℕ)
    (hspeed : steering.speed = config.tolerance.moveSpeed)
    (hdt : steering.dt = (Timestep.ofRate config.tickRate).dt)
    (hplayer : ((Client.make config now).performAll past).1.player = none)
    (hcontrol : (start ((Client.make config now).performAll past).1 steering world entity
      n).client.player = some entity)
    (happlied : (steering.lastApplied.get? entity).getD 0 =
      UInt16.ofNat ((Client.make config now).performAll past).1.inputSequence.toNat)
    (hfair : (start ((Client.make config now).performAll past).1 steering world entity n).Fair es)
    (hroom : ((start ((Client.make config now).performAll past).1 steering world entity n).run
      es).Allows (.deliver k)) :
    let s := (start ((Client.make config now).performAll past).1 steering world entity n).run es
    ∃ t, s.client.world.get? .transform entity = some t ∧
      (s.step (.deliver k)).client.world.get? .transform entity = some t ∧
      ∀ shot, s.shots[k]? = some shot → ¬ s.client.IsStale shot.tick →
        ∃ seen, shot.snapshot.entity? shot.snapshot.playerEntity = some seen ∧
          (s.client.corrector.reconcile s.client.world entity seen.position (Sequence.widen
            s.client.inputSequence shot.snapshot.lastInputSequence)).1 ≠ .skipped := by
  intro s
  have htuned := Client.tuned_performAll (Client.tuned_make config now) past
  obtain ⟨origin, hstart⟩ := inStep_start htuned hspeed hdt hplayer hcontrol happlied
  obtain ⟨applied, acked, h⟩ := inStep_run hstart hfair
  have hentity : s.entity = entity := entity_run _ es
  obtain ⟨-, hstays⟩ := h.deliver hroom
  obtain ⟨t, ht, -⟩ := Option.map_eq_some_iff.1 h.predicted
  rw [hentity] at ht hstays
  refine ⟨t, ht, hstays.trans ht, fun shot hshot hstale => ?_⟩
  obtain ⟨seen, _, _, hseen, -, -, hanswer, -⟩ :=
    h.reconcile (List.mem_of_getElem? hshot) hstale (hroom shot hshot hstale)
  rw [hentity] at hanswer
  exact ⟨seen, hseen, hanswer⟩

/-- The client ticks, and only after the next snapshot its command is applied. -/
def aheadOfTheServer : List Event := [.tick, .take 2, .serve]

/-- When that snapshot is delivered, the player is a step ahead of it, so there
    is a correction; the player stays where it is. -/
theorem prediction_stays_aheadOfTheServer :
    let config : ClientConfig := {}
    let steering : Steering :=
      { speed := config.tolerance.moveSpeed, dt := (Timestep.ofRate config.tickRate).dt }
    let world := (World.empty.spawn 1).2.attach .transform 1 (.placed .zero)
    let s := (start ((Client.make config 0).performAll []).1 steering world 1 1).run
      aheadOfTheServer
    ((s.step (.deliver 1)).client.corrections = s.client.corrections + 1 ∧
      (s.client.world.get? .transform 1).map (·.position) ≠ some .zero) ∧
    ∃ t, s.client.world.get? .transform 1 = some t ∧
      (s.step (.deliver 1)).client.world.get? .transform 1 = some t ∧
      ∀ shot, s.shots[1]? = some shot → ¬ s.client.IsStale shot.tick →
        ∃ seen, shot.snapshot.entity? shot.snapshot.playerEntity = some seen ∧
          (s.client.corrector.reconcile s.client.world 1 seen.position (Sequence.widen
            s.client.inputSequence shot.snapshot.lastInputSequence)).1 ≠ .skipped := by
  exact ⟨by decide +kernel, prediction_stays {} 0 []
    { speed := ({} : ClientConfig).tolerance.moveSpeed, dt := (Timestep.ofRate _).dt }
    ((World.empty.spawn 1).2.attach .transform 1 (.placed .zero)) 1 1 aheadOfTheServer 1 rfl rfl
    (by decide +kernel) (by decide +kernel) (by decide +kernel)
    ⟨by unfold Allows; decide +kernel, trivial, trivial, trivial⟩
    fun _ _ _ => Nat.le_add_left_of_le (by decide +kernel)⟩

end Tandem

end Netplay
