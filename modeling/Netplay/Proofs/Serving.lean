/-
  What one operation of the server does.

  * `queueInput_cases`, `receiveOne_cases`: a datagram is an input packet that
    waits, with the one that joins its sender, or it changes nothing but
    counters and clocks of the roster;
  * `Steering.apply_cases`, `applyAll_cons`: inputs are applied one by one, and
    one takes effect or nothing;
  * `Steering.AlikeAt`: what is seen of one entity; an input of another does not
    show in it (`alikeAt_apply`);
  * `tick_fst`, `dropSilent_eq_of_gone`: a tick applies, records, tells and
    drops;
  * `mem_sent_tick`, `isAnswer_of_receiveOne`: the datagrams of a tick are
    snapshots and digests of the world that was recorded, and answers are
    neither.
-/
import Netplay.Proofs.Runs
import Netplay.Proofs.Wire
import Netplay.Proofs.Worlds

namespace Netplay

/-! ## The roster -/

namespace Roster

def places (r : Roster) : List (Address × EntityId) := r.seats.map fun p => (p.1, p.2.entity)

theorem places_modify (r : Roster) (a : Address) {f : Seat → Seat}
    (hf : ∀ seat, (f seat).entity = seat.entity) : (r.modify a f).places = r.places := by
  unfold places modify
  rw [List.map_map]
  refine List.map_congr_left fun p _ => ?_
  by_cases h : p.1 = a <;> simp [h, hf]

@[simp] theorem places_heard (r : Roster) (a : Address) (now : Duration) :
    (r.heard a now).places = r.places := places_modify r a fun _ => rfl

@[simp] theorem places_takeSequences (r : Roster) (a : Address) (n : UInt16) :
    (r.takeSequences a n).places = r.places := places_modify r a fun _ => rfl

@[simp] theorem places_append (r : Roster) (a : Address) (seat : Seat) :
    (r.append a seat).places = r.places ++ [(a, seat.entity)] := List.map_append

theorem places_find? (r : Roster) (a : Address) :
    (r.find? a).map (·.entity) = r.places.lookup a := by
  obtain ⟨seats⟩ := r
  show (seats.lookup a).map _ = (seats.map _).lookup a
  induction seats with
  | nil => rfl
  | cons p rest ih =>
    rw [List.map_cons, List.lookup_cons, List.lookup_cons]
    split
    · rfl
    · exact ih

/-- The roster after every client has been told of a tick. -/
def told (r : Roster) : Roster :=
  ⟨r.seats.map fun p => (p.1, { p.2 with nextSequence := p.2.nextSequence + 2 })⟩

theorem isSome_find? (r : Roster) (a : Address) :
    (r.find? a).isSome = (r.places.lookup a).isSome := by
  rw [← places_find?, Option.isSome_map]

@[simp] theorem places_told (r : Roster) : r.told.places = r.places := by
  unfold told places
  rw [List.map_map]
  rfl

end Roster

/-! ## Steering -/

namespace Steering

theorem apply_of_accepts {s : Steering} {r : World} {p : PendingInput} (h : s.accepts r p = true) :
    s.apply r p =
      (true, { s with lastApplied := s.lastApplied.insert p.entity p.packet.header.sequence },
        r.modify .transform p.entity (s.steer p.packet)) :=
  if_pos h

theorem apply_of_not_accepts {s : Steering} {r : World} {p : PendingInput}
    (h : s.accepts r p = false) : s.apply r p = (false, s, r) :=
  if_neg (Bool.eq_false_iff.1 h)

/-- **An input takes effect or nothing does.** -/
theorem apply_cases (s : Steering) (r : World) (p : PendingInput) :
    (s.accepts r p = true ∧ s.apply r p =
      (true, { s with lastApplied := s.lastApplied.insert p.entity p.packet.header.sequence },
        r.modify .transform p.entity (s.steer p.packet))) ∨
    (s.accepts r p = false ∧ s.apply r p = (false, s, r)) := by
  cases h : s.accepts r p
  · exact Or.inr ⟨rfl, apply_of_not_accepts h⟩
  · exact Or.inl ⟨rfl, apply_of_accepts h⟩

theorem foldl_apply (ps : List PendingInput) (n : ℕ) (s : Steering) (r : World) :
    ps.foldl (fun (n, s, r) p =>
      let (took, s, r) := s.apply r p
      (if took then n + 1 else n, s, r)) (n, s, r) =
    (n + (s.applyAll r ps).1, (s.applyAll r ps).2) := by
  induction ps generalizing n s r with
  | nil => rfl
  | cons p rest ih =>
    rcases hp : s.apply r p with ⟨took, s', r'⟩
    have hcons : s.applyAll r (p :: rest) =
        ((if took then 0 + 1 else 0) + (s'.applyAll r' rest).1, (s'.applyAll r' rest).2) := by
      rw [applyAll, List.foldl_cons]
      simp only [hp]
      exact ih _ s' r'
    rw [List.foldl_cons, hcons]
    simp only [hp]
    refine (ih _ s' r').trans ?_
    cases took <;> simp [Nat.add_assoc]

theorem applyAll_cons_eq (s : Steering) (r : World) (p : PendingInput) (ps : List PendingInput) :
    s.applyAll r (p :: ps) = ((if (s.apply r p).1 then 0 + 1 else 0) +
      ((s.apply r p).2.1.applyAll (s.apply r p).2.2 ps).1,
        ((s.apply r p).2.1.applyAll (s.apply r p).2.2 ps).2) := foldl_apply ps _ _ _

/-- Inputs are applied one after the other. -/
theorem applyAll_cons (s : Steering) (r : World) (p : PendingInput) (ps : List PendingInput) :
    (s.applyAll r (p :: ps)).2 = ((s.apply r p).2.1.applyAll (s.apply r p).2.2 ps).2 := by
  rw [applyAll_cons_eq]

theorem count_applyAll_cons (s : Steering) (r : World) (p : PendingInput) (ps : List PendingInput) :
    (s.applyAll r (p :: ps)).1 = (if (s.apply r p).1 then 1 else 0) +
      ((s.apply r p).2.1.applyAll (s.apply r p).2.2 ps).1 := by
  rw [applyAll_cons_eq]

/-- What holds before inputs are applied and is kept by each one holds after. -/
theorem applyAll_induction {motive : Steering → World → Prop} (ps : List PendingInput)
    (hstep : ∀ s r, ∀ p ∈ ps, motive s r → motive (s.apply r p).2.1 (s.apply r p).2.2)
    {s : Steering} {r : World} (h : motive s r) :
    motive (s.applyAll r ps).2.1 (s.applyAll r ps).2.2 := by
  induction ps generalizing s r with
  | nil => exact h
  | cons p rest ih =>
    rw [applyAll_cons]
    exact ih (fun s r p' hp' => hstep s r p' (List.mem_cons_of_mem _ hp'))
      (hstep s r p List.mem_cons_self h)

@[simp] theorem speed_apply (s : Steering) (r : World) (p : PendingInput) :
    (s.apply r p).2.1.speed = s.speed := by
  rcases s.apply_cases r p with ⟨-, h⟩ | ⟨-, h⟩ <;> rw [h]

@[simp] theorem dt_apply (s : Steering) (r : World) (p : PendingInput) :
    (s.apply r p).2.1.dt = s.dt := by
  rcases s.apply_cases r p with ⟨-, h⟩ | ⟨-, h⟩ <;> rw [h]

@[simp] theorem isAlive_apply (s : Steering) (r : World) (p : PendingInput) (id : EntityId) :
    (s.apply r p).2.2.isAlive id = r.isAlive id := by
  rcases s.apply_cases r p with ⟨-, h⟩ | ⟨-, h⟩ <;> rw [h]
  exact World.isAlive_modify r _ _ _ _

theorem get?_apply_of_ne (s : Steering) (r : World) (p : PendingInput) {k : Component.Kind}
    (hk : k ≠ .transform) (id : EntityId) : (s.apply r p).2.2.get? k id = r.get? k id := by
  rcases s.apply_cases r p with ⟨-, h⟩ | ⟨-, h⟩ <;> rw [h]
  exact World.get?_modify_of_ne r _ _ hk _

theorem has_apply (s : Steering) (r : World) (p : PendingInput) (k : Component.Kind)
    (id : EntityId) : (s.apply r p).2.2.has k id = r.has k id := by
  by_cases hk : k = .transform
  · subst hk
    rcases s.apply_cases r p with ⟨-, h⟩ | ⟨-, h⟩ <;> rw [h]
    rw [World.has, World.get?_modify, World.has]
    by_cases hid : id = p.entity
    · subst hid
      rw [if_pos rfl, Option.isSome_map]
    · rw [if_neg hid]
  · rw [World.has, get?_apply_of_ne s r p hk, World.has]

/-- Two states of steering and world show the same of an entity: its newest input,
    whether it lives, and all its components. -/
structure AlikeAt (id : EntityId) (a b : Steering × World) : Prop where
  lastApplied : b.1.lastApplied.get? id = a.1.lastApplied.get? id
  alive : b.2.isAlive id = a.2.isAlive id
  get? : ∀ k, b.2.get? k id = a.2.get? k id

theorem AlikeAt.refl (id : EntityId) (a : Steering × World) : AlikeAt id a a :=
  ⟨rfl, rfl, fun _ => rfl⟩

theorem AlikeAt.trans {id : EntityId} {a b c : Steering × World} (h : AlikeAt id a b)
    (h' : AlikeAt id b c) : AlikeAt id a c :=
  ⟨h'.lastApplied.trans h.lastApplied, h'.alive.trans h.alive,
    fun k => (h'.get? k).trans (h.get? k)⟩

/-- An input does not show in another entity. -/
theorem alikeAt_apply (s : Steering) (r : World) {p : PendingInput} {id : EntityId}
    (h : p.entity ≠ id) : AlikeAt id (s, r) (s.apply r p).2 := by
  refine ⟨?_, isAlive_apply s r p id, fun k => ?_⟩
  · rcases s.apply_cases r p with ⟨-, he⟩ | ⟨-, he⟩ <;> rw [he]
    rw [EntityMap.get?_insert, if_neg h.symm]
  · by_cases hk : k = .transform
    · subst hk
      rcases s.apply_cases r p with ⟨-, he⟩ | ⟨-, he⟩ <;> rw [he]
      rw [World.get?_modify, if_neg h.symm]
    · exact get?_apply_of_ne s r p hk id

end Steering

namespace Server

/-! ## Datagrams -/

/-- **An input packet waits**: for the entity of its sender, for the new entity
    of one that joins with it, or not at all. -/
theorem queueInput_cases (s : Server) (p : InputPacket) (a : Address) (now : Duration) :
    (∃ id, s.roster.places.lookup a = some id ∧
      s.queueInput p a now = { s with inbox := s.inbox.push id p }) ∨
    (s.roster.places.lookup a = none ∧ ∃ id w, s.roster.size < s.config.maxClients ∧
      s.world.create? = some (id, w) ∧
      s.queueInput p a now = { s with
        world := newPlayer w id p.playerId
        roster := s.roster.append a { entity := id, lastHeard := now }
        inbox := s.inbox.push id p }) ∨
    (s.roster.places.lookup a = none ∧ s.queueInput p a now = s) := by
  rw [← Roster.places_find?]
  unfold queueInput
  cases hfind : s.roster.find? a with
  | some seat => exact Or.inl ⟨seat.entity, rfl, rfl⟩
  | none =>
    right
    unfold join?
    split_ifs with hfull
    · exact Or.inr ⟨rfl, rfl⟩
    · cases hcreate : s.world.create? with
      | none => exact Or.inr ⟨rfl, rfl⟩
      | some c =>
        obtain ⟨id, w⟩ := c
        exact Or.inl ⟨rfl, id, w, Nat.lt_of_not_le hfull, rfl, rfl⟩

theorem isAlive_newPlayer (w : World) (id : EntityId) (playerId : UInt32) (j : EntityId) :
    (newPlayer w id playerId).isAlive j = w.isAlive j := by
  simp [newPlayer]

theorem get?_newPlayer_of_ne {w : World} {id j : EntityId} (hlive : w.isAlive id = true)
    (playerId : UInt32) (k : Component.Kind) (h : j ≠ id) :
    (newPlayer w id playerId).get? k j = w.get? k j := by
  have hattach : ∀ (w : World) (k' : Component.Kind) (v : k'.Value), w.isAlive id = true →
      (w.attach k' id v).get? k j = w.get? k j := by
    intro w k' v hl
    by_cases hk : k = k'
    · subst hk
      rw [World.get?_attach w k id j v hl, if_neg h]
    · exact World.get?_attach_of_ne w id j hk v
  unfold newPlayer
  rw [hattach _ _ _ (by simpa), hattach _ _ _ (by simpa), hattach _ _ _ (by simpa),
    hattach _ _ _ (by simpa), hattach _ _ _ hlive]

theorem transform_newPlayer {w : World} {id : EntityId} (hlive : w.isAlive id = true)
    (playerId : UInt32) :
    (newPlayer w id playerId).get? .transform id = some (.placed .zero) := by
  unfold newPlayer
  rw [World.get?_attach_of_ne _ _ _ (by decide), World.get?_attach_of_ne _ _ _ (by decide),
    World.get?_attach_of_ne _ _ _ (by decide), World.get?_attach_of_ne _ _ _ (by decide),
    World.get?_attach _ _ _ _ _ hlive, if_pos rfl]

theorem mem_sent {effects : List Effect} {d : Datagram} : d ∈ sent effects ↔ .send d ∈ effects := by
  unfold sent
  rw [List.mem_filterMap]
  constructor
  · rintro ⟨_ | _, hm, he⟩
    · cases he
      exact hm
    · cases he
  · exact fun hm => ⟨_, hm, rfl⟩

theorem mem_post {μ : Type} [Message μ] {m : μ} {sequence : UInt16} {n : Tick} {a : Address}
    {d : Datagram} (h : .send d ∈ post m sequence n a) :
    d.peer = a ∧ Message.encode m sequence (UInt32.ofNat n) = .ok d.data := by
  unfold post at h
  split at h
  · rename_i data hdata
    cases List.mem_singleton.1 h
    exact ⟨rfl, hdata⟩
  · cases h

/-- A datagram that is neither a snapshot nor digests. -/
def IsAnswer (data : Bytes) : Prop :=
  Message.decode (μ := Snapshot) data = none ∧ Message.decode (μ := StateChecksum) data = none

theorem isAnswer_of_post {μ : Type} [Message μ] {m : μ} {sequence : UInt16} {n : Tick} {a : Address}
    {d : Datagram} (h : .send d ∈ post m sequence n a)
    (h1 : Message.messageType μ ≠ .snapshot) (h2 : Message.messageType μ ≠ .stateChecksum) :
    IsAnswer d.data :=
  ⟨Message.decode_eq_none_of_kind (mem_post h).2 h1,
    Message.decode_eq_none_of_kind (mem_post h).2 h2⟩

theorem answerJoin_answers (s : Server) (request : JoinRoom) (sequence : UInt16) (a : Address) :
    ∀ d, .send d ∈ s.answerJoin request sequence a → IsAnswer d.data := by
  unfold answerJoin
  split
  · exact fun d hd => isAnswer_of_post hd (by decide) (by decide)
  · exact fun d hd => isAnswer_of_post hd (by decide) (by decide)

theorem answerReport_cases (s : Server) (report : DesyncReport) (a : Address) :
    ∃ roster effects, s.answerReport report a = ({ s with roster }, effects) ∧
      roster.places = s.roster.places ∧ ∀ d, .send d ∈ effects → IsAnswer d.data := by
  unfold answerReport
  split
  · exact ⟨s.roster, [], rfl, rfl, by simp⟩
  · rename_i world _
    refine ⟨_, _, rfl, Roster.places_takeSequences _ _ _, fun d hd => ?_⟩
    rcases List.mem_append.1 hd with hd | hd
    · split at hd <;> simp at hd
    · exact isAnswer_of_post hd (by decide) (by decide)

/-- A frame that is no input packet changes counters and the roster's clocks
    only. -/
theorem handleKind_cases (s : Server) (data : Bytes) (f : Frame) (a : Address) (now : Duration)
    (h : f.header.messageType = .input → InputPacket.decode data = none) :
    ∃ traffic roster effects, s.handleKind data f a now = ({ s with traffic, roster }, effects) ∧
      roster.places = s.roster.places ∧ ∀ d, .send d ∈ effects → IsAnswer d.data := by
  have hquiet : ∀ traffic, ∃ traffic' roster effects,
      (({ s with traffic } : Server), ([] : List Effect)) =
          ({ s with traffic := traffic', roster }, effects) ∧
        roster.places = s.roster.places ∧ ∀ d, .send d ∈ effects → IsAnswer d.data :=
    fun traffic => ⟨traffic, s.roster, [], rfl, rfl, by simp⟩
  unfold handleKind
  dsimp only
  split
  · rename_i hk
    rw [h hk]
    exact hquiet _
  · split
    · exact ⟨s.traffic, s.roster, _, rfl, rfl,
        fun d hd => isAnswer_of_post hd (by decide) (by decide)⟩
    · exact hquiet _
  · split
    · rename_i report _
      obtain ⟨roster, effects, he, hplaces, hanswers⟩ := s.answerReport_cases report a
      exact ⟨s.traffic, roster, effects, he, hplaces, hanswers⟩
    · exact hquiet _
  · split
    · exact ⟨s.traffic, s.roster, _, rfl, rfl,
        fun d hd => isAnswer_of_post hd (by decide) (by decide)⟩
    · exact hquiet _
  · split
    · exact ⟨s.traffic, s.roster, _, rfl, rfl, s.answerJoin_answers _ _ a⟩
    · exact hquiet _
  · exact hquiet _

/-- **A datagram** is an input packet that waits, or it changes counters and
    the roster's clocks only. -/
theorem receiveOne_cases (s : Server) (d : Datagram) (now : Duration) :
    (∃ p traffic q, InputPacket.decode d.data = some p ∧
      q = ({ s with traffic }).queueInput p d.peer now ∧
      s.receiveOne d now = ({ q with roster := q.roster.heard d.peer now }, [])) ∨
    (InputPacket.decode d.data = none ∧ ∃ traffic roster effects,
      s.receiveOne d now = ({ s with traffic, roster }, effects) ∧
      roster.places = s.roster.places ∧ ∀ d', .send d' ∈ effects → IsAnswer d'.data) := by
  unfold receiveOne
  dsimp only
  cases hp : InputPacket.decode d.data with
  | some p =>
    obtain ⟨f, hf, hk⟩ := InputPacket.frame_of_decode hp
    refine Or.inl ⟨p, s.traffic.countReceived d.data.length, _, rfl, rfl, ?_⟩
    rw [hf]
    show handle _ _ _ _ _ = _
    rw [handle, handleKind, hk]
    dsimp only
    rw [hp]
  | none =>
    right
    refine ⟨rfl, ?_⟩
    split
    · rename_i f _
      obtain ⟨traffic, roster, effects, he, hplaces, hanswers⟩ :=
        handleKind_cases { s with traffic := s.traffic.countReceived d.data.length } d.data f d.peer
          now fun _ => hp
      refine ⟨traffic, roster.heard d.peer now, effects, ?_, by simpa using hplaces, hanswers⟩
      rw [handle, he]
    · exact ⟨_, s.roster, [], rfl, rfl, by simp⟩

/-- What is sent when a datagram is heard is an answer. -/
theorem isAnswer_of_receiveOne {s : Server} {d : Datagram} {now : Duration} {d' : Datagram}
    (h : .send d' ∈ (s.receiveOne d now).2) : IsAnswer d'.data := by
  rcases s.receiveOne_cases d now with ⟨_, _, _, -, -, he⟩ | ⟨-, _, _, _, he, -, hanswers⟩
  · rw [he] at h
    cases h
  · rw [he] at h
    exact hanswers d' h

/-! ## Ticks -/

theorem simulated_eq (s : Server) (n : Tick) :
    s.simulated n = { s with
      steering := (s.steering.applyAll s.world s.inbox.waiting).2.1
      world := (s.steering.applyAll s.world s.inbox.waiting).2.2
      inbox := s.inbox.clear
      timeline := (s.timeline.capture n (s.steering.applyAll s.world s.inbox.waiting).2.2).2 } :=
  rfl

/-- The server when a tick has applied, recorded and told. -/
def spoken (s : Server) (n : Tick) : Server :=
  { s.simulated n with roster := if s.tells n then s.roster.told else s.roster }

@[simp] theorem places_spoken (s : Server) (n : Tick) :
    (s.spoken n).roster.places = s.roster.places := by
  unfold spoken
  dsimp only
  split_ifs
  · exact Roster.places_told _
  · rfl

/-- **A tick** applies and records, tells, and drops the silent clients. -/
theorem tick_fst (s : Server) (n : Tick) (now : Duration) :
    (s.tick n now).1 = (s.spoken n).dropSilent now := by
  rw [tick_eq]
  unfold spoken
  by_cases h : s.tells n
  · rw [if_pos h, if_pos h]
    rfl
  · rw [if_neg h, if_neg h]
    rfl

/-- What a tick sends is a snapshot or the digests of the world that it has
    recorded. -/
theorem mem_sent_tick {s : Server} {n : Tick} {now : Duration} {d : Datagram}
    (h : .send d ∈ (s.tick n now).2) : ∃ seat, (d.peer, seat) ∈ s.roster.seats ∧
      (Message.encode ((s.simulated n).snapshotFor seat) seat.nextSequence (UInt32.ofNat n) =
          .ok d.data ∨
        Message.encode ((s.simulated n).stateChecksum n) (seat.nextSequence + 1) (UInt32.ofNat n) =
          .ok d.data) := by
  rw [tick_eq] at h
  split_ifs at h
  · obtain ⟨⟨a, seat⟩, hseat, hd⟩ := List.mem_flatMap.1 h
    rcases List.mem_append.1 hd with hd | hd
    · obtain ⟨rfl, he⟩ := mem_post hd
      exact ⟨seat, hseat, Or.inl he⟩
    · obtain ⟨rfl, he⟩ := mem_post hd
      exact ⟨seat, hseat, Or.inr he⟩
  · cases h

/-- The entities of the clients that are dropped. -/
def gone (s : Server) (now : Duration) : List EntityId :=
  (s.roster.silent now s.config.clientTimeout).map (·.entity)

theorem foldl_dropOne_eq (seats : List Seat) (s : Server) :
    seats.foldl dropOne s = { s with
      world := (seats.map (·.entity)).foldl (fun w id => (w.destroy id).2) s.world
      steering := { s.steering with
        lastApplied := (seats.map (·.entity)).foldl EntityMap.erase s.steering.lastApplied } } := by
  induction seats generalizing s with
  | nil => rfl
  | cons seat rest ih => exact ih (s.dropOne seat)

/-- **Dropping the silent clients** ends the lives of their entities, forgets
    what was applied to them, and nothing else. -/
theorem dropSilent_eq_of_gone (s : Server) (now : Duration) :
    s.dropSilent now = { s with
      roster := s.roster.withoutSilent now s.config.clientTimeout
      world := (s.gone now).foldl (fun w id => (w.destroy id).2) s.world
      steering := { s.steering with
        lastApplied := (s.gone now).foldl EntityMap.erase s.steering.lastApplied } } := by
  rw [dropSilent_eq, foldl_dropOne_eq]
  rfl

/-! ## Events -/

theorem timestep_receiveOne (s : Server) (d : Datagram) (now : Duration) :
    (s.receiveOne d now).1.timestep = s.timestep := by
  rcases s.receiveOne_cases d now with ⟨p, traffic, q, -, rfl, he⟩ | ⟨-, _, _, _, he, -, -⟩
  · rw [he]
    rcases queueInput_cases { s with traffic } p d.peer now with ⟨_, -, hq⟩ |
      ⟨-, id, w, -, -, hq⟩ | ⟨-, hq⟩ <;> rw [hq]
  · rw [he]

theorem perform_tick_cases (s : Server) (now : Duration) :
    s.perform (.tick now) = (s, []) ∨
    ∃ t, t.tick = s.timestep.tick + 1 ∧
      s.perform (.tick now) = ({ s with timestep := t }).tick (s.timestep.tick + 1) now := by
  unfold perform
  dsimp only
  split
  · exact Or.inl rfl
  · rename_i n t h
    obtain ⟨rfl, ht⟩ := Timestep.step_of_consume h
    exact Or.inr ⟨t, by rw [ht], rfl⟩

theorem tick_le_perform (s : Server) (e : Event) :
    s.timestep.tick ≤ (s.perform e).1.timestep.tick := by
  cases e with
  | elapse d => exact le_rfl
  | hear d now =>
    show _ ≤ (s.receiveOne d now).1.timestep.tick
    rw [timestep_receiveOne]
  | tick now =>
    rcases s.perform_tick_cases now with h | ⟨t, ht, h⟩
    · rw [h]
    · rw [h, timestep_tick]
      exact ht ▸ Nat.le_succ _
  | settle outcomes => exact le_rfl

theorem config_perform (s : Server) (e : Event) : (s.perform e).1.config = s.config := by
  cases e with
  | elapse d => rfl
  | hear d now =>
    show (s.receiveOne d now).1.config = s.config
    rcases s.receiveOne_cases d now with ⟨p, traffic, q, -, rfl, he⟩ | ⟨-, _, _, _, he, -, -⟩
    · rw [he]
      rcases queueInput_cases { s with traffic } p d.peer now with ⟨_, -, hq⟩ |
        ⟨-, _, _, -, -, hq⟩ | ⟨-, hq⟩ <;> rw [hq]
    · rw [he]
  | tick now =>
    rcases s.perform_tick_cases now with h | ⟨t, -, h⟩
    · rw [h]
    · rw [h, tick_fst, dropSilent_eq_of_gone]
      rfl
  | settle outcomes => rfl

end Server

end Netplay
