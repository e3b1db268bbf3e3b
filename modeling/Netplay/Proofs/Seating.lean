/-
  Who is on a server: its clients, their entities, the inputs that wait.

  * `Server.Sound`: the clients' entities are different, live, have all that a
    player has, and nothing else lives, waits or is remembered;
  * `Server.Sound.perform`, `Server.sound_performAll`: every event keeps it, so
    it holds in every run.
-/
import Mathlib.Data.List.Nodup
import Netplay.Proofs.Serving

namespace Netplay

open Component (Kind)

/-! ## Entities of the roster -/

namespace Roster

def entities (r : Roster) : List EntityId := r.places.map (·.2)

theorem entities_eq (r : Roster) : r.entities = r.seats.map (·.2.entity) := by
  rw [entities, places, List.map_map]
  rfl

theorem size_eq (r : Roster) : r.size = r.places.length := by rw [places, List.length_map, size]

theorem entities_append (r : Roster) (a : Address) (seat : Seat) :
    (r.append a seat).entities = r.entities ++ [seat.entity] := by
  rw [entities, places_append, List.map_append]
  rfl

theorem mem_places_of_lookup {r : Roster} {a : Address} {id : EntityId}
    (h : r.places.lookup a = some id) : (a, id) ∈ r.places := by
  obtain ⟨l₁, l₂, he, -⟩ := List.lookup_eq_some_iff.1 h
  rw [he]
  exact List.mem_append_right _ List.mem_cons_self

theorem mem_entities_of_lookup {r : Roster} {a : Address} {id : EntityId}
    (h : r.places.lookup a = some id) : id ∈ r.entities :=
  List.mem_map.2 ⟨_, mem_places_of_lookup h, rfl⟩

theorem lookup_of_mem_places {r : Roster} (h : (r.places.map (·.1)).Nodup) {a : Address}
    {id : EntityId} (hid : (a, id) ∈ r.places) : r.places.lookup a = some id := by
  cases hlookup : r.places.lookup a with
  | none => simpa using List.lookup_eq_none_iff.1 hlookup _ hid
  | some id' =>
    have he := List.inj_on_of_nodup_map h (mem_places_of_lookup hlookup) hid rfl
    rw [(Prod.mk.inj he).2]

theorem places_withoutSilent_sublist (r : Roster) (now timeout : Duration) :
    (r.withoutSilent now timeout).places.Sublist r.places :=
  List.filter_sublist.map _

/-- The entities that stay are those that are not dropped. -/
theorem mem_entities_withoutSilent {r : Roster} (h : r.entities.Nodup) (now timeout : Duration)
    (id : EntityId) : id ∈ (r.withoutSilent now timeout).entities ↔
      id ∈ r.entities ∧ id ∉ (r.silent now timeout).map (·.entity) := by
  rw [entities_eq] at h ⊢
  rw [entities_eq, silent, List.map_map, withoutSilent]
  simp only [List.mem_map, List.mem_filter, Function.comp_apply, Bool.not_eq_true']
  constructor
  · rintro ⟨p, ⟨hp, hstays⟩, rfl⟩
    refine ⟨⟨p, hp, rfl⟩, ?_⟩
    rintro ⟨q, ⟨hq, hgone⟩, he⟩
    rw [List.inj_on_of_nodup_map h hq hp he, hstays] at hgone
    cases hgone
  · rintro ⟨⟨p, hp, rfl⟩, hnot⟩
    refine ⟨p, ⟨hp, ?_⟩, rfl⟩
    rw [Bool.eq_false_iff]
    exact fun hgone => hnot ⟨p, ⟨hp, hgone⟩, rfl⟩

end Roster

namespace Server

/-! ## The invariant -/

def playerKinds : List Kind := [.transform, .health, .lives, .score, .controller]

/-- The clients' entities are different, live and are equipped, and nothing else
    lives, waits or is remembered. -/
structure Sound (s : Server) : Prop where
  room : s.roster.size ≤ s.config.maxClients
  addresses : (s.roster.places.map (·.1)).Nodup
  entities : s.roster.entities.Nodup
  /-- The clients' entities live and no others. -/
  alive : ∀ id, s.world.isAlive id = true ↔ id ∈ s.roster.entities
  /-- No entity has the id that is none's. -/
  valid : EntityId.invalid ∉ s.roster.entities
  equipped : ∀ id ∈ s.roster.entities, ∀ k ∈ playerKinds, s.world.has k id = true
  /-- Inputs wait for clients only. -/
  waiting : ∀ p ∈ s.inbox.waiting, p.entity ∈ s.roster.entities
  /-- What was applied is remembered of clients only. -/
  remembered : ∀ id, s.steering.lastApplied.contains id = true → id ∈ s.roster.entities
  speed : s.steering.speed = s.config.moveSpeed
  dt : s.steering.dt = (Timestep.ofRate s.config.tickRate).dt

theorem sound_make (config : ServerConfig) (port : UInt16) : (make config port).Sound where
  room := Nat.zero_le _
  addresses := .nil
  entities := .nil
  alive id := by simp [make, Roster.entities, Roster.places]
  valid := by simp [make, Roster.entities, Roster.places]
  equipped id hid := by simp [make, Roster.entities, Roster.places] at hid
  waiting p hp := by simp [make, Inbox.ofCapacity] at hp
  remembered id hid := by simp [make] at hid
  speed := rfl
  dt := rfl

theorem Sound.isAlive_invalid {s : Server} (h : s.Sound) :
    s.world.isAlive EntityId.invalid = false := by
  rw [Bool.eq_false_iff]
  exact fun hl => h.valid ((h.alive _).1 hl)

/-- Clocks, counters and timelines do not matter. -/
theorem Sound.congr {s s' : Server} (h : s.Sound) (hconfig : s'.config = s.config)
    (hworld : s'.world = s.world) (hinbox : s'.inbox = s.inbox)
    (hsteering : s'.steering = s.steering) (hplaces : s'.roster.places = s.roster.places) :
    s'.Sound := by
  have hsize : s'.roster.size = s.roster.size := by rw [Roster.size_eq, Roster.size_eq, hplaces]
  have hentities : s'.roster.entities = s.roster.entities := by
    rw [Roster.entities, Roster.entities, hplaces]
  refine ⟨?_, ?_, ?_, ?_, ?_, ?_, ?_, ?_, ?_, ?_⟩
  · rw [hsize, hconfig]
    exact h.room
  · rw [hplaces]
    exact h.addresses
  · rw [hentities]
    exact h.entities
  · rw [hworld, hentities]
    exact h.alive
  · rw [hentities]
    exact h.valid
  · rw [hworld, hentities]
    exact h.equipped
  · rw [hinbox, hentities]
    exact h.waiting
  · rw [hsteering, hentities]
    exact h.remembered
  · rw [hsteering, hconfig]
    exact h.speed
  · rw [hsteering, hconfig]
    exact h.dt

/-! ## Inputs -/

theorem mem_push {q : Inbox} {id : EntityId} {p : InputPacket} {x : PendingInput}
    (h : x ∈ (q.push id p).waiting) : x ∈ q.waiting ∨ x = ⟨id, p⟩ := by
  rcases List.mem_append.1 h with h | h
  · split at h
    · exact Or.inl (List.mem_of_mem_drop h)
    · exact Or.inl h
  · exact Or.inr (List.mem_singleton.1 h)

/-- A new player has what a player has and takes nothing from others. -/
theorem has_newPlayer {w : World} {id : EntityId} (hlive : w.isAlive id = true) (playerId : UInt32)
    (k : Kind) (j : EntityId) : (newPlayer w id playerId).has k j = true ↔
      (j = id ∧ k ∈ playerKinds) ∨ w.has k j = true := by
  have hattach : ∀ (w : World) (k' : Kind) (v : k'.Value), w.isAlive id = true →
      ((w.attach k' id v).has k j = true ↔ (j = id ∧ k = k') ∨ w.has k j = true) := by
    intro w k' v hl
    by_cases hk : k = k'
    · subst hk
      rw [World.has, World.get?_attach w k id j v hl, World.has]
      by_cases hj : j = id <;> simp [hj]
    · rw [World.has, World.get?_attach_of_ne w id j hk, World.has]
      simp [hk]
  unfold newPlayer
  rw [hattach _ _ _ (by simpa), hattach _ _ _ (by simpa), hattach _ _ _ (by simpa),
    hattach _ _ _ (by simpa), hattach _ _ _ hlive, playerKinds]
  simp only [List.mem_cons, List.not_mem_nil, or_false]
  tauto

theorem Sound.push {s : Server} (h : s.Sound) {id : EntityId} (hid : id ∈ s.roster.entities)
    (p : InputPacket) : ({ s with inbox := s.inbox.push id p } : Server).Sound :=
  { h with
    waiting := fun x hx => by
      rcases mem_push hx with hx | rfl
      · exact h.waiting x hx
      · exact hid }

/-- A client joins, with the entity that is made for it. -/
theorem Sound.join {s : Server} (h : s.Sound) {a : Address} (ha : s.roster.places.lookup a = none)
    (hroom : s.roster.size < s.config.maxClients) {id : EntityId} {w : World}
    (hcreate : s.world.create? = some (id, w)) (playerId : UInt32) (now : Duration) :
    ({ s with
      world := newPlayer w id playerId
      roster := s.roster.append a { entity := id, lastHeard := now } } : Server).Sound := by
  obtain ⟨hdead, hvalid, hlife, hkept⟩ := World.create?_spec hcreate
  have hnew : id ∉ s.roster.entities := fun hid => by
    rw [(h.alive id).2 hid] at hdead
    cases hdead
  have hlive : w.isAlive id = true := by simp [hlife]
  have haddress : a ∉ s.roster.places.map (·.1) := by
    intro hmem
    obtain ⟨q, hq, rfl⟩ := List.mem_map.1 hmem
    simpa using List.lookup_eq_none_iff.1 ha q hq
  have hentities : (s.roster.append a { entity := id, lastHeard := now }).entities =
      s.roster.entities ++ [id] := Roster.entities_append _ _ _
  refine ⟨?_, ?_, ?_, fun j => ?_, ?_, fun j hj k hk => ?_, fun x hx => ?_, fun j hj => ?_,
    h.speed, h.dt⟩
  · show (s.roster.append a _).size ≤ _
    rw [Roster.size_eq, Roster.places_append, List.length_append, ← Roster.size_eq]
    exact hroom
  · show ((s.roster.append a _).places.map (·.1)).Nodup
    rw [Roster.places_append, List.map_append]
    exact h.addresses.append (List.nodup_singleton _) (by simpa using haddress)
  · show (s.roster.append a _).entities.Nodup
    rw [hentities]
    exact h.entities.append (List.nodup_singleton _) (by simpa using hnew)
  · show (newPlayer w id playerId).isAlive j = true ↔ j ∈ (s.roster.append a _).entities
    rw [isAlive_newPlayer, hlife, hentities, List.mem_append, List.mem_singleton, ← h.alive j,
      Bool.or_eq_true, decide_eq_true_eq, or_comm]
  · show EntityId.invalid ∉ (s.roster.append a _).entities
    rw [hentities, List.mem_append, List.mem_singleton]
    exact fun hi => hi.elim h.valid fun hi => hvalid hi.symm
  · have hmem : j ∈ s.roster.entities ++ [id] := hentities ▸ hj
    show (newPlayer w id playerId).has k j = true
    rw [has_newPlayer hlive]
    rcases List.mem_append.1 hmem with hj | hj
    · right
      rw [World.has, hkept]
      exact h.equipped j hj k hk
    · exact Or.inl ⟨List.mem_singleton.1 hj, hk⟩
  · show x.entity ∈ (s.roster.append a _).entities
    rw [hentities]
    exact List.mem_append_left _ (h.waiting x hx)
  · show j ∈ (s.roster.append a _).entities
    rw [hentities]
    exact List.mem_append_left _ (h.remembered j hj)

theorem Sound.queueInput {s : Server} (h : s.Sound) (p : InputPacket) (a : Address)
    (now : Duration) : (s.queueInput p a now).Sound := by
  rcases s.queueInput_cases p a now with ⟨id, hid, he⟩ | ⟨ha, id, w, hroom, hcreate, he⟩ | ⟨-, he⟩
  · rw [he]
    exact h.push (Roster.mem_entities_of_lookup hid) p
  · rw [he]
    refine (h.join ha hroom hcreate p.playerId now).push ?_ p
    rw [Roster.entities_append]
    exact List.mem_append_right _ (List.mem_singleton_self id)
  · rw [he]
    exact h

theorem Sound.receiveOne {s : Server} (h : s.Sound) (d : Datagram) (now : Duration) :
    (s.receiveOne d now).1.Sound := by
  rcases s.receiveOne_cases d now with ⟨p, traffic, q, -, rfl, he⟩ | ⟨-, _, _, _, he, hplaces, -⟩
  · rw [he]
    exact ((h.congr rfl rfl rfl rfl rfl : ({ s with traffic } : Server).Sound).queueInput p d.peer
      now).congr rfl rfl rfl rfl (Roster.places_heard _ _ _)
  · rw [he]
    exact h.congr rfl rfl rfl rfl hplaces

/-- No datagram moves an entity. -/
theorem transform_receiveOne {s : Server} (h : s.Sound) {id : EntityId}
    (hid : id ∈ s.roster.entities) (d : Datagram) (now : Duration) :
    (s.receiveOne d now).1.world.get? .transform id = s.world.get? .transform id := by
  rcases s.receiveOne_cases d now with ⟨p, traffic, q, -, rfl, he⟩ | ⟨-, _, _, _, he, -, -⟩
  · rw [he]
    rcases queueInput_cases { s with traffic } p d.peer now with ⟨_, -, hq⟩ |
      ⟨-, j, w, -, hcreate, hq⟩ | ⟨-, hq⟩
    · rw [hq]
    · obtain ⟨hdead, -, hlife, hkept⟩ := World.create?_spec hcreate
      have hne : id ≠ j := by
        rintro rfl
        rw [show s.world.isAlive id = true from (h.alive id).2 hid] at hdead
        cases hdead
      rw [hq]
      exact (get?_newPlayer_of_ne (by simp [hlife]) _ _ hne).trans (hkept _ _)
    · rw [hq]
  · rw [he]

/-! ## Ticks -/

theorem Sound.simulated {s : Server} (h : s.Sound) (n : Tick) : (s.simulated n).Sound := by
  have happly := Steering.applyAll_induction s.inbox.waiting (s := s.steering) (r := s.world)
    (motive := fun steering w => (∀ id, w.isAlive id = s.world.isAlive id) ∧
      (∀ k id, w.has k id = s.world.has k id) ∧
      (∀ id, steering.lastApplied.contains id = true → id ∈ s.roster.entities) ∧
      steering.speed = s.steering.speed ∧ steering.dt = s.steering.dt)
    (by
      rintro steering w p hp ⟨hlife, hhas, hkeys, hspeed, hdt⟩
      refine ⟨fun id => by rw [Steering.isAlive_apply, hlife],
        fun k id => by rw [Steering.has_apply, hhas], ?_⟩
      rcases steering.apply_cases w p with ⟨-, he⟩ | ⟨-, he⟩
      · rw [he]
        refine ⟨fun id hid => ?_, hspeed, hdt⟩
        rw [EntityMap.contains_insert, Bool.or_eq_true, decide_eq_true_eq] at hid
        rcases hid with rfl | hid
        · exact h.waiting p hp
        · exact hkeys id hid
      · rw [he]
        exact ⟨hkeys, hspeed, hdt⟩)
    ⟨fun _ => rfl, fun _ _ => rfl, h.remembered, rfl, rfl⟩
  obtain ⟨hlife, hhas, hkeys, hspeed, hdt⟩ := happly
  rw [simulated_eq]
  exact
    { room := h.room
      addresses := h.addresses
      entities := h.entities
      alive := fun id => by rw [hlife, h.alive]
      valid := h.valid
      equipped := fun id hid k hk => by rw [hhas]; exact h.equipped id hid k hk
      waiting := fun p hp => by cases hp
      remembered := hkeys
      speed := hspeed.trans h.speed
      dt := hdt.trans h.dt }

/-- Dropping the silent clients keeps the server sound, if no input waits. -/
theorem Sound.dropSilent {s : Server} (h : s.Sound) (hempty : s.inbox.waiting = [])
    (now : Duration) : (s.dropSilent now).Sound := by
  have hstays := Roster.mem_entities_withoutSilent h.entities now s.config.clientTimeout
  have hsub := s.roster.places_withoutSilent_sublist now s.config.clientTimeout
  rw [dropSilent_eq_of_gone]
  refine ⟨?_, (hsub.map _).nodup h.addresses, (hsub.map _).nodup h.entities, fun id => ?_,
    fun hi => ?_, fun id hid k hk => ?_, fun p hp => ?_, fun id hid => ?_, h.speed, h.dt⟩
  · show (s.roster.withoutSilent now _).size ≤ _
    rw [Roster.size_eq]
    exact (hsub.length_le).trans (Roster.size_eq _ ▸ h.room)
  · show World.isAlive (List.foldl _ _ _) id = true ↔ _
    rw [World.isAlive_foldl_destroy, Bool.and_eq_true, decide_eq_true_eq, h.alive id]
    exact and_comm.trans (hstays id).symm
  · exact h.valid ((hstays _).1 hi).1
  · show World.has (List.foldl _ _ _) k id = true
    obtain ⟨hid, hnot⟩ := (hstays id).1 hid
    rw [World.has, World.get?_foldl_destroy _ _ _ (show id ∉ s.gone now from hnot)]
    exact h.equipped id hid k hk
  · rw [show ({ s with .. } : Server).inbox.waiting = [] from hempty] at hp
    cases hp
  · obtain ⟨seq, hseq⟩ := EntityMap.contains_eq_true.1 hid
    rw [EntityMap.get?_foldl_erase] at hseq
    split_ifs at hseq with hgone
    exact (hstays id).2 ⟨h.remembered id (EntityMap.contains_eq_true.2 ⟨seq, hseq⟩), hgone⟩

theorem Sound.spoken {s : Server} (h : s.Sound) (n : Tick) : (s.spoken n).Sound :=
  (h.simulated n).congr rfl rfl rfl rfl (s.places_spoken n)

theorem Sound.tick {s : Server} (h : s.Sound) (n : Tick) (now : Duration) :
    (s.tick n now).1.Sound := by
  rw [tick_fst]
  exact (h.spoken n).dropSilent rfl now

/-- **Of a client that stays** a tick drops nothing. -/
theorem Sound.kept_tick {s : Server} (h : s.Sound) {n : Tick} {now : Duration} {a : Address}
    {id : EntityId} (hid : (a, id) ∈ (s.tick n now).1.roster.places) :
    (a, id) ∈ s.roster.places ∧
      (∀ k, (s.tick n now).1.world.get? k id = (s.simulated n).world.get? k id) ∧
      (s.tick n now).1.steering.lastApplied.get? id =
        (s.simulated n).steering.lastApplied.get? id := by
  rw [tick_fst, dropSilent_eq_of_gone] at hid ⊢
  have hold : (a, id) ∈ (s.spoken n).roster.places :=
    ((s.spoken n).roster.places_withoutSilent_sublist _ _).subset hid
  have hkept : id ∉ (s.spoken n).gone now := ((Roster.mem_entities_withoutSilent
    (h.spoken n).entities _ _ id).1 (List.mem_map.2 ⟨_, hid, rfl⟩)).2
  refine ⟨s.places_spoken n ▸ hold, fun k => World.get?_foldl_destroy _ k _ hkept, ?_⟩
  show (List.foldl EntityMap.erase _ _).get? id = _
  rw [EntityMap.get?_foldl_erase, if_neg hkept]
  rfl

/-! ## Events -/

/-- **Every event keeps the server sound.** -/
theorem Sound.perform {s : Server} (h : s.Sound) (e : Event) : (s.perform e).1.Sound := by
  cases e with
  | elapse d => exact h.congr rfl rfl rfl rfl rfl
  | hear d now => exact h.receiveOne d now
  | tick now =>
    rcases s.perform_tick_cases now with he | ⟨t, -, he⟩
    · rw [he]
      exact h
    · rw [he]
      exact (h.congr rfl rfl rfl rfl rfl : ({ s with timestep := t } : Server).Sound).tick _ now
  | settle outcomes => exact h.congr rfl rfl rfl rfl rfl

/-- As long as a client sits it keeps its entity. -/
theorem Sound.lookup_perform {s : Server} (h : s.Sound) (e : Event) {a : Address} {id : EntityId}
    (hid : s.roster.places.lookup a = some id) :
    (s.perform e).1.roster.places.lookup a = some id ∨
      (s.perform e).1.roster.places.lookup a = none := by
  cases e with
  | elapse d => exact Or.inl hid
  | hear d now =>
    left
    show (s.receiveOne d now).1.roster.places.lookup a = some id
    rcases s.receiveOne_cases d now with ⟨p, traffic, q, -, rfl, he⟩ | ⟨-, _, _, _, he, hplaces, -⟩
    · rw [he, Roster.places_heard]
      rcases queueInput_cases { s with traffic } p d.peer now with ⟨_, -, hq⟩ |
        ⟨-, _, _, -, -, hq⟩ | ⟨-, hq⟩
      · rw [hq]
        exact hid
      · rw [hq, Roster.places_append, List.lookup_append, hid]
        rfl
      · rw [hq]
        exact hid
    · rw [he, hplaces, hid]
  | tick now =>
    rcases s.perform_tick_cases now with he | ⟨t, -, he⟩
    · rw [he]
      exact Or.inl hid
    · rw [he]
      have hsound : ({ s with timestep := t } : Server).Sound := h.congr rfl rfl rfl rfl rfl
      cases hlookup : (({ s with timestep := t } : Server).tick (s.timestep.tick + 1)
          now).1.roster.places.lookup a with
      | none => exact Or.inr rfl
      | some id' =>
        have hold := (hsound.kept_tick (Roster.mem_places_of_lookup hlookup)).1
        rw [← hid, ← Roster.lookup_of_mem_places h.addresses hold]
        exact Or.inl rfl
  | settle outcomes => exact Or.inl hid

/-- **Every run keeps the server sound.** -/
theorem sound_performAll {s : Server} (h : s.Sound) (es : List Event) :
    (s.performAll es).1.Sound := by
  induction es generalizing s with
  | nil => exact h
  | cons e rest ih => exact ih (h.perform e)

end Server

end Netplay
