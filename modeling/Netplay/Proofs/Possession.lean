/-
  Which entity a client controls.

  Nobody lives in the predicted world of a client that controls nothing.  The
  first snapshot that names an entity and shows it hands that entity over, and no
  later event takes it away or hands over another: what a later snapshot names is
  not looked at.

  * `Client.Controls`: the client, its sender and its predicted world agree on an
    entity;
  * `Client.SamePlayer`: an event has left alone who is controlled;
  * `Client.Quiet`: it has issued nothing, either, and has left the history of what
    is controlled to confirmations;
  * `Client.possesses_performAll`: who is controlled after a run;
  * `Client.controls_first_named`: when it is the entity that a snapshot names.
-/
import Netplay.Proofs.Playing

namespace Netplay

open Component (Kind)

namespace World

/-- The same entities live in two worlds, with components of the same kinds. -/
structure SameShape (r r' : World) : Prop where
  alive : ∀ id, r'.isAlive id = r.isAlive id
  has : ∀ k id, r'.has k id = r.has k id

theorem SameShape.rfl {r : World} : r.SameShape r := ⟨fun _ => .refl _, fun _ _ => .refl _⟩

theorem SameShape.trans {r r' r'' : World} (h : r.SameShape r') (h' : r'.SameShape r'') :
    r.SameShape r'' :=
  ⟨fun id => (h'.alive id).trans (h.alive id), fun k id => (h'.has k id).trans (h.has k id)⟩

theorem sameShape_modify (r : World) (k : Kind) (id : EntityId) (f : k.Value → k.Value) :
    r.SameShape (r.modify k id f) := by
  refine ⟨fun j => isAlive_modify r k id j f, fun k' j => ?_⟩
  by_cases hk : k' = k
  · subst hk
    rw [World.has, get?_modify, World.has]
    split_ifs with hj
    · rw [hj, Option.isSome_map]
    · rfl
  · rw [World.has, get?_modify_of_ne r id j hk, World.has]

end World

theorem Corrector.sameShape_reconcile (c : Corrector) (r : World) (id : EntityId) (position : Vec2)
    (ack : UInt32) : r.SameShape (c.reconcile r id position ack).2.2 := by
  rcases c.reconcile_cases r id position ack with ⟨-, he⟩ | ⟨_, _, _, -, -, -, ⟨_, he⟩ | ⟨_, he⟩⟩
  · rw [he]
    exact .rfl
  · rw [he]
    exact r.sameShape_modify ..
  · rw [he]
    exact (r.sameShape_modify ..).trans (World.sameShape_modify ..)

/-- A comparison of what is predicted notes what is confirmed. -/
theorem Corrector.history_reconcile_of_alive (c : Corrector) {r : World} {id : EntityId}
    {log : CommandLog} (hlive : r.isAlive id = true) (htransform : r.has .transform id = true)
    (hlog : r.get? .history id = some log) (position : Vec2) (ack : UInt32) :
    (c.reconcile r id position ack).2.2.get? .history id = some (log.acknowledge ack) := by
  rcases c.reconcile_cases r id position ack with ⟨hskip, -⟩ | ⟨_, _, _, -, -, -, ⟨_, he⟩ | ⟨_, he⟩⟩
  · refine absurd ⟨hlive, ?_, htransform⟩ hskip
    rw [World.has, hlog]
    rfl
  · rw [he, World.get?_modify_self, hlog]
    rfl
  · rw [he, World.get?_modify_self, World.get?_modify_of_ne r id id (by decide), hlog]
    rfl

/-- The entity that a snapshot names as the client's, if it shows it. -/
def Snapshot.named? (m : Snapshot) : Option EntityId :=
  if m.playerEntity ≠ EntityId.invalid ∧ (m.entity? m.playerEntity).isSome then
    some m.playerEntity
  else none

/-- The datagram that shows a snapshot for a tick. -/
def Snapshot.datagram (m : Snapshot) (tick : UInt32) : Bytes :=
  match Message.encode m 0 tick with
  | .ok data => data
  | .error _ => []

theorem Snapshot.id_of_entity? {m : Snapshot} {id : EntityId} {seen : Sighting}
    (h : m.entity? id = some seen) : seen.id = id := by
  simpa using List.find?_some h

namespace Client

/-- A client controls an entity: it sends its commands, and predicts it. -/
structure Controls (c : Client) (id : EntityId) : Prop where
  player : c.player = some id
  playerId : c.sender.playerId = id
  alive : c.world.isAlive id = true
  transform : c.world.has .transform id = true
  history : c.world.has .history id = true

instance (c : Client) (id : EntityId) : Decidable (c.Controls id) :=
  decidable_of_iff (c.player = some id ∧ c.sender.playerId = id ∧ c.world.isAlive id = true ∧
      c.world.has .transform id = true ∧ c.world.has .history id = true)
    ⟨fun ⟨h1, h2, h3, h4, h5⟩ => ⟨h1, h2, h3, h4, h5⟩, fun ⟨h1, h2, h3, h4, h5⟩ =>
      ⟨h1, h2, h3, h4, h5⟩⟩

/-- From one client to the next, who is controlled has stayed the same. -/
structure SamePlayer (c c' : Client) : Prop where
  player : c'.player = c.player
  playerId : c'.sender.playerId = c.sender.playerId
  world : c.world.SameShape c'.world

/-- Either nobody lives in the predicted world, or the client controls someone. -/
structure Possesses (c : Client) : Prop where
  vacant : c.player = none → ∀ id, c.world.isAlive id = false
  controls : ∀ id, c.player = some id → c.Controls id

theorem possesses_make (config : ClientConfig) (now : Duration) : (make config now).Possesses :=
  ⟨fun _ _ => rfl, fun _ h => by cases h⟩

/-- From one client to the next, nothing is issued, and the history of what is
    controlled is told of confirmations at most. -/
structure Quiet (c c' : Client) : Prop where
  same : c.SamePlayer c'
  newest : c'.inputSequence = c.inputSequence
  log : ∀ id log, c.Controls id → c.world.get? .history id = some log →
    c'.world.get? .history id = some log ∨
      ∃ s, c'.world.get? .history id = some (log.acknowledge s)

variable {c c' : Client}

theorem samePlayer_of_eq (hplayer : c'.player = c.player) (hsender : c'.sender = c.sender)
    (hworld : c'.world = c.world) : c.SamePlayer c' :=
  ⟨hplayer, by rw [hsender], by rw [hworld]; exact .rfl⟩

theorem SamePlayer.trans {c'' : Client} (h : c.SamePlayer c') (h' : c'.SamePlayer c'') :
    c.SamePlayer c'' :=
  ⟨h'.player.trans h.player, h'.playerId.trans h.playerId, h.world.trans h'.world⟩

theorem SamePlayer.controls (h : c.SamePlayer c') {id : EntityId} (hc : c.Controls id) :
    c'.Controls id where
  player := h.player.trans hc.player
  playerId := h.playerId.trans hc.playerId
  alive := (h.world.alive id).trans hc.alive
  transform := (h.world.has _ id).trans hc.transform
  history := (h.world.has _ id).trans hc.history

theorem SamePlayer.possesses (h : c.SamePlayer c') (hc : c.Possesses) : c'.Possesses := by
  refine ⟨fun hnone id => ?_, fun id hid => ?_⟩
  · rw [h.world.alive, hc.vacant (h.player.symm.trans hnone)]
  · exact h.controls (hc.controls id (h.player.symm.trans hid))

/-! ## What leaves the player alone -/

theorem samePlayer_tick (c : Client) : c.SamePlayer c.tick := by
  obtain ⟨_, w, he, h⟩ := c.tick_cases
  rw [he]
  refine ⟨rfl, rfl, ?_⟩
  rcases h with ⟨-, rfl⟩ | ⟨_, -, rfl⟩
  · exact .rfl
  · exact (c.world.sameShape_modify ..).trans (World.sameShape_modify ..)

/-- What a client does of itself leaves the player alone. -/
theorem samePlayer_act (c : Client) (a : Act) : c.SamePlayer (c.act a).1 := by
  cases a with
  | tick =>
    unfold act
    dsimp only
    split
    · exact samePlayer_of_eq rfl rfl rfl
    · rename_i t h
      rw [tick_timestep c (by rw [(Timestep.step_of_consume h).2])]
      exact c.samePlayer_tick.trans (samePlayer_of_eq rfl rfl rfl)
  | start answer =>
    refine ⟨rfl, ?_, .rfl⟩
    show (c.sender.start (answering answer)).2.1.playerId = _
    unfold Sender.start
    split_ifs
    · rfl
    · split <;> rfl
  | send answer =>
    refine ⟨rfl, ?_, .rfl⟩
    show (c.sender.step (answering answer) c.buffer).1.playerId = _
    unfold Sender.step
    split <;> rfl
  | stop =>
    refine ⟨rfl, ?_, .rfl⟩
    show (c.sender.stop (answering (.ok ()))).1.playerId = _
    unfold Sender.stop
    split_ifs <;> rfl
  | elapse d => exact samePlayer_of_eq rfl rfl rfl
  | ping now => exact samePlayer_of_eq rfl rfl rfl
  | settle outcomes => exact samePlayer_of_eq rfl rfl rfl

theorem samePlayer_follow (c : Client) (m : Snapshot) (id : EntityId) (seen : Sighting) :
    c.SamePlayer (c.follow m id seen) := by
  obtain ⟨_, he⟩ := c.follow_eq m id seen
  rw [he]
  exact ⟨rfl, rfl, Corrector.sameShape_reconcile ..⟩

/-- What is said of the player confirms commands of its history. -/
theorem Controls.history_follow {id : EntityId} {log : CommandLog} (h : c.Controls id)
    (hlog : c.world.get? .history id = some log) (m : Snapshot) (seen : Sighting) :
    (c.follow m id seen).world.get? .history id =
      some (log.acknowledge (Sequence.widen c.inputSequence m.lastInputSequence)) := by
  obtain ⟨_, he⟩ := c.follow_eq m id seen
  rw [he]
  exact c.corrector.history_reconcile_of_alive h.alive h.transform hlog seen.position _

theorem quiet_of_eq (hplayer : c'.player = c.player) (hsender : c'.sender.playerId = c.sender.playerId)
    (hworld : c'.world = c.world) (hnewest : c'.inputSequence = c.inputSequence) : c.Quiet c' :=
  ⟨⟨hplayer, hsender, hworld ▸ .rfl⟩, hnewest, fun _ _ _ hlog => Or.inl (hworld ▸ hlog)⟩

theorem quiet_follow (c : Client) (m : Snapshot) (id : EntityId) (seen : Sighting)
    (hid : c.player = some id) : c.Quiet (c.follow m id seen) := by
  refine ⟨c.samePlayer_follow m id seen, ?_, fun id' log hc hlog => Or.inr ?_⟩
  · obtain ⟨_, he⟩ := c.follow_eq m id seen
    rw [he]
  · obtain rfl : id = id' := Option.some.inj (hid.symm.trans hc.player)
    exact ⟨_, hc.history_follow hlog m seen⟩

theorem quiet_goBack (c : Client) (m : RollbackRequest) : c.Quiet (c.goBack m) := by
  rcases c.goBack_cases m with hq | ⟨_, _, _, _, -, ⟨-, rfl⟩ | ⟨id, position, hid, -, rfl⟩, hq⟩
  · rw [hq]
    exact quiet_of_eq rfl rfl rfl rfl
  · rw [hq]
    exact quiet_of_eq rfl rfl rfl rfl
  · rw [hq]
    refine ⟨⟨rfl, rfl, Corrector.sameShape_reconcile ..⟩, rfl, fun id' log hc hlog => Or.inr ?_⟩
    obtain rfl : id = id' := Option.some.inj (hid.symm.trans hc.player)
    exact ⟨_, c.corrector.history_reconcile_of_alive hc.alive hc.transform hlog position _⟩

/-- What is no snapshot leaves the player alone and issues nothing. -/
theorem quiet_receiveOne (c : Client) {data : Bytes}
    (hm : Message.decode (μ := Snapshot) data = none) (now : Duration) :
    c.Quiet (c.receiveOne data now).1 := by
  rcases c.receiveOne_cases data now with ⟨_, _, _, hm', -⟩ | ⟨traffic, _, m, -, he⟩ |
    ⟨traffic, _, m, -, he⟩ | ⟨_, he⟩
  · rw [hm] at hm'
    cases hm'
  · rcases compareDigests_cases { c with traffic } m now with hq | ⟨_, -, -, -, hq⟩
    · rw [he, hq]
      exact quiet_of_eq rfl rfl rfl rfl
    · rw [he, hq, post_eq]
      exact quiet_of_eq rfl rfl rfl rfl
  · rw [he]
    have h := ({ c with traffic } : Client).quiet_goBack m
    exact ⟨⟨h.same.player, h.same.playerId, h.same.world⟩, h.newest,
      fun id log hc => h.log id log ⟨hc.player, hc.playerId, hc.alive, hc.transform, hc.history⟩⟩
  · rw [he]
    exact quiet_of_eq rfl rfl rfl rfl

/-! ## Taking control -/

/-- **A client that controls nothing takes control of what it is shown**, unless
    that has the invalid id. -/
theorem takeControl_cases (hvacant : ∀ id, c.world.isAlive id = false) (seen : Sighting) :
    (seen.id = EntityId.invalid ∧ c.takeControl seen = none) ∨
    (seen.id ≠ EntityId.invalid ∧ ∃ taken, c.takeControl seen = some taken ∧
      taken.Controls seen.id) := by
  by_cases hid : seen.id = EntityId.invalid
  · refine Or.inl ⟨hid, ?_⟩
    rw [takeControl, World.spawn, if_pos (Or.inl hid)]
  · have hborn := c.world.spawn_of_not_mem seen.id hid (hvacant seen.id)
    obtain ⟨taken, htaken⟩ : ∃ taken, c.takeControl seen = some taken := by
      rw [takeControl, hborn]
      exact ⟨_, rfl⟩
    refine Or.inr ⟨hid, taken, htaken, ?_⟩
    obtain ⟨-, hlive, htransform, hhistory⟩ := takeControl_spec htaken
    obtain ⟨_, -, rfl⟩ := takeControl_eq htaken
    exact ⟨rfl, rfl, hlive, by rw [World.has, htransform]; rfl, by rw [World.has, hhistory]; rfl⟩

/-- **A snapshot hands over what it names** to a client that controls nothing; to
    any other client it hands over nothing. -/
theorem Possesses.applySnapshot (h : c.Possesses) {n : UInt32} (hfresh : ¬ c.IsStale n)
    (m : Snapshot) : (c.applySnapshot n m).Possesses ∧
      (c.applySnapshot n m).player = c.player.or m.named? := by
  have hadopting : c.SamePlayer (c.adopting n m) := samePlayer_of_eq rfl rfl rfl
  rw [applySnapshot_of_fresh hfresh]
  cases hseen : m.entity? m.playerEntity with
  | none =>
    -- only the authority is brought up to date
    have hnone : m.named? = none := by simp [Snapshot.named?, hseen]
    rw [hnone, Option.or_none]
    exact ⟨hadopting.possesses h, rfl⟩
  | some seen =>
    have hid : seen.id = m.playerEntity := Snapshot.id_of_entity? hseen
    dsimp only
    cases hplayer : c.player with
    | some id =>
      -- what is shown of the named entity is taken for what is shown of `id`
      have hsame := (c.adopting n m).samePlayer_follow m id seen
      exact ⟨hsame.possesses (hadopting.possesses h), hsame.player.trans hplayer⟩
    | none =>
      have hvacant : ∀ id, (c.adopting n m).world.isAlive id = false := h.vacant hplayer
      dsimp only
      rcases takeControl_cases hvacant seen with ⟨hinvalid, he⟩ | ⟨hvalid, taken, he, hcontrols⟩
      · have hnone : m.named? = none := by simp [Snapshot.named?, ← hid, hinvalid]
        rw [he, hnone]
        exact ⟨hadopting.possesses h, hplayer⟩
      · have hnamed : m.named? = some seen.id := by
          rw [Snapshot.named?, if_pos ⟨hid ▸ hvalid, by rw [hseen]; rfl⟩, hid]
        have hsame := taken.samePlayer_follow m seen.id seen
        have htaken : taken.Possesses := by
          refine ⟨fun hnone => ?_, fun id hid' => ?_⟩
          · cases hcontrols.player.symm.trans hnone
          · cases hcontrols.player.symm.trans hid'
            exact hcontrols
        rw [he, hnamed]
        exact ⟨hsame.possesses htaken, hsame.player.trans hcontrols.player⟩

/-! ## Runs -/

/-- The entity that an event names as the client's. -/
def named? (c : Client) : Event → Option EntityId
  | .act _ => none
  | .hear data _ =>
    match Message.decode (μ := Snapshot) data with
    | none => none
    | some (h, m) => if c.IsStale h.tick then none else m.named?

/-- The entities that a run names as the client's, in order. -/
def namings (c : Client) : List Event → List EntityId
  | [] => []
  | e :: rest => (c.named? e).toList ++ (c.perform e).1.namings rest

/-- An event hands over what it names if nothing is controlled yet. -/
theorem Possesses.perform (h : c.Possesses) (e : Event) : (c.perform e).1.Possesses ∧
    (c.perform e).1.player = c.player.or (c.named? e) := by
  have hsame : ∀ {c' : Client}, c.SamePlayer c' → c.named? e = none →
      c'.Possesses ∧ c'.player = c.player.or (c.named? e) := by
    intro c' hs hnone
    rw [hnone, Option.or_none]
    exact ⟨hs.possesses h, hs.player⟩
  cases e with
  | act a => exact hsame (c.samePlayer_act a) rfl
  | hear data now =>
    show (c.receiveOne data now).1.Possesses ∧ (c.receiveOne data now).1.player = _
    cases hm : Message.decode (μ := Snapshot) data with
    | none => exact hsame (c.quiet_receiveOne hm now).same (by simp only [named?, hm])
    | some heard =>
      obtain ⟨hd, m⟩ := heard
      obtain ⟨traffic, he⟩ := c.receiveOne_of_snapshot hm now
      rw [he]
      by_cases hstale : c.IsStale hd.tick
      · have hnone : c.named? (.hear data now) = none := by simp only [named?, hm, if_pos hstale]
        have hstale' : ({ c with traffic } : Client).IsStale hd.tick := hstale
        rw [applySnapshot_of_stale hstale']
        exact hsame (samePlayer_of_eq rfl rfl rfl) hnone
      · have hnamed : c.named? (.hear data now) = m.named? := by
          simp only [named?, hm, if_neg hstale]
        have hcounted : c.SamePlayer { c with traffic } := samePlayer_of_eq rfl rfl rfl
        rw [hnamed]
        exact (hcounted.possesses h).applySnapshot hstale m

/-- **Who is controlled after a run** is who was, or else the first that was
    named. -/
theorem possesses_performAll (h : c.Possesses) (es : List Event) :
    (c.performAll es).1.Possesses ∧
      (c.performAll es).1.player = c.player.or (c.namings es).head? := by
  induction es generalizing c with
  | nil => exact ⟨h, by simp [namings, performAll]⟩
  | cons e rest ih =>
    -- what the first event hands over is there before anything that the rest names
    obtain ⟨hpossesses, hplayer⟩ := h.perform e
    obtain ⟨hrest, hlast⟩ := ih hpossesses
    refine ⟨hrest, hlast.trans ?_⟩
    rw [hplayer, namings, Option.or_assoc, List.head?_append]
    cases c.named? e <;> rfl

/-- **The first entity that is named stays under control.**  After a snapshot that
    is not stale and shows what it names, the client controls the first entity
    that any snapshot has named, and so the one that this snapshot names just if
    no snapshot has named another before. -/
theorem controls_first_named (config : ClientConfig) (now : Duration) (es : List Event)
    {data : Bytes} {h : Header} {m : Snapshot} (hm : Message.decode data = some (h, m))
    (hfresh : ¬ ((make config now).performAll es).1.IsStale h.tick)
    (hseen : m.named? = some m.playerEntity) (heardAt : Duration) :
    let c := (((make config now).performAll es).1.receiveOne data heardAt).1
    let first := ((make config now).namings es).head?
    c.Controls (first.getD m.playerEntity) ∧
      (c.Controls m.playerEntity ↔ ∀ id, first = some id → id = m.playerEntity) := by
  intro c first
  obtain ⟨hbefore, hfirst⟩ := possesses_performAll (possesses_make config now) es
  have hafter := hbefore.perform (.hear data heardAt)
  simp only [named?, hm, if_neg hfresh, hseen] at hafter
  obtain ⟨hpossesses, hplayer⟩ := hafter
  have hnobody : ((make config now).performAll es).1.player = first := hfirst
  have hcontrolled : c.player = some (first.getD m.playerEntity) := by
    show (perform _ (.hear data heardAt)).1.player = _
    rw [hplayer, hnobody]
    cases first <;> rfl
  have hcontrols := hpossesses.controls _ hcontrolled
  refine ⟨hcontrols, fun hnew id hid => ?_, fun hall => ?_⟩
  · have hsame := Option.some.inj (hcontrolled.symm.trans hnew.player)
    rwa [hid] at hsame
  · cases hf : first with
    | none =>
      rw [hf] at hcontrols
      exact hcontrols
    | some id =>
      rw [hf, Option.getD_some, hall id hf] at hcontrols
      exact hcontrols

/-- A snapshot that names one entity and shows it. -/
def naming (id : EntityId) : Snapshot := ⟨id, 0, [⟨id, .zero, 100⟩]⟩

/-- A client that was shown another entity before does not take control of the
    one that it is now shown as its own. -/
theorem renamed_not_controlled :
    let c := ((make {} 0).performAll [.hear ((naming 1).datagram 1) 0]).1
    let c' := (c.receiveOne ((naming 2).datagram 2) 0).1
    ¬ c.IsStale 2 ∧ (naming 2).named? = some 2 ∧ c'.lastSnapshotTick = some 2 ∧
      c'.authority.isAlive 2 = true ∧ c'.Controls 1 ∧ ¬ c'.Controls 2 := by
  decide +kernel

/-- A client that is shown the same entity again keeps control of it. -/
theorem controls_first_named_again :
    let c := ((make {} 0).performAll [.hear ((naming 1).datagram 1) 0]).1
    ¬ c.IsStale 2 ∧ (c.receiveOne ((naming 1).datagram 2) 0).1.Controls 1 := by
  have hread : (Message.decode (μ := Snapshot) ((naming 1).datagram 2)).map
      (fun x => (x.1.tick, x.2)) = some (2, naming 1) := by decide +kernel
  obtain ⟨⟨h, m⟩, hm, heq⟩ := Option.map_eq_some_iff.1 hread
  obtain ⟨htick, rfl⟩ := Prod.mk.inj heq
  have hfresh : ¬ ((make {} 0).performAll [.hear ((naming 1).datagram 1) 0]).1.IsStale h.tick := by
    rw [htick]
    decide +kernel
  have hnamed : ((make {} 0).namings [.hear ((naming 1).datagram 1) 0]).head? = some 1 := by
    decide +kernel
  refine ⟨by rw [← htick]; exact hfresh, ?_⟩
  have h := (controls_first_named {} 0 _ hm hfresh rfl 0).2
  exact h.2 fun id hid => Option.some.inj (hid.symm.trans hnamed)

end Client

end Netplay
