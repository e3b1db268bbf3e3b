/-
  A client that is taken back.

  After a request to go back to a tick that is still recorded, the authority's
  live entities are those of that tick, each where it was.  Health is written
  back onto entities that have any: one that the server has destroyed since, or
  that an earlier request had brought back, comes without.

  * `World.shown?_restoreAll`: what a restored world shows;
  * `Client.goBack_recovers`: the authority after a request, and when its digest
    is the one that is reported for the tick.
-/
import Netplay.Proofs.Authority
import Netplay.Proofs.Mirror

namespace Netplay

open Component (Kind)

namespace World

/-- What a client captures is what is shown, and the velocity. -/
theorem shown?_eq_states (w : World) (id : EntityId) :
    w.shown? id = ((w.states : EntityMap CoreState).get? id).map fun s =>
      ⟨id, s.position, s.health⟩ := by
  rw [shown?, get?_states]
  split_ifs
  · show _ = ((w.get? .transform id).map _).map _
    rw [Option.map_map]
    rfl
  · rfl

theorem shown?_restoreAll (r : World) {m : EntityMap CoreState} (hm : m.Restorable)
    (id : EntityId) : (r.restoreAll m).shown? id = (m.get? id).map fun s =>
      ⟨id, s.position, if r.has .health id then s.health else 0⟩ := by
  rw [shown?_eq_states, r.get?_states_restoreAll hm, Option.map_bind]
  cases m.get? id with
  | none => rfl
  | some s =>
    have hhealth : (match EntityState.overHealth s.health (r.get? .health id) with
        | some h => h.current
        | none => 0) = if r.has .health id then s.health else 0 := by
      rw [World.has]
      cases r.get? .health id <;> rfl
    simp only [Option.bind_some, Option.map_some, Function.comp_apply, ← hhealth]
    rfl

end World

/-- Worlds that show the same list the same. -/
theorem Server.sightings_congr {w w' : World} (h : ∀ id, w.shown? id = w'.shown? id) :
    Server.sightings w = Server.sightings w' :=
  eq_of_ascending (Server.sightings_ascending w) (Server.sightings_ascending w') fun e => by
    rw [Server.mem_sightings, Server.mem_sightings, h]

namespace Client

theorem goBack_of_find? {c : Client} {m : RollbackRequest} {w : Recorded CoreState}
    (hw : c.timeline.find? m.targetTick.toNat = some w) :
    (c.goBack m).authority = c.authority.restoreAll w.entities ∧
      (c.goBack m).timeline = c.timeline ∧ (c.goBack m).rollbacks = c.rollbacks + 1 := by
  unfold goBack
  rw [Timeline.rewindCalling, Timeline.rewind_of_find? hw]
  dsimp only
  split
  · exact ⟨rfl, rfl, rfl⟩
  · split <;> exact ⟨rfl, rfl, rfl⟩

/-- The requests that take the client back are counted, and no others. -/
theorem rollbacks_goBack (c : Client) (m : RollbackRequest) :
    (c.goBack m).rollbacks =
      if (c.timeline.find? m.targetTick.toNat).isSome then c.rollbacks + 1 else c.rollbacks := by
  cases hw : c.timeline.find? m.targetTick.toNat with
  | none =>
    rw [goBack_of_none hw]
    rfl
  | some w =>
    rw [(goBack_of_find? hw).2.2]
    rfl

variable {c : Client} {m : RollbackRequest} {w : Recorded CoreState}

theorem Mirrors.restorable (hc : c.Mirrors) (hw : c.timeline.find? m.targetTick.toNat = some w) :
    w.entities.Restorable := by
  obtain ⟨r, hr, rfl⟩ := hc.faithful.find? hw
  exact World.restorable_states hr.invalid

theorem Mirrors.isAlive_goBack (hc : c.Mirrors)
    (hw : c.timeline.find? m.targetTick.toNat = some w) (id : EntityId) :
    (c.goBack m).authority.isAlive id = w.entities.contains id := by
  rw [(goBack_of_find? hw).1, (c.authority.restoreAll_spec (hc.restorable hw)).1]
  -- a live entity of the authority has a transform, so it is sent away unless it is stored
  have hplaced : (c.authority.isAlive id && !c.authority.has .transform id) = false := by
    cases hl : c.authority.isAlive id with
    | false => rfl
    | true => rw [hc.placed id hl]; rfl
  rw [hplaced, Bool.or_false]

theorem Mirrors.shown?_goBack (hc : c.Mirrors)
    (hw : c.timeline.find? m.targetTick.toNat = some w) (id : EntityId) :
    (c.goBack m).authority.shown? id = (w.entities.get? id).map fun s =>
      ⟨id, s.position, if c.authority.has .health id then s.health else 0⟩ := by
  rw [(goBack_of_find? hw).1]
  exact c.authority.shown?_restoreAll (hc.restorable hw) id

theorem Mirrors.critical_goBack (hc : c.Mirrors)
    (hw : c.timeline.find? m.targetTick.toNat = some w)
    (hhealth : ∀ id s, w.entities.get? id = some s →
      c.authority.has .health id = true ∨ s.health = 0) :
    Digest.critical ((c.goBack m).authority.states : EntityMap CoreState) =
      Digest.critical w.entities := by
  obtain ⟨r, -, hr⟩ := hc.faithful.find? hw
  have hentities : w.entities = r.states := by rw [hr]; rfl
  have hlisted : Server.sightings (c.goBack m).authority = Server.sightings r := by
    apply Server.sightings_congr
    intro id
    rw [hc.shown?_goBack hw, World.shown?_eq_states, ← hentities]
    cases hs : w.entities.get? id with
    | none => rfl
    | some s =>
      simp only [Option.map_some]
      rcases hhealth id s hs with h | h
      · rw [h, if_pos rfl]
      · rw [h, ite_self]
  rw [hentities, Server.critical_coreStates, Server.critical_coreStates, hlisted]

/-- **Going back.**  Exactly the entities of the tick live again, each where it
    was, with the health that it had where it still has any.  Where all that had
    health do, the authority's digest is the one that is reported for the tick. -/
theorem goBack_recovers (config : ClientConfig) (now : Duration) (es : List Event)
    (m : RollbackRequest) {w : Recorded CoreState}
    (hw : ((make config now).performAll es).1.timeline.find? m.targetTick.toNat = some w) :
    let c := ((make config now).performAll es).1
    (∀ id, (c.goBack m).authority.isAlive id = w.entities.contains id) ∧
    (∀ id, (c.goBack m).authority.shown? id = (w.entities.get? id).map fun s =>
      ⟨id, s.position, if c.authority.has .health id then s.health else 0⟩) ∧
    ((∀ id s, w.entities.get? id = some s → c.authority.has .health id = true ∨ s.health = 0) →
      (c.goBack m).timeline.critical? m.targetTick.toNat =
        some (Digest.critical ((c.goBack m).authority.states : EntityMap CoreState))) := by
  intro c
  have hc : c.Mirrors := mirrors_performAll (mirrors_make config now) es
  refine ⟨hc.isAlive_goBack hw, hc.shown?_goBack hw, fun hhealth => ?_⟩
  rw [hc.critical_goBack hw hhealth, (goBack_of_find? hw).2.1, Timeline.critical?, hw]
  rfl

/-- A snapshot for a tick, on the wire. -/
def heard (tick : UInt32) (entities : List Sighting) : Event :=
  .hear (match Message.encode (⟨0, 0, entities⟩ : Snapshot) 0 tick with
    | .ok data => data
    | .error _ => []) 0

/-- Going back is not exact: an entity that a later snapshot had sent away comes
    back without health, so the authority's digest is not the one that is
    reported for the tick. -/
theorem goBack_not_exact :
    let c := ((make {} 0).performAll [heard 1 [⟨5, .zero, 100⟩], heard 2 []]).1
    (c.timeline.has 1) = true ∧ (c.goBack ⟨1, 2⟩).authority.entities = [5] ∧
      (c.goBack ⟨1, 2⟩).timeline.critical? 1 ≠
        some (Digest.critical ((c.goBack ⟨1, 2⟩).authority.states : EntityMap CoreState)) := by
  decide +kernel

/-- A later position and a later arrival are undone. -/
theorem goBack_recovers_moved :
    let c := ((make {} 0).performAll
      [heard 1 [⟨5, .zero, 100⟩], heard 2 [⟨5, ⟨.two, .two⟩, 3⟩, ⟨6, .zero, 100⟩]]).1
    c.timeline.has 1 = true ∧ (c.goBack ⟨1, 2⟩).timeline.critical? 1 =
      some (Digest.critical ((c.goBack ⟨1, 2⟩).authority.states : EntityMap CoreState)) := by
  intro c
  have hfound : (c.timeline.find? 1).isSome = true := by decide +kernel
  have hhealth : ((c.timeline.find? 1).all fun w =>
      w.entities.ids.all (c.authority.has .health)) = true := by decide +kernel
  obtain ⟨w, hw⟩ := Option.isSome_iff_exists.1 hfound
  rw [hw] at hhealth
  refine ⟨hfound, (goBack_recovers {} 0 _ ⟨1, 2⟩ hw).2.2 fun id s hs => Or.inl ?_⟩
  exact List.all_eq_true.1 hhealth id (EntityMap.mem_ids.2 (EntityMap.contains_eq_true.2 ⟨s, hs⟩))

end Client

end Netplay
