/-
  The mirror: what a client holds of the server's world.

  A world shows an entity if it lives and has a transform.  What a world shows
  is what a snapshot lists, what is captured, and what the critical digest is
  of, so two worlds that show the same have the same critical digest.

  * `critical_states`: the critical digest of a captured world, on either side,
    is the check value of the bytes that a snapshot of it lists;
  * `sightings_adopt`: an authority that has adopted a snapshot shows exactly
    what the snapshot lists, whatever it showed before.
-/
import Netplay.Proofs.Maps
import Netplay.Proofs.Worlds
import Netplay.Session.Client
import Netplay.Session.Server

namespace Netplay

open Component (Kind)

namespace World

/-- What a world shows of an entity. -/
def shown? (w : World) (id : EntityId) : Option Sighting :=
  if w.isAlive id then
    (w.get? .transform id).map fun t =>
      { id, position := t.position
        health := match w.get? .health id with
          | some h => h.current
          | none => 0 }
  else none

theorem id_of_shown? {w : World} {id : EntityId} {e : Sighting} (h : w.shown? id = some e) :
    e.id = id := by
  unfold shown? at h
  split_ifs at h
  obtain ⟨t, -, rfl⟩ := Option.map_eq_some_iff.1 h
  rfl

theorem shown?_of_dead {w : World} {id : EntityId} (h : w.isAlive id = false) :
    w.shown? id = none := by
  rw [shown?, if_neg (by simp [h])]

theorem isAlive_of_shown? {w : World} {id : EntityId} {e : Sighting} (h : w.shown? id = some e) :
    w.isAlive id = true := by
  by_contra hd
  rw [shown?_of_dead (by simpa using hd)] at h
  cases h

theorem position_of_shown? {w : World} {id : EntityId} {e : Sighting} (h : w.shown? id = some e) :
    (w.get? .transform id).map (·.position) = some e.position := by
  unfold shown? at h
  split_ifs at h
  obtain ⟨t, ht, rfl⟩ := Option.map_eq_some_iff.1 h
  rw [ht]
  rfl

/-- What is shown depends on who lives, the transforms and the healths only. -/
theorem shown?_congr {w w' : World} {id : EntityId} (hl : w'.isAlive id = w.isAlive id)
    (ht : w'.get? .transform id = w.get? .transform id)
    (hh : w'.get? .health id = w.get? .health id) : w'.shown? id = w.shown? id := by
  rw [shown?, shown?, hl, ht, hh]

theorem shown?_destroy (w : World) (id j : EntityId) :
    (w.destroy id).2.shown? j = if j = id then none else w.shown? j := by
  by_cases h : j = id
  · rw [if_pos h, shown?_of_dead (by simp [h])]
  · rw [if_neg h]
    exact shown?_congr (by simp [h]) (get?_destroy_of_ne w _ id j h) (get?_destroy_of_ne w _ id j h)

theorem shown?_foldl_destroy (w : World) (ids : List EntityId) (j : EntityId) :
    (ids.foldl (fun w id => (w.destroy id).2) w).shown? j =
      if j ∈ ids then none else w.shown? j := by
  induction ids generalizing w with
  | nil => simp
  | cons i rest ih =>
    rw [List.foldl_cons, ih, shown?_destroy]
    by_cases h1 : j = i <;> by_cases h2 : j ∈ rest <;> simp [h1, h2]

end World

/-! ## Snapshots and digests list what is shown -/

namespace Server

theorem sightings_eq (w : World) : sightings w = w.entities.filterMap w.shown? := by
  rw [sightings, World.entitiesWith, List.filterMap_filter]
  refine List.filterMap_congr fun id hid => ?_
  rw [World.shown?, if_pos ((w.mem_entities id).1 hid), World.has]
  cases w.get? .transform id <;> rfl

theorem mem_sightings {w : World} {e : Sighting} : e ∈ sightings w ↔ w.shown? e.id = some e := by
  rw [sightings_eq, List.mem_filterMap]
  constructor
  · rintro ⟨id, -, h⟩
    rwa [World.id_of_shown? h]
  · intro h
    exact ⟨e.id, (w.mem_entities e.id).2 (World.isAlive_of_shown? h), h⟩

theorem sightings_ascending (w : World) : (sightings w).Pairwise fun a b => a.id < b.id := by
  rw [sightings_eq]
  refine List.Pairwise.filterMap _ (fun i j hij a ha b hb => ?_) w.alive.ids_ascending
  rwa [World.id_of_shown? ha, World.id_of_shown? hb]

theorem flatMap_filterMap {α β γ : Type} (f : α → Option β) (g : β → List γ) (l : List α) :
    (l.filterMap f).flatMap g = l.flatMap fun a => ((f a).map g).getD [] := by
  induction l with
  | nil => rfl
  | cons a l ih => cases h : f a <;> simp [h, ih]

/-- A type of states that digests the bytes of sightings has the check value of
    the listed bytes as its critical digest. -/
theorem critical_of_bytes {σ : Type} [EntityState σ] (w : World)
    (h : ∀ id, w.isAlive id = true →
      (EntityState.capture (σ := σ) w id).map
          (fun s => Bytes.be32 id ++ EntityState.criticalBytes s) =
        (w.shown? id).map Sighting.write) :
    Digest.critical (w.states : EntityMap σ) = crc32 ((sightings w).flatMap Sighting.write) := by
  rw [Digest.critical, Digest.stream, sightings_eq, flatMap_filterMap, World.states,
    EntityMap.filterMap, flatMap_filterMap, World.entities, EntityMap.ids, List.flatMap_map]
  refine congrArg crc32 (List.flatMap_congr fun p hp => ?_)
  have hlive : w.isAlive p.1 = true :=
    (w.mem_entities p.1).1 (List.mem_map.2 ⟨p, hp, rfl⟩)
  rw [← h p.1 hlive, Option.map_map]
  rfl

/-- **The critical digest is that of a snapshot's entities**, on the server. -/
theorem critical_fullStates (w : World) :
    Digest.critical (w.states : EntityMap FullState) =
      crc32 ((sightings w).flatMap Sighting.write) := by
  refine critical_of_bytes w fun id hid => ?_
  rw [World.shown?, if_pos hid, Option.map_map]
  show ((w.get? .transform id).map _).map _ = _
  rw [Option.map_map]
  refine congrArg (Option.map · _) (funext fun t => ?_)
  cases w.get? .health id <;>
    simp [Sighting.write, EntityState.criticalBytes, EntityState.pointBytes]

/-- The critical digest is that of a snapshot's entities, on a client. -/
theorem critical_coreStates (w : World) :
    Digest.critical (w.states : EntityMap CoreState) =
      crc32 ((sightings w).flatMap Sighting.write) := by
  refine critical_of_bytes w fun id hid => ?_
  rw [World.shown?, if_pos hid, Option.map_map]
  show ((w.get? .transform id).map _).map _ = _
  rw [Option.map_map]
  refine congrArg (Option.map · _) (funext fun t => ?_)
  cases w.get? .health id <;>
    simp [Sighting.write, EntityState.criticalBytes, EntityState.pointBytes]

end Server

/-! ## Adopting a snapshot -/

namespace Client

theorem shown?_adoptOne (w : World) {e : Sighting} (he : e.id ≠ EntityId.invalid) (j : EntityId) :
    (adoptOne w e).shown? j = if j = e.id then some e else w.shown? j := by
  have hput : ∀ w : World, w.isAlive e.id = true → ((w.attach .transform e.id
      (.placed e.position)).attach .health e.id (.full e.health)).shown? j =
        if j = e.id then some e else w.shown? j := by
    intro w hl
    have ht : ((w.attach .transform e.id (.placed e.position)).attach .health e.id
        (.full e.health)).get? .transform j =
          if j = e.id then some (.placed e.position) else w.get? .transform j := by
      rw [World.get?_attach_of_ne _ _ _ (by decide), World.get?_attach w _ _ _ _ hl]
    have hh : ((w.attach .transform e.id (.placed e.position)).attach .health e.id
        (.full e.health)).get? .health j =
          if j = e.id then some (.full e.health) else w.get? .health j := by
      rw [World.get?_attach _ _ _ _ _ (by simpa), World.get?_attach_of_ne w _ _ (by decide)]
    by_cases hj : j = e.id
    · subst hj
      rw [World.shown?, if_pos (by simpa), ht, hh]
      simp [Transform.placed, Health.full]
    · rw [if_neg hj] at ht hh ⊢
      exact World.shown?_congr (by simp) ht hh
  unfold adoptOne
  split
  · exact hput w ‹_›
  · rename_i hd
    have hdead : w.isAlive e.id = false := by simpa using hd
    have hspawn := World.spawn_of_not_mem w e.id he hdead
    have hborn : (w.spawn e.id).2.isAlive e.id = true := by simp [World.isAlive_spawn w _ _ he]
    rw [hspawn] at hborn ⊢
    show ((World.attach _ _ _ _).attach _ _ _).shown? j = _
    rw [hput _ hborn]
    by_cases hj : j = e.id
    · rw [if_pos hj, if_pos hj]
    · rw [if_neg hj, if_neg hj]
      have hlife := World.isAlive_spawn w e.id j he
      have htransform := World.get?_spawn w .transform e.id j
      have hhealth := World.get?_spawn w .health e.id j
      rw [hspawn] at hlife htransform hhealth
      exact World.shown?_congr (by rw [hlife]; simp [hj]) htransform hhealth

/-- Showing entities of different ids shows each as it was seen. -/
theorem shown?_foldl_adoptOne {l : List Sighting} (hl : l.Pairwise fun a b => a.id < b.id)
    (hv : ∀ e ∈ l, e.id ≠ EntityId.invalid) (w : World) (j : EntityId) :
    (l.foldl adoptOne w).shown? j = (l.find? fun e => e.id == j).or (w.shown? j) := by
  induction l generalizing w with
  | nil => simp
  | cons e rest ih =>
    obtain ⟨hlt, hrest⟩ := List.pairwise_cons.1 hl
    rw [List.foldl_cons, ih hrest (fun e' he' => hv e' (List.mem_cons_of_mem _ he')),
      shown?_adoptOne w (hv e List.mem_cons_self)]
    by_cases hj : j = e.id
    · subst hj
      have hnone : rest.find? (fun e' => e'.id == e.id) = none := List.find?_eq_none.2
        fun e' he' heq => absurd (eq_of_beq heq ▸ hlt e' he') (UInt32.lt_irrefl _)
      rw [hnone, List.find?_cons_of_pos (by simp)]
      simp
    · rw [if_neg hj, List.find?_cons_of_neg (by simpa using fun h => hj h.symm)]

/-- **An authority shows what the snapshot lists**, whatever it showed before. -/
theorem shown?_adopt (w : World) {m : Snapshot} (hm : m.entities.Pairwise fun a b => a.id < b.id)
    (hv : ∀ e ∈ m.entities, e.id ≠ EntityId.invalid) (j : EntityId) :
    (adopt w m).shown? j = m.entity? j := by
  unfold adopt
  rw [shown?_foldl_adoptOne hm hv, World.shown?_foldl_destroy, ← Snapshot.entity?]
  cases h : m.entity? j with
  | some e => rfl
  | none =>
    rw [Option.none_or]
    split_ifs with hgone
    · rfl
    · -- an entity that is shown and not listed would have been destroyed
      rw [List.mem_filter, World.mem_entitiesWith, h, World.has] at hgone
      rw [World.shown?]
      split_ifs with hl
      · cases ht : w.get? .transform j with
        | none => rfl
        | some t => exact absurd ⟨⟨hl, by rw [ht]; rfl⟩, rfl⟩ hgone
      · rfl

theorem find?_of_ascending {l : List Sighting} (hl : l.Pairwise fun a b => a.id < b.id)
    {e : Sighting} (he : e ∈ l) : (l.find? fun e' => e'.id == e.id) = some e := by
  induction l with
  | nil => cases he
  | cons a rest ih =>
    obtain ⟨hlt, hrest⟩ := List.pairwise_cons.1 hl
    rcases List.mem_cons.1 he with rfl | he
    · exact List.find?_cons_of_pos (beq_self_eq_true e.id)
    · have hne : ¬ (a.id == e.id) = true := fun heq =>
        absurd (eq_of_beq heq ▸ hlt e he) (UInt32.lt_irrefl _)
      exact (List.find?_cons_of_neg (p := fun e' : Sighting => e'.id == e.id) hne).trans
        (ih hrest he)

/-- **Adopting mirrors.**  The authority shows the entities of the snapshot and
    no others. -/
theorem sightings_adopt (w : World) {m : Snapshot}
    (hm : m.entities.Pairwise fun a b => a.id < b.id)
    (hv : ∀ e ∈ m.entities, e.id ≠ EntityId.invalid) :
    Server.sightings (adopt w m) = m.entities := by
  refine eq_of_ascending (Server.sightings_ascending _) hm fun e => ?_
  rw [Server.mem_sightings, shown?_adopt w hm hv]
  exact ⟨List.mem_of_find?_eq_some, find?_of_ascending hm⟩

end Client

end Netplay
