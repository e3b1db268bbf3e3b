/-
  The authority: the world that a client holds for the server's.

  A snapshot replaces it and a request to go back rewinds it; nothing else
  changes it.  All of its entities have a transform, so a snapshot leaves none
  of those that it does not list, whatever it lists: of several entries for an
  id the last counts, and the invalid id is passed over.

  * `Client.adopt_spec`: the authority after any snapshot;
  * `Client.told_perform`: what an event does to it;
  * `Client.Mirrors`, `Client.mirrors_performAll`: what holds of it in every run.
-/
import Mathlib.Data.List.Induction
import Netplay.Proofs.Playing
import Netplay.Proofs.Rewinding

namespace Netplay

open Component (Kind only)

/-- The last entry of an entity in a list. -/
def Sighting.last? (l : List Sighting) (id : EntityId) : Option Sighting :=
  l.reverse.find? fun e => e.id == id

theorem Sighting.last?_concat (l : List Sighting) (e : Sighting) (id : EntityId) :
    last? (l ++ [e]) id = if e.id = id then some e else last? l id := by
  rw [last?, List.reverse_append, List.reverse_singleton, List.singleton_append]
  split_ifs with h
  · exact List.find?_cons_of_pos (by simpa using h)
  · exact List.find?_cons_of_neg (by simpa using h)

theorem Sighting.isSome_last? {l : List Sighting} {id : EntityId} :
    (last? l id).isSome = true ↔ ∃ e ∈ l, e.id = id := by
  simp [last?]

/-! ## Adopting any snapshot -/

namespace Client

/-- The component that stands after an entity has been shown over one. -/
def overSighting (e : Sighting) : (k : Kind) → Option k.Value → Option k.Value
  | .transform => fun _ => some (.placed e.position)
  | .health => fun _ => some (.full e.health)
  | .velocity | .lives | .score | .invincibility | .render | .controller | .history => fun v => v

theorem adoptOne_eq (w : World) (e : Sighting) : adoptOne w e = w.revive e.id fun w =>
    (w.attach .transform e.id (.placed e.position)).attach .health e.id (.full e.health) := rfl

theorem touches_sighting (e : Sighting) {w : World} (hl : w.isAlive e.id = true) : w.Touches
    ((w.attach .transform e.id (.placed e.position)).attach .health e.id (.full e.health)) e.id
    (overSighting e) := by
  refine ((World.touches_attach .transform (.placed e.position) hl).trans
    (World.touches_attach .health (.full e.health) (by simpa using hl))).of_eq fun k => ?_
  cases k <;> rfl

theorem overSighting_twice (e e' : Sighting) (k : Kind) (v : Option k.Value) :
    overSighting e k (overSighting e' k v) = overSighting e k v := by
  cases k <;> rfl

/-- Showing entities, of any ids and in any order: the last entry of an id
    counts. -/
theorem foldl_adoptOne {w : World} (hw : w.isAlive EntityId.invalid = false) (l : List Sighting) :
    (l.foldl adoptOne w).isAlive EntityId.invalid = false ∧
    ∀ j, j ≠ EntityId.invalid →
      (l.foldl adoptOne w).isAlive j = ((Sighting.last? l j).isSome || w.isAlive j) ∧
      ∀ k, (l.foldl adoptOne w).get? k j =
        match Sighting.last? l j with
        | some e => overSighting e k (w.get? k j)
        | none => w.get? k j := by
  induction l using List.reverseRecOn with
  | nil => exact ⟨hw, fun j _ => ⟨rfl, fun _ => rfl⟩⟩
  | append_singleton l e ih =>
    obtain ⟨hinvalid, hview⟩ := ih
    simp only [List.foldl_append, List.foldl_cons, List.foldl_nil, Sighting.last?_concat]
    by_cases he : e.id = EntityId.invalid
    · have hsame : adoptOne (l.foldl adoptOne w) e = l.foldl adoptOne w := by
        rw [adoptOne_eq, he]
        exact World.revive_of_invalid hinvalid
      rw [hsame]
      refine ⟨hinvalid, fun j hj => ?_⟩
      have hne : ¬ e.id = j := fun hej => hj (hej ▸ he)
      simpa only [hne, if_false] using hview j hj
    · obtain ⟨hlife, hget⟩ := World.revive_spec (touches_sighting e) he (l.foldl adoptOne w)
      rw [← adoptOne_eq] at hlife hget
      refine ⟨by rw [hlife, hinvalid]; simpa using Ne.symm he, fun j hj => ?_⟩
      obtain ⟨h1, h2⟩ := hview j hj
      by_cases hej : e.id = j
      · subst hej
        refine ⟨by simp [hlife], fun k => ?_⟩
        rw [hget, if_pos rfl, if_pos rfl, h2]
        split <;> simp [overSighting_twice]
      · refine ⟨by simp [hlife, h1, hej, Ne.symm hej], fun k => ?_⟩
        rw [hget, if_neg (Ne.symm hej), if_neg hej, h2]

theorem tidy_foldl_adoptOne {w : World} (h : w.Tidy) (l : List Sighting) :
    (l.foldl adoptOne w).Tidy := by
  induction l generalizing w with
  | nil => exact h
  | cons e rest ih => exact ih (h.revive (touches_sighting e))

theorem tidy_adopt {w : World} (h : w.Tidy) (m : Snapshot) : (adopt w m).Tidy :=
  tidy_foldl_adoptOne (h.foldl_destroy _) m.entities

/-- Every live entity has a transform. -/
def Placed (w : World) : Prop := ∀ id, w.isAlive id = true → w.has .transform id = true

/-- **An authority is what was listed last**: who lives, where, and how healthy. -/
theorem adopt_spec {w : World} (hw : w.isAlive EntityId.invalid = false) (hplaced : Placed w)
    (m : Snapshot) :
    (adopt w m).isAlive EntityId.invalid = false ∧
    ∀ j, j ≠ EntityId.invalid →
      (adopt w m).isAlive j = (Sighting.last? m.entities j).isSome ∧
      ∀ e, Sighting.last? m.entities j = some e →
        (adopt w m).get? .transform j = some (.placed e.position) ∧
        (adopt w m).get? .health j = some (.full e.health) := by
  have hgone : ∀ j, j ∈ ((w.entitiesWith .transform).filter fun id =>
      (m.entity? id).isNone) ↔ w.isAlive j = true ∧ (Sighting.last? m.entities j).isSome = false := by
    intro j
    have hlisted : (m.entity? j).isNone = true ↔ (Sighting.last? m.entities j).isSome = false := by
      rw [← Bool.not_eq_true, Sighting.isSome_last?, Option.isNone_iff_eq_none, Snapshot.entity?,
        List.find?_eq_none]
      simp
    rw [List.mem_filter, World.mem_entitiesWith, hlisted]
    exact ⟨fun h => ⟨h.1.1, h.2⟩, fun h => ⟨⟨h.1, hplaced j h.1⟩, h.2⟩⟩
  have hleft : (((w.entitiesWith .transform).filter fun id => (m.entity? id).isNone).foldl
      (fun w id => (w.destroy id).2) w).isAlive EntityId.invalid = false := by
    rw [World.isAlive_foldl_destroy, hw, Bool.and_false]
  obtain ⟨hinvalid, hview⟩ := foldl_adoptOne hleft m.entities
  refine ⟨hinvalid, fun j hj => ?_⟩
  obtain ⟨hlife, hget⟩ := hview j hj
  constructor
  · refine hlife.trans ?_
    -- who was not listed was among those sent away
    rw [World.isAlive_foldl_destroy]
    simp only [hgone]
    cases (Sighting.last? m.entities j).isSome <;> cases w.isAlive j <;> rfl
  · intro e he
    simp only [he] at hget
    exact ⟨hget .transform, hget .health⟩

/-! ## Events -/

theorem authority_applySnapshot {c : Client} {n : UInt32} (h : ¬ c.IsStale n) (m : Snapshot) :
    (c.applySnapshot n m).authority = adopt c.authority m := by
  rcases c.applySnapshot_cases n m with ⟨hs, -⟩ | ⟨-, he, -⟩ | ⟨seen, id, -, -, -, he⟩ |
    ⟨seen, taken, -, -, -, htaken, he⟩
  · exact absurd hs h
  · rw [he]
    rfl
  · obtain ⟨_, hf⟩ := (c.adopting n m).follow_eq m id seen
    rw [he, hf]
    rfl
  · obtain ⟨_, hf⟩ := taken.follow_eq m seen.id seen
    obtain ⟨_, -, rfl⟩ := takeControl_eq htaken
    rw [he, hf]
    rfl

/-- What a client holds for the server's world, now and before, is the same. -/
def SameTold (c c' : Client) : Prop :=
  c'.authority = c.authority ∧ c'.timeline = c.timeline ∧ c'.lastSnapshotTick = c.lastSnapshotTick

/-- What a client holds for the server's world becomes that of a snapshot. -/
def TakesUp (c c' : Client) (n : UInt32) (m : Snapshot) : Prop :=
  c'.authority = adopt c.authority m ∧
    c'.timeline = (c.timeline.capture n.toNat (adopt c.authority m)).2 ∧ c'.lastSnapshotTick = some n

theorem takesUp_applySnapshot {c : Client} {n : UInt32} (h : ¬ c.IsStale n) (m : Snapshot) :
    c.TakesUp (c.applySnapshot n m) n m := by
  refine ⟨authority_applySnapshot h m, ?_, lastSnapshotTick_applySnapshot h m⟩
  rcases c.timeline_applySnapshot n m with ⟨hs, -⟩ | ⟨-, ht⟩
  · exact absurd hs h
  · exact ht

/-- **What an event does to the authority**: nothing, or it is a snapshot that is
    taken up, or a request to go back that rewinds it. -/
theorem told_perform (c : Client) (e : Event) :
    c.SameTold (c.perform e).1 ∨
    (∃ data now h m, e = .hear data now ∧ Message.decode (μ := Snapshot) data = some (h, m) ∧
      ¬ c.IsStale h.tick ∧ c.TakesUp (c.perform e).1 h.tick m) ∨
    (∃ data now h m, e = .hear data now ∧
      Message.decode (μ := RollbackRequest) data = some (h, m) ∧
      c.timeline.rewind m.targetTick.toNat c.authority = (true, (c.perform e).1.authority) ∧
      (c.perform e).1.timeline = c.timeline ∧
      (c.perform e).1.lastSnapshotTick = c.lastSnapshotTick) := by
  cases e with
  | act a =>
    left
    show c.SameTold (c.act a).1
    rcases c.act_cases a with ⟨t, -, he⟩ | ⟨_, _, _, -, he⟩ | ⟨_, _, _, _, _, _, -, he, -⟩
    · obtain ⟨_, _, htick, -⟩ := c.tick_cases
      rw [he, htick]
      exact ⟨rfl, rfl, rfl⟩
    · rw [he]
      exact ⟨rfl, rfl, rfl⟩
    · rw [he]
      exact ⟨rfl, rfl, rfl⟩
  | hear data now =>
    show c.SameTold (c.receiveOne data now).1 ∨ _
    rcases c.receiveOne_cases data now with ⟨traffic, h, m, hm, he⟩ | ⟨traffic, h, m, -, he⟩ |
      ⟨traffic, h, m, hm, he⟩ | ⟨traffic, he⟩
    · by_cases hs : c.IsStale h.tick
      · have hs' : ({ c with traffic } : Client).IsStale h.tick := hs
        left
        rw [he, applySnapshot_of_stale hs']
        exact ⟨rfl, rfl, rfl⟩
      · have hs' : ¬ ({ c with traffic } : Client).IsStale h.tick := hs
        refine Or.inr (Or.inl ⟨data, now, h, m, rfl, hm, hs, ?_⟩)
        show c.TakesUp (c.receiveOne data now).1 h.tick m
        rw [he]
        exact takesUp_applySnapshot hs' m
    · left
      rw [he]
      rcases compareDigests_cases { c with traffic } m now with hq | ⟨_, -, -, -, hq⟩
      · rw [hq]
        exact ⟨rfl, rfl, rfl⟩
      · rw [hq, post_eq]
        exact ⟨rfl, rfl, rfl⟩
    · rcases goBack_cases { c with traffic } m with hq | ⟨_, _, _, _, hrewind, -, hq⟩
      · left
        rw [he, hq]
        exact ⟨rfl, rfl, rfl⟩
      · refine Or.inr (Or.inr ⟨data, now, h, m, rfl, hm, ?_⟩)
        show _ = (true, (c.receiveOne data now).1.authority) ∧ (c.receiveOne data now).1.timeline = _ ∧
          (c.receiveOne data now).1.lastSnapshotTick = _
        rw [he, hq]
        exact ⟨hrewind, rfl, rfl⟩
    · left
      rw [he]
      exact ⟨rfl, rfl, rfl⟩

/-! ## Runs -/

/-- What a client holds for the server's world, now and before, can be written
    back and sent away. -/
structure Mirrors (c : Client) : Prop where
  tidy : c.authority.Tidy
  placed : Placed c.authority
  faithful : c.timeline.Faithful

theorem mirrors_make (config : ClientConfig) (now : Duration) : Mirrors (make config now) where
  tidy := World.tidy_empty
  placed := by
    intro id hid
    cases hid
  faithful := Timeline.faithful_ofCapacity _

theorem placed_adopt {w : World} (h : w.Tidy) (hplaced : Placed w) (m : Snapshot) :
    Placed (adopt w m) := by
  intro id hid
  obtain ⟨hinvalid, hview⟩ := adopt_spec h.invalid hplaced m
  have hne : id ≠ EntityId.invalid := by
    rintro rfl
    rw [hinvalid] at hid
    cases hid
  obtain ⟨hlife, hget⟩ := hview id hne
  rw [hlife] at hid
  obtain ⟨e, he⟩ := Option.isSome_iff_exists.1 hid
  rw [World.has, (hget e he).1]
  rfl

theorem placed_restoreAll {w : World} (hplaced : Placed w) {m : EntityMap CoreState}
    (hm : m.Restorable) : Placed (w.restoreAll m) := by
  intro id hid
  obtain ⟨halive, hget⟩ := w.restoreAll_spec hm
  rw [World.has, hget .transform id hid]
  rw [halive, EntityMap.contains] at hid
  cases hs : m.get? id with
  | some s => rfl
  | none =>
    rw [hs, Option.isSome_none, Bool.false_or, Bool.and_eq_true] at hid
    exact hplaced id hid.1

theorem Mirrors.sameTold {c c' : Client} (h : c.Mirrors) (hs : c.SameTold c') : c'.Mirrors := by
  obtain ⟨ha, ht, -⟩ := hs
  exact ⟨ha ▸ h.tidy, ha ▸ h.placed, ht ▸ h.faithful⟩

theorem Mirrors.takesUp {c c' : Client} (h : c.Mirrors) {n : UInt32} {m : Snapshot}
    (hs : c.TakesUp c' n m) : c'.Mirrors := by
  obtain ⟨ha, ht, -⟩ := hs
  have htidy := tidy_adopt h.tidy m
  exact ⟨ha ▸ htidy, ha ▸ placed_adopt h.tidy h.placed m, ht ▸ h.faithful.capture _ htidy⟩

theorem Mirrors.perform {c : Client} (h : c.Mirrors) (e : Event) : (c.perform e).1.Mirrors := by
  rcases c.told_perform e with hsame | ⟨_, _, _, _, -, -, -, htaken⟩ |
    ⟨_, _, _, _, -, -, hrewind, ht, -⟩
  · exact h.sameTold hsame
  · exact h.takesUp htaken
  · unfold Timeline.rewind at hrewind
    split at hrewind
    · rename_i w hw
      obtain ⟨r, hr, rfl⟩ := h.faithful.find? hw
      have hm : (r.states : EntityMap CoreState).Restorable := World.restorable_states hr.invalid
      have ha := (Prod.mk.inj hrewind).2
      exact ⟨ha ▸ h.tidy.restoreAll hm, ha ▸ placed_restoreAll h.placed hm, ht ▸ h.faithful⟩
    · cases hrewind

theorem mirrors_performAll {c : Client} (h : c.Mirrors) (es : List Event) :
    (c.performAll es).1.Mirrors := by
  induction es generalizing c with
  | nil => exact h
  | cons e rest ih => exact ih (h.perform e)

end Client

end Netplay
