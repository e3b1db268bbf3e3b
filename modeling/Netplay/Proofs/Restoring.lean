/-
  States written back.

  What is captured of an entity, and what writing a state back makes of it, go by
  the entity's components kind by kind: `Rewindable.read` is the state that
  components amount to, and `Rewindable.overlay` the component that stands after a
  state has been written over one.  So a world that is restored is known by the
  world before and the states alone.

  * `World.Touches`: one entity's components have changed, and nothing else;
  * `FullState.touches`, `CoreState.touches`: that is what writing back does;
  * `World.get?_states_restoreAll`: what is captured of a restored world.
-/
import Mathlib.Tactic.Common
import Netplay.Proofs.Lifetimes
import Netplay.Timeline.Rewind

namespace Netplay

open Component (Kind)

/-! ## Components, kind by kind -/

namespace Component

/-- Change the component of one kind. -/
def only (k : Kind) (f : Option k.Value → Option k.Value) (j : Kind) (v : Option j.Value) :
    Option j.Value :=
  if h : k = j then h ▸ f (h ▸ v) else v

@[simp] theorem only_self (k : Kind) (f : Option k.Value → Option k.Value) : only k f k = f := by
  ext v : 1
  rw [only, dif_pos rfl]

theorem only_of_ne {k j : Kind} (h : j ≠ k) (f : Option k.Value → Option k.Value)
    (v : Option j.Value) : only k f j v = v := by
  rw [only, dif_neg h.symm]

end Component

open Component (only)

namespace World

variable {r r' r'' : World} {id : EntityId}

/-- From one world to the next, the components of one entity have changed, and
    nothing else has. -/
structure Touches (r r' : World) (id : EntityId)
    (f : (k : Kind) → Option k.Value → Option k.Value) : Prop where
  alive : ∀ j, r'.isAlive j = r.isAlive j
  get? : ∀ k j, r'.get? k j = if j = id then f k (r.get? k id) else r.get? k j

theorem Touches.trans {f g : (k : Kind) → Option k.Value → Option k.Value}
    (h : r.Touches r' id f) (h' : r'.Touches r'' id g) :
    r.Touches r'' id fun k v => g k (f k v) := by
  constructor
  · intro j
    rw [h'.alive, h.alive]
  · intro k j
    rw [h'.get?, h.get?, h.get?, if_pos rfl]
    split_ifs <;> rfl

theorem Touches.of_eq {f g : (k : Kind) → Option k.Value → Option k.Value}
    (h : r.Touches r' id f) (hfg : ∀ k, f k (r.get? k id) = g k (r.get? k id)) :
    r.Touches r' id g :=
  ⟨h.alive, fun k j => by rw [h.get?, hfg]⟩

/-- A change of one kind of component, given by what it does to that kind and
    that it does nothing to the others. -/
theorem touches_only {k : Kind} {f : Option k.Value → Option k.Value}
    (halive : ∀ j, r'.isAlive j = r.isAlive j)
    (hsame : ∀ j, r'.get? k j = if j = id then f (r.get? k id) else r.get? k j)
    (hother : ∀ k' j, k' ≠ k → r'.get? k' j = r.get? k' j) : r.Touches r' id (only k f) := by
  refine ⟨halive, fun k' j => ?_⟩
  by_cases hk : k' = k
  · subst hk
    rw [hsame, Component.only_self]
  · rw [hother k' j hk, Component.only_of_ne hk]
    split_ifs with hj
    · rw [hj]
    · rfl

theorem touches_self (r : World) (k : Kind) (id : EntityId) : r.Touches r id (only k fun v => v) :=
  touches_only (fun _ => rfl) (fun j => by split_ifs with h <;> simp [h]) fun _ _ _ => rfl

theorem touches_attach (k : Kind) (v : k.Value) (h : r.isAlive id = true) :
    r.Touches (r.attach k id v) id (only k fun _ => some v) :=
  touches_only (by simp) (fun j => get?_attach r k id j v h) fun _ j hk => get?_attach_of_ne r id j hk v

theorem touches_modify (r : World) (k : Kind) (id : EntityId) (f : k.Value → k.Value) :
    r.Touches (r.modify k id f) id (only k fun v => v.map f) :=
  touches_only (by simp) (fun j => get?_modify r k id j f) fun _ j hk => get?_modify_of_ne r id j hk f

theorem touches_detach (r : World) (k : Kind) (id : EntityId) :
    r.Touches (r.detach k id) id (only k fun _ => none) :=
  touches_only (by simp) (by simp) fun _ j hk => get?_detach_of_ne r id j hk

theorem Touches.tidy {f : (k : Kind) → Option k.Value → Option k.Value} (h : r.Touches r' id f)
    (hid : r.isAlive id = true) (ht : r.Tidy) : r'.Tidy := by
  constructor
  · rw [h.alive, ht.invalid]
  · intro j hj k
    rw [h.alive] at hj
    have hne : j ≠ id := by
      rintro rfl
      rw [hid] at hj
      cases hj
    rw [h.get?, if_neg hne, ht.bare j hj]

/-! ### Entities brought back to life -/

/-- Bring an entity to life if need be, and put something onto it; an id that
    cannot live is left out. -/
def revive (r : World) (id : EntityId) (put : World → World) : World :=
  if r.isAlive id then put r
  else match r.spawn id with
    | (true, r) => put r
    | (false, r) => r

section

variable {put : World → World} {f : (k : Kind) → Option k.Value → Option k.Value}

theorem revive_of_invalid (h : r.isAlive EntityId.invalid = false) :
    r.revive EntityId.invalid put = r := by
  simp [revive, spawn, h]

/-- Coming to life touches no component, so only what is put onto the entity
    does. -/
theorem revive_spec (hput : ∀ {w : World}, w.isAlive id = true → w.Touches (put w) id f)
    (hid : id ≠ EntityId.invalid) (r : World) :
    (∀ j, (r.revive id put).isAlive j = (decide (j = id) || r.isAlive j)) ∧
      ∀ k j, (r.revive id put).get? k j = if j = id then f k (r.get? k id) else r.get? k j := by
  unfold revive
  by_cases hl : r.isAlive id = true
  · rw [if_pos hl]
    refine ⟨fun j => ?_, (hput hl).get?⟩
    rw [(hput hl).alive]
    by_cases hj : j = id <;> simp [hj, hl]
  · have hborn : (r.spawn id).2.isAlive id = true := by simp [r.isAlive_spawn id id hid]
    have h := hput hborn
    have hlife := fun j => (h.alive j).trans (r.isAlive_spawn id j hid)
    have hget := h.get?
    simp only [get?_spawn] at hget
    rw [r.spawn_of_not_mem id hid (by simpa using hl)] at hlife hget ⊢
    rw [if_neg hl]
    exact ⟨hlife, hget⟩

theorem Tidy.revive (hput : ∀ {w : World}, w.isAlive id = true → w.Touches (put w) id f)
    (h : r.Tidy) : (r.revive id put).Tidy := by
  have hborn := h.spawn id
  unfold World.revive
  split
  · rename_i hl
    exact (hput hl).tidy hl h
  · split <;> rename_i hs <;> rw [hs] at hborn
    · have hl := isAlive_of_spawn hs
      exact (hput hl).tidy hl hborn
    · exact hborn

end

end World

/-! ## The parts of a state -/

namespace EntityState

variable {r : World} {id : EntityId}

def overPosition (position : Vec2) (t : Option Transform) : Option Transform :=
  some ⟨position, (t.map (·.rotation)).getD .zero⟩

def overVelocity (velocity : Vec2) (v : Option Vec2) : Option Vec2 :=
  if velocity.sameValue .zero then v else some velocity

def overHealth (health : Int16) (h : Option Health) : Option Health :=
  h.map fun h => { h with current := health }

def overInvincibility (invincible : Bool) (t : Option Binary32) : Option Binary32 :=
  if invincible then some (t.getD restoredInvincibility) else none

theorem touches_restorePosition (h : r.isAlive id = true) (position : Vec2) :
    r.Touches (restorePosition r id position) id (only .transform (overPosition position)) := by
  unfold restorePosition
  split_ifs with hhas
  · refine (r.touches_modify .transform id _).of_eq fun k => ?_
    obtain ⟨t, ht⟩ := Option.isSome_iff_exists.1 hhas
    cases k <;> simp [only, overPosition, ht]
  · refine (World.touches_attach .transform _ h).of_eq fun k => ?_
    have hnone : r.get? .transform id = none := by simpa [World.has] using hhas
    cases k <;> simp [only, overPosition, hnone, Transform.placed]

theorem touches_restoreVelocity (h : r.isAlive id = true) (velocity : Vec2) :
    r.Touches (restoreVelocity r id velocity) id (only .velocity (overVelocity velocity)) := by
  unfold restoreVelocity
  split_ifs with hzero hhas
  · refine (r.touches_self .velocity id).of_eq fun k => ?_
    cases k <;> simp [only, overVelocity, hzero]
  · refine (r.touches_modify .velocity id _).of_eq fun k => ?_
    obtain ⟨v, hv⟩ := Option.isSome_iff_exists.1 hhas
    cases k <;> simp [only, overVelocity, hzero, hv]
  · refine (World.touches_attach .velocity _ h).of_eq fun k => ?_
    cases k <;> simp [only, overVelocity, hzero]

theorem touches_restoreHealth (r : World) (id : EntityId) (health : Int16) :
    r.Touches (restoreHealth r id health) id (only .health (overHealth health)) :=
  r.touches_modify .health id _

theorem touches_restoreInvincibility (h : r.isAlive id = true) (invincible : Bool) :
    r.Touches (restoreInvincibility r id invincible) id
      (only .invincibility (overInvincibility invincible)) := by
  unfold restoreInvincibility
  cases hhas : r.get? .invincibility id <;> cases invincible
  all_goals simp only [World.has, hhas]
  · refine (r.touches_self .invincibility id).of_eq fun k => ?_
    cases k <;> simp [only, overInvincibility, hhas]
  · refine (World.touches_attach .invincibility _ h).of_eq fun k => ?_
    cases k <;> simp [only, overInvincibility, hhas]
  · exact r.touches_detach .invincibility id
  · refine (r.touches_self .invincibility id).of_eq fun k => ?_
    cases k <;> simp [only, overInvincibility, hhas]

end EntityState

/-! ## Whole states -/

namespace FullState

/-- The view that components amount to. -/
def read (had : (k : Kind) → Option k.Value) : Option FullState :=
  (had .transform).map fun t =>
    { position := t.position
      velocity := (had .velocity).getD .zero
      health := match had .health with
        | some h => h.current
        | none => 0
      lives := (had .lives).getD 0
      score := (had .score).getD 0
      status := if (had .invincibility).isSome then invincibleBit else 0
      typeId := (had .render).getD 0 }

/-- The component that stands after the view has been written over one. -/
def overlay (s : FullState) : (k : Kind) → Option k.Value → Option k.Value
  | .transform => EntityState.overPosition s.position
  | .velocity => EntityState.overVelocity s.velocity
  | .health => EntityState.overHealth s.health
  | .lives => Option.map fun _ => s.lives
  | .score => Option.map fun _ => s.score
  | .invincibility => EntityState.overInvincibility s.isInvincible
  | .render | .controller | .history => fun v => v

/-- **Writing the view back** changes the entity's components one by one. -/
theorem touches (s : FullState) {r : World} {id : EntityId} (h : r.isAlive id = true) :
    r.Touches (s.restore r id) id s.overlay := by
  have h1 := EntityState.touches_restorePosition h s.position
  have h2 := EntityState.touches_restoreVelocity ((h1.alive id).trans h) s.velocity
  have h3 := EntityState.touches_restoreHealth
    (EntityState.restoreVelocity (EntityState.restorePosition r id s.position) id s.velocity)
    id s.health
  have h4 := h1.trans (h2.trans h3)
  have h5 := h4.trans (World.touches_modify _ .lives id fun _ => s.lives)
  have h6 := h5.trans (World.touches_modify _ .score id fun _ => s.score)
  refine (h6.trans (EntityState.touches_restoreInvincibility
    ((h6.alive id).trans h) s.isInvincible)).of_eq fun k => ?_
  cases k <;> rfl

end FullState

namespace CoreState

/-- The view that components amount to. -/
def read (had : (k : Kind) → Option k.Value) : Option CoreState :=
  (had .transform).map fun t =>
    { position := t.position
      velocity := (had .velocity).getD .zero
      health := match had .health with
        | some h => h.current
        | none => 0 }

/-- The component that stands after the view has been written over one. -/
def overlay (s : CoreState) : (k : Kind) → Option k.Value → Option k.Value
  | .transform => EntityState.overPosition s.position
  | .velocity => EntityState.overVelocity s.velocity
  | .health => EntityState.overHealth s.health
  | .lives | .score | .invincibility | .render | .controller | .history => fun v => v

theorem touches (s : CoreState) {r : World} {id : EntityId} (h : r.isAlive id = true) :
    r.Touches (s.restore r id) id s.overlay := by
  have h1 := EntityState.touches_restorePosition h s.position
  have h2 := EntityState.touches_restoreVelocity ((h1.alive id).trans h) s.velocity
  refine ((h1.trans h2).trans (EntityState.touches_restoreHealth _ id s.health)).of_eq fun k => ?_
  cases k <;> rfl

end CoreState

/-- A type of states that are read off the components and written over them, kind
    by kind. -/
class Rewindable (σ : Type) [EntityState σ] where
  read : ((k : Kind) → Option k.Value) → Option σ
  overlay : σ → (k : Kind) → Option k.Value → Option k.Value
  capture_eq : ∀ (r : World) (id : EntityId),
    EntityState.capture (σ := σ) r id = read fun k => r.get? k id
  touches : ∀ (s : σ) {r : World} {id : EntityId}, r.isAlive id = true →
    r.Touches (EntityState.restore s r id) id (overlay s)
  isInitialized : ∀ {had : (k : Kind) → Option k.Value} {s : σ}, read had = some s →
    EntityState.isInitialized s = true
  read_bare : ∀ {had : (k : Kind) → Option k.Value}, had .transform = none → read had = none

instance : Rewindable FullState where
  read := FullState.read
  overlay := FullState.overlay
  capture_eq _ _ := rfl
  touches s _ _ h := s.touches h
  isInitialized h := by
    obtain ⟨t, -, rfl⟩ := Option.map_eq_some_iff.1 h
    rfl
  read_bare h := by rw [FullState.read, h, Option.map_none]

instance : Rewindable CoreState where
  read := CoreState.read
  overlay := CoreState.overlay
  capture_eq _ _ := rfl
  touches s _ _ h := s.touches h
  isInitialized h := by
    obtain ⟨t, -, rfl⟩ := Option.map_eq_some_iff.1 h
    rfl
  read_bare h := by rw [CoreState.read, h, Option.map_none]

/-! ## Worlds -/

namespace EntityMap

variable {σ : Type} [EntityState σ]

/-- Every state can be written back. -/
def Restorable (m : EntityMap σ) : Prop :=
  ∀ id s, m.get? id = some s → EntityState.isInitialized s = true ∧ id ≠ EntityId.invalid

end EntityMap

namespace World

variable {σ : Type}

/-- The entities with a transform that are not stored. -/
def strangers (r : World) (m : EntityMap σ) : List EntityId :=
  (r.entitiesWith .transform).filter fun id => !m.contains id

theorem mem_strangers {r : World} {m : EntityMap σ} {id : EntityId} :
    id ∈ r.strangers m ↔
      (r.isAlive id = true ∧ r.has .transform id = true) ∧ m.contains id = false := by
  rw [strangers, List.mem_filter, mem_entitiesWith, Bool.not_eq_true']

variable [EntityState σ]

theorem get?_states (r : World) (id : EntityId) :
    (r.states : EntityMap σ).get? id =
      if r.isAlive id then EntityState.capture r id else none := by
  rw [states, EntityMap.get?_filterMap, isAlive, EntityMap.contains]
  cases r.alive.get? id <;> rfl

theorem restoreOne_eq (r : World) (id : EntityId) {s : σ}
    (hs : EntityState.isInitialized s = true) :
    r.restoreOne id s = r.revive id fun r => EntityState.restore s r id := by
  unfold restoreOne
  rw [hs]
  rfl

variable [Rewindable σ]

open Rewindable (overlay read)

/-- Writing back the states of an ascending list. -/
theorem foldl_restoreOne {l : List (EntityId × σ)} (hasc : l.Pairwise fun p q => p.1 < q.1)
    (hl : ∀ p ∈ l, EntityState.isInitialized p.2 = true ∧ p.1 ≠ EntityId.invalid) (r : World) :
    (∀ j, (l.foldl (fun r p => r.restoreOne p.1 p.2) r).isAlive j =
      ((l.lookup j).isSome || r.isAlive j)) ∧
    ∀ k j, (l.foldl (fun r p => r.restoreOne p.1 p.2) r).get? k j =
      match l.lookup j with
      | some s => overlay s k (r.get? k j)
      | none => r.get? k j := by
  induction l generalizing r with
  | nil => simp
  | cons p rest ih =>
    obtain ⟨hlt, hrest⟩ := List.pairwise_cons.1 hasc
    obtain ⟨hinit, hid⟩ := hl p List.mem_cons_self
    obtain ⟨h1, h2⟩ := revive_spec (Rewindable.touches p.2) hid r
    rw [← r.restoreOne_eq p.1 hinit] at h1 h2
    obtain ⟨h3, h4⟩ := ih hrest (fun q hq => hl q (List.mem_cons_of_mem _ hq))
      (r.restoreOne p.1 p.2)
    have hnone : rest.lookup p.1 = none := EntityMap.lookup_eq_none_of_lt hlt
    constructor
    · intro j
      rw [List.foldl_cons, h3, h1, EntityMap.lookup_cons_eq]
      by_cases hj : j = p.1 <;> simp [hj]
    · intro k j
      rw [List.foldl_cons, h4, h2, EntityMap.lookup_cons_eq]
      by_cases hj : j = p.1
      · subst hj
        simp [hnone]
      · simp [hj]

variable {m : EntityMap σ}

theorem restoreAll_spec (r : World) (hm : m.Restorable) :
    (∀ j, (r.restoreAll m).isAlive j =
      (m.contains j || (r.isAlive j && !r.has .transform j))) ∧
    ∀ k j, (r.restoreAll m).isAlive j = true → (r.restoreAll m).get? k j =
      match m.get? j with
      | some s => overlay s k (r.get? k j)
      | none => r.get? k j := by
  have hmem : ∀ p ∈ m.entries, EntityState.isInitialized p.2 = true ∧ p.1 ≠ EntityId.invalid :=
    fun p hp => hm p.1 p.2 (EntityMap.mem_entries.1 hp)
  obtain ⟨hlife, hvalue⟩ := foldl_restoreOne m.ascending hmem
    ((r.strangers m).foldl (fun r id => (r.destroy id).2) r)
  have halive : ∀ j, (r.restoreAll m).isAlive j =
      (m.contains j || (r.isAlive j && !r.has .transform j)) := by
    intro j
    refine (hlife j).trans ?_
    have hlookup : (m.entries.lookup j).isSome = m.contains j := rfl
    rw [isAlive_foldl_destroy, hlookup]
    simp only [mem_strangers]
    cases m.contains j <;> cases r.isAlive j <;> cases r.has .transform j <;> rfl
  refine ⟨halive, fun k j hl => (hvalue k j).trans ?_⟩
  -- what lives now is stored or had no transform, so it was not destroyed
  have hkept : j ∉ r.strangers m := by
    rw [mem_strangers]
    rintro ⟨⟨h1, h2⟩, h3⟩
    rw [halive, h1, h2, h3] at hl
    cases hl
  rw [get?_foldl_destroy r k j hkept]
  rfl

theorem Tidy.foldl_restoreOne {l : List (EntityId × σ)}
    (hl : ∀ p ∈ l, EntityState.isInitialized p.2 = true) {r : World} (h : r.Tidy) :
    (l.foldl (fun r p => r.restoreOne p.1 p.2) r).Tidy := by
  induction l generalizing r with
  | nil => exact h
  | cons p rest ih =>
    refine ih (fun q hq => hl q (List.mem_cons_of_mem _ hq)) ?_
    show (r.restoreOne p.1 p.2).Tidy
    rw [r.restoreOne_eq p.1 (hl p List.mem_cons_self)]
    exact h.revive (Rewindable.touches p.2)

theorem Tidy.restoreAll {r : World} (h : r.Tidy) (hm : m.Restorable) : (r.restoreAll m).Tidy :=
  (h.foldl_destroy (r.strangers m)).foldl_restoreOne
    fun p hp => (hm p.1 p.2 (EntityMap.mem_entries.1 hp)).1

theorem restorable_states {r : World} (h : r.isAlive EntityId.invalid = false) :
    (r.states : EntityMap σ).Restorable := by
  intro id s hs
  rw [get?_states] at hs
  split_ifs at hs with hl
  rw [Rewindable.capture_eq] at hs
  refine ⟨Rewindable.isInitialized hs, ?_⟩
  rintro rfl
  rw [h] at hl
  cases hl

/-- **What is captured of a restored world**: each stored entity as its state,
    written over what it had before, reads, and no other entity. -/
theorem get?_states_restoreAll (r : World) (hm : m.Restorable) (id : EntityId) :
    ((r.restoreAll m).states : EntityMap σ).get? id =
      (m.get? id).bind fun s => read fun k => overlay s k (r.get? k id) := by
  obtain ⟨halive, hget⟩ := r.restoreAll_spec hm
  have hget' := fun k => hget k id
  rw [get?_states, Rewindable.capture_eq]
  rw [halive] at hget' ⊢
  rw [EntityMap.contains] at hget' ⊢
  cases hid : m.get? id with
  | some s =>
    rw [hid] at hget'
    simp only [Option.isSome_some, Bool.true_or, if_true, Option.bind_some]
    exact congrArg read (funext fun k => hget' k rfl)
  | none =>
    rw [hid] at hget'
    rw [Option.isSome_none, Bool.false_or, Option.bind_none]
    split_ifs with hl
    · -- it lives on because it has no transform, so nothing is captured of it
      refine Rewindable.read_bare ?_
      rw [hget' .transform hl]
      simpa [has] using (Bool.and_eq_true_iff.1 hl).2
    · rfl

end World

end Netplay
