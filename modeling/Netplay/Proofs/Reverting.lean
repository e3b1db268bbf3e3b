/-
  Going back, component by component.

  Of the entities that are stored, each kind of component has its own rule; those
  that are not stored are sent away if they can be seen and left alone if not.
  What has been written back is what writing back leaves as it is, so going back
  once more does nothing, and that to the last counter of the world.

  * `FullState.WrittenOver`: what each component of a stored entity is now;
  * `World.TakenBack`: which entities live, and what they carry;
  * `FullState.restore_eq_self`, `World.restoreAll_eq_self`: where writing back
    changes nothing;
  * `Timeline.rewind_exactly`: all that going back does.
-/
import Netplay.Proofs.Rewinding

namespace Netplay

open Component (Kind)

/-! ## Where a change changes nothing -/

namespace World

variable {r : World} {id : EntityId}

theorem withStore_store (r : World) (k : Kind) : r.withStore k (r.store k) = r := by
  cases k <;> rfl

theorem modify_eq_self {k : Kind} {f : k.Value → k.Value}
    (h : (r.get? k id).map f = r.get? k id) : r.modify k id f = r := by
  unfold modify
  split
  · rename_i v hv
    rw [hv, Option.map_some, Option.some.injEq] at h
    have hsame : (r.store k).insert id v = r.store k := by
      apply EntityMap.ext_get?
      intro j
      rw [EntityMap.get?_insert]
      split_ifs with hj
      · rw [hj]
        exact hv.symm
      · rfl
    rw [h, hsame, withStore_store]
  · rfl

end World

namespace EntityState

variable {r : World} {id : EntityId}

theorem restorePosition_eq_self {position : Vec2}
    (h : overPosition position (r.get? .transform id) = r.get? .transform id) :
    restorePosition r id position = r := by
  have hhas : r.has .transform id = true := by
    rw [World.has, ← h]
    rfl
  unfold restorePosition
  rw [if_pos hhas]
  apply World.modify_eq_self
  obtain ⟨t, ht⟩ := Option.isSome_iff_exists.1 hhas
  rw [ht] at h ⊢
  exact h

theorem restoreVelocity_eq_self {velocity : Vec2}
    (h : overVelocity velocity (r.get? .velocity id) = r.get? .velocity id) :
    restoreVelocity r id velocity = r := by
  unfold restoreVelocity
  unfold overVelocity at h
  split_ifs at h ⊢ with hzero hhas
  · rfl
  · apply World.modify_eq_self
    rw [← h, Option.map_some]
  · rw [World.has, ← h] at hhas
    exact absurd rfl hhas

theorem restoreInvincibility_eq_self {invincible : Bool}
    (h : overInvincibility invincible (r.get? .invincibility id) = r.get? .invincibility id) :
    restoreInvincibility r id invincible = r := by
  have hhas : r.has .invincibility id = invincible := by
    rw [World.has, ← h, overInvincibility]
    cases invincible <;> rfl
  unfold restoreInvincibility
  rw [hhas]
  cases invincible <;> rfl

end EntityState

/-! ## One entity -/

namespace FullState

/-- What the components of an entity are after the view has been written over
    what it had. -/
structure WrittenOver (s : FullState) (r r' : World) (id : EntityId) : Prop where
  /-- It faces the way it did. -/
  transform : r'.get? .transform id =
    some ⟨s.position, ((r.get? .transform id).map (·.rotation)).getD .zero⟩
  velocity : r'.get? .velocity id =
    if s.velocity.sameValue .zero then r.get? .velocity id else some s.velocity
  health : r'.get? .health id = (r.get? .health id).map fun h => { h with current := s.health }
  lives : r'.get? .lives id = (r.get? .lives id).map fun _ => s.lives
  score : r'.get? .score id = (r.get? .score id).map fun _ => s.score
  /-- Seconds that are left are kept. -/
  invincibility : r'.get? .invincibility id =
    if s.isInvincible then some ((r.get? .invincibility id).getD .two) else none
  render : r'.get? .render id = r.get? .render id
  controller : r'.get? .controller id = r.get? .controller id
  history : r'.get? .history id = r.get? .history id

theorem writtenOver_of_overlay {s : FullState} {r r' : World} {id : EntityId}
    (h : ∀ k, r'.get? k id = s.overlay k (r.get? k id)) : s.WrittenOver r r' id :=
  ⟨h _, h _, h _, h _, h _, h _, h _, h _, h _⟩

/-- What was written over twice was written over once. -/
theorem overlay_overlay (s : FullState) (k : Kind) (v : Option k.Value) :
    s.overlay k (s.overlay k v) = s.overlay k v := by
  cases k
  case velocity =>
    unfold overlay EntityState.overVelocity
    split_ifs <;> rfl
  case invincibility =>
    unfold overlay EntityState.overInvincibility
    split_ifs <;> rfl
  all_goals cases v <;> rfl

/-- **Writing back what is there changes nothing.** -/
theorem restore_eq_self {s : FullState} {r : World} {id : EntityId}
    (h : ∀ k, s.overlay k (r.get? k id) = r.get? k id) : s.restore r id = r := by
  have hhealth : EntityState.restoreHealth r id s.health = r := World.modify_eq_self (h .health)
  have hlives : (r.modify .lives id fun _ => s.lives) = r := World.modify_eq_self (h .lives)
  have hscore : (r.modify .score id fun _ => s.score) = r := World.modify_eq_self (h .score)
  unfold restore
  dsimp only
  rw [EntityState.restorePosition_eq_self (h .transform),
    EntityState.restoreVelocity_eq_self (h .velocity), hhealth, hlives, hscore,
    EntityState.restoreInvincibility_eq_self (h .invincibility)]

end FullState

/-! ## The whole world -/

namespace World

variable {r r' : World}

/-- **A world where the stored entities are, and are as they are stored, stays as
    it is.** -/
theorem restoreAll_eq_self {σ : Type} [EntityState σ] {m : EntityMap σ}
    (hstrangers : r.strangers m = [])
    (hthere : ∀ p ∈ m.entries, r.isAlive p.1 = true ∧ EntityState.restore p.2 r p.1 = r) :
    r.restoreAll m = r := by
  have hstay : ∀ l : List (EntityId × σ),
      (∀ p ∈ l, r.isAlive p.1 = true ∧ EntityState.restore p.2 r p.1 = r) →
      l.foldl (fun r p => r.restoreOne p.1 p.2) r = r := by
    intro l hl
    induction l with
    | nil => rfl
    | cons p rest ih =>
      obtain ⟨⟨hlive, hsame⟩, hrest⟩ := List.forall_mem_cons.1 hl
      have hone : r.restoreOne p.1 p.2 = r := by
        unfold restoreOne
        rw [if_pos hlive, hsame, ite_self]
      rw [List.foldl_cons, hone, ih hrest]
  have hall : r.restoreAll m =
      m.entries.foldl (fun r p => r.restoreOne p.1 p.2)
        ((r.strangers m).foldl (fun r id => (r.destroy id).2) r) := rfl
  rw [hall, hstrangers, List.foldl_nil]
  exact hstay m.entries hthere

/-- From one world to the next, the entities that can be seen have become those
    that are stored. -/
structure TakenBack (stored : EntityMap FullState) (r r' : World) : Prop where
  seen : ∀ id, (r'.isAlive id = true ∧ r'.has .transform id = true) ↔ stored.contains id = true
  written : ∀ id s, stored.get? id = some s → s.WrittenOver r r' id
  /-- Of the others, those live on that could not be seen. -/
  others : ∀ id, stored.get? id = none →
    (r'.isAlive id = true ↔ r.isAlive id = true ∧ r.has .transform id = false)
  untouched : ∀ id, stored.get? id = none → r'.isAlive id = true →
    ∀ k, r'.get? k id = r.get? k id

variable {m : EntityMap FullState}

theorem takenBack_restoreAll (r : World) (hm : m.Restorable) :
    TakenBack m r (r.restoreAll m) := by
  obtain ⟨halive, hget⟩ := r.restoreAll_spec hm
  have hstored : ∀ id s, m.get? id = some s → (r.restoreAll m).isAlive id = true ∧
      ∀ k, (r.restoreAll m).get? k id = s.overlay k (r.get? k id) := by
    intro id s hs
    have hlive : (r.restoreAll m).isAlive id = true := by
      rw [halive, EntityMap.contains, hs]
      rfl
    refine ⟨hlive, fun k => ?_⟩
    rw [hget k id hlive, hs]
    rfl
  have hothers : ∀ id, m.get? id = none → ((r.restoreAll m).isAlive id = true ↔
      r.isAlive id = true ∧ r.has .transform id = false) := by
    intro id hid
    rw [halive, EntityMap.contains, hid]
    simp
  have huntouched : ∀ id, m.get? id = none → (r.restoreAll m).isAlive id = true →
      ∀ k, (r.restoreAll m).get? k id = r.get? k id := by
    intro id hid hlive k
    rw [hget k id hlive, hid]
  refine ⟨fun id => ?_, fun id s hs => ?_, hothers, huntouched⟩
  · cases hid : m.get? id with
    | some s =>
      obtain ⟨hlive, hover⟩ := hstored id s hid
      have hhas : (r.restoreAll m).has .transform id = true := by
        rw [has, hover]
        rfl
      simp [EntityMap.contains, hid, hlive, hhas]
    | none =>
      -- it lives on only without a transform, and gets none
      simp only [EntityMap.contains, hid, Option.isSome_none, Bool.false_eq_true, iff_false]
      rintro ⟨hlive, hhas⟩
      rw [has, huntouched id hid hlive] at hhas
      have hbare := ((hothers id hid).1 hlive).2
      rw [has, hhas] at hbare
      cases hbare
  · exact FullState.writtenOver_of_overlay (hstored id s hs).2

/-- **Going back once more does nothing.** -/
theorem restoreAll_restoreAll (r : World) (hm : m.Restorable) :
    (r.restoreAll m).restoreAll m = r.restoreAll m := by
  obtain ⟨halive, hget⟩ := r.restoreAll_spec hm
  apply restoreAll_eq_self
  · apply List.eq_nil_iff_forall_not_mem.2
    intro id hid
    obtain ⟨hseen, hnot⟩ := mem_strangers.1 hid
    rw [((r.takenBack_restoreAll hm).seen id).1 hseen] at hnot
    cases hnot
  · rintro ⟨id, s⟩ hp
    have hs : m.get? id = some s := EntityMap.mem_entries.1 hp
    have hlive : (r.restoreAll m).isAlive id = true := by
      rw [halive, EntityMap.contains, hs]
      rfl
    refine ⟨hlive, FullState.restore_eq_self fun k => ?_⟩
    rw [hget k id hlive, hs]
    exact s.overlay_overlay k _

end World

/-- **All that going back does.**  To a tick of which no world is held it is
    refused, and the world stays as it is.  To any other it leads from any world to
    one where the entities with a transform are those stored, every component is
    what its rule says, and all that is not stored and has no transform is
    untouched; and going back to the same tick again leaves that world as it is. -/
theorem Timeline.rewind_exactly (capacity : ℕ) (deeds : List Deed) (n : Tick) (r : World) :
    let h : Timeline FullState := kept capacity deeds
    match h.find? n with
    | none => (∀ w ∈ h.recent, w.tick ≠ n) ∧ h.rewind n r = (false, r)
    | some w => w ∈ h.recent ∧ w.tick = n ∧ ∃ r', h.rewind n r = (true, r') ∧
        World.TakenBack w.entities r r' ∧ h.rewind n r' = (true, r') := by
  intro h
  split
  · rename_i hnone
    constructor
    · intro w hw htick
      rw [find?_eq, List.find?_eq_none] at hnone
      exact hnone w hw (beq_iff_eq.2 htick)
    · rw [rewind, hnone]
  · rename_i w hw
    obtain ⟨hmem, htick⟩ := mem_of_find? hw
    obtain ⟨r₀, hr₀, hcaptured⟩ := (faithful_kept capacity deeds).find? hw
    have hm : w.entities.Restorable := by
      rw [hcaptured]
      exact World.restorable_states hr₀.invalid
    refine ⟨hmem, htick, _, rewind_of_find? hw r, r.takenBack_restoreAll hm, ?_⟩
    rw [rewind_of_find? hw, r.restoreAll_restoreAll hm]

namespace Timeline

/-- One of those that met is hurt, has turned and set off, the other is gone, a third has come,
    and so has a fourth that cannot be seen. -/
def parted : List World.Op :=
  met ++ [.attach .transform 1 ⟨⟨.two, .two⟩, .one⟩, .attach .velocity 1 ⟨.one, .two⟩,
    .attach .health 1 ⟨3, 100⟩, .destroy 2, .create, .attach .transform 3 (.placed .zero),
    .create, .attach .health 4 (.full 7)]

theorem rewind_exactly_parted :
    let h : Timeline FullState := kept 60 [.capture 1 met]
    let r := World.made parted
    ∃ w r', h.find? 1 = some w ∧ h.rewind 1 r = (true, r') ∧
      World.TakenBack w.entities r r' ∧ h.rewind 1 r' = (true, r') ∧
      r.entities = [1, 3, 4] ∧ r'.entities = [1, 2, 4] ∧
      r'.get? .transform 1 = some ⟨.zero, .one⟩ ∧ r'.get? .velocity 1 = some ⟨.one, .two⟩ ∧
      r'.get? .health 1 = some (.full 100) ∧ r'.get? .render 2 = none ∧
      r'.get? .health 4 = some (.full 7) := by
  intro h r
  have hw : (kept 60 [.capture 1 met]).find? 1 = some (captured FullState 1 (World.made met)) :=
    find?_add _ _
  have hall := rewind_exactly 60 [.capture 1 met] 1 r
  dsimp only at hall
  rw [hw] at hall
  obtain ⟨-, -, r', hr, htaken, hagain⟩ := hall
  obtain rfl : r.restoreAll (captured FullState 1 (World.made met)).entities = r' :=
    (Prod.mk.inj ((rewind_of_find? hw r).symm.trans hr)).2
  exact ⟨_, _, hw, hr, htaken, hagain, by decide +kernel⟩

end Timeline

end Netplay
