/-
  Going back to a recorded world.

  A timeline records worlds as they come about, and a world that is taken back
  may have come about in any other way since.  Going back brings the stored
  entities back and sends away the others that can be seen; of a stored entity
  its place and its status are as they were.  The rest is written back onto
  components that are there: an entity that died or lost its health comes back
  without it, one that was at rest keeps the velocity that it has now, and looks
  are not written at all.

  * `Timeline.kept`: timelines of all that can be done to them;
  * `Timeline.Faithful`: what is held was captured of a world;
  * `Timeline.rewind_made`: going back is a run of operations on the world;
  * `Timeline.rewind_restores`: what is captured after going back.
-/
import Mathlib.Data.Nat.Notation
import Mathlib.Tactic.Common
import Netplay.Proofs.Lifetimes
import Netplay.Proofs.Restoring
import Netplay.Proofs.Rings

namespace Netplay

open Component (Kind)

/-! ## Timelines of captured worlds -/

namespace Timeline

variable {σ : Type} [EntityState σ]

/-- What can be done to a timeline. -/
inductive Deed where
  /-- Record the world that operations make. -/
  | capture (n : Tick) (ops : List World.Op)
  | clear

def perform (h : Timeline σ) : Deed → Timeline σ
  | .capture n ops => (h.capture n (World.made ops)).2
  | .clear => h.clear

/-- The timeline that deeds make of an empty one. -/
def kept (capacity : ℕ) (deeds : List Deed) : Timeline σ :=
  deeds.foldl perform (ofCapacity capacity)

/-- Every world that is held was captured of one where only the living carry
    anything. -/
def Faithful (h : Timeline σ) : Prop :=
  ∀ w ∈ h.recent, ∃ r : World, r.Tidy ∧ w = captured σ w.tick r

variable {h : Timeline σ}

theorem faithful_ofCapacity (capacity : ℕ) : (ofCapacity capacity : Timeline σ).Faithful := by
  intro w hw
  cases hw

theorem Faithful.capture (hf : h.Faithful) (n : Tick) {r : World} (hr : r.Tidy) :
    (h.capture n r).2.Faithful := by
  intro w hw
  rw [capture_snd] at hw
  rcases mem_recent_add hw with rfl | hw
  · exact ⟨r, hr, rfl⟩
  · exact hf w hw

theorem faithful_clear (h : Timeline σ) : h.clear.Faithful := by
  intro w hw
  cases hw

theorem Faithful.perform (hf : h.Faithful) (d : Deed) : (h.perform d).Faithful := by
  cases d with
  | capture n ops => exact hf.capture n (World.tidy_made ops)
  | clear => exact h.faithful_clear

theorem Faithful.performAll (hf : h.Faithful) (deeds : List Deed) :
    (deeds.foldl Timeline.perform h).Faithful := by
  induction deeds generalizing h with
  | nil => exact hf
  | cons d rest ih => exact ih (hf.perform d)

theorem faithful_kept (capacity : ℕ) (deeds : List Deed) :
    (kept capacity deeds : Timeline σ).Faithful :=
  (faithful_ofCapacity capacity).performAll deeds

/-- What is found was captured. -/
theorem Faithful.find? (hf : h.Faithful) {n : Tick} {w : Recorded σ} (hw : h.find? n = some w) :
    ∃ r : World, r.Tidy ∧ w = captured σ n r := by
  obtain ⟨hmem, rfl⟩ := mem_of_find? hw
  exact hf w hmem

theorem rewind_of_find? {n : Tick} {w : Recorded σ} (hw : h.find? n = some w) (r : World) :
    h.rewind n r = (true, r.restoreAll w.entities) := by
  rw [rewind, hw]

theorem Faithful.get?_states_restoreAll [Rewindable σ] (hf : h.Faithful) {n : Tick}
    {w : Recorded σ} (hw : h.find? n = some w) (r : World) (id : EntityId) :
    ((r.restoreAll w.entities).states : EntityMap σ).get? id =
      (w.entities.get? id).bind fun s =>
        Rewindable.read fun k => Rewindable.overlay s k (r.get? k id) := by
  obtain ⟨r₀, hr, rfl⟩ := hf.find? hw
  exact r.get?_states_restoreAll (World.restorable_states hr.invalid) id

end Timeline

/-! ## Going back as a run of operations -/

namespace World

/-- Operations lead from one world to another. -/
def Leads (r r' : World) : Prop := ∃ ops, r' = r.performAll ops

theorem Leads.refl (r : World) : r.Leads r := ⟨[], rfl⟩

theorem Leads.trans {r r' r'' : World} (h : r.Leads r') (h' : r'.Leads r'') : r.Leads r'' := by
  obtain ⟨ops, rfl⟩ := h
  obtain ⟨ops', rfl⟩ := h'
  exact ⟨ops ++ ops', List.foldl_append.symm⟩

theorem leads_perform (r : World) (op : Op) : r.Leads (r.perform op) := ⟨[op], rfl⟩

theorem leads_foldl {α : Type} {f : World → α → World} (h : ∀ (r : World) (a : α), r.Leads (f r a))
    (r : World) (l : List α) : r.Leads (l.foldl f r) := by
  induction l generalizing r with
  | nil => exact Leads.refl r
  | cons a rest ih => exact (h r a).trans (ih (f r a))

theorem leads_restore (s : FullState) (r : World) (id : EntityId) : r.Leads (s.restore r id) := by
  have hposition : ∀ r : World, r.Leads (EntityState.restorePosition r id s.position) := by
    intro r
    unfold EntityState.restorePosition
    split_ifs
    · exact r.leads_perform (.modify .transform id _)
    · exact r.leads_perform (.attach .transform id _)
  have hvelocity : ∀ r : World, r.Leads (EntityState.restoreVelocity r id s.velocity) := by
    intro r
    unfold EntityState.restoreVelocity
    split_ifs
    · exact Leads.refl r
    · exact r.leads_perform (.modify .velocity id _)
    · exact r.leads_perform (.attach .velocity id _)
  have hstatus : ∀ r : World,
      r.Leads (EntityState.restoreInvincibility r id s.isInvincible) := by
    intro r
    unfold EntityState.restoreInvincibility
    split_ifs
    · exact r.leads_perform (.attach .invincibility id _)
    · exact r.leads_perform (.detach .invincibility id)
    · exact Leads.refl r
  have hmoved := (hposition r).trans (hvelocity _)
  have hhealth := hmoved.trans
    (leads_perform _ (.modify .health id fun h => { h with current := s.health }))
  have hlives := hhealth.trans (leads_perform _ (.modify .lives id fun _ => s.lives))
  exact (hlives.trans (leads_perform _ (.modify .score id fun _ => s.score))).trans (hstatus _)

theorem leads_restoreOne (r : World) (id : EntityId) (s : FullState) :
    r.Leads (r.restoreOne id s) := by
  unfold restoreOne
  split_ifs
  · exact Leads.refl r
  · exact leads_restore s r id
  · have hspawn : r.Leads (r.spawn id).2 := r.leads_perform (.spawn id)
    split <;> rename_i hs <;> rw [hs] at hspawn
    · exact hspawn.trans (leads_restore s _ id)
    · exact hspawn

end World

/-- Going back is itself a run of operations, so a world that was taken back may
    be recorded and taken back like any other. -/
theorem Timeline.rewind_made (h : Timeline FullState) (n : Tick) (ops : List World.Op) :
    ∃ ops', (h.rewind n (World.made ops)).2 = World.made ops' := by
  have hleads : (World.made ops).Leads (h.rewind n (World.made ops)).2 := by
    unfold rewind
    split
    · exact (World.leads_foldl (fun r id => r.leads_perform (.destroy id)) _ _).trans
        (World.leads_foldl (fun r (p : EntityId × FullState) => r.leads_restoreOne p.1 p.2) _ _)
    · exact World.Leads.refl _
  have hmade : World.empty.Leads (World.made ops) := ⟨ops, rfl⟩
  exact hmade.trans hleads

/-! ## What the server's view comes back as -/

namespace FullState

/-- What is captured of an entity after its view has been written back, by what
    the entity had before. -/
def readBack (s : FullState) (r : World) (id : EntityId) : FullState :=
  { s with
    velocity := if s.velocity.sameValue .zero then (r.get? .velocity id).getD .zero
      else s.velocity
    health := if r.has .health id then s.health else 0
    lives := if r.has .lives id then s.lives else 0
    score := if r.has .score id then s.score else 0
    typeId := (r.get? .render id).getD 0 }

theorem status_of_capture {r : World} {id : EntityId} {s : FullState}
    (h : capture r id = some s) :
    s.initialized = true ∧ (if s.isInvincible then invincibleBit else 0) = s.status := by
  obtain ⟨t, -, rfl⟩ := Option.map_eq_some_iff.1 h
  refine ⟨rfl, ?_⟩
  cases r.has .invincibility id <;> simp [isInvincible, invincibleBit]

theorem read_overlay {r₀ : World} {id : EntityId} {s : FullState} (h : capture r₀ id = some s)
    (r : World) : read (fun k => s.overlay k (r.get? k id)) = some (s.readBack r id) := by
  obtain ⟨hinit, hstatus⟩ := status_of_capture h
  simp only [read, overlay, EntityState.overPosition, Option.map_some, readBack, Option.some.injEq,
    FullState.mk.injEq, true_and]
  refine ⟨?_, ?_, ?_, ?_, ?_, hinit.symm⟩
  · unfold EntityState.overVelocity
    split_ifs <;> rfl
  · rw [World.has]
    cases r.get? .health id <;> rfl
  · rw [World.has]
    cases r.get? .lives id <;> rfl
  · rw [World.has]
    cases r.get? .score id <;> rfl
  · rw [← hstatus]
    unfold EntityState.overInvincibility
    by_cases hi : s.isInvincible = true <;> simp [hi]

end FullState

namespace Timeline

/-- **Going back.**  The stored entities are there again and no others can be
    seen; each is where it was and has the status that it had, the velocity
    unless that was zero, and the health, lives and score where it still had
    some.  Where that is all that was stored, the world that was recorded is
    captured again, and with it its digest. -/
theorem rewind_restores (capacity : ℕ) (deeds : List Deed) (ops : List World.Op) {n : Tick}
    {w : Recorded FullState} (hw : (kept capacity deeds).find? n = some w) :
    ∃ r, (kept capacity deeds : Timeline FullState).rewind n (World.made ops) = (true, r) ∧
      (∀ id, (r.states : EntityMap FullState).get? id =
        (w.entities.get? id).map fun s => s.readBack (World.made ops) id) ∧
      ((∀ id s, w.entities.get? id = some s → s.readBack (World.made ops) id = s) →
        r.states = w.entities ∧
          ∀ (h : Timeline FullState) (n' : Tick), (h.capture n' r).1 = w.checksum) := by
  have hf : (kept capacity deeds : Timeline FullState).Faithful := faithful_kept capacity deeds
  obtain ⟨r₀, -, hcaptured⟩ := hf.find? hw
  have hstates : ∀ id, (((World.made ops).restoreAll w.entities).states :
      EntityMap FullState).get? id =
        (w.entities.get? id).map fun s => s.readBack (World.made ops) id := by
    intro id
    rw [hf.get?_states_restoreAll hw]
    cases hs : w.entities.get? id with
    | none => rfl
    | some s =>
      rw [hcaptured] at hs
      change (r₀.states : EntityMap FullState).get? id = some s at hs
      rw [World.get?_states] at hs
      split_ifs at hs
      exact FullState.read_overlay hs (World.made ops)
  refine ⟨_, rewind_of_find? hw _, hstates, fun hsame => ?_⟩
  have heq : ((World.made ops).restoreAll w.entities).states = w.entities := by
    apply EntityMap.ext_get?
    intro id
    rw [hstates]
    cases hs : w.entities.get? id with
    | none => rfl
    | some s => rw [Option.map_some, hsame id s hs]
  refine ⟨heq, fun h n' => ?_⟩
  rw [hcaptured] at heq ⊢
  exact congrArg Digest.full heq

/-- Two entities: one with health, and one at rest that can be seen. -/
def met : List World.Op :=
  [.create, .attach .transform 1 (.placed .zero), .attach .health 1 (.full 100),
    .create, .attach .transform 2 (.placed .zero), .attach .render 2 4]

/-- Going back is not exact: a destroyed entity comes back without health, and
    one that has set off and looks different goes on and goes on looking so. -/
theorem rewind_not_exact :
    let h : Timeline FullState := kept 60 [.capture 1 met]
    let back := h.rewind 1 (World.made (met ++
      [.destroy 1, .attach .velocity 2 ⟨.two, .two⟩, .attach .render 2 5]))
    back.1 = true ∧
      (h.find? 1).map (·.entities.entries) ≠
        some (back.2.states : EntityMap FullState).entries ∧
      h.checksum? 1 ≠ some (h.capture 2 back.2).1 := by
  decide +kernel

/-- Being hurt and moved away is undone, and so are later arrivals. -/
theorem rewind_restores_hurt :
    ∃ r, (kept 60 [.capture 1 met] : Timeline FullState).rewind 1 (World.made (met ++
        [.attach .transform 1 (.placed ⟨.two, .two⟩), .attach .health 1 (.full 3), .create,
          .attach .transform 3 (.placed .zero)])) = (true, r) ∧
      (r.states : EntityMap FullState) = (World.made met).states := by
  have hw : (kept 60 [.capture 1 met]).find? 1 = some (captured FullState 1 (World.made met)) :=
    find?_add _ _
  obtain ⟨r, hr, -, hsame⟩ := rewind_restores 60 [.capture 1 met] (met ++
    [.attach .transform 1 (.placed ⟨.two, .two⟩), .attach .health 1 (.full 3), .create,
      .attach .transform 3 (.placed .zero)]) hw
  have hback : ∀ p ∈ ((World.made met).states : EntityMap FullState).entries,
      p.2.readBack (World.made (met ++ [.attach .transform 1 (.placed ⟨.two, .two⟩),
        .attach .health 1 (.full 3), .create, .attach .transform 3 (.placed .zero)])) p.1 = p.2 := by
    decide +kernel
  exact ⟨r, hr, (hsame fun id s hs => hback (id, s) (EntityMap.mem_entries.2 hs)).1⟩

end Timeline

end Netplay
