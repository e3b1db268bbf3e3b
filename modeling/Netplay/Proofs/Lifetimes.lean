/-
  Worlds as they come about: nothing lives at first, and every change is one of
  the operations on worlds.

  * `World.Op`, `World.perform`, `World.made`;
  * `World.Tidy`: only the living carry anything, and nobody has the invalid id;
  * `World.tidy_made`: it is so in every world that can come about.
-/
import Netplay.Proofs.Worlds

namespace Netplay

open Component (Kind)

namespace World

inductive Op where
  | create
  | spawn (id : EntityId)
  | destroy (id : EntityId)
  | attach (k : Kind) (id : EntityId) (v : k.Value)
  | modify (k : Kind) (id : EntityId) (f : k.Value → k.Value)
  | detach (k : Kind) (id : EntityId)

def perform (r : World) : Op → World
  | .create => (r.create?.map (·.2)).getD r
  | .spawn id => (r.spawn id).2
  | .destroy id => (r.destroy id).2
  | .attach k id v => r.attach k id v
  | .modify k id f => r.modify k id f
  | .detach k id => r.detach k id

def performAll (r : World) (ops : List Op) : World := ops.foldl perform r

/-- The world that operations make of the empty one. -/
def made (ops : List Op) : World := World.empty.performAll ops

/-- Only the living carry anything, and nobody has the invalid id. -/
structure Tidy (r : World) : Prop where
  invalid : r.isAlive EntityId.invalid = false
  bare : ∀ id, r.isAlive id = false → ∀ k, r.get? k id = none

theorem tidy_empty : World.empty.Tidy := ⟨rfl, by simp⟩

variable {r : World}

/-- Whoever comes to life does so with nothing. -/
theorem Tidy.born (h : r.Tidy) {w : World} {id : EntityId} (hid : id ≠ EntityId.invalid)
    (hlife : ∀ j, w.isAlive j = (decide (j = id) || r.isAlive j))
    (hget : ∀ k j, w.get? k j = r.get? k j) : w.Tidy := by
  constructor
  · simp [hlife, h.invalid, hid.symm]
  · intro j hj k
    simp only [hlife, Bool.or_eq_false_iff] at hj
    rw [hget, h.bare j hj.2]

theorem Tidy.spawn (h : r.Tidy) (id : EntityId) : (r.spawn id).2.Tidy := by
  by_cases hid : id = EntityId.invalid
  · rw [World.spawn, if_pos (Or.inl hid)]
    exact h
  · exact h.born hid (fun j => r.isAlive_spawn id j hid) (by simp)

theorem Tidy.destroy (h : r.Tidy) (id : EntityId) : (r.destroy id).2.Tidy := by
  constructor
  · simp [h.invalid]
  · intro j hj k
    by_cases hl : r.isAlive id = true
    · rw [get?_destroy r k id j hl]
      split_ifs with hji
      · rfl
      · apply h.bare
        simpa [hji] using hj
    · rw [World.destroy, if_neg hl] at hj ⊢
      exact h.bare j hj k

theorem Tidy.foldl_destroy (h : r.Tidy) (ids : List EntityId) :
    (ids.foldl (fun r id => (r.destroy id).2) r).Tidy := by
  induction ids generalizing r with
  | nil => exact h
  | cons id rest ih => exact ih (h.destroy id)

theorem Tidy.attach (h : r.Tidy) (k : Kind) (id : EntityId) (v : k.Value) :
    (r.attach k id v).Tidy := by
  by_cases hl : r.isAlive id = true
  · constructor
    · simp [h.invalid]
    · intro j hj k'
      rw [isAlive_attach] at hj
      by_cases hk : k' = k
      · subst hk
        have hne : j ≠ id := by
          rintro rfl
          rw [hl] at hj
          cases hj
        rw [get?_attach r _ id j v hl, if_neg hne]
        exact h.bare j hj _
      · rw [get?_attach_of_ne r id j hk]
        exact h.bare j hj k'
  · rw [World.attach, if_neg hl]
    exact h

theorem Tidy.modify (h : r.Tidy) (k : Kind) (id : EntityId) (f : k.Value → k.Value) :
    (r.modify k id f).Tidy := by
  constructor
  · simp [h.invalid]
  · intro j hj k'
    rw [isAlive_modify] at hj
    by_cases hk : k' = k
    · subst hk
      rw [get?_modify]
      split_ifs with hji
      · subst hji
        simp [h.bare j hj]
      · exact h.bare j hj _
    · rw [get?_modify_of_ne r id j hk]
      exact h.bare j hj k'

theorem Tidy.detach (h : r.Tidy) (k : Kind) (id : EntityId) : (r.detach k id).Tidy := by
  constructor
  · simp [h.invalid]
  · intro j hj k'
    rw [isAlive_detach] at hj
    by_cases hk : k' = k
    · subst hk
      simp [h.bare j hj]
    · rw [get?_detach_of_ne r id j hk]
      exact h.bare j hj k'

theorem Tidy.perform (h : r.Tidy) (op : Op) : (r.perform op).Tidy := by
  cases op with
  | create =>
    unfold World.perform
    cases hc : r.create? with
    | none => exact h
    | some c =>
      obtain ⟨id, w⟩ := c
      obtain ⟨-, hid, hlife, hget⟩ := create?_spec hc
      exact h.born hid hlife hget
  | spawn id => exact h.spawn id
  | destroy id => exact h.destroy id
  | attach k id v => exact h.attach k id v
  | modify k id f => exact h.modify k id f
  | detach k id => exact h.detach k id

theorem Tidy.performAll (h : r.Tidy) (ops : List Op) : (r.performAll ops).Tidy := by
  induction ops generalizing r with
  | nil => exact h
  | cons op rest ih => exact ih (h.perform op)

theorem tidy_made (ops : List Op) : (made ops).Tidy := tidy_empty.performAll ops

end World

end Netplay
