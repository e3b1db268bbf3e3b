/-
  Timelines as the list of the worlds that they hold, latest first.

  * `recent_add`: recording puts a world in front and drops none but the
    oldest;
  * `find?_add`: a world is found under its tick as soon as it is recorded;
  * `Holds`: a timeline holds the latest of all that was recorded; `Holds.add`:
    recording keeps it so;
  * `mem_of_critical?`: a digest that is answered is that of a world that is
    held.
-/
import Mathlib.Data.List.Basic
import Mathlib.Data.Nat.Notation
import Mathlib.Tactic.Common
import Netplay.Timeline.Rewind

namespace Netplay

namespace Timeline

variable {σ : Type}

/-- The worlds that are held, latest first. -/
def recent (h : Timeline σ) : List (Recorded σ) := (List.range h.size).filterMap h.ofAge?

theorem find?_eq (h : Timeline σ) (n : Tick) :
    h.find? n = h.recent.find? fun world => world.tick == n := rfl

theorem ofAge?_of_slot {h : Timeline σ} {age i : ℕ} (hi : i < h.slots.size)
    (hs : h.slotOfAge age = i) : h.ofAge? age = h.slots[i] := by
  subst hs
  rfl

theorem ofAge?_add_zero (h : Timeline σ) (w : Recorded σ) : (h.add w).ofAge? 0 = some w := by
  have hlt := h.head_lt
  have hcap : (h.add w).capacity = h.capacity := Array.size_set h.head_lt
  have hslot : (h.add w).slotOfAge 0 = h.head := by
    have hmod : (h.head + 1) % h.capacity + h.capacity - 1 - 0 =
        (h.head + 1) % h.capacity + (h.capacity - 1) := by
      have := h.capacity_pos
      omega
    rw [slotOfAge, hcap, show (h.add w).head = (h.head + 1) % h.capacity from rfl, hmod,
      Nat.mod_add_mod, show h.head + 1 + (h.capacity - 1) = h.head + h.capacity by
        have := h.capacity_pos
        omega, Nat.add_mod_right]
    exact Nat.mod_eq_of_lt hlt
  rw [ofAge?_of_slot (by rwa [add, Array.size_set]) hslot]
  exact Array.getElem_set_self h.head_lt

theorem ofAge?_add_succ (h : Timeline σ) (w : Recorded σ) {age : ℕ} (hage : age + 1 < h.capacity) :
    (h.add w).ofAge? (age + 1) = h.ofAge? age := by
  have hlt : h.head < h.capacity := h.head_lt
  have hcap : (h.add w).capacity = h.capacity := Array.size_set h.head_lt
  have hslot : (h.add w).slotOfAge (age + 1) = h.slotOfAge age := by
    rw [slotOfAge, slotOfAge, hcap, show (h.add w).head = (h.head + 1) % h.capacity from rfl,
      show (h.head + 1) % h.capacity + h.capacity - 1 - (age + 1) =
        (h.head + 1) % h.capacity + (h.capacity - 2 - age) by omega, Nat.mod_add_mod]
    congr 1
    omega
  have hne : h.head ≠ h.slotOfAge age := by
    unfold slotOfAge
    rcases Nat.lt_or_ge (h.head + h.capacity - 1 - age) h.capacity with h1 | h1
    · rw [Nat.mod_eq_of_lt h1]
      omega
    · rw [Nat.mod_eq_sub_mod h1, Nat.mod_eq_of_lt (by omega)]
      omega
  have hi : h.slotOfAge age < (h.add w).slots.size := by
    rw [add, Array.size_set]
    exact h.slotOfAge_lt age
  rw [ofAge?_of_slot hi hslot]
  exact Array.getElem_set_ne h.head_lt (h.slotOfAge_lt age) hne

/-- **Recording puts a world in front**; what was held stays in order, the
    oldest apart when every slot is taken. -/
theorem recent_add (h : Timeline σ) (w : Recorded σ) :
    (h.add w).recent = w :: (List.range (min h.size (h.capacity - 1))).filterMap h.ofAge? := by
  have hpos := h.capacity_pos
  have hsize : (h.add w).size = min h.size (h.capacity - 1) + 1 := by
    show min (h.size + 1) h.capacity = _
    omega
  rw [recent, hsize, List.range_succ_eq_map, List.filterMap_cons_some (ofAge?_add_zero h w),
    List.filterMap_map]
  congr 1
  refine List.filterMap_congr fun age hmem => ofAge?_add_succ h w ?_
  have := List.mem_range.1 hmem
  omega

theorem mem_recent_add {h : Timeline σ} {w w' : Recorded σ} (hm : w' ∈ (h.add w).recent) :
    w' = w ∨ w' ∈ h.recent := by
  rw [recent_add] at hm
  rcases List.mem_cons.1 hm with rfl | hm
  · exact Or.inl rfl
  · obtain ⟨age, hage, hw⟩ := List.mem_filterMap.1 hm
    have := List.mem_range.1 hage
    exact Or.inr (List.mem_filterMap.2 ⟨age, List.mem_range.2 (by omega), hw⟩)

theorem find?_add (h : Timeline σ) (w : Recorded σ) : (h.add w).find? w.tick = some w := by
  rw [find?_eq, recent_add]
  exact List.find?_cons_of_pos (beq_self_eq_true w.tick)

theorem mem_of_find? {h : Timeline σ} {n : Tick} {w : Recorded σ} (hw : h.find? n = some w) :
    w ∈ h.recent ∧ w.tick = n := by
  rw [find?_eq] at hw
  have htick := List.find?_some (p := fun world : Recorded σ => world.tick == n) hw
  exact ⟨List.mem_of_find?_eq_some hw, eq_of_beq htick⟩

/-! ## All that was recorded -/

/-- A timeline of `n` slots holds the latest `n` of what was recorded, which is
    given latest first. -/
structure Holds (h : Timeline σ) (n : ℕ) (all : List (Recorded σ)) : Prop where
  capacity : h.capacity = n
  size : h.size = min all.length n
  ofAge? : ∀ age < h.size, h.ofAge? age = all[age]?

theorem holds_ofCapacity (n : ℕ) : (ofCapacity n : Timeline σ).Holds (max n 1) [] where
  capacity := by simp [Timeline.capacity, ofCapacity]
  size := by simp [ofCapacity]
  ofAge? := by simp [ofCapacity]

theorem filterMap_range_getElem? {α : Type} (l : List α) (k : ℕ) :
    ((List.range k).filterMap fun i => l[i]?) = l.take k := by
  induction l generalizing k with
  | nil => simp
  | cons a l ih =>
    cases k with
    | zero => rfl
    | succ k =>
      rw [List.range_succ_eq_map, List.filterMap_cons_some (by rfl), List.filterMap_map,
        List.take_succ_cons, ← ih k]
      rfl

section

variable {h : Timeline σ} {n : ℕ} {all : List (Recorded σ)}

theorem Holds.recent (hh : h.Holds n all) : h.recent = all.take n := by
  have hages : h.recent = (List.range h.size).filterMap fun age => all[age]? :=
    List.filterMap_congr fun age hage => hh.ofAge? age (List.mem_range.1 hage)
  rw [hages, filterMap_range_getElem?, hh.size, List.take_eq_take_iff]
  omega

/-- **Recording keeps a timeline holding the latest.** -/
theorem Holds.add (hh : h.Holds n all) (w : Recorded σ) : (h.add w).Holds n (w :: all) := by
  have hsize : (h.add w).size = min (h.size + 1) h.capacity := rfl
  refine ⟨(Array.size_set h.head_lt).trans hh.capacity, ?_, fun age hage => ?_⟩
  · rw [hsize, hh.size, hh.capacity, List.length_cons]
    omega
  · rw [hsize] at hage
    cases age with
    | zero => exact ofAge?_add_zero h w
    | succ age =>
      rw [ofAge?_add_succ h w (by omega), hh.ofAge? age (by omega), List.getElem?_cons_succ]

end

/-! ## Captured worlds -/

variable [EntityState σ]

theorem mem_of_critical? {h : Timeline σ} {n : Tick} {d : UInt32} (hd : h.critical? n = some d) :
    ∃ w ∈ h.recent, w.tick = n ∧ Digest.critical w.entities = d := by
  obtain ⟨w, hw, rfl⟩ := Option.map_eq_some_iff.1 hd
  obtain ⟨hmem, htick⟩ := mem_of_find? hw
  exact ⟨w, hmem, htick, rfl⟩

def captured (σ : Type) [EntityState σ] (n : Tick) (r : World) : Recorded σ :=
  { tick := n, entities := r.states, checksum := Digest.full (r.states : EntityMap σ) }

theorem capture_snd (h : Timeline σ) (n : Tick) (r : World) :
    (h.capture n r).2 = h.add (captured σ n r) := rfl

theorem critical?_capture (h : Timeline σ) (n : Tick) (r : World) :
    (h.capture n r).2.critical? n = some (Digest.critical (r.states : EntityMap σ)) := by
  rw [capture_snd]
  exact congrArg (Option.map _) (find?_add h (captured σ n r))

end Timeline

end Netplay
