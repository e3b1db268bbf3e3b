/-
  What a timeline keeps, however it is used.

  Beside the calls on a timeline stands the list of the worlds recorded since it
  was last cleared.  The timeline is the end of that list, as far as there are
  slots, and every question is answered as from that end, whatever the ticks are:
  they may repeat, go back or be left out.

  * `Timeline.Call`, `Timeline.ran`: timelines of all that can be called, and
    `Timeline.sinceClear`: what they recorded;
  * `Timeline.Filling`: the slots are taken from the first on;
  * `Timeline.Answers`: a timeline answers as a list does;
  * `Timeline.Tracks`: a timeline keeps step with what is recorded; every call
    preserves it;
  * `Timeline.keeps_latest`: every timeline is the end of what it recorded.
-/
import Mathlib.Data.List.Chain
import Mathlib.Data.List.DropRight
import Netplay.Proofs.Rings

namespace Netplay

namespace Timeline

variable {σ : Type} {h : Timeline σ}

/-! ## Slots -/

/-- Until every slot is taken, the one that is written next comes behind those
    that are. -/
def Filling (h : Timeline σ) : Prop := h.size < h.capacity → h.head = h.size

theorem filling_ofCapacity (capacity : ℕ) : (ofCapacity capacity : Timeline σ).Filling :=
  fun _ => rfl

theorem filling_clear (h : Timeline σ) : h.clear.Filling := fun _ => rfl

theorem Filling.add (hf : h.Filling) (w : Recorded σ) : (h.add w).Filling := by
  intro hlt
  have hcap : (h.add w).capacity = h.capacity := Array.size_set h.head_lt
  have hsize : (h.add w).size = min (h.size + 1) h.capacity := rfl
  have hhead : (h.add w).head = (h.head + 1) % h.capacity := rfl
  rw [hcap, hsize] at hlt
  rw [hhead, hsize, hf (by omega), Nat.mod_eq_of_lt (by omega)]
  omega

/-- Where the oldest world is looked up is the slot of the greatest age. -/
theorem Filling.oldest? (hf : h.Filling) (hpos : 0 < h.size) :
    h.oldest? = h.ofAge? (h.size - 1) := by
  have hle : h.size ≤ h.capacity := h.size_le
  have hlt : h.head < h.capacity := h.head_lt
  unfold Timeline.oldest?
  rw [if_neg (by omega)]
  split_ifs with hfull
  · refine (ofAge?_of_slot h.capacity_pos ?_).symm
    rw [slotOfAge, hf hfull, show h.size + h.capacity - 1 - (h.size - 1) = h.capacity by omega]
    exact Nat.mod_self _
  · refine (ofAge?_of_slot h.head_lt ?_).symm
    rw [slotOfAge, show h.head + h.capacity - 1 - (h.size - 1) = h.head by omega]
    exact Nat.mod_eq_of_lt hlt

theorem getElem?_slots (h : Timeline σ) (age : ℕ) :
    h.slots[h.slotOfAge age]? = some (h.ofAge? age) :=
  Array.getElem?_eq_getElem (h.slotOfAge_lt age)

section

variable {n : ℕ} {all : List (Recorded σ)} (hh : h.Holds n all)

include hh

theorem Holds.length_recent : h.recent.length = h.size := by
  rw [hh.recent, List.length_take, hh.size, Nat.min_comm]

theorem Holds.ofAge?_recent {age : ℕ} (hage : age < h.size) : h.ofAge? age = h.recent[age]? := by
  have hn : age < n := by
    rw [hh.size] at hage
    omega
  rw [hh.ofAge? age hage, hh.recent, List.getElem?_take_of_lt hn]

theorem Holds.latest? : h.latest? = h.recent.head? := by
  rw [Timeline.latest?, List.head?_eq_getElem?]
  split_ifs with hzero
  · rw [List.getElem?_eq_none (by rw [hh.length_recent, hzero])]
  · exact hh.ofAge?_recent (Nat.pos_of_ne_zero hzero)

theorem Holds.oldest? (hf : h.Filling) : h.oldest? = h.recent.getLast? := by
  rw [List.getLast?_eq_getElem?, hh.length_recent]
  rcases Nat.eq_zero_or_pos h.size with hzero | hpos
  · rw [Timeline.oldest?, if_pos hzero, List.getElem?_eq_none (by rw [hh.length_recent, hzero])]
  · rw [hf.oldest? hpos, hh.ofAge?_recent (by omega)]

end

/-! ## A timeline as a list -/

/-- A timeline answers as the list of the worlds that it holds, oldest first. -/
structure Answers (h : Timeline σ) (l : List (Recorded σ)) : Prop where
  size : h.size = l.length
  isEmpty : (h.size == 0) = l.isEmpty
  latest? : h.latest? = l.getLast?
  oldest? : h.oldest? = l.head?
  range? : h.range? = l.head?.bind fun o => l.getLast?.map fun w => (o.tick, w.tick)
  /-- Of the worlds of a tick the one recorded last is found. -/
  find?_eq_some : ∀ n w, h.find? n = some w ↔
    w.tick = n ∧ ∃ older newer, l = older ++ w :: newer ∧ ∀ w' ∈ newer, w'.tick ≠ n
  find?_eq_none : ∀ n, h.find? n = none ↔ ∀ w ∈ l, w.tick ≠ n
  has : ∀ n, h.has n = true ↔ ∃ w ∈ l, w.tick = n
  /-- The slots written next and looked up as the oldest exist. -/
  places : h.head < h.slots.size ∧ (if h.size < h.capacity then 0 else h.head) < h.slots.size
  /-- So does that of every age, and the world is in it; its place is found without
      counting below zero. -/
  slots : ∀ age < h.size, age + 1 ≤ h.head + h.capacity ∧
    ∃ w, l[l.length - 1 - age]? = some w ∧ h.slots[h.slotOfAge age]? = some (some w)

theorem find?_eq_some_iff {n : Tick} {w : Recorded σ} : h.find? n = some w ↔
    w.tick = n ∧ ∃ newer older, h.recent = newer ++ w :: older ∧ ∀ w' ∈ newer, w'.tick ≠ n := by
  rw [find?_eq, List.find?_eq_some_iff_append, beq_iff_eq]
  simp

theorem find?_eq_none_iff {n : Tick} : h.find? n = none ↔ ∀ w ∈ h.recent, w.tick ≠ n := by
  rw [find?_eq, List.find?_eq_none]
  simp

theorem Holds.answers {n : ℕ} {all : List (Recorded σ)} (hh : h.Holds n all) (hf : h.Filling) :
    h.Answers h.recent.reverse := by
  have hsize : h.recent.length = h.size := hh.length_recent
  constructor
  case size => rw [List.length_reverse, hsize]
  case isEmpty =>
    rw [List.isEmpty_reverse, ← hsize]
    cases h.recent <;> rfl
  case latest? => rw [hh.latest?, List.getLast?_reverse]
  case oldest? => rw [hh.oldest? hf, List.head?_reverse]
  case range? =>
    rw [Timeline.range?, hh.latest?, hh.oldest? hf, List.head?_reverse, List.getLast?_reverse]
    cases h.recent.getLast? <;> cases h.recent.head? <;> rfl
  case find?_eq_some =>
    intro m w
    rw [find?_eq_some_iff]
    refine and_congr_right fun _ => ⟨?_, ?_⟩
    · rintro ⟨newer, older, heq, hnewer⟩
      exact ⟨older.reverse, newer.reverse, by simp [heq], by simpa using hnewer⟩
    · rintro ⟨older, newer, heq, hnewer⟩
      refine ⟨newer.reverse, older.reverse, ?_, by simpa using hnewer⟩
      rw [← List.reverse_reverse h.recent, heq]
      simp
  case find?_eq_none =>
    intro m
    rw [find?_eq_none_iff]
    simp
  case has =>
    intro m
    rw [Timeline.has, ← not_iff_not, Bool.not_eq_true, Option.isSome_eq_false_iff,
      Option.isNone_iff_eq_none, find?_eq_none_iff]
    simp
  case places =>
    refine ⟨h.head_lt, ?_⟩
    split_ifs
    · exact h.capacity_pos
    · exact h.head_lt
  case slots =>
    intro age hage
    have hle : h.size ≤ h.capacity := h.size_le
    have hheld : age < h.recent.length := hsize.symm ▸ hage
    refine ⟨by omega, h.recent[age], ?_, ?_⟩
    · rw [List.getElem?_reverse (by rw [List.length_reverse]; omega), List.length_reverse,
        show h.recent.length - 1 - (h.recent.length - 1 - age) = age by omega]
      exact List.getElem?_eq_getElem hheld
    · rw [getElem?_slots, hh.ofAge?_recent hage, List.getElem?_eq_getElem hheld]

/-! ## Calls -/

/-- What changes a timeline. -/
inductive Call (σ : Type) where
  | add (world : Recorded σ)
  | clear

def call (h : Timeline σ) : Call σ → Timeline σ
  | .add world => h.add world
  | .clear => h.clear

/-- The timeline that calls make of an empty one. -/
def ran (capacity : ℕ) (calls : List (Call σ)) : Timeline σ :=
  calls.foldl call (ofCapacity capacity)

/-- What has been recorded and not cleared, when a call is made. -/
def note (l : List (Recorded σ)) : Call σ → List (Recorded σ)
  | .add world => l ++ [world]
  | .clear => []

/-- What calls have recorded since the last one that cleared, in that order. -/
def sinceClear (calls : List (Call σ)) : List (Recorded σ) := calls.foldl note []

/-- A timeline of `n` slots keeps step with what has been recorded. -/
structure Tracks (h : Timeline σ) (n : ℕ) (l : List (Recorded σ)) : Prop where
  holds : h.Holds n l.reverse
  filling : h.Filling

variable {n : ℕ} {l : List (Recorded σ)}

theorem holds_clear (hcap : h.capacity = n) : h.clear.Holds n [] where
  capacity := by
    rw [← hcap, clear]
    exact Array.size_replicate
  size := by simp [clear]
  ofAge? := by simp [clear]

/-- **Every call preserves the step.** -/
theorem Tracks.call (ht : h.Tracks n l) (c : Call σ) : (h.call c).Tracks n (note l c) := by
  cases c with
  | add world =>
    refine ⟨?_, ht.filling.add world⟩
    rw [note, List.reverse_append]
    exact ht.holds.add world
  | clear => exact ⟨holds_clear ht.holds.capacity, h.filling_clear⟩

theorem Tracks.foldl_call (ht : h.Tracks n l) (calls : List (Call σ)) :
    (calls.foldl Timeline.call h).Tracks n (calls.foldl note l) := by
  induction calls generalizing h l with
  | nil => exact ht
  | cons c rest ih => exact ih (ht.call c)

theorem tracks_ran (capacity : ℕ) (calls : List (Call σ)) :
    (ran capacity calls).Tracks (max capacity 1) (sinceClear calls) :=
  Tracks.foldl_call ⟨holds_ofCapacity capacity, filling_ofCapacity capacity⟩ calls

theorem Tracks.answers (ht : h.Tracks n l) : h.Answers (l.rtake n) := by
  rw [List.rtake_eq_reverse_take_reverse, ← ht.holds.recent]
  exact ht.holds.answers ht.filling

/-! ## Consecutive ticks -/

theorem tick_of_consecutive {w w' : Recorded σ} :
    ∀ {l : List (Recorded σ)}, (l.IsChain fun a b => b.tick = a.tick + 1) → l.head? = some w →
      l.getLast? = some w' → w.tick + (l.length - 1) = w'.tick
  | [a], _, hhead, hlast => by
    cases hhead
    cases hlast
    rfl
  | a :: b :: rest, hchain, hhead, hlast => by
    obtain ⟨hnext, hrest⟩ := List.isChain_cons_cons.1 hchain
    cases hhead
    rw [List.getLast?_cons_cons] at hlast
    calc w.tick + (rest.length + 1)
        = w.tick + 1 + rest.length := (Nat.add_right_comm w.tick 1 rest.length).symm
      _ = b.tick + rest.length := by rw [hnext]
      _ = w'.tick := tick_of_consecutive hrest rfl hlast

/-- **A timeline is the end of what it recorded.**  However often it is written and
    cleared, it holds the latest worlds recorded since, as many as it has slots, and
    answers as the list of them does.  Where the ticks follow one another and every
    slot is taken, it reaches back as many ticks as there are slots behind the
    latest. -/
theorem keeps_latest (capacity : ℕ) (calls : List (Call σ)) :
    let h := ran capacity calls
    let l := (sinceClear calls).rtake (max capacity 1)
    h.capacity = max capacity 1 ∧ l.length = min (sinceClear calls).length (max capacity 1) ∧
      h.Answers l ∧
      ((l.IsChain fun w w' => w'.tick = w.tick + 1) → h.size = h.capacity →
        ∃ oldest latest, h.range? = some (oldest, latest) ∧
          oldest + (h.capacity - 1) = latest) := by
  intro h l
  have ht : h.Tracks (max capacity 1) (sinceClear calls) := tracks_ran capacity calls
  have ha : h.Answers l := ht.answers
  refine ⟨ht.holds.capacity, ?_, ha, fun hchain hfull => ?_⟩
  · rw [← ha.size, ht.holds.size, List.length_reverse]
  · have hne : l ≠ [] := by
      apply List.ne_nil_of_length_pos
      rw [← ha.size, hfull]
      exact h.capacity_pos
    have hhead := List.head?_eq_some_head hne
    have hlast := List.getLast?_eq_some_getLast hne
    refine ⟨(l.head hne).tick, (l.getLast hne).tick, ?_, ?_⟩
    · rw [ha.range?, hhead, hlast]
      rfl
    · rw [← hfull, ha.size]
      exact tick_of_consecutive hchain hhead hlast

/-- Cleared after one world and then written five times, three slots reach from
    the third tick to the fifth. -/
theorem keeps_latest_aroundTheRing :
    let world : Tick → Call UInt32 := fun n => .add ⟨n, .empty, 0⟩
    (ran 3 ([world 9, .clear] ++ [1, 2, 3, 4, 5].map world)).range? = some (3, 5) := by
  intro world
  obtain ⟨hcap, -, ha, hspan⟩ := keeps_latest 3 ([world 9, .clear] ++ [1, 2, 3, 4, 5].map world)
  obtain ⟨oldest, latest, hrange, hreach⟩ := hspan (by decide) (by decide)
  have hlatest : (ran 3 ([world 9, .clear] ++ [1, 2, 3, 4, 5].map world)).range?.map (·.2) =
      some 5 := by
    rw [ha.range?]
    rfl
  rw [hrange] at hlatest
  cases hlatest
  rw [hcap] at hreach
  rw [hrange, show oldest = 3 from Nat.add_right_cancel (m := 2) hreach]

end Timeline

end Netplay
