/-
  Finite maps from entities to values.

  The entries are kept in ascending order of id, so a map is determined by
  what it maps, and whoever goes through one meets the ids in ascending order
  whatever order they were put in.

  * `get?` is the view: `get?_insert` and `get?_erase` say what the operations
    do to it.
  * `ofList` keeps the last of several values for one id.
-/

namespace Netplay

/-- The name of an entity. -/
abbrev EntityId := UInt32

/-- A finite map from entities to values, in ascending order of id. -/
structure EntityMap (α : Type) where
  entries : List (EntityId × α)
  ascending : entries.Pairwise fun p q => p.1 < q.1

namespace EntityMap

variable {α β : Type}

/-- Put a value into an ascending list, in the place of one with its id. -/
def place (id : EntityId) (a : α) : List (EntityId × α) → List (EntityId × α)
  | [] => [(id, a)]
  | p :: rest =>
    if id < p.1 then (id, a) :: p :: rest
    else if id = p.1 then (id, a) :: rest
    else p :: place id a rest

theorem mem_place {id : EntityId} {a : α} {l : List (EntityId × α)} {p : EntityId × α}
    (h : p ∈ place id a l) : p = (id, a) ∨ p ∈ l := by
  induction l with
  | nil => exact Or.inl (by simpa [place] using h)
  | cons q rest ih =>
    simp only [place] at h
    split at h
    · simpa using h
    · split at h
      · rcases List.mem_cons.1 h with h | h
        · exact Or.inl h
        · exact Or.inr (List.mem_cons_of_mem _ h)
      · rcases List.mem_cons.1 h with h | h
        · exact Or.inr (h ▸ List.mem_cons_self)
        · exact (ih h).imp_right (List.mem_cons_of_mem _)

theorem lookup_cons_eq (p : EntityId × α) (l : List (EntityId × α)) (j : EntityId) :
    (p :: l).lookup j = if j = p.1 then some p.2 else l.lookup j := by
  obtain ⟨i, b⟩ := p
  rw [List.lookup_cons]
  by_cases h : j = i
  · simp [h]
  · simp [h, beq_eq_false_iff_ne.2 h]

theorem lookup_place (id : EntityId) (a : α) (l : List (EntityId × α)) (j : EntityId) :
    (place id a l).lookup j = if j = id then some a else l.lookup j := by
  induction l with
  | nil => simp only [place, lookup_cons_eq]
  | cons q rest ih =>
    simp only [place]
    split
    · rw [lookup_cons_eq]
    · split
      · rename_i heq
        rw [lookup_cons_eq, lookup_cons_eq, ← heq]
        split <;> rfl
      · rename_i hne
        rw [lookup_cons_eq, lookup_cons_eq, ih]
        by_cases hq : j = q.1
        · rw [if_pos hq, if_neg fun h : j = id => hne (h.symm.trans hq), if_pos hq]
        · rw [if_neg hq, if_neg hq]

theorem lookup_filter_ne (id : EntityId) (l : List (EntityId × α)) (j : EntityId) :
    (l.filter fun p => p.1 != id).lookup j = if j = id then none else l.lookup j := by
  induction l with
  | nil => simp
  | cons q rest ih =>
    by_cases hq : q.1 = id
    · rw [List.filter_cons_of_neg (by simp [hq]), ih, lookup_cons_eq, hq]
      split <;> rfl
    · rw [List.filter_cons_of_pos (by simp [hq]), lookup_cons_eq, lookup_cons_eq, ih]
      by_cases h : j = q.1
      · rw [if_pos h, if_pos h, if_neg (h ▸ hq)]
      · rw [if_neg h, if_neg h]

theorem pairwise_place (id : EntityId) (a : α) {l : List (EntityId × α)}
    (h : l.Pairwise fun p q => p.1 < q.1) : (place id a l).Pairwise fun p q => p.1 < q.1 := by
  induction l with
  | nil => simp [place]
  | cons q rest ih =>
    obtain ⟨hq, hrest⟩ := List.pairwise_cons.1 h
    simp only [place]
    split
    · rename_i hlt
      refine List.pairwise_cons.2 ⟨fun p hp => ?_, h⟩
      rcases List.mem_cons.1 hp with rfl | hp
      · exact hlt
      · exact UInt32.lt_trans hlt (hq p hp)
    · split
      · rename_i heq
        exact List.pairwise_cons.2 ⟨fun p hp => heq ▸ hq p hp, hrest⟩
      · rename_i hnlt hne
        refine List.pairwise_cons.2 ⟨fun p hp => ?_, ih hrest⟩
        rcases mem_place hp with rfl | hp
        · exact UInt32.lt_of_le_of_ne (UInt32.not_lt.1 hnlt) (Ne.symm hne)
        · exact hq p hp

def empty : EntityMap α := ⟨[], .nil⟩

instance : Inhabited (EntityMap α) := ⟨empty⟩

def get? (m : EntityMap α) (id : EntityId) : Option α := m.entries.lookup id

def contains (m : EntityMap α) (id : EntityId) : Bool := (m.get? id).isSome

/-- The entities that have a value, ascending. -/
def ids (m : EntityMap α) : List EntityId := m.entries.map (·.1)

def size (m : EntityMap α) : Nat := m.entries.length

/-- Give an entity a value, in the place of any other. -/
def insert (m : EntityMap α) (id : EntityId) (a : α) : EntityMap α :=
  ⟨place id a m.entries, pairwise_place id a m.ascending⟩

def erase (m : EntityMap α) (id : EntityId) : EntityMap α :=
  ⟨m.entries.filter fun p => p.1 != id, m.ascending.filter _⟩

@[simp] theorem get?_empty (j : EntityId) : (empty : EntityMap α).get? j = none := rfl

@[simp] theorem get?_insert (m : EntityMap α) (id : EntityId) (a : α) (j : EntityId) :
    (m.insert id a).get? j = if j = id then some a else m.get? j :=
  lookup_place id a m.entries j

@[simp] theorem get?_erase (m : EntityMap α) (id j : EntityId) :
    (m.erase id).get? j = if j = id then none else m.get? j :=
  lookup_filter_ne id m.entries j

/-- The map of a list; of several values for one id the last counts. -/
def ofList (l : List (EntityId × α)) : EntityMap α :=
  l.foldl (fun m p => m.insert p.1 p.2) empty

theorem pairwise_filterMap (f : EntityId → α → Option β) {l : List (EntityId × α)}
    (h : l.Pairwise fun p q => p.1 < q.1) :
    (l.filterMap fun p => (f p.1 p.2).map (p.1, ·)).Pairwise fun p q => p.1 < q.1 := by
  refine List.Pairwise.filterMap _ (fun p q hpq p' hp q' hq => ?_) h
  simp only [Option.map_eq_some_iff] at hp hq
  obtain ⟨_, _, rfl⟩ := hp
  obtain ⟨_, _, rfl⟩ := hq
  exact hpq

/-- Compute each value anew, or drop it. -/
def filterMap (m : EntityMap α) (f : EntityId → α → Option β) : EntityMap β :=
  ⟨m.entries.filterMap fun p => (f p.1 p.2).map (p.1, ·), pairwise_filterMap f m.ascending⟩

end EntityMap

end Netplay
