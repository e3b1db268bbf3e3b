/-
  Maps from entities to values, as seen through `get?`.

  The entries of a map stand in ascending order, so what a map answers decides
  which map it is.

  * `mem_entries`: an entry is in the map iff the map answers it;
  * `ext_get?`: maps that answer alike are the same;
  * `mergeSort_of_ascending`: sorting by id leaves no choice;
  * `contains_insert`, `contains_erase`: the operations through the view;
  * `insert_comm`: values for two ids in either order;
  * `ofList_entries`: a map is made of its entries.
-/
import Mathlib.Data.List.Nodup
import Mathlib.Data.List.Sort
import Netplay.World.EntityMap

namespace Netplay

/-- Lists in ascending order of id that have the same members are the same. -/
theorem eq_of_ascending {α : Type} {name : α → EntityId} {l l' : List α}
    (h : l.Pairwise fun a b => name a < name b) (h' : l'.Pairwise fun a b => name a < name b)
    (hmem : ∀ a, a ∈ l ↔ a ∈ l') : l = l' := by
  have hnodup : ∀ {l : List α}, (l.Pairwise fun a b => name a < name b) → l.Nodup := fun h =>
    h.imp fun hlt he => absurd (he ▸ hlt) (UInt32.lt_irrefl _)
  have hperm : l.Perm l' := (List.perm_ext_iff_of_nodup (hnodup h) (hnodup h')).2 hmem
  exact hperm.eq_of_pairwise (fun a b _ _ hab hba => absurd (UInt32.lt_trans hab hba)
    (UInt32.lt_irrefl _)) h h'

/-- A list sorted by id is the one list of its members in ascending order, if no two of
    them have the same id. -/
theorem mergeSort_of_ascending {α : Type} {name : α → EntityId} {l l' : List α}
    (hperm : l.Perm l') (h : l'.Pairwise fun a b => name a < name b) :
    l.mergeSort (fun a b => decide (name a ≤ name b)) = l' := by
  have hsame : (l.mergeSort fun a b => decide (name a ≤ name b)).Perm l' :=
    (List.mergeSort_perm l _).trans hperm
  have hsorted : (l.mergeSort fun a b => decide (name a ≤ name b)).Pairwise
      fun a b => name a ≤ name b := by
    refine (List.pairwise_mergeSort ?_ ?_ l).imp of_decide_eq_true
    · intro a b c hab hbc
      simp only [decide_eq_true_eq] at hab hbc ⊢
      exact UInt32.le_trans hab hbc
    · intro a b
      simp only [Bool.or_eq_true, decide_eq_true_eq]
      exact UInt32.le_total _ _
  -- no two members have one id, so the ascent is strict whatever the order was
  have hdistinct : (l.mergeSort fun a b => decide (name a ≤ name b)).Pairwise
      fun a b => name a ≠ name b :=
    (hsame.pairwise_iff Ne.symm).2 (h.imp UInt32.ne_of_lt)
  have hstrict : (l.mergeSort fun a b => decide (name a ≤ name b)).Pairwise
      fun a b => name a < name b :=
    (hsorted.and hdistinct).imp fun ⟨hle, hne⟩ => UInt32.lt_of_le_of_ne hle hne
  exact eq_of_ascending hstrict h fun a => hsame.mem_iff

namespace EntityMap

variable {α β : Type}

theorem lookup_eq_some_iff {l : List (EntityId × α)} (h : l.Pairwise fun p q => p.1 ≠ q.1)
    (id : EntityId) (a : α) : l.lookup id = some a ↔ (id, a) ∈ l := by
  induction l with
  | nil => simp
  | cons p rest ih =>
    obtain ⟨hp, hrest⟩ := List.pairwise_cons.1 h
    rw [lookup_cons_eq]
    by_cases hid : id = p.1
    · subst hid
      have hnot : (p.1, a) ∉ rest := fun hm => hp _ hm rfl
      simp only [if_true, Option.some.injEq, List.mem_cons, hnot, or_false]
      exact ⟨fun ha => by rw [← ha], fun ha => (congrArg Prod.snd ha).symm⟩
    · have hne : (id, a) ≠ p := fun he => hid (congrArg Prod.fst he)
      simp only [hid, if_false, List.mem_cons, hne, false_or]
      exact ih hrest

theorem lookup_eq_none_of_lt {l : List (EntityId × α)} {id : EntityId} (h : ∀ p ∈ l, id < p.1) :
    l.lookup id = none := by
  rw [List.lookup_eq_none_iff]
  intro p hp
  simpa using UInt32.ne_of_lt (h p hp)

theorem mem_entries {m : EntityMap α} {id : EntityId} {a : α} :
    (id, a) ∈ m.entries ↔ m.get? id = some a :=
  (lookup_eq_some_iff (m.ascending.imp UInt32.ne_of_lt) id a).symm

theorem contains_eq_true {m : EntityMap α} {id : EntityId} :
    m.contains id = true ↔ ∃ a, m.get? id = some a := Option.isSome_iff_exists

theorem mem_ids {m : EntityMap α} {id : EntityId} : id ∈ m.ids ↔ m.contains id = true := by
  rw [contains_eq_true, ids, List.mem_map]
  constructor
  · rintro ⟨⟨j, a⟩, hm, rfl⟩
    exact ⟨a, mem_entries.1 hm⟩
  · rintro ⟨a, ha⟩
    exact ⟨(id, a), mem_entries.2 ha, rfl⟩

theorem ids_ascending (m : EntityMap α) : m.ids.Pairwise (· < ·) :=
  List.pairwise_map.2 m.ascending

/-- **A map is what it answers.** -/
theorem ext_get? {m m' : EntityMap α} (h : ∀ id, m.get? id = m'.get? id) : m = m' := by
  have hentries : m.entries = m'.entries :=
    eq_of_ascending m.ascending m'.ascending fun ⟨id, a⟩ => by rw [mem_entries, mem_entries, h]
  obtain ⟨l, hl⟩ := m
  obtain ⟨l', hl'⟩ := m'
  subst hentries
  rfl

@[simp] theorem contains_empty (id : EntityId) : (empty : EntityMap α).contains id = false := rfl

@[simp] theorem contains_insert (m : EntityMap α) (id : EntityId) (a : α) (j : EntityId) :
    (m.insert id a).contains j = (decide (j = id) || m.contains j) := by
  rw [contains, get?_insert, contains]
  by_cases h : j = id <;> simp [h]

@[simp] theorem contains_erase (m : EntityMap α) (id j : EntityId) :
    (m.erase id).contains j = (decide (j ≠ id) && m.contains j) := by
  rw [contains, get?_erase, contains]
  by_cases h : j = id <;> simp [h]

/-- Values for two ids can be put in in either order. -/
theorem insert_comm (m : EntityMap α) {i j : EntityId} (h : i ≠ j) (a b : α) :
    (m.insert i a).insert j b = (m.insert j b).insert i a := by
  apply ext_get?
  intro id
  rw [get?_insert, get?_insert, get?_insert, get?_insert]
  by_cases hi : id = i
  · rw [if_neg (hi.trans_ne h), if_pos hi, if_pos hi]
  · rw [if_neg hi, if_neg hi]

theorem place_middle {id : EntityId} {a b : α} {before after : List (EntityId × α)}
    (h : (before ++ (id, a) :: after).Pairwise fun p q => p.1 < q.1) :
    place id b (before ++ (id, a) :: after) = before ++ (id, b) :: after := by
  induction before with
  | nil => simp [place]
  | cons q rest ih =>
    obtain ⟨hq, hrest⟩ := List.pairwise_cons.1 h
    have hlt : q.1 < id := hq (id, a) (by simp)
    rw [List.cons_append, place, if_neg (UInt32.lt_asymm hlt), if_neg (UInt32.ne_of_lt hlt).symm,
      ih hrest, List.cons_append]

/-- A value that takes the place of another stands where that stood. -/
theorem entries_insert {m : EntityMap α} {id : EntityId} {a : α} (h : m.get? id = some a) (b : α) :
    ∃ before after, m.entries = before ++ (id, a) :: after ∧
      (m.insert id b).entries = before ++ (id, b) :: after := by
  obtain ⟨before, after, hm⟩ := List.append_of_mem (mem_entries.2 h)
  refine ⟨before, after, hm, ?_⟩
  show place id b m.entries = _
  rw [hm]
  exact place_middle (hm ▸ m.ascending)

theorem get?_filterMap (m : EntityMap α) (f : EntityId → α → Option β) (j : EntityId) :
    (m.filterMap f).get? j = (m.get? j).bind (f j) := by
  ext b
  simp only [← mem_entries, filterMap, List.mem_filterMap, Option.map_eq_some_iff,
    Option.bind_eq_some_iff]
  constructor
  · rintro ⟨⟨i, a⟩, hm, b', hb, he⟩
    cases he
    exact ⟨a, hm, hb⟩
  · rintro ⟨a, ha, hb⟩
    exact ⟨(j, a), ha, b, hb, rfl⟩

/-- Where no value is dropped each entry is computed anew. -/
theorem entries_filterMap_some (m : EntityMap α) (f : α → β) :
    (m.filterMap fun _ a => some (f a)).entries = m.entries.map fun p => (p.1, f p.2) :=
  congrFun List.filterMap_eq_map m.entries

theorem get?_foldl_erase (m : EntityMap α) (ids : List EntityId) (j : EntityId) :
    (ids.foldl erase m).get? j = if j ∈ ids then none else m.get? j := by
  induction ids generalizing m with
  | nil => simp
  | cons i rest ih =>
    rw [List.foldl_cons, ih, get?_erase]
    by_cases h1 : j = i <;> by_cases h2 : j ∈ rest <;> simp [h1, h2]

/-! ## Maps out of lists -/

theorem get?_foldl_insert {l : List (EntityId × α)} (h : l.Pairwise fun p q => p.1 ≠ q.1)
    (m : EntityMap α) (j : EntityId) :
    (l.foldl (fun m p => m.insert p.1 p.2) m).get? j = (l.lookup j).or (m.get? j) := by
  induction l generalizing m with
  | nil => rfl
  | cons p rest ih =>
    obtain ⟨hne, hrest⟩ := List.pairwise_cons.1 h
    rw [List.foldl_cons, ih hrest, get?_insert, lookup_cons_eq]
    split_ifs with hj
    · have hnone : rest.lookup j = none :=
        List.lookup_eq_none_iff.2 fun q hq => bne_iff_ne.2 (hj ▸ hne q hq)
      rw [hnone]
      rfl
    · rfl

/-- A map of a list in which no two values have one id. -/
theorem get?_ofList {l : List (EntityId × α)} (h : l.Pairwise fun p q => p.1 ≠ q.1)
    (j : EntityId) : (ofList l).get? j = l.lookup j := by
  rw [ofList, get?_foldl_insert h]
  exact Option.or_none

/-- A map is made of its entries. -/
theorem ofList_entries (m : EntityMap α) : ofList m.entries = m :=
  ext_get? fun id => get?_ofList (m.ascending.imp UInt32.ne_of_lt) id

end EntityMap

end Netplay
