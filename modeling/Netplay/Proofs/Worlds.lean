/-
  Worlds, as seen through `isAlive` and `get?`.

  Each operation on a world is given by what it does to the two views; nothing
  later looks into the stores.  Attaching, changing and detaching leave alone
  who lives and every other kind of component; coming to life leaves alone every
  component; death takes all components of one entity.

  * `ext_get?`: worlds that show the same are the same;
  * `create?_spec`: a new entity did not live before, and its id is not the
    invalid one.
-/
import Netplay.Proofs.Maps
import Netplay.World.Basic

namespace Netplay

open Component (Kind)

namespace EntityId

theorem toNat_greatest : greatest.toNat = 4294967294 := rfl

theorem toNat_invalid : invalid.toNat = 4294967295 := rfl

theorem toNat_ofNat {n : ℕ} (h : n ≤ greatest.toNat) : (UInt32.ofNat n).toNat = n :=
  UInt32.toNat_ofNat_of_lt' (Nat.lt_of_le_of_lt h (by decide))

end EntityId

namespace World

variable (r : World) (k : Kind) (id j : EntityId)

/-! ## Who lives -/

@[simp] theorem isAlive_empty : World.empty.isAlive id = false := rfl

@[simp] theorem alive_withStore (m : EntityMap k.Value) : (r.withStore k m).alive = r.alive := by
  cases k <;> rfl

@[simp] theorem isAlive_withStore (m : EntityMap k.Value) :
    (r.withStore k m).isAlive j = r.isAlive j := by
  rw [isAlive, alive_withStore, isAlive]

@[simp] theorem isAlive_attach (v : k.Value) : (r.attach k id v).isAlive j = r.isAlive j := by
  unfold attach
  split
  · exact isAlive_withStore r k j _
  · rfl

@[simp] theorem isAlive_modify (f : k.Value → k.Value) :
    (r.modify k id f).isAlive j = r.isAlive j := by
  unfold modify
  split
  · exact isAlive_withStore r k j _
  · rfl

@[simp] theorem isAlive_detach : (r.detach k id).isAlive j = r.isAlive j :=
  isAlive_withStore r k j _

@[simp] theorem isAlive_destroy :
    (r.destroy id).2.isAlive j = (decide (j ≠ id) && r.isAlive j) := by
  unfold destroy
  split
  · exact EntityMap.contains_erase r.alive id j
  · rename_i h
    by_cases hj : j = id
    · subst hj
      simpa using h
    · simp [hj]

theorem spawn_of_not_mem (h : id ≠ EntityId.invalid) (hd : r.isAlive id = false) :
    r.spawn id = (true, { r with
      alive := r.alive.insert id ()
      nextId := if id ≥ r.nextId then id + 1 else r.nextId }) := by
  simp [spawn, h, hd]

theorem isAlive_of_spawn {r w : World} {id : EntityId} (h : r.spawn id = (true, w)) :
    w.isAlive id = true := by
  unfold spawn at h
  split at h
  · cases h
  · cases h
    exact (EntityMap.contains_insert r.alive id () id).trans (by simp)

theorem isAlive_spawn (h : id ≠ EntityId.invalid) :
    (r.spawn id).2.isAlive j = (decide (j = id) || r.isAlive j) := by
  unfold spawn
  split
  · rename_i hs
    have hl : r.isAlive id = true := hs.resolve_left h
    by_cases hj : j = id
    · subst hj
      simp [hl]
    · simp [hj]
  · exact EntityMap.contains_insert r.alive id () j

theorem mem_entities : id ∈ r.entities ↔ r.isAlive id = true := EntityMap.mem_ids

/-! ## Components -/

@[simp] theorem get?_empty : World.empty.get? k id = none := by
  cases k <;> rfl

@[simp] theorem get?_withStore (m : EntityMap k.Value) :
    (r.withStore k m).get? k j = m.get? j := by
  rw [get?, store_withStore]

theorem get?_withStore_of_ne {k k' : Kind} (h : k' ≠ k) (m : EntityMap k.Value) :
    (r.withStore k m).get? k' j = r.get? k' j := by
  rw [get?, store_withStore_of_ne r h, get?]

theorem store_kindsSeen (ks : List Kind) :
    ({ r with kindsSeen := ks } : World).store k = r.store k := by
  cases k <;> rfl

theorem get?_attach (v : k.Value) (h : r.isAlive id = true) :
    (r.attach k id v).get? k j = if j = id then some v else r.get? k j := by
  unfold attach
  rw [if_pos h, get?, store_kindsSeen, store_withStore]
  exact EntityMap.get?_insert _ _ _ _

theorem get?_attach_of_ne {k k' : Kind} (h : k' ≠ k) (v : k.Value) :
    (r.attach k id v).get? k' j = r.get? k' j := by
  unfold attach
  split
  · rw [get?, store_kindsSeen, store_withStore_of_ne r h, get?]
  · rfl

theorem get?_modify (f : k.Value → k.Value) :
    (r.modify k id f).get? k j = if j = id then (r.get? k id).map f else r.get? k j := by
  unfold modify
  split
  · rename_i v hv
    rw [get?_withStore, EntityMap.get?_insert, hv]
    rfl
  · rename_i hv
    by_cases hj : j = id
    · subst hj
      simp [hv]
    · simp [hj]

theorem get?_modify_self (f : k.Value → k.Value) :
    (r.modify k id f).get? k id = (r.get? k id).map f := by
  rw [get?_modify, if_pos rfl]

theorem get?_modify_of_ne {k k' : Kind} (h : k' ≠ k) (f : k.Value → k.Value) :
    (r.modify k id f).get? k' j = r.get? k' j := by
  unfold modify
  split
  · exact get?_withStore_of_ne r j h _
  · rfl

@[simp] theorem get?_detach :
    (r.detach k id).get? k j = if j = id then none else r.get? k j := by
  rw [detach, get?_withStore, EntityMap.get?_erase, get?]

theorem get?_detach_of_ne {k k' : Kind} (h : k' ≠ k) :
    (r.detach k id).get? k' j = r.get? k' j :=
  get?_withStore_of_ne r j h _

theorem store_strip : (r.strip id).store k = (r.store k).erase id := by
  cases k <;> rfl

theorem store_alive (m : EntityMap Unit) : ({ r with alive := m } : World).store k = r.store k := by
  cases k <;> rfl

theorem store_born (m : EntityMap Unit) (n : EntityId) :
    ({ r with alive := m, nextId := n } : World).store k = r.store k := by
  cases k <;> rfl

theorem get?_destroy (h : r.isAlive id = true) :
    (r.destroy id).2.get? k j = if j = id then none else r.get? k j := by
  unfold destroy
  rw [if_pos h, get?, store_alive, store_strip]
  exact EntityMap.get?_erase _ _ _

theorem get?_destroy_of_ne (h : j ≠ id) : (r.destroy id).2.get? k j = r.get? k j := by
  by_cases hl : r.isAlive id = true
  · rw [get?_destroy r k id j hl, if_neg h]
  · rw [destroy, if_neg hl]

@[simp] theorem get?_spawn : (r.spawn id).2.get? k j = r.get? k j := by
  unfold spawn
  split
  · rfl
  · rw [get?, store_born, get?]

/-- **A world is what it shows**, with where its ids go on and the kinds there have
    been. -/
theorem ext_get? {r r' : World} (halive : r.alive = r'.alive) (hnext : r.nextId = r'.nextId)
    (hkinds : r.kindsSeen = r'.kindsSeen) (hget : ∀ k id, r.get? k id = r'.get? k id) : r = r' := by
  have hstore : ∀ k, r.store k = r'.store k := fun k => EntityMap.ext_get? (hget k)
  obtain ⟨_, _, _, _, _, _, _, _, _, _, _, _⟩ := r
  rw [World.mk.injEq]
  exact ⟨halive, hnext, hkinds, hstore .transform, hstore .velocity, hstore .health, hstore .lives,
    hstore .score, hstore .invincibility, hstore .render, hstore .controller, hstore .history⟩

/-! ### Several deaths -/

theorem isAlive_foldl_destroy (ids : List EntityId) :
    (ids.foldl (fun r id => (r.destroy id).2) r).isAlive j = (decide (j ∉ ids) && r.isAlive j) := by
  induction ids generalizing r with
  | nil => simp
  | cons i rest ih =>
    rw [List.foldl_cons, ih, isAlive_destroy]
    by_cases h1 : j = i <;> by_cases h2 : j ∈ rest <;> simp [h1, h2]

theorem get?_foldl_destroy {ids : List EntityId} (h : j ∉ ids) :
    (ids.foldl (fun r id => (r.destroy id).2) r).get? k j = r.get? k j := by
  induction ids generalizing r with
  | nil => rfl
  | cons i rest ih =>
    obtain ⟨h1, h2⟩ := not_or.1 (List.mem_cons.not.1 h)
    rw [List.foldl_cons, ih _ h2, get?_destroy_of_ne r k i j h1]

/-! ### Entities with a component -/

theorem mem_entitiesWith :
    id ∈ r.entitiesWith k ↔ r.isAlive id = true ∧ r.has k id = true := by
  rw [entitiesWith, List.mem_filter, mem_entities]

/-! ## New entities -/

theorem le_firstGap : ∀ (ids : List EntityId) (n : ℕ), n ≤ EntityId.firstGap n ids
  | [], n => le_rfl
  | i :: rest, n => by
    unfold EntityId.firstGap
    split_ifs
    · exact le_firstGap rest n
    · exact (Nat.le_succ n).trans (le_firstGap rest (n + 1))
    · exact le_rfl

theorem ne_firstGap : ∀ {ids : List EntityId}, ids.Pairwise (· < ·) → ∀ (n : ℕ),
    ∀ i ∈ ids, i.toNat ≠ EntityId.firstGap n ids
  | [], _, _ => by simp
  | i :: rest, h, n => by
    obtain ⟨hi, hrest⟩ := List.pairwise_cons.1 h
    have hlt : ∀ i' ∈ rest, i.toNat < i'.toNat := fun i' hi' => UInt32.lt_iff_toNat_lt.1 (hi i' hi')
    unfold EntityId.firstGap
    intro i' hi'
    split_ifs with h1 h2
    · have := le_firstGap rest n
      rcases List.mem_cons.1 hi' with rfl | hm
      · omega
      · exact ne_firstGap hrest n i' hm
    · have := le_firstGap rest (n + 1)
      rcases List.mem_cons.1 hi' with rfl | hm
      · omega
      · exact ne_firstGap hrest (n + 1) i' hm
    · rcases List.mem_cons.1 hi' with rfl | hm
      · omega
      · have := hlt i' hm
        omega

/-- An id up to the greatest that no entity's number equals is free. -/
theorem isAlive_ofNat_gap {r : World} {n : ℕ} (hn : n ≤ EntityId.greatest.toNat)
    (h : ∀ i ∈ r.entities, i.toNat ≠ n) :
    r.isAlive (UInt32.ofNat n) = false ∧ UInt32.ofNat n ≠ EntityId.invalid := by
  have hto : (UInt32.ofNat n).toNat = n := EntityId.toNat_ofNat hn
  constructor
  · rw [Bool.eq_false_iff]
    exact fun hl => h _ ((mem_entities r _).2 hl) hto
  · intro he
    rw [he, EntityId.toNat_invalid] at hto
    rw [EntityId.toNat_greatest] at hn
    omega

theorem freeId?_spec {r : World} {id : EntityId} (h : r.freeId? = some id) :
    r.isAlive id = false ∧ id ≠ EntityId.invalid := by
  have hasc : r.entities.Pairwise (· < ·) := r.alive.ids_ascending
  unfold freeId? at h
  dsimp only at h
  split_ifs at h with h1 h2
  · cases h
    exact isAlive_ofNat_gap h1 (ne_firstGap hasc _)
  · cases h
    exact isAlive_ofNat_gap h2 (ne_firstGap hasc _)

/-- **A new entity is new.**  It did not live and its id is not the invalid one;
    it lives now, nobody else's life has changed, and there are the components
    that there were. -/
theorem create?_spec {r w : World} {id : EntityId} (h : r.create? = some (id, w)) :
    r.isAlive id = false ∧ id ≠ EntityId.invalid ∧
      (∀ j, w.isAlive j = (decide (j = id) || r.isAlive j)) ∧
      ∀ k j, w.get? k j = r.get? k j := by
  unfold create? at h
  obtain ⟨_, hi, he⟩ := Option.map_eq_some_iff.1 h
  cases he
  obtain ⟨hd, hv⟩ := freeId?_spec hi
  refine ⟨hd, hv, fun j => EntityMap.contains_insert r.alive id () j, fun k j => ?_⟩
  rw [get?, store_born, get?]

end World

end Netplay
