/-
  What a world never mixes up.

  An entity's components come and go with it: what it carries was attached to it in
  the life that it leads.  The search for an id only goes up, so until the greatest
  id has lived a new entity has a greater id than any that has ever lived, and an
  earlier capture cannot mean it.

  * `World.get?_perform_cases`: what an operation does to a component, and
    `World.attachedInLife_of_has`: whence an entity has its components;
  * `World.Lived`: who has ever lived; `World.Rising`, `World.lived_lt_nextId`: they are
    all below the id at which the search stands;
  * `World.integrity`: life, components and ids of all worlds.
-/
import Mathlib.Data.List.Infix
import Netplay.Proofs.Restoring
import Netplay.Proofs.Searching

namespace Netplay

open Component (Kind)

namespace World

/-! ## Whence an entity has its components -/

/-- A component was attached to its entity, which has lived from then on. -/
def AttachedInLife (ops : List Op) (k : Kind) (id : EntityId) : Prop :=
  ∃ before v after, ops = before ++ .attach k id v :: after ∧
    ∀ later, later <+: after → (made (before ++ .attach k id v :: later)).isAlive id = true

variable {r : World} {k : Kind} {id : EntityId}

/-- What an operation does to a component: it leaves it alone, takes it away, changes
    it where there is one, or attaches it to a live entity. -/
theorem get?_perform_cases (r : World) (op : Op) (k : Kind) (id : EntityId) :
    (r.perform op).get? k id = r.get? k id ∨ (r.perform op).get? k id = none ∨
      (∃ f, (r.perform op).get? k id = (r.get? k id).map f) ∨
      (r.isAlive id = true ∧ ∃ v, op = .attach k id v) := by
  cases op with
  | create =>
    refine Or.inl ?_
    unfold perform
    cases hc : r.create? with
    | none => rfl
    | some c =>
      have hb : Born r c.2 c.1 := born_of_create? hc
      exact hb.get? k id
  | spawn i => exact Or.inl (r.get?_spawn k i id)
  | destroy i =>
    by_cases hi : r.isAlive i = true
    · have hget : (r.perform (.destroy i)).get? k id = if id = i then none else r.get? k id :=
        r.get?_destroy k i id hi
      split_ifs at hget
      · exact Or.inr (Or.inl hget)
      · exact Or.inl hget
    · refine Or.inl ?_
      show (r.destroy i).2.get? k id = _
      rw [destroy, if_neg hi]
  | attach k' i v =>
    by_cases hk : k = k'
    · subst hk
      by_cases hi : r.isAlive i = true
      · by_cases hid : id = i
        · subst hid
          exact Or.inr (Or.inr (Or.inr ⟨hi, v, rfl⟩))
        · exact Or.inl ((r.get?_attach k i id v hi).trans (if_neg hid))
      · refine Or.inl ?_
        show (r.attach k i v).get? k id = _
        rw [attach, if_neg hi]
    · exact Or.inl (r.get?_attach_of_ne i id hk v)
  | modify k' i f =>
    by_cases hk : k = k'
    · subst hk
      by_cases hid : id = i
      · subst hid
        exact Or.inr (Or.inr (Or.inl ⟨f, r.get?_modify_self k id f⟩))
      · exact Or.inl ((r.get?_modify k i id f).trans (if_neg hid))
    · exact Or.inl (r.get?_modify_of_ne i id hk f)
  | detach k' i =>
    by_cases hk : k = k'
    · subst hk
      have hget : (r.perform (.detach k i)).get? k id = if id = i then none else r.get? k id :=
        r.get?_detach k i id
      split_ifs at hget
      · exact Or.inr (Or.inl hget)
      · exact Or.inl hget
    · exact Or.inl (r.get?_detach_of_ne i id hk)

/-- **An operation gives an entity no component**, unless it attaches one. -/
theorem has_of_has_perform {op : Op} (h : (r.perform op).has k id = true) :
    r.has k id = true ∨ r.isAlive id = true ∧ ∃ v, op = .attach k id v := by
  rw [has] at h ⊢
  rcases r.get?_perform_cases op k id with he | he | ⟨f, he⟩ | hattached
  · exact Or.inl (he ▸ h)
  · rw [he] at h
    cases h
  · rw [he, Option.isSome_map] at h
    exact Or.inl h
  · exact Or.inr hattached

theorem Tidy.isAlive_of_has (h : r.Tidy) (hhas : r.has k id = true) : r.isAlive id = true := by
  by_contra hdead
  rw [has, h.bare id (by simpa using hdead)] at hhas
  cases hhas

/-- **What an entity carries was attached to it in its present life.** -/
theorem attachedInLife_of_has {ops : List Op} (h : (made ops).has k id = true) :
    AttachedInLife ops k id := by
  induction ops using List.reverseRecOn with
  | nil =>
    rw [has, show made [] = World.empty from rfl, get?_empty] at h
    cases h
  | append_singleton ops op ih =>
    have hlive : (made (ops ++ [op])).isAlive id = true := (tidy_made _).isAlive_of_has h
    rw [made_concat] at h
    rcases has_of_has_perform h with hbefore | ⟨-, v, rfl⟩
    · obtain ⟨before, v, after, rfl, hlater⟩ := ih hbefore
      refine ⟨before, v, after ++ [op], by simp, fun later hpre => ?_⟩
      rcases List.prefix_concat_iff.1 hpre with rfl | hpre
      · simpa using hlive
      · exact hlater later hpre
    · refine ⟨ops, v, [], rfl, fun later hpre => ?_⟩
      obtain rfl : later = [] := List.prefix_nil.1 hpre
      exact hlive

/-- Who does not live has nothing after any operation, be it one that brings it to
    life. -/
theorem Tidy.bare_perform (h : r.Tidy) (hdead : r.isAlive id = false) (op : Op) :
    (r.perform op).get? k id = none := by
  by_contra hget
  rcases has_of_has_perform (Option.isSome_iff_ne_none.2 hget) with hbefore | ⟨hbefore, -⟩
  · rw [h.isAlive_of_has hbefore] at hdead
    cases hdead
  · rw [hbefore] at hdead
    cases hdead

/-! ## Who has ever lived -/

/-- An entity has lived at some time. -/
def Lived (ops : List Op) (j : EntityId) : Prop :=
  ∃ before, before <+: ops ∧ (made before).isAlive j = true

theorem lived_concat {ops : List Op} {op : Op} {j : EntityId} :
    Lived (ops ++ [op]) j ↔ Lived ops j ∨ (made (ops ++ [op])).isAlive j = true := by
  constructor
  · rintro ⟨before, hpre, hj⟩
    rcases List.prefix_concat_iff.1 hpre with rfl | hpre
    · exact Or.inr hj
    · exact Or.inl ⟨before, hpre, hj⟩
  · rintro (⟨before, hpre, hj⟩ | hj)
    · exact ⟨before, hpre.trans (List.prefix_append ops [op]), hj⟩
    · exact ⟨_, List.prefix_rfl, hj⟩

/-- The search stands at an id that can be had, and all who live are below it. -/
structure Rising (r : World) : Prop where
  pos : 1 ≤ r.nextId
  le : r.nextId ≤ EntityId.greatest
  lt : ∀ j, r.isAlive j = true → j < r.nextId

theorem rising_empty : World.empty.Rising where
  pos := UInt32.le_refl _
  le := by decide
  lt := by simp

/-- Then the search ends where it stands. -/
theorem Rising.freeId? (h : r.Rising) : r.freeId? = some r.nextId := by
  have hdead : r.isAlive r.nextId = false := by
    by_contra hlive
    exact UInt32.lt_irrefl _ (h.lt _ (by simpa using hlive))
  obtain ⟨id, hid⟩ := exists_freeId? h.pos h.le hdead
  suffices id = r.nextId by rw [hid, this]
  -- any other one comes after one that is taken, which the search stands at
  rcases (firstFree_of_freeId? h.pos hid).taken with ⟨hfrom, htaken⟩ | ⟨-, habove, -⟩
  · by_contra hne
    have hlive := htaken r.nextId (UInt32.le_refl _) (UInt32.lt_of_le_of_ne hfrom (Ne.symm hne))
    rw [hdead] at hlive
    cases hlive
  · have hlive := habove r.nextId (UInt32.le_refl _) h.le
    rw [hdead] at hlive
    cases hlive

/-- The search moves over whoever is born. -/
theorem Rising.born {w : World} (h : r.Rising) (hb : Born r w id)
    (hid : id.toNat < EntityId.greatest.toNat)
    (hnext : w.nextId.toNat = max r.nextId.toNat (id.toNat + 1)) :
    w.Rising ∧ r.nextId ≤ w.nextId := by
  have hup : r.nextId ≤ w.nextId := by
    rw [UInt32.le_iff_toNat_le, hnext]
    exact Nat.le_max_left _ _
  refine ⟨⟨UInt32.le_trans h.pos hup, ?_, fun j hj => ?_⟩, hup⟩
  · rw [UInt32.le_iff_toNat_le, hnext]
    exact Nat.max_le.2 ⟨UInt32.le_iff_toNat_le.1 h.le, hid⟩
  · rw [hb.isAlive, Bool.or_eq_true, decide_eq_true_eq] at hj
    rcases hj with rfl | hj
    · rw [UInt32.lt_iff_toNat_lt, hnext]
      exact Nat.lt_of_lt_of_le (Nat.lt_succ_self _) (Nat.le_max_right _ _)
    · exact UInt32.lt_of_lt_of_le (h.lt j hj) hup

/-- Who is born while the greatest id does not live is below it. -/
theorem Born.lt_greatest {w : World} (hb : Born r w id)
    (hg : w.isAlive EntityId.greatest = false) : id.toNat < EntityId.greatest.toNat := by
  have hinvalid : id.toNat ≠ EntityId.invalid.toNat := fun he => hb.valid (UInt32.toNat_inj.1 he)
  have hgreatest : id.toNat ≠ EntityId.greatest.toNat := by
    intro he
    rw [hb.isAlive, UInt32.toNat_inj.1 he] at hg
    simp at hg
  have hlt := id.toNat_lt
  rw [EntityId.toNat_invalid] at hinvalid
  rw [EntityId.toNat_greatest] at hgreatest ⊢
  omega

/-- **The search only goes up**, and stays above all who live, until the greatest id
    lives. -/
theorem Rising.perform (h : r.Rising) {op : Op}
    (hg : (r.perform op).isAlive EntityId.greatest = false) :
    (r.perform op).Rising ∧ r.nextId ≤ (r.perform op).nextId := by
  rcases perform_cases r op with ⟨id, -, hc⟩ | ⟨id, -, hb, hn⟩ | ⟨hn, hl⟩
  · obtain ⟨hid, hw⟩ := create?_eq_some_iff.1 hc
    rw [h.freeId?] at hid
    cases hid
    have hb : Born r (r.perform op) r.nextId := born_of_create? hc
    have hlt := hb.lt_greatest hg
    refine h.born hb hlt ?_
    rw [hw]
    show (EntityId.succ r.nextId).toNat = _
    rw [EntityId.toNat_succ_of_lt hlt]
    omega
  · refine h.born hb (hb.lt_greatest hg) ?_
    rw [hn]
    split_ifs with hge
    · have hge := UInt32.le_iff_toNat_le.1 hge
      rw [EntityId.toNat_add_one hb.valid]
      omega
    · have hge := mt UInt32.le_iff_toNat_le.2 hge
      omega
  · rw [hn]
    exact ⟨⟨hn ▸ h.pos, hn ▸ h.le, fun j hj => hn ▸ h.lt j (hl j hj)⟩, UInt32.le_refl _⟩

/-- **Until the greatest id has lived, all that have are below where the search
    stands.** -/
theorem lived_lt_nextId {ops : List Op} (h : ¬ Lived ops EntityId.greatest) :
    (made ops).Rising ∧ ∀ j, Lived ops j → j < (made ops).nextId := by
  induction ops using List.reverseRecOn with
  | nil =>
    refine ⟨rising_empty, ?_⟩
    rintro j ⟨before, hpre, hj⟩
    obtain rfl : before = [] := List.prefix_nil.1 hpre
    cases hj
  | append_singleton ops op ih =>
    rw [lived_concat, not_or, Bool.not_eq_true] at h
    obtain ⟨hrising, hlt⟩ := ih h.1
    simp only [lived_concat]
    rw [made_concat] at h ⊢
    obtain ⟨hrising', hup⟩ := hrising.perform h.2
    refine ⟨hrising', fun j hj => ?_⟩
    rcases hj with hj | hj
    · exact UInt32.lt_of_lt_of_le (hlt j hj) hup
    · exact hrising'.lt j hj

/-- **Nothing in a world is mixed up.**  Whatever is done to it, the invalid id does not
    live; only the living carry anything, and only what was attached to them in the life
    that they lead, so an id that is revived carries nothing; the entities with a
    component are listed in ascending order.  Until the greatest id has lived, a new
    entity has an id above all that have ever lived, which no earlier capture names. -/
theorem integrity (σ : Type) [EntityState σ] (ops : List Op) :
    let r := made ops
    r.isAlive EntityId.invalid = false ∧
      (∀ k id, r.has k id = true → r.isAlive id = true ∧ AttachedInLife ops k id) ∧
      (∀ id op, r.isAlive id = false → ∀ k, (r.perform op).get? k id = none) ∧
      (∀ k, (r.entitiesWith k).Pairwise (· < ·) ∧
        ∀ id, id ∈ r.entitiesWith k ↔ r.isAlive id = true ∧ r.has k id = true) ∧
      (¬ Lived ops EntityId.greatest → ∃ id w, r.create? = some (id, w) ∧
        (∀ j, Lived ops j → j < id) ∧
        ∀ before, before <+: ops → ((made before).states : EntityMap σ).get? id = none) := by
  intro r
  have htidy : r.Tidy := tidy_made ops
  refine ⟨htidy.invalid, fun k id h => ⟨htidy.isAlive_of_has h, attachedInLife_of_has h⟩,
    fun id op hdead k => htidy.bare_perform hdead op, fun k => ⟨?_, r.mem_entitiesWith k⟩,
    fun hg => ?_⟩
  · exact r.alive.ids_ascending.filter _
  · obtain ⟨hrising, hlt⟩ := lived_lt_nextId hg
    refine ⟨r.nextId, _, create?_eq_some_iff.2 ⟨hrising.freeId?, rfl⟩, hlt, fun before hpre => ?_⟩
    rw [get?_states, if_neg]
    exact fun hlive => UInt32.lt_irrefl _ (hlt _ ⟨before, hpre, hlive⟩)

/-- An id is not had again: after the entity 10 has come and gone, with points, the new
    one is above it. -/
theorem integrity_afterDeath :
    let ops : List Op := [.create, .spawn 10, .attach .score 10 7, .destroy 10]
    ∃ id w, (made ops).create? = some (id, w) ∧ 10 < id ∧
      ((made (ops.take 3)).states : EntityMap FullState).get? id = none := by
  intro ops
  have hnever : ¬ Lived ops EntityId.greatest := by
    rintro ⟨before, hpre, hlive⟩
    have hdead : ∀ before ∈ ops.inits, (made before).isAlive EntityId.greatest = false := by
      decide +kernel
    rw [hdead before ((List.mem_inits _ _).2 hpre)] at hlive
    cases hlive
  obtain ⟨id, w, hcreate, habove, hunknown⟩ := (integrity FullState ops).2.2.2.2 hnever
  refine ⟨id, w, hcreate, habove 10 ⟨ops.take 3, List.take_prefix 3 ops, by decide +kernel⟩, ?_⟩
  exact hunknown _ (List.take_prefix 3 ops)

end World

end Netplay
