/-
  The search for a free id.

  A search stands at an id.  In each turn it moves on to the next one, over the
  greatest back to 1, and it ends when the id that it stood at can be had.  It knows
  no end of its own: it ends because within one round it comes past every id that an
  entity can have.

  * `World.turn`, `World.search`: the search, turn by turn;
  * `World.tried`: the ids that it comes past, and `EntityId.comes_around`: where the
    round closes;
  * `World.FirstFree`: the first free id, said without the search;
  * `World.search_of_busy`: a search ends at the first free id that it comes past;
  * `World.search_ends`: it ends, at the first free id there is.
-/
import Mathlib.Data.List.Induction
import Mathlib.Logic.Function.Iterate
import Netplay.Proofs.Lifetimes

namespace Netplay

open Component (Kind)

/-! ## The round of the ids -/

namespace EntityId

theorem toNat_add_one {id : EntityId} (h : id ≠ invalid) : (id + 1).toNat = id.toNat + 1 := by
  have hne : id.toNat ≠ invalid.toNat := fun he => h (UInt32.toNat_inj.1 he)
  have hlt := id.toNat_lt
  rw [toNat_invalid] at hne
  rw [UInt32.toNat_add]
  refine Nat.mod_eq_of_lt ?_
  show id.toNat + 1 < 4294967296
  omega

theorem succ_of_greatest_le {id : EntityId} (h : greatest.toNat ≤ id.toNat) : succ id = 1 :=
  if_neg fun hlt => Nat.not_lt.2 h (UInt32.lt_iff_toNat_lt.1 hlt)

theorem toNat_succ_of_lt {id : EntityId} (h : id.toNat < greatest.toNat) :
    (succ id).toNat = id.toNat + 1 := by
  rw [succ, if_pos (UInt32.lt_iff_toNat_lt.2 h)]
  refine toNat_add_one ?_
  rintro rfl
  exact absurd h (by decide)

/-- **No turn of the round leaves the ids**: the next one is greater by one, or it is
    1 again. -/
theorem succ_cases (id : EntityId) : 1 ≤ succ id ∧ succ id ≤ greatest ∧
    ((succ id).toNat = id.toNat + 1 ∨ succ id = 1) := by
  rcases Nat.lt_or_ge id.toNat greatest.toNat with h | h
  · have hsucc := toNat_succ_of_lt h
    refine ⟨UInt32.le_iff_toNat_le.2 ?_, UInt32.le_iff_toNat_le.2 (by omega), Or.inl hsucc⟩
    show 1 ≤ _
    omega
  · rw [succ_of_greatest_le h]
    exact ⟨UInt32.le_refl _, by decide, Or.inr rfl⟩

theorem toNat_iterate_succ {id : EntityId} {k : ℕ} (h : id.toNat + k ≤ greatest.toNat) :
    (succ^[k] id).toNat = id.toNat + k := by
  induction k with
  | zero => rfl
  | succ k ih =>
    have hk := ih (by omega)
    rw [Function.iterate_succ_apply', toNat_succ_of_lt (by omega), hk]
    omega

/-- **The round closes**: from every id the search comes back to 1, and until then
    it goes up one by one. -/
theorem comes_around (id : EntityId) : ∃ d, 0 < d ∧ d + id.toNat ≤ 4294967296 ∧ succ^[d] id = 1 ∧
    ∀ j < d, (succ^[j] id).toNat = id.toNat + j := by
  by_cases hid : id.toNat ≤ greatest.toNat
  · refine ⟨greatest.toNat - id.toNat + 1, Nat.succ_pos _, ?_, ?_, fun j hj => ?_⟩
    · rw [toNat_greatest] at hid ⊢
      omega
    · rw [Function.iterate_succ_apply']
      exact succ_of_greatest_le (by rw [toNat_iterate_succ (by omega)]; omega)
    · exact toNat_iterate_succ (by omega)
  · refine ⟨1, Nat.one_pos, ?_, succ_of_greatest_le (by omega), fun j hj => ?_⟩
    · have := id.toNat_lt
      omega
    · obtain rfl : j = 0 := by omega
      rfl

end EntityId

namespace World

/-! ## Turns -/

/-- The world with a new entity. -/
def withNew (r : World) (id : EntityId) : World :=
  { r with alive := r.alive.insert id (), nextId := EntityId.succ id }

/-- An id that a new entity can have. -/
def IsFree (r : World) (id : EntityId) : Prop := id ≠ EntityId.invalid ∧ r.isAlive id = false

instance (r : World) (id : EntityId) : Decidable (r.IsFree id) :=
  inferInstanceAs (Decidable (_ ∧ _))

/-- One turn of the search: it moves on, and it ends if the id that it stood at is
    free. -/
def turn (r : World) : Option EntityId × World :=
  if r.IsFree r.nextId then (some r.nextId, r.withNew r.nextId)
  else (none, { r with nextId := EntityId.succ r.nextId })

/-- The search, given up after some turns. -/
def search (r : World) : ℕ → Option (EntityId × World)
  | 0 => none
  | n + 1 =>
    match r.turn with
    | (some id, r') => some (id, r')
    | (none, r') => r'.search n

/-- The id at which the search stands after some turns. -/
def tried (r : World) (k : ℕ) : EntityId := EntityId.succ^[k] r.nextId

theorem search_succ_of_free {r : World} (h : r.IsFree r.nextId) (n : ℕ) :
    r.search (n + 1) = some (r.nextId, r.withNew r.nextId) := by
  rw [search, turn, if_pos h]

theorem search_succ_of_busy {r : World} (h : ¬ r.IsFree r.nextId) (n : ℕ) :
    r.search (n + 1) = { r with nextId := EntityId.succ r.nextId }.search n := by
  rw [search, turn, if_neg h]

/-- **The search ends at the first free id that it comes past**, and not before. -/
theorem search_of_busy {r : World} {k : ℕ} (hbusy : ∀ j < k, ¬ r.IsFree (r.tried j))
    (hfree : r.IsFree (r.tried k)) (n : ℕ) :
    r.search n = if k < n then some (r.tried k, r.withNew (r.tried k)) else none := by
  induction k generalizing r n with
  | zero =>
    cases n with
    | zero => rfl
    | succ n => exact search_succ_of_free hfree n
  | succ k ih =>
    cases n with
    | zero => rfl
    | succ n =>
      -- a turn that finds nothing changes where the search stands and nothing else
      have htried : ∀ j, { r with nextId := EntityId.succ r.nextId }.tried j = r.tried (j + 1) :=
        fun j => (Function.iterate_succ_apply EntityId.succ j r.nextId).symm
      have hrest := ih (r := { r with nextId := EntityId.succ r.nextId })
        (fun j hj => htried j ▸ hbusy (j + 1) (by omega)) (htried k ▸ hfree) n
      rw [search_succ_of_busy (hbusy 0 (Nat.succ_pos k)), hrest, htried]
      simp only [Nat.add_lt_add_iff_right]
      rfl

/-! ## The first free id -/

/-- The first id that no entity has, going up from where the search stands and, after
    the greatest, from 1. -/
structure FirstFree (r : World) (id : EntityId) : Prop where
  free : r.isAlive id = false
  pos : 1 ≤ id
  le : id ≤ EntityId.greatest
  taken : (r.nextId ≤ id ∧ ∀ j, r.nextId ≤ j → j < id → r.isAlive j = true) ∨
    (id < r.nextId ∧ (∀ j, r.nextId ≤ j → j ≤ EntityId.greatest → r.isAlive j = true) ∧
      ∀ j, 1 ≤ j → j < id → r.isAlive j = true)

variable {r : World} {id : EntityId}

theorem FirstFree.isFree (h : r.FirstFree id) : r.IsFree id := by
  refine ⟨?_, h.free⟩
  rintro rfl
  exact absurd h.le (by decide)

/-- **The search comes past the first free id within one round**, and past none that
    is free before it. -/
theorem FirstFree.exists_tried (h : r.FirstFree id) : ∃ k, k ≤ EntityId.greatest.toNat ∧
    r.tried k = id ∧ ∀ j < k, ¬ r.IsFree (r.tried j) := by
  have hle := UInt32.le_iff_toNat_le.1 h.le
  have hpos : 1 ≤ id.toNat := UInt32.le_iff_toNat_le.1 h.pos
  rcases h.taken with ⟨hfrom, htaken⟩ | ⟨hbelow, habove, htaken⟩
  · -- it is ahead
    have hfrom := UInt32.le_iff_toNat_le.1 hfrom
    refine ⟨id.toNat - r.nextId.toNat, by omega, ?_, fun j hj hf => ?_⟩
    · apply UInt32.toNat_inj.1
      rw [tried, EntityId.toNat_iterate_succ (by omega)]
      omega
    · have hj' : (r.tried j).toNat = r.nextId.toNat + j := EntityId.toNat_iterate_succ (by omega)
      have hlive := htaken (r.tried j) (UInt32.le_iff_toNat_le.2 (by omega))
        (UInt32.lt_iff_toNat_lt.2 (by omega))
      rw [hf.2] at hlive
      cases hlive
  · -- it is behind: first the rest of the round, and then on from 1
    have hbelow := UInt32.lt_iff_toNat_lt.1 hbelow
    obtain ⟨d, -, hd, hone, hup⟩ := EntityId.comes_around r.nextId
    have hagain : ∀ i, i + 1 ≤ id.toNat → (r.tried (i + d)).toNat = 1 + i := by
      intro i hi
      rw [tried, Function.iterate_add_apply, hone]
      refine EntityId.toNat_iterate_succ ?_
      show 1 + i ≤ _
      omega
    refine ⟨id.toNat - 1 + d, ?_, ?_, fun j hj hf => ?_⟩
    · rw [EntityId.toNat_greatest]
      omega
    · apply UInt32.toNat_inj.1
      rw [hagain _ (by omega)]
      omega
    · have hlive : r.isAlive (r.tried j) = true := by
        rcases Nat.lt_or_ge j d with hjd | hjd
        · have hj' : (r.tried j).toNat = r.nextId.toNat + j := hup j hjd
          have hinvalid : (r.tried j).toNat ≠ EntityId.invalid.toNat :=
            fun he => hf.1 (UInt32.toNat_inj.1 he)
          refine habove _ (UInt32.le_iff_toNat_le.2 (by omega)) (UInt32.le_iff_toNat_le.2 ?_)
          rw [EntityId.toNat_invalid] at hinvalid
          have := (r.tried j).toNat_lt
          rw [EntityId.toNat_greatest]
          omega
        · have hj' : (r.tried (j - d + d)).toNat = 1 + (j - d) := hagain _ (by omega)
          rw [Nat.sub_add_cancel hjd] at hj'
          refine htaken _ (UInt32.le_iff_toNat_le.2 ?_) (UInt32.lt_iff_toNat_lt.2 (by omega))
          show 1 ≤ _
          omega
      rw [hf.2] at hlive
      cases hlive

/-! ### It is the id that a new entity gets -/

theorem lt_firstGap : ∀ {ids : List EntityId} {n m : ℕ}, n ≤ m → m < EntityId.firstGap n ids →
    ∃ i ∈ ids, i.toNat = m
  | [], _, _, hn, hm => absurd hm (Nat.not_lt.2 hn)
  | i :: rest, n, m, hn, hm => by
    unfold EntityId.firstGap at hm
    split_ifs at hm with h1 h2
    · obtain ⟨i', hi', he⟩ := lt_firstGap hn hm
      exact ⟨i', List.mem_cons_of_mem _ hi', he⟩
    · rcases Nat.eq_or_lt_of_le hn with rfl | hlt
      · exact ⟨i, List.mem_cons_self, h2⟩
      · obtain ⟨i', hi', he⟩ := lt_firstGap hlt hm
        exact ⟨i', List.mem_cons_of_mem _ hi', he⟩
    · exact absurd hm (Nat.not_lt.2 hn)

theorem isAlive_of_lt_gap {n : ℕ} (hn : n ≤ id.toNat)
    (hlt : id.toNat < EntityId.firstGap n r.entities) : r.isAlive id = true := by
  obtain ⟨i, hi, he⟩ := lt_firstGap hn hlt
  rw [← UInt32.toNat_inj.1 he]
  exact (r.mem_entities i).1 hi

theorem firstFree_of_freeId? (hpos : 1 ≤ r.nextId) (h : r.freeId? = some id) : r.FirstFree id := by
  have hfree : r.isAlive id = false := (freeId?_spec h).1
  have hpos := UInt32.le_iff_toNat_le.1 hpos
  unfold freeId? at h
  dsimp only at h
  split_ifs at h with habove haround
  · cases h
    have hfrom := le_firstGap r.entities r.nextId.toNat
    constructor
    case free => exact hfree
    case pos =>
      refine UInt32.le_iff_toNat_le.2 ?_
      rw [EntityId.toNat_ofNat habove]
      exact hpos.trans hfrom
    case le =>
      refine UInt32.le_iff_toNat_le.2 ?_
      rw [EntityId.toNat_ofNat habove]
      exact habove
    case taken =>
      refine Or.inl ⟨UInt32.le_iff_toNat_le.2 ?_, fun j hj hlt => ?_⟩
      · rw [EntityId.toNat_ofNat habove]
        exact hfrom
      · have hlt := UInt32.lt_iff_toNat_lt.1 hlt
        rw [EntityId.toNat_ofNat habove] at hlt
        exact isAlive_of_lt_gap (UInt32.le_iff_toNat_le.1 hj) hlt
  · cases h
    have hlive : ∀ j, r.nextId ≤ j → j ≤ EntityId.greatest → r.isAlive j = true := by
      intro j hj hle
      have hle := UInt32.le_iff_toNat_le.1 hle
      exact isAlive_of_lt_gap (UInt32.le_iff_toNat_le.1 hj) (by omega)
    have hle : UInt32.ofNat (EntityId.firstGap 1 r.entities) ≤ EntityId.greatest :=
      UInt32.le_iff_toNat_le.2 (by rw [EntityId.toNat_ofNat haround]; exact haround)
    constructor
    case free => exact hfree
    case pos =>
      refine UInt32.le_iff_toNat_le.2 ?_
      rw [EntityId.toNat_ofNat haround]
      exact le_firstGap r.entities 1
    case le => exact hle
    case taken =>
      refine Or.inr ⟨UInt32.not_le.1 fun hfrom => ?_, hlive, fun j hj hlt => ?_⟩
      · rw [hlive _ hfrom hle] at hfree
        cases hfree
      · have hlt := UInt32.lt_iff_toNat_lt.1 hlt
        rw [EntityId.toNat_ofNat haround] at hlt
        exact isAlive_of_lt_gap (UInt32.le_iff_toNat_le.1 hj) hlt

/-- There is a first free id if there is any. -/
theorem exists_freeId? {j : EntityId} (hpos : 1 ≤ j) (hle : j ≤ EntityId.greatest)
    (hfree : r.isAlive j = false) : ∃ id, r.freeId? = some id := by
  have hle := UInt32.le_iff_toNat_le.1 hle
  have hpos : 1 ≤ j.toNat := UInt32.le_iff_toNat_le.1 hpos
  unfold freeId?
  dsimp only
  split_ifs with habove haround
  · exact ⟨_, rfl⟩
  · exact ⟨_, rfl⟩
  · have hlive : r.isAlive j = true := isAlive_of_lt_gap hpos (by omega)
    rw [hfree] at hlive
    cases hlive

theorem create?_eq_some_iff {w : World} :
    r.create? = some (id, w) ↔ r.freeId? = some id ∧ w = r.withNew id := by
  rw [create?, Option.map_eq_some_iff]
  constructor
  · rintro ⟨i, hi, he⟩
    cases he
    exact ⟨hi, rfl⟩
  · rintro ⟨hi, rfl⟩
    exact ⟨id, hi, rfl⟩

/-! ## Where the search stands -/

section

variable (r : World) (k : Kind) (id : EntityId)

@[simp] theorem nextId_withStore (m : EntityMap k.Value) :
    (r.withStore k m).nextId = r.nextId := by
  cases k <;> rfl

@[simp] theorem nextId_attach (v : k.Value) : (r.attach k id v).nextId = r.nextId := by
  unfold attach
  split
  · exact nextId_withStore r k _
  · rfl

@[simp] theorem nextId_modify (f : k.Value → k.Value) : (r.modify k id f).nextId = r.nextId := by
  unfold modify
  split
  · exact nextId_withStore r k _
  · rfl

@[simp] theorem nextId_detach : (r.detach k id).nextId = r.nextId := nextId_withStore r k _

@[simp] theorem nextId_destroy : (r.destroy id).2.nextId = r.nextId := by
  unfold destroy
  split <;> rfl

end

/-- An entity has come to life, with nothing, and nothing else has happened. -/
structure Born (r w : World) (id : EntityId) : Prop where
  dead : r.isAlive id = false
  valid : id ≠ EntityId.invalid
  isAlive : ∀ j, w.isAlive j = (decide (j = id) || r.isAlive j)
  get? : ∀ k j, w.get? k j = r.get? k j

theorem born_of_create? {w : World} (h : r.create? = some (id, w)) : Born r w id := by
  obtain ⟨hdead, hvalid, halive, hget⟩ := create?_spec h
  exact ⟨hdead, hvalid, halive, hget⟩

/-- **What an operation does to who lives.**  Either it brings one entity to life, or
    the search stays where it is and nobody comes to life. -/
theorem perform_cases (r : World) (op : Op) :
    (∃ id, op = .create ∧ r.create? = some (id, r.perform op)) ∨
    (∃ id, op = .spawn id ∧ Born r (r.perform op) id ∧
      (r.perform op).nextId = if id ≥ r.nextId then id + 1 else r.nextId) ∨
    ((r.perform op).nextId = r.nextId ∧
      ∀ j, (r.perform op).isAlive j = true → r.isAlive j = true) := by
  have hsame : ∀ {w : World}, w.nextId = r.nextId → (∀ j, w.isAlive j = r.isAlive j) →
      w.nextId = r.nextId ∧ ∀ j, w.isAlive j = true → r.isAlive j = true :=
    fun hn hl => ⟨hn, fun j hj => hl j ▸ hj⟩
  cases op with
  | create =>
    unfold perform
    cases hc : r.create? with
    | none => exact Or.inr (Or.inr (hsame rfl fun _ => rfl))
    | some c => exact Or.inl ⟨c.1, rfl, rfl⟩
  | spawn id =>
    by_cases hid : id = EntityId.invalid ∨ r.isAlive id = true
    · have hr : r.perform (.spawn id) = r := by
        show (r.spawn id).2 = r
        rw [spawn, if_pos hid]
      rw [hr]
      exact Or.inr (Or.inr (hsame rfl fun _ => rfl))
    · obtain ⟨hvalid, hdead⟩ := not_or.1 hid
      rw [Bool.not_eq_true] at hdead
      refine Or.inr (Or.inl ⟨id, rfl, ⟨hdead, hvalid, fun j => ?_, fun k j => ?_⟩, ?_⟩)
      · exact r.isAlive_spawn id j hvalid
      · exact r.get?_spawn k id j
      · show (r.spawn id).2.nextId = _
        rw [r.spawn_of_not_mem id hvalid hdead]
  | destroy id =>
    refine Or.inr (Or.inr ⟨r.nextId_destroy id, fun j hj => ?_⟩)
    have hj : (r.destroy id).2.isAlive j = true := hj
    rw [isAlive_destroy, Bool.and_eq_true] at hj
    exact hj.2
  | attach k id v =>
    exact Or.inr (Or.inr (hsame (r.nextId_attach k id v) fun j => r.isAlive_attach k id j v))
  | modify k id f =>
    exact Or.inr (Or.inr (hsame (r.nextId_modify k id f) fun j => r.isAlive_modify k id j f))
  | detach k id =>
    exact Or.inr (Or.inr (hsame (r.nextId_detach k id) fun j => r.isAlive_detach k id j))

theorem made_concat (ops : List Op) (op : Op) : made (ops ++ [op]) = (made ops).perform op :=
  List.foldl_concat perform World.empty op ops

/-- The search never stands before the first id. -/
theorem one_le_nextId (ops : List Op) : 1 ≤ (made ops).nextId := by
  induction ops using List.reverseRecOn with
  | nil => exact UInt32.le_refl _
  | append_singleton ops op ih =>
    rw [made_concat]
    rcases perform_cases (made ops) op with ⟨id, -, hc⟩ | ⟨id, -, hborn, hn⟩ | ⟨hn, -⟩
    · rw [(create?_eq_some_iff.1 hc).2]
      exact (EntityId.succ_cases id).1
    · rw [hn]
      split_ifs
      · refine UInt32.le_iff_toNat_le.2 ?_
        rw [EntityId.toNat_add_one hborn.valid]
        exact Nat.le_add_left 1 _
      · exact ih
    · rw [hn]
      exact ih

/-- **The search for an id ends** if there is one to be had, within one round and
    without leaving the ids.  It ends at the first free one, which then lives, and
    nothing else has changed. -/
theorem search_ends (ops : List Op)
    (hfree : ∃ j, 1 ≤ j ∧ j ≤ EntityId.greatest ∧ (made ops).isAlive j = false) :
    let r := made ops
    ∃ turns id w, turns ≤ EntityId.invalid.toNat ∧
      (∀ n, r.search n = if turns ≤ n then some (id, w) else none) ∧ r.create? = some (id, w) ∧
      r.FirstFree id ∧ Born r w id ∧
      ∀ k, r.tried (k + 1) ≤ EntityId.greatest ∧
        ((r.tried (k + 1)).toNat = (r.tried k).toNat + 1 ∨ r.tried (k + 1) = 1) := by
  obtain ⟨j, hpos, hle, hj⟩ := hfree
  intro r
  obtain ⟨id, hid⟩ := exists_freeId? hpos hle hj
  have hfirst : r.FirstFree id := firstFree_of_freeId? (one_le_nextId ops) hid
  have hcreate : r.create? = some (id, r.withNew id) := create?_eq_some_iff.2 ⟨hid, rfl⟩
  obtain ⟨k, hk, rfl, hbusy⟩ := hfirst.exists_tried
  refine ⟨k + 1, _, _, Nat.succ_le_succ hk, search_of_busy hbusy hfirst.isFree, hcreate, hfirst,
    born_of_create? hcreate, fun i => ?_⟩
  rw [tried, tried, Function.iterate_succ_apply']
  exact (EntityId.succ_cases _).2

/-- Where the greatest id and 1 are taken, the search stands at the invalid id and
    ends at 2. -/
theorem search_ends_parked :
    let r := made [.spawn EntityId.greatest, .spawn 1]
    r.nextId = EntityId.invalid ∧ ∃ turns w, r.search turns = some (2, w) ∧
      w.isAlive EntityId.greatest = true := by
  intro r
  obtain ⟨turns, id, w, -, hsearch, hcreate, -, hborn, -⟩ :=
    search_ends [.spawn EntityId.greatest, .spawn 1] ⟨2, by decide⟩
  have hid : id = 2 := by
    have hnew : r.create?.map (·.1) = some 2 := by decide +kernel
    rw [hcreate] at hnew
    exact Option.some.inj hnew
  subst hid
  refine ⟨by decide +kernel, turns, w, ?_, ?_⟩
  · rw [hsearch, if_pos (Nat.le_refl turns)]
  · rw [hborn.isAlive]
    decide +kernel

end World

end Netplay
