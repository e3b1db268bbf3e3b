/-
  Inputs of different entities do not meet.

  An input reads and writes the transform and the newest sequence of its own
  entity, so inputs of two entities can be applied in either order.  Whatever way
  the inputs of several entities are interleaved, one interleaving is turned into
  the other by such exchanges.

  * `World.modify_comm`: components of two entities are changed in either order;
  * `Steering.apply_comm`, `Steering.applyAll_swap`: so are entities steered;
  * `SameEach`: lists that differ in how they interleave entities; they are
    applied to the same effect (`Steering.applyAll_of_sameEach`);
  * `Steering.alikeAt_applyAll`: inputs of others do not show in an entity;
  * `Steering.without_interference`: all lists of inputs.
-/
import Netplay.Proofs.Parity

namespace Netplay

open Component (Kind)

theorem World.modify_comm (r : World) (k : Kind) {i j : EntityId} (h : i ≠ j)
    (f g : k.Value → k.Value) :
    (r.modify k i f).modify k j g = (r.modify k j g).modify k i f := by
  have hi := sameBut_modify r k i f
  have hij := sameBut_modify (r.modify k i f) k j g
  have hj := sameBut_modify r k j g
  have hji := sameBut_modify (r.modify k j g) k i f
  refine ext_get? ?_ ?_ ?_ fun k' id => ?_
  · rw [hij.alive, hi.alive, hji.alive, hj.alive]
  · rw [hij.nextId, hi.nextId, hji.nextId, hj.nextId]
  · rw [hij.kindsSeen, hi.kindsSeen, hji.kindsSeen, hj.kindsSeen]
  · by_cases hk : k' = k
    · subst hk
      simp only [get?_modify, if_neg h, if_neg h.symm]
      by_cases hid : id = i
      · rw [if_pos hid, if_neg (hid.trans_ne h), if_pos hid]
      · rw [if_neg hid, if_neg hid]
    · have hother : k' ∉ [k] := List.mem_singleton.not.2 hk
      rw [hij.get? k' id (Or.inr hother), hi.get? k' id (Or.inr hother),
        hji.get? k' id (Or.inr hother), hj.get? k' id (Or.inr hother)]

/-! ## Interleavings -/

/-- The inputs of one entity, in their order. -/
def inputsOf (id : EntityId) (ps : List PendingInput) : List PendingInput :=
  ps.filter fun p => p.entity = id

/-- The inputs of all the others. -/
def inputsBut (id : EntityId) (ps : List PendingInput) : List PendingInput :=
  ps.filter fun p => p.entity ≠ id

/-- Each entity has the same inputs in the same order; how those of different
    entities are interleaved is left open. -/
def SameEach (ps qs : List PendingInput) : Prop := ∀ id, inputsOf id ps = inputsOf id qs

section

variable {id : EntityId} {ps qs : List PendingInput}

theorem mem_inputsOf {p : PendingInput} : p ∈ inputsOf id ps ↔ p ∈ ps ∧ p.entity = id := by
  rw [inputsOf, List.mem_filter, decide_eq_true_eq]

theorem mem_inputsBut {p : PendingInput} : p ∈ inputsBut id ps ↔ p ∈ ps ∧ p.entity ≠ id := by
  rw [inputsBut, List.mem_filter, decide_eq_true_eq]

theorem inputsOf_append (id : EntityId) (ps qs : List PendingInput) :
    inputsOf id (ps ++ qs) = inputsOf id ps ++ inputsOf id qs :=
  List.filter_append ps qs

theorem inputsOf_cons (id : EntityId) (p : PendingInput) (ps : List PendingInput) :
    inputsOf id (p :: ps) = if p.entity = id then p :: inputsOf id ps else inputsOf id ps := by
  rw [inputsOf, List.filter_cons, inputsOf]
  simp only [decide_eq_true_eq]

theorem inputsOf_eq_nil (h : ∀ p ∈ ps, p.entity ≠ id) : inputsOf id ps = [] :=
  List.filter_eq_nil_iff.2 fun p hp => by simpa using h p hp

theorem inputsOf_eq_self (h : ∀ p ∈ ps, p.entity = id) : inputsOf id ps = ps :=
  List.filter_eq_self.2 fun p hp => by simpa using h p hp

/-- The first input of one list is found in the other, behind inputs of other
    entities only. -/
theorem SameEach.uncons {p : PendingInput} (h : SameEach (p :: ps) qs) :
    ∃ before after, qs = before ++ p :: after ∧ (∀ q ∈ before, q.entity ≠ p.entity) ∧
      SameEach ps (before ++ after) := by
  have hfirst : inputsOf p.entity qs = p :: inputsOf p.entity ps := by
    rw [← h p.entity, inputsOf_cons, if_pos rfl]
  obtain ⟨before, after, rfl, hbefore, -, -⟩ := List.filter_eq_cons_iff.1 hfirst
  have hothers : ∀ q ∈ before, q.entity ≠ p.entity := fun q hq => by simpa using hbefore q hq
  refine ⟨before, after, rfl, hothers, fun id => ?_⟩
  have hid := h id
  rw [inputsOf_append, inputsOf_cons, inputsOf_cons] at hid
  rw [inputsOf_append]
  split_ifs at hid with hp
  · subst hp
    rw [inputsOf_eq_nil hothers] at hid ⊢
    exact (List.cons.inj hid).2
  · exact hid

/-- Entities without an input in either list need not be asked. -/
theorem sameEach_iff :
    SameEach ps qs ↔ ∀ p ∈ ps ++ qs, inputsOf p.entity ps = inputsOf p.entity qs := by
  constructor
  · exact fun h p _ => h p.entity
  · intro h id
    by_cases hid : ∃ p ∈ ps ++ qs, p.entity = id
    · obtain ⟨p, hp, rfl⟩ := hid
      exact h p hp
    · have hnone : ∀ p ∈ ps ++ qs, p.entity ≠ id := fun p hp he => hid ⟨p, hp, he⟩
      rw [inputsOf_eq_nil fun p hp => hnone p (List.mem_append_left qs hp),
        inputsOf_eq_nil fun p hp => hnone p (List.mem_append_right ps hp)]

instance : Decidable (SameEach ps qs) := decidable_of_iff _ sameEach_iff.symm

/-- The inputs of one entity may all come first. -/
theorem sameEach_apart (id : EntityId) (ps : List PendingInput) :
    SameEach ps (inputsOf id ps ++ inputsBut id ps) := by
  intro j
  rw [inputsOf_append]
  by_cases hj : j = id
  · subst hj
    rw [inputsOf_eq_self fun p hp => (mem_inputsOf.1 hp).2,
      inputsOf_eq_nil fun p hp => (mem_inputsBut.1 hp).2, List.append_nil]
  · rw [inputsOf_eq_nil fun p hp hpj => hj (hpj.symm.trans (mem_inputsOf.1 hp).2), List.nil_append,
      inputsOf, inputsOf, inputsBut, List.filter_filter]
    refine List.filter_congr fun p _ => ?_
    by_cases hp : p.entity = j <;> simp [hp, hj]

end

namespace Steering

/-! ## Inputs in either order -/

theorem fst_apply (s : Steering) (r : World) (p : PendingInput) :
    (s.apply r p).1 = s.accepts r p := by
  rcases s.apply_cases r p with ⟨ha, he⟩ | ⟨ha, he⟩ <;> rw [he, ha]

/-- Whether an input takes effect is not for inputs of other entities to say. -/
theorem accepts_apply (s : Steering) (r : World) {p q : PendingInput} (h : p.entity ≠ q.entity) :
    (s.apply r p).2.1.accepts (s.apply r p).2.2 q = s.accepts r q := by
  have hsame := alikeAt_apply s r h
  rw [accepts, accepts, isFresh, isFresh, World.has, World.has, hsame.lastApplied, hsame.get?]

/-- An input of another entity that comes first leaves the answer as it is. -/
theorem fst_apply_apply (s : Steering) (r : World) {p q : PendingInput} (h : p.entity ≠ q.entity) :
    ((s.apply r p).2.1.apply (s.apply r p).2.2 q).1 = (s.apply r q).1 := by
  rw [fst_apply, fst_apply, accepts_apply s r h]

/-- **Inputs of two entities are applied in either order.** -/
theorem apply_comm (s : Steering) (r : World) {p q : PendingInput} (h : p.entity ≠ q.entity) :
    ((s.apply r p).2.1.apply (s.apply r p).2.2 q).2 =
      ((s.apply r q).2.1.apply (s.apply r q).2.2 p).2 := by
  have hp := s.accepts_apply r h.symm
  have hq := s.accepts_apply r h
  rcases s.apply_cases r p with ⟨hap, hep⟩ | ⟨hap, hep⟩
  · rcases s.apply_cases r q with ⟨haq, heq⟩ | ⟨haq, heq⟩
    · rw [hep] at hq ⊢
      rw [heq] at hp ⊢
      rw [apply_of_accepts (hq.trans haq), apply_of_accepts (hp.trans hap)]
      dsimp only
      rw [EntityMap.insert_comm _ h, World.modify_comm r .transform h]
      rfl
    · rw [apply_of_not_accepts (hq.trans haq), heq]
  · rw [apply_of_not_accepts (hp.trans hap), hep]

/-- Two inputs of different entities may change places. -/
theorem applyAll_swap (s : Steering) (r : World) {p q : PendingInput} (h : p.entity ≠ q.entity)
    (ps : List PendingInput) : s.applyAll r (p :: q :: ps) = s.applyAll r (q :: p :: ps) := by
  refine Prod.ext ?_ ?_
  · rw [count_applyAll_cons, count_applyAll_cons, count_applyAll_cons, count_applyAll_cons,
      s.fst_apply_apply r h, s.fst_apply_apply r h.symm, s.apply_comm r h, Nat.add_left_comm]
  · rw [applyAll_cons, applyAll_cons, applyAll_cons, applyAll_cons, s.apply_comm r h]

/-- Lists that begin alike come to the same if the rest does. -/
theorem applyAll_cons_congr (s : Steering) (r : World) (p : PendingInput) {ps qs : List PendingInput}
    (h : ∀ (s : Steering) (r : World), s.applyAll r ps = s.applyAll r qs) :
    s.applyAll r (p :: ps) = s.applyAll r (p :: qs) := by
  rw [applyAll_cons_eq, applyAll_cons_eq, h]

/-- What inputs leave, others are applied to. -/
theorem applyAll_append (s : Steering) (r : World) (ps qs : List PendingInput) :
    (s.applyAll r (ps ++ qs)).2 =
      ((s.applyAll r ps).2.1.applyAll (s.applyAll r ps).2.2 qs).2 := by
  induction ps generalizing s r with
  | nil => rfl
  | cons p rest ih => rw [List.cons_append, applyAll_cons, applyAll_cons, ih]

/-- An input may be applied before those of other entities. -/
theorem applyAll_forward {p : PendingInput} {before : List PendingInput}
    (h : ∀ q ∈ before, q.entity ≠ p.entity) (s : Steering) (r : World) (after : List PendingInput) :
    s.applyAll r (before ++ p :: after) = s.applyAll r (p :: (before ++ after)) := by
  induction before generalizing s r with
  | nil => rfl
  | cons q rest ih =>
    obtain ⟨hq, hrest⟩ := List.forall_mem_cons.1 h
    calc s.applyAll r (q :: (rest ++ p :: after))
        = s.applyAll r (q :: p :: (rest ++ after)) := applyAll_cons_congr s r q (ih hrest)
      _ = s.applyAll r (p :: q :: (rest ++ after)) := s.applyAll_swap r hq _

/-- **The interleaving of entities does not matter.** -/
theorem applyAll_of_sameEach {ps qs : List PendingInput} (h : SameEach ps qs) (s : Steering)
    (r : World) : s.applyAll r ps = s.applyAll r qs := by
  induction ps generalizing qs s r with
  | nil =>
    have hqs : qs = [] := List.eq_nil_iff_forall_not_mem.2 fun q hq => by
      have hmem : q ∈ inputsOf q.entity qs := mem_inputsOf.2 ⟨hq, rfl⟩
      rw [← h q.entity] at hmem
      cases hmem
    rw [hqs]
  | cons p rest ih =>
    obtain ⟨before, after, rfl, hothers, hrest⟩ := h.uncons
    rw [applyAll_forward hothers]
    exact applyAll_cons_congr s r p (ih hrest)

/-! ## What is seen of one entity -/

theorem alikeAt_applyAll (s : Steering) (r : World) {ps : List PendingInput} {id : EntityId}
    (h : ∀ p ∈ ps, p.entity ≠ id) : AlikeAt id (s, r) (s.applyAll r ps).2 :=
  applyAll_induction (motive := fun s' r' => AlikeAt id (s, r) (s', r')) ps
    (fun s' r' p hp hsofar => hsofar.trans (alikeAt_apply s' r' (h p hp))) (AlikeAt.refl id (s, r))

/-- **Entities do not interfere.**  Whatever the world, the inputs that were applied to
    it and those that wait: lists with the same inputs of each entity in the same order
    have the same effect, in how many inputs take effect, in the newest one of each
    entity and in all of the world; repeated inputs, old ones and those of entities that
    are nowhere are no exception.  No input shows in another entity, so each ends as
    though its own inputs were the only ones. -/
theorem without_interference (s : Steering) (r : World) :
    (∀ ps qs, SameEach ps qs → s.applyAll r ps = s.applyAll r qs) ∧
    (∀ p id, p.entity ≠ id → AlikeAt id (s, r) (s.apply r p).2) ∧
    ∀ ps id, AlikeAt id (s.applyAll r (inputsOf id ps)).2 (s.applyAll r ps).2 := by
  refine ⟨fun ps qs h => applyAll_of_sameEach h s r, fun p id h => alikeAt_apply s r h,
    fun ps id => ?_⟩
  rw [applyAll_of_sameEach (sameEach_apart id ps) s r, applyAll_append]
  exact alikeAt_applyAll _ _ fun p hp => (mem_inputsBut.1 hp).2

/-- An input with the given number and buttons. -/
def pressed (id : EntityId) (sequence : UInt32) (buttons : Buttons) : PendingInput :=
  ⟨id, ({ sequence, buttons } : Command).toPacket 0⟩

/-- Two entities are somewhere and a third is not.  The first sends an input again and an
    old one, the second goes over the end of the numbers; three of six inputs take
    effect, however they are interleaved. -/
theorem without_interference_crossed :
    let s := standard
    let somewhere (id : EntityId) (r : World) :=
      (r.spawn id).2.attach .transform id (.placed ⟨.one, .one⟩)
    let r := somewhere 2 (somewhere 1 .empty)
    let ps := [pressed 1 5 .right, pressed 2 65535 .up, pressed 1 5 .left, pressed 3 1 .up,
      pressed 2 65536 .up, pressed 1 4 .down]
    let qs := [pressed 3 1 .up, pressed 2 65535 .up, pressed 2 65536 .up, pressed 1 5 .right,
      pressed 1 5 .left, pressed 1 4 .down]
    let ended := (s.applyAll r qs).2
    s.applyAll r ps = s.applyAll r qs ∧ (s.applyAll r qs).1 = 3 ∧
      ended.1.lastApplied.get? 1 = some 5 ∧ ended.1.lastApplied.get? 2 = some 0 ∧
      ended.2.get? .transform 1 = (s.apply r (pressed 1 5 .right)).2.2.get? .transform 1 ∧
      ended.2.get? .transform 1 ≠ r.get? .transform 1 := by
  intro s somewhere r ps qs ended
  obtain ⟨hsame, -, halone⟩ := without_interference s r
  refine ⟨hsame ps qs (by decide +kernel), by decide +kernel, by decide +kernel,
    by decide +kernel, ?_, by decide +kernel⟩
  exact ((halone qs 1).get? .transform).trans (by decide +kernel)

end Steering

end Netplay
