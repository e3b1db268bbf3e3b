/-
  Snapshots in any order.

  The network may repeat snapshots, lose them and mix up their order.  A client
  takes a snapshot up only if it is newer than all that it took up before, so
  the ticks that it takes up rise, and what it holds in the end is the newest
  snapshot that it was handed, whatever came in between.

  * `Client.Happening`: a snapshot that is handed to a client, or an event;
  * `Client.meet_cases`: what a happening does to the authority;
  * `Client.newest_wins`: the authority after any happenings.
-/
import Netplay.Proofs.Authority

namespace Netplay

open Component (Kind)

namespace Client

/-- What a client meets: a snapshot, whatever its contents, or any event. -/
inductive Happening where
  | snapshot (n : UInt32) (m : Snapshot)
  | event (e : Event)

namespace Happening

/-- The snapshot that is handed to the client, and its tick. -/
def snapshot? : Happening → Option (UInt32 × Snapshot)
  | .snapshot n m => some (n, m)
  | .event (.hear data _) => (Message.decode (μ := Snapshot) data).map fun p => (p.1.tick, p.2)
  | .event (.act _) => none

/-- It is no request to go back. -/
def IsForward : Happening → Prop
  | .event (.hear data _) => Message.decode (μ := RollbackRequest) data = none
  | .event (.act _) | .snapshot _ _ => True

/-- The snapshots among happenings, as they arrive. -/
def handled (hs : List Happening) : List (UInt32 × Snapshot) := hs.filterMap snapshot?

end Happening

open Happening (handled)

def meet (c : Client) : Happening → Client
  | .snapshot n m => c.applySnapshot n m
  | .event e => (c.perform e).1

def meetAll (c : Client) (hs : List Happening) : Client := hs.foldl meet c

/-- The snapshot that a client takes up: one that is not stale. -/
def takes? (c : Client) (h : Happening) : Option (UInt32 × Snapshot) :=
  h.snapshot?.filter fun p => !decide (c.IsStale p.1)

/-- The snapshots that a client takes up, in order. -/
def applied (c : Client) : List Happening → List (UInt32 × Snapshot)
  | [] => []
  | h :: rest => (c.takes? h).toList ++ (c.meet h).applied rest

/-! ## One happening -/

theorem takes?_of_stale {c : Client} {h : Happening} {n : UInt32} {m : Snapshot}
    (hm : h.snapshot? = some (n, m)) (hs : c.IsStale n) : c.takes? h = none := by
  simp [takes?, hm, hs]

theorem takes?_of_fresh {c : Client} {h : Happening} {n : UInt32} {m : Snapshot}
    (hm : h.snapshot? = some (n, m)) (hs : ¬ c.IsStale n) : c.takes? h = some (n, m) := by
  simp [takes?, hm, hs]

theorem takes?_of_none {c : Client} {h : Happening} (hm : h.snapshot? = none) :
    c.takes? h = none := by
  simp [takes?, hm]

/-- **What a happening does to the authority**, a request to go back apart: it
    stays as it is, or it becomes that of the snapshot that is taken up. -/
theorem meet_cases (c : Client) {h : Happening} (hf : h.IsForward) :
    (c.takes? h = none ∧ c.SameTold (c.meet h)) ∨
    ∃ n m, h.snapshot? = some (n, m) ∧ ¬ c.IsStale n ∧ c.takes? h = some (n, m) ∧
      c.TakesUp (c.meet h) n m := by
  -- a snapshot is handed over as it is or in a datagram, and only counters differ
  have hsnapshot : ∀ (d : Client) (n : UInt32) (m : Snapshot), h.snapshot? = some (n, m) →
      c.SameTold d → c.meet h = d.applySnapshot n m →
      (c.takes? h = none ∧ c.SameTold (c.meet h)) ∨
      ∃ n m, h.snapshot? = some (n, m) ∧ ¬ c.IsStale n ∧ c.takes? h = some (n, m) ∧
        c.TakesUp (c.meet h) n m := by
    rintro d n m hm ⟨ha, ht, hl⟩ he
    have hstale : d.IsStale n ↔ c.IsStale n := by rw [IsStale, IsStale, hl]
    by_cases hs : c.IsStale n
    · rw [he, applySnapshot_of_stale (hstale.2 hs)]
      exact Or.inl ⟨takes?_of_stale hm hs, ha, ht, hl⟩
    · obtain ⟨h1, h2, h3⟩ := takesUp_applySnapshot (fun hd => hs (hstale.1 hd)) m
      rw [he]
      exact Or.inr ⟨n, m, hm, hs, takes?_of_fresh hm hs, ha ▸ h1, ha ▸ ht ▸ h2, h3⟩
  cases h with
  | snapshot n m => exact hsnapshot c n m rfl ⟨rfl, rfl, rfl⟩ rfl
  | event e =>
    cases e with
    | act a =>
      rcases c.told_perform (.act a) with h | ⟨_, _, _, _, he, -⟩ | ⟨_, _, _, _, he, -⟩
      · exact Or.inl ⟨takes?_of_none rfl, h⟩
      · cases he
      · cases he
    | hear data now =>
      cases hm : Message.decode (μ := Snapshot) data with
      | some p =>
        obtain ⟨traffic, he⟩ := c.receiveOne_of_snapshot hm now
        refine hsnapshot { c with traffic } p.1.tick p.2 ?_ ⟨rfl, rfl, rfl⟩ (congrArg Prod.fst he)
        rw [Happening.snapshot?, hm]
        rfl
      | none =>
        rcases c.told_perform (.hear data now) with h | ⟨_, _, _, _, he, hm', -⟩ |
          ⟨_, _, _, _, he, hm', -⟩
        · refine Or.inl ⟨takes?_of_none ?_, h⟩
          rw [Happening.snapshot?, hm]
          rfl
        · cases he
          rw [hm] at hm'
          cases hm'
        · cases he
          rw [Happening.IsForward] at hf
          rw [hf] at hm'
          cases hm'

/-- What is not taken up changes nothing. -/
theorem meet_spec (c : Client) {h : Happening} (hf : h.IsForward) :
    match c.takes? h with
    | none => c.SameTold (c.meet h)
    | some (n, m) => c.TakesUp (c.meet h) n m := by
  rcases c.meet_cases hf with ⟨hnone, hsame⟩ | ⟨n, m, -, -, hsome, htaken⟩
  · rw [hnone]
    exact hsame
  · rw [hsome]
    exact htaken

theorem Mirrors.meet {c : Client} (hc : c.Mirrors) {h : Happening} (hf : h.IsForward) :
    (c.meet h).Mirrors := by
  rcases c.meet_cases hf with ⟨-, hsame⟩ | ⟨_, _, -, -, -, htaken⟩
  · exact hc.sameTold hsame
  · exact hc.takesUp htaken

/-! ## Rising ticks -/

/-- The ticks that are taken up rise, from the last one on. -/
theorem applied_rising (c : Client) {hs : List Happening} (hf : ∀ h ∈ hs, h.IsForward) :
    (c.lastSnapshotTick.toList ++ (c.applied hs).map (·.1)).Pairwise (· < ·) := by
  induction hs generalizing c with
  | nil => cases c.lastSnapshotTick <;> simp [applied]
  | cons h rest ih =>
    have hrest := ih (c.meet h) fun h' hh => hf h' (List.mem_cons_of_mem _ hh)
    rcases c.meet_cases (hf h List.mem_cons_self) with ⟨hnone, -, -, hl⟩ |
      ⟨n, m, -, hs, hsome, -, -, hl⟩
    · rw [applied, hnone, ← hl]
      exact hrest
    · rw [hl] at hrest
      rw [applied, hsome]
      cases hlast : c.lastSnapshotTick with
      | none => exact hrest
      | some last =>
        have hlt : last < n := UInt32.not_le.1 fun hle => hs ⟨last, hlast, hle⟩
        refine List.pairwise_cons.2 ⟨fun k hk => ?_, hrest⟩
        rcases List.mem_cons.1 hk with rfl | hk
        · exact hlt
        · exact UInt32.lt_trans hlt ((List.pairwise_cons.1 hrest).1 k hk)

/-! ## The newest snapshot -/

theorem SameTold.isStale_iff {c c' : Client} (h : c.SameTold c') (n : UInt32) :
    c'.IsStale n ↔ c.IsStale n := by
  rw [IsStale, IsStale, h.2.2]

theorem isStale_of_le {c : Client} {n n' : UInt32} (hle : n' ≤ n) (h : c.IsStale n) :
    c.IsStale n' := by
  obtain ⟨last, hl, hn⟩ := h
  exact ⟨last, hl, UInt32.le_trans hle hn⟩

theorem TakesUp.isStale_iff {c c' : Client} {n : UInt32} {m : Snapshot} (h : c.TakesUp c' n m)
    (n' : UInt32) : c'.IsStale n' ↔ n' ≤ n := by
  rw [IsStale, h.2.2]
  simp

/-- Snapshots that are stale change nothing. -/
theorem sameTold_meetAll {c : Client} {hs : List Happening} (hf : ∀ h ∈ hs, h.IsForward)
    (hstale : ∀ p ∈ handled hs, c.IsStale p.1) : c.SameTold (c.meetAll hs) := by
  induction hs generalizing c with
  | nil => exact ⟨rfl, rfl, rfl⟩
  | cons h rest ih =>
    have hmem : ∀ p, h.snapshot? = some p → p ∈ handled (h :: rest) := fun p hp =>
      List.mem_filterMap.2 ⟨h, List.mem_cons_self, hp⟩
    have hrest : ∀ p ∈ handled rest, p ∈ handled (h :: rest) := by
      intro p hp
      obtain ⟨h', hh, hp'⟩ := List.mem_filterMap.1 hp
      exact List.mem_filterMap.2 ⟨h', List.mem_cons_of_mem _ hh, hp'⟩
    rcases c.meet_cases (hf h List.mem_cons_self) with ⟨-, hsame⟩ | ⟨n, m, hm, hs, -, -⟩
    · obtain ⟨ha, ht, hl⟩ := ih (fun h' hh => hf h' (List.mem_cons_of_mem _ hh))
        fun p hp => (hsame.isStale_iff p.1).2 (hstale p (hrest p hp))
      exact ⟨ha.trans hsame.1, ht.trans hsame.2.1, hl.trans hsame.2.2⟩
    · exact absurd (hstale _ (hmem _ hm)) hs

/-- The first of the snapshots with the highest tick is held in the end. -/
theorem meetAll_newest {c : Client} (hc : c.Mirrors) {hs : List Happening}
    (hf : ∀ h ∈ hs, h.IsForward) {before after : List (UInt32 × Snapshot)} {n : UInt32}
    {m : Snapshot} (hsplit : handled hs = before ++ (n, m) :: after)
    (hbefore : ∀ p ∈ before, p.1 < n) (hafter : ∀ p ∈ after, p.1 ≤ n) (hn : ¬ c.IsStale n) :
    ∃ w : World, w.Tidy ∧ Placed w ∧ (c.meetAll hs).authority = adopt w m ∧
      (c.meetAll hs).lastSnapshotTick = some n := by
  induction hs generalizing c before with
  | nil => cases before <;> cases hsplit
  | cons h rest ih =>
    have hfh := hf h List.mem_cons_self
    have hfrest : ∀ h' ∈ rest, h'.IsForward := fun h' hh => hf h' (List.mem_cons_of_mem _ hh)
    cases hm : h.snapshot? with
    | none =>
      rw [handled, List.filterMap_cons_none hm] at hsplit
      rcases c.meet_cases hfh with ⟨-, hsame⟩ | ⟨_, _, hsome, -⟩
      · exact ih (hc.meet hfh) hfrest hsplit hbefore fun hs => hn ((hsame.isStale_iff n).1 hs)
      · rw [hm] at hsome
        cases hsome
    | some p =>
      rw [handled, List.filterMap_cons_some hm] at hsplit
      cases before with
      | nil =>
        -- it has arrived, and nothing that comes later is newer
        obtain ⟨rfl, hrest⟩ := List.cons.inj hsplit
        rcases c.meet_cases hfh with ⟨hnone, -⟩ | ⟨n', m', hsome, -, -, htaken⟩
        · rw [takes?_of_fresh hm hn] at hnone
          cases hnone
        · rw [hm] at hsome
          cases hsome
          have hstale : ∀ p ∈ handled rest, (c.meet h).IsStale p.1 := by
            intro p hp
            rw [htaken.isStale_iff]
            exact hafter p (hrest ▸ hp)
          obtain ⟨ha, -, hl⟩ := sameTold_meetAll hfrest hstale
          exact ⟨c.authority, hc.tidy, hc.placed, ha.trans htaken.1, hl.trans htaken.2.2⟩
      | cons q before =>
        obtain ⟨rfl, hrest⟩ := List.cons.inj hsplit
        refine ih (hc.meet hfh) hfrest hrest (fun q hq => hbefore q (List.mem_cons_of_mem _ hq)) ?_
        rcases c.meet_cases hfh with ⟨-, hsame⟩ | ⟨n', m', hsome, -, -, htaken⟩
        · exact fun hs => hn ((hsame.isStale_iff n).1 hs)
        · rw [htaken.isStale_iff, UInt32.not_le]
          rw [hm] at hsome
          cases hsome
          exact hbefore _ List.mem_cons_self

/-- Of some snapshots one is the first with the highest tick. -/
theorem exists_newest {l : List (UInt32 × Snapshot)} (h : l ≠ []) :
    ∃ before n m after, l = before ++ (n, m) :: after ∧ (∀ p ∈ before, p.1 < n) ∧
      ∀ p ∈ after, p.1 ≤ n := by
  induction l with
  | nil => exact absurd rfl h
  | cons q rest ih =>
    by_cases hrest : rest = []
    · subst hrest
      exact ⟨[], q.1, q.2, [], rfl, by simp, by simp⟩
    · obtain ⟨before, n, m, after, rfl, hbefore, hafter⟩ := ih hrest
      by_cases hq : q.1 < n
      · refine ⟨q :: before, n, m, after, rfl, ?_, hafter⟩
        rintro p hp
        rcases List.mem_cons.1 hp with rfl | hp
        · exact hq
        · exact hbefore p hp
      · have hle : n ≤ q.1 := UInt32.not_lt.1 hq
        refine ⟨[], q.1, q.2, _, rfl, by simp, ?_⟩
        intro p hp
        rcases List.mem_append.1 hp with hp | hp
        · exact UInt32.le_trans (UInt32.le_of_lt (hbefore p hp)) hle
        · rcases List.mem_cons.1 hp with rfl | hp
          · exact hle
          · exact UInt32.le_trans (hafter p hp) hle

/-- An authority holds exactly what a snapshot lists: the ids other than the
    invalid one, each as its last entry shows it. -/
def Depicts (w : World) (m : Snapshot) : Prop :=
  ∀ id, (w.isAlive id = true ↔ id ≠ EntityId.invalid ∧ ∃ e ∈ m.entities, e.id = id) ∧
    ∀ e, Sighting.last? m.entities id = some e → id ≠ EntityId.invalid →
      w.get? .transform id = some (.placed e.position) ∧ w.get? .health id = some (.full e.health)

theorem depicts_adopt {w : World} (hw : w.Tidy) (hplaced : Placed w) (m : Snapshot) :
    Depicts (adopt w m) m := by
  obtain ⟨hinvalid, hview⟩ := adopt_spec hw.invalid hplaced m
  intro id
  constructor
  · rw [← Sighting.isSome_last?]
    constructor
    · intro hl
      have hne : id ≠ EntityId.invalid := by
        rintro rfl
        rw [hinvalid] at hl
        cases hl
      exact ⟨hne, (hview id hne).1 ▸ hl⟩
    · rintro ⟨hne, hlisted⟩
      rw [(hview id hne).1, hlisted]
  · intro e he hne
    exact (hview id hne).2 e he

/-- Two authorities hold the same entities, each in the same place and health. -/
def SameShown (w w' : World) : Prop :=
  ∀ id, w'.isAlive id = w.isAlive id ∧ w'.get? .transform id = w.get? .transform id ∧
    w'.get? .health id = w.get? .health id

theorem Depicts.sameShown {w w' : World} {m : Snapshot} (h : Depicts w m) (h' : Depicts w' m)
    (ht : w.Tidy) (ht' : w'.Tidy) : SameShown w w' := by
  intro id
  have hlife : w'.isAlive id = w.isAlive id := by
    rw [Bool.eq_iff_iff, (h id).1, (h' id).1]
  refine ⟨hlife, ?_⟩
  cases hl : w.isAlive id with
  | false =>
    rw [ht.bare id hl, ht.bare id hl, ht'.bare id (hlife.trans hl), ht'.bare id (hlife.trans hl)]
    exact ⟨rfl, rfl⟩
  | true =>
    obtain ⟨hne, hlisted⟩ := (h id).1.1 hl
    obtain ⟨e, he⟩ := Option.isSome_iff_exists.1 (Sighting.isSome_last?.2 hlisted)
    obtain ⟨h1, h2⟩ := (h id).2 e he hne
    obtain ⟨h3, h4⟩ := (h' id).2 e he hne
    exact ⟨h3.trans h1.symm, h4.trans h2.symm⟩

/-- Two orders of the same snapshots lead to the same. -/
theorem sameShown_of_perm {c : Client} (hc : c.Mirrors) {hs hs' : List Happening}
    (hf : ∀ h ∈ hs, h.IsForward) (hf' : ∀ h ∈ hs', h.IsForward)
    (hperm : (handled hs').Perm (handled hs)) (hnodup : ((handled hs).map (·.1)).Nodup) :
    SameShown (c.meetAll hs).authority (c.meetAll hs').authority := by
  -- if nothing is new, nothing changes
  have hquiet : (∀ p ∈ handled hs, c.IsStale p.1) →
      SameShown (c.meetAll hs).authority (c.meetAll hs').authority := by
    intro hstale id
    rw [(sameTold_meetAll hf hstale).1,
      (sameTold_meetAll hf' fun p hp => hstale p (hperm.subset hp)).1]
    exact ⟨rfl, rfl, rfl⟩
  by_cases hnone : handled hs = []
  · apply hquiet
    simp [hnone]
  · obtain ⟨before, n, m, after, hsplit, hbefore, hafter⟩ := exists_newest hnone
    have hle : ∀ p ∈ handled hs, p.1 ≤ n := by
      intro p hp
      rw [hsplit] at hp
      rcases List.mem_append.1 hp with hp | hp
      · exact UInt32.le_of_lt (hbefore p hp)
      · rcases List.mem_cons.1 hp with rfl | hp
        · exact UInt32.le_refl _
        · exact hafter p hp
    by_cases hn : c.IsStale n
    · exact hquiet fun p hp => isStale_of_le (hle p hp) hn
    · obtain ⟨w, hw, hplaced, ha, -⟩ := meetAll_newest hc hf hsplit hbefore hafter hn
      have hmem : (n, m) ∈ handled hs' := hperm.symm.subset (by simp [hsplit])
      obtain ⟨before', after', hsplit'⟩ := List.append_of_mem hmem
      have hnodup' : ((handled hs').map (·.1)).Nodup := (hperm.map _).nodup_iff.2 hnodup
      rw [hsplit', List.map_append, List.map_cons] at hnodup'
      obtain ⟨-, hnotin, hdisjoint⟩ := List.nodup_append.1 hnodup'
      have hbefore' : ∀ p ∈ before', p.1 < n := by
        intro p hp
        refine UInt32.lt_of_le_of_ne (hle p (hperm.subset (by simp [hsplit', hp]))) ?_
        exact hdisjoint _ (List.mem_map.2 ⟨p, hp, rfl⟩) _ List.mem_cons_self
      have hafter' : ∀ p ∈ after', p.1 ≤ n := fun p hp =>
        hle p (hperm.subset (by simp [hsplit', hp]))
      obtain ⟨w', hw', hplaced', ha', -⟩ := meetAll_newest hc hf' hsplit' hbefore' hafter' hn
      rw [ha, ha']
      exact (depicts_adopt hw hplaced m).sameShown (depicts_adopt hw' hplaced' m)
        (tidy_adopt hw m) (tidy_adopt hw' m)

/-- **The newest snapshot wins.**  The ticks that a client takes up rise, and what
    it does not take up changes nothing.  If the first snapshot with the highest
    tick is newer than what it held, the client holds exactly that one in the end,
    and if none is, what it held.  Two orders of snapshots with different ticks
    lead to the same. -/
theorem newest_wins (config : ClientConfig) (now : Duration) (es : List Event)
    (hs : List Happening) (hf : ∀ h ∈ hs, h.IsForward) :
    let c := ((make config now).performAll es).1
    (c.lastSnapshotTick.toList ++ (c.applied hs).map (·.1)).Pairwise (· < ·) ∧
    (∀ before h after, hs = before ++ h :: after →
      match (c.meetAll before).takes? h with
      | none => (c.meetAll before).SameTold ((c.meetAll before).meet h)
      | some (n, m) => (c.meetAll before).TakesUp ((c.meetAll before).meet h) n m) ∧
    (∀ before n m after, handled hs = before ++ (n, m) :: after → (∀ p ∈ before, p.1 < n) →
      (∀ p ∈ after, p.1 ≤ n) → ¬ c.IsStale n →
        (c.meetAll hs).lastSnapshotTick = some n ∧ Depicts (c.meetAll hs).authority m) ∧
    ((∀ p ∈ handled hs, c.IsStale p.1) → (c.meetAll hs).authority = c.authority) ∧
    ∀ hs', (∀ h ∈ hs', h.IsForward) → (handled hs').Perm (handled hs) →
      ((handled hs).map (·.1)).Nodup →
        SameShown (c.meetAll hs).authority (c.meetAll hs').authority := by
  intro c
  have hc : c.Mirrors := mirrors_performAll (mirrors_make config now) es
  refine ⟨c.applied_rising hf, ?_, ?_, fun hstale => (sameTold_meetAll hf hstale).1, ?_⟩
  · rintro before h after rfl
    exact (c.meetAll before).meet_spec (hf h (by simp))
  · intro before n m after hsplit hbefore hafter hn
    obtain ⟨w, hw, hplaced, ha, hl⟩ := meetAll_newest hc hf hsplit hbefore hafter hn
    rw [ha]
    exact ⟨hl, depicts_adopt hw hplaced m⟩
  · intro hs' hf' hperm hnodup
    exact sameShown_of_perm hc hf hf' hperm hnodup

/-- A repeated id, the invalid one, a repeated tick and a late snapshot. -/
def mixedUp : List Happening :=
  [.snapshot 1 ⟨0, 0, [⟨4, .zero, 100⟩]⟩,
    .snapshot 3 ⟨0, 0, [⟨5, .zero, 100⟩, ⟨EntityId.invalid, .zero, 1⟩, ⟨5, ⟨.two, .two⟩, 30⟩]⟩,
    .snapshot 3 ⟨0, 0, [⟨6, .zero, 100⟩]⟩, .snapshot 2 ⟨0, 0, []⟩]

theorem newest_wins_mixedUp :
    (∀ h ∈ mixedUp, h.IsForward) ∧
    Depicts ((make {} 0).meetAll mixedUp).authority
      ⟨0, 0, [⟨5, .zero, 100⟩, ⟨EntityId.invalid, .zero, 1⟩, ⟨5, ⟨.two, .two⟩, 30⟩]⟩ := by
  have hf : ∀ h ∈ mixedUp, h.IsForward := by simp [mixedUp, Happening.IsForward]
  refine ⟨hf, ((newest_wins {} 0 [] mixedUp hf).2.2.1 [(1, ⟨0, 0, [⟨4, .zero, 100⟩]⟩)] 3 _
    [(3, ⟨0, 0, [⟨6, .zero, 100⟩]⟩), (2, ⟨0, 0, []⟩)] rfl ?_ ?_ ?_).2⟩
  · simp
  · simp
  · simp [IsStale, performAll, make]

end Client

end Netplay
