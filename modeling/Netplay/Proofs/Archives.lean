/-
  What a dump keeps of a recorded world.

  It keeps the tick, the digest, who was there and every field that is digested.
  Read again, it is the recorded world with each state counted as captured, whatever
  was recorded, and in whatever order the entities were met when it was written; so
  a digest that is computed from it is the one that was recorded.

  * `Dump.allCaptured`: a world as a dump keeps it, and `Dump.full_allCaptured`,
    `Dump.critical_allCaptured`: its digests;
  * `Dump.Preserves`: what is read again against what was recorded;
  * `Dump.recorded_comes_back`: every recorded world that has no more entities than a
    dump can point back over.
-/
import Netplay.Proofs.Dumps
import Netplay.Proofs.Rewinding

namespace Netplay

namespace Dump

/-! ## Worlds as they are kept -/

/-- A world with all its states counted as captured. -/
def allCaptured (m : EntityMap FullState) : EntityMap FullState :=
  m.filterMap fun _ s => some { s with initialized := true }

theorem entries_allCaptured (m : EntityMap FullState) :
    (allCaptured m).entries = m.entries.map marked :=
  m.entries_filterMap_some _

theorem get?_allCaptured (m : EntityMap FullState) (id : EntityId) :
    (allCaptured m).get? id = (m.get? id).map fun s => { s with initialized := true } := by
  rw [allCaptured, EntityMap.get?_filterMap]
  cases m.get? id <;> rfl

theorem ids_allCaptured (m : EntityMap FullState) : (allCaptured m).ids = m.ids := by
  rw [EntityMap.ids, entries_allCaptured, List.map_map]
  rfl

/-- Whether a state was captured does not show in bytes that do not tell it. -/
theorem stream_allCaptured {bytes : FullState → Bytes}
    (h : ∀ s, bytes { s with initialized := true } = bytes s) (m : EntityMap FullState) :
    Digest.stream bytes (allCaptured m) = Digest.stream bytes m := by
  rw [Digest.stream, Digest.stream, entries_allCaptured, List.flatMap_map]
  exact List.flatMap_congr fun p _ => by rw [marked, h]

theorem full_allCaptured (m : EntityMap FullState) :
    Digest.full (allCaptured m) = Digest.full m :=
  congrArg crc32 (stream_allCaptured (fun _ => rfl) m)

theorem critical_allCaptured (m : EntityMap FullState) :
    Digest.critical (allCaptured m) = Digest.critical m :=
  congrArg crc32 (stream_allCaptured (fun _ => rfl) m)

/-- The records of a world, marked when they are written and when they are read. -/
theorem map_marked_records (world : Recorded FullState) :
    (ofRecorded world).records.map marked = (allCaptured world.entities).entries := by
  show (world.entities.entries.map marked).map marked = _
  rw [entries_allCaptured, List.map_map]
  rfl

/-! ## What is read again -/

/-- A dump and its bytes preserve a recorded world. -/
structure Preserves (world : Recorded FullState) (bs : Bytes) (d : Dump) : Prop where
  length : bs.length = recordSize * world.entities.size + rootSize
  tick : d.tick.toNat = world.tick
  checksum : d.checksum = world.checksum
  ascending : d.records.Pairwise fun p q => p.1 < q.1
  /-- No entity is lost, and none added. -/
  ids : d.records.map (·.1) = world.entities.ids
  /-- The records are those of the world in whatever order it is met, put in order. -/
  records : ∀ l : List (EntityId × FullState), l.Perm world.entities.entries →
    (l.map marked).mergeSort (fun p q => decide (p.1 ≤ q.1)) = d.records
  entities : ∀ id, d.entities.get? id =
    (world.entities.get? id).map fun s => { s with initialized := true }
  full : Digest.full d.entities = Digest.full world.entities
  critical : Digest.critical d.entities = Digest.critical world.entities

theorem preserves_of_encode {world : Recorded FullState} (htick : world.tick < 2 ^ 64)
    {bs : Bytes} (h : (ofRecorded world).encode = .ok bs) :
    Preserves world bs
      { ofRecorded world with records := (allCaptured world.entities).entries } := by
  have hentities : EntityMap.ofList (allCaptured world.entities).entries = allCaptured world.entities :=
    EntityMap.ofList_entries _
  constructor
  case length =>
    rw [length_of_encode h, ofRecorded, List.length_map]
    rfl
  case tick => exact UInt64.toNat_ofNat_of_lt' htick
  case checksum => rfl
  case ascending => exact (allCaptured world.entities).ascending
  case ids => exact ids_allCaptured world.entities
  case records =>
    intro l hl
    refine mergeSort_of_ascending ?_ (allCaptured world.entities).ascending
    rw [entries_allCaptured]
    exact hl.map marked
  case entities =>
    intro id
    rw [entities, hentities, get?_allCaptured]
  case full => rw [entities, hentities, full_allCaptured]
  case critical => rw [entities, hentities, critical_allCaptured]

/-- **A recorded world comes back from its dump.**  Fewer than 2²⁶ entities can always
    be dumped, and the bytes are read as a dump of the same tick, digest and entities,
    each with all that was captured of it; both digests of it are those of the world.
    If the world was captured, the digest that was written is thereby the one that is
    computed again. -/
theorem recorded_comes_back {world : Recorded FullState} (hsize : world.entities.size < 2 ^ 26)
    (htick : world.tick < 2 ^ 64) :
    ∃ bs d, (ofRecorded world).encode = .ok bs ∧ decode bs = .ok d ∧ Preserves world bs d ∧
      ∀ capacity deeds n, (Timeline.kept capacity deeds).find? n = some world →
        Digest.full d.entities = d.checksum := by
  obtain ⟨bs, hbs⟩ := encode_of_size (Nat.le_of_lt_succ hsize)
  have hread : decode bs =
      .ok { ofRecorded world with records := (allCaptured world.entities).entries } := by
    rw [decode_encode hbs, map_marked_records]
  have hpreserves := preserves_of_encode htick hbs
  refine ⟨bs, _, hbs, hread, hpreserves, fun capacity deeds n hfound => ?_⟩
  obtain ⟨r, -, hcaptured⟩ := (Timeline.faithful_kept capacity deeds).find? hfound
  calc Digest.full _ = Digest.full world.entities := hpreserves.full
    _ = world.checksum := by rw [hcaptured]; rfl

/-- Of two entities, one of which carries health and one looks, 88 bytes tell all that
    is digested. -/
theorem recorded_comes_back_met :
    let world := Timeline.captured FullState 42 (World.made Timeline.met)
    ∃ bs d, (ofRecorded world).encode = .ok bs ∧ decode bs = .ok d ∧ bs.length = 88 ∧
      d.records.map (·.1) = [1, 2] ∧ Digest.full d.entities = world.checksum := by
  intro world
  have hfound : (Timeline.kept 60 [.capture 42 Timeline.met]).find? 42 = some world :=
    Timeline.find?_add _ _
  have hsize : world.entities.size < 2 ^ 26 := by decide +kernel
  have htick : world.tick < 2 ^ 64 := by decide
  obtain ⟨bs, d, hbs, hd, hpreserves, hsame⟩ := recorded_comes_back hsize htick
  refine ⟨bs, d, hbs, hd, hpreserves.length.trans (by decide +kernel),
    hpreserves.ids.trans (by decide +kernel), ?_⟩
  exact (hsame 60 _ 42 hfound).trans hpreserves.checksum

end Dump

end Netplay
