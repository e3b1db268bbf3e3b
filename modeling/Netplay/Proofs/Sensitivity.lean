/-
  Digests notice changes.

  What is digested of a state are the values of some of its fields, each written in
  its own width.  A field is at most four bytes wide, and a check value fixes any
  four bytes in a row, so a world in which one digested field has changed has another
  digest.  The records all have one length and begin with an id: what is digested of
  a world can be read off the bytes.  It is gathered by ascending id, so neither the
  order in which entities are put into a world nor that in which they are met counts.

  * `StateField`, `Fielded`: states by the values of their fields, and
    `DiffersIn`: two of them differ in one field only;
  * `Fielded.crc32_stream_ne_iff`: a check value changes iff the changed field is
    among those that are read;
  * `Fielded.stream_eq_iff`: the bytes tell what is digested;
  * `Digest.gather`: a world met in any order;
  * `Digest.changes_are_noticed`: all this of the two digests of both types of states.
-/
import Netplay.Proofs.Corruption
import Netplay.Proofs.Maps
import Netplay.World.Digest

namespace Netplay

/-! ## Fields -/

/-- The fields of captured states that are digested. -/
inductive StateField where
  | positionX
  | positionY
  | velocityX
  | velocityY
  | health
  | lives
  | score
  | status
  | typeId
  deriving DecidableEq

namespace StateField

/-- All fields, in the order in which they are digested. -/
def all : List StateField :=
  [positionX, positionY, velocityX, velocityY, health, lives, score, status, typeId]

/-- Those that server and clients share. -/
def critical : List StateField := [positionX, positionY, health]

theorem mem_all (f : StateField) : f ∈ all := by
  cases f <;> decide

@[reducible] def Value : StateField → Type
  | positionX | positionY | velocityX | velocityY => Binary32
  | health => Int16
  | score => Int32
  | lives | status | typeId => UInt8

def write : (f : StateField) → f.Value → Bytes
  | positionX | positionY | velocityX | velocityY => Bytes.ofBinary32
  | health => Bytes.ofInt16
  | score => Bytes.ofInt32
  | lives | status | typeId => fun v => [v]

def width : StateField → ℕ
  | positionX | positionY | velocityX | velocityY | score => 4
  | health => 2
  | lives | status | typeId => 1

theorem width_le (f : StateField) : f.width ≤ 4 := by
  cases f <;> decide

theorem length_write (f : StateField) (v : f.Value) : (f.write v).length = f.width := by
  cases f <;> simp [write, width, Bytes.ofBinary32, Bytes.ofInt16, Bytes.ofInt32]

theorem write_inj {f : StateField} {v w : f.Value} (h : f.write v = f.write w) : v = w := by
  cases f with
  | positionX | positionY | velocityX | velocityY =>
    exact congrArg Binary32.mk (Bytes.be32_inj.1 h)
  | health => exact congrArg Int16.ofUInt16 (Bytes.be16_inj.1 h)
  | score => exact congrArg Int32.ofUInt32 (Bytes.be32_inj.1 h)
  | lives | status | typeId => exact (List.cons.inj h).1

/-- The bytes of a field that a state has or has not. -/
def written (f : StateField) (v : Option f.Value) : Bytes := (v.map f.write).getD []

theorem length_written_le (f : StateField) (v : Option f.Value) : (f.written v).length ≤ 4 := by
  cases v with
  | none => exact Nat.zero_le 4
  | some v => exact (f.length_write v).le.trans f.width_le

theorem length_written_eq {f : StateField} {v w : Option f.Value} (h : v.isSome = w.isSome) :
    (f.written v).length = (f.written w).length := by
  cases v <;> cases w
  · rfl
  · cases h
  · cases h
  · exact (f.length_write _).trans (f.length_write _).symm

theorem written_inj {f : StateField} {v w : Option f.Value} (hsome : v.isSome = w.isSome)
    (h : f.written v = f.written w) : v = w := by
  cases v <;> cases w
  · rfl
  · cases hsome
  · cases hsome
  · exact congrArg some (write_inj h)

end StateField

/-- A type of states by the values of the digested fields, in the order in which they
    are digested.  Which fields there are depends on the type only. -/
class Fielded (σ : Type) [EntityState σ] where
  value : σ → (f : StateField) → Option f.Value
  isSome_value : ∀ (s s' : σ) (f : StateField), (value s f).isSome = (value s' f).isSome
  fieldBytes_eq : ∀ s : σ, EntityState.fieldBytes s =
    StateField.all.flatMap fun f => f.written (value s f)
  criticalBytes_eq : ∀ s : σ, EntityState.criticalBytes s =
    StateField.critical.flatMap fun f => f.written (value s f)

namespace FullState

def value (s : FullState) : (f : StateField) → Option f.Value
  | .positionX => some s.position.x
  | .positionY => some s.position.y
  | .velocityX => some s.velocity.x
  | .velocityY => some s.velocity.y
  | .health => some s.health
  | .lives => some s.lives
  | .score => some s.score
  | .status => some s.status
  | .typeId => some s.typeId

end FullState

namespace CoreState

def value (s : CoreState) : (f : StateField) → Option f.Value
  | .positionX => some s.position.x
  | .positionY => some s.position.y
  | .velocityX => some s.velocity.x
  | .velocityY => some s.velocity.y
  | .health => some s.health
  | .lives | .score | .status | .typeId => none

end CoreState

instance : Fielded FullState where
  value := FullState.value
  isSome_value _ _ f := by cases f <;> rfl
  fieldBytes_eq s := by
    simp [EntityState.fieldBytes, EntityState.pointBytes, StateField.all, FullState.value,
      StateField.written, StateField.write]
  criticalBytes_eq s := by
    simp [EntityState.criticalBytes, EntityState.pointBytes, StateField.critical, FullState.value,
      StateField.written, StateField.write]

instance : Fielded CoreState where
  value := CoreState.value
  isSome_value _ _ f := by cases f <;> rfl
  fieldBytes_eq s := by
    simp [EntityState.fieldBytes, EntityState.pointBytes, StateField.all, CoreState.value,
      StateField.written, StateField.write]
  criticalBytes_eq s := by
    simp [EntityState.criticalBytes, EntityState.pointBytes, StateField.critical, CoreState.value,
      StateField.written, StateField.write]

namespace Fielded

variable {σ : Type} [EntityState σ] [Fielded σ]

/-- Two states differ in one field and in no other. -/
structure DiffersIn (f : StateField) (s s' : σ) : Prop where
  changed : value s' f ≠ value s f
  others : ∀ g, g ≠ f → value s' g = value s g

/-- The bytes of some fields. -/
def bytes (fs : List StateField) (s : σ) : Bytes :=
  fs.flatMap fun f => f.written (value s f)

/-- The values of some fields. -/
def values (fs : List StateField) (s : σ) (f : StateField) : Option f.Value :=
  if f ∈ fs then value s f else none

variable {fs : List StateField} {s s' : σ} {f : StateField}

theorem bytes_congr (h : ∀ g ∈ fs, value s' g = value s g) : bytes fs s' = bytes fs s :=
  List.flatMap_congr fun g hg => by rw [h g hg]

theorem length_bytes (fs : List StateField) (s s' : σ) :
    (bytes fs s).length = (bytes fs s').length := by
  induction fs with
  | nil => rfl
  | cons f fs ih =>
    simp only [bytes, List.flatMap_cons, List.length_append] at ih ⊢
    rw [StateField.length_written_eq (isSome_value s s' f), ih]

/-- **The bytes of some fields tell their values.** -/
theorem values_eq_of_bytes (h : bytes fs s = bytes fs s') : values fs s = values fs s' := by
  have hall : ∀ g ∈ fs, value s g = value s' g := by
    induction fs with
    | nil => simp
    | cons f fs ih =>
      simp only [bytes, List.flatMap_cons] at h
      obtain ⟨hfirst, hrest⟩ :=
        List.append_inj h (StateField.length_written_eq (isSome_value s s' f))
      intro g hg
      rcases List.mem_cons.1 hg with rfl | hg
      · exact StateField.written_inj (isSome_value s s' g) hfirst
      · exact ih hrest g hg
  funext g
  unfold values
  split_ifs with hg
  · exact hall g hg
  · rfl

theorem bytes_eq_values (fs : List StateField) (s : σ) :
    bytes fs s = fs.flatMap fun f => f.written (values fs s f) :=
  List.flatMap_congr fun f hf => by rw [values, if_pos hf]

/-! ## Streams -/

/-- Where every record has one length, the bytes tell the records. -/
theorem map_eq_of_flatMap {α β : Type} {write : α → Bytes} {g : α → β} (hpos : ∀ a, write a ≠ [])
    (hlen : ∀ a b, (write a).length = (write b).length)
    (hg : ∀ a b, write a = write b → g a = g b) {l l' : List α}
    (h : l.flatMap write = l'.flatMap write) : l.map g = l'.map g := by
  induction l generalizing l' with
  | nil =>
    cases l' with
    | nil => rfl
    | cons b l' => exact absurd (List.append_eq_nil_iff.1 h.symm).1 (hpos b)
  | cons a l ih =>
    cases l' with
    | nil => exact absurd (List.append_eq_nil_iff.1 h).1 (hpos a)
    | cons b l' =>
      obtain ⟨hfirst, hrest⟩ := List.append_inj h (hlen a b)
      rw [List.map_cons, List.map_cons, hg a b hfirst, ih hrest]

/-- A world by the values of some fields. -/
def restricted (fs : List StateField) (m : EntityMap σ) :
    EntityMap ((f : StateField) → Option f.Value) :=
  m.filterMap fun _ s => some (values fs s)

theorem get?_restricted (fs : List StateField) (m : EntityMap σ) (id : EntityId) :
    (restricted fs m).get? id = (m.get? id).map (values fs) := by
  rw [restricted, EntityMap.get?_filterMap]
  cases m.get? id <;> rfl

theorem entries_restricted (fs : List StateField) (m : EntityMap σ) :
    (restricted fs m).entries = m.entries.map fun p => (p.1, values fs p.2) :=
  m.entries_filterMap_some (values fs)

/-- **The bytes tell what is digested**: who is in the world, and the values of the
    fields that are read. -/
theorem stream_eq_iff {m m' : EntityMap σ} :
    Digest.stream (bytes fs) m = Digest.stream (bytes fs) m' ↔
      ∀ id, (m.get? id).map (values fs) = (m'.get? id).map (values fs) := by
  constructor
  · intro h id
    rw [← get?_restricted, ← get?_restricted]
    have hentries : m.entries.map (fun p => (p.1, values fs p.2)) =
        m'.entries.map fun p => (p.1, values fs p.2) := by
      refine map_eq_of_flatMap (fun p => ?_) (fun p q => ?_) (fun p q hpq => ?_) h
      · exact List.ne_nil_of_length_pos (by rw [List.length_append, Bytes.length_be32]; omega)
      · simp [length_bytes fs p.2 q.2]
      · obtain ⟨hid, hbytes⟩ := List.append_inj hpq (by simp)
        rw [Bytes.be32_inj.1 hid, values_eq_of_bytes hbytes]
    rw [EntityMap.get?, EntityMap.get?, entries_restricted, entries_restricted, hentries]
  · intro h
    have hsame : restricted fs m = restricted fs m' :=
      EntityMap.ext_get? fun id => by rw [get?_restricted, get?_restricted, h id]
    have hstream : ∀ m : EntityMap σ, Digest.stream (bytes fs) m =
        (restricted fs m).entries.flatMap fun p =>
          Bytes.be32 p.1 ++ fs.flatMap fun f => f.written (p.2 f) := by
      intro m
      rw [entries_restricted, List.flatMap_map, Digest.stream]
      exact List.flatMap_congr fun p _ => by rw [bytes_eq_values]
    rw [hstream, hstream, hsame]

/-- Two states that differ in one field have the same bytes but for a window. -/
theorem DiffersIn.exists_window (hd : DiffersIn f s s') (hfs : fs.Nodup) (hf : f ∈ fs) :
    ∃ front back, bytes fs s = front ++ f.written (value s f) ++ back ∧
      bytes fs s' = front ++ f.written (value s' f) ++ back := by
  obtain ⟨a, b, rfl⟩ := List.append_of_mem hf
  obtain ⟨hnot, -⟩ := List.nodup_cons.1 (List.nodup_middle.1 hfs)
  have ha : bytes a s' = bytes a s :=
    bytes_congr fun g hg => hd.others g fun he => hnot (List.mem_append_left b (he ▸ hg))
  have hb : bytes b s' = bytes b s :=
    bytes_congr fun g hg => hd.others g fun he => hnot (List.mem_append_right a (he ▸ hg))
  have hsplit : ∀ t : σ,
      bytes (a ++ f :: b) t = bytes a t ++ f.written (value t f) ++ bytes b t := by
    intro t
    simp [bytes]
  exact ⟨bytes a s, bytes b s, hsplit s, by rw [hsplit, ha, hb]⟩

/-- **A check value changes with one field** iff that field is read. -/
theorem crc32_stream_ne_iff (hfs : fs.Nodup) {m : EntityMap σ} {id : EntityId}
    (hs : m.get? id = some s) (hd : DiffersIn f s s') :
    crc32 (Digest.stream (bytes fs) (m.insert id s')) ≠ crc32 (Digest.stream (bytes fs) m) ↔
      f ∈ fs := by
  obtain ⟨before, after, hm, hm'⟩ := EntityMap.entries_insert hs s'
  rw [Digest.stream, Digest.stream, hm, hm']
  simp only [List.flatMap_append, List.flatMap_cons]
  constructor
  · intro hne
    by_contra hf
    refine hne ?_
    rw [bytes_congr fun g hg => hd.others g fun he => hf (he ▸ hg)]
  · intro hf hcrc
    obtain ⟨front, back, hbytes, hbytes'⟩ := hd.exists_window hfs hf
    -- only the window differs, and it is narrow enough
    have hframe : ∀ first window last : Bytes,
        first ++ (Bytes.be32 id ++ (front ++ window ++ back) ++ last) =
          first ++ Bytes.be32 id ++ front ++ window ++ (back ++ last) := by
      simp
    rw [hbytes, hbytes', hframe, hframe] at hcrc
    have hsome := isSome_value s' s f
    have hwindow := Crc32.window_eq (StateField.length_written_eq hsome)
      (f.length_written_le (value s' f)) hcrc
    exact hd.changed (StateField.written_inj hsome hwindow)

end Fielded

/-! ## Order -/

namespace Digest

variable {σ : Type}

/-- The bytes of a world that is met entity by entity, in any order: the ids are put
    in ascending order and each is looked up. -/
def gather (bytes : σ → Bytes) (l : List (EntityId × σ)) : Bytes :=
  ((l.map (·.1)).mergeSort fun a b => decide (a ≤ b)).flatMap fun id =>
    Bytes.be32 id ++ ((l.lookup id).map bytes).getD []

theorem stream_eq_ids (bytes : σ → Bytes) (m : EntityMap σ) :
    stream bytes m = m.ids.flatMap fun id => Bytes.be32 id ++ ((m.get? id).map bytes).getD [] := by
  rw [stream, EntityMap.ids, List.flatMap_map]
  exact List.flatMap_congr fun p hp => by rw [EntityMap.mem_entries.1 hp]; rfl

/-- **A world has the same bytes in whatever order it is met**, and in whatever order
    it was made. -/
theorem gather_eq_stream (bytes : σ → Bytes) {l l' : List (EntityId × σ)} (hperm : l.Perm l')
    (hnodup : (l.map (·.1)).Nodup) : gather bytes l = stream bytes (EntityMap.ofList l') := by
  have hne : l.Pairwise fun p q => p.1 ≠ q.1 := List.pairwise_map.1 hnodup
  have hne' : l'.Pairwise fun p q => p.1 ≠ q.1 := (hperm.pairwise_iff fun h => Ne.symm h).1 hne
  have hget : ∀ id, (EntityMap.ofList l').get? id = l.lookup id := by
    intro id
    ext a
    rw [EntityMap.get?_ofList hne', EntityMap.lookup_eq_some_iff hne',
      EntityMap.lookup_eq_some_iff hne, hperm.mem_iff]
  have hmem : ∀ id, id ∈ l.map (·.1) ↔ id ∈ (EntityMap.ofList l').ids := by
    intro id
    rw [EntityMap.mem_ids, EntityMap.contains_eq_true, List.mem_map]
    simp only [hget, EntityMap.lookup_eq_some_iff hne, Prod.exists, exists_and_right,
      exists_eq_right]
  have hasc := (EntityMap.ofList l').ids_ascending
  have hids : (l.map (·.1)).mergeSort (fun a b => decide (a ≤ b)) = (EntityMap.ofList l').ids :=
    mergeSort_of_ascending ((List.perm_ext_iff_of_nodup hnodup
      (hasc.imp UInt32.ne_of_lt)).2 hmem) hasc
  rw [gather, stream_eq_ids, hids]
  exact List.flatMap_congr fun id _ => by rw [hget]

/-- A digest of a type of states notices changes. -/
structure Notices (σ : Type) [EntityState σ] [Fielded σ] : Prop where
  full_ne : ∀ {m : EntityMap σ} {id : EntityId} {s s' : σ} {f : StateField}, m.get? id = some s →
    Fielded.DiffersIn f s s' → full (m.insert id s') ≠ full m
  /-- The critical digest changes exactly when a shared field has. -/
  critical_ne_iff : ∀ {m : EntityMap σ} {id : EntityId} {s s' : σ} {f : StateField},
    m.get? id = some s → Fielded.DiffersIn f s s' →
      (critical (m.insert id s') ≠ critical m ↔ f ∈ StateField.critical)
  /-- The digested bytes tell the world up to what is not digested. -/
  full_stream : ∀ m m' : EntityMap σ,
    stream EntityState.fieldBytes m = stream EntityState.fieldBytes m' ↔
      ∀ id, (m.get? id).map (Fielded.values StateField.all) =
        (m'.get? id).map (Fielded.values StateField.all)
  critical_stream : ∀ m m' : EntityMap σ,
    stream EntityState.criticalBytes m = stream EntityState.criticalBytes m' ↔
      ∀ id, (m.get? id).map (Fielded.values StateField.critical) =
        (m'.get? id).map (Fielded.values StateField.critical)
  /-- Neither the order in which the entities were put in nor that in which they are
      met counts. -/
  full_gather : ∀ l l' : List (EntityId × σ), l.Perm l' → (l.map (·.1)).Nodup →
    crc32 (gather EntityState.fieldBytes l) = full (EntityMap.ofList l')
  critical_gather : ∀ l l' : List (EntityId × σ), l.Perm l' → (l.map (·.1)).Nodup →
    crc32 (gather EntityState.criticalBytes l) = critical (EntityMap.ofList l')

theorem notices (σ : Type) [EntityState σ] [Fielded σ] : Notices σ := by
  have hfull : (EntityState.fieldBytes : σ → Bytes) = Fielded.bytes StateField.all :=
    funext Fielded.fieldBytes_eq
  have hcritical : (EntityState.criticalBytes : σ → Bytes) = Fielded.bytes StateField.critical :=
    funext Fielded.criticalBytes_eq
  constructor
  case full_ne =>
    intro m id s s' f hs hd
    rw [full, full, hfull, Fielded.crc32_stream_ne_iff (by decide) hs hd]
    exact f.mem_all
  case critical_ne_iff =>
    intro m id s s' f hs hd
    rw [critical, critical, hcritical, Fielded.crc32_stream_ne_iff (by decide) hs hd]
  case full_stream =>
    intro m m'
    rw [hfull, Fielded.stream_eq_iff]
  case critical_stream =>
    intro m m'
    rw [hcritical, Fielded.stream_eq_iff]
  case full_gather =>
    intro l l' hperm hnodup
    rw [gather_eq_stream _ hperm hnodup, full]
  case critical_gather =>
    intro l l' hperm hnodup
    rw [gather_eq_stream _ hperm hnodup, critical]

/-- **The digests notice changes**, on the server and on clients. -/
theorem changes_are_noticed : Notices FullState ∧ Notices CoreState := ⟨notices _, notices _⟩

/-- Among three, the points of one in the middle count only for the full digest, the health
    of the last for both; and it does not count who is met first. -/
theorem changes_are_noticed_points :
    let s : FullState := ⟨⟨⟨0⟩, ⟨0⟩⟩, ⟨⟨0⟩, ⟨0⟩⟩, 100, 3, 0, 0, 0, true⟩
    let moved : FullState := { s with position := ⟨.two, .one⟩, lives := 1 }
    let m := EntityMap.ofList [(7, moved), (2, s), (4, s)]
    m.ids = [2, 4, 7] ∧
      full (m.insert 4 { s with score := 10 }) ≠ full m ∧
      critical (m.insert 4 { s with score := 10 }) = critical m ∧
      full (m.insert 7 { moved with health := 99 }) ≠ full m ∧
      critical (m.insert 7 { moved with health := 99 }) ≠ critical m ∧
      crc32 (gather EntityState.fieldBytes [(4, s), (7, moved), (2, s)]) = full m := by
  intro s moved m
  obtain ⟨hfull, hcritical, -, -, hgather, -⟩ := changes_are_noticed.1
  have hs : m.get? 4 = some s := by decide +kernel
  have hmoved : m.get? 7 = some moved := by decide +kernel
  have hpoints : Fielded.DiffersIn .score s { s with score := 10 } :=
    ⟨by decide +kernel, fun g hg => by cases g <;> first | rfl | exact absurd rfl hg⟩
  have hhealth : Fielded.DiffersIn .health moved { moved with health := 99 } :=
    ⟨by decide +kernel, fun g hg => by cases g <;> first | rfl | exact absurd rfl hg⟩
  refine ⟨by decide +kernel, hfull hs hpoints, ?_, hfull hmoved hhealth,
    (hcritical hmoved hhealth).2 (by decide), hgather _ _ (by decide +kernel) (by decide +kernel)⟩
  by_contra hne
  exact absurd ((hcritical hs hpoints).1 hne) (by decide)

end Digest

end Netplay
