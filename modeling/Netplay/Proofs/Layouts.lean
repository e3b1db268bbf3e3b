/-
  Payloads of a fixed layout.

  Where every field has its place, a payload leaves no choice: a reader that is
  content with it has read the bytes that writing its value gives.  Readers with
  this property are taken apart field by field.  Conversely every byte string of
  the right length is a row of words, so it is the writing of some value, and all
  that a reader can still object to is what the value says.

  * `Reader.Retraces`: what is read is the front, as written;
  * `Topic.retraces`, `Topic.read_back`: the types of messages of a fixed layout;
  * `Snapshot.isSome_whole_iff`: which payloads are snapshots;
  * `InputPacket.exists_payload`, `InputPacket.decode_eq_some_iff`: which
    datagrams are input packets;
  * `InputPacket.framed`: how input packets and frames agree.
-/
import Netplay.Proofs.Delivery
import Netplay.Proofs.Frames

namespace Netplay

/-! ## Rows of words -/

namespace Bytes

theorem exists_append {k n : ℕ} {bs : Bytes} (h : bs.length = k + n) :
    ∃ front rest, bs = front ++ rest ∧ front.length = k ∧ rest.length = n := by
  refine ⟨bs.take k, bs.drop k, (List.take_append_drop k bs).symm, ?_, ?_⟩
  · rw [List.length_take, h, Nat.min_eq_left (Nat.le_add_right k n)]
  · rw [List.length_drop, h, Nat.add_sub_cancel_left]

theorem exists_be16_append {n : ℕ} {bs : Bytes} (h : bs.length = 2 + n) :
    ∃ w rest, bs = be16 w ++ rest ∧ rest.length = n := by
  obtain ⟨front, rest, rfl, hfront, hrest⟩ := exists_append h
  exact ⟨_, rest, by rw [be16_ofBigEndian hfront], hrest⟩

theorem exists_be32_append {n : ℕ} {bs : Bytes} (h : bs.length = 4 + n) :
    ∃ w rest, bs = be32 w ++ rest ∧ rest.length = n := by
  obtain ⟨front, rest, rfl, hfront, hrest⟩ := exists_append h
  exact ⟨_, rest, by rw [be32_ofBigEndian hfront], hrest⟩

theorem slice?_append {a b : Bytes} (rest : Bytes) {i n : ℕ} (ha : a.length = i)
    (hb : b.length = n) : (a ++ (b ++ rest)).slice? i n = some b := by
  subst ha hb
  rw [slice?_of_le (by simp), List.drop_left, List.take_left]

theorem word16At?_append {a : Bytes} (w : UInt16) (rest : Bytes) {i : ℕ} (ha : a.length = i) :
    (a ++ (be16 w ++ rest)).word16At? i = some w := by
  rw [word16At?, slice?_append rest ha (length_be16 w), Option.map_some, ofBigEndian_be16,
    UInt16.ofNat_toNat]

theorem word32At?_append {a : Bytes} (w : UInt32) (rest : Bytes) {i : ℕ} (ha : a.length = i) :
    (a ++ (be32 w ++ rest)).word32At? i = some w := by
  rw [word32At?, slice?_append rest ha (length_be32 w), Option.map_some, ofBigEndian_be32,
    UInt32.ofNat_toNat]

/-- The four bytes from a place on are there, and are the bits of a finite
    number. -/
def FiniteAt (bs : Bytes) (i : ℕ) : Prop :=
  ∃ w, bs.word32At? i = some w ∧ Binary32.isFinite ⟨w⟩ = true

theorem finiteAt_append {a : Bytes} (x : Binary32) (rest : Bytes) {i : ℕ} (ha : a.length = i) :
    FiniteAt (a ++ (ofBinary32 x ++ rest)) i ↔ x.isFinite = true := by
  rw [FiniteAt, ofBinary32, word32At?_append _ rest ha]
  constructor
  · rintro ⟨w, hw, hfinite⟩
    cases hw
    exact hfinite
  · intro hfinite
    exact ⟨_, rfl, hfinite⟩

end Bytes

/-! ## Readers that can be retraced -/

namespace Reader

variable {α β : Type}

/-- Whatever the reader reads, it has consumed what writing that gives. -/
def Retraces (r : Reader α) (write : α → Bytes) : Prop :=
  ∀ {bs rest : Bytes} {a : α}, r bs = (some a, rest) → bs = write a ++ rest

variable {r : Reader α} {write : α → Bytes}

theorem retraces_u16 : u16.Retraces Bytes.be16 := u16_eq_some

theorem retraces_u32 : u32.Retraces Bytes.be32 := u32_eq_some

theorem retraces_i16 : i16.Retraces Bytes.ofInt16 := by
  intro bs rest i h
  obtain ⟨w, mid, hw, hi⟩ := bind_eq_some h
  cases hi
  simpa [Bytes.ofInt16] using u16_eq_some hw

theorem retraces_f32 : f32.Retraces Bytes.ofBinary32 := by
  intro bs rest x h
  obtain ⟨w, mid, hw, hx⟩ := bind_eq_some h
  cases hx
  exact u32_eq_some hw

/-- The first field of several. -/
theorem Retraces.bind (hr : r.Retraces write) {f : α → Reader β} {bs rest : Bytes} {b : β}
    (h : (r >>= f) bs = (some b, rest)) :
    ∃ a mid, bs = write a ++ mid ∧ f a mid = (some b, rest) := by
  obtain ⟨a, mid, ha, hb⟩ := bind_eq_some h
  exact ⟨a, mid, hr ha, hb⟩

/-- Values in a row. -/
theorem Retraces.times (hr : r.Retraces write) {n : ℕ} {done l : List α} {bs rest : Bytes}
    (h : timesOnto r n done bs = (some l, rest)) :
    ∃ l', l = done.reverse ++ l' ∧ l'.length = n ∧ bs = l'.flatMap write ++ rest := by
  induction n generalizing done bs with
  | zero =>
    cases h
    exact ⟨[], by simp⟩
  | succ n ih =>
    obtain ⟨a, mid, rfl, hrest⟩ := hr.bind h
    obtain ⟨l', rfl, hlength, rfl⟩ := ih hrest
    exact ⟨a :: l', by simp, by simp [hlength], by simp⟩

theorem Retraces.whole (hr : r.Retraces write) {bs : Bytes} {a : α} (h : r.whole bs = some a) :
    write a = bs := by
  rw [hr (whole_eq_some.1 h), List.append_nil]

theorem Retraces.whole_inj (hr : r.Retraces write) {bs bs' : Bytes} {a : α}
    (h : r.whole bs = some a) (h' : r.whole bs' = some a) : bs = bs' :=
  (hr.whole h).symm.trans (hr.whole h')

end Reader

/-! ## Messages of a fixed layout -/

open Reader (Retraces retraces_u16 retraces_u32 retraces_i16 retraces_f32)

theorem StateChecksum.retraces :
    Retraces (Message.read (μ := StateChecksum)) Message.write := by
  intro bs rest m h
  obtain ⟨tick, bs₁, rfl, h₁⟩ := retraces_u32.bind h
  obtain ⟨checksum, bs₂, rfl, h₂⟩ := retraces_u32.bind h₁
  obtain ⟨criticalChecksum, bs₃, rfl, h₃⟩ := retraces_u32.bind h₂
  obtain ⟨entityCount, bs₄, rfl, h₄⟩ := retraces_u16.bind h₃
  cases h₄
  simp [Message.write]

theorem RollbackRequest.retraces :
    Retraces (Message.read (μ := RollbackRequest)) Message.write := by
  intro bs rest m h
  obtain ⟨targetTick, bs₁, rfl, h₁⟩ := retraces_u32.bind h
  obtain ⟨currentTick, bs₂, rfl, h₂⟩ := retraces_u32.bind h₁
  split_ifs at h₂
  · cases h₂
  · cases h₂
    simp [Message.write]

theorem DesyncReport.retraces :
    Retraces (Message.read (μ := DesyncReport)) Message.write := by
  intro bs rest m h
  obtain ⟨tick, bs₁, rfl, h₁⟩ := retraces_u32.bind h
  obtain ⟨expected, bs₂, rfl, h₂⟩ := retraces_u32.bind h₁
  obtain ⟨actual, bs₃, rfl, h₃⟩ := retraces_u32.bind h₂
  cases h₃
  simp [Message.write]

theorem RoomCreated.retraces :
    Retraces (Message.read (μ := RoomCreated)) Message.write := by
  intro bs rest m h
  obtain ⟨roomId, bs₁, rfl, h₁⟩ := retraces_u32.bind h
  obtain ⟨port, bs₂, rfl, h₂⟩ := retraces_u16.bind h₁
  cases h₂
  simp [Message.write]

theorem JoinSuccess.retraces :
    Retraces (Message.read (μ := JoinSuccess)) Message.write := by
  intro bs rest m h
  obtain ⟨roomId, bs₁, rfl, h₁⟩ := retraces_u32.bind h
  obtain ⟨port, bs₂, rfl, h₂⟩ := retraces_u16.bind h₁
  cases h₂
  simp [Message.write]

/-- A message without fields. -/
theorem Reader.retraces_pure {α : Type} {a : α} {write : α → Bytes} (hwrite : write a = []) :
    Retraces (pure a) write := by
  intro bs rest b h
  cases h
  rw [hwrite, List.nil_append]

theorem Sighting.retraces : Retraces read write := by
  intro bs rest s h
  obtain ⟨id, bs₁, rfl, h₁⟩ := retraces_u32.bind h
  obtain ⟨x, bs₂, rfl, h₂⟩ := retraces_f32.bind h₁
  obtain ⟨y, bs₃, rfl, h₃⟩ := retraces_f32.bind h₂
  obtain ⟨health, bs₄, rfl, h₄⟩ := retraces_i16.bind h₃
  split_ifs at h₄
  · cases h₄
    simp [write]
  · cases h₄

namespace Snapshot

/-- A count has two bytes, so what is read is not cut when it is written again. -/
theorem read_eq_some {bs rest : Bytes} {m : Snapshot}
    (h : (Message.read (μ := Snapshot)) bs = (some m, rest)) :
    m.entities.length ≤ Bytes.maxPrefixed ∧ bs = Message.write m ++ rest := by
  obtain ⟨playerEntity, bs₁, rfl, h₁⟩ := retraces_u32.bind h
  obtain ⟨lastInputSequence, bs₂, rfl, h₂⟩ := retraces_u16.bind h₁
  obtain ⟨count, bs₃, rfl, h₃⟩ := retraces_u16.bind h₂
  rw [Reader.remaining_bind] at h₃
  split_ifs at h₃
  · cases h₃
  · obtain ⟨entities, bs₄, hlist, h₄⟩ := Reader.bind_eq_some h₃
    obtain ⟨l, hl, hlength, rfl⟩ := Sighting.retraces.times hlist
    rw [List.reverse_nil, List.nil_append] at hl
    subst hl
    have hle : entities.length ≤ Bytes.maxPrefixed := by
      have hlt := count.toNat_lt
      rw [hlength, Bytes.maxPrefixed]
      omega
    have hall : entities.take Bytes.maxPrefixed = entities := List.take_of_length_le hle
    cases h₄
    exact ⟨hle, by simp [Message.write, hall, hlength]⟩

theorem retraces : Retraces (Message.read (μ := Snapshot)) Message.write :=
  fun h => (read_eq_some h).2

end Snapshot

namespace Topic

/-- The types of messages whose fields have their places: there is no text, and a
    list only if its length is stated and its entries are of one size. -/
def isFixed : Topic → Bool
  | stateChecksum | rollbackRequest | desyncReport | ping | pong | listRooms | roomCreated
  | joinSuccess | snapshot => true
  | roomList | createRoom | joinRoom | joinFailed => false

theorem retraces {t : Topic} (ht : t.isFixed = true) :
    Retraces (Message.read (μ := t.Content)) Message.write := by
  cases t with
  | stateChecksum => exact StateChecksum.retraces
  | rollbackRequest => exact RollbackRequest.retraces
  | desyncReport => exact DesyncReport.retraces
  | ping | pong | listRooms => exact Reader.retraces_pure rfl
  | roomCreated => exact RoomCreated.retraces
  | joinSuccess => exact JoinSuccess.retraces
  | snapshot => exact Snapshot.retraces
  | roomList | createRoom | joinRoom | joinFailed => cases ht

end Topic

/-! ## Which payloads are snapshots -/

namespace Sighting

/-- The coordinates of the entity that stands at a place are finite. -/
def FiniteAt (bs : Bytes) (i : ℕ) : Prop := bs.FiniteAt (i + 4) ∧ bs.FiniteAt (i + 8)

theorem exists_write {n : ℕ} {bs : Bytes} (h : bs.length = wireSize + n) :
    ∃ s rest, bs = write s ++ rest ∧ rest.length = n := by
  have hsize : wireSize + n = 4 + (4 + (4 + (2 + n))) := by
    rw [wireSize]
    omega
  rw [hsize] at h
  obtain ⟨id, bs₁, rfl, h₁⟩ := Bytes.exists_be32_append h
  obtain ⟨x, bs₂, rfl, h₂⟩ := Bytes.exists_be32_append h₁
  obtain ⟨y, bs₃, rfl, h₃⟩ := Bytes.exists_be32_append h₂
  obtain ⟨health, rest, rfl, hrest⟩ := Bytes.exists_be16_append h₃
  refine ⟨⟨id, ⟨⟨x⟩, ⟨y⟩⟩, health.toInt16⟩, rest, ?_, hrest⟩
  simp [write, Bytes.ofBinary32, Bytes.ofInt16]

theorem exists_flatMap_write {n : ℕ} {bs : Bytes} (h : bs.length = n * wireSize) :
    ∃ l : List Sighting, bs = l.flatMap write ∧ l.length = n := by
  induction n generalizing bs with
  | zero =>
    rw [Nat.zero_mul] at h
    exact ⟨[], List.eq_nil_of_length_eq_zero h, rfl⟩
  | succ n ih =>
    rw [Nat.succ_mul, Nat.add_comm] at h
    obtain ⟨s, rest, rfl, hrest⟩ := exists_write h
    obtain ⟨l, rfl, hlength⟩ := ih hrest
    exact ⟨s :: l, rfl, congrArg (· + 1) hlength⟩

theorem finiteAt_append {a : Bytes} (s : Sighting) (rest : Bytes) {i : ℕ} (ha : a.length = i) :
    FiniteAt (a ++ (s.write ++ rest)) i ↔ s.position.isFinite = true := by
  have hx : a ++ (s.write ++ rest) = (a ++ Bytes.be32 s.id) ++ (Bytes.ofBinary32 s.position.x ++
      (Bytes.ofBinary32 s.position.y ++ (Bytes.ofInt16 s.health ++ rest))) := by
    simp [write]
  have hy : a ++ (s.write ++ rest) =
      (a ++ (Bytes.be32 s.id ++ Bytes.ofBinary32 s.position.x)) ++
        (Bytes.ofBinary32 s.position.y ++ (Bytes.ofInt16 s.health ++ rest)) := by
    simp [write]
  have hfirst : (a ++ Bytes.be32 s.id).length = i + 4 := by simp [ha]
  have hsecond : (a ++ (Bytes.be32 s.id ++ Bytes.ofBinary32 s.position.x)).length = i + 8 := by
    simp [ha, Bytes.ofBinary32]
  rw [FiniteAt, Vec2.isFinite, Bool.and_eq_true]
  refine and_congr ?_ ?_
  · rw [hx, Bytes.finiteAt_append _ _ hfirst]
  · rw [hy, Bytes.finiteAt_append _ _ hsecond]

/-- The entities of a list stand one after the other. -/
theorem all_finite_iff {a : Bytes} {l : List Sighting} :
    (l.all fun e => e.position.isFinite) = true ↔
      ∀ i < l.length, FiniteAt (a ++ l.flatMap write) (a.length + i * wireSize) := by
  induction l generalizing a with
  | nil => simp
  | cons s rest ih =>
    have hassoc : a ++ (s :: rest).flatMap write = (a ++ s.write) ++ rest.flatMap write := by simp
    have hplace : ∀ i, (a ++ s.write).length + i * wireSize = a.length + (i + 1) * wireSize := by
      intro i
      rw [List.length_append, length_write, Nat.succ_mul]
      omega
    rw [List.all_cons, Bool.and_eq_true, ih (a := a ++ s.write), List.length_cons,
      Nat.forall_lt_succ_left, ← hassoc]
    refine and_congr ?_ (forall₂_congr fun i _ => by rw [hplace])
    rw [Nat.zero_mul, Nat.add_zero, List.flatMap_cons, finiteAt_append s _ rfl]

end Sighting

namespace Snapshot

/-- A payload that is as long as it announces is the writing of a snapshot. -/
theorem exists_write {b : Bytes} {count : UInt16} (hcount : b.word16At? 6 = some count)
    (hlength : b.length = 8 + count.toNat * Sighting.wireSize) :
    ∃ m : Snapshot, m.entities.length = count.toNat ∧ b = Message.write m := by
  have hsize : 8 + count.toNat * Sighting.wireSize =
      4 + (2 + (2 + count.toNat * Sighting.wireSize)) := by omega
  rw [hsize] at hlength
  obtain ⟨playerEntity, bs₁, rfl, h₁⟩ := Bytes.exists_be32_append hlength
  obtain ⟨lastInputSequence, bs₂, rfl, h₂⟩ := Bytes.exists_be16_append h₁
  obtain ⟨count', bs₃, rfl, h₃⟩ := Bytes.exists_be16_append h₂
  obtain ⟨l, rfl, hl⟩ := Sighting.exists_flatMap_write h₃
  rw [← List.append_assoc, Bytes.word16At?_append count' _ (by simp)] at hcount
  obtain rfl := Option.some.inj hcount
  refine ⟨⟨playerEntity, lastInputSequence, l⟩, hl, ?_⟩
  have hall : l.take Bytes.maxPrefixed = l := by
    refine List.take_of_length_le ?_
    have hlt := count'.toNat_lt
    rw [hl, Bytes.maxPrefixed]
    omega
  simp [Message.write, hall, hl]

/-- What stands where in the payload of a snapshot. -/
theorem places_write {m : Snapshot} (h : m.entities.length ≤ Bytes.maxPrefixed) :
    (Message.write m).length = 8 + m.entities.length * Sighting.wireSize ∧
      (Message.write m).word16At? 6 = some (UInt16.ofNat m.entities.length) ∧
      ((m.entities.all fun e => e.position.isFinite) = true ↔ ∀ i < m.entities.length,
        Sighting.FiniteAt (Message.write m) (8 + i * Sighting.wireSize)) := by
  have hwrite : Message.write m = (Bytes.be32 m.playerEntity ++ Bytes.be16 m.lastInputSequence ++
      Bytes.be16 (UInt16.ofNat m.entities.length)) ++ m.entities.flatMap Sighting.write := by
    simp [Message.write, List.take_of_length_le h]
  refine ⟨?_, ?_, ?_⟩
  · rw [hwrite, List.length_append, Sighting.length_flatMap_write]
    simp
  · rw [hwrite, List.append_assoc _ (Bytes.be16 _), Bytes.word16At?_append _ _ (by simp)]
  · rw [hwrite]
    exact Sighting.all_finite_iff

/-- **Which payloads are snapshots**: those that are as long as they announce, with
    finite coordinates all through. -/
theorem isSome_whole_iff (b : Bytes) :
    (∃ m, (Message.read (μ := Snapshot)).whole b = some m) ↔
      ∃ count, b.word16At? 6 = some count ∧ b.length = 8 + count.toNat * Sighting.wireSize ∧
        ∀ i < count.toNat, Sighting.FiniteAt b (8 + i * Sighting.wireSize) := by
  have hwhole : ∀ {m : Snapshot}, m.entities.length ≤ Bytes.maxPrefixed →
      ((∃ m', (Message.read (μ := Snapshot)).whole (Message.write m) = some m') ↔
        (m.entities.all fun e => e.position.isFinite) = true) := by
    intro m hm
    rw [whole_write hm]
    split_ifs with hfinite <;> simp [hfinite]
  constructor
  · rintro ⟨m, hm⟩
    obtain ⟨hle, hb⟩ := read_eq_some (Reader.whole_eq_some.1 hm)
    rw [List.append_nil] at hb
    subst hb
    obtain ⟨hlength, hcount, hfinite⟩ := places_write hle
    have hword : (UInt16.ofNat m.entities.length).toNat = m.entities.length :=
      UInt16.toNat_ofNat_of_lt' (Nat.lt_succ_of_le hle)
    refine ⟨_, hcount, ?_, ?_⟩
    · rw [hword, hlength]
    · rw [hword]
      exact hfinite.1 ((hwhole hle).1 ⟨m, hm⟩)
  · rintro ⟨count, hcount, hlength, hfinite⟩
    obtain ⟨m, hm, rfl⟩ := exists_write hcount hlength
    have hle : m.entities.length ≤ Bytes.maxPrefixed := by
      have hlt := count.toNat_lt
      rw [hm, Bytes.maxPrefixed]
      omega
    rw [hwhole hle, (places_write hle).2.2, hm]
    exact hfinite

end Snapshot

/-- **A payload of a fixed layout is written again as it was read**, so no two of
    them are the same message.  What is a snapshot can be said without reading:
    eight bytes and fourteen for each entity that the seventh and the eighth
    announce, each of these with finite coordinates. -/
theorem Topic.read_back :
    (∀ t : Topic, t.isFixed = true → ∀ b m,
      (Message.read (μ := t.Content)).whole b = some m → Message.write m = b) ∧
    (∀ t : Topic, t.isFixed = true → ∀ b b' m,
      (Message.read (μ := t.Content)).whole b = some m →
      (Message.read (μ := t.Content)).whole b' = some m → b = b') ∧
    ∀ b, (∃ m, (Message.read (μ := Snapshot)).whole b = some m) ↔
      ∃ count, b.word16At? 6 = some count ∧ b.length = 8 + 14 * count.toNat ∧
        ∀ i < count.toNat, b.FiniteAt (8 + 14 * i + 4) ∧ b.FiniteAt (8 + 14 * i + 8) := by
  refine ⟨fun t ht b m => Retraces.whole (Topic.retraces ht),
    fun t ht b b' m => Retraces.whole_inj (Topic.retraces ht), fun b => ?_⟩
  simp only [Nat.mul_comm 14]
  exact Snapshot.isSome_whole_iff b

/-! ## Which datagrams are input packets -/

namespace InputPacket

theorem exists_payload (h : Header) {bs : Bytes} (hlength : bs.length = payloadSize) :
    ∃ p : InputPacket, p.header = h ∧ p.payload = bs := by
  have hsize : payloadSize = 4 + (2 + (4 + (4 + (4 + 0)))) := rfl
  rw [hsize] at hlength
  obtain ⟨playerId, bs₁, rfl, h₁⟩ := Bytes.exists_be32_append hlength
  obtain ⟨buttons, bs₂, rfl, h₂⟩ := Bytes.exists_be16_append h₁
  obtain ⟨x, bs₃, rfl, h₃⟩ := Bytes.exists_be32_append h₂
  obtain ⟨y, bs₄, rfl, h₄⟩ := Bytes.exists_be32_append h₃
  obtain ⟨angle, bs₅, rfl, h₅⟩ := Bytes.exists_be32_append h₄
  obtain rfl := List.eq_nil_of_length_eq_zero h₅
  exact ⟨⟨h, playerId, ⟨buttons⟩, ⟨⟨x⟩, ⟨y⟩⟩, ⟨angle⟩⟩, rfl, by simp [payload, Bytes.ofBinary32]⟩

/-- The numbers of a packet are finite. -/
def isFinite (p : InputPacket) : Bool := p.position.isFinite && p.angle.isFinite

theorem finiteAt_payload (p : InputPacket) :
    (∀ i ∈ [6, 10, 14], p.payload.FiniteAt i) ↔ p.isFinite = true := by
  have hx : p.payload = (Bytes.be32 p.playerId ++ Bytes.be16 p.buttons.bits) ++
      (Bytes.ofBinary32 p.position.x ++ (Bytes.ofBinary32 p.position.y ++
        Bytes.ofBinary32 p.angle)) := by
    simp [payload]
  have hy : p.payload = (Bytes.be32 p.playerId ++ Bytes.be16 p.buttons.bits ++
      Bytes.ofBinary32 p.position.x) ++ (Bytes.ofBinary32 p.position.y ++
        Bytes.ofBinary32 p.angle) := by
    simp [payload]
  have hangle : p.payload = (Bytes.be32 p.playerId ++ Bytes.be16 p.buttons.bits ++
      Bytes.ofBinary32 p.position.x ++ Bytes.ofBinary32 p.position.y) ++
        (Bytes.ofBinary32 p.angle ++ []) := by
    simp [payload]
  have h6 : p.payload.FiniteAt 6 ↔ p.position.x.isFinite = true := by
    rw [hx, Bytes.finiteAt_append _ _ (by simp)]
  have h10 : p.payload.FiniteAt 10 ↔ p.position.y.isFinite = true := by
    rw [hy, Bytes.finiteAt_append _ _ (by simp [Bytes.ofBinary32])]
  have h14 : p.payload.FiniteAt 14 ↔ p.angle.isFinite = true := by
    rw [hangle, Bytes.finiteAt_append _ _ (by simp [Bytes.ofBinary32])]
  simp [h6, h10, h14, isFinite, Vec2.isFinite, and_assoc]

theorem whole_read_payload (p : InputPacket) :
    (read p.header).whole p.payload = if p.isFinite then some p else none := read_payload p.header p

theorem length_of_frame {d : Bytes} {h : Header} {payload : Bytes}
    (hd : Frame.decode d = .ok ⟨h, payload⟩) :
    d.length = headerSize + payload.length + trailerSize := by
  obtain ⟨-, -, rfl⟩ := Frame.decode_eq_ok_iff.1 hd
  rw [Frame.sealed, List.length_append, List.length_append, Header.length_encode,
    Bytes.length_be32, trailerSize]

/-- **What is read as an input packet**: the frame of its header and its payload, of
    its kind and direction, with finite numbers. -/
theorem decode_eq_some_iff {d : Bytes} {p : InputPacket} :
    decode d = some p ↔ Frame.decode d = .ok ⟨p.header, p.payload⟩ ∧
      p.header.messageType = .input ∧ p.header.direction = .clientToServer ∧
      p.isFinite = true := by
  constructor
  · intro h
    unfold decode at h
    split_ifs at h with hlength
    split at h
    · cases h
    · rename_i f hf
      split_ifs at h with hkind
      obtain ⟨htype, hdirection, hsize⟩ := hkind
      have hpayload : f.payload.length = payloadSize := by
        rw [← (Frame.decode_eq_ok_iff.1 hf).2.1, hsize]
      obtain ⟨q, hheader, hq⟩ := exists_payload f.header hpayload
      rw [← hheader, ← hq, whole_read_payload] at h
      split_ifs at h with hfinite
      cases h
      rw [hheader, hq]
      exact ⟨hf, htype, hdirection, hfinite⟩
  · rintro ⟨hf, htype, hdirection, hfinite⟩
    have hsize : p.header.payloadSize.toNat = payloadSize := by
      rw [(Frame.decode_eq_ok_iff.1 hf).2.1, length_payload]
    have hlength : d.length = size := by
      rw [length_of_frame hf, length_payload, size]
    rw [decode, if_neg (not_not.2 hlength), hf]
    exact (if_pos ⟨htype, hdirection, hsize⟩).trans ((whole_read_payload p).trans (if_pos hfinite))

/-- The datagram of a packet is the frame of its payload. -/
theorem frame_encode (p : InputPacket) :
    Frame.encode { p.header with
      direction := .clientToServer, messageType := .input, compressed := false } p.payload =
        .ok p.encode := by
  have hsize : UInt16.ofNat p.payload.length = 18 := by rw [length_payload]; rfl
  have hfits : p.payload.length ≤ Frame.maxPayload := by rw [length_payload]; decide
  rw [Frame.encode, if_pos hfits, hsize]
  rfl

theorem normalize_eq_self {h : Header} (htype : h.messageType = .input)
    (hdirection : h.direction = .clientToServer) (hcompressed : h.compressed = false)
    (hsize : h.payloadSize = 18) (horiginal : h.originalSize = 18) : normalize h = h := by
  obtain ⟨version, _, _, _, sequence, tick, _, _⟩ := h
  subst htype hdirection hcompressed hsize horiginal
  rfl

/-- **What was read is written again as it was** if its header is one of those that
    writing gives. -/
theorem encode_eq_iff {d : Bytes} {p : InputPacket} (h : decode d = some p) :
    p.encode = d ↔ p.header.compressed = false ∧ p.header.originalSize = 18 := by
  obtain ⟨hf, htype, hdirection, -⟩ := decode_eq_some_iff.1 h
  obtain ⟨hversion, hsize, hd⟩ := Frame.decode_eq_ok_iff.1 hf
  have hsize' : p.header.payloadSize = 18 := by
    rw [length_payload] at hsize
    exact UInt16.toNat_inj.1 hsize
  constructor
  · intro he
    have hf' := frame_of_encode (p := p) (by rw [hversion, Header.ownVersion_masked])
    rw [he, hf] at hf'
    have hheader : p.header = { normalize p.header with version := protocolVersion } :=
      congrArg Frame.header (Except.ok.inj hf')
    exact ⟨by rw [hheader]; rfl, by rw [hheader]; rfl⟩
  · rintro ⟨hcompressed, horiginal⟩
    rw [encode, normalize_eq_self htype hdirection hcompressed hsize' horiginal, hd]

/-- **Input packets and frames agree.**  A packet is written as the frame of its
    eighteen bytes, and comes back behind the header that it was written with, bit
    for bit.  What is read is any frame of that length, kind and direction with
    finite numbers; it is the packet that the frame carries, and the one datagram
    that the packet is written as, unless the frame is marked as compressed or
    states another original size. -/
theorem framed :
    (∀ p : InputPacket, p.position.isFinite = true → p.angle.isFinite = true →
      p.header.version &&& 127 = 1 →
      Frame.encode { p.header with
        direction := .clientToServer, messageType := .input, compressed := false } p.payload =
          .ok p.encode ∧
      p.payload.length = 18 ∧
      decode p.encode = some { p with header := { p.header with
        version := 1, direction := .clientToServer, messageType := .input, compressed := false,
        payloadSize := 18, originalSize := 18 } }) ∧
    (∀ d, (∃ p, decode d = some p) ↔ d.length = 37 ∧ ∃ h payload,
      Frame.decode d = .ok ⟨h, payload⟩ ∧ h.messageType = .input ∧
        h.direction = .clientToServer ∧ ∀ i ∈ [6, 10, 14], payload.FiniteAt i) ∧
    ∀ d p, decode d = some p → Frame.decode d = .ok ⟨p.header, p.payload⟩ ∧
      (p.encode = d ↔ p.header.compressed = false ∧ p.header.originalSize = 18) := by
  refine ⟨fun p hposition hangle hversion => ⟨frame_encode p, length_payload p, ?_⟩, fun d => ?_,
    fun d p h => ⟨(decode_eq_some_iff.1 h).1, encode_eq_iff h⟩⟩
  · have hfinite : p.position.x.isFinite && p.position.y.isFinite && p.angle.isFinite := by
      rw [Vec2.isFinite] at hposition
      rw [hposition, hangle, Bool.and_true]
    rw [decode_encode hversion, if_pos hfinite]
    rfl
  · constructor
    · rintro ⟨p, hp⟩
      obtain ⟨hf, htype, hdirection, hfinite⟩ := decode_eq_some_iff.1 hp
      refine ⟨?_, p.header, p.payload, hf, htype, hdirection, (finiteAt_payload p).2 hfinite⟩
      rw [length_of_frame hf, length_payload]
      rfl
    · rintro ⟨hlength, h, payload, hf, htype, hdirection, hfinite⟩
      have hpayload : payload.length = payloadSize := by
        have hall := length_of_frame hf
        rw [hlength, headerSize, trailerSize] at hall
        rw [payloadSize]
        omega
      obtain ⟨p, rfl, rfl⟩ := exists_payload h hpayload
      exact ⟨p, decode_eq_some_iff.2 ⟨hf, htype, hdirection, (finiteAt_payload p).1 hfinite⟩⟩

/-- A packet under a header that is none of an input packet's, with buttons that do
    not exist and a negative zero. -/
def unusual : InputPacket :=
  { header := { version := 0x81, compressed := true, direction := .serverToClient,
                messageType := .snapshot, sequence := 9, originalSize := 99 }
    playerId := 7
    buttons := ⟨0xffff⟩
    position := ⟨⟨0x80000000⟩, .one⟩
    angle := .two }

/-- Its datagram, but marked as compressed. -/
def marked : Bytes :=
  Frame.sealed ({ normalize unusual.header with version := 1, compressed := true }.encode ++
    unusual.payload)

/-- The packet comes back; of the marked datagram the packet comes back as well, but
    not the datagram. -/
theorem framed_unusual :
    (decode unusual.encode).map payload = some unusual.payload ∧
      ∃ p, decode marked = some p ∧ p.payload = unusual.payload ∧ p.encode ≠ marked := by
  obtain ⟨hwrite, hread, hback⟩ := framed
  have hmarked : Frame.decode marked = .ok ⟨{ normalize unusual.header with
      version := 1, compressed := true }, unusual.payload⟩ := Frame.decode_sealed rfl rfl
  refine ⟨?_, ?_⟩
  · rw [(hwrite unusual (by decide) (by decide) (by decide)).2.2]
    rfl
  · obtain ⟨p, hp⟩ := (hread marked).2
      ⟨by decide +kernel, _, _, hmarked, rfl, rfl, (finiteAt_payload unusual).2 (by decide)⟩
    obtain ⟨hframe, hsame⟩ := hback marked p hp
    rw [hmarked] at hframe
    obtain ⟨hheader, hpayload⟩ := Frame.mk.inj (Except.ok.inj hframe)
    refine ⟨p, hp, hpayload.symm, fun he => ?_⟩
    have hclear := (hsame.1 he).1
    rw [← hheader] at hclear
    cases hclear

end InputPacket

end Netplay
