/-
  Dumps, read again.

  A dump is as long as its root says, and its records lie where its root says,
  so what is read is what was written.  Whether a state was captured is not
  written, and what is read counts as captured.

  * `Dump.readRecord_writeRecord`, `Dump.readRoot_writeRoot`: the parts;
  * `Dump.decode_encode`: the whole;
  * `Dump.decode_ofRecorded`: a dumped world is the recorded one.
-/
import Netplay.Proofs.Delivery
import Netplay.Proofs.Maps
import Netplay.Timeline.Dump

namespace Netplay

namespace Reader

variable {α β : Type}

/-- Values that are written in a row are read in a row. -/
theorem timesOnto_written {r : Reader β} {write : α → Bytes} {value : α → β}
    (h : ∀ a rest, r (write a ++ rest) = (some (value a), rest)) (l : List α) (done : List β)
    (rest : Bytes) : timesOnto r l.length done (l.flatMap write ++ rest) =
      (some (done.reverse ++ l.map value), rest) := by
  induction l generalizing done with
  | nil => simp [timesOnto]
  | cons a l ih =>
    rw [List.flatMap_cons, List.append_assoc, List.length_cons, timesOnto, bind_of_some (h a _), ih]
    simp

theorem times_written {r : Reader β} {write : α → Bytes} {value : α → β}
    (h : ∀ a rest, r (write a ++ rest) = (some (value a), rest)) (l : List α) (rest : Bytes) :
    times l.length r (l.flatMap write ++ rest) = (some (l.map value), rest) :=
  timesOnto_written h l [] rest

end Reader

namespace Dump

/-! ## Words -/

section

variable {β : Type} (rest : Bytes)

theorem readLittle_littleEndian (w n : ℕ) :
    readLittle w (Bytes.littleEndian w n ++ rest) = (some (n % 256 ^ w), rest) := by
  rw [readLittle, Reader.bind_of_some (Reader.take_append _ rest (Bytes.length_littleEndian w n)),
    Bytes.ofLittleEndian_littleEndian]
  rfl

theorem readLittle_bind (w n : ℕ) {k : ℕ} (hk : n % 256 ^ w = k) (f : ℕ → Reader β) :
    (readLittle w >>= f) (Bytes.littleEndian w n ++ rest) = f k rest :=
  hk ▸ Reader.bind_of_some (readLittle_littleEndian rest w n) f

theorem readLittle_le32 (w : UInt32) (f : ℕ → Reader β) :
    (readLittle 4 >>= f) (le32 w ++ rest) = f w.toNat rest :=
  readLittle_bind rest 4 w.toNat (Nat.mod_eq_of_lt w.toNat_lt) f

theorem readLittle_half (w : UInt16) (f : ℕ → Reader β) :
    (readLittle 2 >>= f) (Bytes.littleEndian 2 w.toNat ++ rest) = f w.toNat rest :=
  readLittle_bind rest 2 w.toNat (Nat.mod_eq_of_lt w.toNat_lt) f

theorem readBinary32_bind (a : Binary32) (f : Binary32 → Reader β) :
    (readBinary32 >>= f) (le32 a.bits ++ rest) = f a rest := by
  have h : readBinary32 (le32 a.bits ++ rest) = (some a, rest) := by
    rw [readBinary32, readLittle_le32, UInt32.ofNat_toNat]
    rfl
  exact Reader.bind_of_some h f

theorem take_one_bind (b : UInt8) (f : Bytes → Reader β) :
    (Reader.take 1 >>= f) (b :: rest) = f [b] rest :=
  Reader.bind_of_some (Reader.take_append [b] rest rfl) f

theorem take_two_bind (b b' : UInt8) (f : Bytes → Reader β) :
    (Reader.take 2 >>= f) (b :: b' :: rest) = f [b, b'] rest :=
  Reader.bind_of_some (Reader.take_append [b, b'] rest rfl) f

end

/-! ## Records and roots -/

@[simp] theorem length_le32 (w : UInt32) : (le32 w).length = 4 := Bytes.length_littleEndian 4 _

@[simp] theorem length_writeRecord (p : EntityId × FullState) :
    (writeRecord p).length = recordSize := by
  simp [writeRecord, recordSize]

@[simp] theorem length_writeRoot (tick : UInt64) (checksum : UInt32) (count : ℕ) :
    (writeRoot tick checksum count).length = rootSize := by
  simp [writeRoot, rootSize]

/-- A record as it is read: it counts as captured. -/
def marked (p : EntityId × FullState) : EntityId × FullState :=
  (p.1, { p.2 with initialized := true })

/-- **A record is read as it was written.** -/
theorem readRecord_writeRecord (p : EntityId × FullState) (rest : Bytes) :
    readRecord (writeRecord p ++ rest) = (some (marked p), rest) := by
  simp only [readRecord, writeRecord, List.append_assoc, readLittle_le32, readBinary32_bind,
    readLittle_half, List.cons_append, List.nil_append, Reader.u8_bind, take_one_bind,
    take_two_bind]
  simp [marked]

/-- The distance back to the records is read as the negative number that it is. -/
theorem toInt_start {count : ℕ} (h : count ≤ maxRecords) :
    (UInt32.ofNat (wordRange - (recordSize * count + startField))).toInt32.toInt =
      -((recordSize * count + startField : ℕ) : ℤ) := by
  unfold maxRecords at h
  unfold wordRange recordSize startField
  have hlt : 4294967296 - (32 * count + 12) < 2 ^ 32 := by omega
  have hto : (UInt32.ofNat (4294967296 - (32 * count + 12))).toBitVec.toNat =
      4294967296 - (32 * count + 12) := UInt32.toNat_ofNat_of_lt' hlt
  show (UInt32.ofNat _).toBitVec.toInt = _
  rw [BitVec.toInt_eq_toNat_cond, hto]
  omega

/-- **A root is read as it was written.** -/
theorem readRoot_writeRoot (tick : UInt64) (checksum : UInt32) {count : ℕ}
    (h : count ≤ maxRecords) :
    (readRoot (writeRoot tick checksum count)).1 =
      some (tick, checksum, -((recordSize * count + startField : ℕ) : ℤ), count) := by
  have hcount : count % 256 ^ 4 = count := Nat.mod_eq_of_lt (h.trans_lt (by decide))
  have hstart : (wordRange - (recordSize * count + startField)) % 256 ^ 4 =
      wordRange - (recordSize * count + startField) :=
    Nat.mod_eq_of_lt (by unfold wordRange startField; omega)
  rw [readRoot, writeRoot]
  simp only [List.append_assoc]
  rw [readLittle_bind _ 8 tick.toNat (Nat.mod_eq_of_lt tick.toNat_lt), readLittle_le32,
    readLittle_bind _ 4 _ hstart, readLittle_bind _ 4 _ hcount, toInt_start h, UInt64.ofNat_toNat,
    UInt32.ofNat_toNat]
  rfl

/-! ## Dumps -/

/-- What is read of a byte string whose root lies behind the records that it
    counts and points to their start. -/
theorem decode_of_parts {bs : Bytes} {tick : UInt64} {checksum : UInt32} {count : ℕ}
    {records : List (EntityId × FullState)} (hlen : bs.length = recordSize * count + rootSize)
    (hroot : (readRoot (bs.drop (recordSize * count))).1 =
      some (tick, checksum, -((recordSize * count + startField : ℕ) : ℤ), count))
    (hrecords : (Reader.times count readRecord bs).1 = some records) :
    decode bs = .ok { tick, checksum, records } := by
  have hplace : bs.length - rootSize = recordSize * count := by omega
  have hfirst : ((recordSize * count : ℕ) : ℤ) + startField +
      -((recordSize * count + startField : ℕ) : ℤ) = 0 := by omega
  have haligned : recordSize * count % 8 = 0 := by
    unfold recordSize
    omega
  unfold decode
  rw [if_neg (by omega), hplace]
  dsimp only
  rw [hroot]
  dsimp only
  rw [hfirst, if_neg (by omega), Int.toNat_zero, List.drop_zero, hrecords]

theorem encode_eq_ok {d : Dump} {bs : Bytes} (h : d.encode = .ok bs) :
    d.records.length ≤ maxRecords ∧
      bs = d.records.flatMap writeRecord ++ writeRoot d.tick d.checksum d.records.length := by
  unfold encode at h
  split_ifs at h with hcount
  cases h
  exact ⟨hcount, rfl⟩

theorem length_flatMap_writeRecord (l : List (EntityId × FullState)) :
    (l.flatMap writeRecord).length = recordSize * l.length := by
  rw [List.length_flatMap]
  simp [Nat.mul_comm]

theorem length_of_encode {d : Dump} {bs : Bytes} (h : d.encode = .ok bs) :
    bs.length = recordSize * d.records.length + rootSize := by
  rw [(encode_eq_ok h).2, List.length_append, length_flatMap_writeRecord, length_writeRoot]

/-- **A dump is read as it was written**, and its records count as captured. -/
theorem decode_encode {d : Dump} {bs : Bytes} (h : d.encode = .ok bs) :
    decode bs = .ok { d with records := d.records.map marked } := by
  obtain ⟨hcount, hbs⟩ := encode_eq_ok h
  refine decode_of_parts (length_of_encode h) ?_ ?_
  · rw [hbs, ← length_flatMap_writeRecord, List.drop_left, length_flatMap_writeRecord]
    exact readRoot_writeRoot d.tick d.checksum hcount
  · rw [hbs, Reader.times_written readRecord_writeRecord]

theorem encode_of_size {world : Recorded FullState} (h : world.entities.size ≤ maxRecords) :
    ∃ bs, (ofRecorded world).encode = .ok bs := by
  have hcount : (ofRecorded world).records.length ≤ maxRecords := by
    rw [ofRecorded, List.length_map]
    exact h
  exact ⟨_, if_pos hcount⟩

/-- **What is read of a dumped world** is the recorded one, if all its states were
    captured. -/
theorem decode_ofRecorded {world : Recorded FullState} {bs : Bytes}
    (h : (ofRecorded world).encode = .ok bs)
    (hinit : ∀ id s, world.entities.get? id = some s → s.initialized = true) :
    ∃ d, decode bs = .ok d ∧ d.tick = UInt64.ofNat world.tick ∧ d.checksum = world.checksum ∧
      d.records = world.entities.entries ∧ d.entities = world.entities := by
  have hmarked : ∀ p ∈ world.entities.entries, marked p = p := by
    rintro ⟨id, s⟩ hp
    have hs := hinit id s (EntityMap.mem_entries.1 hp)
    simp [marked, ← hs]
  have hrecords : (ofRecorded world).records.map marked = world.entities.entries := by
    show (world.entities.entries.map marked).map marked = _
    rw [List.map_congr_left hmarked, List.map_id', List.map_congr_left hmarked, List.map_id']
  refine ⟨_, decode_encode h, rfl, rfl, hrecords, ?_⟩
  rw [entities, hrecords, EntityMap.ofList_entries]

end Dump

end Netplay
