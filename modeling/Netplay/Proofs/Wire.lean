/-
  What is written can be read again: words, headers, frames, messages.

  Reading is stated with arbitrary bytes behind what was written, so that a
  reader of several values is taken apart by its parts.

  * `Frame.decode_sealed`: a header, a payload of the size that it states and
    the check value of both are read as that frame;
  * `Message.frame_of_encode`: the datagram of a message is the frame of its
    payload, so `Message.decode_eq_none_of_kind`: a message is never read as one
    of another kind;
  * `Snapshot.decode_encode`, `StateChecksum.decode_encode`,
    `InputPacket.decode_encode`: what comes out of what was put in.
-/
import Mathlib.Algebra.Group.Nat.Defs
import Mathlib.Data.Nat.Notation
import Mathlib.Tactic.Common
import Netplay.Control.Command
import Netplay.Packet.Input
import Netplay.Packet.Snapshot
import Netplay.Packet.Sync

namespace Netplay

/-! ## Words -/

namespace Bytes

theorem ofLittleEndian_littleEndian (w n : ℕ) :
    ofLittleEndian (littleEndian w n) = n % 256 ^ w := by
  induction w generalizing n with
  | zero => simp [littleEndian, ofLittleEndian, Nat.mod_one]
  | succ w ih =>
    have hpow : 256 ^ (w + 1) = 256 * 256 ^ w := Nat.pow_succ'
    rw [littleEndian, ofLittleEndian, ih, UInt8.toNat_ofNat', hpow, Nat.mod_mul]

theorem ofBigEndian_append_singleton (bs : Bytes) (b : UInt8) :
    ofBigEndian (bs ++ [b]) = ofBigEndian bs * 256 + b.toNat := by
  rw [ofBigEndian, List.foldl_append]
  rfl

theorem ofBigEndian_reverse (bs : Bytes) : ofBigEndian bs.reverse = ofLittleEndian bs := by
  induction bs with
  | nil => rfl
  | cons b bs ih =>
    rw [List.reverse_cons, ofBigEndian_append_singleton, ih, ofLittleEndian]
    omega

theorem ofBigEndian_bigEndian (w n : ℕ) : ofBigEndian (bigEndian w n) = n % 256 ^ w := by
  rw [bigEndian, ofBigEndian_reverse, ofLittleEndian_littleEndian]

theorem ofBigEndian_be16 (w : UInt16) : ofBigEndian (be16 w) = w.toNat := by
  rw [be16, ofBigEndian_bigEndian]
  exact Nat.mod_eq_of_lt w.toNat_lt

theorem ofBigEndian_be32 (w : UInt32) : ofBigEndian (be32 w) = w.toNat := by
  rw [be32, ofBigEndian_bigEndian]
  exact Nat.mod_eq_of_lt w.toNat_lt

end Bytes

/-! ## Readers -/

namespace Reader

variable {α β : Type}

theorem bind_of_some {r : Reader α} {bs rest : Bytes} {a : α} (h : r bs = (some a, rest))
    (f : α → Reader β) : (r >>= f) bs = f a rest := by
  rw [bind_apply, h]

theorem remaining_bind (f : ℕ → Reader β) (bs : Bytes) :
    (remaining >>= f) bs = f bs.length bs := rfl

theorem take_append {n : ℕ} (a rest : Bytes) (h : a.length = n) :
    take n (a ++ rest) = (some a, rest) := by
  subst h
  simp [take]

theorem u16_be16 (w : UInt16) (rest : Bytes) : u16 (Bytes.be16 w ++ rest) = (some w, rest) := by
  rw [u16, bind_of_some (take_append _ rest (Bytes.length_be16 w)), Bytes.ofBigEndian_be16]
  simp

theorem u32_be32 (w : UInt32) (rest : Bytes) : u32 (Bytes.be32 w ++ rest) = (some w, rest) := by
  rw [u32, bind_of_some (take_append _ rest (Bytes.length_be32 w)), Bytes.ofBigEndian_be32]
  simp

theorem i16_ofInt16 (i : Int16) (rest : Bytes) :
    i16 (Bytes.ofInt16 i ++ rest) = (some i, rest) := by
  rw [i16, Bytes.ofInt16, bind_of_some (u16_be16 _ rest)]
  simp

theorem f32_ofBinary32 (a : Binary32) (rest : Bytes) :
    f32 (Bytes.ofBinary32 a ++ rest) = (some a, rest) := by
  rw [f32, Bytes.ofBinary32, bind_of_some (u32_be32 _ rest)]
  rfl

/-- Values written in a row are read in a row, unless one of them is refused. -/
theorem times_write {r : Reader α} {write : α → Bytes} {ok : α → Bool}
    (h : ∀ a rest, ∃ bs, r (write a ++ rest) = if ok a then (some a, rest) else (none, bs))
    (l : List α) (done : List α) (rest : Bytes) :
    ∃ bs, timesOnto r l.length done (l.flatMap write ++ rest) =
      if l.all ok then (some (done.reverse ++ l), rest) else (none, bs) := by
  induction l generalizing done with
  | nil => exact ⟨rest, by simp [timesOnto]⟩
  | cons a l ih =>
    obtain ⟨bs, hread⟩ := h a (l.flatMap write ++ rest)
    rw [List.flatMap_cons, List.append_assoc, List.length_cons, timesOnto, bind_apply, hread]
    by_cases hok : ok a = true
    · obtain ⟨bs', ih⟩ := ih (a :: done)
      refine ⟨bs', ?_⟩
      simp only [hok, if_true, ih, List.all_cons, Bool.true_and, List.reverse_cons,
        List.append_assoc, List.singleton_append]
    · exact ⟨bs, by simp [hok]⟩

theorem whole_eq_some {r : Reader α} {bs : Bytes} {a : α} :
    r.whole bs = some a ↔ r bs = (some a, []) := by
  unfold whole
  split <;> simp_all

end Reader

/-! ## Headers and frames -/

namespace Header

theorem readSizes_written (v : UInt8) (c : Bool) (d : Direction) (t : MessageType) (s : UInt16)
    (k : UInt32) (p o : UInt16) (rest : Bytes) :
    readSizes v c d t (Bytes.be16 s ++ (Bytes.be32 k ++ (Bytes.be16 p ++ (Bytes.be16 o ++ rest)))) =
      (some ⟨v, c, d, t, s, k, p, o⟩, rest) := by
  rw [readSizes, Reader.bind_of_some (Reader.u16_be16 s _),
    Reader.bind_of_some (Reader.u32_be32 k _), Reader.bind_of_some (Reader.u16_be16 p _),
    Reader.bind_of_some (Reader.u16_be16 o _)]
  rfl

theorem ownVersion_masked : protocolVersion &&& versionMask = protocolVersion := by decide

theorem mark_of_versionByte (h : Header) (hv : h.version &&& versionMask = protocolVersion) :
    h.versionByte &&& versionMask = protocolVersion ∧
      (h.versionByte &&& compressedMark != 0) = h.compressed := by
  rw [versionByte, hv]
  cases h.compressed <;> decide

/-- A header of this protocol is read as it was written. -/
theorem decode_encode (h : Header) (hv : h.version &&& versionMask = protocolVersion)
    (rest : Bytes) : decode (h.encode ++ rest) = .ok { h with version := protocolVersion } := by
  obtain ⟨hversion, hmark⟩ := mark_of_versionByte h hv
  have hlen : ¬ (h.encode ++ rest).length < headerSize := by
    rw [List.length_append, length_encode]
    omega
  have henc : h.encode ++ rest = 0xA3 :: 0x5F :: h.versionByte :: h.direction.code ::
      h.messageType.code :: (Bytes.be16 h.sequence ++ (Bytes.be32 h.tick ++
        (Bytes.be16 h.payloadSize ++ (Bytes.be16 h.originalSize ++ rest)))) := by
    simp [encode, protocolMagic]
  rw [henc] at hlen ⊢
  simp only [decode, if_neg hlen, hversion, Direction.ofCode?_code, MessageType.ofCode?_code,
    readSizes_written, hmark]
  rfl

end Header

namespace Frame

/-- **A sealed frame is read as it was written.** -/
theorem decode_sealed {h : Header} {payload : Bytes}
    (hv : h.version &&& Header.versionMask = protocolVersion)
    (hsize : h.payloadSize.toNat = payload.length) :
    decode (sealed (h.encode ++ payload)) =
      .ok ⟨{ h with version := protocolVersion }, payload⟩ := by
  set body := h.encode ++ payload with hbody
  have hlen : body.length = headerSize + h.payloadSize.toNat := by
    rw [hbody, List.length_append, Header.length_encode, hsize]
  have hhead : Header.decode (sealed body) = .ok { h with version := protocolVersion } := by
    rw [sealed, hbody, List.append_assoc]
    exact Header.decode_encode h hv _
  have htake : (sealed body).take (headerSize + h.payloadSize.toNat) = body := by
    rw [sealed, ← hlen, List.take_left]
  have hdrop : (sealed body).drop (headerSize + h.payloadSize.toNat) = Bytes.be32 (crc32 body) := by
    rw [sealed, ← hlen, List.drop_left]
  have htotal : (sealed body).length = headerSize + h.payloadSize.toNat + trailerSize := by
    rw [sealed, List.length_append, hlen, Bytes.length_be32, trailerSize]
  have hcrc : UInt32.ofNat (Bytes.ofBigEndian (Bytes.be32 (crc32 body))) = crc32 body := by
    rw [Bytes.ofBigEndian_be32, UInt32.ofNat_toNat]
  have hpayload : body.drop headerSize = payload := by
    rw [hbody, ← Header.length_encode h, List.drop_left]
  simp only [decode, hhead, htotal, htake, hdrop, hcrc, hpayload, ne_eq, not_true_eq_false,
    if_false]

end Frame

/-! ## Messages -/

namespace Message

variable {μ ν : Type} [Message μ] [Message ν]

def sentHeader (m : μ) (sequence : UInt16) (tick : UInt32) : Header :=
  Frame.sized (header μ sequence tick) (UInt16.ofNat (write m).length)

/-- **The datagram of a message is the frame of its payload.** -/
theorem frame_of_encode {m : μ} {sequence : UInt16} {tick : UInt32} {data : Bytes}
    (h : encode m sequence tick = .ok data) :
    (write m).length ≤ Frame.maxPayload ∧
      Frame.decode data = .ok ⟨sentHeader m sequence tick, write m⟩ := by
  unfold encode Frame.encode at h
  split_ifs at h with hsize
  refine ⟨hsize, ?_⟩
  cases h
  refine Frame.decode_sealed Header.ownVersion_masked (UInt16.toNat_ofNat_of_lt' ?_)
  exact Nat.lt_of_le_of_lt hsize (by decide)

theorem decode_encode {m : μ} {sequence : UInt16} {tick : UInt32} {data : Bytes}
    (h : encode m sequence tick = .ok data) :
    decode (μ := μ) data =
      ((read (μ := μ)).whole (write m)).map (sentHeader m sequence tick, ·) := by
  rw [decode, (frame_of_encode h).2]
  exact if_pos ⟨rfl, rfl⟩

/-- **A message is never read as one of another kind.** -/
theorem decode_eq_none_of_kind {m : μ} {sequence : UInt16} {tick : UInt32} {data : Bytes}
    (h : encode m sequence tick = .ok data) (hne : messageType μ ≠ messageType ν) :
    decode (μ := ν) data = none := by
  rw [decode, (frame_of_encode h).2]
  exact if_neg fun hk => hne hk.1

theorem decode_eq_some {data : Bytes} {h : Header} {m : μ} (hd : decode data = some (h, m)) :
    ∃ f, Frame.decode data = .ok f ∧ f.header.messageType = messageType μ ∧
      ofFrame? f = some (h, m) := by
  unfold decode at hd
  split at hd
  · rename_i f hf
    refine ⟨f, hf, ?_, hd⟩
    unfold ofFrame? at hd
    split_ifs at hd with hk
    exact hk.1
  · cases hd

end Message

/-! ## Snapshots and digests -/

namespace Sighting

theorem read_write (s : Sighting) (rest : Bytes) : ∃ bs,
    read (s.write ++ rest) = if s.position.isFinite then (some s, rest) else (none, bs) := by
  refine ⟨rest, ?_⟩
  rw [write, List.append_assoc, List.append_assoc, List.append_assoc, read,
    Reader.bind_of_some (Reader.u32_be32 _ _), Reader.bind_of_some (Reader.f32_ofBinary32 _ _),
    Reader.bind_of_some (Reader.f32_ofBinary32 _ _), Reader.bind_of_some (Reader.i16_ofInt16 _ _)]
  split_ifs <;> rfl

theorem length_flatMap_write (l : List Sighting) :
    (l.flatMap write).length = l.length * wireSize := by
  simp [List.length_flatMap, List.map_const']

end Sighting

namespace Snapshot

theorem length_le_of_fits {m : Snapshot} (h : (Message.write m).length ≤ Frame.maxPayload) :
    m.entities.length ≤ Bytes.maxPrefixed := by
  by_contra hlong
  have hwrite : (Message.write m).length = 8 + (m.entities.take Bytes.maxPrefixed).length * 14 := by
    simp only [Message.write, List.length_append, Bytes.length_be32, Bytes.length_be16,
      Sighting.length_flatMap_write, Sighting.wireSize]
  rw [hwrite, List.length_take, Nat.min_eq_left (by omega)] at h
  simp [Bytes.maxPrefixed, Frame.maxPayload] at h

theorem whole_write {m : Snapshot} (h : m.entities.length ≤ Bytes.maxPrefixed) :
    (Message.read (μ := Snapshot)).whole (Message.write m) =
      if m.entities.all fun e => e.position.isFinite then some m else none := by
  have hcount : (UInt16.ofNat m.entities.length).toNat = m.entities.length :=
    UInt16.toNat_ofNat_of_lt' (Nat.lt_of_le_of_lt h (by decide))
  obtain ⟨bs, htimes⟩ := Reader.times_write Sighting.read_write m.entities [] []
  rw [List.append_nil] at htimes
  have hread : (Message.read (μ := Snapshot)) (Message.write m) =
      if m.entities.all fun e => e.position.isFinite then (some m, []) else (none, bs) := by
    simp only [Message.read, Message.write, List.take_of_length_le h, List.append_assoc]
    rw [Reader.bind_of_some (Reader.u32_be32 _ _), Reader.bind_of_some (Reader.u16_be16 _ _),
      Reader.bind_of_some (Reader.u16_be16 _ _), Reader.remaining_bind, hcount,
      Sighting.length_flatMap_write, if_neg (not_not.2 rfl), Reader.bind_apply, Reader.times,
      htimes]
    split_ifs <;> rfl
  rw [Reader.whole, hread]
  split_ifs <;> rfl

/-- **What a client reads of a snapshot that was sent.** -/
theorem decode_encode {m : Snapshot} {sequence : UInt16} {tick : UInt32} {data : Bytes}
    (h : Message.encode m sequence tick = .ok data) :
    Message.decode (μ := Snapshot) data =
      if m.entities.all fun e => e.position.isFinite then
        some (Message.sentHeader m sequence tick, m) else none := by
  rw [Message.decode_encode h, whole_write (length_le_of_fits (Message.frame_of_encode h).1)]
  split_ifs <;> rfl

end Snapshot

namespace StateChecksum

theorem whole_write (m : StateChecksum) :
    (Message.read (μ := StateChecksum)).whole (Message.write m) = some m := by
  rw [Reader.whole_eq_some]
  simp only [Message.read, Message.write, List.append_assoc]
  rw [Reader.bind_of_some (Reader.u32_be32 _ _), Reader.bind_of_some (Reader.u32_be32 _ _),
    Reader.bind_of_some (Reader.u32_be32 _ _), ← List.append_nil (Bytes.be16 _),
    Reader.bind_of_some (Reader.u16_be16 _ _)]
  rfl

/-- What a client reads of digests that were sent. -/
theorem decode_encode {m : StateChecksum} {sequence : UInt16} {tick : UInt32} {data : Bytes}
    (h : Message.encode m sequence tick = .ok data) :
    Message.decode (μ := StateChecksum) data =
      some (Message.sentHeader m sequence tick, m) := by
  rw [Message.decode_encode h, whole_write]
  rfl

end StateChecksum

/-! ## Input packets -/

namespace InputPacket

theorem read_payload (h : Header) (p : InputPacket) :
    (read h).whole p.payload =
      if p.position.x.isFinite && p.position.y.isFinite && p.angle.isFinite then
        some { p with header := h } else none := by
  have hread : read h p.payload =
      if p.position.x.isFinite && p.position.y.isFinite && p.angle.isFinite then
        (some { p with header := h }, []) else (none, []) := by
    rw [payload, ← List.append_nil (Bytes.ofBinary32 p.angle)]
    simp only [List.append_assoc]
    rw [read, Reader.bind_of_some (Reader.u32_be32 _ _), Reader.bind_of_some (Reader.u16_be16 _ _),
      Reader.bind_of_some (Reader.f32_ofBinary32 _ _),
      Reader.bind_of_some (Reader.f32_ofBinary32 _ _),
      Reader.bind_of_some (Reader.f32_ofBinary32 _ _)]
    split_ifs <;> rfl
  rw [Reader.whole, hread]
  split_ifs <;> rfl

theorem length_payload (p : InputPacket) : p.payload.length = payloadSize := by
  simp [payload, Bytes.ofBinary32, payloadSize]

theorem frame_of_encode {p : InputPacket}
    (hv : p.header.version &&& Header.versionMask = protocolVersion) :
    Frame.decode p.encode =
      .ok ⟨{ normalize p.header with version := protocolVersion }, p.payload⟩ :=
  Frame.decode_sealed hv (by rw [length_payload]; rfl)

theorem length_encode (p : InputPacket) : p.encode.length = size := by
  rw [encode, Frame.sealed, List.length_append, List.length_append, Header.length_encode,
    length_payload, Bytes.length_be32]
  rfl

/-- **What the server reads of an input packet that was sent.** -/
theorem decode_encode {p : InputPacket}
    (hv : p.header.version &&& Header.versionMask = protocolVersion) :
    decode p.encode =
      if p.position.x.isFinite && p.position.y.isFinite && p.angle.isFinite then
        some { p with header := { normalize p.header with version := protocolVersion } }
      else none := by
  rw [decode, if_neg (not_not.2 p.length_encode), frame_of_encode hv]
  exact (if_pos ⟨rfl, rfl, rfl⟩).trans (read_payload _ p)

/-- An input packet is never read as a message of another kind. -/
theorem decode_encode_of_kind {μ : Type} [Message μ] {p : InputPacket}
    (hv : p.header.version &&& Header.versionMask = protocolVersion)
    (hne : Message.messageType μ ≠ .input) : Message.decode (μ := μ) p.encode = none := by
  rw [Message.decode, frame_of_encode hv]
  exact if_neg fun hk => hne hk.1.symm

theorem frame_of_decode {data : Bytes} {p : InputPacket} (h : decode data = some p) :
    ∃ f, Frame.decode data = .ok f ∧ f.header.messageType = .input := by
  unfold decode at h
  split_ifs at h
  split at h
  · cases h
  · rename_i f hf
    split_ifs at h with hk
    exact ⟨f, hf, hk.1⟩

/-- A message of another kind is never read as an input packet. -/
theorem decode_eq_none_of_message {μ : Type} [Message μ] {m : μ} {sequence : UInt16} {tick : UInt32}
    {data : Bytes} (h : Message.encode m sequence tick = .ok data)
    (hne : Message.messageType μ ≠ .input) : decode data = none := by
  cases hp : decode data with
  | none => rfl
  | some p =>
    obtain ⟨f, hf, hk⟩ := frame_of_decode hp
    rw [(Message.frame_of_encode h).2] at hf
    cases hf
    exact absurd hk hne

end InputPacket

namespace Command

theorem version_toPacket (c : Command) (playerId : UInt32) :
    (c.toPacket playerId).header.version &&& Header.versionMask = protocolVersion := by
  show protocolVersion &&& Header.versionMask = protocolVersion
  decide

/-- The packet of a command carries the low bits of its number. -/
theorem sequence_of_decode {c : Command} {playerId : UInt32} {p : InputPacket}
    (h : InputPacket.decode (c.toPacket playerId).encode = some p) :
    p.header.sequence = c.sequence.toUInt16 := by
  rw [InputPacket.decode_encode (c.version_toPacket playerId)] at h
  split_ifs at h
  cases h
  rfl

end Command

end Netplay
