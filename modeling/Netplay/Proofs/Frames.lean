/-
  Which byte strings are frames.

  Reading is turned round: a reader that succeeds has read the bytes that
  writing its value gives, so a byte string that is accepted is the one that
  encoding writes.

  * `Header.decode_eq_ok_iff`, `Frame.decode_eq_ok_iff`: what is accepted is what
    is written, and nothing else;
  * `Frame.fetch?`, `Frame.fetch?_eq`: decoding with every place tested before it
    is read; no place behind the end is ever asked for;
  * `Frame.accepts_exactly`: all that there is to say of frames.
-/
import Netplay.Proofs.Wire

namespace Netplay

/-! ## Words -/

namespace Bytes

theorem ofLittleEndian_lt (bs : Bytes) : ofLittleEndian bs < 256 ^ bs.length := by
  induction bs with
  | nil => simp [ofLittleEndian]
  | cons b bs ih =>
    have hb := b.toNat_lt
    rw [ofLittleEndian, List.length_cons, Nat.pow_succ']
    omega

theorem littleEndian_ofLittleEndian (bs : Bytes) :
    littleEndian bs.length (ofLittleEndian bs) = bs := by
  induction bs with
  | nil => rfl
  | cons b bs ih =>
    have hb := b.toNat_lt
    have hlow : UInt8.ofNat (b.toNat + 256 * ofLittleEndian bs) = b := by
      apply UInt8.toNat_inj.1
      rw [UInt8.toNat_ofNat']
      omega
    have hhigh : (b.toNat + 256 * ofLittleEndian bs) / 256 = ofLittleEndian bs := by omega
    rw [List.length_cons, ofLittleEndian, littleEndian, hlow, hhigh, ih]

theorem ofBigEndian_eq (bs : Bytes) : ofBigEndian bs = ofLittleEndian bs.reverse := by
  rw [← ofBigEndian_reverse, List.reverse_reverse]

/-- **A number is spelled in one way.** -/
theorem bigEndian_ofBigEndian {w : ℕ} {bs : Bytes} (h : bs.length = w) :
    bigEndian w (ofBigEndian bs) = bs := by
  have hrev := littleEndian_ofLittleEndian bs.reverse
  rw [List.length_reverse, h] at hrev
  rw [bigEndian, ofBigEndian_eq, hrev, List.reverse_reverse]

theorem ofBigEndian_lt {w : ℕ} {bs : Bytes} (h : bs.length = w) : ofBigEndian bs < 256 ^ w := by
  rw [ofBigEndian_eq, ← h, ← List.length_reverse]
  exact ofLittleEndian_lt _

theorem be16_ofBigEndian {bs : Bytes} (h : bs.length = 2) :
    be16 (UInt16.ofNat (ofBigEndian bs)) = bs := by
  rw [be16, UInt16.toNat_ofNat_of_lt' (ofBigEndian_lt h), bigEndian_ofBigEndian h]

theorem be32_ofBigEndian {bs : Bytes} (h : bs.length = 4) :
    be32 (UInt32.ofNat (ofBigEndian bs)) = bs := by
  rw [be32, UInt32.toNat_ofNat_of_lt' (ofBigEndian_lt h), bigEndian_ofBigEndian h]

theorem be16_inj {v w : UInt16} : be16 v = be16 w ↔ v = w := by
  constructor
  · intro h
    apply UInt16.toNat_inj.1
    rw [← ofBigEndian_be16 v, ← ofBigEndian_be16 w, h]
  · rintro rfl
    rfl

theorem be32_inj {v w : UInt32} : be32 v = be32 w ↔ v = w := by
  constructor
  · intro h
    apply UInt32.toNat_inj.1
    rw [← ofBigEndian_be32 v, ← ofBigEndian_be32 w, h]
  · rintro rfl
    rfl

end Bytes

/-! ## Readers, from the result back -/

namespace Reader

variable {α β : Type}

theorem bind_eq_some {r : Reader α} {f : α → Reader β} {bs rest : Bytes} {b : β}
    (h : (r >>= f) bs = (some b, rest)) :
    ∃ a mid, r bs = (some a, mid) ∧ f a mid = (some b, rest) := by
  rw [bind_apply] at h
  split at h
  · rename_i a mid hr
    exact ⟨a, mid, hr, h⟩
  · cases h

theorem take_eq_some {n : ℕ} {bs a rest : Bytes} (h : take n bs = (some a, rest)) :
    bs = a ++ rest ∧ a.length = n := by
  unfold take at h
  dsimp only at h
  split at h
  · rename_i hlen
    cases h
    exact ⟨(List.take_append_drop n bs).symm, hlen⟩
  · cases h

theorem take_of_le {n : ℕ} {bs : Bytes} (h : n ≤ bs.length) :
    take n bs = (some (bs.take n), bs.drop n) :=
  if_pos (List.length_take_of_le h)

theorem u16_eq_some {bs rest : Bytes} {w : UInt16} (h : u16 bs = (some w, rest)) :
    bs = Bytes.be16 w ++ rest := by
  obtain ⟨a, mid, hr, hw⟩ := bind_eq_some h
  cases hw
  obtain ⟨rfl, hlen⟩ := take_eq_some hr
  rw [Bytes.be16_ofBigEndian hlen]

theorem u32_eq_some {bs rest : Bytes} {w : UInt32} (h : u32 bs = (some w, rest)) :
    bs = Bytes.be32 w ++ rest := by
  obtain ⟨a, mid, hr, hw⟩ := bind_eq_some h
  cases hw
  obtain ⟨rfl, hlen⟩ := take_eq_some hr
  rw [Bytes.be32_ofBigEndian hlen]

theorem u16_of_le {bs : Bytes} (h : 2 ≤ bs.length) :
    u16 bs = (some (UInt16.ofNat (Bytes.ofBigEndian (bs.take 2))), bs.drop 2) := by
  rw [u16, bind_of_some (take_of_le h)]
  rfl

theorem u32_of_le {bs : Bytes} (h : 4 ≤ bs.length) :
    u32 bs = (some (UInt32.ofNat (Bytes.ofBigEndian (bs.take 4))), bs.drop 4) := by
  rw [u32, bind_of_some (take_of_le h)]
  rfl

end Reader

/-! ## Headers -/

namespace Header

theorem readSizes_eq_some {v : UInt8} {c : Bool} {d : Direction} {t : MessageType} {bs : Bytes}
    {h : Header} (hr : (readSizes v c d t bs).1 = some h) :
    ∃ s k p o rest, h = ⟨v, c, d, t, s, k, p, o⟩ ∧ bs = Bytes.be16 s ++ (Bytes.be32 k ++
      (Bytes.be16 p ++ (Bytes.be16 o ++ rest))) := by
  have hread : readSizes v c d t bs = (some h, (readSizes v c d t bs).2) := by rw [← hr]
  obtain ⟨s, bs₁, hs, hread⟩ := Reader.bind_eq_some hread
  obtain ⟨k, bs₂, hk, hread⟩ := Reader.bind_eq_some hread
  obtain ⟨p, bs₃, hp, hread⟩ := Reader.bind_eq_some hread
  obtain ⟨o, bs₄, ho, hread⟩ := Reader.bind_eq_some hread
  obtain rfl := Reader.u16_eq_some hs
  obtain rfl := Reader.u32_eq_some hk
  obtain rfl := Reader.u16_eq_some hp
  obtain rfl := Reader.u16_eq_some ho
  cases hread
  exact ⟨s, k, p, o, _, rfl, rfl⟩

/-- The version byte is its seven bits and the mark. -/
theorem versionByte_split (v : UInt8) :
    (v &&& versionMask) ||| (if v &&& compressedMark != 0 then compressedMark else 0) = v := by
  have hall : ∀ n : Fin 256, (UInt8.ofFin n &&& versionMask) |||
      (if UInt8.ofFin n &&& compressedMark != 0 then compressedMark else 0) = UInt8.ofFin n := by
    decide +kernel
  exact hall v.toFin

/-- **What is accepted as a header is one of this version, as it is written**,
    with anything behind it. -/
theorem decode_eq_ok_iff {bs : Bytes} {h : Header} :
    decode bs = .ok h ↔ h.version = protocolVersion ∧ ∃ rest, bs = h.encode ++ rest := by
  constructor
  · intro hd
    unfold decode at hd
    split at hd
    · rename_i m₀ m₁ v d t rest
      split_ifs at hd with hlen hmagic hversion
      split at hd
      · cases hd
      · cases hd
      · rename_i direction messageType hdir htype
        split at hd
        · rename_i hread
          cases hd
          obtain ⟨s, k, p, o, back, rfl, rfl⟩ := readSizes_eq_some hread
          have hbyte := versionByte_split v
          refine ⟨not_not.1 hversion, back, ?_⟩
          rw [not_not] at hmagic hversion
          rw [hversion] at hbyte
          simp only [encode, versionByte, ← hmagic, ← Direction.eq_code_of_ofCode? hdir,
            ← MessageType.eq_code_of_ofCode? htype, hversion, ownVersion_masked, hbyte]
          simp
        · cases hd
    · cases hd
  · rintro ⟨hv, rest, rfl⟩
    rw [decode_encode h (by rw [hv, ownVersion_masked]) rest, ← hv]

end Header

/-! ## Frames -/

namespace Frame

/-- **What is accepted as a frame is one of this version, as it is written.** -/
theorem decode_eq_ok_iff {d : Bytes} {h : Header} {payload : Bytes} :
    decode d = .ok ⟨h, payload⟩ ↔ h.version = protocolVersion ∧
      h.payloadSize.toNat = payload.length ∧ d = sealed (h.encode ++ payload) := by
  constructor
  · intro hd
    unfold decode at hd
    split at hd
    · cases hd
    · rename_i header hhead
      dsimp only at hd
      split_ifs at hd with hlen hcrc
      cases hd
      rw [not_not] at hlen hcrc
      obtain ⟨hversion, rest, rfl⟩ := Header.decode_eq_ok_iff.1 hhead
      set body := headerSize + h.payloadSize.toNat with hbody
      have hfront : (h.encode ++ rest).take body = h.encode ++ rest.take h.payloadSize.toNat := by
        rw [hbody, ← Header.length_encode h, List.take_length_add_append]
      have hpayload : ((h.encode ++ rest).take body).drop headerSize =
          rest.take h.payloadSize.toNat := by
        rw [hfront, ← Header.length_encode h, List.drop_left]
      have htrailer : ((h.encode ++ rest).drop body).length = 4 := by
        rw [List.length_drop, hlen, trailerSize]
        omega
      have hrest : h.payloadSize.toNat ≤ rest.length := by
        rw [List.length_append, Header.length_encode, trailerSize] at hlen
        omega
      refine ⟨hversion, ?_, ?_⟩
      · rw [hpayload, List.length_take, Nat.min_eq_left hrest]
      · calc h.encode ++ rest
            = (h.encode ++ rest).take body ++ (h.encode ++ rest).drop body :=
              (List.take_append_drop _ _).symm
          _ = (h.encode ++ rest).take body ++ Bytes.be32 (crc32 ((h.encode ++ rest).take body)) := by
              rw [← hcrc, Bytes.be32_ofBigEndian htrailer]
          _ = sealed (h.encode ++ ((h.encode ++ rest).take body).drop headerSize) := by
              rw [hpayload, hfront, sealed]
  · rintro ⟨hversion, hsize, rfl⟩
    rw [decode_sealed (by rw [hversion, Header.ownVersion_masked]) hsize, ← hversion]

theorem length_le_of_decode {d : Bytes} {h : Header} {payload : Bytes}
    (hd : decode d = .ok ⟨h, payload⟩) : payload.length ≤ maxPayload := by
  rw [← (decode_eq_ok_iff.1 hd).2.1]
  exact Nat.le_of_lt_succ h.payloadSize.toNat_lt

/-- A frame is written in one way. -/
theorem eq_of_decode_eq {d d' : Bytes} {f : Frame} (hd : decode d = .ok f)
    (hd' : decode d' = .ok f) : d = d' := by
  obtain ⟨h, payload⟩ := f
  rw [(decode_eq_ok_iff.1 hd).2.2, (decode_eq_ok_iff.1 hd').2.2]

/-- What was accepted is written again as it was, if its sizes are those that
    encoding fills in. -/
theorem encode_of_decode {d : Bytes} {h : Header} {payload : Bytes}
    (hd : decode d = .ok ⟨h, payload⟩)
    (horiginal : h.compressed = true ∨ h.originalSize = h.payloadSize) :
    encode h payload = .ok d := by
  obtain ⟨-, hsize, rfl⟩ := decode_eq_ok_iff.1 hd
  have hword : UInt16.ofNat payload.length = h.payloadSize := by
    rw [← hsize, UInt16.ofNat_toNat]
  have hsized : sized h (UInt16.ofNat payload.length) = h := by
    rw [hword, sized]
    cases h
    rcases horiginal with hc | ho
    · simp_all
    · simp_all
  rw [encode, if_pos (length_le_of_decode hd), hsized]

theorem decode_encode {h : Header} {payload : Bytes} (hversion : h.version = protocolVersion)
    (hlen : payload.length ≤ maxPayload) : ∃ d, encode h payload = .ok d ∧
      decode d = .ok ⟨sized h (UInt16.ofNat payload.length), payload⟩ := by
  refine ⟨_, if_pos hlen, decode_eq_ok_iff.2 ⟨hversion, ?_, rfl⟩⟩
  exact UInt16.toNat_ofNat_of_lt' (Nat.lt_succ_of_le hlen)

end Frame

/-! ## Reading within bounds -/

namespace Bytes

/-- The `n` bytes from a place on, if there are as many. -/
def slice? (bs : Bytes) (i n : ℕ) : Option Bytes :=
  if i + n ≤ bs.length then some ((bs.drop i).take n) else none

def word16At? (bs : Bytes) (i : ℕ) : Option UInt16 :=
  (bs.slice? i 2).map fun a => UInt16.ofNat (ofBigEndian a)

def word32At? (bs : Bytes) (i : ℕ) : Option UInt32 :=
  (bs.slice? i 4).map fun a => UInt32.ofNat (ofBigEndian a)

theorem slice?_of_le {bs : Bytes} {i n : ℕ} (h : i + n ≤ bs.length) :
    bs.slice? i n = some ((bs.drop i).take n) := if_pos h

end Bytes

namespace Header

/-- `decode` by places: every byte is asked for where it stands, and there is no
    answer at all once a place behind the end is asked for. -/
def fetch? (bs : Bytes) : Option (Except PacketError Header) :=
  if bs.length < headerSize then some (.error (.truncated headerSize bs.length))
  else do
    let magic ← bs.slice? 0 2
    if magic ≠ protocolMagic then return .error .badMagic
    let v ← bs[2]?
    if v &&& versionMask ≠ protocolVersion then
      return .error (.unsupportedVersion (v &&& versionMask))
    let d ← bs[3]?
    match Direction.ofCode? d with
    | none => return .error (.unknownDirection d)
    | some direction =>
      let t ← bs[4]?
      match MessageType.ofCode? t with
      | none => return .error (.unknownMessageType t)
      | some messageType =>
        let sequence ← bs.word16At? 5
        let tick ← bs.word32At? 7
        let payloadSize ← bs.word16At? 11
        let originalSize ← bs.word16At? 13
        return .ok { version := v &&& versionMask, compressed := v &&& compressedMark != 0,
                     direction, messageType, sequence, tick, payloadSize, originalSize }

theorem readSizes_of_le {bs : Bytes} (hlen : 10 ≤ bs.length) (v : UInt8) (c : Bool)
    (d : Direction) (t : MessageType) :
    (readSizes v c d t bs).1 = some ⟨v, c, d, t, UInt16.ofNat (Bytes.ofBigEndian (bs.take 2)),
      UInt32.ofNat (Bytes.ofBigEndian ((bs.drop 2).take 4)),
      UInt16.ofNat (Bytes.ofBigEndian ((bs.drop 6).take 2)),
      UInt16.ofNat (Bytes.ofBigEndian ((bs.drop 8).take 2))⟩ := by
  rw [readSizes, Reader.bind_of_some (Reader.u16_of_le (by omega)),
    Reader.bind_of_some (Reader.u32_of_le (by simp; omega)),
    Reader.bind_of_some (Reader.u16_of_le (by simp; omega)),
    Reader.bind_of_some (Reader.u16_of_le (by simp; omega))]
  simp only [List.drop_drop]
  rfl

/-- **No byte behind the end of a header is asked for.** -/
theorem fetch?_eq (bs : Bytes) : fetch? bs = some (decode bs) := by
  by_cases hlen : bs.length < headerSize
  · have hshort : decode bs = .error (.truncated headerSize bs.length) := by
      unfold decode
      split
      · rw [if_pos hlen]
      · rfl
    rw [fetch?, if_pos hlen, hshort]
  · match bs, hlen with
    | m₀ :: m₁ :: v :: d :: t :: rest, hlen =>
      have hrest : 10 ≤ rest.length := by
        simp only [List.length_cons, headerSize] at hlen
        omega
      have hmagic : Bytes.slice? (m₀ :: m₁ :: v :: d :: t :: rest) 0 2 = some [m₀, m₁] :=
        Bytes.slice?_of_le (by simp)
      have hword : ∀ i n, i + n ≤ 10 →
          Bytes.slice? (m₀ :: m₁ :: v :: d :: t :: rest) (i + 5) n = some ((rest.drop i).take n) := by
        intro i n hi
        rw [Bytes.slice?_of_le (by simp only [List.length_cons]; omega)]
        rfl
      rw [fetch?, if_neg hlen]
      simp only [decode, if_neg hlen, Bytes.word16At?, Bytes.word32At?, hmagic, hword 0 2 (by omega),
        hword 2 4 (by omega), hword 6 2 (by omega), hword 8 2 (by omega), readSizes_of_le hrest]
      by_cases hown : [m₀, m₁] = protocolMagic
      · by_cases hversion : v &&& versionMask = protocolVersion
        · cases hd : Direction.ofCode? d with
          | none => simp [hown, hversion, hd]
          | some direction =>
            cases ht : MessageType.ofCode? t with
            | none => simp [hown, hversion, hd, ht]
            | some messageType => simp [hown, hversion, hd, ht]
        · simp [hown, hversion]
      · simp [hown]
    | [], hlen | [_], hlen | [_, _], hlen | [_, _, _], hlen | [_, _, _, _], hlen =>
      exact absurd (by simp [headerSize]) hlen

end Header

namespace Frame

/-- `decode` by places. -/
def fetch? (d : Bytes) : Option (Except PacketError Frame) := do
  match ← Header.fetch? d with
  | .error e => return .error e
  | .ok header =>
    let body := headerSize + header.payloadSize.toNat
    if d.length ≠ body + trailerSize then
      return .error (.lengthMismatch (body + trailerSize) d.length)
    let transmitted ← d.word32At? body
    let computed := crc32 (← d.slice? 0 body)
    if transmitted ≠ computed then return .error (.checksumMismatch transmitted computed)
    return .ok ⟨header, ← d.slice? headerSize header.payloadSize.toNat⟩

/-- **No byte behind the end of a frame is asked for.** -/
theorem fetch?_eq (d : Bytes) : fetch? d = some (decode d) := by
  rw [fetch?, Header.fetch?_eq, decode]
  cases Header.decode d with
  | error e => rfl
  | ok header =>
    generalize hbody : headerSize + header.payloadSize.toNat = body
    by_cases hlen : d.length = body + trailerSize
    · have htrailer : d.word32At? body = some (UInt32.ofNat (Bytes.ofBigEndian (d.drop body))) := by
        have hfit : body + 4 ≤ d.length := Nat.le_of_eq hlen.symm
        have hall : (d.drop body).length ≤ 4 := by
          rw [List.length_drop, hlen, trailerSize]
          omega
        rw [Bytes.word32At?, Bytes.slice?_of_le hfit, List.take_of_length_le hall]
        rfl
      have hfront : d.slice? 0 body = some (d.take body) :=
        Bytes.slice?_of_le (by omega)
      have hpayload : d.slice? headerSize header.payloadSize.toNat =
          some ((d.take body).drop headerSize) := by
        rw [Bytes.slice?_of_le (by omega), List.drop_take, ← hbody, Nat.add_sub_cancel_left]
      by_cases hcrc : UInt32.ofNat (Bytes.ofBigEndian (d.drop body)) = crc32 (d.take body)
      · simp [hbody, hlen, htrailer, hfront, hpayload, hcrc]
      · simp [hbody, hlen, htrailer, hfront, hcrc]
    · simp [hbody, hlen]

/-! ## All together -/

/-- **Frames are accepted exactly as they are written.**  A byte string is
    accepted iff it is the bytes of a header of version 1, a payload of the size
    that the header states and the check value of both; every other one is an
    error, and no byte behind the end is asked for.  So a frame is written in one
    way, and encoding and decoding undo each other up to the sizes that encoding
    fills in. -/
theorem accepts_exactly :
    (∀ d h payload, decode d = .ok ⟨h, payload⟩ ↔ h.version = 1 ∧
      h.payloadSize.toNat = payload.length ∧
        d = h.encode ++ payload ++ Bytes.be32 (crc32 (h.encode ++ payload))) ∧
    (∀ d, (∃ h payload, fetch? d = some (.ok ⟨h, payload⟩) ∧ h.version = 1 ∧
        h.payloadSize.toNat = payload.length ∧
          d = h.encode ++ payload ++ Bytes.be32 (crc32 (h.encode ++ payload))) ∨
      ∃ e, fetch? d = some (.error e)) ∧
    (∀ d, fetch? d = some (decode d)) ∧
    (∀ d d' f, decode d = .ok f → decode d' = .ok f → d = d') ∧
    (∀ d h payload, decode d = .ok ⟨h, payload⟩ →
      h.compressed = true ∨ h.originalSize = h.payloadSize → encode h payload = .ok d) ∧
    (∀ h payload, h.version = 1 → payload.length ≤ 65535 → ∃ d, encode h payload = .ok d ∧
      decode d = .ok ⟨sized h (UInt16.ofNat payload.length), payload⟩) ∧
    ∀ h payload, 65535 < payload.length →
      encode h payload = .error (.payloadTooLarge payload.length) := by
  refine ⟨fun d h payload => decode_eq_ok_iff, fun d => ?_, fetch?_eq,
    fun d d' f => eq_of_decode_eq, fun d h payload => encode_of_decode,
    fun h payload => decode_encode, fun h payload hlong => if_neg (Nat.not_le.2 hlong)⟩
  rw [fetch?_eq]
  cases hd : decode d with
  | ok f => exact Or.inl ⟨f.header, f.payload, rfl, decode_eq_ok_iff.1 hd⟩
  | error e => exact Or.inr ⟨e, rfl⟩

end Frame

end Netplay
