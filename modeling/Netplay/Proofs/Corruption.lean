/-
  No damage goes unseen.

  A division step is linear and takes no two registers to one, so the register
  after a byte string tells the register before it.  Up to four bytes meet the
  register before any of them has left it: a string of that length is read off
  the register as well.  A check value therefore fixes any four bytes in a row
  when the others are known.

  * `Crc32.feed_injective`, `Crc32.feed_of_le_four`, `Crc32.window_eq`,
    `Crc32.eq_of_outside`;
  * `Frame.eq_of_isPrefix`: no frame is the front of another;
  * `Detects`: an acceptor refuses what damage, loss and addition make of what
    it accepts;
  * `damage_is_detected`: so do all that decode datagrams.
-/
import Mathlib.Logic.Function.Iterate
import Netplay.Proofs.Frames

namespace Netplay

/-! ## The register -/

namespace Crc32

theorem and_one_eq (x : UInt32) : x &&& 1 = 0 ∨ x &&& 1 = 1 := by
  have hmod : (x &&& 1).toNat = x.toNat % 2 := Nat.and_one_is_mod x.toNat
  rcases Nat.mod_two_eq_zero_or_one x.toNat with h | h
  · left
    apply UInt32.toNat_inj.1
    rw [hmod, h]
    rfl
  · right
    apply UInt32.toNat_inj.1
    rw [hmod, h]
    rfl

theorem xor_and_one (r s : UInt32) : (r ^^^ s) &&& 1 = (r &&& 1) ^^^ (s &&& 1) := by
  apply UInt32.toBitVec_inj.1
  ext i
  simp [Bool.and_xor_distrib_right]

/-- **Division is linear.** -/
theorem bit_xor (r s : UInt32) : bit (r ^^^ s) = bit r ^^^ bit s := by
  unfold bit
  rw [xor_and_one, UInt32.shiftRight_xor]
  rcases and_one_eq r with hr | hr
  · rcases and_one_eq s with hs | hs
    · simp [hr, hs]
    · simp [hr, hs, UInt32.xor_assoc]
  · rcases and_one_eq s with hs | hs
    · simp [hr, hs]
      ac_rfl
    · have hcancel : ∀ a b p : UInt32, a ^^^ b = a ^^^ p ^^^ (b ^^^ p) := by
        intro a b p
        rw [UInt32.xor_comm b p, UInt32.xor_assoc, ← UInt32.xor_assoc p, UInt32.xor_self,
          UInt32.zero_xor]
      simp [hr, hs]
      exact hcancel _ _ _

/-- Only the empty register is divided to the empty register: the polynomial
    has its highest bit set, and a shifted register has not. -/
theorem eq_zero_of_bit {r : UInt32} (h : bit r = 0) : r = 0 := by
  have hshift : (r >>> 1).toNat = r.toNat / 2 := by
    rw [UInt32.toNat_shiftRight, Nat.shiftRight_eq_div_pow]
    rfl
  have hmod : (r &&& 1).toNat = r.toNat % 2 := Nat.and_one_is_mod r.toNat
  apply UInt32.toNat_inj.1
  unfold bit at h
  split_ifs at h with hlow
  · have hzero := congrArg UInt32.toNat h
    have heven := congrArg UInt32.toNat hlow
    rw [hshift] at hzero
    rw [hmod] at heven
    simp only [UInt32.toNat_zero] at hzero heven ⊢
    omega
  · have hpoly := congrArg UInt32.toNat (UInt32.xor_eq_zero_iff.1 h)
    have hlt := r.toNat_lt
    rw [hshift, show polynomial.toNat = 3988292384 from rfl] at hpoly
    omega

theorem bit_injective : Function.Injective bit := by
  intro r s h
  apply UInt32.xor_eq_zero_iff.1
  apply eq_zero_of_bit
  rw [bit_xor, h, UInt32.xor_self]

theorem iterate_bit_xor (n : ℕ) (r s : UInt32) : bit^[n] (r ^^^ s) = bit^[n] r ^^^ bit^[n] s := by
  induction n generalizing r s with
  | zero => rfl
  | succ n ih => rw [Function.iterate_succ_apply, bit_xor, ih]; rfl

/-- A register whose low bits are clear only moves down. -/
theorem iterate_bit_ofNat (k n : ℕ) (h : n * 2 ^ k < 2 ^ 32) :
    bit^[k] (UInt32.ofNat (n * 2 ^ k)) = UInt32.ofNat n := by
  induction k with
  | zero => simp
  | succ k ih =>
    have hdouble : n * 2 ^ (k + 1) = 2 * (n * 2 ^ k) := by
      rw [Nat.pow_succ, ← Nat.mul_assoc, Nat.mul_comm]
    rw [hdouble] at h ⊢
    have hto : (UInt32.ofNat (2 * (n * 2 ^ k))).toNat = 2 * (n * 2 ^ k) :=
      UInt32.toNat_ofNat_of_lt' h
    have hlow : UInt32.ofNat (2 * (n * 2 ^ k)) &&& 1 = 0 := by
      apply UInt32.toNat_inj.1
      rw [UInt32.toNat_and, hto]
      exact (Nat.and_one_is_mod _).trans (Nat.mul_mod_right 2 _)
    have hhalf : n * 2 ^ k < 2 ^ 32 := by omega
    have hshift : UInt32.ofNat (2 * (n * 2 ^ k)) >>> 1 = UInt32.ofNat (n * 2 ^ k) := by
      apply UInt32.toNat_inj.1
      rw [UInt32.toNat_shiftRight, hto, Nat.shiftRight_eq_div_pow,
        UInt32.toNat_ofNat_of_lt' hhalf]
      exact Nat.mul_div_cancel_left _ (by decide)
    rw [Function.iterate_succ_apply, bit, if_pos hlow, hshift]
    exact ih hhalf

/-! ## Bytes -/

theorem byte_eq (r : UInt32) (b : UInt8) : byte r b = bit^[8] (r ^^^ b.toUInt32) := rfl

theorem byte_injective (b : UInt8) : Function.Injective (byte · b) := by
  intro r s h
  exact (UInt32.xor_left_inj b.toUInt32).1 (bit_injective.iterate 8 h)

/-- **The register before a byte string is told by the register after it.** -/
theorem feed_injective (bs : Bytes) : Function.Injective (feed · bs) := by
  induction bs with
  | nil => exact fun _ _ h => h
  | cons b bs ih =>
    intro r s h
    exact byte_injective b (ih h)

theorem ofNat_add_mul (b : UInt8) {n : ℕ} (h : n * 2 ^ 8 < 2 ^ 32) :
    UInt32.ofNat (b.toNat + 256 * n) = b.toUInt32 ^^^ UInt32.ofNat (n * 2 ^ 8) := by
  have hb := b.toNat_lt
  have hxor : b.toNat ^^^ (n * 2 ^ 8) = b.toNat + 256 * n := by
    refine Nat.eq_of_testBit_eq fun i => ?_
    rw [Nat.testBit_xor, Nat.testBit_mul_two_pow, Nat.add_comm,
      show 256 * n + b.toNat = 2 ^ 8 * n + b.toNat from rfl, Nat.testBit_two_pow_mul_add n hb]
    by_cases hi : i < 8
    · simp [hi, Nat.not_le.2 hi]
    · have hhigh : b.toNat.testBit i = false := Nat.testBit_lt_two_pow
        (Nat.lt_of_lt_of_le hb (Nat.pow_le_pow_right (by decide) (Nat.not_lt.1 hi)))
      simp [hi, Nat.not_lt.1 hi, hhigh]
  have hsum : b.toNat + 256 * n < 2 ^ 32 := by omega
  apply UInt32.toNat_inj.1
  rw [UInt32.toNat_xor, UInt32.toNat_ofNat_of_lt' h, UInt32.toNat_ofNat_of_lt' hsum]
  exact hxor.symm

/-- **Four bytes meet the register before any has left it.** -/
theorem feed_of_le_four {r : UInt32} {w : Bytes} (h : w.length ≤ 4) :
    feed r w = bit^[8 * w.length] (r ^^^ UInt32.ofNat (Bytes.ofLittleEndian w)) := by
  induction w generalizing r with
  | nil => simp [feed, Bytes.ofLittleEndian]
  | cons b w ih =>
    rw [List.length_cons] at h
    have hlt : Bytes.ofLittleEndian w * 2 ^ 8 < 2 ^ 32 := by
      have hw := Bytes.ofLittleEndian_lt w
      have hpow : 256 ^ w.length ≤ 256 ^ 3 := Nat.pow_le_pow_right (by decide) (by omega)
      omega
    -- the later bytes wait in the high bits while the first one is divided out
    calc feed r (b :: w)
        = bit^[8 * w.length] (byte r b ^^^ UInt32.ofNat (Bytes.ofLittleEndian w)) := ih (by omega)
      _ = bit^[8 * w.length] (bit^[8] (r ^^^ b.toUInt32) ^^^
            bit^[8] (UInt32.ofNat (Bytes.ofLittleEndian w * 2 ^ 8))) := by
          rw [byte_eq, iterate_bit_ofNat 8 _ hlt]
      _ = bit^[8 * w.length] (bit^[8] (r ^^^ UInt32.ofNat (Bytes.ofLittleEndian (b :: w)))) := by
          rw [← iterate_bit_xor, Bytes.ofLittleEndian, ofNat_add_mul b hlt, UInt32.xor_assoc]
      _ = bit^[8 * (b :: w).length] (r ^^^ UInt32.ofNat (Bytes.ofLittleEndian (b :: w))) := by
          rw [← Function.iterate_add_apply, List.length_cons, Nat.mul_succ]

/-- Of one length up to four, only one byte string takes the register to where
    it is. -/
theorem feed_window_eq {r : UInt32} {v w : Bytes} (hlen : v.length = w.length)
    (h4 : v.length ≤ 4) (h : feed r v = feed r w) : v = w := by
  rw [feed_of_le_four h4, feed_of_le_four (hlen ▸ h4), hlen] at h
  have hword := (UInt32.xor_right_inj r).1 (bit_injective.iterate _ h)
  have hlt : ∀ bs : Bytes, bs.length ≤ 4 → Bytes.ofLittleEndian bs < 2 ^ 32 := by
    intro bs hbs
    have hpow : 256 ^ bs.length ≤ 256 ^ 4 := Nat.pow_le_pow_right (by decide) hbs
    exact Nat.lt_of_lt_of_le (Bytes.ofLittleEndian_lt bs) hpow
  have hnat := congrArg UInt32.toNat hword
  rw [UInt32.toNat_ofNat_of_lt' (hlt v h4), UInt32.toNat_ofNat_of_lt' (hlt w (hlen ▸ h4))] at hnat
  rw [← Bytes.littleEndian_ofLittleEndian v, ← Bytes.littleEndian_ofLittleEndian w, hnat, hlen]

/-- **A check value fixes any four bytes in a row.** -/
theorem window_eq {front v w back : Bytes} (hlen : v.length = w.length) (h4 : v.length ≤ 4)
    (h : crc32 (front ++ v ++ back) = crc32 (front ++ w ++ back)) : v = w := by
  have hfeed := (UInt32.xor_left_inj 0xffffffff).1 h
  rw [feed_append, feed_append, feed_append, feed_append] at hfeed
  exact feed_window_eq hlen h4 (feed_injective back hfeed)

/-- The same by places: byte strings of one check value that differ in at most
    four bytes in a row do not differ at all. -/
theorem eq_of_outside {i n : ℕ} {bs bs' : Bytes} (hlen : bs'.length = bs.length) (hn : n ≤ 4)
    (hout : ∀ j, j < i ∨ i + n ≤ j → bs'[j]? = bs[j]?) (h : crc32 bs' = crc32 bs) : bs' = bs := by
  have hsplit : ∀ l : Bytes, l = l.take i ++ (l.drop i).take n ++ l.drop (i + n) := by
    intro l
    rw [List.append_assoc, ← List.drop_drop, List.take_append_drop, List.take_append_drop]
  have htake : bs'.take i = bs.take i := by
    apply List.ext_getElem?
    intro j
    rw [List.getElem?_take, List.getElem?_take]
    split_ifs with hj
    · exact hout j (Or.inl hj)
    · rfl
  have hdrop : bs'.drop (i + n) = bs.drop (i + n) := by
    apply List.ext_getElem?
    intro j
    rw [List.getElem?_drop, List.getElem?_drop]
    exact hout _ (Or.inr (Nat.le_add_right _ _))
  rw [hsplit bs', hsplit bs, htake, hdrop] at h
  have hwindow := window_eq (by simp [hlen]) (by simp; omega) h
  rw [hsplit bs', hsplit bs, htake, hdrop, hwindow]

end Crc32

/-- The check value that the standard gives for the digits from 1 to 9. -/
example : crc32 [0x31, 0x32, 0x33, 0x34, 0x35, 0x36, 0x37, 0x38, 0x39] = 0xCBF43926 := by
  decide +kernel

/-! ## Damage -/

/-- A byte string changed, and only within the `n` bytes from place `i` on. -/
structure ChangedWithin (i n : ℕ) (d d' : Bytes) : Prop where
  length : d'.length = d.length
  ne : d' ≠ d
  outside : ∀ j, j < i ∨ i + n ≤ j → d'[j]? = d[j]?

/-- A byte string changed within at most four bytes in a row, all of them before
    the check value or all of them in it. -/
def Damaged (d d' : Bytes) : Prop :=
  ∃ i n, n ≤ 4 ∧ (i + n + trailerSize ≤ d.length ∨ d.length ≤ i + trailerSize) ∧
    ChangedWithin i n d d'

/-- Of what it accepts, an acceptor refuses everything that damage, the loss of
    bytes at the end, or bytes put behind make of it. -/
structure Detects (accepts : Bytes → Bool) : Prop where
  damaged : ∀ d d', accepts d = true → Damaged d d' → accepts d' = false
  /-- In particular, one byte changed. -/
  changed : ∀ d i b, accepts d = true → i < d.length → d[i]? ≠ some b →
    accepts (d.set i b) = false
  shortened : ∀ d k, accepts d = true → k < d.length → accepts (d.take k) = false
  extended : ∀ d more, accepts d = true → more ≠ [] → accepts (d ++ more) = false

/-- Who accepts less detects as much. -/
theorem Detects.of_imp {accepts accepts' : Bytes → Bool} (h : Detects accepts)
    (himp : ∀ d, accepts' d = true → accepts d = true) : Detects accepts' := by
  have hfalse : ∀ d, accepts d = false → accepts' d = false := by
    intro d hd
    rw [Bool.eq_false_iff] at hd ⊢
    exact fun hd' => hd (himp d hd')
  constructor
  · exact fun d d' hd hdam => hfalse _ (h.damaged d d' (himp d hd) hdam)
  · exact fun d i b hd hi hb => hfalse _ (h.changed d i b (himp d hd) hi hb)
  · exact fun d k hd hk => hfalse _ (h.shortened d k (himp d hd) hk)
  · exact fun d more hd hmore => hfalse _ (h.extended d more (himp d hd) hmore)

namespace Frame

/-- **No frame is the front of another**: the header tells the length. -/
theorem eq_of_isPrefix {d d' : Bytes} {f f' : Frame} (hd : decode d = .ok f)
    (hd' : decode d' = .ok f') (hpre : d <+: d') : d = d' := by
  obtain ⟨h, payload⟩ := f
  obtain ⟨h', payload'⟩ := f'
  obtain ⟨hversion, hsize, rfl⟩ := decode_eq_ok_iff.1 hd
  obtain ⟨hversion', hsize', rfl⟩ := decode_eq_ok_iff.1 hd'
  obtain ⟨more, hmore⟩ := hpre
  -- both headers are read off the same bytes, those of the longer string
  have hheader : h = h' := by
    have hread := Header.decode_eq_ok_iff.2
      ⟨hversion, payload ++ Bytes.be32 (crc32 (h.encode ++ payload)) ++ more, rfl⟩
    have hread' := Header.decode_eq_ok_iff.2
      ⟨hversion', payload' ++ Bytes.be32 (crc32 (h'.encode ++ payload')), rfl⟩
    have hsame : h.encode ++ (payload ++ Bytes.be32 (crc32 (h.encode ++ payload)) ++ more) =
        h'.encode ++ (payload' ++ Bytes.be32 (crc32 (h'.encode ++ payload'))) := by
      simpa [sealed] using hmore
    rw [hsame, hread'] at hread
    exact (Except.ok.inj hread).symm
  subst hheader
  have hlen : (sealed (h.encode ++ payload)).length = (sealed (h.encode ++ payload')).length := by
    simp [sealed, ← hsize, ← hsize']
  exact List.IsPrefix.eq_of_length ⟨more, hmore⟩ hlen

/-- Byte strings that, sealed, differ in at most four bytes in a row on one side
    of the place where the check value begins, do not differ at all. -/
theorem body_eq_of_outside {i n : ℕ} {body body' : Bytes} (hlen : body'.length = body.length)
    (hn : n ≤ 4) (hside : i + n ≤ body.length ∨ body.length ≤ i)
    (hout : ∀ j, j < i ∨ i + n ≤ j → (sealed body')[j]? = (sealed body)[j]?) :
    body' = body := by
  have hbody : ∀ j, j < i ∨ i + n ≤ j → j < body.length → body'[j]? = body[j]? := by
    intro j hj hjlen
    have hsealed := hout j hj
    rw [sealed, sealed, List.getElem?_append_left (hlen ▸ hjlen),
      List.getElem?_append_left hjlen] at hsealed
    exact hsealed
  have hends : ∀ j, j < i ∨ i + n ≤ j → body'[j]? = body[j]? := by
    intro j hj
    by_cases hjlen : j < body.length
    · exact hbody j hj hjlen
    · rw [List.getElem?_eq_none (by omega), List.getElem?_eq_none (by omega)]
  -- before the check value: it is the same on both sides and fixes the window;
  -- inside it: the bodies do not differ to begin with
  rcases hside with hfront | htrailer
  · have hcrc : crc32 body' = crc32 body := by
      apply Bytes.be32_inj.1
      have hdrop : (sealed body').drop body.length = (sealed body).drop body.length := by
        apply List.ext_getElem?
        intro j
        rw [List.getElem?_drop, List.getElem?_drop]
        exact hout _ (Or.inr (by omega))
      rw [sealed, sealed, ← hlen, List.drop_left, hlen, List.drop_left] at hdrop
      exact hdrop
    exact Crc32.eq_of_outside hlen hn hends hcrc
  · apply List.ext_getElem?
    intro j
    by_cases hj : j < i
    · exact hends j (Or.inl hj)
    · rw [List.getElem?_eq_none (by omega), List.getElem?_eq_none (by omega)]

theorem eq_ok_of_isOk {d : Bytes} (h : (decode d).isOk = true) : ∃ f, decode d = .ok f := by
  cases hd : decode d with
  | ok f => exact ⟨f, rfl⟩
  | error e =>
    rw [hd] at h
    cases h

theorem not_damaged_of_decode {d d' : Bytes} {f f' : Frame} (hd : decode d = .ok f)
    (hd' : decode d' = .ok f') : ¬ Damaged d d' := by
  rintro ⟨i, n, hn, hside, hchanged⟩
  obtain ⟨h, payload⟩ := f
  obtain ⟨h', payload'⟩ := f'
  obtain ⟨-, -, rfl⟩ := decode_eq_ok_iff.1 hd
  obtain ⟨-, -, rfl⟩ := decode_eq_ok_iff.1 hd'
  have hlen := hchanged.length
  simp only [sealed, List.length_append, Bytes.length_be32] at hlen
  have hbody := body_eq_of_outside (by simp only [List.length_append]; omega) hn
    (by simp only [sealed, trailerSize, List.length_append, Bytes.length_be32] at hside ⊢; omega)
    hchanged.outside
  exact hchanged.ne (by rw [hbody])

/-- **The frames detect damage.** -/
theorem detects : Detects fun d => (decode d).isOk := by
  have hdamaged : ∀ d d', (decode d).isOk = true → Damaged d d' → (decode d').isOk = false := by
    intro d d' hd hdam
    rw [Bool.eq_false_iff]
    intro hd'
    obtain ⟨f, hf⟩ := eq_ok_of_isOk hd
    obtain ⟨f', hf'⟩ := eq_ok_of_isOk hd'
    exact not_damaged_of_decode hf hf' hdam
  have hfront : ∀ d d', d <+: d' → d ≠ d' →
      ¬ ((decode d).isOk = true ∧ (decode d').isOk = true) := by
    rintro d d' hpre hne ⟨hd, hd'⟩
    obtain ⟨f, hf⟩ := eq_ok_of_isOk hd
    obtain ⟨f', hf'⟩ := eq_ok_of_isOk hd'
    exact hne (eq_of_isPrefix hf hf' hpre)
  constructor
  case damaged => exact hdamaged
  case changed =>
    intro d i b hd hi hb
    refine hdamaged d _ hd ⟨i, 1, by decide, by omega, by simp, ?_, ?_⟩
    · intro heq
      rw [← heq, List.getElem?_set_self hi] at hb
      exact hb rfl
    · intro j hj
      exact List.getElem?_set_ne (by omega)
  case shortened =>
    intro d k hd hk
    rw [Bool.eq_false_iff]
    intro hshort
    refine hfront _ d (List.take_prefix k d) ?_ ⟨hshort, hd⟩
    intro heq
    have hlen := congrArg List.length heq
    rw [List.length_take] at hlen
    omega
  case extended =>
    intro d more hd hmore
    rw [Bool.eq_false_iff]
    intro hlong
    refine hfront d _ (List.prefix_append d more) ?_ ⟨hd, hlong⟩
    intro heq
    exact hmore (List.append_right_eq_self.1 heq.symm)

end Frame

/-! ## All that decode datagrams -/

theorem InputPacket.isOk_of_decode {d : Bytes} (h : (InputPacket.decode d).isSome = true) :
    (Frame.decode d).isOk = true := by
  obtain ⟨p, hp⟩ := Option.isSome_iff_exists.1 h
  obtain ⟨f, hf, -⟩ := frame_of_decode hp
  simp [hf, Except.isOk, Except.toBool]

theorem Message.isOk_of_decode {μ : Type} [Message μ] {d : Bytes}
    (h : (Message.decode (μ := μ) d).isSome = true) : (Frame.decode d).isOk = true := by
  obtain ⟨⟨header, m⟩, hm⟩ := Option.isSome_iff_exists.1 h
  obtain ⟨f, hf, -, -⟩ := decode_eq_some hm
  simp [hf, Except.isOk, Except.toBool]

/-- **Whatever decodes datagrams sees every damage**: a change within four bytes
    in a row on one side of where the check value begins, of one byte in
    particular, the loss of bytes at the end, and bytes put behind. -/
theorem damage_is_detected :
    Detects (fun d => (Frame.decode d).isOk) ∧
    Detects (fun d => (InputPacket.decode d).isSome) ∧
    ∀ (μ : Type) [Message μ], Detects fun d => (Message.decode (μ := μ) d).isSome :=
  ⟨Frame.detects, Frame.detects.of_imp fun _ => InputPacket.isOk_of_decode,
    fun _ _ => Frame.detects.of_imp fun _ => Message.isOk_of_decode⟩

end Netplay
