/-
  Texts come back.

  A decoder between two characters that is fed one character's bytes stands
  between two characters again, with that character added.  The first byte says
  how many bytes follow and where the next of them may lie; that it does lie
  there is what makes the code point one that has no shorter form and is no
  surrogate.

  * `Utf8.Decoder.feed_char`: one character;
  * `Utf8.decode_encode`: a text;
  * `Reader.text_append`: a text behind its length.
-/
import Mathlib.Tactic.IntervalCases
import Netplay.Bytes.Utf8
import Netplay.Proofs.Wire

namespace Netplay

namespace Utf8

namespace Decoder

/-! ## First bytes -/

theorem start_one {n : ℕ} (hn : n < 0x80) (d : Decoder) :
    d.start (UInt8.ofNat n) = d.emit (Char.ofNat n) := by
  have hbyte : n < 256 := by omega
  have hto : (UInt8.ofNat n).toNat = n := UInt8.toNat_ofNat_of_lt' hbyte
  have hlow : UInt8.ofNat n < 0x80 := by
    rw [UInt8.lt_iff_toNat_lt, hto]
    exact hn
  rw [start, if_pos hlow, hto]

theorem start_two {n : ℕ} (h2 : 2 ≤ n) (hn : n < 32) (d : Decoder) :
    d.start (UInt8.ofNat (n + 0xc0)) = ⟨some ⟨n, 0, 0x80, 0xBF⟩, d.text⟩ := by
  interval_cases n <;> rfl

theorem start_three {n : ℕ} (hn : n < 16) (d : Decoder) :
    d.start (UInt8.ofNat (n + 0xe0)) =
      ⟨some ⟨n, 1, if n = 0 then 0xA0 else 0x80, if n = 13 then 0x9F else 0xBF⟩, d.text⟩ := by
  interval_cases n <;> rfl

theorem start_four {n : ℕ} (hn : n < 5) (d : Decoder) :
    d.start (UInt8.ofNat (n + 0xf0)) =
      ⟨some ⟨n, 2, if n = 0 then 0x90 else 0x80, if n = 4 then 0x8F else 0xBF⟩, d.text⟩ := by
  interval_cases n <;> rfl

/-! ## Bytes that go on -/

/-- The byte that carries the low six bits of a number. -/
theorem toNat_continuation (n : ℕ) : (UInt8.ofNat (n % 64 + 0x80)).toNat = n % 64 + 128 := by
  have hbyte : n % 64 + 128 < 256 := by omega
  exact UInt8.toNat_ofNat_of_lt' hbyte

theorem continuation_within {low high : UInt8} {n : ℕ} (hlow : low.toNat ≤ n % 64 + 128)
    (hhigh : n % 64 + 128 ≤ high.toNat) :
    low ≤ UInt8.ofNat (n % 64 + 0x80) ∧ UInt8.ofNat (n % 64 + 0x80) ≤ high := by
  rw [UInt8.le_iff_toNat_le, UInt8.le_iff_toNat_le, toNat_continuation]
  exact ⟨hlow, hhigh⟩

theorem sixBits_continuation (n : ℕ) : (n % 64 + 128) % 64 = n % 64 := by omega

variable {low high : UInt8} {bits more n : ℕ} {text : List Char}

theorem push_last (hlow : low.toNat ≤ n % 64 + 128) (hhigh : n % 64 + 128 ≤ high.toNat) :
    push ⟨some ⟨bits, 0, low, high⟩, text⟩ (UInt8.ofNat (n % 64 + 0x80)) =
      ⟨none, Char.ofNat (bits * 64 + n % 64) :: text⟩ := by
  simp only [push, if_pos (continuation_within hlow hhigh), toNat_continuation,
    sixBits_continuation, emit]

theorem push_more (hlow : low.toNat ≤ n % 64 + 128) (hhigh : n % 64 + 128 ≤ high.toNat) :
    push ⟨some ⟨bits, more + 1, low, high⟩, text⟩ (UInt8.ofNat (n % 64 + 0x80)) =
      ⟨some ⟨bits * 64 + n % 64, more, 0x80, 0xBF⟩, text⟩ := by
  simp only [push, if_pos (continuation_within hlow hhigh), toNat_continuation,
    sixBits_continuation]

/-! ## Characters and texts -/

/-- **A character's bytes are read as that character.** -/
theorem feed_char (c : Char) (text : List Char) :
    (String.utf8EncodeChar c).foldl push ⟨none, text⟩ = ⟨none, c :: text⟩ := by
  have hvalid : c.val.toNat < 0xd800 ∨ 0xdfff < c.val.toNat ∧ c.val.toNat < 0x110000 := c.valid
  have hback : Char.ofNat c.val.toNat = c := Char.ofNat_toNat c
  have hfirst : ∀ b, push ⟨none, text⟩ b = start ⟨none, text⟩ b := fun _ => rfl
  have h80 : UInt8.toNat 0x80 = 128 := rfl
  have hbf : UInt8.toNat 0xBF = 191 := rfl
  unfold String.utf8EncodeChar
  revert hvalid hback
  generalize c.val.toNat = v
  intro hvalid hback
  dsimp only
  -- by the number of bytes; the bits cut off by each of them are those of the next
  split_ifs with h1 h2 h3
  · rw [List.foldl_cons, hfirst, start_one (by omega), hback]
    rfl
  · have hlead : v / 64 % 32 = v / 64 := by omega
    rw [List.foldl_cons, hfirst, hlead, start_two (by omega) (by omega), List.foldl_cons,
      push_last (by omega) (by omega)]
    rw [show v / 64 * 64 + v % 64 = v by omega, hback]
    rfl
  · have hlead : v / 4096 % 16 = v / 4096 := by omega
    rw [List.foldl_cons, hfirst, hlead, start_three (by omega), List.foldl_cons,
      push_more ?low ?high, List.foldl_cons, push_last (by omega) (by omega)]
    · rw [show (v / 4096 * 64 + v / 64 % 64) * 64 + v % 64 = v by omega, hback]
      rfl
    case low =>
      split_ifs with hzero
      · show 160 ≤ _
        omega
      · omega
    case high =>
      split_ifs with hd
      · show _ ≤ 159
        omega
      · omega
  · have hlead : v / 262144 % 8 = v / 262144 := by omega
    rw [List.foldl_cons, hfirst, hlead, start_four (by omega), List.foldl_cons,
      push_more ?low ?high, List.foldl_cons, push_more (by omega) (by omega), List.foldl_cons,
      push_last (by omega) (by omega)]
    · rw [show ((v / 262144 * 64 + v / 4096 % 64) * 64 + v / 64 % 64) * 64 + v % 64 = v by omega,
        hback]
      rfl
    case low =>
      split_ifs with hzero
      · show 144 ≤ _
        omega
      · omega
    case high =>
      split_ifs with hfour
      · show _ ≤ 143
        omega
      · omega

theorem feed_text (cs text : List Char) :
    (cs.flatMap String.utf8EncodeChar).foldl push ⟨none, text⟩ = ⟨none, cs.reverse ++ text⟩ := by
  induction cs generalizing text with
  | nil => rfl
  | cons c cs ih =>
    rw [List.flatMap_cons, List.foldl_append, feed_char, ih, List.reverse_cons, List.append_assoc]
    rfl

end Decoder

/-- **A text's bytes are read as that text.** -/
theorem decode_encode (s : String) : decode (encode s) = s := by
  have hfeed : (encode s).foldl Decoder.push {} = ⟨none, s.toList.reverse⟩ := by
    rw [encode, ← List.append_nil s.toList.reverse]
    exact Decoder.feed_text s.toList []
  rw [decode, hfeed, Decoder.finish, List.reverse_reverse, String.ofList_toList]

end Utf8

namespace Reader

/-- A byte string behind its length. -/
theorem prefixed_append {n : UInt16} {v : Bytes} (h : v.length = n.toNat) (rest : Bytes) :
    prefixed (Bytes.be16 n ++ (v ++ rest)) = (some v, rest) := by
  rw [prefixed, bind_of_some (u16_be16 n _)]
  exact take_append v rest h

theorem text_append {s : String} {rest : Bytes} (h : (Utf8.encode s).length ≤ Bytes.maxPrefixed) :
    text (Bytes.be16 (UInt16.ofNat (Utf8.encode s).length) ++ (Utf8.encode s ++ rest)) =
      (some s, rest) := by
  have hlen : (UInt16.ofNat (Utf8.encode s).length).toNat = (Utf8.encode s).length :=
    UInt16.toNat_ofNat_of_lt' (Nat.lt_succ_of_le h)
  rw [text, bind_of_some (prefixed_append hlen.symm rest), Utf8.decode_encode]
  rfl

end Reader

end Netplay
