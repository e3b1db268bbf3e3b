/-
  Numbers that travel as their low bits.

  A command has a full number; the wire carries `UInt16.ofNat` of it.  As long
  as two full numbers lie within half a round of each other, the low bits still
  say which is the greater (`newer_ofNat`), and the full number comes back from
  the low bits and a reference (`toNat_widen_of_near`).  For references below the
  last round any low bits are widened to the nearest number that has them
  (`widens_exactly`).
-/
import Mathlib.Data.Nat.Dist
import Mathlib.Data.Nat.Notation
import Mathlib.Tactic.Common
import Netplay.Packet.Sequence

namespace Netplay

namespace Sequence

/-- Two full numbers are within half a round of each other. -/
def Near (m n : ℕ) : Prop := m ≤ n + 32767 ∧ n ≤ m + 32767

instance (m n : ℕ) : Decidable (Near m n) := inferInstanceAs (Decidable (_ ∧ _))

/-! ## Which is newer -/

theorem newer_iff (a b : UInt16) : newer a b = true ↔
    (b.toNat < a.toNat ∧ a.toNat - b.toNat ≤ 32767) ∨
      (a.toNat < b.toNat ∧ 32767 < b.toNat - a.toNat) := by
  have hhalf : halfRound.toNat = 32767 := rfl
  simp only [newer, Bool.or_eq_true, Bool.and_eq_true, decide_eq_true_eq, gt_iff_lt]
  refine or_congr (and_congr UInt16.lt_iff_toNat_lt Iff.rfl |>.trans (and_congr_right fun h => ?_))
    (and_congr UInt16.lt_iff_toNat_lt Iff.rfl |>.trans (and_congr_right fun h => ?_))
  · have hle : b ≤ a := UInt16.le_iff_toNat_le.2 (Nat.le_of_lt h)
    rw [UInt16.le_iff_toNat_le, hhalf, UInt16.toNat_sub_of_le a b hle]
  · have hle : a ≤ b := UInt16.le_iff_toNat_le.2 (Nat.le_of_lt h)
    rw [UInt16.lt_iff_toNat_lt, hhalf, UInt16.toNat_sub_of_le b a hle]

/-- **The low bits of near numbers compare as the numbers.** -/
theorem newer_ofNat {m n : ℕ} (h : Near m n) :
    newer (UInt16.ofNat m) (UInt16.ofNat n) = true ↔ n < m := by
  obtain ⟨h1, h2⟩ := h
  rw [newer_iff, UInt16.toNat_ofNat', UInt16.toNat_ofNat']
  omega

/-! ## The full number -/

theorem toNat_base (n : UInt32) : (n &&& 0xffff0000).toNat = 65536 * (n.toNat / 65536) := by
  have hlt := n.toNat_lt
  have hmask : (0xffff0000 : UInt32).toNat = 2 ^ 16 * (2 ^ 16 - 1) := rfl
  have hsplit : n.toNat = 2 ^ 16 * (n.toNat / 65536) + n.toNat % 65536 := by omega
  rw [UInt32.toNat_and, hmask]
  refine Nat.eq_of_testBit_eq fun i => ?_
  rw [Nat.testBit_and, Nat.testBit_two_pow_mul, Nat.testBit_two_pow_sub_one,
    show 65536 * (n.toNat / 65536) = 2 ^ 16 * (n.toNat / 2 ^ 16) from rfl, Nat.testBit_two_pow_mul,
    Nat.testBit_div_two_pow]
  by_cases h16 : 16 ≤ i
  · by_cases h32 : i < 32
    · simp [h16, show i - 16 < 16 by omega, show i - 16 + 16 = i by omega]
    · have hzero : n.toNat.testBit i = false := Nat.testBit_lt_two_pow
        (Nat.lt_of_lt_of_le hlt (Nat.pow_le_pow_right (by omega) (by omega)))
      simp [h16, show ¬ i - 16 < 16 by omega, show i - 16 + 16 = i by omega, hzero]
  · simp [h16]

theorem toNat_candidate (reference : UInt32) (wire : UInt16) :
    ((reference &&& 0xffff0000) ||| wire.toUInt32).toNat =
      65536 * (reference.toNat / 65536) + wire.toNat := by
  rw [UInt32.toNat_or, toNat_base, UInt16.toNat_toUInt32]
  exact (Nat.two_pow_add_eq_or_of_lt wire.toNat_lt _).symm

theorem toNat_widen (reference : UInt32) (wire : UInt16) :
    (widen reference wire).toNat =
      let candidate := 65536 * (reference.toNat / 65536) + wire.toNat
      if newer wire reference.toUInt16 then
        if wire.toNat < reference.toNat % 65536 then (candidate + 65536) % 4294967296 else candidate
      else if reference.toNat % 65536 < wire.toNat ∧ 65536 ≤ reference.toNat then candidate - 65536
      else candidate := by
  have hround : round.toNat = 65536 := rfl
  have hlow : reference.toUInt16.toNat = reference.toNat % 65536 := UInt32.toNat_toUInt16 _
  have hcand := toNat_candidate reference wire
  have hbase : round ≤ (reference &&& 0xffff0000) ↔ 65536 ≤ reference.toNat := by
    rw [UInt32.le_iff_toNat_le, hround, toNat_base]
    omega
  simp only [widen, UInt16.lt_iff_toNat_lt, gt_iff_lt, ge_iff_le, hlow, hbase, Bool.and_eq_true,
    decide_eq_true_eq]
  split_ifs with h1 h2 h3
  · rw [UInt32.toNat_add, hcand, hround]
  · exact hcand
  · rw [UInt32.toNat_sub_of_le, hcand, hround]
    rw [UInt32.le_iff_toNat_le, hcand, hround]
    omega
  · exact hcand

/-- **The full number comes back** from its low bits and a number near it. -/
theorem toNat_widen_of_near {reference : UInt32} {n : ℕ} (hn : n < 4294967296)
    (h : Near reference.toNat n) : (widen reference (UInt16.ofNat n)).toNat = n := by
  have hlt := reference.toNat_lt
  have hlow : reference.toUInt16 = UInt16.ofNat reference.toNat := rfl
  have hnewer := newer_ofNat (m := n) (n := reference.toNat) ⟨h.2, h.1⟩
  obtain ⟨h1, h2⟩ := h
  rw [toNat_widen, hlow, UInt16.toNat_ofNat']
  simp only [hnewer]
  split_ifs <;> omega

/-! ## The nearest number -/

/-- Of two different words just one is newer. -/
theorem newer_comm {a b : UInt16} (h : a ≠ b) : newer b a = !newer a b := by
  have hne : a.toNat ≠ b.toNat := fun heq => h (UInt16.toNat_inj.1 heq)
  have ha := a.toNat_lt
  have hb := b.toNat_lt
  rw [Bool.eq_iff_iff, Bool.not_eq_true', ← Bool.not_eq_true, newer_iff, newer_iff]
  omega

theorem near_iff_dist {m n : ℕ} : Near m n ↔ Nat.dist m n ≤ 32767 := by
  unfold Near Nat.dist
  omega

theorem toUInt16_eq_iff {n : UInt32} {wire : UInt16} :
    n.toUInt16 = wire ↔ n.toNat % 65536 = wire.toNat := by
  rw [← UInt16.toNat_inj, UInt32.toNat_toUInt16]

/-- **Below the last round** adding and subtracting rounds stays within the words.  It
    leads to within half a round of the reference, unless there is no round before. -/
theorem exists_round {reference : UInt32} (h : reference < 0xffff0000) (wire : UInt16) :
    ∃ k : ℤ, -1 ≤ k ∧ k ≤ 1 ∧
      ((widen reference wire).toNat : ℤ) = 65536 * (reference.toNat / 65536 + k) + wire.toNat ∧
      (Nat.dist (widen reference wire).toNat reference.toNat ≤ 32768 ∨
        (reference.toNat < wire.toNat ∧ (widen reference wire).toNat = wire.toNat)) := by
  have hlow : reference.toUInt16.toNat = reference.toNat % 65536 := UInt32.toNat_toUInt16 _
  have hbelow : reference.toNat < 4294901760 := UInt32.lt_iff_toNat_lt.1 h
  have hwire := wire.toNat_lt
  have hnewer := newer_iff wire reference.toUInt16
  rw [hlow] at hnewer
  rw [toNat_widen]
  simp only [hnewer, Nat.dist]
  split_ifs with hup hover hdown
  · exact ⟨1, by omega⟩
  · exact ⟨0, by omega⟩
  · exact ⟨-1, by omega⟩
  · exact ⟨0, by omega⟩

/-- **Widening is exact.**  Of two different words just one is newer, and of the low bits
    of different numbers near each other those of the greater.  With a reference below the
    last round, a word is widened to a number that has it as its low bits and than which
    none of these is closer; it lies in the reference's round or next to it, with no carry
    out of the words.  And a number near the reference comes back from its low bits. -/
theorem widens_exactly :
    (∀ a b : UInt16, a ≠ b → newer b a = !newer a b) ∧
    (∀ m n : UInt32, 0 < Nat.dist m.toNat n.toNat → Nat.dist m.toNat n.toNat ≤ 32767 →
      (newer m.toUInt16 n.toUInt16 = true ↔ n < m)) ∧
    (∀ (reference : UInt32) (wire : UInt16), reference < 0xffff0000 →
      (widen reference wire).toUInt16 = wire ∧
      (∀ n : UInt32, n.toUInt16 = wire →
        Nat.dist (widen reference wire).toNat reference.toNat ≤
          Nat.dist n.toNat reference.toNat) ∧
      ∃ k : ℤ, -1 ≤ k ∧ k ≤ 1 ∧
        ((widen reference wire).toNat : ℤ) =
          65536 * (reference.toNat / 65536 + k) + wire.toNat) ∧
    ∀ reference n : UInt32, Nat.dist reference.toNat n.toNat ≤ 32767 →
      widen reference n.toUInt16 = n := by
  refine ⟨fun a b => newer_comm, fun m n _ hnear => ?_, fun reference wire h => ?_,
    fun reference n hnear => ?_⟩
  · rw [UInt32.lt_iff_toNat_lt]
    exact newer_ofNat (near_iff_dist.2 hnear)
  · obtain ⟨k, hlow, hhigh, hvalue, hclose⟩ := exists_round h wire
    have hwire := wire.toNat_lt
    refine ⟨toUInt16_eq_iff.2 (by omega), fun n hn => ?_, k, hlow, hhigh, hvalue⟩
    -- another number with these low bits is at least a round away from this one
    have hmod := toUInt16_eq_iff.1 hn
    unfold Nat.dist at hclose ⊢
    omega
  · exact UInt32.toNat_inj.1 (toNat_widen_of_near n.toNat_lt (near_iff_dist.2 hnear))

/-- Low bits past the end of a round, and low bits half a round away, of which the number
    before the reference is as near as the one after it. -/
theorem widens_exactly_nextRound :
    newer 3 0xfffe = true ∧ newer 0xfffe 3 = false ∧ widen 0x1fffe 3 = 0x20003 ∧
      (widen 0x10003 0x8003).toNat = 0x8003 ∧
      ∀ n : UInt32, n.toUInt16 = 0x8003 →
        Nat.dist 0x8003 0x10003 ≤ Nat.dist n.toNat 0x10003 := by
  obtain ⟨hone, hnewer, hbelow, hback⟩ := widens_exactly
  have hlast : newer 3 0xfffe = true :=
    (hnewer 0x20003 0x1fffe (by decide) (by decide)).2 (by decide)
  have htie : (widen 0x10003 0x8003).toNat = 0x8003 := by decide
  refine ⟨hlast, ?_, hback 0x1fffe 0x20003 (by decide), htie, fun n hn => ?_⟩
  · rw [hone 3 0xfffe (by decide), hlast]
    rfl
  · have hclosest := (hbelow 0x10003 0x8003 (by decide)).2.1 n hn
    rwa [htie] at hclosest

/-- In the last round the number wraps: there is no round after it. -/
example : widen 0xffffffff 0 = 0 := by decide

end Sequence

end Netplay
