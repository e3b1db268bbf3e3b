/-
  Byte strings and the words laid out in them.

  * `bigEndian w n`, `littleEndian w n`: the `w` low bytes of `n`, most or
    least significant first.
  * `ofBigEndian`, `ofLittleEndian`: the number that a byte string spells.
  * `be16`, `be32`: the network order of packets and digests.
-/

namespace Netplay

abbrev Bytes := List UInt8

namespace Bytes

/-- The `w` low bytes of `n`, least significant first. -/
def littleEndian : Nat → Nat → Bytes
  | 0, _ => []
  | w + 1, n => UInt8.ofNat n :: littleEndian w (n / 256)

/-- The `w` low bytes of `n`, most significant first. -/
def bigEndian (w n : Nat) : Bytes := (littleEndian w n).reverse

/-- The number whose bytes, least significant first, are given. -/
def ofLittleEndian : Bytes → Nat
  | [] => 0
  | b :: bs => b.toNat + 256 * ofLittleEndian bs

def ofBigEndian (bs : Bytes) : Nat := bs.foldl (fun n b => n * 256 + b.toNat) 0

@[simp] theorem length_littleEndian (w n : Nat) : (littleEndian w n).length = w := by
  induction w generalizing n with
  | zero => rfl
  | succ w ih => simp [littleEndian, ih]

@[simp] theorem length_bigEndian (w n : Nat) : (bigEndian w n).length = w := by
  simp [bigEndian]

/-- Two bytes, most significant first. -/
def be16 (w : UInt16) : Bytes := bigEndian 2 w.toNat

def be32 (w : UInt32) : Bytes := bigEndian 4 w.toNat

@[simp] theorem length_be16 (w : UInt16) : (be16 w).length = 2 := by simp [be16]

@[simp] theorem length_be32 (w : UInt32) : (be32 w).length = 4 := by simp [be32]

end Bytes

end Netplay
