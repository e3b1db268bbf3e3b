/-
  Single-precision numbers, kept as the 32 bits they travel and are hashed as.

  Positions, angles and timers are stored, sent and digested by their bits, so
  equality of two numbers here is equality of bits: a number that passed
  through the game untouched is the same number, whatever pattern it has.

  * `Binary32` with `+`, `-`, `*`, `/`, `sqrt`: one rounding to nearest per
    operation, in the order written.
  * `sameValue`, `lt`, `le`: the numeric comparisons, in which both zeros are
    the same and a number that is not one compares with nothing.
  * `isFinite`, `isNaN`: read off the exponent and fraction fields.
-/

namespace Netplay

/-- A single-precision number, by its bits. -/
structure Binary32 where
  /-- Sign, eight exponent bits and 23 fraction bits, from the top. -/
  bits : UInt32
  deriving DecidableEq, Inhabited

namespace Binary32

def value (a : Binary32) : Float32 := Float32.ofBits a.bits

def ofValue (v : Float32) : Binary32 := ⟨v.toBits⟩

def zero : Binary32 := ⟨0⟩

def one : Binary32 := ⟨0x3f800000⟩

def two : Binary32 := ⟨0x40000000⟩

/-- The number nearest to a natural number, ties to the even neighbour. -/
def ofNat (n : Nat) : Binary32 := ofValue (Float32.ofNat n)

instance : Add Binary32 := ⟨fun a b => ofValue (a.value + b.value)⟩
instance : Sub Binary32 := ⟨fun a b => ofValue (a.value - b.value)⟩
instance : Mul Binary32 := ⟨fun a b => ofValue (a.value * b.value)⟩
instance : Div Binary32 := ⟨fun a b => ofValue (a.value / b.value)⟩

def sqrt (a : Binary32) : Binary32 := ofValue a.value.sqrt

/-- The magnitude: the sign bit cleared. -/
def abs (a : Binary32) : Binary32 := ⟨a.bits &&& 0x7fffffff⟩

/-- Numeric equality. -/
def sameValue (a b : Binary32) : Bool := a.value == b.value

/-- Numerically smaller. -/
def lt (a b : Binary32) : Bool := decide (a.value < b.value)

def le (a b : Binary32) : Bool := decide (a.value ≤ b.value)

def exponent (a : Binary32) : UInt32 := (a.bits >>> 23) &&& 0xff

def fraction (a : Binary32) : UInt32 := a.bits &&& 0x007fffff

/-- Neither infinite nor a non-number: the exponent field is not all ones. -/
def isFinite (a : Binary32) : Bool := a.exponent != 0xff

/-- Not a number: the exponent field is all ones and the fraction is not zero. -/
def isNaN (a : Binary32) : Bool := a.exponent == 0xff && a.fraction != 0

end Binary32

end Netplay
