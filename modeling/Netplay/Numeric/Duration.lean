/-
  Lengths of time, in whole nanoseconds.

  `seconds` is the single-precision number of seconds: the whole seconds and
  the rest are rounded apart and then added, so three roundings in all.
-/
import Netplay.Numeric.Binary32

namespace Netplay

/-- A length of time, or an instant counted from a common origin, in
    nanoseconds. -/
abbrev Duration := Nat

namespace Duration

def perSecond : Nat := 1000000000

def milliseconds (n : Nat) : Duration := n * 1000000

def seconds (d : Duration) : Binary32 :=
  Binary32.ofNat (d / perSecond) + Binary32.ofNat (d % perSecond) / Binary32.ofNat perSecond

end Duration

end Netplay
