/-
  Sequence numbers that travel as their 16 low bits.

  * `newer a b`: going up from `b`, wrapping round, `a` is met within half a
    round.  Of two different numbers one is newer than the other, at the
    distance of half a round the smaller one.
  * `widen reference wire`: the full number that the low bits `wire` stand
    for, taken nearest to `reference`.
-/
import Netplay.Bytes.Word

namespace Netplay

namespace Sequence

/-- Half a round: the farthest that a newer number may lie ahead. -/
def halfRound : UInt16 := 32767

def round : UInt32 := 0x10000

def newer (a b : UInt16) : Bool :=
  (a > b && a - b ≤ halfRound) || (a < b && b - a > halfRound)

/-- The full number with the low bits `wire` in the round of `reference`, the
    round after it or the round before it.  There is no round before the
    first, and the round after the last is the first. -/
def widen (reference : UInt32) (wire : UInt16) : UInt32 :=
  let base := reference &&& 0xffff0000
  let candidate := base ||| wire.toUInt32
  let low := reference.toUInt16
  if newer wire low then
    if wire < low then candidate + round else candidate
  else if wire > low && base ≥ round then candidate - round
  else candidate

end Sequence

end Netplay
