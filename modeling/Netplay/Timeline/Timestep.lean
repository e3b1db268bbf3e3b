/-
  Fixed time steps.

  Time that has passed is accumulated, at most a quarter of a second at a time
  so that a stall is not caught up with, and consumed one step per tick.  A
  step is a second divided by the rate, in whole nanoseconds; at more than
  10⁹ ticks a second it is zero, and then a tick is always due.
-/
import Netplay.Numeric.Duration

namespace Netplay

abbrev Tick := Nat

structure Timestep where
  /-- Ticks a second. -/
  rate : Nat
  step : Duration
  /-- Time not yet consumed. -/
  accumulated : Duration := 0
  /-- Ticks consumed. -/
  tick : Tick := 0
  deriving DecidableEq

namespace Timestep

def standardRate : UInt32 := 60

/-- The most time that is accumulated at once. -/
def maxDelta : Duration := Duration.milliseconds 250

/-- Time steps at a rate of at least one tick a second. -/
def ofRate (rate : UInt32) : Timestep :=
  let rate := max rate.toNat 1
  { rate := rate, step := Duration.perSecond / rate }

def dt (t : Timestep) : Binary32 := Duration.seconds t.step

def accumulate (t : Timestep) (delta : Duration) : Timestep :=
  { t with accumulated := t.accumulated + min delta maxDelta }

/-- The next tick, if it is due. -/
def consume? (t : Timestep) : Option (Tick × Timestep) :=
  if t.accumulated < t.step then none
  else some (t.tick + 1,
    { t with accumulated := t.accumulated - t.step, tick := t.tick + 1 })

def untilNext (t : Timestep) : Duration := t.step - t.accumulated

/-- Consume ticks until none is due, but at most `limit`. -/
def consumeUpTo : Nat → Timestep → List Tick × Timestep
  | 0, t => ([], t)
  | limit + 1, t =>
    match t.consume? with
    | none => ([], t)
    | some (tick, t) =>
      let (ticks, t) := consumeUpTo limit t
      (tick :: ticks, t)

/-- Consume every tick that is due.  If steps have no length there is no last
    one, and none is consumed. -/
def consumeAll (t : Timestep) : List Tick × Timestep :=
  if t.step = 0 then ([], t) else consumeUpTo (t.accumulated / t.step) t

end Timestep

end Netplay
