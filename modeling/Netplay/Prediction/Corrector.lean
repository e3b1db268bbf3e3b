/-
  Reconciliation: comparing a predicted position with the server's, and
  correcting it.

  The error is the distance between the two as a fraction of the server's
  distance from the origin.  From the hard threshold on it is corrected at
  once, from the soft one on only when the last correction is long enough ago.
  A correction starts from the server's position and plays the commands again
  that the server has not applied, in ascending order of number.
-/
import Netplay.World.Movement
import Netplay.World.Basic

namespace Netplay

/-- When and how predictions are corrected. -/
structure Tolerance where
  /-- Units per second. -/
  moveSpeed : Binary32 := Movement.standardSpeed
  /-- The error from which on a prediction is corrected at once. -/
  hardThreshold : Binary32 := ⟨0x3d4ccccd⟩
  /-- The error from which on it is corrected after the cooldown. -/
  softThreshold : Binary32 := ⟨0x3ca3d70a⟩
  /-- Seconds after a correction until a soft one. -/
  softCooldown : Binary32 := .two
  /-- Seconds from one update by the server to the next. -/
  updateInterval : Binary32 := ⟨0x3d4ccccd⟩
  deriving DecidableEq

/-- What came of a comparison. -/
inductive Verdict where
  /-- The entity is dead or lacks a transform or a history. -/
  | skipped
  /-- The error was left. -/
  | within (error : Binary32)
  | corrected (error : Binary32) (replayed : Nat)
  deriving DecidableEq

structure Corrector where
  config : Tolerance
  /-- Seconds since the last correction, by updates. -/
  sinceCorrection : Binary32 := .zero
  deriving DecidableEq

namespace Corrector

/-- The distance from a predicted to the true position, as a fraction of the
    true one's distance from the origin if that is not zero. -/
def relativeError (predicted authoritative : Vec2) : Binary32 :=
  let error := predicted.distance authoritative
  let magnitude := authoritative.length
  if Binary32.lt .zero magnitude then error / magnitude else error

/-- The commands newer than `ack`, in ascending order of number; those of one
    number in the order of the history. -/
def unconfirmed (h : CommandLog) (ack : UInt32) : List Command :=
  (h.after ack).mergeSort fun a b => a.sequence ≤ b.sequence

/-- Where commands lead from a position. -/
def replay (speed : Binary32) (start : Vec2) (commands : List Command) : Vec2 :=
  commands.foldl (fun p c => Movement.apply p c.buttons speed c.deltaTime) start

/-- An error is corrected: it is hard, or soft and the cooldown is over. -/
def mustCorrect (c : Corrector) (error : Binary32) : Bool :=
  Binary32.le c.config.hardThreshold error ||
    (Binary32.le c.config.softThreshold error &&
      Binary32.le c.config.softCooldown c.sinceCorrection)

/-- Compare the position of an entity with the server's, correct it if need
    be, and drop the commands that the server has applied. -/
def reconcile (c : Corrector) (r : World) (id : EntityId) (authoritative : Vec2)
    (ack : UInt32) : Verdict × Corrector × World :=
  match r.isAlive id, r.get? .history id, r.get? .transform id with
  | true, some history, some transform =>
    let error := relativeError transform.position authoritative
    let c := { c with sinceCorrection := c.sinceCorrection + c.config.updateInterval }
    let confirm (r : World) := r.modify .history id fun h => h.acknowledge ack
    if c.mustCorrect error then
      let commands := unconfirmed history ack
      let position := replay c.config.moveSpeed authoritative commands
      (.corrected error commands.length, { c with sinceCorrection := .zero },
        confirm (r.modify .transform id fun t => { t with position := position }))
    else (.within error, c, confirm r)
  | _, _, _ => (.skipped, c, r)

end Corrector

end Netplay
