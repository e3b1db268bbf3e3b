/-
  Capturing worlds and going back to them.

  `capture` records every live entity that has a transform.  `rewind` makes
  the entities with a transform those of a recorded world again: others are
  destroyed, missing ones brought back to life, and every state is written
  back, in ascending order of id.  Going back to a tick that is not recorded is
  refused and changes nothing.  With `rewindCalling` a callback hears of it.
-/
import Netplay.Timeline.Basic
import Netplay.World.Digest

namespace Netplay

namespace World

variable {σ : Type} [EntityState σ]

/-- The states of all live entities that have a transform. -/
def states (r : World) : EntityMap σ := r.alive.filterMap fun id _ => EntityState.capture r id

/-- Bring an entity back to life if need be and write its state; a state
    without captured values, or one of an id that cannot live, is left out. -/
def restoreOne (r : World) (id : EntityId) (s : σ) : World :=
  if !EntityState.isInitialized s then r
  else if r.isAlive id then EntityState.restore s r id
  else match r.spawn id with
    | (true, r) => EntityState.restore s r id
    | (false, r) => r

/-- Make the entities with a transform those of `world`. -/
def restoreAll (r : World) (world : EntityMap σ) : World :=
  let stale := (r.entitiesWith .transform).filter fun id => !world.contains id
  let r := stale.foldl (fun r id => (r.destroy id).2) r
  world.entries.foldl (fun r p => r.restoreOne p.1 p.2) r

end World

namespace Timeline

variable {σ : Type} [EntityState σ]

/-- Record the world at a tick; answers its digest. -/
def capture (h : Timeline σ) (tick : Tick) (r : World) : UInt32 × Timeline σ :=
  let entities : EntityMap σ := r.states
  let checksum := Digest.full entities
  (checksum, h.add { tick, entities, checksum })

/-- Take the world back to a tick; answers whether that was possible. -/
def rewind (h : Timeline σ) (tick : Tick) (r : World) : Bool × World :=
  match h.find? tick with
  | some world => (true, r.restoreAll world.entities)
  | none => (false, r)

/-- Take the world back from the tick `current` to the tick `target`.  Once that is done,
    and not where it is refused, a callback is given both ticks and changes `a`. -/
def rewindCalling {α : Type} (h : Timeline σ) (callback : Option (Tick → Tick → α → α))
    (target current : Tick) (r : World) (a : α) : Bool × World × α :=
  match h.rewind target r with
  | (true, r) => (true, r, (callback.map fun call => call target current a).getD a)
  | (false, r) => (false, r, a)

/-- The callback leaves the world where it is, and runs where going back was possible. -/
theorem rewindCalling_eq_iff {α : Type} {h : Timeline σ}
    {callback : Option (Tick → Tick → α → α)} {target current : Tick} {r r' : World} {a a' : α}
    {ok : Bool} :
    h.rewindCalling callback target current r a = (ok, r', a') ↔
      h.rewind target r = (ok, r') ∧
        a' = if ok then (callback.map fun call => call target current a).getD a else a := by
  rw [rewindCalling]
  rcases h.rewind target r with ⟨_ | _, r₀⟩ <;> cases ok <;> simp [eq_comm]

def checksum? (h : Timeline σ) (tick : Tick) : Option UInt32 :=
  (h.find? tick).map (·.checksum)

def critical? (h : Timeline σ) (tick : Tick) : Option UInt32 :=
  (h.find? tick).map fun world => Digest.critical world.entities

def summary (h : Timeline CoreState) : String :=
  s!"ClientRollbackHandler \x7b history_len: {h.size}, .. \x7d"

end Timeline

end Netplay
