/-
  The worlds of the last ticks.

  Worlds are kept in a ring of slots: a new one goes into the slot at `head`,
  over the oldest once every slot is taken.  A tick that was recorded more than
  once is found as it was last recorded.
-/
import Netplay.Timeline.Timestep
import Netplay.World.EntityMap

namespace Netplay

/-- A world captured at a tick. -/
structure Recorded (σ : Type) where
  tick : Tick
  entities : EntityMap σ
  checksum : UInt32

/-- The worlds of the last ticks, in a ring of slots. -/
structure Timeline (σ : Type) where
  slots : Array (Option (Recorded σ))
  /-- The slot that is written next. -/
  head : Nat
  size : Nat
  /-- The next slot exists, so there is at least one. -/
  head_lt : head < slots.size
  size_le : size ≤ slots.size

namespace Timeline

variable {σ : Type}

def standardCapacity : Nat := 60

def ofCapacity (capacity : Nat) : Timeline σ :=
  { slots := Array.replicate (max capacity 1) none
    head := 0
    size := 0
    head_lt := by rw [Array.size_replicate]; exact Nat.le_max_right capacity 1
    size_le := Nat.zero_le _ }

def empty : Timeline σ := ofCapacity standardCapacity

def capacity (h : Timeline σ) : Nat := h.slots.size

theorem capacity_pos (h : Timeline σ) : 0 < h.capacity :=
  Nat.lt_of_le_of_lt (Nat.zero_le _) h.head_lt

/-- Record a world, over the oldest if every slot is taken. -/
def add (h : Timeline σ) (world : Recorded σ) : Timeline σ :=
  { slots := h.slots.set h.head (some world) h.head_lt
    head := (h.head + 1) % h.capacity
    size := min (h.size + 1) h.capacity
    head_lt := by rw [Array.size_set]; exact Nat.mod_lt _ h.capacity_pos
    size_le := by rw [Array.size_set]; exact Nat.min_le_right _ _ }

def slotOfAge (h : Timeline σ) (age : Nat) : Nat :=
  (h.head + h.capacity - 1 - age) % h.capacity

theorem slotOfAge_lt (h : Timeline σ) (age : Nat) : h.slotOfAge age < h.slots.size :=
  Nat.mod_lt _ h.capacity_pos

/-- The world recorded `age` worlds before the latest. -/
def ofAge? (h : Timeline σ) (age : Nat) : Option (Recorded σ) :=
  have := h.slotOfAge_lt age
  h.slots[h.slotOfAge age]

/-- The world last recorded for a tick. -/
def find? (h : Timeline σ) (tick : Tick) : Option (Recorded σ) :=
  ((List.range h.size).filterMap h.ofAge?).find? fun world => world.tick == tick

def has (h : Timeline σ) (tick : Tick) : Bool := (h.find? tick).isSome

def latest? (h : Timeline σ) : Option (Recorded σ) :=
  if h.size = 0 then none else h.ofAge? 0

/-- The oldest world still recorded: in slot 0 until every slot is taken, and
    then in the one that is written next. -/
def oldest? (h : Timeline σ) : Option (Recorded σ) :=
  have := h.head_lt
  have : 0 < h.slots.size := h.capacity_pos
  if h.size = 0 then none
  else if h.size < h.capacity then h.slots[0]
  else h.slots[h.head]

def range? (h : Timeline σ) : Option (Tick × Tick) := do
  return ((← h.oldest?).tick, (← h.latest?).tick)

def clear (h : Timeline σ) : Timeline σ :=
  { slots := Array.replicate h.capacity none
    head := 0
    size := 0
    head_lt := by rw [Array.size_replicate]; exact h.capacity_pos
    size_le := Nat.zero_le _ }

end Timeline

end Netplay
