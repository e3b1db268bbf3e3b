/-
  Commands that the server has not confirmed yet.

  A history keeps at most `capacity` commands, newest last, and drops the
  oldest to make room.  An acknowledgement drops every command up to its
  number; one that is not newer than the last acknowledgement does nothing.
-/
import Netplay.Control.Command

namespace Netplay

structure CommandLog where
  entries : List Command := []
  /-- The number of the newest command confirmed. -/
  acknowledged : UInt32 := 0
  capacity : Nat
  capacity_pos : 0 < capacity

namespace CommandLog

def standardCapacity : Nat := 128

/-- A history of at least one command. -/
def ofCapacity (capacity : Nat) : CommandLog :=
  { capacity := max capacity 1, capacity_pos := by omega }

def empty : CommandLog := ofCapacity standardCapacity

def size (h : CommandLog) : Nat := h.entries.length

/-- Keep a command; the oldest make room for it. -/
def push (h : CommandLog) (c : Command) : CommandLog :=
  { h with entries := h.entries.drop (h.size + 1 - h.capacity) ++ [c] }

/-- Drop every command up to `sequence`, unless it is stale. -/
def acknowledge (h : CommandLog) (sequence : UInt32) : CommandLog :=
  if sequence ≤ h.acknowledged then h
  else { h with
    acknowledged := sequence
    entries := h.entries.filter fun c => c.sequence > sequence }

/-- The commands newer than `sequence`, oldest first. -/
def after (h : CommandLog) (sequence : UInt32) : List Command :=
  h.entries.filter fun c => c.sequence > sequence

def latest? (h : CommandLog) : Option UInt32 := h.entries.getLast?.map (·.sequence)

end CommandLog

end Netplay
