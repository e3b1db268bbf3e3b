/-
  The roster: the clients of a server, by address.

  Clients are kept in the order in which they joined, and an address is on the
  roster once.
-/
import Netplay.Transport.Address
import Netplay.Numeric.Duration
import Netplay.World.EntityMap

namespace Netplay

/-- What a server keeps of a client. -/
structure Seat where
  entity : EntityId
  lastHeard : Duration
  /-- The sequence of the next packet to the client. -/
  nextSequence : UInt16 := 0
  deriving DecidableEq

structure Roster where
  /-- The clients in the order in which they joined. -/
  seats : List (Address × Seat) := []
  deriving DecidableEq

namespace Roster

def find? (r : Roster) (a : Address) : Option Seat := r.seats.lookup a

def size (r : Roster) : Nat := r.seats.length

def append (r : Roster) (a : Address) (seat : Seat) : Roster := ⟨r.seats ++ [(a, seat)]⟩

def modify (r : Roster) (a : Address) (f : Seat → Seat) : Roster :=
  ⟨r.seats.map fun p => if p.1 = a then (p.1, f p.2) else p⟩

def heard (r : Roster) (a : Address) (now : Duration) : Roster :=
  r.modify a fun seat => { seat with lastHeard := now }

/-- Packets are sent to a client: take `n` sequences. -/
def takeSequences (r : Roster) (a : Address) (n : UInt16) : Roster :=
  r.modify a fun seat => { seat with nextSequence := seat.nextSequence + n }

/-- A client has not been heard of for longer than `timeout`. -/
def isSilent (now timeout : Duration) (seat : Seat) : Bool := now - seat.lastHeard > timeout

def silent (r : Roster) (now timeout : Duration) : List Seat :=
  (r.seats.filter fun p => isSilent now timeout p.2).map (·.2)

def withoutSilent (r : Roster) (now timeout : Duration) : Roster :=
  ⟨r.seats.filter fun p => !isSilent now timeout p.2⟩

end Roster

end Netplay
