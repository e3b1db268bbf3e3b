/-
  What a machine's network lets its sockets do.

  A network says which hosts a socket may be bound to, which ways there are to
  other hosts, and whether what is sent arrives; the sizes, the kinds of address
  and the ports are judged in the order in which a datagram meets them.  A
  socket bound to four numbers sends to four numbers only, one bound to groups
  to both kinds.

  `Network.isolated` is a machine whose only interface is down.  It has no list of
  hosts of four numbers to hold a bind against, and no way to any host.  Datagrams
  to 0.0.0.0 need no way: they are handed to the interface, which drops them.
-/
import Netplay.Bytes.Word
import Netplay.Transport.Fault

namespace Netplay

structure Network where
  /-- The hosts that a socket may be bound to. -/
  isLocal : Host → Bool
  /-- The way from the host that a socket is bound to to another one: nothing,
      or the number of the error that there is none. -/
  route : Host → Host → Except Nat Unit
  /-- Datagrams that are sent arrive; otherwise they are lost. -/
  carries : Bool
  taken : List Address := []

namespace Network

/-! Numbers of errors. -/

def addrNotAvailable : Nat := 99
def messageTooLong : Nat := 90
def addrInUse : Nat := 98
def noDevice : Nat := 19
def familyNotSupported : Nat := 97
def invalidArgument : Nat := 22
def networkUnreachable : Nat := 101

/-- The most bytes that a length field of the datagram protocol can say. -/
def maxLength : Nat := 65535

/-- The most bytes that fit a datagram beside its own headers. -/
def maxDatagram : Nat := 65507

/-- The most bytes that fit a datagram between hosts of groups, where the length
    field does not count the outer header. -/
def maxDatagramV6 : Nat := 65527

/-- The zone of the first interface, by which a machine reaches itself. -/
def firstZone : UInt32 := 1

/-- The way from a host on a machine whose only interface is down.  Groups that
    stand for all hosts have no host to send to groups from. -/
def noRoute (source target : Host) : Except Nat Unit :=
  match source, target with
  | .v4 .., .v4 .. => if target.isUnspecified then .ok () else .error networkUnreachable
  | .v6 .., .v4 .. =>
    if target.isUnspecified && source.unwrapped.isUnspecified then .ok ()
    else .error networkUnreachable
  | _, .v6 .. =>
    if source.isUnspecified || source.isMulticast then .error addrNotAvailable
    else .error networkUnreachable

def isolated : Network where
  isLocal
    | .v4 .. => true
    | host@(.v6 ..) => match host.unwrapped with
      | .v4 .. => true
      | .v6 .. => host.isUnspecified || host.isMulticast
  route := noRoute
  carries := false

/-- Two sockets cannot both have these addresses; the port 0 stands for a free
    one. -/
def collide (a b : Address) : Bool :=
  a.port != 0 && a.port == b.port &&
    (a.host == b.host || a.host.isUnspecified || b.host.isUnspecified)

/-- Bind a socket to an address: nothing, or an error number. -/
def bind (n : Network) (a : Address) : Except Nat Unit :=
  if a.host.neededZone? == some 0 then .error invalidArgument
  else if a.host.neededZone?.any (· != firstZone) then .error noDevice
  else if !n.isLocal a.host then .error addrNotAvailable
  else if n.taken.any (collide a) then .error addrInUse
  else .ok ()

/-- Send `size` bytes from a socket bound to a host: the number of bytes sent,
    or an error number.  Groups that carry four numbers count as those, except
    for a socket that cannot send to groups.  To groups the length is looked at
    last, to four numbers the length field's limit comes first. -/
def send (n : Network) (source : Host) (target : Address) (size : Nat) : Except Nat Nat :=
  match source, target.host, target.host.unwrapped with
  | .v4 .., .v6 .., _ =>
    if size > maxLength then .error messageTooLong else .error familyNotSupported
  | _, _, .v4 a b c d =>
    if size > maxLength then .error messageTooLong
    else if target.port = 0 then .error invalidArgument
    else match n.route source (.v4 a b c d) with
      | .error code => .error code
      | .ok () => if size > maxDatagram then .error messageTooLong else .ok size
  | _, _, .v6 groups zone =>
    if target.port = 0 then .error invalidArgument
    else match n.route source (.v6 groups zone) with
      | .error code => .error code
      | .ok () => if size > maxDatagramV6 then .error messageTooLong else .ok size

end Network

end Netplay
