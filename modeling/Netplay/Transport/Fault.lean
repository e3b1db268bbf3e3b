/-
  Why a socket operation fails.

  The operating system gives a number or a class of failure; the game tells
  apart ten reasons.  `SocketError.ofCode` reads the numbers: two have
  reasons of their own, the others count by their class.
-/
import Netplay.Transport.Address

namespace Netplay

/-- Classes of failure that an operating system reports. -/
inductive FaultClass where
  | wouldBlock
  | timedOut
  | interrupted
  | networkDown
  | networkUnreachable
  | hostUnreachable
  | connectionRefused
  | addrInUse
  | addrNotAvailable
  | permissionDenied
  | outOfMemory
  | notConnected
  | invalidInput
  | other
  deriving DecidableEq

namespace FaultClass

def ofCode : Int → FaultClass
  | 1 => .permissionDenied
  | 4 => .interrupted
  | 11 => .wouldBlock
  | 12 => .outOfMemory
  | 13 => .permissionDenied
  | 22 => .invalidInput
  | 98 => .addrInUse
  | 99 => .addrNotAvailable
  | 100 => .networkDown
  | 101 => .networkUnreachable
  | 107 => .notConnected
  | 110 => .timedOut
  | 111 => .connectionRefused
  | 113 => .hostUnreachable
  | _ => .other

def named : List (String × FaultClass) :=
  [("WouldBlock", wouldBlock), ("TimedOut", timedOut), ("Interrupted", interrupted),
    ("NetworkDown", networkDown), ("NetworkUnreachable", networkUnreachable),
    ("HostUnreachable", hostUnreachable), ("ConnectionRefused", connectionRefused),
    ("AddrInUse", addrInUse), ("AddrNotAvailable", addrNotAvailable),
    ("PermissionDenied", permissionDenied), ("OutOfMemory", outOfMemory),
    ("NotConnected", notConnected), ("InvalidInput", invalidInput)]

/-- The class of a name; a name not listed is of no class of its own. -/
def ofName (s : String) : FaultClass := (named.lookup s).getD other

end FaultClass

/-- Why a socket operation fails. -/
inductive SocketError where
  | wouldBlock
  | interrupted
  | messageTooLong
  | networkDown
  /-- The address is not ours or taken. -/
  | addressUnavailable
  | permissionDenied
  | outOfMemory
  | notOpen
  | invalidArgument
  | unknown
  deriving DecidableEq

namespace SocketError

def all : List SocketError :=
  [wouldBlock, interrupted, messageTooLong, networkDown, addressUnavailable, permissionDenied,
    outOfMemory, notOpen, invalidArgument, unknown]

def name : SocketError → String
  | wouldBlock => "WouldBlock"
  | interrupted => "Interrupted"
  | messageTooLong => "MessageTooLong"
  | networkDown => "NetworkDown"
  | addressUnavailable => "AddressUnavailable"
  | permissionDenied => "PermissionDenied"
  | outOfMemory => "OutOfMemory"
  | notOpen => "NotOpen"
  | invalidArgument => "InvalidArgument"
  | unknown => "Unknown"

/-- The same operation may succeed when tried again. -/
def isTransient : SocketError → Bool
  | wouldBlock | interrupted => true
  | _ => false

def message : SocketError → String
  | wouldBlock => "operation would block"
  | interrupted => "operation interrupted"
  | messageTooLong => "datagram too large for the socket"
  | networkDown => "network is down or unreachable"
  | addressUnavailable => "address unavailable or in use"
  | permissionDenied => "permission denied"
  | outOfMemory => "out of buffer memory"
  | notOpen => "socket is not open"
  | invalidArgument => "invalid argument"
  | unknown => "unknown socket error"

def ofClass : FaultClass → SocketError
  | .wouldBlock | .timedOut => .wouldBlock
  | .interrupted => .interrupted
  | .networkDown | .networkUnreachable | .hostUnreachable | .connectionRefused => .networkDown
  | .addrInUse | .addrNotAvailable => .addressUnavailable
  | .permissionDenied => .permissionDenied
  | .outOfMemory => .outOfMemory
  | .notConnected => .notOpen
  | .invalidInput => .invalidArgument
  | .other => .unknown

def ofCode (code : Int) : SocketError :=
  if code = 90 then .messageTooLong
  else if code = 105 then .outOfMemory
  else ofClass (FaultClass.ofCode code)

end SocketError

/-- Why a player's input is not sent. -/
inductive SenderReport where
  | socketOpen (bind : Address) (source : SocketError)
  | send (remote : Address) (source : SocketError)
  deriving DecidableEq

namespace SenderReport

def name : SenderReport → String
  | socketOpen .. => "SocketOpen"
  | send .. => "Send"

def message : SenderReport → String
  | socketOpen bind source => s!"could not open input socket on {bind.text}: {source.message}"
  | send remote source => s!"failed to send input to {remote.text}: {source.message}"

end SenderReport

end Netplay
