/-
  A socket that answers by a script and notes what was passed to it.

  It stands for any socket: whatever a socket of the system answers in a run, a
  script can answer the same.
-/
import Netplay.Transport.Socket

namespace Netplay

structure ScriptedSocket where
  isOpen : Bool := false
  /-- The answer to every call to open it. -/
  opens : Except SocketError Unit := .ok ()
  nonblocking : Except SocketError Unit := .ok ()
  /-- The answers to sending, in order. -/
  sends : List (Except SocketError Unit) := []
  /-- The answer to sending once the list is used up. -/
  afterwards : Except SocketError Unit := .ok ()
  /-- What was passed to be sent, in order, whatever the answers. -/
  passed : List Datagram := []

instance : Socket ScriptedSocket where
  openAt s _ := (s.opens, { s with isOpen := s.opens.toOption.isSome })
  close s := { s with isOpen := false }
  isOpen s := s.isOpen
  setNonblocking s := (s.nonblocking, s)
  send s data a :=
    ((s.sends.headD s.afterwards).map fun _ => data.length,
      { s with sends := s.sends.drop 1, passed := s.passed ++ [⟨a, data⟩] })
  address s := if s.isOpen then .ok ⟨.localhost, Address.gamePort⟩ else .error .notOpen

end Netplay
