/-
  What a program needs of a datagram socket, as a machine: each call answers
  and gives the socket after it.

  `NetworkSocket` is an endpoint on a machine with a network.
-/
import Netplay.Transport.Endpoint

namespace Netplay

class Socket (σ : Type) where
  openAt : σ → Address → Except SocketError Unit × σ
  close : σ → σ
  isOpen : σ → Bool
  /-- Ask for calls that do not wait. -/
  setNonblocking : σ → Except SocketError Unit × σ
  send : σ → Bytes → Address → Except SocketError Nat × σ
  address : σ → Except SocketError Address

structure NetworkSocket where
  network : Network
  endpoint : Endpoint := .closed

instance : Socket NetworkSocket where
  openAt s a :=
    match s.endpoint.openAt s.network a with
    | .ok e => (.ok (), { s with endpoint := e })
    | .error e => (.error e, s)
  close s := { s with endpoint := s.endpoint.close }
  isOpen s := s.endpoint.isOpen
  setNonblocking s := (s.endpoint.setNonblocking, s)
  send s data a := (s.endpoint.send s.network a data, s)
  address s := s.endpoint.address

end Netplay
