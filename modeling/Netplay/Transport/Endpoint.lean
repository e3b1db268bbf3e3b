/-
  Datagram endpoints.

  An endpoint is closed, or bound to an address with a queue of datagrams that
  have arrived.  Opening an open endpoint does nothing; closing one drops what
  is queued.  Sending and receiving need an open endpoint.

  `drainOutcomes` is the receive loop over what the socket answers: datagrams
  are taken in order until it has none or fails, and an interruption is tried
  again.
-/
import Netplay.Transport.Network

namespace Netplay

/-- A datagram with the address it comes from or goes to. -/
structure Datagram where
  /-- The other end. -/
  peer : Address
  data : Bytes
  deriving DecidableEq

namespace Network

/-- Send a datagram from a socket bound to a host: the number of bytes sent, or
    why not. -/
def post (n : Network) (source : Host) (d : Datagram) : Except SocketError Nat :=
  (n.send source d.peer d.data.length).mapError fun (code : Nat) => .ofCode code

/-- Send datagrams in order: what came of each, and those that arrive. -/
def deliver (n : Network) (source : Host) (ds : List Datagram) :
    List (Except SocketError Nat) × List Datagram :=
  (ds.map (n.post source),
    ds.filter fun d => n.carries && (n.post source d).toOption.isSome)

end Network

structure OpenSocket where
  address : Address
  /-- Datagrams that have arrived, oldest first. -/
  arrived : List Datagram := []
  deriving DecidableEq

/-- A datagram endpoint, closed or open. -/
structure Endpoint where
  socket : Option OpenSocket := none
  deriving DecidableEq

namespace Endpoint

def closed : Endpoint := {}

def isOpen (e : Endpoint) : Bool := e.socket.isSome

/-- Bind the endpoint to an address unless it is open already. -/
def openAt (e : Endpoint) (n : Network) (address : Address) : Except SocketError Endpoint :=
  if e.isOpen then .ok e
  else match n.bind address with
    | .ok () => .ok ⟨some { address }⟩
    | .error code => .error (.ofCode (code : Nat))

def address (e : Endpoint) : Except SocketError Address :=
  match e.socket with
  | some s => .ok s.address
  | none => .error .notOpen

/-- Ask for calls that do not wait; only an open endpoint can. -/
def setNonblocking (e : Endpoint) : Except SocketError Unit :=
  if e.isOpen then .ok () else .error .notOpen

def send (e : Endpoint) (n : Network) (target : Address) (data : Bytes) :
    Except SocketError Nat :=
  match e.socket with
  | none => .error .notOpen
  | some s => n.post s.address.host ⟨target, data⟩

/-- A datagram arrives; a closed endpoint has no place for it. -/
def arrive (e : Endpoint) (d : Datagram) : Endpoint :=
  ⟨e.socket.map fun s => { s with arrived := s.arrived ++ [d] }⟩

/-- Send a byte string to an address at which another endpoint may listen: what
    came of it, and the other endpoint afterwards. -/
def transmit (e other : Endpoint) (n : Network) (target : Address) (data : Bytes) :
    Except SocketError Nat × Endpoint :=
  match e.address, e.send n target data, other.address with
  | .ok source, .ok size, .ok a =>
    (.ok size, if n.carries && a = target then other.arrive ⟨source, data⟩ else other)
  | _, outcome, _ => (outcome, other)

/-- Receive the oldest datagram into a buffer, which cuts it. -/
def receive (e : Endpoint) (buffer : Nat) : Except SocketError (Datagram × Endpoint) :=
  match e.socket with
  | none => .error .notOpen
  | some s =>
    match s.arrived with
    | [] => .error .wouldBlock
    | d :: rest => .ok ({ d with data := d.data.take buffer }, ⟨some { s with arrived := rest }⟩)

/-- Close the endpoint and drop what has arrived. -/
def close (_ : Endpoint) : Endpoint := closed

/-- Take datagrams from what a socket answers until it would block, which ends
    well, or fails; an interruption is tried again. -/
def drainOutcomes :
    List (Except SocketError Datagram) → List Datagram × Except SocketError Unit
  | [] => ([], .ok ())
  | .ok d :: rest =>
    let (ds, result) := drainOutcomes rest
    (d :: ds, result)
  | .error .wouldBlock :: _ => ([], .ok ())
  | .error .interrupted :: rest => drainOutcomes rest
  | .error e :: _ => ([], .error e)

/-- What an endpoint answers to receiving until it has nothing more. -/
def outcomes (e : Endpoint) (buffer : Nat) : List (Except SocketError Datagram) :=
  match e.socket with
  | none => [.error .notOpen]
  | some s => s.arrived.map (fun d => .ok { d with data := d.data.take buffer }) ++
      [.error .wouldBlock]

def drain (e : Endpoint) (buffer : Nat) : Except SocketError (List Datagram × Endpoint) :=
  match drainOutcomes (e.outcomes buffer) with
  | (_, .error err) => .error err
  | (ds, .ok ()) => .ok (ds, ⟨e.socket.map fun s => { s with arrived := [] }⟩)

end Endpoint

end Netplay
