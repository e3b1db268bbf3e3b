/-
  A sender on a machine that reaches nobody.

  The machine's only interface is down: sockets can be opened, and what is sent from them
  arrives nowhere.  The sender goes on all the same.  It takes every command, and each that
  the socket refuses is counted and reported.

  * `Network.isolated_send`: whatever is sent is refused, for a reason that does not pass
    by itself; only what is sent to 0.0.0.0 is handed to the interface, which drops it
    (`Network.deliver_isolated`);
  * `Sender.sendCommand_of_refuses`, `Sender.flush_of_refuses`: one command, and a buffer full
    of them, on a socket that refuses;
  * `Sender.flush_isolated`: a sender on that machine, whatever its socket;
    `Sender.start_isolated`: it can be started there.
-/
import Mathlib.Data.Nat.Notation
import Mathlib.Tactic.Common
import Netplay.Proofs.Wire
import Netplay.Transport.Sender

namespace Netplay

theorem Host.isUnspecified_v4 {a b c d : UInt8} :
    (v4 a b c d).isUnspecified = true ↔ v4 a b c d = unspecified := by
  simp [isUnspecified, unspecified]

/-! ## The network -/

namespace Network

/-- There is no way to a host other than 0.0.0.0, and waiting does not make one. -/
theorem isolated_route (source : Host) {target : Host} (h : target ≠ .unspecified) :
    ∃ code : ℕ, (SocketError.ofCode code).isTransient = false ∧
      isolated.route source target = .error code := by
  cases target with
  | v4 a b c d =>
    have hone : (Host.v4 a b c d).isUnspecified = false :=
      Bool.eq_false_iff.2 (mt Host.isUnspecified_v4.1 h)
    refine ⟨networkUnreachable, rfl, ?_⟩
    cases source <;> simp [isolated, noRoute, hone]
  | v6 groups zone =>
    have hgroups : isolated.route source (.v6 groups zone) =
        if source.isUnspecified || source.isMulticast then .error addrNotAvailable
        else .error networkUnreachable := by
      cases source <;> rfl
    rw [hgroups]
    split_ifs
    · exact ⟨addrNotAvailable, rfl, rfl⟩
    · exact ⟨networkUnreachable, rfl, rfl⟩

/-- A datagram that fits, from a socket that can send to hosts of this kind: the port is
    looked at, then the way. -/
theorem send_of_fits {n : Network} {source : Host} {target : Address} {size : ℕ}
    (hkind : ∀ a b c d groups zone, source = .v4 a b c d → target.host ≠ .v6 groups zone)
    (hsize : size ≤ maxDatagram) :
    n.send source target size =
      if target.port = 0 then .error invalidArgument
      else (n.route source target.host.unwrapped).map fun _ => size := by
  have hlong : ¬ size > maxLength := Nat.not_lt.2 (Nat.le_trans hsize (by decide))
  have hlong6 : ¬ size > maxDatagramV6 := Nat.not_lt.2 (Nat.le_trans hsize (by decide))
  have hfits : ¬ size > maxDatagram := Nat.not_lt.2 hsize
  generalize hroute : n.route source target.host.unwrapped = way
  unfold send
  split
  · exact absurd ‹_› (hkind _ _ _ _ _ _ rfl)
  · rename_i hhost _
    rw [hhost] at hroute
    rw [hroute, if_neg hlong]
    cases way <;> simp only [if_neg hfits, Except.map]
  · rename_i hhost _
    rw [hhost] at hroute
    rw [hroute]
    cases way <;> simp only [if_neg hlong6, Except.map]

/-- **An isolated machine refuses what is sent**, for a reason that does not pass by itself. -/
theorem isolated_send (source : Host) {target : Address}
    (h : target.host.unwrapped ≠ .unspecified) :
    ∃ code : ℕ, (SocketError.ofCode code).isTransient = false ∧
      ∀ size ≤ maxDatagram, isolated.send source target size = .error code := by
  by_cases hkind : ∀ a b c d groups zone, source = .v4 a b c d → target.host ≠ .v6 groups zone
  · by_cases hport : target.port = 0
    · refine ⟨invalidArgument, rfl, fun size hsize => ?_⟩
      rw [send_of_fits hkind hsize, if_pos hport]
    · obtain ⟨code, hlasts, hroute⟩ := isolated_route source h
      refine ⟨code, hlasts, fun size hsize => ?_⟩
      rw [send_of_fits hkind hsize, if_neg hport, hroute]
      rfl
  · -- four numbers cannot send to groups
    obtain ⟨a, b, c, d, groups, zone, rfl, hhost⟩ :
        ∃ a b c d groups zone, source = .v4 a b c d ∧ target.host = .v6 groups zone := by
      simpa using hkind
    refine ⟨familyNotSupported, rfl, fun size hsize => ?_⟩
    have hlong : ¬ size > maxLength := Nat.not_lt.2 (Nat.le_trans hsize (by decide))
    simp only [send, hhost, if_neg hlong]

/-- **Nothing arrives**, whatever is sent where. -/
theorem deliver_isolated (source : Host) (ds : List Datagram) :
    (isolated.deliver source ds).2 = [] :=
  List.filter_eq_nil_iff.2 fun _ _ => Bool.false_ne_true

end Network

/-! ## A socket that refuses -/

/-- Whatever input packet is sent to an address, a socket refuses it, and stays as it is. -/
def Socket.Refuses {σ : Type} [Socket σ] (socket : σ) (a : Address) (e : SocketError) : Prop :=
  ∀ p : InputPacket, Socket.send socket p.encode a = (.error e, socket)

/-- **Every socket of an isolated machine refuses**, open or not. -/
theorem NetworkSocket.isolated_refuses (endpoint : Endpoint) {a : Address}
    (h : a.host.unwrapped ≠ .unspecified) :
    ∃ e : SocketError, e.isTransient = false ∧
      Socket.Refuses (⟨.isolated, endpoint⟩ : NetworkSocket) a e := by
  obtain ⟨_ | s⟩ := endpoint
  · exact ⟨.notOpen, rfl, fun _ => rfl⟩
  · obtain ⟨code, hlasts, hsend⟩ := Network.isolated_send s.address.host h
    refine ⟨.ofCode code, hlasts, fun p => ?_⟩
    have hfits : p.encode.length ≤ Network.maxDatagram := by
      rw [p.length_encode]
      decide
    show (((Network.isolated.send s.address.host a p.encode.length).mapError _, _) : _ × _) = _
    rw [hsend _ hfits]
    rfl

namespace Sender

variable {σ : Type} [Socket σ] {socket : σ} {s : Sender} {e : SocketError}

/-- The sender after failures. -/
def failing (s : Sender) (failures : ℕ) : Sender :=
  { s with stats := { s.stats with sendErrors := s.stats.sendErrors + .ofNat failures } }

/-- A command that is refused is counted and reported. -/
theorem sendCommand_of_refuses (h : Socket.Refuses socket s.config.remote e)
    (hlasts : e.isTransient = false) (c : Command) :
    s.sendCommand socket c = (s.failing 1, socket, [.send s.config.remote e]) := by
  rw [sendCommand, packet, h (c.toPacket s.playerId)]
  simp [hlasts, failing, Traffic.countOutcome, Traffic.countFailure]

/-- **Commands that are refused are counted and reported one for one.** -/
theorem flush_of_refuses (h : Socket.Refuses socket s.config.remote e)
    (hlasts : e.isTransient = false) (cs : List Command) :
    s.flush socket cs =
      (s.failing cs.length, socket, List.replicate cs.length (.send s.config.remote e)) := by
  induction cs generalizing s with
  | nil => simp [flush, failing]
  | cons c rest ih =>
    have hfailed : Socket.Refuses socket (s.failing 1).config.remote e := h
    rw [flush, sendCommand_of_refuses h hlasts]
    dsimp only
    rw [ih hfailed]
    simp [failing, List.replicate_succ, UInt64.add_assoc, UInt64.add_comm]

/-- **A sender on an isolated machine** takes every command, counts and reports each as a
    failure, and goes on. -/
theorem flush_isolated (s : Sender) (h : s.config.remote.host.unwrapped ≠ .unspecified)
    (endpoint : Endpoint) : ∃ e : SocketError, e.isTransient = false ∧ ∀ cs : List Command,
      s.flush (⟨.isolated, endpoint⟩ : NetworkSocket) cs =
        (s.failing cs.length, ⟨.isolated, endpoint⟩,
          List.replicate cs.length (.send s.config.remote e)) := by
  obtain ⟨e, hlasts, hrefuses⟩ := NetworkSocket.isolated_refuses endpoint h
  exact ⟨e, hlasts, flush_of_refuses hrefuses hlasts⟩

example : ((Sender.make {} true).flush
    (⟨.isolated, ⟨some { address := ⟨.unspecified, 0⟩ }⟩⟩ : NetworkSocket)
    [{ sequence := 1, buttons := .up }]).2.2 = [.send ⟨.localhost, 27015⟩ .networkDown] := by
  decide +kernel

/-- It can be started there, on any four numbers. -/
theorem start_isolated {s : Sender} (hstill : s.running = false) {a b c d : UInt8}
    (hbind : s.config.bind.host = .v4 a b c d) :
    s.start (⟨.isolated, .closed⟩ : NetworkSocket) =
      (true, { s with running := true }, ⟨.isolated, ⟨some { address := s.config.bind }⟩⟩, []) := by
  have hbound : Network.isolated.bind s.config.bind = .ok () := by
    simp [Network.bind, Network.isolated, hbind, Host.neededZone?]
  rw [start, if_neg (by simp [hstill]), prepare]
  simp [Socket.isOpen, Socket.openAt, Socket.setNonblocking, Endpoint.openAt, Endpoint.isOpen,
    Endpoint.closed, Endpoint.setNonblocking, hbound]

end Sender

end Netplay
