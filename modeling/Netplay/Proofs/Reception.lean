/-
  What becomes of the datagrams that a socket answers.

  A socket is read until it would block or fails; interruptions are tried again.  What
  has been read is handled afterwards, and only if the reading did not fail: a failure
  loses what was read before it.  A datagram that is handled is counted, and counted
  again as dropped if it is of no use.  The server does not count two kinds of those:
  pings and questions for the rooms.

  * `Endpoint.drainOutcomes_eq`: what is read, and how reading ends;
  * `Endpoint.handled`, with `Server.process_snd` and `Client.process_snd`: what is
    handled;
  * `handles_what_is_read`: all that is read is handled, unless the reading fails;
  * `Traffic.Took`: what the counters of reception show;
  * `Server.took_receiveOne`, `Client.took_receiveOne`: what one datagram adds to them;
  * `counts_what_is_dropped`: what all that is handled adds to them.
-/
import Netplay.Proofs.Playing
import Netplay.Proofs.Serving

namespace Netplay

/-! ## Reading a socket -/

namespace Endpoint

/-- Whether reading goes on after an answer of the socket. -/
def goesOn : Except SocketError Datagram → Bool
  | .ok _ => true
  | .error e => e = .interrupted

/-- The datagrams that a socket answers before it would block or fails, in order. -/
def received (outcomes : List (Except SocketError Datagram)) : List Datagram :=
  (outcomes.takeWhile goesOn).filterMap (·.toOption)

/-- How reading ends: with the first failure other than an interruption, unless that
    only says that there is nothing more. -/
def ending (outcomes : List (Except SocketError Datagram)) : Except SocketError Unit :=
  match outcomes.find? fun o => !goesOn o with
  | some (.error e) => if e = .wouldBlock then .ok () else .error e
  | _ => .ok ()

/-- **Reading a socket** takes every datagram before the end, once and in order. -/
theorem drainOutcomes_eq (outcomes : List (Except SocketError Datagram)) :
    drainOutcomes outcomes = (received outcomes, ending outcomes) := by
  fun_induction drainOutcomes outcomes with
  | case1 => rfl
  | case2 d rest ds result hrest ih =>
    obtain ⟨rfl, rfl⟩ := Prod.mk.inj (hrest.symm.trans ih)
    rfl
  | case3 rest => rfl
  | case4 rest ih => exact ih
  | case5 e rest hwouldBlock hinterrupted =>
    have hstop : goesOn (.error e) = false := by simpa [goesOn] using hinterrupted
    have hfails : e ≠ .wouldBlock := hwouldBlock
    simp [received, ending, hstop, hfails]

/-- The datagrams that are handled: those that have been read, unless the reading
    fails. -/
def handled (outcomes : List (Except SocketError Datagram)) : List Datagram :=
  match ending outcomes with
  | .ok () => received outcomes
  | .error _ => []

theorem handled_eq_received_iff (outcomes : List (Except SocketError Datagram)) :
    handled outcomes = received outcomes ↔ ending outcomes = .ok () ∨ received outcomes = [] := by
  unfold handled
  cases ending outcomes with
  | ok => exact iff_of_true rfl (Or.inl rfl)
  | error e =>
    constructor
    · exact fun h => Or.inr h.symm
    · rintro (h | h)
      · cases h
      · exact h.symm

end Endpoint

theorem Server.process_snd (s : Server) (now : Duration)
    (outcomes : List (Except SocketError Datagram)) :
    (s.process now outcomes).2 = s.receive now (Endpoint.handled outcomes) := by
  unfold process Endpoint.handled
  rw [Endpoint.drainOutcomes_eq]
  cases Endpoint.ending outcomes <;> rfl

theorem Client.process_snd (c : Client) (now : Duration)
    (outcomes : List (Except SocketError Datagram)) :
    (c.process now outcomes).2 = c.receive now ((Endpoint.handled outcomes).map (·.data)) := by
  unfold process Endpoint.handled
  rw [Endpoint.drainOutcomes_eq]
  cases Endpoint.ending outcomes <;> rfl

/-! ## The counters of reception -/

namespace Traffic

/-- The counters after some datagrams have been taken in, `dropped` of which were of no
    use. -/
structure Took (t t' : Traffic) (data : List Bytes) (dropped : ℕ) : Prop where
  packets : t'.packetsReceived = t.packetsReceived + .ofNat data.length
  bytes : t'.bytesReceived = t.bytesReceived + .ofNat data.flatten.length
  dropped : t'.packetsDropped = t.packetsDropped + .ofNat dropped

variable {t t' t'' : Traffic} {data data' : List Bytes} {m n : ℕ}

/-- Whatever leaves the three counters alone takes nothing in. -/
theorem took_nil (hpackets : t'.packetsReceived = t.packetsReceived)
    (hbytes : t'.bytesReceived = t.bytesReceived)
    (hdropped : t'.packetsDropped = t.packetsDropped) : t.Took t' [] 0 :=
  ⟨by simp [hpackets], by simp [hbytes], by simp [hdropped]⟩

theorem Took.refl (t : Traffic) : t.Took t [] 0 := took_nil rfl rfl rfl

theorem Took.trans (h : t.Took t' data m) (h' : t'.Took t'' data' n) :
    t.Took t'' (data ++ data') (m + n) := by
  refine ⟨?_, ?_, ?_⟩
  · rw [h'.packets, h.packets, List.length_append, UInt64.ofNat_add, UInt64.add_assoc]
  · rw [h'.bytes, h.bytes, List.flatten_append, List.length_append, UInt64.ofNat_add,
      UInt64.add_assoc]
  · rw [h'.dropped, h.dropped, UInt64.ofNat_add, UInt64.add_assoc]

theorem took_countReceived (t : Traffic) (bs : Bytes) :
    t.Took (t.countReceived bs.length) [bs] 0 :=
  ⟨rfl, by simp [countReceived], by simp [countReceived]⟩

theorem took_countDropped (t : Traffic) : t.Took t.countDropped [] 1 :=
  ⟨by simp [countDropped], by simp [countDropped], rfl⟩

theorem took_notePong (t : Traffic) (sequence : UInt16) (now : Duration) :
    t.Took (t.notePong sequence now).2 [] 0 := by
  unfold notePong
  split
  · exact .refl t
  · simp only [smooth]
    split <;> exact took_nil rfl rfl rfl

theorem took_countOutcome (t : Traffic) (outcome : Except SocketError ℕ) :
    t.Took (t.countOutcome outcome) [] 0 := by
  cases outcome with
  | ok bytes => exact took_nil rfl rfl rfl
  | error e =>
    rw [countOutcome]
    split
    · exact .refl t
    · exact took_nil rfl rfl rfl

/-- What comes of sending does not show in them. -/
theorem took_foldl_countOutcome (t : Traffic) (results : List (Except SocketError ℕ)) :
    t.Took (results.foldl countOutcome t) [] 0 := by
  induction results generalizing t with
  | nil => exact .refl t
  | cons r rest ih => exact (took_countOutcome t r).trans (ih _)

end Traffic

/-! ## Datagrams of no use -/

/-- **A datagram is of no use** if it is no frame, or a frame of a kind that is handled
    but does not read as a message of that kind. -/
def isUseless (reads? : MessageType → Option (Bytes → Bool)) (data : Bytes) : Bool :=
  match Frame.decode data with
  | .ok f => (reads? f.header.messageType).any fun reads => !reads data
  | .error _ => true

theorem isUseless_of_frame {data : Bytes} {f : Frame} (hf : Frame.decode data = .ok f)
    (reads? : MessageType → Option (Bytes → Bool)) :
    isUseless reads? data = (reads? f.header.messageType).any fun reads => !reads data := by
  rw [isUseless, hf]

/-- Whether a datagram reads as a message. -/
def Message.reads (μ : Type) [Message μ] (data : Bytes) : Bool :=
  (Message.decode (μ := μ) data).isSome

theorem Message.reads_of_frame {data : Bytes} {f : Frame} (hf : Frame.decode data = .ok f)
    (μ : Type) [Message μ] : Message.reads μ data = (ofFrame? (μ := μ) f).isSome := by
  rw [reads, decode, hf]

namespace Server

/-- How the kinds are read that a server handles. -/
def reads? : MessageType → Option (Bytes → Bool)
  | .input => some fun data => (InputPacket.decode data).isSome
  | .clientPing => some (Message.reads Ping)
  | .desyncDetected => some (Message.reads DesyncReport)
  | .lobbyListRooms => some (Message.reads ListRooms)
  | .lobbyJoinRoom => some (Message.reads JoinRoom)
  | _ => none

/-- A frame that says it is a ping or a question for the rooms. -/
def isQuestion (data : Bytes) : Bool :=
  match Frame.decode data with
  | .ok f => f.header.messageType = .clientPing || f.header.messageType = .lobbyListRooms
  | .error _ => false

/-- A datagram that a server counts as dropped: one of no use that does not say it is
    a ping or a question for the rooms. -/
def isDropped (data : Bytes) : Bool := isUseless reads? data && !isQuestion data

theorem traffic_queueInput (s : Server) (p : InputPacket) (a : Address) (now : Duration) :
    (s.queueInput p a now).traffic = s.traffic := by
  rcases s.queueInput_cases p a now with ⟨_, -, he⟩ | ⟨-, _, _, -, -, he⟩ | ⟨-, he⟩ <;> rw [he]

theorem traffic_answerReport (s : Server) (report : DesyncReport) (a : Address) :
    (s.answerReport report a).1.traffic = s.traffic := by
  obtain ⟨_, _, he, -, -⟩ := s.answerReport_cases report a
  rw [he]

/-- Handling a frame counts what is dropped and nothing else. -/
theorem traffic_handleKind (s : Server) {data : Bytes} {f : Frame}
    (hf : Frame.decode data = .ok f) (a : Address) (now : Duration) :
    (s.handleKind data f a now).1.traffic =
      if isDropped data then s.traffic.countDropped else s.traffic := by
  have hkind : isDropped data = ((reads? f.header.messageType).any (fun reads => !reads data) &&
      !(f.header.messageType = .clientPing || f.header.messageType = .lobbyListRooms)) := by
    rw [isDropped, isUseless_of_frame hf, isQuestion, hf]
  have hreads := fun μ [Message μ] => Message.reads_of_frame hf μ
  rw [hkind]
  unfold handleKind
  dsimp only
  -- a kind with a reader of its own either reads the datagram or not
  split
  · rename_i hk
    cases hp : InputPacket.decode data with
    | some p => simp [hk, reads?, hp, traffic_queueInput]
    | none => simp [hk, reads?, hp, countDropped]
  · rename_i hk
    split <;> simp [hk, reads?]
  · rename_i hk
    cases hm : Message.ofFrame? (μ := DesyncReport) f with
    | some m => simp [hk, reads?, hreads, hm, traffic_answerReport]
    | none => simp [hk, reads?, hreads, hm, countDropped]
  · rename_i hk
    split <;> simp [hk, reads?]
  · rename_i hk
    cases hm : Message.ofFrame? (μ := JoinRoom) f with
    | some m => simp [hk, reads?, hreads, hm]
    | none => simp [hk, reads?, hreads, hm, countDropped]
  · simp [reads?]

/-- **One datagram** is counted, and counted as dropped if it is. -/
theorem took_receiveOne (s : Server) (d : Datagram) (now : Duration) :
    s.traffic.Took (s.receiveOne d now).1.traffic [d.data] ([d.data].countP isDropped) := by
  have hcounted := s.traffic.took_countReceived d.data
  rw [List.countP_singleton]
  unfold receiveOne
  dsimp only
  split
  · rename_i f hf
    rw [handle, traffic_handleKind _ hf]
    by_cases h : isDropped d.data
    · simpa [h] using hcounted.trans (Traffic.took_countDropped _)
    · simpa [h] using hcounted
  · rename_i e he
    have hdropped : isDropped d.data = true := by simp [isDropped, isUseless, isQuestion, he]
    rw [if_pos hdropped]
    exact hcounted.trans (Traffic.took_countDropped _)

theorem took_receive (s : Server) (now : Duration) (ds : List Datagram) :
    s.traffic.Took (s.receive now ds).1.traffic (ds.map (·.data))
      ((ds.map (·.data)).countP isDropped) := by
  induction ds generalizing s with
  | nil => exact .refl s.traffic
  | cons d rest ih =>
    have hcons : (d :: rest).map (·.data) = [d.data] ++ rest.map (·.data) := rfl
    rw [hcons, List.countP_append]
    exact (s.took_receiveOne d now).trans (ih _)

end Server

namespace Client

/-- How the kinds are read that a client handles. -/
def reads? : MessageType → Option (Bytes → Bool)
  | .snapshot => some (Message.reads Snapshot)
  | .stateChecksum => some (Message.reads StateChecksum)
  | .rollbackRequest => some (Message.reads RollbackRequest)
  | .serverPong => some (Message.reads Pong)
  | _ => none

theorem traffic_applySnapshot (c : Client) (n : UInt32) (m : Snapshot) :
    (c.applySnapshot n m).traffic = c.traffic := by
  obtain ⟨_, _, _, _, _, _, _, _, _, he, -⟩ := c.applySnapshot_frame n m
  rw [he]

theorem traffic_compareDigests (c : Client) (m : StateChecksum) (now : Duration) :
    (c.compareDigests m now).1.traffic = c.traffic := by
  rcases c.compareDigests_cases m now with he | ⟨_, -, -, -, he⟩
  · rw [he]
  · rw [he, post_eq]

theorem traffic_goBack (c : Client) (m : RollbackRequest) : (c.goBack m).traffic = c.traffic := by
  rcases c.goBack_cases m with he | ⟨_, _, _, _, -, -, he⟩ <;> rw [he]

/-- Handling a frame counts what is of no use. -/
theorem took_handle (c : Client) {data : Bytes} {f : Frame} (hf : Frame.decode data = .ok f)
    (now : Duration) :
    c.traffic.Took (c.handle f now).1.traffic [] (if isUseless reads? data then 1 else 0) := by
  have hquiet : ∀ t, t = c.traffic → c.traffic.Took t [] 0 := by
    rintro t rfl
    exact .refl c.traffic
  have hdropped : c.traffic.Took c.countDropped.traffic [] 1 := c.traffic.took_countDropped
  have hreads := fun μ [Message μ] => Message.reads_of_frame hf μ
  rw [isUseless_of_frame hf]
  unfold handle
  -- a kind with a reader of its own either reads the frame or not
  split
  · rename_i hk
    cases hm : Message.ofFrame? (μ := Snapshot) f with
    | some m =>
      have hsame := c.traffic_applySnapshot m.1.tick m.2
      simpa [hk, reads?, hreads, hm] using hquiet _ hsame
    | none => simpa [hk, reads?, hreads, hm] using hdropped
  · rename_i hk
    cases hm : Message.ofFrame? (μ := StateChecksum) f with
    | some m =>
      have hsame := c.traffic_compareDigests m.2 now
      simpa [hk, reads?, hreads, hm] using hquiet _ hsame
    | none => simpa [hk, reads?, hreads, hm] using hdropped
  · rename_i hk
    cases hm : Message.ofFrame? (μ := RollbackRequest) f with
    | some m =>
      have hsame := c.traffic_goBack m.2
      simpa [hk, reads?, hreads, hm] using hquiet _ hsame
    | none => simpa [hk, reads?, hreads, hm] using hdropped
  · rename_i hk
    cases hm : Message.ofFrame? (μ := Pong) f with
    | some m =>
      have hnoted := c.traffic.took_notePong m.1.sequence now
      simpa [hk, reads?, hreads, hm, takePong] using hnoted
    | none => simpa [hk, reads?, hreads, hm] using hdropped
  · simpa [reads?] using hquiet _ rfl

/-- **One datagram** is counted, and counted as dropped if it is of no use. -/
theorem took_receiveOne (c : Client) (data : Bytes) (now : Duration) :
    c.traffic.Took (c.receiveOne data now).1.traffic [data] ([data].countP (isUseless reads?)) := by
  have hcounted := c.traffic.took_countReceived data
  rw [List.countP_singleton]
  unfold receiveOne
  dsimp only
  split
  · rename_i f hf
    have hhandled := took_handle { c with traffic := c.traffic.countReceived data.length } hf now
    simpa using hcounted.trans hhandled
  · rename_i e he
    have huseless : isUseless reads? data = true := by rw [isUseless, he]
    rw [if_pos huseless]
    exact hcounted.trans (Traffic.took_countDropped _)

theorem took_receive (c : Client) (now : Duration) (data : List Bytes) :
    c.traffic.Took (c.receive now data).1.traffic data (data.countP (isUseless reads?)) := by
  induction data generalizing c with
  | nil => exact .refl c.traffic
  | cons d rest ih =>
    have hcons : d :: rest = [d] ++ rest := rfl
    rw [hcons, List.countP_append]
    exact (c.took_receiveOne d now).trans (ih _)

end Client

/-! ## What becomes of what is read -/

/-- The bytes of the datagrams that are handled. -/
def heard (outcomes : List (Except SocketError Datagram)) : List Bytes :=
  (Endpoint.handled outcomes).map (·.data)

/-- **What is dropped is counted**, by any server and any client, whatever the socket
    answers to reading and to the sending that follows: each datagram that is handled
    adds one and its length; a client counts as dropped exactly those of no use, a server
    those of them that do not say they are pings or questions for the rooms. -/
theorem counts_what_is_dropped (s : Server) (c : Client) (now : Duration)
    (outcomes : List (Except SocketError Datagram)) (results : List (Except SocketError ℕ)) :
    s.traffic.Took ((s.process now outcomes).2.1.settle results).traffic (heard outcomes)
      ((heard outcomes).countP fun data =>
        isUseless Server.reads? data && !Server.isQuestion data) ∧
    c.traffic.Took ((c.process now outcomes).2.1.settle results).traffic (heard outcomes)
      ((heard outcomes).countP (isUseless Client.reads?)) := by
  constructor
  · rw [Server.process_snd]
    have hserver := (s.took_receive now (Endpoint.handled outcomes)).trans
      (Traffic.took_foldl_countOutcome _ results)
    rwa [List.append_nil] at hserver
  · rw [Client.process_snd]
    have hclient := (c.took_receive now (heard outcomes)).trans
      (Traffic.took_foldl_countOutcome _ results)
    rwa [List.append_nil] at hclient

/-- A ping with one byte too much. -/
def overlongPing : Bytes := Frame.sealed ((Frame.sized (Message.header Ping 7 0) 1).encode ++ [0])

/-- A server does not count a ping that does not read as one. -/
theorem ping_not_counted : ¬ ∀ (s : Server) (now : Duration)
    (outcomes : List (Except SocketError Datagram)),
    s.traffic.Took (s.process now outcomes).2.1.traffic (heard outcomes)
      ((heard outcomes).countP (isUseless Server.reads?)) := by
  intro hall
  have hdropped := (hall (.make {} 27015) 0 [.ok ⟨⟨.localhost, 4000⟩, overlongPing⟩]).dropped
  revert hdropped
  decide +kernel

/-- **All that is read is handled, unless the reading fails.**  Reading takes every
    datagram before the end, once and in order.  A server and a client then hear of each
    of them and count it if the reading ends well; if it fails they hear of none, so that
    whatever had been read is lost. -/
theorem handles_what_is_read (s : Server) (c : Client) (now : Duration)
    (outcomes : List (Except SocketError Datagram)) :
    Endpoint.drainOutcomes outcomes = (Endpoint.received outcomes, Endpoint.ending outcomes) ∧
    (s.process now outcomes).2 =
      s.performAll ((Endpoint.handled outcomes).map fun d => .hear d now) ∧
    (s.process now outcomes).2.1.traffic.packetsReceived =
      s.traffic.packetsReceived + .ofNat (Endpoint.handled outcomes).length ∧
    (c.process now outcomes).2 = c.performAll ((heard outcomes).map fun data => .hear data now) ∧
    (c.process now outcomes).2.1.traffic.packetsReceived =
      c.traffic.packetsReceived + .ofNat (heard outcomes).length ∧
    (Endpoint.handled outcomes = Endpoint.received outcomes ↔
      Endpoint.ending outcomes = .ok () ∨ Endpoint.received outcomes = []) := by
  rw [Server.process_snd, Client.process_snd]
  refine ⟨Endpoint.drainOutcomes_eq outcomes, (Server.performAll_hear now _ s).symm, ?_,
    (Client.performAll_hear now _ c).symm, (c.took_receive now (heard outcomes)).packets,
    Endpoint.handled_eq_received_iff outcomes⟩
  have hpackets := (s.took_receive now (Endpoint.handled outcomes)).packets
  rwa [List.length_map] at hpackets

/-- A socket that answers one datagram and then fails. -/
def failing : List (Except SocketError Datagram) :=
  [.ok ⟨⟨.localhost, 4000⟩, overlongPing⟩, .error .networkDown]

/-- Neither a server nor a client hears of a datagram after which reading fails. -/
theorem failure_loses :
    (¬ ∀ (s : Server) (now : Duration) (outcomes : List (Except SocketError Datagram)),
      (s.process now outcomes).2.1.traffic.packetsReceived =
        s.traffic.packetsReceived + .ofNat (Endpoint.received outcomes).length) ∧
    ¬ ∀ (c : Client) (now : Duration) (outcomes : List (Except SocketError Datagram)),
      (c.process now outcomes).2.1.traffic.packetsReceived =
        c.traffic.packetsReceived + .ofNat (Endpoint.received outcomes).length := by
  constructor
  · intro hall
    have hcounted := hall (.make {} 27015) 0 failing
    revert hcounted
    decide +kernel
  · intro hall
    have hcounted := hall (.make {} 0) 0 failing
    revert hcounted
    decide +kernel

end Netplay
