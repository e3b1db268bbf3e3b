/-
  Desync reports, answered.

  The ticks of a run are recorded one after the other, so the server still has a
  world exactly for the latest sixty.  A report for one of these is answered with
  a single request to go back, which a client reads, and with a dump, which is
  read as the recorded world; a report for another tick is answered with nothing.

  * `Server.find?_recorded`: the ticks that are recorded;
  * `Server.answerReport_of_find?`: the answer to a report;
  * `Server.reports_served`: reports to any server that can be reached, and
    requests that a client cannot follow.
-/
import Netplay.Proofs.Chronicle
import Netplay.Proofs.Dumps
import Netplay.Proofs.Playing
import Netplay.Proofs.Rewinding

namespace Netplay

/-- A request to go back to a tick that is not recorded changes nothing but
    counters. -/
theorem Client.perform_of_lost (c : Client) {request : Bytes} {h : Header} {m : RollbackRequest}
    (hrequest : Message.decode request = some (h, m))
    (hlost : c.timeline.has m.targetTick.toNat = false) (now : Duration) :
    c.goBack m = c ∧ ∃ traffic, c.perform (.hear request now) = ({ c with traffic }, []) := by
  have hnone : c.timeline.find? m.targetTick.toNat = none := by
    rwa [Timeline.has, Option.isSome_eq_false_iff, Option.isNone_iff_eq_none] at hlost
  obtain ⟨traffic, he⟩ := c.receiveOne_of_request hrequest now
  have hsame : ({ c with traffic } : Client).goBack m = { c with traffic } :=
    goBack_of_none hnone
  exact ⟨goBack_of_none hnone, traffic, he.trans (congrArg (·, []) hsame)⟩

namespace Server

/-! ## What is recorded -/

theorem captured_of_mem_recorded {s : Server} {es : List Event} {w : Recorded FullState}
    (hw : w ∈ s.recorded es) : ∃ r, w = Timeline.captured FullState w.tick r := by
  induction es generalizing s with
  | nil => cases hw
  | cons e rest ih =>
    rcases List.mem_append.1 hw with hw | hw
    · have hsome : s.recorded? e = some w := Option.mem_toList.1 hw
      cases e with
      | tick now =>
        obtain ⟨due, -, rfl⟩ := Option.map_eq_some_iff.1 hsome
        exact ⟨_, rfl⟩
      | elapse d => cases hsome
      | hear d now => cases hsome
      | settle outcomes => cases hsome
    · exact ih hw

/-- The latest of consecutive ticks. -/
theorem mem_take_reverse_range' {t n k : ℕ} :
    n ∈ (List.range' 1 t).reverse.take k ↔ t - min t k < n ∧ n ≤ t := by
  rw [List.take_reverse, List.mem_reverse, List.length_range', List.drop_range', List.mem_range'_1]
  omega

/-- **A tick is recorded iff it is one of the latest sixty**, with the world that
    the run has recorded for it. -/
theorem find?_recorded (config : ServerConfig) (port : UInt16) (es : List Event) (n : Tick) :
    let s := ((make config port).performAll es).1
    (s.timestep.tick - min s.timestep.tick 60 < n ∧ n ≤ s.timestep.tick →
      ∃ w ∈ (make config port).recorded es, w.tick = n ∧ s.timeline.find? n = some w) ∧
    (¬ (s.timestep.tick - min s.timestep.tick 60 < n ∧ n ≤ s.timestep.tick) →
      s.timeline.find? n = none) := by
  intro s
  have hstart : (make config port).timeline.Holds 60 [] := Timeline.holds_ofCapacity 60
  obtain ⟨hholds, hclock, hticks⟩ := holds_performAll hstart es
  have hrecent : s.timeline.recent = ((make config port).recorded es).reverse.take 60 := by
    rw [hholds.recent, List.append_nil]
  have hrange : s.timeline.recent.map (·.tick) = (List.range' 1 s.timestep.tick).reverse.take 60 := by
    have hcount : s.timestep.tick = ((make config port).recorded es).length :=
      hclock.trans (Nat.zero_add _)
    rw [hrecent, List.map_take, List.map_reverse, hticks, hcount]
    rfl
  have hmem : n ∈ s.timeline.recent.map (·.tick) ↔
      s.timestep.tick - min s.timestep.tick 60 < n ∧ n ≤ s.timestep.tick := by
    rw [hrange]
    exact mem_take_reverse_range'
  constructor
  · intro hn
    obtain ⟨w₀, hw₀, htick₀⟩ := List.mem_map.1 (hmem.2 hn)
    have hfound : (s.timeline.find? n).isSome = true := by
      rw [Timeline.find?_eq, List.find?_isSome]
      exact ⟨w₀, hw₀, beq_iff_eq.2 htick₀⟩
    obtain ⟨w, hw⟩ := Option.isSome_iff_exists.1 hfound
    obtain ⟨hwmem, htick⟩ := Timeline.mem_of_find? hw
    rw [hrecent] at hwmem
    exact ⟨w, List.mem_reverse.1 (List.mem_of_mem_take hwmem), htick, hw⟩
  · intro hn
    rw [Timeline.find?_eq, List.find?_eq_none]
    intro w hw htick
    exact hn (hmem.1 (List.mem_map.2 ⟨w, hw, beq_iff_eq.1 htick⟩))

/-! ## The answer -/

/-- A request to go back always fits a frame. -/
theorem encode_rollbackRequest (m : RollbackRequest) (sequence : UInt16) (tick : UInt32) :
    ∃ data, Message.encode m sequence tick = .ok data := by
  have hfits : (Message.write m).length ≤ Frame.maxPayload := by
    show (Bytes.be32 m.targetTick ++ Bytes.be32 m.currentTick).length ≤ _
    rw [List.length_append, Bytes.length_be32, Bytes.length_be32]
    decide
  unfold Message.encode Frame.encode
  rw [if_pos hfits]
  exact ⟨_, rfl⟩

/-- A request to go back, and not ahead, is read as it was sent. -/
theorem decode_rollbackRequest {m : RollbackRequest} {sequence : UInt16} {tick : UInt32}
    {data : Bytes} (h : Message.encode m sequence tick = .ok data)
    (hback : m.targetTick ≤ m.currentTick) :
    Message.decode data = some (Message.sentHeader m sequence tick, m) := by
  rw [Message.decode_encode h, RollbackRequest.whole_write, if_pos hback]
  rfl

/-- The dump of a recorded world, if it can be dumped. -/
def dumped (w : Recorded FullState) : List Effect :=
  match (Dump.ofRecorded w).encode with
  | .ok bytes => [.dump w.tick bytes]
  | .error _ => []

theorem sent_append (effects effects' : List Effect) :
    sent (effects ++ effects') = sent effects ++ sent effects' := List.filterMap_append

theorem sent_dumped (w : Recorded FullState) : sent (dumped w) = [] := by
  unfold dumped
  split <;> rfl

/-- A world of which everything was captured is dumped as it was recorded. -/
theorem dumped_of_captured {w : Recorded FullState} {r : World}
    (hw : w = Timeline.captured FullState w.tick r) (hsize : w.entities.size ≤ Dump.maxRecords) :
    ∃ bytes d, dumped w = [.dump w.tick bytes] ∧ Dump.decode bytes = .ok d ∧
      d.entities = w.entities ∧ Digest.full d.entities = w.checksum := by
  obtain ⟨bytes, hbytes⟩ := Dump.encode_of_size hsize
  have hinit : ∀ id s, w.entities.get? id = some s → s.initialized = true := by
    intro id s hs
    rw [hw] at hs
    change (r.states : EntityMap FullState).get? id = some s at hs
    rw [World.get?_states] at hs
    split_ifs at hs
    exact (FullState.status_of_capture hs).1
  obtain ⟨d, hd, -, -, -, hentities⟩ := Dump.decode_ofRecorded hbytes hinit
  refine ⟨bytes, d, by rw [dumped, hbytes], hd, hentities, ?_⟩
  rw [hentities, hw]
  rfl

theorem answerReport_of_none {s : Server} {report : DesyncReport} (a : Address)
    (h : s.timeline.find? report.tick.toNat = none) : s.answerReport report a = (s, []) := by
  rw [answerReport, h]

/-- **A recorded tick is answered** with its dump and one request to go back. -/
theorem answerReport_of_find? {s : Server} {report : DesyncReport} (a : Address)
    {w : Recorded FullState} (h : s.timeline.find? report.tick.toNat = some w) :
    ∃ (sequence : UInt16) (request : Bytes),
      Message.encode (RollbackRequest.mk report.tick (UInt32.ofNat s.timestep.tick)) sequence
        (UInt32.ofNat s.timestep.tick) = .ok request ∧
      (s.answerReport report a).2 = dumped w ++ [.send ⟨a, request⟩] := by
  have hanswer : ∃ sequence, (s.answerReport report a).2 = dumped w ++
      post (RollbackRequest.mk report.tick (UInt32.ofNat s.timestep.tick)) sequence
        s.timestep.tick a := by
    rw [answerReport, h]
    exact ⟨_, rfl⟩
  obtain ⟨sequence, hanswer⟩ := hanswer
  obtain ⟨request, hrequest⟩ := encode_rollbackRequest
    ⟨report.tick, UInt32.ofNat s.timestep.tick⟩ sequence (UInt32.ofNat s.timestep.tick)
  refine ⟨sequence, request, hrequest, ?_⟩
  rw [hanswer, post, hrequest]

/-- A report reaches its handler, and nothing but counters and the roster's clocks
    has changed on the way. -/
theorem receiveOne_of_report (s : Server) (a : Address) {data : Bytes} {h : Header}
    {report : DesyncReport} (hdata : Message.decode data = some (h, report)) (now : Duration) :
    ∃ traffic roster, s.receiveOne ⟨a, data⟩ now =
      ({ s with traffic, roster }, (s.answerReport report a).2) := by
  obtain ⟨f, hf, hkind, hread⟩ := Message.decode_eq_some hdata
  have hhandled : ∀ s : Server, s.handleKind data f a now = s.answerReport report a := by
    intro s
    unfold handleKind
    rw [hkind]
    simp only [Message.messageType, hread]
  unfold receiveOne
  rw [hf]
  show ∃ traffic roster, handle _ data f a now = _
  rw [handle, hhandled]
  unfold answerReport
  dsimp only
  cases s.timeline.find? report.tick.toNat with
  | none => exact ⟨_, _, rfl⟩
  | some w => exact ⟨_, _, rfl⟩

/-- **Desync reports are served**, whoever sends them.  A report for one of the
    latest sixty ticks is answered with one request to go back to it, which
    clients read, and with a dump that is read as the world of the tick; any other
    is answered with nothing.  World, timeline and inbox stay as they are.  A
    client that no longer has the tick changes nothing but its counters. -/
theorem reports_served (config : ServerConfig) (port : UInt16) (es : List Event) (now : Duration)
    (a : Address) {data : Bytes} {h : Header} {report : DesyncReport}
    (hdata : Message.decode data = some (h, report))
    (hclock : ((make config port).performAll es).1.timestep.tick < 2 ^ 32) :
    let s := ((make config port).performAll es).1
    let served := s.perform (.hear ⟨a, data⟩ now)
    let n := report.tick.toNat
    (served.1.world = s.world ∧ served.1.timeline = s.timeline ∧ served.1.inbox = s.inbox) ∧
    (s.timestep.tick - min s.timestep.tick 60 < n ∧ n ≤ s.timestep.tick →
      ∃ w ∈ (make config port).recorded es, w.tick = n ∧ s.timeline.find? n = some w ∧
      ∃ request header, served.2 = dumped w ++ [.send ⟨a, request⟩] ∧
        sent served.2 = [⟨a, request⟩] ∧
        Message.decode request =
          some (header, RollbackRequest.mk report.tick (UInt32.ofNat s.timestep.tick)) ∧
        (UInt32.ofNat s.timestep.tick).toNat = s.timestep.tick ∧
        (w.entities.size < 2 ^ 26 → ∃ bytes d, dumped w = [.dump n bytes] ∧
          Dump.decode bytes = .ok d ∧ d.entities = w.entities ∧
          s.timeline.checksum? n = some (Digest.full d.entities))) ∧
    (¬ (s.timestep.tick - min s.timestep.tick 60 < n ∧ n ≤ s.timestep.tick) → served.2 = []) ∧
    ∀ (setup : ClientConfig) (start : Duration) (events : List Client.Event) (request : Bytes)
      (header : Header) (m : RollbackRequest),
      let c := ((Client.make setup start).performAll events).1
      Message.decode request = some (header, m) → c.timeline.has m.targetTick.toNat = false →
        c.goBack m = c ∧
          ∃ traffic, c.perform (.hear request now) = ({ c with traffic }, []) := by
  intro s served n
  obtain ⟨traffic, roster, hserved⟩ := s.receiveOne_of_report a hdata now
  have hserved : served = ({ s with traffic, roster }, (s.answerReport report a).2) := hserved
  obtain ⟨hkept, hlost⟩ := find?_recorded config port es n
  refine ⟨by rw [hserved]; exact ⟨rfl, rfl, rfl⟩, fun hn => ?_, fun hn => ?_, ?_⟩
  · obtain ⟨w, hw, htick, hfound⟩ := hkept hn
    obtain ⟨sequence, request, hrequest, hanswer⟩ := answerReport_of_find? a hfound
    have hcurrent : (UInt32.ofNat s.timestep.tick).toNat = s.timestep.tick :=
      UInt32.toNat_ofNat_of_lt' hclock
    have hback : report.tick ≤ UInt32.ofNat s.timestep.tick := by
      rw [UInt32.le_iff_toNat_le, hcurrent]
      exact hn.2
    have heffects : served.2 = dumped w ++ [.send ⟨a, request⟩] := by rw [hserved, hanswer]
    refine ⟨w, hw, htick, hfound, request, _, heffects, ?_,
      decode_rollbackRequest hrequest hback, hcurrent, ?_⟩
    · rw [heffects, sent_append, sent_dumped]
      rfl
    · intro hsize
      obtain ⟨r, hr⟩ := captured_of_mem_recorded hw
      obtain ⟨bytes, d, hdumped, hd, hentities, hdigest⟩ :=
        dumped_of_captured hr (Nat.le_of_lt_succ hsize)
      refine ⟨bytes, d, htick ▸ hdumped, hd, hentities, ?_⟩
      rw [Timeline.checksum?, hfound, hdigest]
      rfl
  · rw [hserved, answerReport_of_none a (hlost hn)]
  · intro setup start events request header m c hrequest hhas
    exact c.perform_of_lost hrequest hhas now

/-- A client joins and two ticks go by. -/
def twoTicks : List Event :=
  [.hear ⟨⟨.localhost, 4001⟩,
      (({ sequence := 1, buttons := .none } : Command).toPacket 7).encode⟩ 0,
    .elapse 50000000, .tick 0, .tick 0]

theorem reports_served_twoTicks :
    let s := ((make {} 4000).performAll twoTicks).1
    ∃ data request bytes d, Message.encode (⟨1, 0, 1⟩ : DesyncReport) 0 0 = .ok data ∧
      (s.perform (.hear ⟨⟨.localhost, 4002⟩, data⟩ 0)).2 =
        [.dump 1 bytes, .send ⟨⟨.localhost, 4002⟩, request⟩] ∧
      Dump.decode bytes = .ok d ∧ s.timeline.checksum? 1 = some (Digest.full d.entities) := by
  intro s
  have hclock : ((make {} 4000).performAll twoTicks).1.timestep.tick = 2 := by decide +kernel
  have hsize : ((s.timeline.find? 1).all fun w => decide (w.entities.size < 2 ^ 26)) = true := by
    decide +kernel
  obtain ⟨data, hdata⟩ : ∃ data, Message.encode (⟨1, 0, 1⟩ : DesyncReport) 0 0 = .ok data := ⟨_, rfl⟩
  have hread : Message.decode data =
      some (Message.sentHeader (⟨1, 0, 1⟩ : DesyncReport) 0 0, (⟨1, 0, 1⟩ : DesyncReport)) := by
    rw [Message.decode_encode hdata, DesyncReport.whole_write]
    rfl
  have hlt : ((make {} 4000).performAll twoTicks).1.timestep.tick < 2 ^ 32 := by
    rw [hclock]
    decide
  obtain ⟨-, hserved, -⟩ := reports_served {} 4000 twoTicks 0 ⟨.localhost, 4002⟩ hread hlt
  obtain ⟨w, -, -, hfound, request, -, heffects, -, -, -, hdump⟩ := hserved (by
    rw [hclock]
    decide)
  change s.timeline.find? 1 = some w at hfound
  rw [hfound] at hsize
  obtain ⟨bytes, d, hdumped, hd, -, hdigest⟩ := hdump (of_decide_eq_true hsize)
  refine ⟨data, request, bytes, d, hdata, ?_, hd, hdigest⟩
  rw [heffects, hdumped]
  rfl

end Server

end Netplay
