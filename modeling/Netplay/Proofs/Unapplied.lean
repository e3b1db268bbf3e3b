/-
  A client of which nothing has been applied yet.

  The server tells such a client the number 0.  The client takes it for the low
  bits of a number near its own counter, which is the multiple of 65536 that is
  nearest to the counter.  As long as that is no newer than what the client's
  history has noted, nothing is taken for confirmed; from the middle of the first
  round on, it is newer than what an untouched history has noted.

  * `Sequence.nearestRound`, with `Sequence.toNat_widen_zero`;
  * `CommandLog.kept_acknowledge_iff`: when an acknowledgement changes nothing;
  * `Books.unapplied_zero`: what is told of a client of which nothing has been
    applied;
  * `Books.unapplied_confirms`: what that does to the client's history.
-/
import Netplay.Proofs.Chronicle
import Netplay.Proofs.Possession
import Netplay.Proofs.Service

namespace Netplay

namespace Sequence

/-- The multiple of 65536 that is nearest to a number, of two the greater, as a
    full number. -/
def nearestRound (n : ℕ) : ℕ := (n + 32768) / 65536 * 65536 % 4294967296

/-- **Zero stands for the nearest round.** -/
theorem toNat_widen_zero (reference : UInt32) :
    (widen reference 0).toNat = nearestRound reference.toNat := by
  have hlt := reference.toNat_lt
  have hzero : (0 : UInt16).toNat = 0 := rfl
  have hlow : reference.toUInt16.toNat = reference.toNat % 65536 := UInt32.toNat_toUInt16 _
  have hnewer := newer_iff 0 reference.toUInt16
  rw [toNat_widen, nearestRound]
  simp only [hnewer, hzero, hlow]
  split_ifs <;> omega

theorem nearestRound_eq_zero_iff {n : ℕ} (h : n < 4294967296) :
    nearestRound n = 0 ↔ n < 32768 ∨ 4294934528 ≤ n := by
  unfold nearestRound
  omega

end Sequence

/-- An acknowledgement changes nothing just if it is no newer than the last. -/
theorem CommandLog.kept_acknowledge_iff (h : CommandLog) (s : UInt32) :
    ((h.acknowledge s).entries = h.entries ∧ (h.acknowledge s).acknowledged = h.acknowledged) ↔
      s ≤ h.acknowledged := by
  unfold CommandLog.acknowledge
  split_ifs with hstale
  · exact ⟨fun _ => hstale, fun _ => ⟨rfl, rfl⟩⟩
  · refine ⟨fun hsame => ?_, fun hle => absurd hle hstale⟩
    exact absurd (UInt32.le_of_eq hsame.2) hstale

/-- **What is told of a client of which nothing has been applied**: zero, and where
    its entity is. -/
theorem Books.unapplied_zero {o : Observed} (h : Books o) {rounds : ℕ} {now : Duration}
    {d : Datagram} (hd : .send d ∈ (o.server.perform (.tick now)).2) {hd' : Header} {m : Snapshot}
    (hm : Message.decode d.data = some (hd', m))
    (hnone : Arrival.taken ((o.step rounds (.tick now)).ledger.handled m.playerEntity) = []) :
    ∃ seat, (d.peer, seat) ∈ o.server.roster.seats ∧ m.playerEntity = seat.entity ∧
      m.lastInputSequence = 0 ∧ (m.entity? m.playerEntity).isSome = true := by
  unfold Observed.step Server.perform at hnone
  unfold Server.perform at hd
  dsimp only at hnone hd
  cases hdue : o.server.timestep.consume? with
  | none =>
    rw [hdue] at hd
    cases hd
  | some due =>
    obtain ⟨n, t⟩ := due
    rw [hdue] at hd hnone
    dsimp only at hd hnone
    set base : Server := { o.server with timestep := t } with hbase
    have hsound : base.Sound := h.sound.congr rfl rfl rfl rfl rfl
    obtain ⟨seat, hseat, hsnapshot | hdigests⟩ := Server.mem_sent_tick hd
    · rw [Snapshot.decode_encode hsnapshot] at hm
      split_ifs at hm
      cases hm
      have hlists := (hsound.simulated n).lists_snapshotFor hseat
      have hplace : (d.peer, seat.entity) ∈ o.server.roster.places := List.mem_map_of_mem hseat
      obtain ⟨-, -, hleads⟩ := h.accounts d.peer seat.entity hplace
      have hnewest := (hleads.applyAll o.ledger.waiting).newest
      rw [h.queue] at hnewest
      refine ⟨seat, hseat, rfl, ?_, ?_⟩
      · -- the steering remembers the newest input that was taken, and none was
        show ((base.simulated n).steering.lastApplied.get? seat.entity).getD 0 = 0
        have hnothing : Arrival.taken (o.ledger.handled seat.entity ++
          Steering.answered seat.entity o.ledger.waiting
            (o.server.steering.verdicts o.server.world o.server.inbox.waiting)) = [] := hnone
        rw [hnothing] at hnewest
        exact congrArg (Option.getD · 0) hnewest
      · obtain ⟨e, he, hid⟩ := List.mem_map.1 hlists.listed
        exact List.find?_isSome.2 ⟨e, he, by simp [hid]⟩
    · rw [Message.decode_eq_none_of_kind hdigests (by decide)] at hm
      cases hm

/-- A snapshot that shows what it names confirms commands of the player's history,
    whomever it names. -/
theorem Client.Controls.history_receiveOne {c : Client} {id : EntityId} {log : CommandLog}
    (h : c.Controls id) (hlog : c.world.get? .history id = some log) {data : Bytes} {hd : Header}
    {m : Snapshot} (hm : Message.decode data = some (hd, m)) (hfresh : ¬ c.IsStale hd.tick)
    (hseen : (m.entity? m.playerEntity).isSome = true) (now : Duration) :
    (c.receiveOne data now).1.world.get? .history id =
      some (log.acknowledge (Sequence.widen c.inputSequence m.lastInputSequence)) := by
  obtain ⟨seen, hseen⟩ := Option.isSome_iff_exists.1 hseen
  obtain ⟨traffic, he⟩ := c.receiveOne_of_snapshot hm now
  set c₁ : Client := { c with traffic } with hc₁
  have hfresh₁ : ¬ c₁.IsStale hd.tick := hfresh
  have hplayer : c₁.player = some id := h.player
  have hsame : c.SamePlayer (c₁.adopting hd.tick m) := samePlayer_of_eq rfl rfl rfl
  rw [he, applySnapshot_of_fresh hfresh₁, hseen, hplayer]
  exact (hsame.controls h).history_follow hlog m seen

/-- **What a client takes for confirmed when nothing has been applied.**  Whatever
    its counter and its history are, the snapshot names zero, and leaves the history
    alone just if the round that is nearest to the counter is no newer than what the
    history has noted; for a history that has noted nothing, just if the counter is
    in the first half of the first round or the last half of the last. -/
theorem Books.unapplied_confirms (config : ServerConfig) (port : UInt16)
    (es : List (ℕ × Server.Event)) {now : Duration} {d : Datagram}
    (hd : .send d ∈ (((Observed.start config port).run es).server.perform (.tick now)).2)
    {hd' : Header} {m : Snapshot} (hm : Message.decode d.data = some (hd', m))
    (hnone : Arrival.taken ((((Observed.start config port).run es).step 0
      (.tick now)).ledger.handled m.playerEntity) = [])
    {c : Client} {id : EntityId} (hcontrols : c.Controls id) {log : CommandLog}
    (hlog : c.world.get? .history id = some log) (hfresh : ¬ c.IsStale hd'.tick)
    (heardAt : Duration) :
    (∃ seat, (d.peer, seat) ∈ ((Observed.start config port).run es).server.roster.seats ∧
      m.playerEntity = seat.entity ∧ m.lastInputSequence = 0) ∧
    ∃ log', (c.receiveOne d.data heardAt).1.world.get? .history id = some log' ∧
      ((log'.entries = log.entries ∧ log'.acknowledged = log.acknowledged) ↔
        Sequence.nearestRound c.inputSequence.toNat ≤ log.acknowledged.toNat) ∧
      (log.acknowledged = 0 →
        ((log'.entries = log.entries ∧ log'.acknowledged = log.acknowledged) ↔
          c.inputSequence.toNat < 32768 ∨ 4294934528 ≤ c.inputSequence.toNat)) := by
  have hbooks := Observed.books_run (Observed.books_start config port) es
  obtain ⟨seat, hseat, hplayer, hzero, hshown⟩ := hbooks.unapplied_zero hd hm hnone
  have hhistory := hcontrols.history_receiveOne hlog hm hfresh hshown heardAt
  rw [hzero] at hhistory
  have hiff := log.kept_acknowledge_iff (Sequence.widen c.inputSequence 0)
  rw [UInt32.le_iff_toNat_le, Sequence.toNat_widen_zero] at hiff
  refine ⟨⟨seat, hseat, hplayer, hzero⟩, _, hhistory, hiff, fun huntouched => ?_⟩
  have hnothing : log.acknowledged.toNat = 0 := by
    rw [huntouched]
    rfl
  rw [hiff, hnothing, Nat.le_zero, Sequence.nearestRound_eq_zero_iff c.inputSequence.toNat_lt]

/-! ## A client whose input is pushed out -/

namespace Observed

def first : Address := ⟨.localhost, 4001⟩

def second : Address := ⟨.localhost, 4002⟩

/-- One input waits at most, and every tick is told. -/
def oneSlot : ServerConfig := { inboxCapacity := 1, snapshotEvery := 1 }

/-- Two clients join with an input each. -/
def twoInputs : List (ℕ × Server.Event) :=
  [first, second].map (fun a => (0, .hear ⟨a,
    (({ sequence := 1, buttons := .right } : Command).toPacket 7).encode⟩ 0)) ++
      [(0, .elapse (Duration.milliseconds 20))]

/-- The server of which the inbox keeps the second client's input only. -/
def oneEvicted : Observed := (start oneSlot 4000).run twoInputs

/-- What the first client is told of the next tick. -/
def toldFirst : Datagram :=
  ((Server.sent (oneEvicted.server.perform (.tick 0)).2).find? fun d => d.peer = first).getD
    ⟨first, []⟩

/-- A client that controls the first entity, with a counter, after a tick. -/
def playing (counter : UInt32) : Client :=
  let c := (Client.make {} 0).receiveOne ((Client.naming 1).datagram 0) 0
  { c.1 with inputSequence := counter }.tick

/-- What the history of the first entity keeps, and what it has noted. -/
def logged (c : Client) : Option (List UInt32 × UInt32) :=
  (c.world.get? .history 1).map fun log => (log.entries.map (·.sequence), log.acknowledged)

/-- Nothing has been applied for the first client, and yet its history is emptied
    and notes the number 65536. -/
theorem unapplied_discards :
    oneEvicted.server.roster.places.lookup first = some 1 ∧
      Arrival.taken ((oneEvicted.step 0 (.tick 0)).ledger.handled 1) = [] ∧
      (playing 40000).Controls 1 ∧ logged (playing 40000) = some ([40001], 0) ∧
      logged ((playing 40000).receiveOne toldFirst.data 0).1 = some ([], 65536) := by
  decide +kernel

/-- In the first half of the first round nothing is taken for confirmed. -/
theorem unapplied_confirms_early :
    Arrival.taken ((oneEvicted.step 0 (.tick 0)).ledger.handled 1) = [] ∧
      (playing 100).Controls 1 ∧ logged (playing 100) = some ([101], 0) ∧
      logged ((playing 100).receiveOne toldFirst.data 0).1 = some ([101], 0) := by
  have hcontrols : (playing 100).Controls 1 := by decide +kernel
  have hbefore : logged (playing 100) = some ([101], 0) := by decide +kernel
  refine ⟨by decide +kernel, hcontrols, hbefore, ?_⟩
  obtain ⟨log, hlog, hkept⟩ := Option.map_eq_some_iff.1 hbefore
  have hread : (Message.decode (μ := Snapshot) toldFirst.data).map
      (fun x => (x.1.tick, x.2.playerEntity)) = some (1, 1) := by decide +kernel
  obtain ⟨⟨hd, m⟩, hm, heq⟩ := Option.map_eq_some_iff.1 hread
  obtain ⟨htick, hplayer⟩ := Prod.mk.inj heq
  have hfresh : ¬ (playing 100).IsStale hd.tick := by
    rw [htick]
    decide +kernel
  have hsent : .send toldFirst ∈ (oneEvicted.server.perform (.tick 0)).2 := by decide +kernel
  have hnothing : Arrival.taken ((((start oneSlot 4000).run twoInputs).step 0
      (.tick 0)).ledger.handled m.playerEntity) = [] := by
    rw [hplayer]
    decide +kernel
  obtain ⟨-, log', hlog', hiff, -⟩ := Books.unapplied_confirms oneSlot 4000 twoInputs hsent hm
    hnothing hcontrols hlog hfresh 0
  have hround : Sequence.nearestRound (playing 100).inputSequence.toNat = 0 := by decide +kernel
  obtain ⟨hentries, hacknowledged⟩ := hiff.2 (hround ▸ Nat.zero_le _)
  rw [logged, hlog', Option.map_some, hentries, hacknowledged]
  exact congrArg some hkept

end Observed

end Netplay
