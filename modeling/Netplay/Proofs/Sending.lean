/-
  What becomes of the commands that are to be sent.

  Whatever producers, control calls and loops do, and however they come in between
  each other: the commands that were appended are those that the socket was given, then
  one that a loop may hold, then those that wait.  A packet is made of its command for
  the player of that time, and the answers of the socket are counted and reported one
  for one.

  * `Outbox.Tally`: where each command is, and what was counted; kept by each thing that
    can happen to a command (`Tally.push`, `Tally.take`, `Tally.hand`, `Tally.settle`);
  * `Outbox.Accounts`: the tally of a sender; kept by every event (`Accounts.perform`);
  * `Outbox.loses_and_repeats_nothing`: every run.
-/
import Mathlib.Algebra.Group.Nat.Defs
import Mathlib.Data.List.Induction
import Netplay.Proofs.Outbox
import Netplay.Transport.Scripted

namespace Netplay

namespace Stage

/-- The command that is taken and not handed over. -/
def held : Stage → List Command
  | holding c => [c]
  | carrying c _ => [c]
  | _ => []

/-- The answer that is not counted. -/
def unsettled : Stage → List (Except SocketError ℕ)
  | answered outcome => [outcome]
  | _ => []

theorem length_held (stage : Stage) : stage.held.length ≤ 1 := by
  cases stage <;> simp [held]

theorem length_unsettled (stage : Stage) : stage.unsettled.length ≤ 1 := by
  cases stage <;> simp [unsettled]

end Stage

namespace Outbox

variable {σ : Type}

/-! ## Where the commands are -/

/-- The commands that producers append. -/
def pushed (es : List (Event σ)) : List Command :=
  es.filterMap fun
    | .push c => some c
    | _ => none

/-- Who plays after events. -/
def playerIdAfter (playerId : UInt32) (es : List (Event σ)) : UInt32 :=
  es.foldl (fun current e =>
    match e with
    | .setPlayerId next => next
    | _ => current) playerId

/-- The commands that the socket was given. -/
def handed (log : List Deed) : List Command :=
  log.filterMap fun
    | .handed c _ _ => some c
    | _ => none

/-- The answers of the socket. -/
def outcomes (log : List Deed) : List (Except SocketError ℕ) :=
  log.filterMap fun
    | .handed _ _ outcome => some outcome
    | _ => none

/-- The reports of packets that could not be sent. -/
def failures (log : List Deed) : List SenderReport :=
  log.filterMap fun
    | .reported (.send remote e) => some (.send remote e)
    | _ => none

/-- The answer is a failure that counts. -/
def isFailure : Except SocketError ℕ → Bool
  | .ok _ => false
  | .error e => !e.isTransient

/-- The commands that loops hold in their hands. -/
def held (b : Outbox σ) : List Command := b.loops.flatMap fun l => l.2.held

/-- The answers that loops have not counted. -/
def unsettled (b : Outbox σ) : List (Except SocketError ℕ) := b.loops.flatMap fun l => l.2.unsettled

/-- A packet was made by a loop when it last went on, for the player of that time. -/
def Addressed (playerId : UInt32) (es : List (Event σ)) (n : ℕ) (c : Command) (data : Bytes) : Prop :=
  ∃ before since, es = before ++ .turn n :: since ∧ .turn n ∉ since ∧
    data = (c.toPacket (playerIdAfter playerId before)).encode

/-- Of the commands that were appended, some were handed to the socket, then come those
    that are held and those that wait; what the socket answered is counted and reported,
    except what is not settled. -/
structure Tally (config : SenderConfig) (appended : List Command) (playerId : UInt32)
    (log : List Deed) (s : Sender) (held buffer : List Command)
    (unsettled : List (Except SocketError ℕ)) : Prop where
  config_eq : s.config = config
  playerId_eq : s.playerId = playerId
  inOrder : appended = handed log ++ held ++ buffer
  sent : s.stats.packetsSent + .ofNat (unsettled.countP (·.isOk)) =
    .ofNat ((outcomes log).countP (·.isOk))
  failed : s.stats.sendErrors + .ofNat (unsettled.countP isFailure) =
    .ofNat ((outcomes log).countP isFailure)
  reported : failures log ++ unsettled.flatMap (failure config.remote) =
    (outcomes log).flatMap (failure config.remote)

theorem handed_append (log ds : List Deed) : handed (log ++ ds) = handed log ++ handed ds :=
  List.filterMap_append

theorem outcomes_append (log ds : List Deed) : outcomes (log ++ ds) = outcomes log ++ outcomes ds :=
  List.filterMap_append

theorem failures_append (log ds : List Deed) : failures (log ++ ds) = failures log ++ failures ds :=
  List.filterMap_append

/-- The reports that an answer leads to are those of it. -/
theorem reports_failure (remote : Address) (outcome : Except SocketError ℕ) :
    handed ((failure remote outcome).map .reported) = [] ∧
      outcomes ((failure remote outcome).map .reported) = [] ∧
      failures ((failure remote outcome).map .reported) = failure remote outcome := by
  cases outcome with
  | ok bytes => exact ⟨rfl, rfl, rfl⟩
  | error e =>
    unfold failure
    dsimp only
    split_ifs <;> exact ⟨rfl, rfl, rfl⟩

theorem packetsSent_countOutcome (s : Traffic) (outcome : Except SocketError ℕ) :
    (s.countOutcome outcome).packetsSent =
      s.packetsSent + .ofNat ([outcome].countP (·.isOk)) := by
  cases outcome with
  | ok bytes => rfl
  | error e =>
    unfold Traffic.countOutcome
    dsimp only
    split_ifs <;> exact (UInt64.add_zero _).symm

theorem sendErrors_countOutcome (s : Traffic) (outcome : Except SocketError ℕ) :
    (s.countOutcome outcome).sendErrors = s.sendErrors + .ofNat ([outcome].countP isFailure) := by
  cases outcome with
  | ok bytes => exact (UInt64.add_zero _).symm
  | error e =>
    unfold Traffic.countOutcome
    dsimp only
    split_ifs with htransient <;> simp [isFailure, htransient, Traffic.countFailure]

namespace Tally

variable {config : SenderConfig} {appended : List Command} {playerId : UInt32} {log : List Deed}
  {s : Sender} {held buffer : List Command} {unsettled : List (Except SocketError ℕ)}

theorem push (h : Tally config appended playerId log s held buffer unsettled) (c : Command) :
    Tally config (appended ++ [c]) playerId log s held (buffer ++ [c]) unsettled :=
  { h with inOrder := by rw [h.inOrder, List.append_assoc] }

theorem setPlayerId (h : Tally config appended playerId log s held buffer unsettled)
    (next : UInt32) :
    Tally config appended next log (s.setPlayerId next) held buffer unsettled :=
  { h with playerId_eq := rfl }

/-- Whether the loop runs is nothing to the tally. -/
theorem running (h : Tally config appended playerId log s held buffer unsettled) (runs : Bool) :
    Tally config appended playerId log { s with running := runs } held buffer unsettled :=
  { h with }

/-- Nor are deeds that have nothing to do with commands. -/
theorem deeds (h : Tally config appended playerId log s held buffer unsettled) {ds : List Deed}
    (hhanded : handed ds = []) (houtcomes : outcomes ds = []) (hfailures : failures ds = []) :
    Tally config appended playerId (log ++ ds) s held buffer unsettled where
  config_eq := h.config_eq
  playerId_eq := h.playerId_eq
  inOrder := by rw [handed_append, hhanded, List.append_nil, h.inOrder]
  sent := by rw [outcomes_append, houtcomes, List.append_nil, h.sent]
  failed := by rw [outcomes_append, houtcomes, List.append_nil, h.failed]
  reported := by
    rw [outcomes_append, houtcomes, failures_append, hfailures, List.append_nil, List.append_nil,
      h.reported]

/-- The oldest command is taken. -/
theorem take {c : Command}
    (h : Tally config appended playerId log s [] (c :: buffer) unsettled) :
    Tally config appended playerId log s [c] buffer unsettled :=
  { h with inOrder := by rw [h.inOrder, List.append_nil, List.append_assoc, List.singleton_append] }

/-- The command that is held is handed over. -/
theorem hand {c : Command} (h : Tally config appended playerId log s [c] buffer [])
    (d : Datagram) (outcome : Except SocketError ℕ) :
    Tally config appended playerId (log ++ [.handed c d outcome]) s [] buffer [outcome] where
  config_eq := h.config_eq
  playerId_eq := h.playerId_eq
  inOrder := by
    rw [h.inOrder, handed_append, List.append_nil]
    rfl
  sent := by
    have hsent : s.stats.packetsSent = .ofNat ((outcomes log).countP (·.isOk)) := by
      simpa using h.sent
    rw [hsent, ← UInt64.ofNat_add, ← List.countP_append, outcomes_append]
    rfl
  failed := by
    have hfailed : s.stats.sendErrors = .ofNat ((outcomes log).countP isFailure) := by
      simpa using h.failed
    rw [hfailed, ← UInt64.ofNat_add, ← List.countP_append, outcomes_append]
    rfl
  reported := by
    have hreported : failures log = (outcomes log).flatMap (failure config.remote) := by
      simpa using h.reported
    rw [failures_append, outcomes_append, List.flatMap_append, ← hreported, List.append_assoc]
    rfl

/-- The answer is counted and reported. -/
theorem settle {outcome : Except SocketError ℕ}
    (h : Tally config appended playerId log s held buffer [outcome]) :
    Tally config appended playerId (log ++ (failure config.remote outcome).map .reported)
      { s with stats := s.stats.countOutcome outcome } held buffer [] := by
  obtain ⟨hhanded, houtcomes, hfailures⟩ := reports_failure config.remote outcome
  constructor
  case config_eq => exact h.config_eq
  case playerId_eq => exact h.playerId_eq
  case inOrder => rw [handed_append, hhanded, List.append_nil, h.inOrder]
  case sent =>
    rw [outcomes_append, houtcomes, List.append_nil, packetsSent_countOutcome, h.sent]
    exact UInt64.add_zero _
  case failed =>
    rw [outcomes_append, houtcomes, List.append_nil, sendErrors_countOutcome, h.failed]
    exact UInt64.add_zero _
  case reported =>
    rw [outcomes_append, houtcomes, List.append_nil, failures_append, hfailures, ← h.reported]
    simp

end Tally

/-! ## Events -/

section

variable {config : SenderConfig} {es : List (Event σ)} {log : List Deed} {b b' : Outbox σ}
  {n : ℕ} {e : Event σ}

theorem pushed_snoc (es : List (Event σ)) (e : Event σ) :
    pushed (es ++ [e]) = pushed es ++ pushed [e] :=
  List.filterMap_append

theorem playerIdAfter_append (playerId : UInt32) (es es' : List (Event σ)) :
    playerIdAfter playerId (es ++ es') = playerIdAfter (playerIdAfter playerId es) es' :=
  List.foldl_append

theorem playerIdAfter_of_unset (playerId : UInt32) {es : List (Event σ)}
    (h : ∀ id, .setPlayerId id ∉ es) : playerIdAfter playerId es = playerId := by
  induction es with
  | nil => rfl
  | cons e rest ih =>
    have hrest : playerIdAfter playerId rest = playerId :=
      ih fun id hm => h id (List.mem_cons_of_mem e hm)
    cases e with
    | setPlayerId id => exact absurd List.mem_cons_self (h id)
    | _ => exact hrest

/-- After events, the tally of the sender is right and packets that loops carry are
    those of their commands. -/
structure Accounts (config : SenderConfig) (es : List (Event σ)) (log : List Deed) (b : Outbox σ) :
    Prop where
  tally : Tally config (pushed es) (playerIdAfter config.playerId es) log b.sender b.held b.buffer
    b.unsettled
  addressed : ∀ n c data, (n, .carrying c data) ∈ b.loops → Addressed config.playerId es n c data

theorem accounts_make (config : SenderConfig) (ownsSocket : Bool) (socket : σ) :
    Accounts config [] [] (make config ownsSocket socket) where
  tally := ⟨rfl, rfl, rfl, rfl, rfl, rfl⟩
  addressed := by simp [make]

theorem Addressed.snoc {playerId : UInt32} {c : Command} {data : Bytes}
    (h : Addressed playerId es n c data) (he : e ≠ .turn n) :
    Addressed playerId (es ++ [e]) n c data := by
  obtain ⟨before, since, rfl, hsince, hdata⟩ := h
  refine ⟨before, since ++ [e], by simp, ?_, hdata⟩
  simp [hsince, he.symm]

/-- Events other than `push` and `setPlayerId` are known by what they do to the tally. -/
theorem accounts_snoc (hpushed : pushed [e] = []) (hplayer : ∀ id, playerIdAfter id [e] = id)
    (htally : Tally config (pushed es) (playerIdAfter config.playerId es) log b.sender b.held
      b.buffer b.unsettled)
    (haddressed : ∀ n c data, (n, .carrying c data) ∈ b.loops →
      Addressed config.playerId (es ++ [e]) n c data) : Accounts config (es ++ [e]) log b := by
  refine ⟨?_, haddressed⟩
  rwa [pushed_snoc, hpushed, List.append_nil, playerIdAfter_append, hplayer]

/-- Packets stay addressed while the loops that carry them do not go on. -/
theorem Accounts.addressed_snoc (h : Accounts config es log b)
    (hloops : ∀ n c data, (n, Stage.carrying c data) ∈ b'.loops →
      (n, Stage.carrying c data) ∈ b.loops) (he : ∀ n, e ≠ .turn n) :
    ∀ n c data, (n, .carrying c data) ∈ b'.loops → Addressed config.playerId (es ++ [e]) n c data :=
  fun n c data hm => (h.addressed n c data (hloops n c data hm)).snoc (he n)

theorem held_of_loops {stage : Stage} (h : b.loops = [(n, stage)]) : b.held = stage.held := by
  simp [held, h]

theorem unsettled_of_loops {stage : Stage} (h : b.loops = [(n, stage)]) :
    b.unsettled = stage.unsettled := by
  simp [unsettled, h]

theorem Tally.goTo {appended : List Command} {playerId : UInt32} {stage stage' : Stage}
    (hloops : b.loops = [(n, stage)])
    (h : Tally config appended playerId log b.sender stage'.held b.buffer stage'.unsettled) :
    Tally config appended playerId log (b.goTo n stage').sender (b.goTo n stage').held
      (b.goTo n stage').buffer (b.goTo n stage').unsettled := by
  have hloops' : (b.goTo n stage').loops = [(n, stage')] := by rw [goTo_of_loops hloops]
  rw [held_of_loops hloops', unsettled_of_loops hloops']
  exact h

variable [Socket σ]

/-- **Each stage keeps the tally.** -/
theorem Tally.advance {appended : List Command} {playerId : UInt32} {stage : Stage}
    (h : Tally config appended playerId log b.sender stage.held b.buffer stage.unsettled)
    (hloops : b.loops = [(n, stage)]) :
    Tally config appended playerId (log ++ (b.advance n stage).2) (b.advance n stage).1.sender
      (b.advance n stage).1.held (b.advance n stage).1.buffer (b.advance n stage).1.unsettled := by
  cases stage with
  | ready =>
    rw [Outbox.advance, List.append_nil]
    refine Tally.goTo hloops ?_
    cases b.stopRequested <;> exact h
  | going =>
    rw [Outbox.advance]
    split
    · rw [List.append_nil]
      exact Tally.goTo hloops h
    · rename_i c rest hpop
      rw [CommandBuffer.eq_cons_of_pop hpop] at h
      rw [List.append_nil]
      exact Tally.goTo hloops h.take
  | holding c =>
    rw [Outbox.advance, List.append_nil]
    exact Tally.goTo hloops h
  | carrying c data => exact Tally.goTo hloops (h.hand _ _)
  | answered outcome =>
    rw [Outbox.advance, h.config_eq]
    exact Tally.goTo hloops h.settle
  | leaving =>
    have hgone : (b.loops.filter fun l => l.1 ≠ n) = [] := by simp [hloops]
    rw [Outbox.advance, List.append_nil, held, unsettled]
    dsimp only
    rw [hgone]
    exact h.running false

/-- The packet that a loop carries is one that it has just made. -/
theorem carrying_advance {stage : Stage} (hloops : b.loops = [(n, stage)]) {m : ℕ} {c : Command}
    {data : Bytes} (hm : (m, .carrying c data) ∈ (b.advance n stage).1.loops) :
    m = n ∧ data = b.sender.packet c := by
  have hgo : ∀ (b' : Outbox σ) stage', b'.loops = [(n, stage)] →
      (m, .carrying c data) ∈ (b'.goTo n stage').loops → m = n ∧ stage' = .carrying c data := by
    intro b' stage' h' hm
    rw [goTo_of_loops h', List.mem_singleton, Prod.mk.injEq] at hm
    exact ⟨hm.1, hm.2.symm⟩
  cases stage with
  | ready =>
    obtain ⟨-, hstage⟩ := hgo b _ hloops hm
    cases hstop : b.stopRequested <;> simp [hstop] at hstage
  | going =>
    rw [Outbox.advance] at hm
    split at hm
    · cases (hgo b _ hloops hm).2
    · cases (hgo { b with buffer := _ } _ hloops hm).2
  | holding c' =>
    obtain ⟨rfl, hstage⟩ := hgo b _ hloops hm
    cases hstage
    exact ⟨rfl, rfl⟩
  | carrying c' data' => cases (hgo { b with socket := _ } _ hloops hm).2
  | answered outcome => cases (hgo { b with sender := _ } _ hloops hm).2
  | leaving => simp [Outbox.advance, hloops] at hm

theorem Accounts.turn (h : Accounts config es log b) (horderly : b.Orderly) (n : ℕ) :
    Accounts config (es ++ [.turn n]) (log ++ (b.turn n).2) (b.turn n).1 := by
  rcases turn_cases horderly n with ⟨stage, hloops, he⟩ | ⟨hnone, he⟩
  · rw [he]
    refine accounts_snoc rfl (fun _ => rfl) ?_ fun m c data hm => ?_
    · have htally := h.tally
      rw [held_of_loops hloops, unsettled_of_loops hloops] at htally
      exact htally.advance hloops
    · obtain ⟨rfl, rfl⟩ := carrying_advance hloops hm
      exact ⟨es, [], rfl, by simp, by rw [Sender.packet, h.tally.playerId_eq]⟩
  · rw [he, List.append_nil]
    refine accounts_snoc rfl (fun _ => rfl) h.tally fun m c data hm => ?_
    refine (h.addressed m c data hm).snoc ?_
    rintro ⟨⟩
    exact hnone _ hm

/-- Answers of control calls and reports of sockets that do not open are nothing to the
    tally. -/
theorem Tally.called {appended : List Command} {playerId : UInt32} {s : Sender}
    {held buffer : List Command} {unsettled : List (Except SocketError ℕ)}
    (h : Tally config appended playerId log s held buffer unsettled) {reports : List SenderReport}
    (hreports : ∀ r ∈ reports, ∃ bind e, r = SenderReport.socketOpen bind e) (ok : Bool) :
    Tally config appended playerId (log ++ (reports.map .reported ++ [.started ok])) s held buffer
      unsettled := by
  have hds : ∀ d ∈ reports.map Deed.reported ++ [.started ok],
      (∃ bind e, d = .reported (.socketOpen bind e)) ∨ d = .started ok := by
    intro d hd
    rcases List.mem_append.1 hd with hd | hd
    · obtain ⟨r, hr, rfl⟩ := List.mem_map.1 hd
      obtain ⟨bind, e, rfl⟩ := hreports r hr
      exact Or.inl ⟨bind, e, rfl⟩
    · exact Or.inr (List.mem_singleton.1 hd)
  refine h.deeds ?_ ?_ ?_ <;>
  · refine List.filterMap_eq_nil_iff.2 fun d hd => ?_
    rcases hds d hd with ⟨_, _, rfl⟩ | rfl <;> rfl

theorem Accounts.start (h : Accounts config es log b) (hasThread : Bool) :
    Accounts config (es ++ [.start hasThread]) (log ++ (b.start hasThread).2)
      (b.start hasThread).1 := by
  rcases b.start_cases hasThread with ⟨socket, stopRequested, reports, -, hreports, he⟩ |
    ⟨-, -, socket, he⟩
  · rw [he]
    exact accounts_snoc rfl (fun _ => rfl) (h.tally.called hreports false)
      (h.addressed_snoc (fun _ _ _ hm => hm) (by simp))
  · rw [he]
    have hheld : (b.loops ++ [(b.nextLoop, Stage.ready)]).flatMap (fun l => l.2.held) = b.held := by
      simp [held, Stage.held]
    have hunsettled :
        (b.loops ++ [(b.nextLoop, Stage.ready)]).flatMap (fun l => l.2.unsettled) = b.unsettled := by
      simp [unsettled, Stage.unsettled]
    refine accounts_snoc rfl (fun _ => rfl) ?_ (h.addressed_snoc (fun n c data hm => ?_) (by simp))
    · rw [held, unsettled, hheld, hunsettled]
      exact (h.tally.called (List.forall_mem_nil _) true).running true
    · simpa using hm

theorem Accounts.await (h : Accounts config es log b) :
    Accounts config (es ++ [.await]) (log ++ []) b.await := by
  have hwaiting : Accounts config (es ++ [.await]) (log ++ []) b := by
    rw [List.append_nil]
    exact accounts_snoc rfl (fun _ => rfl) h.tally
      (h.addressed_snoc (fun _ _ _ hm => hm) (by simp))
  unfold Outbox.await
  split
  · exact hwaiting
  · split_ifs
    · exact hwaiting
    · exact ⟨hwaiting.tally.running false, hwaiting.addressed⟩

/-- **Every event keeps the accounts.** -/
theorem Accounts.perform (h : Accounts config es log b) (horderly : b.Orderly) (e : Event σ) :
    Accounts config (es ++ [e]) (log ++ (b.perform e).2) (b.perform e).1 := by
  -- control calls that are not made, and what does not touch the sender
  have hsame : ∀ b' : Outbox σ, b'.sender = b.sender → b'.loops = b.loops → b'.buffer = b.buffer →
      pushed [e] = [] → (∀ id, playerIdAfter id [e] = id) → (∀ n, e ≠ .turn n) →
      Accounts config (es ++ [e]) (log ++ []) b' := by
    intro b' hsender hloops hbuffer hpushed hplayer hturn
    rw [List.append_nil]
    refine accounts_snoc hpushed hplayer ?_
      (h.addressed_snoc (fun _ _ _ hm => hloops ▸ hm) hturn)
    rw [hsender, hbuffer, held, unsettled, hloops]
    exact h.tally
  cases e with
  | push c =>
    refine ⟨?_, h.addressed_snoc (fun _ _ _ hm => hm) (by simp)⟩
    rw [pushed_snoc, playerIdAfter_append, Outbox.perform, List.append_nil]
    exact h.tally.push c
  | setPlayerId playerId =>
    refine ⟨?_, h.addressed_snoc (fun _ _ _ hm => hm) (by simp)⟩
    rw [pushed_snoc, playerIdAfter_append, Outbox.perform, List.append_nil]
    exact (List.append_nil (pushed es)).symm ▸ h.tally.setPlayerId playerId
  | start hasThread =>
    rw [Outbox.perform]
    split_ifs
    · exact hsame b rfl rfl rfl rfl (fun _ => rfl) (by simp)
    · exact h.start hasThread
  | stop =>
    rw [Outbox.perform]
    split_ifs
    · exact hsame b rfl rfl rfl rfl (fun _ => rfl) (by simp)
    · exact hsame b.askToStop rfl rfl rfl rfl (fun _ => rfl) (by simp)
  | await => exact h.await
  | turn n => exact h.turn horderly n
  | meddle socket => exact hsame { b with socket } rfl rfl rfl rfl (fun _ => rfl) (by simp)

/-- After every run loops live one at a time and the accounts are right. -/
theorem accounts_performAll (config : SenderConfig) (ownsSocket : Bool) (socket : σ)
    (es : List (Event σ)) :
    ((make config ownsSocket socket).performAll es).1.Orderly ∧
      Accounts config es ((make config ownsSocket socket).performAll es).2
        ((make config ownsSocket socket).performAll es).1 := by
  induction es using List.reverseRecOn with
  | nil => exact ⟨.idle rfl rfl rfl rfl, accounts_make config ownsSocket socket⟩
  | append_singleton es e ih =>
    obtain ⟨horderly, haccounts⟩ := ih
    rw [performAll_snoc]
    exact ⟨horderly.perform e, haccounts.perform horderly e⟩

/-- What a packet carries of a command. -/
structure Carries (p : InputPacket) (c : Command) (playerId : UInt32) : Prop where
  sequence : p.header.sequence.toNat = c.sequence.toNat % 2 ^ 16
  buttons : p.buttons = c.buttons
  position : p.position = c.position
  angle : p.angle = c.angle
  playerId : p.playerId = playerId

theorem carries_toPacket (c : Command) (playerId : UInt32) :
    Carries (c.toPacket playerId) c playerId :=
  ⟨UInt32.toNat_toUInt16 c.sequence, rfl, rfl, rfl, rfl⟩

/-- Nothing that was appended is lost or sent again, and what is sent is counted. -/
structure Delivers (config : SenderConfig) (es : List (Event σ)) (log : List Deed) (b : Outbox σ) :
    Prop where
  /-- What the socket was given is how the appended commands begin; the rest waits, but
      for one command that a loop may hold. -/
  inOrder : pushed es = handed log ++ (b.held ++ b.buffer)
  held : b.held.length ≤ 1
  /-- Where no loop is alive nothing is held and all is counted. -/
  still : b.loops = [] → b.held = [] ∧ b.unsettled = []
  /-- A packet is handed over by the next turn of the loop that made it, and is for the
      player at the time it was made; what is noted is what the socket answers. -/
  packets : ∀ e c d outcome, .handed c d outcome ∈ (b.perform e).2 →
    ∃ n before since p, e = .turn n ∧ es = before ++ .turn n :: since ∧ .turn n ∉ since ∧
      d = ⟨config.remote, p.encode⟩ ∧ outcome = (Socket.send b.socket d.data d.peer).1 ∧
      Carries p c (playerIdAfter config.playerId before) ∧
      ((∀ id, .setPlayerId id ∉ since) → p.playerId = playerIdAfter config.playerId es)
  /-- Of the answers one may not be settled. -/
  unsettled : b.unsettled.length ≤ 1
  sent : b.sender.stats.packetsSent + .ofNat (b.unsettled.countP (·.isOk)) =
    .ofNat ((outcomes log).countP (·.isOk))
  failed : b.sender.stats.sendErrors + .ofNat (b.unsettled.countP isFailure) =
    .ofNat ((outcomes log).countP isFailure)
  reported : failures log ++ b.unsettled.flatMap (failure config.remote) =
    (outcomes log).flatMap (failure config.remote)
  alone : b.loops.length ≤ 1
  running : b.sender.running = !b.loops.isEmpty
  started : ∀ e, .started true ∈ (b.perform e).2 → b.loops = []
  starts : b.loops = [] → b.awaited = none → (b.sender.prepare b.socket).1 = .ok () →
    .started true ∈ (b.perform (.start true)).2
  /-- A loop that nobody comes in between takes a turn of the sender. -/
  turns : ∀ n, b.loops = [(n, .ready)] → b.stopRequested = false →
    ∃ k ds, b.performAll (List.replicate k (.turn n)) = (b.afterStep, ds) ∧
      reports ds = (b.sender.step b.socket b.buffer).2.2.2

/-- **A sender loses and repeats nothing.**  Whoever appends commands, changes who plays and
    calls to start and to stop, whatever the socket answers, and wherever all this comes in
    between the stages of a loop: the commands that the socket was given are the first ones
    that were appended, each once and in order, over every stop and restart; each went out
    with all that its packet carries, for the player that was current when the loop made
    it; what was sent and what failed for good is counted and reported one for one; and
    there is one loop at most, none when a call to start succeeds.  A loop that is left
    alone sends what waits. -/
theorem loses_and_repeats_nothing (config : SenderConfig) (ownsSocket : Bool) (socket : σ)
    (es : List (Event σ)) :
    Delivers config es ((make config ownsSocket socket).performAll es).2
      ((make config ownsSocket socket).performAll es).1 := by
  obtain ⟨horderly, haccounts⟩ := accounts_performAll config ownsSocket socket es
  have htally := haccounts.tally
  constructor
  case inOrder => rw [htally.inOrder, List.append_assoc]
  case held =>
    rcases horderly.loops_cases with hloops | ⟨n, stage, hloops⟩
    · simp [Outbox.held, hloops]
    · rw [held_of_loops hloops]
      exact stage.length_held
  case still => exact fun hloops => by simp [Outbox.held, Outbox.unsettled, hloops]
  case packets =>
    intro e c d outcome hm
    rcases mem_perform horderly hm with ⟨_, hd⟩ | hd | ⟨hd, -⟩ |
      ⟨n, _, data, rfl, hcarrying, hd⟩ <;> cases hd
    obtain ⟨before, since, hes, hsince, rfl⟩ := haccounts.addressed n c data hcarrying
    rw [htally.config_eq]
    refine ⟨n, before, since, _, rfl, hes, hsince, rfl, rfl, carries_toPacket c _,
      fun hunset => ?_⟩
    have hafter : ∀ id, .setPlayerId id ∉ (.turn n :: since : List (Event σ)) := by
      simpa using hunset
    rw [hes, playerIdAfter_append, playerIdAfter_of_unset _ hafter]
    rfl
  case unsettled =>
    rcases horderly.loops_cases with hloops | ⟨n, stage, hloops⟩
    · simp [Outbox.unsettled, hloops]
    · rw [unsettled_of_loops hloops]
      exact stage.length_unsettled
  case sent => exact htally.sent
  case failed => exact htally.failed
  case reported => exact htally.reported
  case alone =>
    rcases horderly.loops_cases with hloops | ⟨n, stage, hloops⟩ <;> simp [hloops]
  case running => exact horderly.running_eq
  case started =>
    intro e hm
    rcases mem_perform horderly hm with ⟨_, hd⟩ | hd | ⟨-, hloops⟩ | ⟨_, _, _, -, -, hd⟩
    · cases hd
    · cases hd
    · exact hloops
    · cases hd
  case starts =>
    intro hloops hawaited hprepare
    rw [Outbox.perform, if_neg (by simp [hawaited])]
    exact horderly.started_start hloops hprepare
  case turns =>
    intro n hloops hstop
    refine performAll_turns hloops hstop ?_
    rw [horderly.running_eq, hloops]
    rfl

/-- Two commands are pushed and the loop is started.  It sends one; when it holds the
    other, who plays is changed and it is asked to stop.  It is started again for a third
    command. -/
def restarted : List (Event ScriptedSocket) :=
  [.push { sequence := 65537, buttons := .up }, .push { sequence := 2, buttons := .down },
    .start true, .turn 0, .turn 0, .turn 0, .turn 0, .turn 0, .turn 0, .turn 0, .setPlayerId 9,
    .stop, .start true, .await, .turn 0, .turn 0, .turn 0, .turn 0, .turn 0, .await,
    .push { sequence := 3, buttons := .left }, .start true, .start true,
    .push { sequence := 4, buttons := .right }, .turn 1, .turn 1, .turn 1, .turn 1, .turn 1]

/-- Each command is sent once, the second although its loop was asked to stop and for the
    new player; of three answers one counts as sent and one as failed. -/
theorem loses_and_repeats_nothing_restarted :
    let config : SenderConfig := { playerId := 7 }
    let socket : ScriptedSocket := { sends := [.ok (), .error .wouldBlock, .error .networkDown] }
    let b := ((make config true socket).performAll restarted).1
    let log := ((make config true socket).performAll restarted).2
    pushed restarted = handed log ++ [{ sequence := 4, buttons := .right }] ∧
      (handed log).map (·.sequence) = [65537, 2, 3] ∧
      (b.socket.passed.map fun d => (InputPacket.decode d.data).map (·.playerId)) =
        [some 7, some 9, some 9] ∧
      b.sender.stats.packetsSent = 1 ∧ b.sender.stats.sendErrors = 1 ∧
      failures log = [.send config.remote .networkDown] := by
  intro config socket b log
  have h : Delivers config restarted log b := loses_and_repeats_nothing config true socket restarted
  have hrest : b.held ++ b.buffer = [{ sequence := 4, buttons := .right }] := by decide +kernel
  refine ⟨hrest ▸ h.inOrder, ?_⟩
  decide +kernel

end

end Outbox

end Netplay
