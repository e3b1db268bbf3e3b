/-
  A sender among those that use it.

  Producers append commands to a buffer, control calls start and stop a loop that
  takes them out, and all of this happens at once.  A turn of the loop is therefore
  cut where another party can come in between: it asks whether to go on, takes a
  command, looks up who plays and makes the packet, hands it to the socket, counts
  and reports the answer.  A call to stop asks the loop to end and waits until it has;
  no other control call comes in between.

  * `Outbox`, `Outbox.perform`: a sender with its socket, its buffer and its loops;
  * `Outbox.performAll_turns`, `Outbox.performAll_stop`: where nobody comes in between,
    a turn is `Sender.step` and a call to stop is `Sender.stop`;
  * `Outbox.start_cases`, `Outbox.turn_cases`, `Outbox.mem_perform`: what events do;
  * `Outbox.Orderly`: loops live one at a time; kept by every event
    (`Orderly.perform`).
-/
import Mathlib.Tactic.Common
import Netplay.Transport.Sender

namespace Netplay

/-! ## Loops -/

/-- How far a loop is in its turn. -/
inductive Stage where
  /-- It is about to ask whether to go on. -/
  | ready
  /-- It goes on and is about to take a command. -/
  | going
  /-- It has taken a command. -/
  | holding (c : Command)
  /-- It has made the packet of the command. -/
  | carrying (c : Command) (data : Bytes)
  /-- The socket has answered. -/
  | answered (outcome : Except SocketError ℕ)
  /-- It was asked to end. -/
  | leaving

/-- A sender with its socket, its buffer and the loops that are alive. -/
structure Outbox (σ : Type) where
  sender : Sender
  socket : σ
  buffer : CommandBuffer := []
  /-- Loops are asked to end. -/
  stopRequested : Bool := false
  /-- The loops that are alive, each with its number. -/
  loops : List (ℕ × Stage) := []
  /-- The number of the next loop. -/
  nextLoop : ℕ := 0
  /-- The loop that was started last, until it is asked to end. -/
  started : Option ℕ := none
  /-- The loop whose end a call to stop waits for. -/
  awaited : Option ℕ := none

theorem Sender.eq_of_still (s : Sender) (h : s.running = false) :
    ({ s with running := false } : Sender) = s := by
  obtain ⟨_, _, _, running, _⟩ := s
  obtain rfl : running = false := h
  rfl

namespace Outbox

/-- What happens to a sender. -/
inductive Event (σ : Type) where
  /-- A producer appends a command. -/
  | push (c : Command)
  | setPlayerId (playerId : UInt32)
  /-- A call to start; there may be no thread for a loop. -/
  | start (hasThread : Bool)
  /-- A call to stop asks the loop to end. -/
  | stop
  /-- The call to stop looks whether the loop has ended. -/
  | await
  /-- A loop goes on by a stage. -/
  | turn (n : ℕ)
  /-- The socket changes otherwise. -/
  | meddle (socket : σ)

/-- What a sender does outside. -/
inductive Deed where
  /-- A call to start answers. -/
  | started (ok : Bool)
  /-- The socket is given the packet of a command, and answers. -/
  | handed (c : Command) (d : Datagram) (outcome : Except SocketError ℕ)
  | reported (r : SenderReport)

/-- The report of an answer: none of success and of what is transient. -/
def failure (remote : Address) : Except SocketError ℕ → List SenderReport
  | .ok _ => []
  | .error e => if e.isTransient then [] else [.send remote e]

/-- The reports among deeds. -/
def reports (log : List Deed) : List SenderReport :=
  log.filterMap fun
    | .reported r => some r
    | _ => none

theorem reports_map (rs : List SenderReport) : reports (rs.map .reported) = rs :=
  List.filterMap_map.trans List.filterMap_some

variable {σ : Type}

/-- Before anything has happened. -/
def make (config : SenderConfig) (ownsSocket : Bool) (socket : σ) : Outbox σ :=
  { sender := .make config ownsSocket, socket }

/-- Another stage for the loop with the given number. -/
def goTo (b : Outbox σ) (n : ℕ) (stage : Stage) : Outbox σ :=
  { b with loops := b.loops.map fun l => if l.1 = n then (n, stage) else l }

/-- The sender when a call to stop has asked the loop to end. -/
def askToStop (b : Outbox σ) : Outbox σ :=
  { b with stopRequested := true, started := none, awaited := b.started }

section

variable [Socket σ]

/-- A call to start. -/
def start (b : Outbox σ) (hasThread : Bool) : Outbox σ × List Deed :=
  if b.started.isSome then (b, [.started false])
  else match b.sender.start b.socket with
    | (true, sender, socket, reports) =>
      if hasThread then
        ({ b with
          sender, socket
          stopRequested := false
          loops := b.loops ++ [(b.nextLoop, .ready)]
          nextLoop := b.nextLoop + 1
          started := some b.nextLoop }, reports.map .reported ++ [.started true])
      else
        ({ b with
          sender := { sender with running := false }
          socket
          stopRequested := false }, reports.map .reported ++ [.started false])
    | (false, sender, socket, reports) =>
      ({ b with sender, socket }, reports.map .reported ++ [.started false])

/-- The sender when the loop that a call to stop waits for has ended. -/
def finishStop (b : Outbox σ) : Outbox σ :=
  { b with
    sender := { b.sender with running := false }
    socket := if b.sender.ownsSocket then Socket.close b.socket else b.socket
    awaited := none }

/-- The call to stop looks whether the loop has ended. -/
def await (b : Outbox σ) : Outbox σ :=
  match b.awaited with
  | none => b
  | some n => if (b.loops.lookup n).isSome then b else b.finishStop

/-- A loop goes on from a stage. -/
def advance (b : Outbox σ) (n : ℕ) : Stage → Outbox σ × List Deed
  | .ready => (b.goTo n (if b.stopRequested then .leaving else .going), [])
  | .going =>
    match b.buffer.pop with
    | (none, _) => (b.goTo n .ready, [])
    | (some c, buffer) => ({ b with buffer }.goTo n (.holding c), [])
  | .holding c => (b.goTo n (.carrying c (b.sender.packet c)), [])
  | .carrying c data =>
    let (outcome, socket) := Socket.send b.socket data b.sender.config.remote
    ({ b with socket }.goTo n (.answered outcome),
      [.handed c ⟨b.sender.config.remote, data⟩ outcome])
  | .answered outcome =>
    ({ b with
        sender := { b.sender with stats := b.sender.stats.countOutcome outcome } }.goTo n .ready,
      (failure b.sender.config.remote outcome).map .reported)
  | .leaving =>
    ({ b with
      sender := { b.sender with running := false }
      loops := b.loops.filter fun l => l.1 ≠ n }, [])

/-- The loop with the given number goes on, if it is alive. -/
def turn (b : Outbox σ) (n : ℕ) : Outbox σ × List Deed :=
  match b.loops.lookup n with
  | none => (b, [])
  | some stage => b.advance n stage

/-- The sender after an event, and what it has done.  A control call is not made while
    another one waits. -/
def perform (b : Outbox σ) : Event σ → Outbox σ × List Deed
  | .push c => ({ b with buffer := b.buffer.push c }, [])
  | .setPlayerId playerId => ({ b with sender := b.sender.setPlayerId playerId }, [])
  | .start hasThread => if b.awaited.isSome then (b, []) else b.start hasThread
  | .stop => (if b.awaited.isSome then b else b.askToStop, [])
  | .await => (b.await, [])
  | .turn n => b.turn n
  | .meddle socket => ({ b with socket }, [])

def performAll (b : Outbox σ) : List (Event σ) → Outbox σ × List Deed
  | [] => (b, [])
  | e :: rest =>
    let (b, first) := b.perform e
    let (b, later) := b.performAll rest
    (b, first ++ later)

theorem performAll_append (b : Outbox σ) (es es' : List (Event σ)) :
    b.performAll (es ++ es') = (((b.performAll es).1.performAll es').1,
      (b.performAll es).2 ++ ((b.performAll es).1.performAll es').2) := by
  induction es generalizing b with
  | nil => rfl
  | cons e rest ih =>
    rw [List.cons_append, performAll, performAll]
    dsimp only
    rw [ih, List.append_assoc]

theorem performAll_snoc (b : Outbox σ) (es : List (Event σ)) (e : Event σ) :
    b.performAll (es ++ [e]) = (((b.performAll es).1.perform e).1,
      (b.performAll es).2 ++ ((b.performAll es).1.perform e).2) := by
  rw [performAll_append]
  simp [performAll]

/-! ## Where nobody comes in between -/

/-- A turn of the sender, with its socket and its buffer. -/
def afterStep (b : Outbox σ) : Outbox σ :=
  { b with
    sender := (b.sender.step b.socket b.buffer).1
    socket := (b.sender.step b.socket b.buffer).2.1
    buffer := (b.sender.step b.socket b.buffer).2.2.1 }

/-- **A loop that nobody comes in between takes a turn of the sender**, and is ready for
    the next: in two stages if there is no command, in five if there is one. -/
theorem performAll_turns {b : Outbox σ} {n : ℕ} (hloops : b.loops = [(n, .ready)])
    (hstop : b.stopRequested = false) (hrunning : b.sender.running = true) :
    ∃ k log, b.performAll (List.replicate k (.turn n)) = (b.afterStep, log) ∧
      reports log = (b.sender.step b.socket b.buffer).2.2.2 := by
  cases hbuffer : b.buffer with
  | nil =>
    refine ⟨2, [], ?_, by simp [reports, Sender.step]⟩
    simp [List.replicate, performAll, perform, turn, advance, goTo, afterStep, hloops, hstop,
      hbuffer, Sender.step]
  | cons c rest =>
    rcases hsend : Socket.send b.socket (b.sender.packet c) b.sender.config.remote with
      ⟨outcome, socket⟩
    refine ⟨5, .handed c ⟨b.sender.config.remote, b.sender.packet c⟩ outcome ::
      (failure b.sender.config.remote outcome).map .reported, ?_, ?_⟩
    · simp [List.replicate, performAll, perform, turn, advance, goTo, afterStep, hloops, hstop,
        hbuffer, Sender.step, hrunning, Sender.sendCommand, hsend]
    · have hreports : (b.sender.step b.socket (c :: rest)).2.2.2 =
          failure b.sender.config.remote outcome := by
        cases outcome <;>
          simp only [Sender.step, CommandBuffer.pop_cons, hrunning, Sender.sendCommand, hsend, failure]
      exact (reports_map _).trans hreports.symm

/-- **A call to stop that nobody comes in between** ends the loop and closes the socket as the
    sender does. -/
theorem performAll_stop {b : Outbox σ} {n : ℕ} (hloops : b.loops = [(n, .ready)])
    (hstarted : b.started = some n) (hawaited : b.awaited = none)
    (hrunning : b.sender.running = true) :
    b.performAll [.stop, .turn n, .turn n, .await] =
      ({ b with
        sender := (b.sender.stop b.socket).1
        socket := (b.sender.stop b.socket).2
        stopRequested := true
        loops := []
        started := none }, []) := by
  simp [performAll, perform, hawaited, askToStop, turn, advance, goTo, hloops, await, hstarted,
    finishStop, Sender.stop, hrunning]

end

/-! ## Loops live one at a time -/

/-- The lives of loops. -/
inductive Orderly (b : Outbox σ) : Prop where
  /-- There is no loop. -/
  | idle (hloops : b.loops = []) (hstarted : b.started = none) (hawaited : b.awaited = none)
    (hrunning : b.sender.running = false)
  /-- One has been started. -/
  | busy {n : ℕ} {stage : Stage} (hloops : b.loops = [(n, stage)]) (hstarted : b.started = some n)
    (hawaited : b.awaited = none) (hrunning : b.sender.running = true)
    (hstop : b.stopRequested = false) (hstage : stage ≠ .leaving)
  /-- It was asked to end. -/
  | ending {n : ℕ} {stage : Stage} (hloops : b.loops = [(n, stage)]) (hstarted : b.started = none)
    (hawaited : b.awaited = some n) (hrunning : b.sender.running = true)
  /-- It has ended. -/
  | ended {n : ℕ} (hloops : b.loops = []) (hstarted : b.started = none)
    (hawaited : b.awaited = some n) (hrunning : b.sender.running = false)

theorem Orderly.congr {b b' : Outbox σ} (h : b.Orderly) (hloops : b'.loops = b.loops)
    (hstarted : b'.started = b.started) (hawaited : b'.awaited = b.awaited)
    (hrunning : b'.sender.running = b.sender.running)
    (hstop : b'.stopRequested = b.stopRequested) : b'.Orderly := by
  cases h with
  | idle h1 h2 h3 h4 =>
    exact .idle (hloops.trans h1) (hstarted.trans h2) (hawaited.trans h3) (hrunning.trans h4)
  | busy h1 h2 h3 h4 h5 h6 =>
    exact .busy (hloops.trans h1) (hstarted.trans h2) (hawaited.trans h3) (hrunning.trans h4)
      (hstop.trans h5) h6
  | ending h1 h2 h3 h4 =>
    exact .ending (hloops.trans h1) (hstarted.trans h2) (hawaited.trans h3) (hrunning.trans h4)
  | ended h1 h2 h3 h4 =>
    exact .ended (hloops.trans h1) (hstarted.trans h2) (hawaited.trans h3) (hrunning.trans h4)

theorem goTo_of_loops {b : Outbox σ} {n : ℕ} {stage : Stage} (h : b.loops = [(n, stage)])
    (stage' : Stage) : b.goTo n stage' = { b with loops := [(n, stage')] } := by
  simp [goTo, h]

/-- The one loop there is, or none. -/
theorem Orderly.loops_cases {b : Outbox σ} (h : b.Orderly) :
    b.loops = [] ∨ ∃ n stage, b.loops = [(n, stage)] := by
  cases h with
  | idle hloops => exact Or.inl hloops
  | busy hloops => exact Or.inr ⟨_, _, hloops⟩
  | ending hloops => exact Or.inr ⟨_, _, hloops⟩
  | ended hloops => exact Or.inl hloops

/-- The sender's flag shows whether there is one. -/
theorem Orderly.running_eq {b : Outbox σ} (h : b.Orderly) : b.sender.running = !b.loops.isEmpty := by
  cases h with
  | idle hloops _ _ hrunning => rw [hloops, hrunning]; rfl
  | busy hloops _ _ hrunning => rw [hloops, hrunning]; rfl
  | ending hloops _ _ hrunning => rw [hloops, hrunning]; rfl
  | ended hloops _ _ hrunning => rw [hloops, hrunning]; rfl

/-- A call to stop turns to the loop that was started, if there is one. -/
theorem Orderly.askToStop {b : Outbox σ} (h : b.Orderly) (hawaited : b.awaited = none) :
    b.askToStop.Orderly := by
  cases h with
  | idle hloops hstarted _ hrunning => exact .idle hloops rfl hstarted hrunning
  | busy hloops hstarted _ hrunning => exact .ending hloops rfl hstarted hrunning
  | ending _ _ hawaited' => simp [hawaited] at hawaited'
  | ended _ _ hawaited' => simp [hawaited] at hawaited'

section

variable [Socket σ]

/-- **What a call to start does.**  It changes nothing but the socket and what is left of an
    old request to stop, or there was no loop started and there is a new one. -/
theorem start_cases (b : Outbox σ) (hasThread : Bool) :
    (∃ socket stopRequested, ∃ reports : List SenderReport,
      (b.started ≠ none → stopRequested = b.stopRequested) ∧
      (∀ r ∈ reports, ∃ bind e, r = SenderReport.socketOpen bind e) ∧
      b.start hasThread =
        ({ b with socket, stopRequested }, reports.map .reported ++ [.started false])) ∨
    (b.started = none ∧ b.sender.running = false ∧ ∃ socket, b.start hasThread =
      ({ b with
        sender := { b.sender with running := true }
        socket
        stopRequested := false
        loops := b.loops ++ [(b.nextLoop, .ready)]
        nextLoop := b.nextLoop + 1
        started := some b.nextLoop }, [.started true])) := by
  unfold start
  by_cases hstarted : b.started.isSome = true
  · rw [if_pos hstarted]
    exact Or.inl ⟨b.socket, b.stopRequested, [], fun _ => rfl, by simp, rfl⟩
  · rw [if_neg hstarted]
    have hnone : b.started = none := by simpa using hstarted
    unfold Sender.start
    by_cases hrunning : b.sender.running = true
    · rw [if_pos hrunning]
      exact Or.inl ⟨b.socket, b.stopRequested, [], fun _ => rfl, by simp, rfl⟩
    · have hstill : b.sender.running = false := by simpa using hrunning
      rw [if_neg hrunning]
      rcases b.sender.prepare b.socket with ⟨_ | _, socket⟩
      · refine Or.inl ⟨socket, b.stopRequested, _, fun _ => rfl, ?_, rfl⟩
        exact fun r hr => ⟨_, _, List.mem_singleton.1 hr⟩
      · cases hasThread
        · refine Or.inl ⟨socket, false, [], fun h => absurd hnone h, by simp, ?_⟩
          exact congrArg (fun s => (({ b with sender := s, socket, stopRequested := false } : Outbox σ),
            [Deed.started false])) (b.sender.eq_of_still hstill)
        · exact Or.inr ⟨hnone, hstill, socket, rfl⟩

/-- A call to start succeeds if there is no loop, the socket can be prepared and there is a
    thread. -/
theorem Orderly.started_start {b : Outbox σ} (h : b.Orderly) (hloops : b.loops = [])
    (hprepare : (b.sender.prepare b.socket).1 = .ok ()) :
    .started true ∈ (b.start true).2 := by
  have hrunning : b.sender.running = false := by
    rw [h.running_eq, hloops]
    rfl
  have hstarted : b.started = none := by
    cases h with
    | idle _ hstarted => exact hstarted
    | busy hloops' => simp [hloops] at hloops'
    | ending _ hstarted => exact hstarted
    | ended _ hstarted => exact hstarted
  obtain ⟨socket, he⟩ : ∃ socket, b.sender.prepare b.socket = (.ok (), socket) :=
    ⟨_, Prod.ext hprepare rfl⟩
  simp [start, Sender.start, hstarted, hrunning, he]

theorem Orderly.start {b : Outbox σ} (h : b.Orderly) (hawaited : b.awaited = none)
    (hasThread : Bool) : (b.start hasThread).1.Orderly := by
  rcases b.start_cases hasThread with ⟨socket, stopRequested, _, hstop', -, he⟩ |
    ⟨hstarted, -, socket, he⟩
  · rw [he]
    cases h with
    | idle hloops hstarted _ hrunning => exact .idle hloops hstarted hawaited hrunning
    | busy hloops hstarted _ hrunning hstop hstage =>
      have hasked : stopRequested = false := (hstop' (by simp [hstarted])).trans hstop
      exact .busy hloops hstarted hawaited hrunning hasked hstage
    | ending _ _ hawaited' _ => simp [hawaited] at hawaited'
    | ended _ _ hawaited' _ => simp [hawaited] at hawaited'
  · rw [he]
    cases h with
    | idle hloops _ _ _ =>
      have hone : b.loops ++ [(b.nextLoop, Stage.ready)] = [(b.nextLoop, .ready)] := by
        rw [hloops, List.nil_append]
      exact .busy hone rfl hawaited rfl rfl (by simp)
    | busy _ hstarted' _ _ _ _ => simp [hstarted] at hstarted'
    | ending _ _ hawaited' _ => simp [hawaited] at hawaited'
    | ended _ _ hawaited' _ => simp [hawaited] at hawaited'

/-- What a stage does to the one loop there is: it goes on, or it ends. -/
theorem advance_cases {b : Outbox σ} {n : ℕ} {stage : Stage} (h : b.loops = [(n, stage)]) :
    (b.advance n stage).1.started = b.started ∧ (b.advance n stage).1.awaited = b.awaited ∧
      (b.advance n stage).1.stopRequested = b.stopRequested ∧
      ((stage = .leaving ∧ (b.advance n stage).1.loops = [] ∧
          (b.advance n stage).1.sender.running = false) ∨
        (stage ≠ .leaving ∧ (b.advance n stage).1.sender.running = b.sender.running ∧
          ∃ stage', (b.advance n stage).1.loops = [(n, stage')] ∧
            (stage' = .leaving → b.stopRequested = true))) := by
  have hgo : ∀ (b' : Outbox σ) stage', b'.loops = [(n, stage)] →
      (b'.goTo n stage').loops = [(n, stage')] := fun b' stage' h' => by rw [goTo_of_loops h']
  cases stage with
  | ready =>
    refine ⟨rfl, rfl, rfl, Or.inr ⟨by simp, rfl, _, hgo b _ h, ?_⟩⟩
    cases b.stopRequested <;> simp
  | going =>
    rw [advance]
    split
    · exact ⟨rfl, rfl, rfl, Or.inr ⟨by simp, rfl, _, hgo b _ h, by simp⟩⟩
    · exact ⟨rfl, rfl, rfl, Or.inr ⟨by simp, rfl, _, hgo _ _ h, by simp⟩⟩
  | holding c => exact ⟨rfl, rfl, rfl, Or.inr ⟨by simp, rfl, _, hgo b _ h, by simp⟩⟩
  | carrying c data => exact ⟨rfl, rfl, rfl, Or.inr ⟨by simp, rfl, _, hgo _ _ h, by simp⟩⟩
  | answered outcome => exact ⟨rfl, rfl, rfl, Or.inr ⟨by simp, rfl, _, hgo _ _ h, by simp⟩⟩
  | leaving =>
    refine ⟨rfl, rfl, rfl, Or.inl ⟨rfl, ?_, rfl⟩⟩
    show b.loops.filter _ = []
    simp [h]

theorem Orderly.advance {b : Outbox σ} (h : b.Orderly) {n : ℕ} {stage : Stage}
    (hloops : b.loops = [(n, stage)]) : (b.advance n stage).1.Orderly := by
  obtain ⟨hstarted, hawaited, hstop, hcase⟩ := advance_cases hloops
  cases h with
  | idle hnone => simp [hloops] at hnone
  | ended hnone => simp [hloops] at hnone
  | busy hloops' hstarted' hawaited' hrunning' hstop' hstage =>
    obtain ⟨rfl, rfl⟩ : _ ∧ _ := by simpa [hloops] using hloops'
    rcases hcase with ⟨hleaving, -⟩ | ⟨-, hrunning, stage', hloops'', hleaving⟩
    · exact absurd hleaving hstage
    · refine .busy hloops'' (hstarted.trans hstarted') (hawaited.trans hawaited')
        (hrunning.trans hrunning') (hstop.trans hstop') fun hleaves => ?_
      simp [hleaving hleaves] at hstop'
  | ending hloops' hstarted' hawaited' hrunning' =>
    obtain ⟨rfl, rfl⟩ : _ ∧ _ := by simpa [hloops] using hloops'
    rcases hcase with ⟨-, hnone, hrunning⟩ | ⟨-, hrunning, stage', hloops'', -⟩
    · exact .ended hnone (hstarted.trans hstarted') (hawaited.trans hawaited') hrunning
    · exact .ending hloops'' (hstarted.trans hstarted') (hawaited.trans hawaited')
        (hrunning.trans hrunning')

/-- A turn is one of the loop there is, or it does nothing. -/
theorem turn_cases {b : Outbox σ} (h : b.Orderly) (n : ℕ) :
    (∃ stage, b.loops = [(n, stage)] ∧ b.turn n = b.advance n stage) ∨
    ((∀ stage, (n, stage) ∉ b.loops) ∧ b.turn n = (b, [])) := by
  unfold turn
  rcases h.loops_cases with hloops | ⟨m, stage, hloops⟩
  · right
    simp [hloops]
  · rw [hloops, List.lookup_cons]
    by_cases hn : n = m
    · subst hn
      left
      simp
    · right
      rw [beq_false_of_ne hn]
      simp [hn]

/-- The wait of a call to stop is over when the loop has ended. -/
theorem Orderly.await {b : Outbox σ} (h : b.Orderly) : b.await.Orderly := by
  unfold Outbox.await
  split
  · exact h
  · rename_i n hawaited
    split_ifs with halive
    · exact h
    · cases h with
      | idle _ _ hawaited' => simp [hawaited] at hawaited'
      | busy _ _ hawaited' => simp [hawaited] at hawaited'
      | ending hloops _ hawaited' =>
        obtain rfl : n = _ := Option.some.inj (hawaited.symm.trans hawaited')
        simp [hloops] at halive
      | ended hloops hstarted => exact .idle hloops hstarted rfl rfl

/-- **Every event leaves one loop at most.** -/
theorem Orderly.perform {b : Outbox σ} (h : b.Orderly) (e : Event σ) : (b.perform e).1.Orderly := by
  cases e with
  | push c => exact h.congr rfl rfl rfl rfl rfl
  | setPlayerId playerId => exact h.congr rfl rfl rfl rfl rfl
  | meddle socket => exact h.congr rfl rfl rfl rfl rfl
  | start hasThread =>
    unfold Outbox.perform
    dsimp only
    split_ifs with hawaited
    · exact h
    · exact h.start (by simpa using hawaited) hasThread
  | stop =>
    unfold Outbox.perform
    dsimp only
    split_ifs with hawaited
    · exact h
    · exact h.askToStop (by simpa using hawaited)
  | await => exact h.await
  | turn n =>
    show (b.turn n).1.Orderly
    rcases turn_cases h n with ⟨stage, hloops, he⟩ | ⟨-, he⟩
    · rw [he]
      exact h.advance hloops
    · rw [he]
      exact h

/-- **What a deed can be**, and when a call to start can succeed and a packet can be handed
    over. -/
theorem mem_perform {b : Outbox σ} (horderly : b.Orderly) {e : Event σ} {d : Deed}
    (hm : d ∈ (b.perform e).2) :
    (∃ r, d = .reported r) ∨ d = .started false ∨ (d = .started true ∧ b.loops = []) ∨
      ∃ n c data, e = .turn n ∧ (n, .carrying c data) ∈ b.loops ∧
        d = .handed c ⟨b.sender.config.remote, data⟩
          (Socket.send b.socket data b.sender.config.remote).1 := by
  cases e with
  | push c => cases hm
  | setPlayerId playerId => cases hm
  | stop => cases hm
  | await => cases hm
  | meddle socket => cases hm
  | start hasThread =>
    rw [Outbox.perform] at hm
    split_ifs at hm with hawaited
    · cases hm
    · rcases b.start_cases hasThread with ⟨_, _, reports, -, -, he⟩ | ⟨hstarted, -, _, he⟩
      · rw [he] at hm
        rcases List.mem_append.1 hm with hm | hm
        · obtain ⟨r, -, rfl⟩ := List.mem_map.1 hm
          exact Or.inl ⟨r, rfl⟩
        · exact Or.inr (Or.inl (List.mem_singleton.1 hm))
      · rw [he] at hm
        refine Or.inr (Or.inr (Or.inl ⟨List.mem_singleton.1 hm, ?_⟩))
        cases horderly with
        | idle hloops => exact hloops
        | busy _ hstarted' => simp [hstarted] at hstarted'
        | ending _ _ hawaited' => simp [hawaited'] at hawaited
        | ended hloops => exact hloops
  | turn n =>
    rw [Outbox.perform] at hm
    rcases turn_cases horderly n with ⟨stage, hloops, he⟩ | ⟨-, he⟩
    · rw [he] at hm
      cases stage with
      | ready => cases hm
      | holding c => cases hm
      | leaving => cases hm
      | going =>
        rw [Outbox.advance] at hm
        split at hm <;> cases hm
      | carrying c data =>
        exact Or.inr (Or.inr (Or.inr ⟨n, c, data, rfl, by simp [hloops], List.mem_singleton.1 hm⟩))
      | answered outcome =>
        obtain ⟨r, -, rfl⟩ := List.mem_map.1 hm
        exact Or.inl ⟨r, rfl⟩
    · rw [he] at hm
      cases hm

end

end Outbox

end Netplay
