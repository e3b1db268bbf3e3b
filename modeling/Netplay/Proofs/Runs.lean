/-
  Runs of a server and of a client, event by event.

  The main loops read a socket, tick and send in turns.  What such a loop does
  to a server or a client is a list of events, each of which is one call of an
  operation: some time passes, a datagram is heard, the next tick is done if it
  is due.  A law of all lists of events is a law of every run, whatever the
  datagrams, their order, and the times at which they are heard.

  * `Server.Event`, `Server.perform`, `Server.performAll`;
  * `Client.Act`, what a client does of itself, and `Client.Event`, an act or a
    datagram that is heard;
  * `Server.run_eq_performAll`, `Client.turns_eq_performAll`: a run of the main
    loop is a run of events.
-/
import Mathlib.Data.Nat.Notation
import Mathlib.Tactic.Common
import Netplay.Session.Client
import Netplay.Session.Server
import Netplay.Transport.Scripted

namespace Netplay

namespace Timestep

theorem step_of_consume {t t' : Timestep} {n : Tick} (h : t.consume? = some (n, t')) :
    n = t.tick + 1 ∧ t' = { t with accumulated := t.accumulated - t.step, tick := t.tick + 1 } := by
  unfold consume? at h
  split_ifs at h
  cases h
  exact ⟨rfl, rfl⟩

theorem step_consumeUpTo (limit : ℕ) (t : Timestep) : (consumeUpTo limit t).2.step = t.step := by
  induction limit generalizing t with
  | zero => rfl
  | succ limit ih =>
    unfold consumeUpTo
    split
    · rfl
    · rename_i h
      exact (ih _).trans (by rw [(step_of_consume h).2])

end Timestep

/-! ## The server -/

namespace Server

/-- What can happen to a server. -/
inductive Event where
  | elapse (d : Duration)
  | hear (d : Datagram) (now : Duration)
  /-- The next tick is done, if it is due. -/
  | tick (now : Duration)
  /-- It is told what came of sending. -/
  | settle (outcomes : List (Except SocketError ℕ))

/-- The server after an event, and what has to be done outside. -/
def perform (s : Server) : Event → Server × List Effect
  | .elapse d => ({ s with timestep := s.timestep.accumulate d }, [])
  | .hear d now => s.receiveOne d now
  | .tick now =>
    match s.timestep.consume? with
    | none => (s, [])
    | some (n, timestep) => ({ s with timestep }).tick n now
  | .settle outcomes => (s.settle outcomes, [])

def performAll (s : Server) : List Event → Server × List Effect
  | [] => (s, [])
  | e :: rest =>
    let (s, first) := s.perform e
    let (s, later) := s.performAll rest
    (s, first ++ later)

theorem performAll_append (s : Server) (es es' : List Event) :
    s.performAll (es ++ es') =
      (((s.performAll es).1.performAll es').1,
        (s.performAll es).2 ++ ((s.performAll es).1.performAll es').2) := by
  induction es generalizing s with
  | nil => rfl
  | cons e rest ih => simp only [List.cons_append, performAll, ih, List.append_assoc]

/-! ### Ticks and the clock -/

def dropOne (s : Server) (seat : Seat) : Server :=
  { s with world := (s.world.destroy seat.entity).2, steering := s.steering.forget seat.entity }

theorem dropSilent_eq (s : Server) (now : Duration) :
    s.dropSilent now = (s.roster.silent now s.config.clientTimeout).foldl dropOne
      { s with roster := s.roster.withoutSilent now s.config.clientTimeout } := rfl

theorem foldl_dropOne_timestep (seats : List Seat) (s : Server) (t : Timestep) :
    seats.foldl dropOne { s with timestep := t } =
      { seats.foldl dropOne s with timestep := t } := by
  induction seats generalizing s with
  | nil => rfl
  | cons seat rest ih => exact ih (s.dropOne seat)

theorem dropSilent_timestep (s : Server) (t : Timestep) (now : Duration) :
    ({ s with timestep := t }).dropSilent now = { s.dropSilent now with timestep := t } :=
  foldl_dropOne_timestep (s.roster.silent now s.config.clientTimeout)
    { s with roster := s.roster.withoutSilent now s.config.clientTimeout } t

/-- The server after the inputs that wait are applied and the world is
    recorded. -/
def simulated (s : Server) (n : Tick) : Server := s.applyInbox.record n

/-- Whether a tick tells the clients of the world. -/
def tells (s : Server) (n : Tick) : Prop := n % max s.config.snapshotEvery.toNat 1 = 0

instance (s : Server) (n : Tick) : Decidable (s.tells n) := inferInstanceAs (Decidable (_ = _))

theorem tick_eq (s : Server) (n : Tick) (now : Duration) :
    s.tick n now =
      if s.tells n then
        (((s.simulated n).broadcast n).1.dropSilent now, ((s.simulated n).broadcast n).2)
      else ((s.simulated n).dropSilent now, []) := by
  have htells : (n % max (s.simulated n).config.snapshotEvery.toNat 1 = 0) = s.tells n := rfl
  unfold tick
  change (match (if n % max (s.simulated n).config.snapshotEvery.toNat 1 = 0 then
    (s.simulated n).broadcast n else (s.simulated n, [])) with
    | (s, effects) => (s.dropSilent now, effects)) = _
  simp only [htells]
  by_cases h : s.tells n
  · rw [if_pos h, if_pos h]
  · rw [if_neg h, if_neg h]

/-- A tick neither reads nor moves the clock. -/
theorem tick_timestep (s : Server) (t : Timestep) (n : Tick) (now : Duration) :
    ({ s with timestep := t }).tick n now =
      ({ (s.tick n now).1 with timestep := t }, (s.tick n now).2) := by
  have htells : ({ s with timestep := t }).tells n = s.tells n := rfl
  simp only [tick_eq, htells]
  by_cases h : s.tells n
  · rw [if_pos h, if_pos h]
    exact congrArg (·, _) (dropSilent_timestep ((s.simulated n).broadcast n).1 t now)
  · rw [if_neg h, if_neg h]
    exact congrArg (·, _) (dropSilent_timestep (s.simulated n) t now)

theorem timestep_tick (s : Server) (n : Tick) (now : Duration) :
    (s.tick n now).1.timestep = s.timestep :=
  congrArg (fun p => p.1.timestep) (tick_timestep s s.timestep n now)

/-- Ticking for all that is due is ticking one after the other. -/
theorem performAll_ticks (now : Duration) (limit : ℕ) (s : Server) :
    s.performAll ((Timestep.consumeUpTo limit s.timestep).1.map fun _ => .tick now) =
      ({ s with timestep := (Timestep.consumeUpTo limit s.timestep).2 }).ticks now
        (Timestep.consumeUpTo limit s.timestep).1 := by
  induction limit generalizing s with
  | zero => rfl
  | succ limit ih =>
    unfold Timestep.consumeUpTo
    split
    · rfl
    · rename_i n t h
      have hclock : (({ s with timestep := t }).tick n now).1.timestep = t := timestep_tick _ n now
      have hrest := ih (({ s with timestep := t }).tick n now).1
      rw [hclock] at hrest
      simp only [List.map_cons, performAll, perform, h, hrest, ticks]
      rw [tick_timestep s (Timestep.consumeUpTo limit t).2 n now, tick_timestep s t n now]

/-! ### The main loop -/

theorem performAll_hear (now : Duration) (ds : List Datagram) (s : Server) :
    s.performAll (ds.map fun d => .hear d now) = s.receive now ds := by
  induction ds generalizing s with
  | nil => rfl
  | cons d rest ih => simp only [List.map_cons, performAll, perform, receive, ih]

theorem process_eq_performAll (s : Server) (now : Duration)
    (outcomes : List (Except SocketError Datagram)) :
    ∃ es, (s.process now outcomes).2 = s.performAll es := by
  unfold process
  split
  · rename_i ds _
    exact ⟨ds.map fun d => .hear d now, (performAll_hear now ds s).symm⟩
  · exact ⟨[], rfl⟩

theorem runTicks_eq_performAll (s : Server) (now : Duration) :
    ∃ es, (s.runTicks now).2 = s.performAll es := by
  unfold runTicks Timestep.consumeAll
  split_ifs
  · exact ⟨[], rfl⟩
  · exact ⟨_, (performAll_ticks now _ s).symm⟩

theorem turn_eq_performAll (s : Server) (t : Turn) : ∃ es, s.turn t = s.performAll es := by
  obtain ⟨heard, hheard⟩ := process_eq_performAll
    { s with timestep := s.timestep.accumulate t.elapsed } t.now t.outcomes
  obtain ⟨ticked, hticked⟩ := runTicks_eq_performAll
    (({ s with timestep := s.timestep.accumulate t.elapsed }).process t.now t.outcomes).2.1 t.now
  refine ⟨.elapse t.elapsed :: (heard ++ ticked), ?_⟩
  simp only [performAll, perform, performAll_append, List.nil_append, ← hheard, ← hticked]
  rfl

/-- **A run of the main loop is a run of events.** -/
theorem run_eq_performAll (s : Server) (turns : List Turn) :
    ∃ es, s.run turns = s.performAll es := by
  induction turns generalizing s with
  | nil => exact ⟨[], rfl⟩
  | cons t rest ih =>
    obtain ⟨first, hfirst⟩ := turn_eq_performAll s t
    obtain ⟨later, hlater⟩ := ih (s.turn t).1
    refine ⟨first ++ later, ?_⟩
    rw [performAll_append, ← hfirst, ← hlater]
    rfl

end Server

/-! ## The client -/

namespace Client

/-- What a client does of itself. -/
inductive Act where
  | elapse (d : Duration)
  /-- The next tick is done, if it is due. -/
  | tick
  | ping (now : Duration)
  /-- The sender starts, if the socket lets it. -/
  | start (answer : Except SocketError Unit)
  /-- One turn of the sender, with what the socket answers to sending. -/
  | send (answer : Except SocketError Unit)
  | stop
  /-- The client is told what came of sending. -/
  | settle (outcomes : List (Except SocketError ℕ))

/-- A socket that gives one answer to everything. -/
def answering (answer : Except SocketError Unit) : ScriptedSocket :=
  { isOpen := true, nonblocking := answer, afterwards := answer }

/-- The client after an act, and the datagrams that it passes to its socket. -/
def act (c : Client) : Act → Client × List Bytes
  | .elapse d => ({ c with timestep := c.timestep.accumulate d }, [])
  | .tick =>
    match c.timestep.consume? with
    | none => (c, [])
    | some (_, timestep) => (({ c with timestep }).tick, [])
  | .ping now => c.ping now
  | .start answer => ((c.start (answering answer)).2.1, [])
  | .send answer =>
    let (c, socket) := c.sendNext (answering answer)
    (c, socket.passed.map (·.data))
  | .stop => ((c.stop (answering (.ok ()))).1, [])
  | .settle outcomes => (c.settle outcomes, [])

/-- What can happen to a client. -/
inductive Event where
  | act (a : Act)
  | hear (data : Bytes) (now : Duration)

/-- The client after an event, and the datagrams that it sends. -/
def perform (c : Client) : Event → Client × List Bytes
  | .act a => c.act a
  | .hear data now => c.receiveOne data now

def performAll (c : Client) : List Event → Client × List Bytes
  | [] => (c, [])
  | e :: rest =>
    let (c, first) := c.perform e
    let (c, later) := c.performAll rest
    (c, first ++ later)

theorem performAll_append (c : Client) (es es' : List Event) :
    c.performAll (es ++ es') =
      (((c.performAll es).1.performAll es').1,
        (c.performAll es).2 ++ ((c.performAll es).1.performAll es').2) := by
  induction es generalizing c with
  | nil => rfl
  | cons e rest ih => simp only [List.cons_append, performAll, ih, List.append_assoc]

/-! ### Ticks and the clock -/

/-- A tick reads the length of a step off the clock and does not move it. -/
theorem tick_timestep (c : Client) {t : Timestep} (h : t.step = c.timestep.step) :
    ({ c with timestep := t }).tick = { c.tick with timestep := t } := by
  have hdt : t.dt = c.timestep.dt := by rw [Timestep.dt, Timestep.dt, h]
  have hpredict : ({ c with timestep := t }).predict = c.predict := by
    funext held angle transform
    simp only [predict, hdt]
  unfold tick
  simp only [hdt, hpredict]

theorem timestep_tick (c : Client) : c.tick.timestep = c.timestep := rfl

/-- Ticking for all that is due is ticking one after the other. -/
theorem performAll_ticks (limit : ℕ) (c : Client) :
    c.performAll ((Timestep.consumeUpTo limit c.timestep).1.map fun _ => .act .tick) =
      ((Timestep.consumeUpTo limit c.timestep).1.foldl (fun c _ => c.tick)
        { c with timestep := (Timestep.consumeUpTo limit c.timestep).2 }, []) := by
  induction limit generalizing c with
  | zero => rfl
  | succ limit ih =>
    have hlast := Timestep.step_consumeUpTo (limit + 1) c.timestep
    unfold Timestep.consumeUpTo at hlast ⊢
    split at hlast
    · rfl
    · rename_i n t h
      have hstep : t.step = c.timestep.step := by rw [(Timestep.step_of_consume h).2]
      have hclock : (({ c with timestep := t }).tick).timestep = t := timestep_tick _
      have hrest := ih ({ c with timestep := t }).tick
      rw [hclock] at hrest
      simp only [h, List.map_cons, performAll, perform, act, hrest, List.foldl_cons,
        List.nil_append]
      rw [tick_timestep c hlast, tick_timestep c hstep]

/-! ### The main loop -/

theorem performAll_hear (now : Duration) (ds : List Bytes) (c : Client) :
    c.performAll (ds.map fun d => .hear d now) = c.receive now ds := by
  induction ds generalizing c with
  | nil => rfl
  | cons d rest ih => simp only [List.map_cons, performAll, perform, receive, ih]

theorem process_eq_performAll (c : Client) (now : Duration)
    (outcomes : List (Except SocketError Datagram)) :
    ∃ es, (c.process now outcomes).2 = c.performAll es := by
  unfold process
  split
  · rename_i ds _
    exact ⟨(ds.map (·.data)).map fun d => .hear d now, (performAll_hear now _ c).symm⟩
  · exact ⟨[], rfl⟩

theorem runTicks_eq_performAll (c : Client) :
    ∃ es, c.performAll es = (c.runTicks.2, []) := by
  unfold runTicks Timestep.consumeAll
  split_ifs
  · exact ⟨[], rfl⟩
  · exact ⟨_, performAll_ticks _ c⟩

theorem turn_eq_performAll (c : Client) (t : Turn) : ∃ es, c.turn t = c.performAll es := by
  obtain ⟨heard, hheard⟩ := process_eq_performAll
    { c with timestep := c.timestep.accumulate t.elapsed } t.now t.outcomes
  set c₁ := (({ c with timestep := c.timestep.accumulate t.elapsed }).process t.now t.outcomes).2.1
    with hc₁
  obtain ⟨ticked, hticked⟩ := runTicks_eq_performAll c₁
  have hbefore : c.performAll (.act (.elapse t.elapsed) :: (heard ++ ticked)) =
      (c₁.runTicks.2,
        (({ c with timestep := c.timestep.accumulate t.elapsed }).process t.now
          t.outcomes).2.2) := by
    simp only [performAll, perform, act, performAll_append, List.nil_append, ← hheard, ← hc₁,
      hticked, List.append_nil]
  unfold turn
  simp only [← hc₁]
  split_ifs
  · refine ⟨.act (.elapse t.elapsed) :: (heard ++ ticked) ++ [.act (.ping t.now)], ?_⟩
    rw [performAll_append, hbefore]
    simp only [performAll, perform, act, List.append_nil]
  · exact ⟨_, hbefore.symm⟩

/-- **A run of the main loop is a run of events.** -/
theorem turns_eq_performAll (c : Client) (ts : List Turn) :
    ∃ es, c.turns ts = c.performAll es := by
  induction ts generalizing c with
  | nil => exact ⟨[], rfl⟩
  | cons t rest ih =>
    obtain ⟨first, hfirst⟩ := turn_eq_performAll c t
    obtain ⟨later, hlater⟩ := ih (c.turn t).1
    refine ⟨first ++ later, ?_⟩
    rw [performAll_append, ← hfirst, ← hlater]
    rfl

end Client

end Netplay
