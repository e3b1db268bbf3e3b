/-
  Loops of ticks, and whether they end.

  The main loops take ticks from their clock for as long as one is due, and nothing
  else bounds how many they take.  A tick takes the time of a step away, so such a
  loop ends if steps have a length.  At more than a tick each nanosecond they have
  none: a tick is due even when no time has passed, and the loop never ends.

  * `Finishes`: a loop ends; at one end only (`Finishes.unique`), and just when what it
    goes by ends (`Finishes.map`, `Finishes.lift`);
  * `Timestep.finishes_iff`: which loops that take ticks from a clock end, and where;
  * `Server.nextTick`, `Client.nextTick`: the bodies of the loops, and
    `Server.finishes_runTicks`, `Client.finishes_runTicks`: where the loops end, if they
    do;
  * `tick_loops_end`: they end at up to a tick each nanosecond, and never above.
-/
import Netplay.Proofs.Clockwork
import Netplay.Proofs.Serving
import Netplay.Proofs.Playing

namespace Netplay

/-! ## Loops -/

section

variable {σ τ α β : Type} {step : σ → Option (α × σ)} {next : τ → Option (β × τ)}
  {s t t' : σ} {as as' : List α} {f : α → β} {view : σ → τ}

/-- A loop takes steps, each of which gives something, until there is none to take. -/
inductive Finishes (step : σ → Option (α × σ)) : σ → List α → σ → Prop
  | done {s : σ} (h : step s = none) : Finishes step s [] s
  | more {s s' t : σ} {a : α} {as : List α} (h : step s = some (a, s'))
      (rest : Finishes step s' as t) : Finishes step s (a :: as) t

theorem Finishes.unique (h : Finishes step s as t) (h' : Finishes step s as' t') :
    as' = as ∧ t' = t := by
  induction h generalizing as' t' with
  | done hnone =>
    cases h' with
    | done => exact ⟨rfl, rfl⟩
    | more hsome => cases hnone.symm.trans hsome
  | more hsome rest ih =>
    cases h' with
    | done hnone => cases hnone.symm.trans hsome
    | more hsome' rest' =>
      cases hsome.symm.trans hsome'
      obtain ⟨rfl, rfl⟩ := ih rest'
      exact ⟨rfl, rfl⟩

/-- A loop that ends does so for what it goes by. -/
theorem Finishes.map (hview : ∀ s, (step s).map (fun p => (f p.1, view p.2)) = next (view s))
    (h : Finishes step s as t) : Finishes next (view s) (as.map f) (view t) := by
  induction h with
  | done hnone =>
    refine .done ?_
    rw [← hview, hnone]
    rfl
  | more hsome rest ih =>
    refine .more ?_ ih
    rw [← hview, hsome]
    rfl

/-- A loop ends if what it goes by comes to an end. -/
theorem Finishes.lift (hview : ∀ s, (step s).map (fun p => (f p.1, view p.2)) = next (view s))
    {v v' : τ} {bs : List β} (h : Finishes next v bs v') (hs : view s = v) :
    ∃ as t, Finishes step s as t := by
  induction h generalizing s with
  | done hnone =>
    rw [← hs, ← hview, Option.map_eq_none_iff] at hnone
    exact ⟨[], s, .done hnone⟩
  | more hsome rest ih =>
    rw [← hs, ← hview] at hsome
    obtain ⟨⟨a, s'⟩, hstep, hp⟩ := Option.map_eq_some_iff.1 hsome
    obtain ⟨as, t, hrest⟩ := ih (Prod.mk.inj hp).2
    exact ⟨a :: as, t, .more hstep hrest⟩

theorem finishes_iff_view
    (hview : ∀ s, (step s).map (fun p => (f p.1, view p.2)) = next (view s)) :
    (∃ as t, Finishes step s as t) ↔ ∃ bs v, Finishes next (view s) bs v :=
  ⟨fun ⟨_, _, h⟩ => ⟨_, _, h.map hview⟩, fun ⟨_, _, h⟩ => h.lift hview rfl⟩

end

/-! ## Clocks -/

namespace Timestep

variable {t t' : Timestep} {ticks : List Tick}

/-- A loop that ends has come to a time shorter than a step. -/
theorem step_pos_of_finishes (h : Finishes consume? t ticks t') : 0 < t.step := by
  induction h with
  | done hnone => exact Nat.zero_lt_of_lt (consume?_eq_none_iff.1 hnone)
  | more hsome rest ih => rwa [(step_of_consume hsome).2] at ih

theorem finishes_consumeUpTo {t : Timestep} (hpos : 0 < t.step) {n : ℕ}
    (hn : t.accumulated / t.step ≤ n) :
    Finishes consume? t (consumeUpTo n t).1 (consumeUpTo n t).2 := by
  induction n generalizing t with
  | zero =>
    have hearly : t.accumulated < t.step := (Nat.div_eq_zero_iff_lt hpos).1 (Nat.le_zero.1 hn)
    exact .done (consume?_eq_none_iff.2 hearly)
  | succ n ih =>
    unfold consumeUpTo
    cases hdue : t.consume? with
    | none => exact .done hdue
    | some due =>
      obtain ⟨k, t₁⟩ := due
      have hearly : ¬ t.accumulated < t.step := fun h => by
        cases hdue.symm.trans (consume?_eq_none_iff.2 h)
      have hless : (t.accumulated - t.step) / t.step ≤ n := by
        rw [Nat.div_eq_sub_div hpos (Nat.not_lt.1 hearly)] at hn
        exact Nat.le_of_succ_le_succ hn
      refine .more hdue (ih ?_ ?_)
      · rwa [(step_of_consume hdue).2]
      · rwa [(step_of_consume hdue).2]

/-- **A loop that takes ticks ends just when a step has a length**, and then all
    that is due has been taken. -/
theorem finishes_iff : Finishes consume? t ticks t' ↔ 0 < t.step ∧ t.consumeAll = (ticks, t') := by
  have hall : 0 < t.step → Finishes consume? t t.consumeAll.1 t.consumeAll.2 := fun hpos => by
    rw [consumeAll, if_neg (Nat.ne_of_gt hpos)]
    exact finishes_consumeUpTo hpos (Nat.le_refl _)
  constructor
  · intro h
    have hpos := step_pos_of_finishes h
    obtain ⟨hticks, hclock⟩ := h.unique (hall hpos)
    exact ⟨hpos, Prod.ext hticks hclock⟩
  · rintro ⟨hpos, he⟩
    have h := hall hpos
    rwa [he] at h

theorem step_pos_iff (rate : UInt32) : 0 < (ofRate rate).step ↔ rate.toNat ≤ 10 ^ 9 := by
  refine ⟨fun hpos => ?_, fun hrate => step_pos hrate⟩
  by_contra hrate
  have hlt : Duration.perSecond < max rate.toNat 1 :=
    Nat.lt_of_lt_of_le (Nat.not_le.1 hrate) (Nat.le_max_left _ _)
  exact Nat.ne_of_gt hpos (Nat.div_eq_of_lt hlt)

end Timestep

/-! ## The server -/

namespace Server

/-- One turn of the loop of ticks: the next tick, if it is due, at its time, and what it
    does outside. -/
def nextTick (now : Tick → Duration) (s : Server) : Option ((Tick × List Effect) × Server) :=
  s.timestep.consume?.map fun (n, timestep) =>
    let (s, effects) := ({ s with timestep }).tick n (now n)
    ((n, effects), s)

theorem nextTick_clock (now : Tick → Duration) (s : Server) :
    (s.nextTick now).map (fun p => (p.1.1, p.2.timestep)) = s.timestep.consume? := by
  unfold nextTick
  cases s.timestep.consume? with
  | none => rfl
  | some due =>
    obtain ⟨n, t⟩ := due
    exact congrArg (fun clock => some (n, clock)) (timestep_tick { s with timestep := t } n (now n))

/-- Taking ticks one by one is ticking for all of them. -/
theorem finishes_ticks {t t' : Timestep} {due : List Tick}
    (h : Finishes Timestep.consume? t due t') (now : Duration) {s : Server} (hs : s.timestep = t) :
    ∃ out, Finishes (nextTick fun _ => now) s out (({ s with timestep := t' }).ticks now due).1 ∧
      out.map Prod.fst = due ∧
      out.flatMap Prod.snd = (({ s with timestep := t' }).ticks now due).2 := by
  induction h generalizing s with
  | done hnone =>
    subst hs
    refine ⟨[], .done ?_, rfl, rfl⟩
    rw [nextTick, hnone]
    rfl
  | @more _ t₁ t' n due hsome rest ih =>
    subst hs
    have hclock : (({ s with timestep := t₁ }).tick n now).1.timestep = t₁ := timestep_tick _ n now
    have hstep : s.nextTick (fun _ => now) = some ((n, (({ s with timestep := t₁ }).tick n now).2),
        (({ s with timestep := t₁ }).tick n now).1) := by
      rw [nextTick, hsome]
      rfl
    obtain ⟨out, hout, hdue, heffects⟩ := ih hclock
    -- a tick does not read the clock, so it may as well be at its last value from the start
    rw [tick_timestep s t₁ n now] at hout heffects hstep
    rw [ticks, tick_timestep s t' n now]
    refine ⟨_, .more hstep hout, ?_, ?_⟩
    · rw [List.map_cons, hdue]
    · rw [List.flatMap_cons, heffects]

/-- **Where the loop of ticks ends**, if steps have a length. -/
theorem finishes_runTicks {s : Server} (hpos : 0 < s.timestep.step) (now : Duration) :
    ∃ out, Finishes (nextTick fun _ => now) s out (s.runTicks now).2.1 ∧
      out.map Prod.fst = (s.runTicks now).1 ∧ out.flatMap Prod.snd = (s.runTicks now).2.2 :=
  finishes_ticks (Timestep.finishes_iff.2 ⟨hpos, rfl⟩) now rfl

/-- No event changes the length of a step. -/
theorem step_perform (s : Server) (e : Event) :
    (s.perform e).1.timestep.step = s.timestep.step := by
  cases e with
  | elapse d => rfl
  | hear d now =>
    show (s.receiveOne d now).1.timestep.step = _
    rw [timestep_receiveOne]
  | tick now =>
    unfold perform
    dsimp only
    split
    · rfl
    · rename_i h
      rw [timestep_tick, (Timestep.step_of_consume h).2]
  | settle outcomes => rfl

theorem step_performAll (s : Server) (es : List Event) :
    (s.performAll es).1.timestep.step = s.timestep.step := by
  induction es generalizing s with
  | nil => rfl
  | cons e rest ih => exact (ih (s.perform e).1).trans (s.step_perform e)

end Server

/-! ## The client -/

namespace Client

/-- One turn of the loop of ticks: the next tick, if it is due. -/
def nextTick (c : Client) : Option (Tick × Client) :=
  c.timestep.consume?.map fun (n, timestep) => (n, ({ c with timestep }).tick)

theorem nextTick_clock (c : Client) :
    c.nextTick.map (fun p => (id p.1, p.2.timestep)) = c.timestep.consume? := by
  unfold nextTick
  cases c.timestep.consume? <;> rfl

/-- Taking ticks one by one is ticking for all of them. -/
theorem finishes_ticks {t t' : Timestep} {due : List Tick}
    (h : Finishes Timestep.consume? t due t') {c : Client} (hc : c.timestep = t) :
    Finishes nextTick c due (due.foldl (fun c _ => c.tick) { c with timestep := t' }) := by
  induction h generalizing c with
  | done hnone =>
    subst hc
    refine .done ?_
    rw [nextTick, hnone]
    rfl
  | @more _ t₁ t' n due hsome rest ih =>
    subst hc
    have hstep₁ : t₁.step = c.timestep.step := by rw [(Timestep.step_of_consume hsome).2]
    have hstep' : t'.step = t₁.step := by
      have hlast := Timestep.finishes_iff.1 rest
      have hpasses := (Timestep.passes_consumeAll hlast.1).1
      rw [hlast.2] at hpasses
      exact hpasses.step
    have hbody : c.nextTick = some (n, ({ c with timestep := t₁ }).tick) := by
      rw [nextTick, hsome]
      rfl
    have hrest := ih (c := ({ c with timestep := t₁ }).tick) (timestep_tick _)
    -- a tick reads of the clock only the length of a step, which is the same to the end
    rw [tick_timestep c hstep₁] at hrest hbody
    rw [List.foldl_cons, tick_timestep c (hstep'.trans hstep₁)]
    exact .more hbody hrest

/-- **Where the loop of ticks ends**, if steps have a length. -/
theorem finishes_runTicks {c : Client} (hpos : 0 < c.timestep.step) :
    Finishes nextTick c c.runTicks.1 c.runTicks.2 :=
  finishes_ticks (Timestep.finishes_iff.2 ⟨hpos, rfl⟩) rfl

end Client

/-! ## Both loops -/

/-- **The loops of ticks end at up to a tick each nanosecond, and never above.**
    Whatever has happened to a server and to a client, and however much time has been
    given to their clocks: the loop that takes all ticks that are due ends if and only
    if the rate is at most 10⁹ a second.  If it ends, then as the turns of the main
    loop have it: with as many ticks as steps fit into the time that waits. -/
theorem tick_loops_end (served : ServerConfig) (port : UInt16) (ses : List Server.Event)
    (times : Tick → Duration) (played : ClientConfig) (begun : Duration) (ces : List Client.Event) :
    let s := ((Server.make served port).performAll ses).1
    let c := ((Client.make played begun).performAll ces).1
    (((∃ out s', Finishes (Server.nextTick times) s out s') ↔ served.tickRate.toNat ≤ 10 ^ 9) ∧
      ((∃ out c', Finishes Client.nextTick c out c') ↔ played.tickRate.toNat ≤ 10 ^ 9)) ∧
    (served.tickRate.toNat ≤ 10 ^ 9 → ∀ now, ∃ out,
      Finishes (Server.nextTick fun _ => now) s out (s.runTicks now).2.1 ∧
      out.map Prod.fst = (s.runTicks now).1 ∧ out.flatMap Prod.snd = (s.runTicks now).2.2 ∧
      out.length = s.timestep.accumulated / s.timestep.step) ∧
    (played.tickRate.toNat ≤ 10 ^ 9 → Finishes Client.nextTick c c.runTicks.1 c.runTicks.2 ∧
      c.runTicks.1.length = c.timestep.accumulated / c.timestep.step) := by
  intro s c
  have hserver : 0 < s.timestep.step ↔ served.tickRate.toNat ≤ 10 ^ 9 := by
    rw [Server.step_performAll]
    exact Timestep.step_pos_iff served.tickRate
  have hclient : 0 < c.timestep.step ↔ played.tickRate.toNat ≤ 10 ^ 9 := by
    rw [(Client.tuned_performAll (Client.tuned_make played begun) ces).step]
    exact Timestep.step_pos_iff played.tickRate
  have hclock : ∀ t : Timestep, (∃ ticks t', Finishes Timestep.consume? t ticks t') ↔ 0 < t.step :=
    fun t => ⟨fun ⟨_, _, h⟩ => Timestep.step_pos_of_finishes h,
      fun hpos => ⟨_, _, Timestep.finishes_iff.2 ⟨hpos, rfl⟩⟩⟩
  have hlength : ∀ t : Timestep, 0 < t.step → t.consumeAll.1.length = t.accumulated / t.step := by
    intro t hpos
    obtain ⟨hpasses, hleft⟩ := Timestep.passes_consumeAll hpos
    exact hpasses.length_eq hleft
  refine ⟨⟨?_, ?_⟩, fun hrate now => ?_, fun hrate => ?_⟩
  · rw [finishes_iff_view (Server.nextTick_clock times), hclock, hserver]
  · rw [finishes_iff_view Client.nextTick_clock, hclock, hclient]
  · obtain ⟨out, hends, hdue, heffects⟩ := Server.finishes_runTicks (hserver.2 hrate) now
    refine ⟨out, hends, hdue, heffects, ?_⟩
    rw [← List.length_map Prod.fst, hdue]
    exact hlength s.timestep (hserver.2 hrate)
  · exact ⟨Client.finishes_runTicks (hclient.2 hrate), hlength c.timestep (hclient.2 hrate)⟩

/-- One tick a second more than there are nanoseconds, and both loops go on for ever,
    though no time has passed yet. -/
theorem tick_loops_never_end :
    (¬ ∃ out s', Finishes (Server.nextTick fun _ => 0)
      (Server.make { tickRate := 1000000001 } 4000) out s') ∧
    ¬ ∃ out c', Finishes Client.nextTick (Client.make { tickRate := 1000000001 } 0) out c' := by
  constructor
  · rintro ⟨out, s', h⟩
    have hpos := Timestep.step_pos_of_finishes (h.map (Server.nextTick_clock fun _ => 0))
    exact absurd hpos (by decide)
  · rintro ⟨out, c', h⟩
    have hpos := Timestep.step_pos_of_finishes (h.map Client.nextTick_clock)
    exact absurd hpos (by decide)

/-- A tick each nanosecond is the fastest that comes to an end. -/
theorem tick_loops_end_atTheFastest :
    let s := ((Server.make { tickRate := 1000000000 } 4000).performAll [.elapse 3]).1
    let c := ((Client.make { tickRate := 50 } 0).performAll [.act (.elapse 45000000)]).1
    (∃ out s', Finishes (Server.nextTick fun _ => 0) s out s' ∧ out.map Prod.fst = [1, 2, 3]) ∧
      ∃ c', Finishes Client.nextTick c [1, 2] c' := by
  intro s c
  obtain ⟨-, hserver, hclient⟩ := tick_loops_end { tickRate := 1000000000 } 4000 [.elapse 3]
    (fun _ => 0) { tickRate := 50 } 0 [.act (.elapse 45000000)]
  obtain ⟨out, hends, hdue, -, -⟩ := hserver (by decide) 0
  have hplayed : c.runTicks.1 = [1, 2] := by decide +kernel
  refine ⟨⟨out, _, hends, hdue.trans (by decide +kernel)⟩, c.runTicks.2, ?_⟩
  rw [← hplayed]
  exact (hclient (by decide)).1

end Netplay
