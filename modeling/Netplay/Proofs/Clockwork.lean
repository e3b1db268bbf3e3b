/-
  Fixed time steps keep time.

  Time is given to a clock and ticks are taken from it, in any order.  What has
  been given is either in ticks or waits for the next one, to the nanosecond, and
  the ticks are numbered without a gap.  A clock from which every tick that is due
  is taken holds less than one step, so how many ticks a round of the main loop
  takes is a quotient, and what it leaves is the remainder.

  * `Timestep.Call`, `Timestep.callAll`: clocks of all that can be called, and
    `Timestep.given`: the time that calls give;
  * `Timestep.Passes`: what a clock goes through; kept by a call (`passes_call`)
    and by a list of them (`passes_callAll`);
  * `Timestep.Passes.length_eq`, `Timestep.Passes.unique`: when less than a step is
    left, time says how many ticks there were and which clock it is;
  * `Timestep.Round`: a round of the main loop, and `Timestep.round_consumeAll`: every
    round that starts with less than a step is one;
  * `Timestep.keeps_time`: calls and rounds of every clock.
-/
import Mathlib.Algebra.Group.Nat.Defs
import Mathlib.Tactic.Common
import Netplay.Timeline.Timestep

namespace Netplay

namespace Timestep

/-! ## Calls -/

/-- What is called of a clock. -/
inductive Call where
  | accumulate (d : Duration)
  | consume

/-- The time that a call gives: a quarter of a second at most. -/
def Call.time : Call → Duration
  | accumulate d => min d maxDelta
  | consume => 0

/-- What a call answers, and the clock after it. -/
def call (t : Timestep) : Call → Option Tick × Timestep
  | .accumulate d => (none, t.accumulate d)
  | .consume =>
    match t.consume? with
    | none => (none, t)
    | some (n, t) => (some n, t)

/-- The ticks that calls answer, and the clock after them. -/
def callAll (t : Timestep) : List Call → List Tick × Timestep
  | [] => ([], t)
  | c :: rest =>
    let (n, t) := t.call c
    let (ticks, t) := t.callAll rest
    (n.toList ++ ticks, t)

/-- The time that calls give. -/
def given : List Call → Duration
  | [] => 0
  | c :: rest => c.time + given rest

/-! ## What a clock goes through -/

/-- A clock is given time and answers ticks: what it holds grows by the time, less a
    step for each tick, and the ticks follow the last one. -/
structure Passes (t : Timestep) (time : Duration) (ticks : List Tick) (t' : Timestep) : Prop where
  rate : t'.rate = t.rate
  step : t'.step = t.step
  time : ticks.length * t.step + t'.accumulated = t.accumulated + time
  tick : t'.tick = t.tick + ticks.length
  ticks : ticks = List.range' (t.tick + 1) ticks.length

section

variable {t t' t'' : Timestep} {time time' : Duration} {ticks ticks' : List Tick}

theorem Passes.refl (t : Timestep) : t.Passes 0 [] t where
  rate := rfl
  step := rfl
  time := (congrArg (· + t.accumulated) (Nat.zero_mul t.step)).trans (Nat.zero_add t.accumulated)
  tick := rfl
  ticks := rfl

theorem Passes.trans (h : t.Passes time ticks t') (h' : t'.Passes time' ticks' t'') :
    t.Passes (time + time') (ticks ++ ticks') t'' where
  rate := h'.rate.trans h.rate
  step := h'.step.trans h.step
  time := by
    calc (ticks ++ ticks').length * t.step + t''.accumulated
        = ticks.length * t.step + (ticks'.length * t'.step + t''.accumulated) := by
          rw [List.length_append, Nat.add_mul, Nat.add_assoc, h.step]
      _ = ticks.length * t.step + t'.accumulated + time' := by rw [h'.time, Nat.add_assoc]
      _ = t.accumulated + (time + time') := by rw [h.time, Nat.add_assoc]
  tick := by
    rw [h'.tick, h.tick, List.length_append, Nat.add_assoc]
  ticks := by
    have hnext : t'.tick + 1 = t.tick + 1 + ticks.length := by
      rw [h.tick, Nat.add_right_comm]
    have hsplit : ticks ++ ticks' = List.range' (t.tick + 1) ticks.length ++
        List.range' (t.tick + 1 + ticks.length) ticks'.length := by
      rw [← hnext, ← h.ticks, ← h'.ticks]
    rw [hsplit, List.range'_append_1, List.length_range']

/-- **Every call passes.** -/
theorem passes_call (t : Timestep) (c : Call) :
    t.Passes c.time (t.call c).1.toList (t.call c).2 := by
  cases c with
  | accumulate d =>
    refine ⟨rfl, rfl, ?_, rfl, rfl⟩
    show 0 * t.step + (t.accumulated + min d maxDelta) = t.accumulated + min d maxDelta
    rw [Nat.zero_mul, Nat.zero_add]
  | consume =>
    unfold call consume?
    dsimp only
    split_ifs with hearly
    · exact Passes.refl t
    · refine ⟨rfl, rfl, ?_, rfl, rfl⟩
      show 1 * t.step + (t.accumulated - t.step) = t.accumulated
      rw [Nat.one_mul, Nat.add_sub_of_le (Nat.not_lt.1 hearly)]

theorem passes_callAll (t : Timestep) (calls : List Call) :
    t.Passes (given calls) (t.callAll calls).1 (t.callAll calls).2 := by
  induction calls generalizing t with
  | nil => exact Passes.refl t
  | cons c rest ih => exact (t.passes_call c).trans (ih (t.call c).2)

/-- How many ticks there are when less than a step is left. -/
theorem Passes.length_eq (h : t.Passes time ticks t') (hleft : t'.accumulated < t.step) :
    ticks.length = (t.accumulated + time) / t.step := by
  rw [← h.time, Nat.mul_comm, Nat.mul_add_div (Nat.zero_lt_of_lt hleft), Nat.div_eq_of_lt hleft,
    Nat.add_zero]

/-- **Time determines the ticks and the clock** when less than a step is left. -/
theorem Passes.unique (h : t.Passes time ticks t') (hleft : t'.accumulated < t.step)
    (h' : t.Passes time ticks' t'') (hleft' : t''.accumulated < t.step) :
    (ticks', t'') = (ticks, t') := by
  have hlength : ticks'.length = ticks.length := by
    rw [h.length_eq hleft, h'.length_eq hleft']
  have hticks : ticks' = ticks := by
    rw [h.ticks, h'.ticks, hlength]
  have htime : ticks.length * t.step + t''.accumulated = ticks.length * t.step + t'.accumulated := by
    rw [h.time, ← hlength, h'.time]
  have hclock : t'' = t' := by
    obtain ⟨rate, step, held, tick⟩ := t'
    obtain ⟨rate', step', held', tick'⟩ := t''
    obtain rfl : rate' = rate := h'.rate.trans h.rate.symm
    obtain rfl : step' = step := h'.step.trans h.step.symm
    obtain rfl : held' = held := Nat.add_left_cancel htime
    obtain rfl : tick' = tick := h'.tick.trans (hlength ▸ h.tick.symm)
    rfl
  rw [hticks, hclock]

end

/-! ## What calls amount to -/

theorem Call.time_le (c : Call) : c.time ≤ maxDelta := by
  cases c with
  | accumulate d => exact Nat.min_le_right d maxDelta
  | consume => exact Nat.zero_le maxDelta

theorem given_le (calls : List Call) : given calls ≤ calls.length * maxDelta := by
  induction calls with
  | nil => exact Nat.zero_le _
  | cons c rest ih =>
    calc c.time + given rest
        ≤ maxDelta + rest.length * maxDelta := Nat.add_le_add c.time_le ih
      _ = (rest.length + 1) * maxDelta := by rw [Nat.add_mul, Nat.one_mul, Nat.add_comm]

theorem length_callAll_le (t : Timestep) (calls : List Call) :
    (t.callAll calls).1.length ≤ calls.length := by
  induction calls generalizing t with
  | nil => exact Nat.le_refl 0
  | cons c rest ih =>
    have hone : (t.call c).1.toList.length ≤ 1 := by
      cases (t.call c).1 <;> simp
    have hrest := ih (t.call c).2
    show ((t.call c).1.toList ++ ((t.call c).2.callAll rest).1).length ≤ rest.length + 1
    rw [List.length_append]
    omega

/-! ## Rounds -/

theorem consume?_eq_none_iff {t : Timestep} : t.consume? = none ↔ t.accumulated < t.step := by
  unfold consume?
  split_ifs with hearly <;> simp [hearly]

theorem consumeUpTo_of_none {t : Timestep} (h : t.consume? = none) (n : ℕ) :
    consumeUpTo n t = ([], t) := by
  cases n with
  | zero => rfl
  | succ n => rw [consumeUpTo, h]

/-- Calls for ticks and for nothing else stop of themselves. -/
theorem callAll_consume (t : Timestep) (n : ℕ) :
    t.callAll (List.replicate n .consume) = consumeUpTo n t := by
  induction n generalizing t with
  | zero => rfl
  | succ n ih =>
    rw [List.replicate_succ, callAll, consumeUpTo, call]
    cases h : t.consume? with
    | none =>
      dsimp only
      rw [ih, consumeUpTo_of_none h]
      rfl
    | some due =>
      dsimp only
      rw [ih]
      rfl

theorem given_consume (n : ℕ) : given (List.replicate n .consume) = 0 := by
  induction n with
  | zero => rfl
  | succ n ih => exact (Nat.zero_add _).trans ih

theorem passes_consumeUpTo (t : Timestep) (n : ℕ) :
    t.Passes 0 (consumeUpTo n t).1 (consumeUpTo n t).2 := by
  have h := t.passes_callAll (List.replicate n .consume)
  rwa [given_consume, callAll_consume] at h

/-- Less than a step is left once as many ticks are taken as are due. -/
theorem left_consumeUpTo {t : Timestep} (hpos : 0 < t.step) {n : ℕ}
    (hn : t.accumulated / t.step ≤ n) : (consumeUpTo n t).2.accumulated < t.step := by
  induction n generalizing t with
  | zero => exact (Nat.div_eq_zero_iff_lt hpos).1 (Nat.le_zero.1 hn)
  | succ n ih =>
    unfold consumeUpTo consume?
    split_ifs with hearly
    · exact hearly
    · have hless : (t.accumulated - t.step) / t.step ≤ n := by
        rw [Nat.div_eq_sub_div hpos (Nat.not_lt.1 hearly)] at hn
        exact Nat.le_of_succ_le_succ hn
      exact ih (t := { t with accumulated := t.accumulated - t.step, tick := t.tick + 1 }) hpos hless

/-- A round of the main loop: time passes, and ticks are taken until none is due. -/
structure Round (t : Timestep) (d : Duration) (ticks : List Tick) (t' : Timestep) : Prop where
  /-- The ticks are taken, and however often it is tried, no more. -/
  taken : ∀ n, ticks.length ≤ n →
    (t.accumulate d).callAll (List.replicate n .consume) = (ticks, t')
  noneDue : t'.consume? = none
  left : t'.accumulated < t'.step
  /-- What is missing for the next tick. -/
  untilNext : t'.accumulated + t'.untilNext = t'.step
  few : ticks.length ≤ (maxDelta + t.step - 1) / t.step

/-- Ticks taken from a clock until none is due. -/
theorem passes_consumeAll {t : Timestep} (hpos : 0 < t.step) :
    t.Passes 0 t.consumeAll.1 t.consumeAll.2 ∧ t.consumeAll.2.accumulated < t.step := by
  rw [consumeAll, if_neg (Nat.ne_of_gt hpos)]
  exact ⟨t.passes_consumeUpTo _, left_consumeUpTo hpos (Nat.le_refl _)⟩

/-- **A round takes all that is due** and leaves less than a step. -/
theorem round_consumeAll {t : Timestep} (hleft : t.accumulated < t.step) (d : Duration) :
    t.Round d (t.accumulate d).consumeAll.1 (t.accumulate d).consumeAll.2 := by
  have hpos : 0 < (t.accumulate d).step := Nat.zero_lt_of_lt hleft
  obtain ⟨hpasses, hless⟩ := passes_consumeAll hpos
  have hcount : (t.accumulate d).consumeAll.1.length = (t.accumulated + min d maxDelta) / t.step :=
    hpasses.length_eq hless
  have hless' := hless
  rw [← hpasses.step] at hless'
  constructor
  case taken =>
    intro n hn
    rw [callAll_consume]
    have hdue : (t.accumulate d).accumulated / (t.accumulate d).step ≤ n := hcount ▸ hn
    exact hpasses.unique hless (passes_consumeUpTo _ n) (left_consumeUpTo hpos hdue)
  case noneDue => exact consume?_eq_none_iff.2 hless'
  case left => exact hless'
  case untilNext => exact Nat.add_sub_of_le (Nat.le_of_lt hless')
  case few =>
    rw [hcount]
    apply Nat.div_le_div_right
    calc t.accumulated + min d maxDelta
        ≤ t.step - 1 + maxDelta :=
          Nat.add_le_add (Nat.le_sub_one_of_lt hleft) (Nat.min_le_right d maxDelta)
      _ = maxDelta + t.step - 1 := (Nat.add_comm _ _).trans (Nat.add_sub_assoc hpos maxDelta).symm

theorem step_pos {rate : UInt32} (hrate : rate.toNat ≤ Duration.perSecond) :
    0 < (ofRate rate).step :=
  Nat.div_pos (Nat.max_le.2 ⟨hrate, by decide⟩) (Nat.lt_of_lt_of_le Nat.one_pos (Nat.le_max_right _ _))

/-- **No time is lost or invented.**  Whatever the rate, and however time is given to
    a clock and ticks are taken from it: the ticks are numbered from one on without a
    gap, and their steps and the time that waits make up the time that was given, at
    most a quarter of a second at once; neither number leaves its word before as many
    calls as a word can count.  At up to a tick each nanosecond a step has a length,
    and a round that starts with less than a step takes what is due and leaves less
    than a step again. -/
theorem keeps_time (rate : UInt32) (calls : List Call) :
    let ticks := ((ofRate rate).callAll calls).1
    let t := ((ofRate rate).callAll calls).2
    (t.step = (ofRate rate).step ∧ t.tick * t.step + t.accumulated = given calls ∧
      ticks = List.range' 1 t.tick) ∧
    (calls.length < 2 ^ 64 →
      t.tick < 2 ^ 64 ∧ t.accumulated < 2 ^ 64 * Duration.perSecond) ∧
    (1 ≤ rate.toNat → rate.toNat ≤ 10 ^ 9 → 0 < t.step ∧ (t.accumulated < t.step → ∀ d,
      t.Round d (t.accumulate d).consumeAll.1 (t.accumulate d).consumeAll.2)) := by
  intro ticks t
  have hpasses : (ofRate rate).Passes (given calls) ticks t := passes_callAll _ calls
  have htick : t.tick = ticks.length := hpasses.tick.trans (Nat.zero_add _)
  have htime : t.tick * t.step + t.accumulated = given calls := by
    rw [htick, hpasses.step, hpasses.time]
    exact Nat.zero_add _
  refine ⟨⟨hpasses.step, htime, htick ▸ hpasses.ticks⟩, fun hfew => ⟨?_, ?_⟩,
    fun _ hrate => ⟨hpasses.step ▸ step_pos hrate, round_consumeAll⟩⟩
  · rw [htick]
    exact Nat.lt_of_le_of_lt (length_callAll_le _ calls) hfew
  · calc t.accumulated
        ≤ given calls := htime ▸ Nat.le_add_left _ _
      _ ≤ calls.length * maxDelta := given_le calls
      _ ≤ calls.length * Duration.perSecond := Nat.mul_le_mul_left _ (by decide)
      _ < 2 ^ 64 * Duration.perSecond := Nat.mul_lt_mul_of_pos_right hfew (by decide)

/-- At sixty ticks a second, whose step divides no second: of 50 milliseconds less three
    nanoseconds two ticks are due, and a nanosecond is missing for the third.  After
    a stall the round takes sixteen, as many as a round ever takes. -/
theorem keeps_time_afterStall :
    let calls : List Call := [.accumulate 49999997, .consume, .consume, .consume]
    let t := ((ofRate 60).callAll calls).2
    let round := (t.accumulate 10000000000).consumeAll
    t.tick = 2 ∧ t.untilNext = 1 ∧ round.1 = List.range' 3 16 ∧
      round.1.length = (maxDelta + t.step - 1) / t.step ∧
      round.2.accumulated + round.2.untilNext = 16666666 := by
  intro calls t round
  obtain ⟨-, -, hrounds⟩ := keeps_time 60 calls
  have hround : t.Round 10000000000 round.1 round.2 :=
    (hrounds (by decide) (by decide)).2 (by decide +kernel) 10000000000
  refine ⟨by decide +kernel, by decide +kernel, by decide +kernel, by decide +kernel, ?_⟩
  exact hround.untilNext.trans (by decide +kernel)

end Timestep

end Netplay
