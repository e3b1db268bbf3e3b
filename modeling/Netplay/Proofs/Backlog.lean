/-
  A history is the end of what is not confirmed.

  Commands are pushed with rising numbers, each above what has been confirmed before.
  Confirmations come in any order, and numbers may be left out.  Two things take
  commands out of a history: it makes room for new ones, and it drops what is
  confirmed.  Both take the oldest, so what it keeps are always the newest commands
  that are not confirmed, as many of them as it has room for.

  * `CommandLog.Call`, `CommandLog.callAll`: what can be called of a history, and
    `CommandLog.Rising`: that commands are pushed in order;
  * `CommandLog.filter_rtake`: of rising commands, those newer than a number are the
    last ones;
  * `CommandLog.Keeps`, with `Keeps.push` and `Keeps.acknowledge`: what a history keeps, kept
    by each call;
  * `CommandLog.keeps_unconfirmed`: what it keeps and answers after all of them.
-/
import Mathlib.Data.List.DropRight
import Netplay.Proofs.Windows

namespace Netplay

namespace CommandLog

/-! ## Calls -/

/-- What is called of a history. -/
inductive Call where
  | push (c : Command)
  | acknowledge (n : UInt32)

def call (h : CommandLog) : Call → CommandLog
  | .push c => h.push c
  | .acknowledge n => h.acknowledge n

def callAll (h : CommandLog) (calls : List Call) : CommandLog := calls.foldl call h

/-- The commands that calls push, in order. -/
def pushed (calls : List Call) : List Command :=
  calls.filterMap fun
    | .push c => some c
    | .acknowledge _ => none

/-- The numbers that calls confirm, in order. -/
def confirmed (calls : List Call) : List UInt32 :=
  calls.filterMap fun
    | .push _ => none
    | .acknowledge n => some n

/-- Each command is numbered above `n` and above all that is pushed and all that is
    confirmed before it. -/
def Rising : ℕ → List Call → Prop
  | _, [] => True
  | n, .push c :: rest => n < c.sequence.toNat ∧ Rising c.sequence.toNat rest
  | n, .acknowledge s :: rest => Rising (max n s.toNat) rest

/-! ## Rising commands -/

/-- How many commands are newer than a number. -/
def newer (cs : List Command) (n : UInt32) : ℕ := cs.countP fun c => n < c.sequence

variable {cs : List Command}

theorem newer_le (cs : List Command) (n : UInt32) : newer cs n ≤ cs.length := List.countP_le_length

theorem newer_anti {m n : UInt32} (h : m ≤ n) (cs : List Command) : newer cs n ≤ newer cs m := by
  refine List.countP_mono_left fun c _ hc => ?_
  exact decide_eq_true (UInt32.lt_of_le_of_lt h (of_decide_eq_true hc))

/-- Of rising commands, those newer than a number are the last ones. -/
theorem filter_drop (hcs : cs.Pairwise fun a b => a.sequence < b.sequence) (k : ℕ) (n : UInt32) :
    (cs.drop k).filter (fun c => n < c.sequence) = cs.drop (max k (cs.length - newer cs n)) := by
  induction cs generalizing k with
  | nil => simp
  | cons c rest ih =>
    obtain ⟨hc, hrest⟩ := List.pairwise_cons.1 hcs
    by_cases hnew : n < c.sequence
    · -- then all that follow are newer as well, and nothing is left out
      have hall : ∀ c' ∈ c :: rest, n < c'.sequence := fun c' hc' => by
        rcases List.mem_cons.1 hc' with rfl | hc'
        · exact hnew
        · exact UInt32.lt_trans hnew (hc c' hc')
      have hcount : newer (c :: rest) n = (c :: rest).length :=
        List.countP_eq_length.2 fun c' hc' => decide_eq_true (hall c' hc')
      rw [hcount, Nat.sub_self, Nat.max_zero]
      refine List.filter_eq_self.2 fun c' hc' => ?_
      exact decide_eq_true (hall c' (List.mem_of_mem_drop hc'))
    · have hcount : newer (c :: rest) n = newer rest n :=
        List.countP_cons_of_neg (by simpa using hnew)
      have hle := newer_le rest n
      have hlength : (c :: rest).length - newer (c :: rest) n = rest.length - newer rest n + 1 := by
        rw [hcount, List.length_cons]
        omega
      rw [hlength]
      cases k with
      | zero =>
        have hzero := ih hrest 0
        rw [List.drop_zero, Nat.zero_max] at hzero
        rw [List.drop_zero, List.filter_cons_of_neg (by simpa using hnew), hzero, Nat.zero_max,
          List.drop_succ_cons]
      | succ k =>
        rw [List.drop_succ_cons, ih hrest k, Nat.succ_max_succ, List.drop_succ_cons]

/-- Of the last rising commands, those newer than a number are again the last ones. -/
theorem filter_rtake (hcs : cs.Pairwise fun a b => a.sequence < b.sequence) (k : ℕ) (n : UInt32) :
    (cs.rtake k).filter (fun c => n < c.sequence) = cs.rtake (min k (newer cs n)) := by
  have hle := newer_le cs n
  rw [List.rtake.eq_1, List.rtake.eq_1, filter_drop hcs]
  congr 1
  omega

/-! ## What a history keeps -/

/-- The history keeps the last of the commands that were pushed, as many of those that are
    not confirmed as it has room for; nothing so far is numbered above `n`. -/
structure Keeps (h : CommandLog) (cs : List Command) (n : ℕ) : Prop where
  rising : cs.Pairwise fun a b => a.sequence < b.sequence
  entries : h.entries = cs.rtake (min h.capacity (newer cs h.acknowledged))
  pushed_le : ∀ c ∈ cs, c.sequence.toNat ≤ n
  acknowledged_le : h.acknowledged.toNat ≤ n

variable {h : CommandLog} {n : ℕ}

theorem keeps_ofCapacity (capacity : ℕ) : (ofCapacity capacity).Keeps [] 0 where
  rising := .nil
  entries := (List.rtake_nil _).symm
  pushed_le := by simp
  acknowledged_le := Nat.le_refl 0

/-- **A push** makes room by what is oldest, and only if there is none. -/
theorem Keeps.push (hk : h.Keeps cs n) {c : Command} (hc : n < c.sequence.toNat) :
    (h.push c).Keeps (cs ++ [c]) c.sequence.toNat where
  rising := by
    refine List.pairwise_append.2 ⟨hk.rising, List.pairwise_singleton _ _, fun a ha b hb => ?_⟩
    obtain rfl := List.mem_singleton.1 hb
    exact UInt32.lt_iff_toNat_lt.2 (Nat.lt_of_le_of_lt (hk.pushed_le a ha) hc)
  entries := by
    have hnew : h.acknowledged < c.sequence :=
      UInt32.lt_iff_toNat_lt.2 (Nat.lt_of_le_of_lt hk.acknowledged_le hc)
    have hcount : newer (cs ++ [c]) h.acknowledged = newer cs h.acknowledged + 1 := by
      rw [newer, List.countP_append, List.countP_singleton, if_pos (decide_eq_true hnew)]
      rfl
    have hle := newer_le cs h.acknowledged
    have hpos := h.capacity_pos
    have hsize : h.size = min h.capacity (newer cs h.acknowledged) := by
      rw [size, hk.entries, List.rtake.eq_1, List.length_drop]
      omega
    show h.entries.drop (h.size + 1 - h.capacity) ++ [c] =
      (cs ++ [c]).rtake (min h.capacity (newer (cs ++ [c]) h.acknowledged))
    rw [hcount, hsize, hk.entries, List.rtake.eq_1, List.rtake.eq_1, List.drop_drop,
      List.length_append, List.length_singleton, ← List.drop_append_of_le_length (by omega)]
    congr 1
    omega
  pushed_le c' hc' := by
    rcases List.mem_append.1 hc' with hc' | hc'
    · exact Nat.le_of_lt (Nat.lt_of_le_of_lt (hk.pushed_le c' hc') hc)
    · rw [List.mem_singleton.1 hc']
  acknowledged_le := Nat.le_of_lt (Nat.lt_of_le_of_lt hk.acknowledged_le hc)

/-- **A confirmation** drops what it confirms, or is stale and does nothing. -/
theorem Keeps.acknowledge (hk : h.Keeps cs n) (s : UInt32) :
    (h.acknowledge s).Keeps cs (max n s.toNat) := by
  unfold CommandLog.acknowledge
  split_ifs with hstale
  · exact ⟨hk.rising, hk.entries, fun c hc => Nat.le_trans (hk.pushed_le c hc) (Nat.le_max_left _ _),
      Nat.le_trans hk.acknowledged_le (Nat.le_max_left _ _)⟩
  · refine ⟨hk.rising, ?_, fun c hc => Nat.le_trans (hk.pushed_le c hc) (Nat.le_max_left _ _),
      Nat.le_max_right _ _⟩
    have hless : newer cs s ≤ newer cs h.acknowledged :=
      newer_anti (UInt32.le_of_lt (UInt32.not_le.1 hstale)) cs
    show h.entries.filter (fun c => s < c.sequence) = cs.rtake (min h.capacity (newer cs s))
    rw [hk.entries, filter_rtake hk.rising]
    congr 1
    omega

/-- Calls in order keep it so. -/
theorem Keeps.callAll (hk : h.Keeps cs n) {calls : List Call} (hrising : Rising n calls) :
    ∃ n', (h.callAll calls).Keeps (cs ++ pushed calls) n' := by
  induction calls generalizing h cs n with
  | nil => exact ⟨n, by rwa [pushed, List.filterMap_nil, List.append_nil]⟩
  | cons call rest ih =>
    cases call with
    | push c =>
      obtain ⟨hc, hrest⟩ := hrising
      obtain ⟨n', hn'⟩ := ih (hk.push hc) hrest
      rw [List.append_assoc] at hn'
      exact ⟨n', hn'⟩
    | acknowledge s => exact ih (hk.acknowledge s) hrising

theorem capacity_callAll (h : CommandLog) (calls : List Call) :
    (h.callAll calls).capacity = h.capacity := by
  induction calls generalizing h with
  | nil => rfl
  | cons call rest ih =>
    refine (ih (h.call call)).trans ?_
    cases call with
    | push c => rfl
    | acknowledge s => exact h.capacity_acknowledge s

theorem acknowledged_acknowledge (h : CommandLog) (s : UInt32) :
    h.acknowledged ≤ (h.acknowledge s).acknowledged ∧ s ≤ (h.acknowledge s).acknowledged ∧
      ((h.acknowledge s).acknowledged = h.acknowledged ∨ (h.acknowledge s).acknowledged = s) := by
  unfold CommandLog.acknowledge
  split_ifs with hstale
  · exact ⟨UInt32.le_refl _, hstale, Or.inl rfl⟩
  · exact ⟨UInt32.le_of_lt (UInt32.not_le.1 hstale), UInt32.le_refl _, Or.inr rfl⟩

/-- What a history takes for confirmed is the greatest number of all. -/
theorem acknowledged_callAll (h : CommandLog) (calls : List Call) :
    (h.callAll calls).acknowledged ∈ h.acknowledged :: confirmed calls ∧
      ∀ s ∈ h.acknowledged :: confirmed calls, s ≤ (h.callAll calls).acknowledged := by
  induction calls generalizing h with
  | nil => simp [callAll, confirmed]
  | cons call rest ih =>
    obtain ⟨hmem, hgreatest⟩ := ih (h.call call)
    cases call with
    | push c => exact ⟨hmem, hgreatest⟩
    | acknowledge s =>
      obtain ⟨hle, hs, heither⟩ := h.acknowledged_acknowledge s
      show ((h.acknowledge s).callAll rest).acknowledged ∈ h.acknowledged :: s :: confirmed rest ∧
        ∀ s' ∈ h.acknowledged :: s :: confirmed rest,
          s' ≤ ((h.acknowledge s).callAll rest).acknowledged
      simp only [call, List.mem_cons, forall_eq_or_imp] at hmem hgreatest ⊢
      obtain ⟨hfirst, hlater⟩ := hgreatest
      refine ⟨?_, UInt32.le_trans hle hfirst, UInt32.le_trans hs hfirst, hlater⟩
      rcases hmem with hmem | hmem
      · rcases heither with h' | h'
        · exact Or.inl (hmem.trans h')
        · exact Or.inr (Or.inl (hmem.trans h'))
      · exact Or.inr (Or.inr hmem)

/-- **A history is the end of what is not confirmed.**  Whatever room it has, and
    however pushes in order and confirmations in any order follow one another: it takes
    for confirmed the greatest number that was, or 0; it keeps the last commands that
    were pushed, as many as are newer, if it has room for them; and of these it answers,
    for any number, those newer than that, again the last ones, in the order in which they
    were pushed. -/
theorem keeps_unconfirmed (capacity : ℕ) {calls : List Call} (hrising : Rising 0 calls) :
    let h := (ofCapacity capacity).callAll calls
    (h.acknowledged ∈ 0 :: confirmed calls ∧ ∀ s ∈ confirmed calls, s ≤ h.acknowledged) ∧
    h.entries = (pushed calls).rtake
      (min (max capacity 1) (newer (pushed calls) h.acknowledged)) ∧
    ∀ n, h.after n = h.entries.filter (fun c => n < c.sequence) ∧
      h.after n = (pushed calls).rtake (min (max capacity 1)
        (min (newer (pushed calls) h.acknowledged) (newer (pushed calls) n))) := by
  intro h
  obtain ⟨n', hkeeps⟩ := (keeps_ofCapacity capacity).callAll hrising
  rw [List.nil_append] at hkeeps
  obtain ⟨hmem, hgreatest⟩ := (ofCapacity capacity).acknowledged_callAll calls
  have hentries : h.entries = (pushed calls).rtake
      (min (max capacity 1) (newer (pushed calls) h.acknowledged)) := by
    have hroom : h.capacity = max capacity 1 := capacity_callAll _ calls
    rw [← hroom]
    exact hkeeps.entries
  refine ⟨⟨hmem, fun s hs => hgreatest s (List.mem_cons_of_mem _ hs)⟩, hentries, fun n => ⟨rfl, ?_⟩⟩
  rw [CommandLog.after, hentries, ← Nat.min_assoc]
  exact filter_rtake hkeeps.rising _ n

/-- There is room for three.  The number 4 is left out, 6 is confirmed before it is
    pushed and so never given, and the confirmation of 2 comes late. -/
theorem keeps_unconfirmed_outOfOrder :
    let command (n : UInt32) : Command := { sequence := n, buttons := .right }
    let calls : List Call := [.push (command 1), .push (command 2), .push (command 3),
      .push (command 5), .acknowledge 1, .acknowledge 6, .push (command 7), .acknowledge 2,
      .push (command 8), .push (command 9), .push (command 12)]
    let h := (ofCapacity 3).callAll calls
    Rising 0 calls ∧ h.acknowledged = 6 ∧ h.entries = [command 8, command 9, command 12] ∧
      h.after 2 = h.entries ∧ h.after 8 = [command 9, command 12] ∧ h.after 20 = [] := by
  intro command calls h
  have hrising : Rising 0 calls := by
    simp [calls, command, Rising]
  obtain ⟨-, hentries, hafter⟩ := keeps_unconfirmed 3 hrising
  refine ⟨hrising, by decide, hentries.trans (by decide), ?_, ?_, ?_⟩
  · exact (hafter 2).1.trans (by decide)
  · exact (hafter 8).2.trans (by decide)
  · exact (hafter 20).2.trans (by decide)

end CommandLog

end Netplay
