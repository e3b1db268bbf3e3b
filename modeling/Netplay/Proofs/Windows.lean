/-
  Histories as the end of what was issued.

  Commands are numbered without a gap, so those newer than a number are the end
  of the list.  A history holds the end of the commands that were issued: those
  that are not confirmed, and no more than it has room for.

  * `Numbered.filter_newer`: the commands newer than a number;
  * `CommandLog.Holds`, with `Holds.push`, `Holds.acknowledge`: what a history
    holds as commands are issued and confirmed;
  * `Holds.unconfirmed`: what a correction plays again;
  * `Corrector.history_reconcile`: what a comparison keeps;
  * `Corrector.reconcile_of_holds`: a consistent prediction is left as it is.
-/
import Mathlib.Data.Nat.Notation
import Mathlib.Tactic.Common
import Netplay.Prediction.Corrector
import Netplay.Proofs.Worlds

namespace Netplay

/-- The commands are numbered upwards from the number after `n`. -/
def Numbered : ℕ → List Command → Prop
  | _, [] => True
  | n, c :: rest => c.sequence.toNat = n + 1 ∧ Numbered (n + 1) rest

namespace Numbered

theorem concat {n : ℕ} {cs : List Command} {c : Command} (h : Numbered n cs)
    (hc : c.sequence.toNat = n + 1 + cs.length) : Numbered n (cs ++ [c]) := by
  induction cs generalizing n with
  | nil => exact ⟨hc, trivial⟩
  | cons c' rest ih =>
    simp only [List.length_cons] at hc
    exact ⟨h.1, ih h.2 (by omega)⟩

theorem of_append {n : ℕ} {cs cs' : List Command} (h : Numbered n (cs ++ cs')) :
    Numbered (n + cs.length) cs' := by
  induction cs generalizing n with
  | nil => exact h
  | cons c rest ih =>
    have hrest := ih h.2
    simp only [List.length_cons]
    rwa [Nat.add_right_comm] at hrest

theorem number_lt {n : ℕ} {cs : List Command} (h : Numbered n cs) :
    ∀ c ∈ cs, n < c.sequence.toNat := by
  induction cs generalizing n with
  | nil => simp
  | cons c rest ih =>
    intro c' hc'
    obtain ⟨h1, h2⟩ := h
    rcases List.mem_cons.1 hc' with rfl | hc'
    · omega
    · have := ih h2 c' hc'
      omega

theorem ascending {n : ℕ} {cs : List Command} (h : Numbered n cs) :
    cs.Pairwise fun a b => a.sequence ≤ b.sequence := by
  induction cs generalizing n with
  | nil => exact .nil
  | cons c rest ih =>
    obtain ⟨h1, h2⟩ := h
    refine List.pairwise_cons.2 ⟨?_, ih h2⟩
    intro c' hc'
    have := h2.number_lt c' hc'
    exact UInt32.le_iff_toNat_le.2 (by omega)

/-- **The commands newer than a number are the end of the list.** -/
theorem filter_newer {n : ℕ} {cs : List Command} (h : Numbered n cs) (s : UInt32) :
    (cs.filter fun c => c.sequence > s) = cs.drop (s.toNat - n) := by
  induction cs generalizing n with
  | nil => simp
  | cons c rest ih =>
    obtain ⟨h1, h2⟩ := h
    by_cases hs : s.toNat ≤ n
    · have hnew : c.sequence > s := UInt32.lt_iff_toNat_lt.2 (by omega)
      have hzero : s.toNat - n = 0 := by omega
      have hzero' : s.toNat - (n + 1) = 0 := by omega
      rw [List.filter_cons_of_pos (by simpa using hnew), ih h2, hzero, hzero']
      rfl
    · have hold : ¬ c.sequence > s := fun hgt => by
        have := UInt32.lt_iff_toNat_lt.1 hgt
        omega
      have hsucc : s.toNat - n = s.toNat - (n + 1) + 1 := by omega
      rw [List.filter_cons_of_neg (by simpa using hold), ih h2, hsucc, List.drop_succ_cons]

end Numbered

namespace CommandLog

/-- The history holds the end of the commands issued after the number `n`, of
    which the first `a` are confirmed. -/
structure Holds (h : CommandLog) (n : ℕ) (issued : List Command) (a : ℕ) : Prop where
  entries : h.entries = issued.drop (max (issued.length - h.capacity) a)
  /-- What is taken for confirmed is. -/
  acknowledged : h.acknowledged.toNat ≤ n + a
  le : a ≤ issued.length

variable {h : CommandLog} {n : ℕ} {issued : List Command} {a : ℕ}

theorem holds_empty (n : ℕ) : empty.Holds n [] 0 := ⟨rfl, Nat.zero_le _, le_rfl⟩

@[simp] theorem capacity_acknowledge (h : CommandLog) (s : UInt32) :
    (h.acknowledge s).capacity = h.capacity := by
  unfold CommandLog.acknowledge
  split_ifs <;> rfl

theorem Holds.push (hh : h.Holds n issued a) (c : Command) :
    (h.push c).Holds n (issued ++ [c]) a := by
  have hpos := h.capacity_pos
  have hle := hh.le
  refine ⟨?_, hh.acknowledged, ?_⟩
  · have hsize : h.size = issued.length - max (issued.length - h.capacity) a := by
      rw [size, hh.entries, List.length_drop]
    have hdrop : max (issued.length - h.capacity) a + (h.size + 1 - h.capacity) =
        max (issued.length + 1 - h.capacity) a := by omega
    show h.entries.drop (h.size + 1 - h.capacity) ++ [c] =
      (issued ++ [c]).drop (max ((issued ++ [c]).length - h.capacity) a)
    rw [hh.entries, List.drop_drop, hdrop, List.length_append, List.length_singleton,
      List.drop_append_of_le_length (by omega)]
  · simp only [List.length_append, List.length_singleton]
    omega

theorem Holds.after (hh : h.Holds n issued a) (hn : Numbered n issued) {s : UInt32} {k : ℕ}
    (hs : s.toNat = n + k) :
    h.after s = issued.drop (max (max (issued.length - h.capacity) a) k) := by
  set d := max (issued.length - h.capacity) a with hd
  have hle : d ≤ issued.length := by
    have := hh.le
    omega
  have hnumbered : Numbered (n + d) (issued.drop d) := by
    have hsplit : Numbered n (issued.take d ++ issued.drop d) := by rwa [List.take_append_drop]
    have := hsplit.of_append
    rwa [List.length_take, Nat.min_eq_left hle] at this
  rw [CommandLog.after, hh.entries, ← hd, hnumbered.filter_newer, List.drop_drop]
  congr 1
  omega

theorem mem_acknowledge {h : CommandLog} {s : UInt32} {c : Command} (hc : c ∈ h.entries)
    (hnew : s < c.sequence) : c ∈ (h.acknowledge s).entries := by
  unfold CommandLog.acknowledge
  split_ifs
  · exact hc
  · exact List.mem_filter.2 ⟨hc, decide_eq_true hnew⟩

theorem Holds.acknowledge (hh : h.Holds n issued a) (hn : Numbered n issued) {s : UInt32} {k : ℕ}
    (hs : s.toNat = n + k) (hk : k ≤ issued.length) :
    (h.acknowledge s).Holds n issued (max a k) := by
  have hack := hh.acknowledged
  unfold CommandLog.acknowledge
  split_ifs with hstale
  · have hmax : max a k = a := by
      have := UInt32.le_iff_toNat_le.1 hstale
      omega
    rwa [hmax]
  · refine ⟨?_, ?_, ?_⟩
    · have hafter := hh.after hn hs
      show h.after s = issued.drop (max (issued.length - h.capacity) (max a k))
      rw [hafter, Nat.max_assoc]
    · show s.toNat ≤ n + max a k
      omega
    · have := hh.le
      omega

/-- **What a correction plays again**, if the history has room for all that is
    newer than the confirmed command. -/
theorem Holds.unconfirmed (hh : h.Holds n issued a) (hn : Numbered n issued) {s : UInt32} {k : ℕ}
    (hs : s.toNat = n + k) (ha : a ≤ k) (hroom : issued.length ≤ k + h.capacity) :
    Corrector.unconfirmed h s = issued.drop k := by
  have hafter := hh.after hn hs
  have hmax : max (max (issued.length - h.capacity) a) k = k := by omega
  rw [hmax] at hafter
  rw [Corrector.unconfirmed, hafter]
  refine List.mergeSort_of_pairwise ?_
  have hasc := hn.ascending.sublist (List.drop_sublist k issued)
  simpa using hasc

end CommandLog

namespace Corrector

/-! ## Replaying and reconciling -/

theorem replay_append (speed : Binary32) (start : Vec2) (cs cs' : List Command) :
    replay speed start (cs ++ cs') = replay speed (replay speed start cs) cs' := List.foldl_append

/-- **What a comparison does**: it is skipped, or the history takes note of what
    is confirmed, after the position was corrected or not. -/
theorem reconcile_cases (c : Corrector) (r : World) (id : EntityId) (position : Vec2)
    (ack : UInt32) :
    (¬ (r.isAlive id = true ∧ r.has .history id = true ∧ r.has .transform id = true) ∧
      c.reconcile r id position ack = (.skipped, c, r)) ∨
    ∃ h t sinceCorrection, r.isAlive id = true ∧ r.get? .history id = some h ∧
      r.get? .transform id = some t ∧
      ((∃ error, c.reconcile r id position ack = (.within error, { c with sinceCorrection },
          r.modify .history id fun h => h.acknowledge ack)) ∨
        ∃ error, c.reconcile r id position ack =
          (.corrected error (unconfirmed h ack).length, { c with sinceCorrection },
            (r.modify .transform id fun t => { t with
              position := replay c.config.moveSpeed position (unconfirmed h ack) }).modify
                .history id fun h => h.acknowledge ack)) := by
  unfold reconcile
  split
  · rename_i h t hlive hhistory htransform
    right
    refine ⟨h, t, ?_⟩
    dsimp only
    split_ifs
    · exact ⟨_, hlive, hhistory, htransform, Or.inr ⟨_, rfl⟩⟩
    · exact ⟨_, hlive, hhistory, htransform, Or.inl ⟨_, rfl⟩⟩
  · rename_i hnone
    left
    refine ⟨?_, rfl⟩
    rintro ⟨hlive, hhistory, htransform⟩
    obtain ⟨h, hh⟩ := Option.isSome_iff_exists.1 hhistory
    obtain ⟨t, ht⟩ := Option.isSome_iff_exists.1 htransform
    exact hnone h t hlive hh ht

/-- A comparison keeps what is newer than the confirmed command. -/
theorem history_reconcile (c : Corrector) {r : World} {id : EntityId} {log : CommandLog}
    (hlog : r.get? .history id = some log) (position : Vec2) (ack : UInt32) :
    ∃ log', (c.reconcile r id position ack).2.2.get? .history id = some log' ∧
      ∀ x ∈ log.entries, ack < x.sequence → x ∈ log'.entries := by
  rcases c.reconcile_cases r id position ack with ⟨-, he⟩ | ⟨_, _, _, -, -, -, ⟨_, he⟩ | ⟨_, he⟩⟩
  · rw [he]
    exact ⟨log, hlog, fun x hx _ => hx⟩
  · rw [he, World.get?_modify_self, hlog]
    exact ⟨_, rfl, fun x hx hnew => CommandLog.mem_acknowledge hx hnew⟩
  · rw [he, World.get?_modify_self, World.get?_modify_of_ne r id id (by decide), hlog]
    exact ⟨_, rfl, fun x hx hnew => CommandLog.mem_acknowledge hx hnew⟩

theorem config_reconcile (c : Corrector) (r : World) (id : EntityId) (position : Vec2)
    (ack : UInt32) : (c.reconcile r id position ack).2.1.config = c.config := by
  rcases c.reconcile_cases r id position ack with ⟨-, he⟩ |
    ⟨_, _, _, -, -, -, ⟨_, he⟩ | ⟨_, he⟩⟩ <;> rw [he]

/-- **A consistent prediction is left as it is.**  If the server's position is
    where the confirmed commands lead and the predicted one where all commands
    lead, a comparison keeps the transform, whatever it answers. -/
theorem reconcile_of_holds {c : Corrector} {r : World} {id : EntityId} {h : CommandLog}
    {t : Transform} (hlive : r.isAlive id = true) (hhistory : r.get? .history id = some h)
    (htransform : r.get? .transform id = some t) {n : ℕ} {issued : List Command} {a k : ℕ}
    (hh : h.Holds n issued a) (hn : Numbered n issued) {ack : UInt32} (hack : ack.toNat = n + k)
    (ha : a ≤ k) (hroom : issued.length ≤ k + h.capacity) {origin position : Vec2}
    (hpredicted : t.position = replay c.config.moveSpeed origin issued)
    (hposition : position = replay c.config.moveSpeed origin (issued.take k)) :
    (c.reconcile r id position ack).1 ≠ .skipped ∧
      (c.reconcile r id position ack).2.2.isAlive id = true ∧
      (c.reconcile r id position ack).2.2.get? .transform id = some t ∧
      (c.reconcile r id position ack).2.2.get? .history id = some (h.acknowledge ack) := by
  rcases c.reconcile_cases r id position ack with ⟨hskip, -⟩ |
    ⟨h', t', _, -, hhistory', htransform', ⟨_, he⟩ | ⟨_, he⟩⟩
  · refine absurd ⟨hlive, ?_, ?_⟩ hskip
    · rw [World.has, hhistory]
      rfl
    · rw [World.has, htransform]
      rfl
  · rw [he]
    refine ⟨by simp, by simpa using hlive, ?_, ?_⟩
    · rw [World.get?_modify_of_ne r id id (by decide), htransform]
    · rw [World.get?_modify_self, hhistory]
      rfl
  · obtain rfl : h = h' := Option.some.inj (hhistory.symm.trans hhistory')
    obtain rfl : t = t' := Option.some.inj (htransform.symm.trans htransform')
    -- the commands that are played again are those that lead from the server's position
    have hreplay : replay c.config.moveSpeed position (unconfirmed h ack) = t.position := by
      rw [hh.unconfirmed hn hack ha hroom, hposition, ← replay_append, List.take_append_drop,
        hpredicted]
    rw [he]
    refine ⟨by simp, by simpa using hlive, ?_, ?_⟩
    · rw [World.get?_modify_of_ne _ id id (by decide), World.get?_modify_self, htransform, hreplay]
      rfl
    · rw [World.get?_modify_self, World.get?_modify_of_ne r id id (by decide), hhistory]
      rfl

end Corrector

end Netplay
