/-
  What a correction plays again.

  The commands that a run puts into the buffer are numbered from 1.  The player's
  history holds the end of them: what is missing was issued before anything was
  controlled, or is confirmed, or had to make room.  So a correction plays again
  the newest commands in ascending order; they are all that are newer than the
  acknowledgement, unless that is older than what is missing.

  * `Client.issued`, `Client.early`: what a run issues, and how much of it before
    anything is controlled;
  * `CommandLog.EndOf`, with `EndOf.push`, `EndOf.acknowledge`: what a history
    holds of what was issued;
  * `Client.logs_performAll`: it is so after every run;
  * `Client.correction_replays`: what a correction plays again.
-/
import Netplay.Proofs.Possession

namespace Netplay

namespace Numbered

theorem of_suffix {n : ℕ} {cs cs' : List Command} (h : Numbered n cs) (hs : cs' <:+ cs) :
    Numbered (n + (cs.length - cs'.length)) cs' := by
  obtain ⟨before, rfl⟩ := hs
  have hlength : (before ++ cs').length - cs'.length = before.length := by simp
  rw [hlength]
  exact h.of_append

theorem map_sequence {n : ℕ} {cs : List Command} (h : Numbered n cs) :
    (cs.map fun c => c.sequence.toNat) = List.range' (n + 1) cs.length := by
  induction cs generalizing n with
  | nil => rfl
  | cons c rest ih =>
    rw [List.map_cons, ih h.2, h.1, List.length_cons, List.range'_succ]

end Numbered

/-- **What a correction does**: the commands that are not confirmed lead from the
    server's position to the new one. -/
theorem Corrector.corrected_spec {c corrector : Corrector} {r world : World} {id : EntityId}
    {position : Vec2} {ack : UInt32} {error : Binary32} {n : ℕ}
    (h : c.reconcile r id position ack = (.corrected error n, corrector, world)) :
    ∃ log t, r.get? .history id = some log ∧ r.get? .transform id = some t ∧
      n = (unconfirmed log ack).length ∧ world.get? .transform id = some
        { t with position := replay c.config.moveSpeed position (unconfirmed log ack) } := by
  rcases c.reconcile_cases r id position ack with ⟨-, he⟩ |
    ⟨log, t, _, -, hlog, ht, ⟨_, he⟩ | ⟨_, he⟩⟩
  · rw [he] at h
    cases h
  · rw [he] at h
    cases h
  · rw [he] at h
    cases h
    refine ⟨log, t, hlog, ht, rfl, ?_⟩
    rw [World.get?_modify_of_ne _ _ _ (by decide), World.get?_modify_self, ht]
    rfl

namespace CommandLog

/-- The history holds the end of the commands that were issued, of which the first
    `early` were never given to it. -/
structure EndOf (h : CommandLog) (cs : List Command) (early : ℕ) : Prop where
  capacity : h.capacity = standardCapacity
  suffix : h.entries <:+ cs
  /-- What is missing was never kept, or is confirmed, or had to make room. -/
  missing : cs.length ≤
    h.entries.length + max (max early h.acknowledged.toNat) (cs.length - standardCapacity)

variable {h : CommandLog} {cs : List Command} {early : ℕ}

theorem endOf_empty (cs : List Command) : empty.EndOf cs cs.length := by
  refine ⟨rfl, List.nil_suffix, ?_⟩
  have hnothing : empty.entries.length = 0 := rfl
  omega

theorem EndOf.push (he : h.EndOf cs early) (c : Command) :
    (h.push c).EndOf (cs ++ [c]) early := by
  have hcapacity : standardCapacity = 128 := rfl
  refine ⟨he.capacity, ?_, ?_⟩
  · exact List.suffix_append_self_iff.2 ((List.drop_suffix _ _).trans he.suffix)
  · have hmissing := he.missing
    have hack : (h.push c).acknowledged = h.acknowledged := rfl
    have hlength : (h.push c).entries.length = h.size - (h.size + 1 - h.capacity) + 1 := by
      simp [CommandLog.push, size]
    rw [hack, hlength, List.length_append, List.length_singleton, he.capacity, size]
    -- where nothing makes room both sides grow by one; else 128 stay and the rest is missing
    omega

/-- The commands of the history that are newer than a number. -/
theorem EndOf.after (he : h.EndOf cs early) (hn : Numbered 0 cs) (s : UInt32) :
    h.after s = h.entries.drop (s.toNat - (cs.length - h.entries.length)) := by
  have hnumbered := hn.of_suffix he.suffix
  rw [Nat.zero_add] at hnumbered
  exact hnumbered.filter_newer s

theorem EndOf.acknowledge (he : h.EndOf cs early) (hn : Numbered 0 cs) (s : UInt32) :
    (h.acknowledge s).EndOf cs early := by
  unfold CommandLog.acknowledge
  split_ifs with hstale
  · exact he
  · have hnewer : h.acknowledged.toNat < s.toNat :=
      UInt32.lt_iff_toNat_lt.1 (UInt32.not_le.1 hstale)
    have hafter := he.after hn s
    refine ⟨he.capacity, ?_, ?_⟩
    · show h.after s <:+ cs
      rw [hafter]
      exact (List.drop_suffix _ _).trans he.suffix
    · show cs.length ≤ (h.after s).length + max (max early s.toNat) (cs.length - standardCapacity)
      have hmissing := he.missing
      have hle := he.suffix.length_le
      -- what is dropped is numbered up to `s`, and numbers count from the start
      rw [hafter, List.length_drop]
      omega

/-- What a correction plays again is the end of what was issued. -/
theorem EndOf.unconfirmed (he : h.EndOf cs early) (hn : Numbered 0 cs) (s : UInt32) :
    Corrector.unconfirmed h s = h.after s ∧ h.after s <:+ cs := by
  have hsuffix : h.after s <:+ cs := by
    rw [he.after hn]
    exact (List.drop_suffix _ _).trans he.suffix
  refine ⟨List.mergeSort_of_pairwise ?_, hsuffix⟩
  simpa using hn.ascending.sublist hsuffix.sublist

/-- **A correction plays again all that is newer than the acknowledgement**, if that
    is no older than what the history was never given and what it has dropped. -/
theorem EndOf.unconfirmed_eq (he : h.EndOf cs early) (hn : Numbered 0 cs) {s : UInt32}
    (hearly : early ≤ s.toNat) (hack : h.acknowledged ≤ s)
    (hroom : (cs.filter fun c => c.sequence > s).length ≤ standardCapacity) :
    Corrector.unconfirmed h s = cs.filter fun c => c.sequence > s := by
  have hcapacity : standardCapacity = 128 := rfl
  have hacked := UInt32.le_iff_toNat_le.1 hack
  have hmissing := he.missing
  have hle := he.suffix.length_le
  rw [hn.filter_newer, Nat.sub_zero] at hroom ⊢
  rw [List.length_drop] at hroom
  rw [(he.unconfirmed hn s).1, he.after hn, List.suffix_iff_eq_drop.1 he.suffix]
  simp only [List.drop_drop, List.length_drop]
  -- nothing newer than `s` is missing from the history, for each of the reasons it could be
  congr 1
  omega

end CommandLog

namespace Client

/-! ## What a run issues -/

/-- The commands that an event puts into the buffer. -/
def pushed (c : Client) (e : Event) : List Command := (c.perform e).1.buffer.drop c.buffer.length

/-- The commands that a run puts into the buffer, in order. -/
def issued (c : Client) : List Event → List Command
  | [] => []
  | e :: rest => c.pushed e ++ (c.perform e).1.issued rest

/-- How many commands of a run are issued before anything is controlled. -/
def early (c : Client) : List Event → ℕ
  | [] => 0
  | e :: rest => (if c.player = none then (c.pushed e).length else 0) + (c.perform e).1.early rest

/-- The history of what is controlled holds the end of the commands that were
    issued, which are numbered from 1. -/
structure Logs (c : Client) (cs : List Command) (n : ℕ) : Prop where
  possesses : c.Possesses
  numbered : Numbered 0 cs
  newest : c.inputSequence.toNat = cs.length
  /-- Nothing has been logged before anything is controlled. -/
  early : c.player = none → n = cs.length
  log : ∀ id, c.player = some id → ∃ log, c.world.get? .history id = some log ∧ log.EndOf cs n

theorem logs_make (config : ClientConfig) (now : Duration) : (make config now).Logs [] 0 :=
  ⟨possesses_make config now, trivial, rfl, fun _ => rfl, fun _ h => by cases h⟩

variable {c c' : Client} {cs : List Command} {n : ℕ}

theorem Quiet.logs (hq : c.Quiet c') (h : c.Logs cs n) : c'.Logs cs n where
  possesses := hq.same.possesses h.possesses
  numbered := h.numbered
  newest := by rw [hq.newest, h.newest]
  early hnone := h.early (hq.same.player.symm.trans hnone)
  log id hid := by
    have hcontrolled : c.player = some id := hq.same.player.symm.trans hid
    obtain ⟨log, hlog, hend⟩ := h.log id hcontrolled
    rcases hq.log id log (h.possesses.controls id hcontrolled) hlog with hsame | ⟨s, hacked⟩
    · exact ⟨log, hsame, hend⟩
    · exact ⟨_, hacked, hend.acknowledge h.numbered s⟩

/-- A snapshot issues nothing; the history of what it hands over is empty. -/
theorem Logs.applySnapshot (h : c.Logs cs n) (k : UInt32) (m : Snapshot) :
    (c.applySnapshot k m).Logs cs n := by
  have hquiet : c.Quiet (c.adopting k m) := quiet_of_eq rfl rfl rfl rfl
  have hadopting := hquiet.logs h
  rcases c.applySnapshot_cases k m with ⟨-, he⟩ | ⟨-, he, -⟩ | ⟨seen, id, -, -, hid, he⟩ |
    ⟨seen, taken, -, -, hnone, htaken, he⟩
  · rw [he]
    exact h
  · rw [he]
    exact hadopting
  · rw [he]
    exact ((c.adopting k m).quiet_follow m id seen hid).logs hadopting
  · have hcontrols : taken.Controls seen.id := by
      rcases takeControl_cases (hadopting.possesses.vacant hnone) seen with ⟨-, hno⟩ |
        ⟨-, _, hyes, hcontrols⟩
      · cases hno.symm.trans htaken
      · cases Option.some.inj (htaken.symm.trans hyes)
        exact hcontrols
    obtain ⟨hnewest, -, -, hhistory⟩ := takeControl_spec htaken
    -- whatever has been issued came before the history, so an empty one keeps to it
    have hlogs : taken.Logs cs n := by
      refine ⟨⟨fun hno => ?_, fun id hid => ?_⟩, h.numbered, hnewest ▸ h.newest, fun hno => ?_,
        fun id hid => ?_⟩
      · cases hno.symm.trans hcontrols.player
      · cases hid.symm.trans hcontrols.player
        exact hcontrols
      · cases hno.symm.trans hcontrols.player
      · cases hid.symm.trans hcontrols.player
        refine ⟨_, hhistory, ?_⟩
        rw [h.early hnone]
        exact CommandLog.endOf_empty cs
    rw [he]
    exact (taken.quiet_follow m seen.id seen hcontrols.player).logs hlogs

/-- **A tick** issues the next command, and the history of what is controlled keeps
    it. -/
theorem Logs.tick (h : c.Logs cs n) (hroom : cs.length + 1 < 4294967296) :
    ∃ command, c.tick.buffer = c.buffer ++ [command] ∧
      c.tick.Logs (cs ++ [command]) (n + if c.player = none then 1 else 0) := by
  have hpossesses := c.samePlayer_tick.possesses h.possesses
  obtain ⟨position, w, he, hw⟩ := c.tick_cases
  have hplayer : c.tick.player = c.player := by rw [he]
  have hworld : c.tick.world = w := by rw [he]
  have hnewest : c.tick.inputSequence.toNat = cs.length + 1 := by
    have hadd : c.tick.inputSequence = c.inputSequence + 1 := by rw [he]
    have hone : (1 : UInt32).toNat = 1 := rfl
    rw [hadd, UInt32.toNat_add, h.newest, hone]
    omega
  have hnumber : (c.nextCommand position).sequence.toNat = 0 + 1 + cs.length := by
    have hadd : (c.nextCommand position).sequence = c.tick.inputSequence := by rw [he]; rfl
    rw [hadd, hnewest]
    omega
  refine ⟨c.nextCommand position, by rw [he], hpossesses, h.numbered.concat hnumber, ?_, ?_, ?_⟩
  · rw [hnewest, List.length_append, List.length_singleton]
  · intro hnone
    rw [hplayer] at hnone
    rw [if_pos hnone, h.early hnone, List.length_append, List.length_singleton]
  · intro id hid
    rw [hplayer] at hid
    obtain ⟨log, hlog, hend⟩ := h.log id hid
    rcases hw with ⟨hnone, -⟩ | ⟨id', hid', rfl⟩
    · cases hnone.symm.trans hid
    · cases hid.symm.trans hid'
      refine ⟨log.push (c.nextCommand position), ?_, ?_⟩
      · rw [hworld, World.get?_modify_self, World.get?_modify_of_ne _ _ _ (by decide), hlog]
        rfl
      · have hsome : ¬ c.player = none := by simp [hid]
        rw [if_neg hsome, Nat.add_zero]
        exact hend.push _

/-- Nothing is issued where the buffer only gets shorter. -/
theorem pushed_of_suffix {e : Event} (h : (c.perform e).1.buffer <:+ c.buffer) : c.pushed e = [] :=
  List.drop_eq_nil_of_le h.length_le

/-- Every event keeps to it, as long as the numbers last. -/
theorem Logs.perform (h : c.Logs cs n) (e : Event)
    (hroom : (cs ++ c.pushed e).length < 4294967296) :
    (c.perform e).1.Logs (cs ++ c.pushed e)
      (n + if c.player = none then (c.pushed e).length else 0) := by
  have hnothing : (c.perform e).1.Logs cs n → (c.perform e).1.buffer <:+ c.buffer →
      (c.perform e).1.Logs (cs ++ c.pushed e)
        (n + if c.player = none then (c.pushed e).length else 0) := by
    intro hlogs hbuffer
    rwa [pushed_of_suffix hbuffer, List.append_nil, List.length_nil, ite_self, Nat.add_zero]
  cases e with
  | act a =>
    have hsender : (c.act a).1.sender.playerId = c.sender.playerId := (c.samePlayer_act a).playerId
    rcases c.act_cases a with ⟨t, -, he⟩ | ⟨_, rest, _, hbuffer, he⟩ | ⟨_, _, _, _, _, _, -, he, -⟩
    · -- a tick, the one event that issues a command
      have hpushed : c.pushed (.act a) = c.tick.buffer.drop c.buffer.length := by
        show (c.act a).1.buffer.drop _ = _
        rw [he]
      have hone : (c.pushed (.act a)).length = 1 := by
        obtain ⟨_, _, htick, -⟩ := c.tick_cases
        rw [hpushed, htick, List.drop_left, List.length_singleton]
      rw [List.length_append, hone] at hroom
      obtain ⟨command, hbuffer, hticked⟩ := h.tick hroom
      have hcommand : c.pushed (.act a) = [command] := by rw [hpushed, hbuffer, List.drop_left]
      rw [hcommand, List.length_singleton]
      show (c.act a).1.Logs _ _
      rw [he]
      have hq : c.tick.Quiet { c.tick with timestep := t } := quiet_of_eq rfl rfl rfl rfl
      exact hq.logs hticked
    · rw [he] at hsender
      refine hnothing ?_ ?_ <;> rw [Client.perform, he]
      · refine Quiet.logs (c := c) ?_ h
        exact quiet_of_eq rfl hsender rfl rfl
      · rw [hbuffer]
        exact List.suffix_cons _ rest
    · rw [he] at hsender
      refine hnothing ?_ ?_ <;> simp only [Client.perform, he, List.suffix_rfl]
      refine Quiet.logs (c := c) ?_ h
      exact quiet_of_eq rfl hsender rfl rfl
  | hear data now =>
    cases hm : Message.decode (μ := Snapshot) data with
    | none =>
      obtain ⟨_, _, _, _, _, _, _, _, he, -, -⟩ := c.receiveOne_of_other hm now
      refine hnothing ((c.quiet_receiveOne hm now).logs h) ?_
      simp only [Client.perform, he, List.suffix_rfl]
    | some heard =>
      obtain ⟨traffic, he⟩ := c.receiveOne_of_snapshot hm now
      have hcounted : c.Quiet { c with traffic } := quiet_of_eq rfl rfl rfl rfl
      have hbuffer := (issued_applySnapshot { c with traffic } heard.1.tick heard.2).2
      refine hnothing ?_ ?_ <;> simp only [Client.perform, he, hbuffer, List.suffix_rfl]
      exact (hcounted.logs h).applySnapshot heard.1.tick heard.2

/-- **The history after a run** holds the end of what the run has issued. -/
theorem logs_performAll (h : c.Logs cs n) (es : List Event)
    (hroom : (cs ++ c.issued es).length < 4294967296) :
    (c.performAll es).1.Logs (cs ++ c.issued es) (n + c.early es) := by
  induction es generalizing c cs n with
  | nil => simpa [issued, early, performAll] using h
  | cons e rest ih =>
    rw [issued, ← List.append_assoc] at hroom ⊢
    rw [early, ← Nat.add_assoc]
    have hfirst : (cs ++ c.pushed e).length < 4294967296 := by
      rw [List.length_append] at hroom
      omega
    exact ih (h.perform e hfirst) hroom

/-! ## Corrections -/

theorem follow_of_corrected {m : Snapshot} {id : EntityId} {seen : Sighting} {error : Binary32}
    {corrector : Corrector} {world : World}
    (h : c.corrector.reconcile c.world id seen.position
      (Sequence.widen c.inputSequence m.lastInputSequence) = (.corrected error n, corrector, world)) :
    c.follow m id seen = { c with
      lastAck := Sequence.widen c.inputSequence m.lastInputSequence
      corrector, world
      corrections := c.corrections + 1 } := by
  unfold follow reconcile
  dsimp only
  rw [h]

theorem applySnapshot_of_corrected {k : UInt32} {m : Snapshot} {id : EntityId} {seen : Sighting}
    (hid : c.player = some id) (hfresh : ¬ c.IsStale k)
    (hseen : m.entity? m.playerEntity = some seen) {error : Binary32} {corrector : Corrector}
    {world : World} (h : c.corrector.reconcile c.world id seen.position
      (Sequence.widen c.inputSequence m.lastInputSequence) = (.corrected error n, corrector, world)) :
    (c.applySnapshot k m).world = world ∧
      (c.applySnapshot k m).corrections = c.corrections + 1 := by
  have hadopting : (c.adopting k m).corrector.reconcile (c.adopting k m).world id seen.position
      (Sequence.widen (c.adopting k m).inputSequence m.lastInputSequence) =
        (.corrected error n, corrector, world) := h
  rw [applySnapshot_of_fresh hfresh, hseen, hid]
  dsimp only
  rw [follow_of_corrected hadopting]
  exact ⟨rfl, rfl⟩

/-- **What a correction plays again.**  When a snapshot corrects the player, the
    player stands where the replayed commands lead from the position that the
    snapshot shows.  They are the newest that the client has issued, all newer than
    the acknowledgement, each once and in ascending order.  They are all that are
    newer than it, if these are no more than a history keeps and the acknowledgement
    is neither older than one before nor than what was issued before anything was
    controlled. -/
theorem correction_replays (config : ClientConfig) (now : Duration) (es : List Event)
    (hrun : ((make config now).performAll es).1 = c)
    (hnumbers : ((make config now).issued es).length < 4294967296)
    {id : EntityId} (hid : c.player = some id)
    {data : Bytes} {h : Header} {m : Snapshot} (hm : Message.decode data = some (h, m))
    (hfresh : ¬ c.IsStale h.tick) {seen : Sighting} (hseen : m.entity? m.playerEntity = some seen)
    {ack : UInt32} (hack : Sequence.widen c.inputSequence m.lastInputSequence = ack)
    {error : Binary32} {corrector : Corrector} {world : World}
    (hcorrected : c.corrector.reconcile c.world id seen.position ack =
      (.corrected error n, corrector, world)) (heardAt : Duration) :
    let c' := (c.receiveOne data heardAt).1
    let cs := (make config now).issued es
    ∃ log t, c.world.get? .history id = some log ∧ c.world.get? .transform id = some t ∧
      c'.world.get? .transform id = some { t with
        position := Corrector.replay config.tolerance.moveSpeed seen.position
          (Corrector.unconfirmed log ack) } ∧
      c'.corrections = c.corrections + 1 ∧ n = (Corrector.unconfirmed log ack).length ∧
      Corrector.unconfirmed log ack <:+ cs ∧
      (∀ x ∈ Corrector.unconfirmed log ack, x.sequence > ack) ∧
      ((Corrector.unconfirmed log ack).map fun x => x.sequence.toNat) =
        List.range' (c.inputSequence.toNat - n + 1) n ∧
      ((cs.filter fun x => x.sequence > ack).length ≤ CommandLog.standardCapacity →
        (make config now).early es ≤ ack.toNat → log.acknowledged ≤ ack →
        Corrector.unconfirmed log ack = (cs.filter fun x => x.sequence > ack) ∧
        ((Corrector.unconfirmed log ack).map fun x => x.sequence.toNat) =
          List.range' (ack.toNat + 1) (c.inputSequence.toNat - ack.toNat)) := by
  intro c' cs
  have hlogs : c.Logs cs ((make config now).early es) := by
    have hall := logs_performAll (logs_make config now) es (by simpa using hnumbers)
    rwa [hrun, List.nil_append, Nat.zero_add] at hall
  have hspeed : c.corrector.config.moveSpeed = config.tolerance.moveSpeed := by
    rw [← hrun, (tuned_performAll (tuned_make config now) es).corrector]
  obtain ⟨log, t, hlog, ht, hn, hmoved⟩ := Corrector.corrected_spec hcorrected
  have hafter : c'.world = world ∧ c'.corrections = c.corrections + 1 := by
    obtain ⟨traffic, he⟩ := c.receiveOne_of_snapshot hm heardAt
    have hcounted : ({ c with traffic } : Client).player = some id := hid
    show (c.receiveOne data heardAt).1.world = _ ∧ (c.receiveOne data heardAt).1.corrections = _
    rw [he]
    subst hack
    exact applySnapshot_of_corrected hcounted hfresh hseen hcorrected
  obtain ⟨log', hlog', hend⟩ := hlogs.log id hid
  obtain rfl : log = log' := Option.some.inj (hlog.symm.trans hlog')
  obtain ⟨hunconfirmed, hsuffix⟩ := hend.unconfirmed hlogs.numbered ack
  refine ⟨log, t, hlog, ht, ?_, hafter.2, hn, hunconfirmed ▸ hsuffix, ?_, ?_, ?_⟩
  · rw [hafter.1, hmoved, hspeed]
  · intro x hx
    rw [hunconfirmed] at hx
    simpa using (List.mem_filter.1 hx).2
  · have hnewest := (hlogs.numbered.of_suffix hsuffix).map_sequence
    rw [hunconfirmed, hnewest, hlogs.newest, hn, hunconfirmed, Nat.zero_add]
  · intro hroom hearly hacked
    have hall := hend.unconfirmed_eq hlogs.numbered hearly hacked hroom
    refine ⟨hall, ?_⟩
    rw [hall, hlogs.numbered.filter_newer, List.map_drop, hlogs.numbered.map_sequence,
      List.drop_range', hlogs.newest]
    congr 1
    omega

/-- How many commands a comparison with a snapshot plays again, if it corrects. -/
def replayed? (c : Client) (id : EntityId) (m : Snapshot) : Option ℕ :=
  (m.entity? m.playerEntity).bind fun seen =>
    match c.corrector.reconcile c.world id seen.position
      (Sequence.widen c.inputSequence m.lastInputSequence) with
    | (.corrected _ n, _) => some n
    | _ => none

theorem replayed?_eq_some {id : EntityId} {m : Snapshot} (h : c.replayed? id m = some n) :
    ∃ seen error corrector world, m.entity? m.playerEntity = some seen ∧
      c.corrector.reconcile c.world id seen.position
        (Sequence.widen c.inputSequence m.lastInputSequence) =
          (.corrected error n, corrector, world) := by
  obtain ⟨seen, hseen, h⟩ := Option.bind_eq_some_iff.1 h
  split at h
  · rename_i hc
    cases h
    exact ⟨seen, _, _, _, hseen, hc⟩
  · cases h

/-- A snapshot that shows one entity and confirms commands. -/
def confirming (ack : UInt16) (position : Vec2) : Snapshot := ⟨1, ack, [⟨1, position, 100⟩]⟩

/-- A position far from where everything starts. -/
def far : Vec2 := ⟨⟨0x43fa0000⟩, ⟨0x43fa0000⟩⟩

/-- Some ticks in a row. -/
def ticks (n : ℕ) : List Event :=
  .act (.elapse (Duration.milliseconds 200)) :: List.replicate n (.act .tick)

/-- Three commands are issued for what is controlled. -/
def issuedAfter : List Event := .hear ((confirming 0 .zero).datagram 1) 0 :: ticks 3

/-- Two of three commands are confirmed. -/
def confirmedBefore : List Event :=
  issuedAfter ++ [.hear ((confirming 2 .zero).datagram 2) 0]

/-- Three commands are issued before anything is controlled, and one after. -/
def issuedBefore : List Event :=
  ticks 3 ++ .hear ((confirming 0 .zero).datagram 1) 0 :: ticks 1

/-- Not all commands that are newer than the acknowledgement are played again: those
    that were confirmed before are not, and those that were issued before anything
    was controlled are not. -/
theorem correction_not_all :
    let confirmed := ((make {} 0).performAll confirmedBefore).1
    let late := ((make {} 0).performAll issuedBefore).1
    (confirmed.player = some 1 ∧ ¬ confirmed.IsStale 3 ∧
      (((make {} 0).issued confirmedBefore).filter fun x => x.sequence > 1).length = 2 ∧
      confirmed.replayed? 1 (confirming 1 far) = some 1) ∧
    (late.player = some 1 ∧ ¬ late.IsStale 2 ∧
      (((make {} 0).issued issuedBefore).filter fun x => x.sequence > 0).length = 4 ∧
      late.replayed? 1 (confirming 0 far) = some 1) := by
  decide +kernel

/-- Of three commands, the two that are confirmed are not played again. -/
theorem correction_replays_lastOfThree :
    let c := ((make {} 0).performAll issuedAfter).1
    c.player = some 1 ∧ ¬ c.IsStale 2 ∧ c.inputSequence = 3 ∧
      ∃ log, c.world.get? .history 1 = some log ∧
        ((Corrector.unconfirmed log 2).map fun x => x.sequence.toNat) = [3] := by
  intro c
  have hread : (Message.decode (μ := Snapshot) ((confirming 2 far).datagram 2)).map
      (fun x => (x.1.tick, x.2)) = some (2, confirming 2 far) := by decide +kernel
  obtain ⟨⟨h, m⟩, hm, heq⟩ := Option.map_eq_some_iff.1 hread
  obtain ⟨htick, rfl⟩ := Prod.mk.inj heq
  have hplayer : c.player = some 1 := by decide +kernel
  have hfresh : ¬ c.IsStale 2 := by decide +kernel
  have hnewest : c.inputSequence = 3 := by decide +kernel
  have hreplayed : c.replayed? 1 (confirming 2 far) = some 1 := by decide +kernel
  have hack : Sequence.widen c.inputSequence (confirming 2 far).lastInputSequence = 2 := by
    decide +kernel
  have hconfirmed : ((c.world.get? .history 1).all fun log => log.acknowledged ≤ 2) = true := by
    decide +kernel
  obtain ⟨seen, error, corrector, world, hseen, hcorrected⟩ := replayed?_eq_some hreplayed
  rw [hack] at hcorrected
  obtain ⟨log, t, hlog, -, -, -, -, -, -, -, hall⟩ := correction_replays {} 0 issuedAfter rfl
    (by decide +kernel) hplayer hm (by rw [htick]; exact hfresh) hseen hack hcorrected 0
  refine ⟨hplayer, hfresh, hnewest, log, hlog, ?_⟩
  rw [hlog] at hconfirmed
  have hlist := (hall (by decide +kernel) (by decide +kernel) (by simpa using hconfirmed)).2
  rw [hlist, hnewest]
  rfl

end Client

end Netplay
