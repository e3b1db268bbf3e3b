/-
  The round trip that a client measures.

  A ping is noted by the 16 bits of its number, which it shares with the reports that go
  out under the same sequence, and its pong names it by these bits.  Pongs may be lost,
  repeated, and come in any order.  At most 32 pings are pending: the oldest makes room
  for another.  What the bits leave open is settled by the window: as long as fewer than
  65536 messages have been sent since the oldest ping that is outstanding, no two of them
  look the same.

  * `Exchange`: what is sent under the control sequence, and the answers that come, with
    `Exchange.outstanding`, the numbers of the pings that may still be answered;
  * `Traffic.Tracks`: the pings that are pending are those that are outstanding, kept by
    `Tracks.ping`, `Tracks.report` and `Tracks.notePong`;
  * `Client.exists_ping`, `Client.act_ping_or_quiet`, `Client.onlyReports_receiveOne`: what
    an event does to the control sequence and to the pings;
  * `Echoed`: a client, and beside it what it has exchanged and the samples that it has
    taken; `Echoed.Sound` is kept by every event, and so by every run;
  * `Echoed.samples_belong`: each sample is the time since its own ping.

  Turns of the main loop are runs of the same events, by `Client.turns_eq_performAll`.
-/
import Mathlib.Data.Finset.Filter
import Mathlib.Data.Finset.Card
import Netplay.Proofs.Reception

namespace Netplay

/-! ## What becomes of pings -/

/-- What a client sends under its control sequence, and what comes back. -/
inductive Exchange where
  | ping (now : Duration)
  /-- Another message under the control sequence. -/
  | report
  /-- An answer to the ping that was message number `n`. -/
  | pong (n : ℕ)
  deriving DecidableEq

/-! Exchanges are listed latest first. -/

namespace Exchange

/-- How many messages have been sent, which is the number of the next. -/
def sent : List Exchange → ℕ
  | [] => 0
  | .ping _ :: past | .report :: past => sent past + 1
  | .pong _ :: past => sent past

/-- When message number `n` was sent, if it was a ping. -/
def sentAt? (n : ℕ) : List Exchange → Option Duration
  | [] => none
  | .ping now :: past => if n = sent past then some now else sentAt? n past
  | .report :: past | .pong _ :: past => sentAt? n past

/-- Of 32 numbers and more the oldest makes room for another. -/
def makeRoom (o : Finset ℕ) : Finset ℕ :=
  if o.card < 32 then o else o.filter fun n => ∃ m ∈ o, m < n

/-- The numbers of the pings that have neither been answered nor made room. -/
def outstanding : List Exchange → Finset ℕ
  | [] => ∅
  | .ping _ :: past => insert (sent past) (makeRoom (outstanding past))
  | .report :: past => outstanding past
  | .pong n :: past => (outstanding past).erase n

/-- A pong under a sequence answers ping `n`: as long as any ping is outstanding, fewer than
    65536 messages have been sent since that, and since ping `n`. -/
def Answers (past : List Exchange) (n : ℕ) (sequence : UInt16) : Prop :=
  sequence = .ofNat n ∧ ∀ m ∈ outstanding past, sent past ≤ m + 65536 ∧ sent past ≤ n + 65536

instance (past : List Exchange) (n : ℕ) (sequence : UInt16) :
    Decidable (Answers past n sequence) :=
  inferInstanceAs (Decidable (_ ∧ _))

theorem lt_sent_of_sentAt? {n : ℕ} {past : List Exchange} {now : Duration}
    (h : sentAt? n past = some now) : n < sent past := by
  induction past with
  | nil => cases h
  | cons e past ih =>
    cases e with
    | ping at₀ =>
      unfold sentAt? at h
      split_ifs at h with hn
      · exact hn ▸ Nat.lt_succ_self _
      · exact Nat.lt_succ_of_lt (ih h)
    | report => exact Nat.lt_succ_of_lt (ih h)
    | pong m => exact ih h

theorem makeRoom_subset (o : Finset ℕ) : makeRoom o ⊆ o := by
  unfold makeRoom
  split_ifs
  · exact Finset.Subset.refl o
  · exact Finset.filter_subset _ o

theorem makeRoom_toFinset {ns : List ℕ} (hns : ns.Pairwise (· < ·)) (hroom : ns.length ≤ 32) :
    makeRoom ns.toFinset = (ns.drop (ns.length + 1 - 32)).toFinset := by
  have hcard : ns.toFinset.card = ns.length := List.toFinset_card_of_nodup (hns.imp Nat.ne_of_lt)
  unfold makeRoom
  rw [hcard]
  split_ifs with hfew
  · rw [Nat.sub_eq_zero_of_le hfew, List.drop_zero]
  · have hfull : ns.length + 1 - 32 = 1 := by omega
    rw [hfull]
    cases ns with
    | nil => rfl
    | cons oldest rest =>
      obtain ⟨holdest, -⟩ := List.pairwise_cons.1 hns
      ext n
      simp only [Finset.mem_filter, List.mem_toFinset, List.drop_succ_cons, List.drop_zero,
        List.mem_cons]
      constructor
      · rintro ⟨rfl | hn, m, rfl | hm, hlt⟩
        · exact absurd hlt (Nat.lt_irrefl _)
        · exact absurd hlt (Nat.lt_asymm (holdest m hm))
        · exact hn
        · exact hn
      · intro hn
        exact ⟨Or.inr hn, oldest, Or.inl rfl, holdest n hn⟩

end Exchange

namespace Traffic

/-- A ping as it is noted: by the low bits of its number. -/
def noted (x : ℕ × Duration) : OpenPing := ⟨.ofNat x.1, x.2⟩

/-- The pings that are pending are those that are outstanding, in the order in which they
    were sent. -/
structure Tracks (t : Traffic) (past : List Exchange) (book : List (ℕ × Duration)) : Prop where
  pending : t.pending = book.map noted
  ascending : (book.map Prod.fst).Pairwise (· < ·)
  sentAt : ∀ x ∈ book, Exchange.sentAt? x.1 past = some x.2
  outstanding : Exchange.outstanding past = (book.map Prod.fst).toFinset
  room : book.length ≤ 32

variable {t : Traffic} {past : List Exchange} {book : List (ℕ × Duration)}

theorem tracks_nil (h : t.pending = []) : t.Tracks [] [] :=
  ⟨h, .nil, by simp, rfl, Nat.zero_le _⟩

theorem Tracks.congr {t' : Traffic} (h : t.Tracks past book) (hp : t'.pending = t.pending) :
    t'.Tracks past book :=
  ⟨hp.trans h.pending, h.ascending, h.sentAt, h.outstanding, h.room⟩

theorem Tracks.mem_outstanding (h : t.Tracks past book) {n : ℕ} :
    n ∈ Exchange.outstanding past ↔ ∃ now, (n, now) ∈ book := by
  rw [h.outstanding]
  simp

theorem Tracks.lt_sent (h : t.Tracks past book) {n : ℕ} (hn : n ∈ Exchange.outstanding past) :
    n < Exchange.sent past := by
  obtain ⟨now, hmem⟩ := h.mem_outstanding.1 hn
  exact Exchange.lt_sent_of_sentAt? (h.sentAt _ hmem)

theorem Tracks.card_outstanding (h : t.Tracks past book) :
    (Exchange.outstanding past).card = t.pending.length := by
  rw [h.outstanding, List.toFinset_card_of_nodup (h.ascending.imp Nat.ne_of_lt), h.pending,
    List.length_map, List.length_map]

/-- **A ping** is put behind the others, of which the oldest makes room. -/
theorem Tracks.ping (h : t.Tracks past book) (now : Duration) :
    ∃ book', (t.notePing (.ofNat (Exchange.sent past)) now).Tracks (.ping now :: past) book' := by
  have hroom := h.room
  have hmade := Exchange.makeRoom_toFinset h.ascending (by rwa [List.length_map])
  rw [← h.outstanding, List.length_map] at hmade
  have hlt : ∀ x ∈ book, x.1 < Exchange.sent past := fun x hx =>
    Exchange.lt_sent_of_sentAt? (h.sentAt x hx)
  refine ⟨book.drop (book.length + 1 - 32) ++ [(Exchange.sent past, now)], ?_, ?_, ?_, ?_, ?_⟩
  · show t.pending.drop (t.pending.length + 1 - 32) ++ _ = _
    rw [h.pending, List.map_append, List.length_map, List.map_drop]
    rfl
  · rw [List.map_append, List.map_drop]
    refine List.pairwise_append.2 ⟨h.ascending.drop, List.pairwise_singleton _ _, ?_⟩
    intro m hm n hn
    obtain ⟨x, hx, rfl⟩ := List.mem_map.1 (List.mem_of_mem_drop hm)
    obtain rfl := List.mem_singleton.1 hn
    exact hlt x hx
  · intro x hx
    rcases List.mem_append.1 hx with hx | hx
    · have hx := List.mem_of_mem_drop hx
      exact (if_neg (Nat.ne_of_lt (hlt x hx))).trans (h.sentAt x hx)
    · obtain rfl := List.mem_singleton.1 hx
      exact if_pos rfl
  · rw [Exchange.outstanding, hmade, List.map_append, List.map_drop]
    ext n
    simp
  · rw [List.length_append, List.length_drop, List.length_singleton]
    omega

theorem Tracks.report (h : t.Tracks past book) : t.Tracks (.report :: past) book :=
  ⟨h.pending, h.ascending, h.sentAt, h.outstanding, h.room⟩

/-! ### Pongs -/

/-- A pong takes the first ping with its sequence. -/
theorem notePong_append {before after : List OpenPing} {p : OpenPing}
    (ht : t.pending = before ++ p :: after) (hbefore : ∀ b ∈ before, b.sequence ≠ p.sequence)
    (now : Duration) : t.notePong p.sequence now = (some (now - p.sentAt),
      ({ t with pending := before ++ after } : Traffic).smooth
        (Duration.seconds (now - p.sentAt) * Binary32.ofNat 1000)) := by
  have hskip : ∀ b ∈ before, ¬ (b.sequence == p.sequence) = true := fun b hb => by
    simpa using hbefore b hb
  have hself : (p.sequence == p.sequence) = true := beq_self_eq_true _
  have hfound : t.pending.find? (fun b => b.sequence == p.sequence) = some p := by
    rw [ht, List.find?_append, List.find?_eq_none.2 hskip, Option.none_or]
    exact List.find?_cons_of_pos hself
  have hleft : t.pending.eraseP (fun b => b.sequence == p.sequence) = before ++ after := by
    rw [ht, List.eraseP_append_right _ hskip]
    exact congrArg (before ++ ·) (List.eraseP_cons_of_pos hself)
  rw [notePong, hfound]
  simp only [hleft]

/-- A pong that answers no pending ping changes nothing. -/
theorem notePong_of_none {sequence : UInt16} (h : ∀ p ∈ t.pending, p.sequence ≠ sequence)
    (now : Duration) : t.notePong sequence now = (none, t) := by
  have hnone : t.pending.find? (fun p => p.sequence == sequence) = none :=
    List.find?_eq_none.2 fun p hp => by simpa using h p hp
  rw [notePong, hnone]

theorem notePong_cases (t : Traffic) (sequence : UInt16) (now : Duration) :
    t.notePong sequence now = (none, t) ∨
    ∃ sample pending, t.notePong sequence now = (some sample,
      ({ t with pending } : Traffic).smooth (Duration.seconds sample * Binary32.ofNat 1000)) := by
  unfold notePong
  split
  · exact Or.inl rfl
  · exact Or.inr ⟨_, _, rfl⟩

theorem pending_smooth (t : Traffic) (sample : Binary32) :
    (t.smooth sample).pending = t.pending := by
  unfold smooth
  split_ifs <;> rfl

/-- A sequence that no outstanding ping has. -/
theorem Tracks.notePong_of_other (h : t.Tracks past book) {sequence : UInt16}
    (hother : ∀ m ∈ Exchange.outstanding past, sequence ≠ .ofNat m) (now : Duration) :
    t.notePong sequence now = (none, t) := by
  refine notePong_of_none (fun p hp => ?_) now
  rw [h.pending] at hp
  obtain ⟨x, hx, rfl⟩ := List.mem_map.1 hp
  exact (hother x.1 (h.mem_outstanding.2 ⟨x.2, hx⟩)).symm

/-- Within the window no two outstanding pings look the same. -/
theorem Tracks.ne_of_answers (h : t.Tracks past book) {n : ℕ} {sequence : UInt16}
    (hlt : n < Exchange.sent past) (hq : Exchange.Answers past n sequence) {m : ℕ}
    (hm : m ∈ Exchange.outstanding past) (hne : m ≠ n) : sequence ≠ .ofNat m := by
  obtain ⟨rfl, hwindow⟩ := hq
  obtain ⟨hwm, hwn⟩ := hwindow m hm
  have hm' := h.lt_sent hm
  intro heq
  have hmod := congrArg UInt16.toNat heq
  rw [UInt16.toNat_ofNat', UInt16.toNat_ofNat'] at hmod
  omega

section

variable {before after : List (ℕ × Duration)} {n : ℕ} {sentAt : Duration}

theorem Tracks.lt_of_before (h : t.Tracks past (before ++ (n, sentAt) :: after))
    {x : ℕ × Duration} (hx : x ∈ before) : x.1 < n := by
  have hascending := h.ascending
  rw [List.map_append, List.map_cons, List.pairwise_append] at hascending
  exact hascending.2.2 _ (List.mem_map_of_mem hx) _ List.mem_cons_self

/-- An answered ping is outstanding no longer. -/
theorem Tracks.answer (h : t.Tracks past (before ++ (n, sentAt) :: after)) {t' : Traffic}
    (ht' : t'.pending = (before ++ after).map noted) :
    t'.Tracks (.pong n :: past) (before ++ after) := by
  have hsub : (before ++ after).Sublist (before ++ (n, sentAt) :: after) :=
    (List.Sublist.refl before).append (List.sublist_cons_self _ after)
  have hnodup : ((before ++ (n, sentAt) :: after).map Prod.fst).Nodup :=
    h.ascending.imp Nat.ne_of_lt
  rw [List.map_append, List.map_cons, List.nodup_middle, List.nodup_cons, ← List.map_append]
    at hnodup
  have hout : ((before ++ (n, sentAt) :: after).map Prod.fst).toFinset =
      insert n ((before ++ after).map Prod.fst).toFinset := by
    ext m
    simp
  refine ⟨ht', h.ascending.sublist (hsub.map _), fun x hx => h.sentAt x (hsub.subset hx), ?_,
    Nat.le_trans hsub.length_le h.room⟩
  rw [Exchange.outstanding, h.outstanding, hout,
    Finset.erase_insert fun hn => hnodup.1 (List.mem_toFinset.1 hn)]

/-- The pong of an outstanding ping takes that ping. -/
theorem Tracks.notePong_of_outstanding (h : t.Tracks past (before ++ (n, sentAt) :: after))
    {sequence : UInt16} (hq : Exchange.Answers past n sequence) (now : Duration) :
    (t.notePong sequence now).1 = some (now - sentAt) ∧
      (t.notePong sequence now).2.Tracks (.pong n :: past) (before ++ after) := by
  have hlt : n < Exchange.sent past :=
    Exchange.lt_sent_of_sentAt? (h.sentAt (n, sentAt) (by simp))
  have hpending : t.pending = before.map noted ++ noted (n, sentAt) :: after.map noted := by
    rw [h.pending, List.map_append, List.map_cons]
  have hbefore : ∀ p ∈ before.map noted, p.sequence ≠ (noted (n, sentAt)).sequence := by
    intro p hp
    obtain ⟨x, hx, rfl⟩ := List.mem_map.1 hp
    have hout : x.1 ∈ Exchange.outstanding past :=
      h.mem_outstanding.2 ⟨x.2, List.mem_append_left _ hx⟩
    have hne : x.1 ≠ n := Nat.ne_of_lt (h.lt_of_before hx)
    exact fun heq => h.ne_of_answers hlt hq hout hne (hq.1.trans heq.symm)
  have hpong := notePong_append hpending hbefore now
  rw [show (noted (n, sentAt)).sequence = sequence from hq.1.symm] at hpong
  rw [hpong]
  refine ⟨rfl, h.answer ?_⟩
  rw [pending_smooth, List.map_append]

end

/-- **A pong** gives the time since its ping, if that is outstanding. -/
theorem Tracks.notePong (h : t.Tracks past book) {n : ℕ} {sequence : UInt16} {sentAt : Duration}
    (hat : Exchange.sentAt? n past = some sentAt) (hq : Exchange.Answers past n sequence)
    (now : Duration) :
    (t.notePong sequence now).1 =
        (if n ∈ Exchange.outstanding past then some (now - sentAt) else none) ∧
      ∃ book', (t.notePong sequence now).2.Tracks (.pong n :: past) book' := by
  by_cases hn : n ∈ Exchange.outstanding past
  · obtain ⟨since, hmem⟩ := h.mem_outstanding.1 hn
    obtain rfl : sentAt = since := Option.some.inj (hat.symm.trans (h.sentAt _ hmem))
    obtain ⟨before, after, rfl⟩ := List.append_of_mem hmem
    obtain ⟨hsample, hafter⟩ := h.notePong_of_outstanding hq now
    rw [if_pos hn]
    exact ⟨hsample, before ++ after, hafter⟩
  · have hother : ∀ m ∈ Exchange.outstanding past, sequence ≠ .ofNat m := fun m hm =>
      h.ne_of_answers (Exchange.lt_sent_of_sentAt? hat) hq hm fun heq => hn (heq ▸ hm)
    rw [if_neg hn, h.notePong_of_other hother]
    exact ⟨rfl, book, h.pending, h.ascending, h.sentAt,
      (Finset.erase_eq_of_notMem hn).trans h.outstanding, h.room⟩

end Traffic

/-! ## What a client does with its control sequence -/

theorem Message.exists_encode {μ : Type} [Message μ] {m : μ}
    (h : (Message.write m).length ≤ Frame.maxPayload) (sequence : UInt16) (tick : UInt32) :
    ∃ data, Message.encode m sequence tick = .ok data := ⟨_, if_pos h⟩

namespace Client

theorem exists_post {μ : Type} [Message μ] (c : Client) {m : μ}
    (h : (Message.write m).length ≤ Frame.maxPayload) :
    ∃ data, Message.encode m c.controlSequence (UInt32.ofNat c.timestep.tick) = .ok data ∧
      c.post m = ({ c with controlSequence := c.controlSequence + 1 }, [data]) := by
  obtain ⟨data, hdata⟩ := Message.exists_encode h c.controlSequence
    (UInt32.ofNat c.timestep.tick)
  exact ⟨data, hdata, by rw [post, hdata]⟩

/-- **A ping** is sent under the sequence under which it is noted. -/
theorem exists_ping (c : Client) (now : Duration) : ∃ data hd,
    (c.ping now).2 = [data] ∧ Message.decode data = some (hd, Ping.mk) ∧
      hd.sequence = c.controlSequence := by
  obtain ⟨data, hdata, hpost⟩ := exists_post (m := Ping.mk)
    { c with lastPing := now, traffic := c.traffic.notePing c.controlSequence now } (by decide)
  refine ⟨data, Message.sentHeader Ping.mk c.controlSequence (UInt32.ofNat c.timestep.tick),
    congrArg Prod.snd hpost, ?_, rfl⟩
  rw [Message.decode_encode hdata]
  rfl

theorem pending_settle (c : Client) (outcomes : List (Except SocketError ℕ)) :
    (c.settle outcomes).traffic.pending = c.traffic.pending := by
  have hcount : ∀ t : Traffic, (outcomes.foldl Traffic.countOutcome t).pending = t.pending := by
    induction outcomes with
    | nil => exact fun _ => rfl
    | cons outcome rest ih =>
      intro t
      refine (ih _).trans ?_
      cases outcome with
      | ok bytes => rfl
      | error e =>
        show (if e.isTransient then t else t.countFailure).pending = t.pending
        split_ifs <;> rfl
  exact hcount c.traffic

/-- What an event exchanges, given the number of the ping that a pong answers, if it answers
    any. -/
def exchanged (c : Client) (answered : Option ℕ) : Event → List Exchange
  | .act (.ping now) => [.ping now]
  | .act _ => []
  | .hear data now =>
    if Message.reads Pong data then (answered.map Exchange.pong).toList
    else (c.receiveOne data now).2.map fun _ => .report

/-- From one client to another nothing but reports has gone out under the control sequence,
    and the same pings are pending. -/
structure OnlyReports (c c' : Client) (reports : List Bytes) : Prop where
  pending : c'.traffic.pending = c.traffic.pending
  sequence : c'.controlSequence = c.controlSequence + .ofNat reports.length

variable {c c' : Client}

theorem onlyReports_nil (hpending : c'.traffic.pending = c.traffic.pending)
    (hsequence : c'.controlSequence = c.controlSequence) : c.OnlyReports c' [] :=
  ⟨hpending, hsequence.trans (UInt16.add_zero _).symm⟩

/-- Of what a client does of itself only pings concern its control sequence. -/
theorem act_ping_or_quiet (c : Client) (answered : Option ℕ) (a : Act) :
    (∃ now, a = .ping now) ∨
      c.exchanged answered (.act a) = [] ∧ c.OnlyReports (c.act a).1 [] := by
  cases a with
  | ping now => exact Or.inl ⟨now, rfl⟩
  | elapse d => exact Or.inr ⟨rfl, onlyReports_nil rfl rfl⟩
  | tick =>
    refine Or.inr ⟨rfl, ?_⟩
    unfold act
    dsimp only
    split
    · exact onlyReports_nil rfl rfl
    · rename_i n t _
      obtain ⟨_, _, he, -⟩ := tick_cases { c with timestep := t }
      rw [he]
      exact onlyReports_nil rfl rfl
  | start answer => exact Or.inr ⟨rfl, onlyReports_nil rfl rfl⟩
  | send answer =>
    refine Or.inr ⟨rfl, ?_⟩
    rcases c.sendNext_cases answer with ⟨_, _, _, -, -, he⟩ | he <;> rw [he] <;>
      exact onlyReports_nil rfl rfl
  | stop => exact Or.inr ⟨rfl, onlyReports_nil rfl rfl⟩
  | settle outcomes => exact Or.inr ⟨rfl, onlyReports_nil (c.pending_settle outcomes) rfl⟩

theorem onlyReports_compareDigests (c : Client) (m : StateChecksum) (now : Duration) :
    c.OnlyReports (c.compareDigests m now).1 (c.compareDigests m now).2 := by
  refine ⟨congrArg Traffic.pending (c.traffic_compareDigests m now), ?_⟩
  rcases c.compareDigests_cases m now with he | ⟨own, -, -, -, he⟩
  · rw [he]
    exact (UInt16.add_zero _).symm
  · obtain ⟨_, -, hpost⟩ := exists_post { c with lastReport := some now }
      (m := DesyncReport.mk m.tick m.criticalChecksum own)
      (by simp [Message.write, Frame.maxPayload])
    rw [he, hpost]
    rfl

theorem onlyReports_handle (c : Client) {f : Frame}
    (hf : Message.ofFrame? (μ := Pong) f = none) (now : Duration) :
    c.OnlyReports (c.handle f now).1 (c.handle f now).2 := by
  unfold handle
  split
  · split
    · rename_i hd m _
      obtain ⟨_, _, _, _, _, _, _, _, _, he, -⟩ := c.applySnapshot_frame hd.tick m
      rw [he]
      exact onlyReports_nil rfl rfl
    · exact onlyReports_nil rfl rfl
  · split
    · rename_i m _
      exact c.onlyReports_compareDigests m now
    · exact onlyReports_nil rfl rfl
  · split
    · rename_i m _
      rcases c.goBack_cases m with he | ⟨_, _, _, _, -, -, he⟩ <;> rw [he] <;>
        exact onlyReports_nil rfl rfl
    · exact onlyReports_nil rfl rfl
  · rw [hf]
    exact onlyReports_nil rfl rfl
  · exact onlyReports_nil rfl rfl

/-- **What is no pong** concerns the control sequence only by the reports that are sent. -/
theorem onlyReports_receiveOne (c : Client) {data : Bytes}
    (hm : Message.decode (μ := Pong) data = none) (now : Duration) :
    c.OnlyReports (c.receiveOne data now).1 (c.receiveOne data now).2 := by
  rw [Message.decode] at hm
  unfold receiveOne
  dsimp only
  split
  · rename_i f hf
    rw [hf] at hm
    obtain ⟨hpending, hsequence⟩ := onlyReports_handle
      { c with traffic := c.traffic.countReceived data.length } hm now
    exact ⟨hpending, hsequence⟩
  · exact onlyReports_nil rfl rfl

/-! ## Runs -/

/-- The time of a round trip that a datagram tells: what noting it gives, if it is a pong. -/
def sample? (c : Client) (data : Bytes) (now : Duration) : Option Duration :=
  (Message.decode (μ := Pong) data).bind fun m =>
    ((c.traffic.countReceived data.length).notePong m.1.sequence now).1

theorem sample?_of_pong (c : Client) {data : Bytes} {hd : Header} {m : Pong}
    (hm : Message.decode data = some (hd, m)) (now : Duration) :
    c.sample? data now =
      ((c.traffic.countReceived data.length).notePong hd.sequence now).1 := by
  rw [sample?, hm]
  rfl

/-- A pong without a sample is counted and changes nothing; a sample moves the estimate. -/
theorem receiveOne_of_sample (c : Client) {data : Bytes} {hd : Header} {m : Pong}
    (hm : Message.decode data = some (hd, m)) (now : Duration) :
    let counted := c.traffic.countReceived data.length
    (c.sample? data now = none → c.receiveOne data now = ({ c with traffic := counted }, [])) ∧
    ∀ sample, c.sample? data now = some sample → ∃ pending,
      c.receiveOne data now = ({ c with
        traffic := ({ counted with pending } : Traffic).smooth
          (Duration.seconds sample * Binary32.ofNat 1000) }, []) := by
  intro counted
  rw [c.sample?_of_pong hm, c.receiveOne_of_pong hm, takePong]
  rcases counted.notePong_cases hd.sequence now with he | ⟨sample, pending, he⟩ <;> rw [he]
  · refine ⟨fun _ => rfl, ?_⟩
    rintro _ ⟨⟩
  · constructor
    · rintro ⟨⟩
    · rintro _ ⟨⟩
      exact ⟨pending, rfl⟩

/-- The sample that an event gives, with the ping that is answered. -/
def sampled (c : Client) : Option ℕ → Event → Option (ℕ × Duration)
  | some n, .hear data now => (c.sample? data now).map (n, ·)
  | _, _ => none

end Client

/-- A client, and beside it what it has exchanged under its control sequence and the samples
    of the round trip that it has taken, each with the ping that was answered; the latest
    first. -/
structure Echoed where
  client : Client
  past : List Exchange := []
  samples : List (ℕ × Duration) := []

namespace Echoed

open Client (Event)

def start (config : ClientConfig) (now : Duration) : Echoed := { client := .make config now }

def step (x : Echoed) (answered : Option ℕ) (e : Event) : Echoed where
  client := (x.client.perform e).1
  past := x.client.exchanged answered e ++ x.past
  samples := (x.client.sampled answered e).toList ++ x.samples

def run (x : Echoed) (es : List (Option ℕ × Event)) : Echoed :=
  es.foldl (fun x e => x.step e.1 e.2) x

/-- What is kept beside the client does not influence it. -/
theorem client_run (x : Echoed) (es : List (Option ℕ × Event)) :
    (x.run es).client = (x.client.performAll (es.map Prod.snd)).1 := by
  induction es generalizing x with
  | nil => rfl
  | cons e rest ih => exact ih (x.step e.1 e.2)

/-- A pong under a sequence either answers a ping that was sent, or has a sequence that no
    outstanding ping has. -/
def Echoes (past : List Exchange) (sequence : UInt16) : Option ℕ → Prop
  | some n => (Exchange.sentAt? n past).isSome = true ∧ Exchange.Answers past n sequence
  | none => ∀ m ∈ Exchange.outstanding past, sequence ≠ .ofNat m

/-- The pong that is heard, if it is one, answers what it is said to answer. -/
def Permits (x : Echoed) (answered : Option ℕ) : Event → Prop
  | .act _ => True
  | .hear data _ => ∀ m ∈ Message.decode (μ := Pong) data, Echoes x.past m.1.sequence answered

/-- All pongs of a run answer what they are said to answer.  They may be lost, repeated and
    come in any order. -/
def Allows (x : Echoed) : List (Option ℕ × Event) → Prop
  | [] => True
  | (answered, e) :: rest => x.Permits answered e ∧ (x.step answered e).Allows rest

instance (past : List Exchange) (sequence : UInt16) :
    ∀ answered, Decidable (Echoes past sequence answered)
  | some _ => inferInstanceAs (Decidable (_ ∧ _))
  | none => inferInstanceAs (Decidable (∀ _ ∈ _, _))

instance (x : Echoed) (answered : Option ℕ) : ∀ e, Decidable (x.Permits answered e)
  | .act _ => inferInstanceAs (Decidable True)
  | .hear _ _ => inferInstanceAs (Decidable (∀ _ ∈ _, _))

instance decidableAllows : ∀ (es : List (Option ℕ × Event)) (x : Echoed), Decidable (x.Allows es)
  | [], _ => inferInstanceAs (Decidable True)
  | (answered, e) :: rest, x =>
    have := decidableAllows rest (x.step answered e)
    inferInstanceAs (Decidable (_ ∧ _))

/-- What is known of a client after any run: pings are pending as they are outstanding, and a
    ping that has given a sample is so no longer. -/
structure Sound (x : Echoed) : Prop where
  tracks : ∃ book, x.client.traffic.Tracks x.past book
  sequence : x.client.controlSequence = .ofNat (Exchange.sent x.past)
  nodup : (x.samples.map Prod.fst).Nodup
  spent : ∀ n ∈ x.samples.map Prod.fst,
    n < Exchange.sent x.past ∧ n ∉ Exchange.outstanding x.past

theorem sound_start (config : ClientConfig) (now : Duration) : (start config now).Sound where
  tracks := ⟨[], Traffic.tracks_nil rfl⟩
  sequence := rfl
  nodup := .nil
  spent := by simp [start]

variable {x : Echoed}

theorem Sound.ping (h : x.Sound) (answered : Option ℕ) (now : Duration) :
    (x.step answered (.act (.ping now))).Sound := by
  obtain ⟨book, hbook⟩ := h.tracks
  have hpinged := hbook.ping now
  rw [← h.sequence] at hpinged
  have hstep : x.step answered (.act (.ping now)) =
      ⟨(x.client.ping now).1, .ping now :: x.past, x.samples⟩ := by
    cases answered <;> rfl
  rw [hstep]
  refine ⟨hpinged, ?_, h.nodup, fun n hn => ?_⟩
  · show x.client.controlSequence + 1 = .ofNat (Exchange.sent x.past + 1)
    rw [h.sequence, UInt16.ofNat_add]
    rfl
  · obtain ⟨hlt, hout⟩ := h.spent n hn
    refine ⟨Nat.lt_succ_of_lt hlt, fun hin => ?_⟩
    rcases Finset.mem_insert.1 hin with rfl | hin
    · exact Nat.lt_irrefl _ hlt
    · exact hout (Exchange.makeRoom_subset _ hin)

/-- Some reports, and otherwise nothing, are exchanged. -/
theorem Sound.reports (h : x.Sound) {c : Client} {out : List Bytes}
    (hc : x.client.OnlyReports c out) :
    (⟨c, (out.map fun _ => .report) ++ x.past, x.samples⟩ : Echoed).Sound := by
  obtain ⟨book, hbook⟩ := h.tracks
  have hreports : ∀ l : List Bytes,
      Exchange.sent ((l.map fun _ => .report) ++ x.past) = Exchange.sent x.past + l.length ∧
      c.traffic.Tracks ((l.map fun _ => .report) ++ x.past) book := by
    intro l
    induction l with
    | nil => exact ⟨rfl, hbook.congr hc.pending⟩
    | cons _ l ih => exact ⟨congrArg Nat.succ ih.1, ih.2.report⟩
  obtain ⟨hsent, htracks⟩ := hreports out
  refine ⟨⟨book, htracks⟩, ?_, h.nodup, fun n hn => ?_⟩
  · show c.controlSequence = .ofNat (Exchange.sent ((out.map fun _ => .report) ++ x.past))
    rw [hc.sequence, h.sequence, hsent, UInt16.ofNat_add]
  · show n < Exchange.sent ((out.map fun _ => .report) ++ x.past) ∧
      n ∉ Exchange.outstanding ((out.map fun _ => .report) ++ x.past)
    obtain ⟨hlt, hout⟩ := h.spent n hn
    rw [hsent, htracks.outstanding, ← hbook.outstanding]
    exact ⟨Nat.lt_add_right _ hlt, hout⟩

theorem step_of_pong (x : Echoed) {data : Bytes} {hd : Header} {m : Pong}
    (hm : Message.decode data = some (hd, m)) (answered : Option ℕ) (now : Duration) :
    let noted := (x.client.traffic.countReceived data.length).notePong hd.sequence now
    x.step answered (.hear data now) =
      ⟨{ x.client with traffic := noted.2 }, (answered.map .pong).toList ++ x.past,
        (answered.bind fun n => noted.1.map (n, ·)).toList ++ x.samples⟩ := by
  intro noted
  have hclient : (x.client.perform (.hear data now)).1 = { x.client with traffic := noted.2 } :=
    congrArg Prod.fst (x.client.receiveOne_of_pong hm now)
  have hreads : Message.reads Pong data = true := by rw [Message.reads, hm]; rfl
  have hsampled : x.client.sampled answered (.hear data now) =
      answered.bind fun n => noted.1.map (n, ·) := by
    cases answered with
    | none => rfl
    | some n => rw [Client.sampled, x.client.sample?_of_pong hm]; rfl
  rw [step, hclient, hsampled, Client.exchanged, if_pos hreads]

/-- A pong for another sequence is counted, and that is all. -/
theorem Sound.other (h : x.Sound) {data : Bytes} {hd : Header} {m : Pong}
    (hm : Message.decode data = some (hd, m))
    (hother : ∀ m ∈ Exchange.outstanding x.past, hd.sequence ≠ .ofNat m) (now : Duration) :
    (x.step none (.hear data now)).Sound := by
  obtain ⟨book, hbook⟩ := h.tracks
  have hcounted : (x.client.traffic.countReceived data.length).Tracks x.past book := hbook.congr rfl
  have hquiet : x.client.OnlyReports
      { x.client with traffic := x.client.traffic.countReceived data.length } [] :=
    Client.onlyReports_nil rfl rfl
  rw [x.step_of_pong hm, hcounted.notePong_of_other hother]
  exact h.reports hquiet

/-- A ping that gives a sample was outstanding, and is so no longer. -/
theorem Sound.answered (h : x.Sound) {data : Bytes} {hd : Header} {m : Pong}
    (hm : Message.decode data = some (hd, m)) {n : ℕ} {sentAt : Duration}
    (hat : Exchange.sentAt? n x.past = some sentAt)
    (hq : Exchange.Answers x.past n hd.sequence) (now : Duration) :
    (x.step (some n) (.hear data now)).Sound := by
  obtain ⟨book, hbook⟩ := h.tracks
  have hcounted : (x.client.traffic.countReceived data.length).Tracks x.past book := hbook.congr rfl
  obtain ⟨hsample, hafter⟩ := hcounted.notePong hat hq now
  have hspent : ∀ n' ∈ x.samples.map Prod.fst, n' < Exchange.sent x.past ∧
      n' ∉ (Exchange.outstanding x.past).erase n := fun n' hn' =>
    ⟨(h.spent n' hn').1, fun hin => (h.spent n' hn').2 (Finset.mem_of_mem_erase hin)⟩
  rw [x.step_of_pong hm, hsample]
  by_cases hn : n ∈ Exchange.outstanding x.past
  · rw [if_pos hn]
    refine ⟨hafter, h.sequence, ?_, ?_⟩
    · exact List.nodup_cons.2 ⟨fun hin => (h.spent n hin).2 hn, h.nodup⟩
    · exact List.forall_mem_cons.2
        ⟨⟨Exchange.lt_sent_of_sentAt? hat, Finset.notMem_erase n _⟩, hspent⟩
  · rw [if_neg hn]
    exact ⟨hafter, h.sequence, h.nodup, hspent⟩

theorem Sound.pong (h : x.Sound) {data : Bytes} {hd : Header} {m : Pong}
    (hm : Message.decode data = some (hd, m)) {answered : Option ℕ}
    (hq : Echoes x.past hd.sequence answered) (now : Duration) :
    (x.step answered (.hear data now)).Sound := by
  cases answered with
  | none => exact h.other hm hq now
  | some n =>
    obtain ⟨sentAt, hat⟩ := Option.isSome_iff_exists.1 hq.1
    exact h.answered hm hat hq.2 now

/-- **Every event** keeps it so. -/
theorem Sound.step (h : x.Sound) {answered : Option ℕ} {e : Event} (he : x.Permits answered e) :
    (x.step answered e).Sound := by
  cases e with
  | act a =>
    rcases x.client.act_ping_or_quiet answered a with ⟨now, rfl⟩ | ⟨hnothing, hquiet⟩
    · exact h.ping answered now
    · have hnone : x.client.sampled answered (.act a) = none := by cases answered <;> rfl
      have hsound := h.reports hquiet
      rw [Echoed.step, hnothing, hnone]
      exact hsound
  | hear data now =>
    cases hm : Message.decode (μ := Pong) data with
    | some m => exact h.pong hm (he m hm) now
    | none =>
      have hreads : ¬ Message.reads Pong data = true := by rw [Message.reads, hm]; decide
      have hnone : x.client.sampled answered (.hear data now) = none := by
        cases answered with
        | none => rfl
        | some n => rw [Client.sampled, Client.sample?, hm]; rfl
      have hsound := h.reports (x.client.onlyReports_receiveOne hm now)
      rw [Echoed.step, Client.exchanged, if_neg hreads, hnone]
      exact hsound

theorem Sound.run (h : x.Sound) {es : List (Option ℕ × Event)} (hes : x.Allows es) :
    (x.run es).Sound := by
  induction es generalizing x with
  | nil => exact h
  | cons e rest ih => exact ih (h.step hes.1) hes.2

/-- **Samples of the round trip belong to their pings.**  Whatever a client does and hears,
    as long as pongs come within the window: at most 32 pings are outstanding, and the next
    goes out under the number under which it is noted.  A pong gives a sample just if the
    ping that it answers is still outstanding, and this is the time since that ping, or zero
    if the clock went back; no ping gives another.  A pong without a sample changes nothing,
    and one for another sequence has none. -/
theorem samples_belong (config : ClientConfig) (begun : Duration) {es : List (Option ℕ × Event)}
    (hes : (start config begun).Allows es) :
    let x := (start config begun).run es
    x.client = ((Client.make config begun).performAll (es.map Prod.snd)).1 ∧
    (x.client.traffic.pending.length = (Exchange.outstanding x.past).card ∧
      (Exchange.outstanding x.past).card ≤ 32) ∧
    (x.samples.map Prod.fst).Nodup ∧
    (∀ now, ∃ data hd, (x.client.ping now).2 = [data] ∧
      Message.decode data = some (hd, Ping.mk) ∧ hd.sequence = .ofNat (Exchange.sent x.past)) ∧
    ∀ data hd now, Message.decode data = some (hd, Pong.mk) →
      (∀ n sentAt, Exchange.sentAt? n x.past = some sentAt →
        Exchange.Answers x.past n hd.sequence →
        x.client.sample? data now =
          if n ∈ Exchange.outstanding x.past then some (now - sentAt) else none) ∧
      ((∀ m ∈ Exchange.outstanding x.past, hd.sequence ≠ .ofNat m) →
        x.client.sample? data now = none) ∧
      let counted := x.client.traffic.countReceived data.length
      (x.client.sample? data now = none →
        x.client.receiveOne data now = ({ x.client with traffic := counted }, [])) ∧
      ∀ sample, x.client.sample? data now = some sample → ∃ pending,
        x.client.receiveOne data now = ({ x.client with
          traffic := ({ counted with pending } : Traffic).smooth
            (Duration.seconds sample * Binary32.ofNat 1000) }, []) := by
  intro x
  have h : x.Sound := (sound_start config begun).run hes
  obtain ⟨book, hbook⟩ := h.tracks
  refine ⟨client_run _ es, ?_, h.nodup, fun now => ?_, fun data hd now hm => ?_⟩
  · rw [hbook.card_outstanding, hbook.pending, List.length_map]
    exact ⟨rfl, hbook.room⟩
  · obtain ⟨data, hd, hsent, hread, hsequence⟩ := x.client.exists_ping now
    exact ⟨data, hd, hsent, hread, hsequence.trans h.sequence⟩
  · have hcounted : (x.client.traffic.countReceived data.length).Tracks x.past book :=
      hbook.congr rfl
    refine ⟨fun n sentAt hat hanswers => ?_, fun hother => ?_, x.client.receiveOne_of_sample hm now⟩
    · rw [x.client.sample?_of_pong hm]
      exact (hcounted.notePong hat hanswers now).1
    · rw [x.client.sample?_of_pong hm, hcounted.notePong_of_other hother]

/-- A datagram that carries a message. -/
def arriving {μ : Type} [Message μ] (m : μ) (sequence : UInt16) (tick : UInt32)
    (now : Duration) : Event :=
  .hear (match Message.encode m sequence tick with
    | .ok data => data
    | .error _ => []) now

/-- Two pings, with a report of another digest between them.  The second is answered; a pong
    under the sequence of the report is not one of them. -/
def reportBetween : List (Option ℕ × Event) :=
  [(none, arriving (⟨0, 0, [⟨5, .zero, 100⟩]⟩ : Snapshot) 0 1 0),
    (none, .act (.ping 10)), (none, arriving (⟨1, 0, 0, 1⟩ : StateChecksum) 0 1 15),
    (none, .act (.ping 20)), (some 2, arriving Pong.mk 2 0 25), (none, arriving Pong.mk 1 0 26)]

/-- The first is answered late, and the second again. -/
theorem samples_belong_lateAndTwice :
    let x := (start {} 0).run reportBetween
    x.past = [.pong 2, .ping 20, .report, .ping 10] ∧ x.samples = [(2, 5)] ∧
    ∃ first second : Bytes, Message.encode Pong.mk 0 0 = .ok first ∧
      Message.encode Pong.mk 2 0 = .ok second ∧ x.client.sample? first 47 = some 37 ∧
      x.client.sample? second 47 = none := by
  intro x
  have hpast : x.past = [.pong 2, .ping 20, .report, .ping 10] := by decide +kernel
  have hsamples : x.samples = [(2, 5)] := by decide +kernel
  have hallows : (start {} 0).Allows reportBetween := by decide +kernel
  obtain ⟨first, hfirst⟩ := Message.exists_encode (m := Pong.mk) (by decide) 0 0
  obtain ⟨second, hsecond⟩ := Message.exists_encode (m := Pong.mk) (by decide) 2 0
  have hread : ∀ {sequence : UInt16} {data : Bytes}, Message.encode Pong.mk sequence 0 = .ok data →
      Message.decode data = some (Message.sentHeader Pong.mk sequence 0, Pong.mk) :=
    fun hdata => by rw [Message.decode_encode hdata]; rfl
  obtain ⟨-, -, -, -, hpong⟩ := samples_belong {} 0 hallows
  refine ⟨hpast, hsamples, first, second, hfirst, hsecond, ?_, ?_⟩
  · have hlate := (hpong first _ 47 (hread hfirst)).1 0 10
    change (Exchange.sentAt? 0 x.past = _ → Exchange.Answers x.past 0 _ →
      x.client.sample? first 47 = if 0 ∈ Exchange.outstanding x.past then _ else _) at hlate
    rw [hpast] at hlate
    exact hlate (by decide) (by decide)
  · have htwice := (hpong second _ 47 (hread hsecond)).1 2 20
    change (Exchange.sentAt? 2 x.past = _ → Exchange.Answers x.past 2 _ →
      x.client.sample? second 47 = if 2 ∈ Exchange.outstanding x.past then _ else _) at htwice
    rw [hpast] at htwice
    exact htwice (by decide) (by decide)

end Echoed

end Netplay
