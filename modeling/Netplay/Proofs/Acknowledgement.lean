/-
  Acknowledgement safety: what a client takes for confirmed is what the server
  had applied.

  A link is a server with the ledger beside it and a client at an address, with
  what either side has sent to the other.  The network is free: what was sent may
  arrive at any time, again or never.  Beside each datagram stands what it cannot
  say itself: beside the client's, how often the numbers had gone round; beside
  the server's, the full number of the newest input that was applied then.

  * `Link.step`, `Link.run`: an event, and a run; `Link.Allowed`: what is asked
    of an event;
  * `Link.InOrder`: numbers of inputs are at most the client's counter, later
    snapshots confirm no fewer of them, and the client has taken for confirmed
    what was applied;
  * `Link.InOrder.step`, `Link.inOrder_run`: events keep a link in order;
  * `Link.acknowledges_exactly`: what a client takes for confirmed, and what it
    forgets.
-/
import Netplay.Proofs.Playing
import Netplay.Proofs.Service

namespace Netplay

/-- The full number of the newest input that was applied for a client; zero if
    there is none. -/
def Observed.newest (o : Observed) (a : Address) : ℕ :=
  match o.server.roster.places.lookup a with
  | none => 0
  | some id => (Arrival.newest? (Arrival.taken (o.ledger.handled id))).getD 0

/-- A server and a client, with what has been sent. -/
structure Link where
  observed : Observed
  client : Client
  /-- Where the client sends from. -/
  home : Address
  up : List (ℕ × Bytes) := []
  /-- What the server has sent to the client. -/
  down : List (ℕ × Bytes) := []

namespace Link

/-- What can happen to a link. -/
inductive Event where
  /-- Something happens to the server; it may hear any datagram of others. -/
  | serve (rounds : ℕ) (e : Server.Event)
  /-- The server hears the datagram at some place among those of the client. -/
  | arrive (k : ℕ) (now : Duration)
  | play (a : Client.Act)
  /-- The client hears the datagram at some place among those of the server. -/
  | deliver (k : ℕ) (now : Duration)

def serve (s : Link) (rounds : ℕ) (e : Server.Event) : Link :=
  let observed := s.observed.step rounds e
  let told := (Server.sent (s.observed.server.perform e).2).filter fun d => d.peer = s.home
  { s with observed, down := s.down ++ told.map fun d => (observed.newest s.home, d.data) }

/-- How often the numbers have gone round at the command that is sent next. -/
def rounds (c : Client) : ℕ :=
  match c.buffer with
  | [] => 0
  | command :: _ => command.sequence.toNat / 65536

/-- A link after an event. -/
def step (s : Link) : Event → Link
  | .serve rounds e => s.serve rounds e
  | .arrive k now =>
    match s.up[k]? with
    | none => s
    | some (rounds, data) => s.serve rounds (.hear ⟨s.home, data⟩ now)
  | .play a =>
    let (client, out) := s.client.act a
    { s with client, up := s.up ++ out.map fun data => (rounds s.client, data) }
  | .deliver k now =>
    match s.down[k]? with
    | none => s
    | some (_, data) =>
      let (client, out) := s.client.receiveOne data now
      { s with client, up := s.up ++ out.map fun data => (0, data) }

def run (s : Link) (es : List Event) : Link := es.foldl step s

/-- A server without clients, and a client that has heard nothing. -/
def start (config : ServerConfig) (port : UInt16) (clientConfig : ClientConfig) (now : Duration)
    (home : Address) : Link :=
  { observed := Observed.start config port, client := Client.make clientConfig now, home }

/-- The snapshot that a datagram of the server is. -/
def snapshot? (x : ℕ × Bytes) : Option (Header × Snapshot) := Message.decode x.2

/-- Nobody else sends from the client's address. -/
def IsOwn (s : Link) : Event → Prop
  | .serve _ (.hear d _) => d.peer ≠ s.home
  | _ => True

/-- When a snapshot is heard that is not stale, the counter is within half a round
    of what was applied when it was sent. -/
def IsNear (s : Link) : Event → Prop
  | .deliver k _ => ∀ x ∈ s.down[k]?, ∀ y ∈ snapshot? x, ¬ s.client.IsStale y.1.tick →
      Sequence.Near s.client.inputSequence.toNat x.1
  | _ => True

/-- What is asked of an event. -/
structure Allowed (s : Link) (e : Event) : Prop where
  /-- The server's tick fits its 32 bits. -/
  ticks : (s.step e).observed.server.timestep.tick < 2 ^ 32
  /-- The client's counter does not wrap. -/
  counts : s.client.inputSequence ≤ (s.step e).client.inputSequence
  /-- The client is not dropped. -/
  stays : (s.observed.server.roster.find? s.home).isSome = true →
    ((s.step e).observed.server.roster.find? s.home).isSome = true
  /-- Its inputs are handled within half a round of the newest applied one. -/
  window : ∀ seat ∈ (s.step e).observed.server.roster.find? s.home,
    Arrival.InWindow ((s.step e).observed.ledger.handled seat.entity)
  own : s.IsOwn e
  near : s.IsNear e

/-- Every event of a run is allowed when it happens. -/
def Fair : Link → List Event → Prop
  | _, [] => True
  | s, e :: rest => s.Allowed e ∧ Fair (s.step e) rest

instance (s : Link) : (e : Event) → Decidable (s.IsOwn e)
  | .serve _ (.hear d _) => inferInstanceAs (Decidable (d.peer ≠ s.home))
  | .serve _ (.elapse _) | .serve _ (.tick _) | .serve _ (.settle _) => .isTrue trivial
  | .arrive _ _ | .play _ | .deliver _ _ => .isTrue trivial

instance (s : Link) : (e : Event) → Decidable (s.IsNear e)
  | .deliver k _ => inferInstanceAs (Decidable (∀ x ∈ s.down[k]?, ∀ y ∈ snapshot? x,
      ¬ s.client.IsStale y.1.tick → Sequence.Near s.client.inputSequence.toNat x.1))
  | .serve _ _ | .arrive _ _ | .play _ => .isTrue trivial

instance (s : Link) (e : Event) : Decidable (s.Allowed e) :=
  decidable_of_iff (_ ∧ _ ∧ _ ∧ _ ∧ _ ∧ _)
    ⟨fun ⟨h1, h2, h3, h4, h5, h6⟩ => ⟨h1, h2, h3, h4, h5, h6⟩,
      fun ⟨h1, h2, h3, h4, h5, h6⟩ => ⟨h1, h2, h3, h4, h5, h6⟩⟩

instance decidableFair : (s : Link) → (es : List Event) → Decidable (s.Fair es)
  | _, [] => .isTrue trivial
  | s, e :: rest =>
    have := decidableFair (s.step e) rest
    inferInstanceAs (Decidable (s.Allowed e ∧ Fair (s.step e) rest))

/-! ## The invariant -/

/-- Numbers are in order. -/
structure InOrder (s : Link) : Prop where
  books : Books s.observed
  /-- The client's inputs were handled within half a round of the newest. -/
  window : ∀ id, s.observed.server.roster.places.lookup s.home = some id →
    Arrival.InWindow (s.observed.ledger.handled id)
  /-- No command that is to be sent is beyond the counter. -/
  buffer : ∀ c ∈ s.client.buffer, c.sequence ≤ s.client.inputSequence
  up : ∀ x ∈ s.up, ∀ p, InputPacket.decode x.2 = some p →
    (Arrival.mk s.home x.1 p).number ≤ s.client.inputSequence.toNat
  arrived : ∀ x ∈ s.observed.ledger.arrived s.home, x.number ≤ s.client.inputSequence.toNat
  /-- Snapshots are of ticks that were and confirm inputs that were applied, by
      the low bits. -/
  told : ∀ x ∈ s.down, ∀ h m, snapshot? x = some (h, m) →
    h.tick.toNat ≤ s.observed.server.timestep.tick ∧ x.1 ≤ s.observed.newest s.home ∧
      m.lastInputSequence = UInt16.ofNat x.1
  /-- Later snapshots confirm no fewer. -/
  order : ∀ x ∈ s.down, ∀ y ∈ s.down, ∀ h m h' m', snapshot? x = some (h, m) →
    snapshot? y = some (h', m') → h.tick < h'.tick → x.1 ≤ y.1
  /-- The client takes for confirmed what was applied. -/
  acked : s.client.lastAck.toNat ≤ s.observed.newest s.home
  /-- Snapshots that are not stale confirm no fewer than those it has heard. -/
  fresh : ∀ x ∈ s.down, ∀ h m, snapshot? x = some (h, m) → ¬ s.client.IsStale h.tick →
    s.client.lastAck.toNat ≤ x.1

variable {s : Link}

theorem InOrder.newest_le (h : InOrder s) :
    s.observed.newest s.home ≤ s.client.inputSequence.toNat := by
  unfold Observed.newest
  split
  · exact Nat.zero_le _
  · rename_i id hid
    obtain ⟨-, horder, -⟩ := h.books.accounts s.home id (Roster.mem_places_of_lookup hid)
    refine Arrival.newest_le fun x hx => h.arrived x ?_
    exact horder.subset (List.mem_append_left _ ((Arrival.taken_sublist _).subset hx))

theorem inOrder_start (config : ServerConfig) (port : UInt16) (clientConfig : ClientConfig)
    (now : Duration) (home : Address) : InOrder (start config port clientConfig now home) where
  books := Observed.books_start config port
  window _ h := by cases h
  buffer _ h := by cases h
  up _ h := by cases h
  arrived _ h := by cases h
  told _ h := by cases h
  order _ h := by cases h
  acked := Nat.zero_le _
  fresh _ h := by cases h

end Link

/-! ## The server -/

namespace Books

/-- A client that is not dropped keeps its entity. -/
theorem lookup_step {o : Observed} (h : Books o) (rounds : ℕ) (e : Server.Event) {a : Address}
    (hstays : (o.server.roster.find? a).isSome = true →
      ((o.step rounds e).server.roster.find? a).isSome = true) {id : EntityId}
    (hid : o.server.roster.places.lookup a = some id) :
    (o.step rounds e).server.roster.places.lookup a = some id := by
  rcases h.sound.lookup_perform e hid with hafter | hafter
  · exact hafter
  · rw [Roster.isSome_find?, Roster.isSome_find?, hid] at hstays
    have hsome := hstays rfl
    rw [show (o.step rounds e).server.roster.places.lookup a = none from hafter] at hsome
    cases hsome

/-- **What was applied for a client** does not become less as long as it is not
    dropped. -/
theorem newest_le_step {o : Observed} (h : Books o) (rounds : ℕ) (e : Server.Event) {a : Address}
    (hstays : (o.server.roster.find? a).isSome = true →
      ((o.step rounds e).server.roster.find? a).isSome = true) :
    o.newest a ≤ (o.step rounds e).newest a := by
  unfold Observed.newest
  cases hid : o.server.roster.places.lookup a with
  | none => exact Nat.zero_le _
  | some id =>
    have hafter := h.lookup_step rounds e hstays hid
    obtain ⟨more, hmore⟩ := h.handled_step rounds e (Roster.mem_places_of_lookup hid)
      (Roster.mem_places_of_lookup hafter)
    rw [hafter]
    dsimp only
    rw [hmore, Arrival.taken_append]
    exact Arrival.newest_le fun x hx => Arrival.number_le_newest (List.mem_append_left _ hx)

/-- **What a server tells a client**: the tick, and of the newest input that was
    applied for it the low bits. -/
theorem told_step {o : Observed} (h : Books o) {rounds : ℕ} {e : Server.Event} {a : Address}
    (hticks : (o.step rounds e).server.timestep.tick < 2 ^ 32)
    (hstays : (o.server.roster.find? a).isSome = true →
      ((o.step rounds e).server.roster.find? a).isSome = true)
    (hwindow : ∀ id, (o.step rounds e).server.roster.places.lookup a = some id →
      Arrival.InWindow ((o.step rounds e).ledger.handled id))
    {d : Datagram} (hd : d ∈ Server.sent (o.server.perform e).2) (hpeer : d.peer = a) {hd' : Header}
    {m : Snapshot} (hm : Message.decode d.data = some (hd', m)) :
    o.server.timestep.tick < hd'.tick.toNat ∧
      hd'.tick.toNat = (o.step rounds e).server.timestep.tick ∧
      m.lastInputSequence = UInt16.ofNat ((o.step rounds e).newest a) := by
  cases e with
  | elapse _ => cases hd
  | settle _ => cases hd
  | hear d' now =>
    have hanswer : Server.IsAnswer d.data :=
      Server.isAnswer_of_receiveOne (Server.mem_sent.1 hd)
    rw [hanswer.1] at hm
    cases hm
  | tick now =>
    have hbooks := h.step rounds (.tick now)
    have hserver : (o.step rounds (.tick now)).server = (o.server.perform (.tick now)).1 := rfl
    rcases o.server.perform_tick_cases now with he | ⟨t, ht, he⟩
    · rw [he] at hd
      cases hd
    · set n := o.server.timestep.tick + 1 with hn
      set base : Server := { o.server with timestep := t } with hbase
      have hsound : base.Sound := h.sound.congr rfl rfl rfl rfl rfl
      have hafter : (o.step rounds (.tick now)).server = (base.tick n now).1 := by rw [hserver, he]
      have hclock : (o.step rounds (.tick now)).server.timestep.tick = n := by
        rw [hafter, Server.timestep_tick]
        exact ht
      rw [he] at hd
      obtain ⟨seat, hseat, hsnapshot | hdigests⟩ := Server.mem_sent_tick (Server.mem_sent.1 hd)
      · rw [hpeer] at hseat
        have hplace : (a, seat.entity) ∈ o.server.roster.places := List.mem_map_of_mem hseat
        have hid := h.lookup_step rounds (.tick now) hstays
          (Roster.lookup_of_mem_places h.sound.addresses hplace)
        have hmem := Roster.mem_places_of_lookup hid
        obtain ⟨-, -, hleads⟩ := hbooks.accounts a seat.entity hmem
        rw [hafter] at hmem
        obtain ⟨-, -, hlast⟩ := hsound.kept_tick hmem
        rw [Snapshot.decode_encode hsnapshot] at hm
        split_ifs at hm
        cases hm
        have htick : (UInt32.ofNat n).toNat = n := UInt32.toNat_ofNat_of_lt' (hclock ▸ hticks)
        refine ⟨?_, ?_, ?_⟩
        · show _ < (UInt32.ofNat n).toNat
          rw [htick]
          exact Nat.lt_succ_self _
        · show (UInt32.ofNat n).toNat = _
          rw [htick, hclock]
        · show (((base.simulated n).steering.lastApplied.get? seat.entity).getD 0) = _
          rw [← hlast, ← hafter, hleads.lastApplied_eq (hwindow _ hid), Observed.newest, hid]
      · rw [Message.decode_eq_none_of_kind hdigests (by decide)] at hm
        cases hm

end Books

/-- What has arrived from an address is what had before, and what was heard from
    there. -/
theorem Observed.mem_arrived_step {o : Observed} {rounds : ℕ} {e : Server.Event} {a : Address}
    {x : Arrival} (hx : x ∈ (o.step rounds e).ledger.arrived a) : x ∈ o.ledger.arrived a ∨
      ∃ d now p, e = .hear d now ∧ d.peer = a ∧ InputPacket.decode d.data = some p ∧
        x = ⟨a, rounds, p⟩ := by
  cases e with
  | elapse d => exact Or.inl hx
  | hear d now =>
    rcases Ledger.mem_arrived_hear hx with hx | ⟨rfl, p, hp, rfl⟩
    · exact Or.inl hx
    · exact Or.inr ⟨d, now, p, rfl, rfl, hp, rfl⟩
  | tick now =>
    left
    unfold step at hx
    dsimp only at hx
    split at hx
    · exact hx
    · exact hx
  | settle outcomes => exact Or.inl hx

namespace Link

variable {s : Link}

/-- **The server keeps a link in order**, if what it hears from the client is what
    that has sent. -/
theorem InOrder.serve (h : InOrder s) {rounds : ℕ} {e : Server.Event}
    (hticks : (s.serve rounds e).observed.server.timestep.tick < 2 ^ 32)
    (hstays : (s.observed.server.roster.find? s.home).isSome = true →
      ((s.serve rounds e).observed.server.roster.find? s.home).isSome = true)
    (hwindow : ∀ id, (s.serve rounds e).observed.server.roster.places.lookup s.home = some id →
      Arrival.InWindow ((s.serve rounds e).observed.ledger.handled id))
    (hown : ∀ d now p, e = .hear d now → d.peer = s.home → InputPacket.decode d.data = some p →
      (Arrival.mk s.home rounds p).number ≤ s.client.inputSequence.toNat) :
    InOrder (s.serve rounds e) := by
  have hclock : s.observed.server.timestep.tick ≤
      (s.serve rounds e).observed.server.timestep.tick :=
    s.observed.server.tick_le_perform e
  have hgrows : s.observed.newest s.home ≤ (s.serve rounds e).observed.newest s.home :=
    h.books.newest_le_step rounds e hstays
  -- what is new is of a new tick and confirms all that is applied
  have hnew : ∀ x ∈ (s.serve rounds e).down, x ∈ s.down ∨
      x.1 = (s.serve rounds e).observed.newest s.home ∧ ∀ hd m, snapshot? x = some (hd, m) →
        s.observed.server.timestep.tick < hd.tick.toNat ∧
        hd.tick.toNat = (s.serve rounds e).observed.server.timestep.tick ∧
        m.lastInputSequence = UInt16.ofNat x.1 := by
    intro x hx
    rcases List.mem_append.1 hx with hx | hx
    · exact Or.inl hx
    · obtain ⟨d, hd, rfl⟩ := List.mem_map.1 hx
      obtain ⟨hsent, hpeer⟩ := List.mem_filter.1 hd
      exact Or.inr ⟨rfl, fun hd' m hm =>
        h.books.told_step hticks hstays hwindow hsent (of_decide_eq_true hpeer) hm⟩
  refine ⟨h.books.step rounds e, hwindow, h.buffer, h.up, ?_, ?_, ?_, h.acked.trans hgrows, ?_⟩
  · intro x hx
    rcases Observed.mem_arrived_step hx with hx | ⟨d, now, p, he, hpeer, hp, rfl⟩
    · exact h.arrived x hx
    · exact hown d now p he hpeer hp
  · intro x hx hd m hm
    rcases hnew x hx with hx | ⟨hnewest, hx⟩
    · obtain ⟨htick, hle, hlow⟩ := h.told x hx hd m hm
      exact ⟨htick.trans hclock, hle.trans hgrows, hlow⟩
    · obtain ⟨-, htick, hlow⟩ := hx hd m hm
      exact ⟨htick.le, hnewest.le, hlow⟩
  · intro x hx y hy hd m hd' m' hm hm' hlt
    rw [UInt32.lt_iff_toNat_lt] at hlt
    rcases hnew x hx with hx | ⟨hxnewest, hx⟩
    · rcases hnew y hy with hy | ⟨hynewest, -⟩
      · exact h.order x hx y hy hd m hd' m' hm hm' (UInt32.lt_iff_toNat_lt.2 hlt)
      · obtain ⟨-, hle, -⟩ := h.told x hx hd m hm
        rw [hynewest]
        exact hle.trans hgrows
    · obtain ⟨hxtick, hxclock, -⟩ := hx hd m hm
      rcases hnew y hy with hy | ⟨-, hy⟩
      · obtain ⟨hytick, -⟩ := h.told y hy hd' m' hm'
        exact absurd (hlt.trans_le hytick) (Nat.lt_asymm hxtick)
      · obtain ⟨-, hyclock, -⟩ := hy hd' m' hm'
        rw [hxclock, hyclock] at hlt
        exact absurd hlt (Nat.lt_irrefl _)
  · intro x hx hd m hm hstale
    rcases hnew x hx with hx | ⟨hnewest, -⟩
    · exact h.fresh x hx hd m hm hstale
    · rw [hnewest]
      exact h.acked.trans hgrows

/-! ## The client -/

theorem InOrder.moved (h : InOrder s) {c : Client} {out : List (ℕ × Bytes)}
    (hcounts : s.client.inputSequence ≤ c.inputSequence)
    (hbuffer : ∀ x ∈ c.buffer, x.sequence ≤ c.inputSequence)
    (hout : ∀ x ∈ out, ∀ p, InputPacket.decode x.2 = some p →
      (Arrival.mk s.home x.1 p).number ≤ c.inputSequence.toNat)
    (hacked : c.lastAck.toNat ≤ s.observed.newest s.home)
    (hfresh : ∀ x ∈ s.down, ∀ h m, snapshot? x = some (h, m) → ¬ c.IsStale h.tick →
      c.lastAck.toNat ≤ x.1) : InOrder { s with client := c, up := s.up ++ out } where
  books := h.books
  window := h.window
  buffer := hbuffer
  up x hx p hp := by
    rcases List.mem_append.1 hx with hx | hx
    · exact (h.up x hx p hp).trans (UInt32.le_iff_toNat_le.1 hcounts)
    · exact hout x hx p hp
  arrived x hx := (h.arrived x hx).trans (UInt32.le_iff_toNat_le.1 hcounts)
  told := h.told
  order := h.order
  acked := hacked
  fresh := hfresh

theorem number_of_decode {home : Address} {c : Command} {playerId : UInt32} {p : InputPacket}
    (hp : InputPacket.decode (c.toPacket playerId).encode = some p) :
    (Arrival.mk home (c.sequence.toNat / 65536) p).number = c.sequence.toNat := by
  rw [Arrival.number, Command.sequence_of_decode hp, UInt32.toNat_toUInt16]
  exact Nat.div_add_mod' _ _

theorem InOrder.play (h : InOrder s) (a : Client.Act)
    (hcounts : s.client.inputSequence ≤ (s.step (.play a)).client.inputSequence) :
    InOrder (s.step (.play a)) := by
  have hstep : s.step (.play a) = { s with
      client := (s.client.act a).1
      up := s.up ++ (s.client.act a).2.map fun data => (rounds s.client, data) } := rfl
  rw [hstep] at hcounts ⊢
  rcases s.client.act_cases a with ⟨t, -, he⟩ | ⟨command, rest, sender, hbuffer, he⟩ |
    ⟨_, _, _, _, _, out, -, he, hout⟩
  · obtain ⟨position, world, htick, -⟩ := s.client.tick_cases
    rw [he, htick] at hcounts ⊢
    refine h.moved hcounts ?_ (by simp) h.acked h.fresh
    intro x hx
    rcases List.mem_append.1 hx with hx | hx
    · exact UInt32.le_trans (h.buffer x hx) hcounts
    · rw [List.mem_singleton.1 hx]
      exact UInt32.le_refl _
  · rw [he]
    have hle := h.buffer command (hbuffer ▸ List.mem_cons_self)
    refine h.moved (UInt32.le_refl _) ?_ ?_ h.acked h.fresh
    · intro x hx
      exact h.buffer x (hbuffer ▸ List.mem_cons_of_mem _ hx)
    · intro x hx p hp
      obtain rfl := List.mem_singleton.1 hx
      have hrounds : rounds s.client = command.sequence.toNat / 65536 := by
        rw [rounds, hbuffer]
      dsimp only
      rw [hrounds, number_of_decode hp]
      exact UInt32.le_iff_toNat_le.1 hle
  · rw [he]
    refine h.moved (UInt32.le_refl _) h.buffer ?_ h.acked h.fresh
    intro x hx p hp
    obtain ⟨data, hdata, rfl⟩ := List.mem_map.1 hx
    obtain ⟨_, _, hping⟩ := hout data hdata
    rw [InputPacket.decode_eq_none_of_message hping (by decide)] at hp
    cases hp

/-- **What a snapshot confirms** is read as the full number. -/
theorem InOrder.widen (h : InOrder s) {x : ℕ × Bytes} (hx : x ∈ s.down) {hd : Header} {m : Snapshot}
    (hm : snapshot? x = some (hd, m)) (hnear : Sequence.Near s.client.inputSequence.toNat x.1) :
    (Sequence.widen s.client.inputSequence m.lastInputSequence).toNat = x.1 := by
  obtain ⟨-, hle, hlow⟩ := h.told x hx hd m hm
  have hcounter := h.newest_le
  have hlt := s.client.inputSequence.toNat_lt
  rw [hlow]
  exact Sequence.toNat_widen_of_near (by omega) hnear

/-- What is taken for confirmed after a snapshot that is not stale. -/
theorem InOrder.confirmed (h : InOrder s) {x : ℕ × Bytes} (hx : x ∈ s.down) {hd : Header}
    {m : Snapshot} (hm : snapshot? x = some (hd, m)) (hstale : ¬ s.client.IsStale hd.tick)
    (hnear : Sequence.Near s.client.inputSequence.toNat x.1) (traffic : Traffic) :
    let after := ({ s.client with traffic }).applySnapshot hd.tick m
    s.client.lastAck.toNat ≤ after.lastAck.toNat ∧ after.lastAck.toNat ≤ x.1 := by
  have hle := h.fresh x hx hd m hm hstale
  rcases ({ s.client with traffic }).lastAck_applySnapshot hd.tick m with ⟨hack, -⟩ | ⟨-, hack, -⟩
  · simp only [hack]
    exact ⟨le_rfl, hle⟩
  · have hwiden := h.widen hx hm hnear
    simp only [hack, hwiden]
    exact ⟨hle, le_rfl⟩

theorem InOrder.deliver (h : InOrder s) {k : ℕ} {now : Duration}
    (hnear : ∀ x hd m, s.down[k]? = some x → snapshot? x = some (hd, m) →
      ¬ s.client.IsStale hd.tick → Sequence.Near s.client.inputSequence.toNat x.1) :
    InOrder (s.step (.deliver k now)) ∧
      s.client.lastAck ≤ (s.step (.deliver k now)).client.lastAck := by
  unfold step
  dsimp only
  split
  · exact ⟨h, UInt32.le_refl _⟩
  · rename_i newest data hk
    have hx : (newest, data) ∈ s.down := List.mem_of_getElem? hk
    cases hm : Message.decode (μ := Snapshot) data with
    | none =>
      obtain ⟨_, _, _, _, _, _, _, out, he, -, hout⟩ := s.client.receiveOne_of_other hm now
      rw [he]
      refine ⟨h.moved (UInt32.le_refl _) h.buffer ?_ h.acked h.fresh, UInt32.le_refl _⟩
      intro x hx p hp
      obtain ⟨data', hdata', rfl⟩ := List.mem_map.1 hx
      obtain ⟨_, _, _, hreport⟩ := hout data' hdata'
      rw [InputPacket.decode_eq_none_of_message hreport (by decide)] at hp
      cases hp
    | some heard =>
      obtain ⟨hd, m⟩ := heard
      obtain ⟨traffic, he⟩ := s.client.receiveOne_of_snapshot hm now
      obtain ⟨hcounter, hbuffer⟩ := ({ s.client with traffic }).issued_applySnapshot hd.tick m
      rw [he]
      by_cases hstale : s.client.IsStale hd.tick
      · have hstale' : ({ s.client with traffic } : Client).IsStale hd.tick := hstale
        rw [Client.applySnapshot_of_stale hstale']
        exact ⟨h.moved (UInt32.le_refl _) h.buffer (by simp) h.acked h.fresh, UInt32.le_refl _⟩
      · obtain ⟨hgrows, hle⟩ := h.confirmed hx hm hstale (hnear _ _ _ hk hm hstale) traffic
        obtain ⟨-, hnewest, -⟩ := h.told _ hx hd m hm
        have hlast := Client.lastSnapshotTick_applySnapshot
          (show ¬ ({ s.client with traffic } : Client).IsStale hd.tick from hstale) m
        refine ⟨h.moved ?_ ?_ (by simp) (hle.trans hnewest) ?_, UInt32.le_iff_toNat_le.2 hgrows⟩
        · rw [hcounter]
          exact UInt32.le_refl _
        · rw [hcounter, hbuffer]
          exact h.buffer
        · -- what is not stale any more is of a later tick
          intro y hy hd' m' hm' hstale'
          have hlt : hd.tick < hd'.tick := UInt32.not_le.1 fun hge => hstale' ⟨hd.tick, hlast, hge⟩
          exact hle.trans (h.order _ hx y hy hd m hd' m' hm hm' hlt)

/-! ## Runs -/

/-- **Every event keeps a link in order**, and what is taken for confirmed does
    not become less. -/
theorem InOrder.step (h : InOrder s) {e : Event} (hallowed : s.Allowed e) :
    InOrder (s.step e) ∧ s.client.lastAck ≤ (s.step e).client.lastAck := by
  have hwindow : ∀ id, (s.step e).observed.server.roster.places.lookup s.home = some id →
      Arrival.InWindow ((s.step e).observed.ledger.handled id) := by
    intro id hid
    rw [← Roster.places_find?] at hid
    obtain ⟨seat, hseat, rfl⟩ := Option.map_eq_some_iff.1 hid
    exact hallowed.window seat hseat
  cases e with
  | serve rounds e =>
    refine ⟨h.serve hallowed.ticks hallowed.stays hwindow ?_, UInt32.le_refl _⟩
    intro d now p he hpeer _
    subst he
    exact absurd hpeer hallowed.own
  | arrive k now =>
    obtain ⟨hticks, -, hstays, -, -, -⟩ := hallowed
    unfold Link.step at hticks hstays hwindow ⊢
    dsimp only at hticks hstays hwindow ⊢
    split
    · exact ⟨h, UInt32.le_refl _⟩
    · rename_i rounds data hk
      rw [hk] at hticks hstays hwindow
      refine ⟨h.serve hticks hstays hwindow ?_, UInt32.le_refl _⟩
      intro d now' p he _ hp
      cases he
      exact h.up _ (List.mem_of_getElem? hk) p hp
  | play a =>
    refine ⟨h.play a hallowed.counts, ?_⟩
    show s.client.lastAck ≤ (s.client.act a).1.lastAck
    rw [Client.lastAck_act]
    exact UInt32.le_refl _
  | deliver k now =>
    exact h.deliver fun x hd m hk hm hstale => hallowed.near x hk (hd, m) hm hstale

/-- **Every run keeps a link in order.** -/
theorem inOrder_run (h : InOrder s) {es : List Event} (hfair : s.Fair es) : InOrder (s.run es) := by
  induction es generalizing s with
  | nil => exact h
  | cons e rest ih =>
    obtain ⟨hallowed, hrest⟩ := hfair
    exact ih (h.step hallowed).1 hrest

theorem home_step (s : Link) (e : Event) : (s.step e).home = s.home := by
  cases e with
  | serve rounds e => rfl
  | arrive k now =>
    unfold step
    dsimp only
    split <;> rfl
  | play a => rfl
  | deliver k now =>
    unfold step
    dsimp only
    split <;> rfl

theorem home_run (s : Link) (es : List Event) : (s.run es).home = s.home := by
  induction es generalizing s with
  | nil => rfl
  | cons e rest ih => exact (ih (s.step e)).trans (s.home_step e)

/-- **Acknowledgement safety.**  However the inputs of a client and the server's
    datagrams are lost, repeated, delayed and reordered: what the client takes for
    confirmed never becomes less and is never beyond its counter; a snapshot by
    which it corrects its player confirms exactly the newest input that had been
    applied when it was sent, and no datagram takes from the player's history what
    is newer than the inputs that were applied. -/
theorem acknowledges_exactly (config : ServerConfig) (port : UInt16) (clientConfig : ClientConfig)
    (now : Duration) (home : Address) (es : List Event) (e : Event)
    (hfair : (start config port clientConfig now home).Fair es)
    (hallowed : ((start config port clientConfig now home).run es).Allowed e) :
    let s := (start config port clientConfig now home).run es
    let after := s.step e
    (s.client.lastAck ≤ after.client.lastAck ∧
      after.client.lastAck ≤ after.client.inputSequence) ∧
    ∀ k later newest data, e = .deliver k later → s.down[k]? = some (newest, data) →
      (∀ h m, Message.decode data = some (h, m) →
        ((after.client.lastAck = s.client.lastAck ∧ after.client.world = s.client.world ∧
            (s.client.IsStale h.tick ∨ m.entity? m.playerEntity = none ∨ s.client.player = none)) ∨
          ∃ (c : Client) (id : EntityId) (seen : Sighting), after.client = c.follow m id seen ∧
            after.client.lastAck.toNat = newest) ∧
        s.client.KeepsNewer after.client newest) ∧
      s.client.KeepsNewer after.client (s.observed.newest home) := by
  intro s after
  have h : InOrder s := inOrder_run (inOrder_start config port clientConfig now home) hfair
  have hhome : s.home = home := home_run _ es
  obtain ⟨hafter, hgrows⟩ := h.step hallowed
  refine ⟨⟨hgrows, UInt32.le_iff_toNat_le.2 (hafter.acked.trans hafter.newest_le)⟩, ?_⟩
  rintro k later newest data rfl hk
  have hclient : after.client = (s.client.receiveOne data later).1 := by
    show (s.step (.deliver k later)).client = _
    simp only [step, hk]
  have hobserved : after.observed = s.observed := by
    show (s.step (.deliver k later)).observed = _
    simp only [step, hk]
  have hkeeps : s.client.KeepsNewer after.client after.client.lastAck.toNat :=
    hclient ▸ s.client.keepsNewer_receiveOne data later
  refine ⟨fun hd m hm => ?_, ?_⟩
  · obtain ⟨traffic, he⟩ := s.client.receiveOne_of_snapshot hm later
    have hheard : after.client = ({ s.client with traffic }).applySnapshot hd.tick m := by
      rw [hclient, he]
    rcases ({ s.client with traffic }).lastAck_applySnapshot hd.tick m with ⟨hack, hworld, hwhy⟩ |
      ⟨hstale, hack, c, id, seen, hfollow, -⟩
    · rw [← hheard] at hack hworld
      exact ⟨Or.inl ⟨hack, hworld, hwhy⟩, Client.keepsNewer_of_world_eq hworld _⟩
    · rw [← hheard] at hack hfollow
      have hnear := hallowed.near (newest, data) hk (hd, m) hm hstale
      have hexact : after.client.lastAck.toNat = newest := by
        rw [hack]
        exact h.widen (List.mem_of_getElem? hk) hm hnear
      exact ⟨Or.inr ⟨c, id, seen, hfollow, hexact⟩, hexact ▸ hkeeps⟩
  · have hacked := hafter.acked
    rw [show (s.step (.deliver k later)).observed = s.observed from hobserved,
      show (s.step (.deliver k later)).home = home from (home_step s _).trans hhome] at hacked
    exact hkeeps.mono hacked

/-- The client joins with its first command and hears of it; then it issues two
    more, of which the second is on its way when the server applies the first and
    tells of it. -/
def secondSnapshot : List Event :=
  let issued : List Event := [.play (.elapse 17000000), .play .tick, .play (.send (.ok ()))]
  let told : List Event :=
    [.serve 0 (.elapse 50000000), .serve 0 (.tick 0), .serve 0 (.tick 0), .serve 0 (.tick 0)]
  [.play (.start (.ok ()))] ++ issued ++ [.arrive 0 0] ++ told ++ [.deliver 0 0] ++ issued ++
    issued ++ [.arrive 1 0] ++ told

/-- When that snapshot is delivered, two of the three commands are confirmed. -/
theorem acknowledges_exactly_secondSnapshot :
    let s := (start {} 4000 {} 0 ⟨.localhost, 4001⟩).run secondSnapshot
    let after := s.step (.deliver 2 0)
    (s.client.player = some 1 ∧ s.client.inputSequence = 3 ∧ s.client.lastAck = 1 ∧
      after.client.lastAck = 2) ∧
    (s.client.lastAck ≤ after.client.lastAck ∧
      after.client.lastAck ≤ after.client.inputSequence) ∧
    ∀ k later newest data, Event.deliver 2 0 = .deliver k later → s.down[k]? = some (newest, data) →
      (∀ h m, Message.decode data = some (h, m) →
        ((after.client.lastAck = s.client.lastAck ∧ after.client.world = s.client.world ∧
            (s.client.IsStale h.tick ∨ m.entity? m.playerEntity = none ∨ s.client.player = none)) ∨
          ∃ (c : Client) (id : EntityId) (seen : Sighting), after.client = c.follow m id seen ∧
            after.client.lastAck.toNat = newest) ∧
        s.client.KeepsNewer after.client newest) ∧
      s.client.KeepsNewer after.client (s.observed.newest ⟨.localhost, 4001⟩) := by
  exact ⟨by decide +kernel, acknowledges_exactly {} 4000 {} 0 ⟨.localhost, 4001⟩ secondSnapshot
    (.deliver 2 0) (by decide +kernel) (by decide +kernel)⟩

end Link

end Netplay
