/-
  How a server serves a client: which inputs it applies, in which order, and
  where they lead.

  A ledger is kept beside the server.  It notes each input packet that arrives
  with the address it came from and the full number of its sample, of which the
  packet carries the low bits, and for each entity the inputs that were handled
  with what the server answered.  The ledger only looks on (`server_run`).

  * `Books`: the ledger's queue is the server's, and each client has an account;
  * `Account`: what was handled and what waits is in the order of arrival, the
    entity is where the inputs that took effect lead, and the newest of them is
    remembered;
  * `Books.step`, `books_run`: every event keeps the books;
  * `serves_in_order`: what a run of a server does with a client's inputs.
-/
import Mathlib.Logic.Function.Basic
import Netplay.Proofs.Numbers
import Netplay.Proofs.Seating

namespace Netplay

/-! ## Arrivals -/

/-- An input packet as it arrived. -/
structure Arrival where
  source : Address
  /-- How often the numbers had gone round when its sample was taken. -/
  rounds : ℕ
  packet : InputPacket
  deriving DecidableEq

namespace Arrival

/-- The full number of the sample. -/
def number (x : Arrival) : ℕ := x.rounds * 65536 + x.packet.header.sequence.toNat

theorem ofNat_number (x : Arrival) : UInt16.ofNat x.number = x.packet.header.sequence := by
  have hlt := x.packet.header.sequence.toNat_lt
  refine UInt16.toNat_inj.1 ?_
  rw [UInt16.toNat_ofNat', number]
  omega

def newest? (xs : List Arrival) : Option ℕ := (xs.map number).max?

/-- Of rising numbers the last is the greatest. -/
theorem newest?_of_rising {xs : List Arrival} (h : xs.Pairwise fun x y => x.number < y.number) :
    newest? xs = xs.getLast?.map number := by
  rcases List.eq_nil_or_concat' xs with rfl | ⟨ys, y, rfl⟩
  · rfl
  · rw [List.getLast?_concat, newest?, List.map_append]
    refine List.max?_eq_some_iff.2 ⟨by simp, fun n hn => ?_⟩
    rcases List.mem_append.1 hn with hn | hn
    · obtain ⟨x, hx, rfl⟩ := List.mem_map.1 hn
      exact Nat.le_of_lt ((List.pairwise_append.1 h).2.2 x hx y (List.mem_singleton_self y))
    · exact Nat.le_of_eq (by simpa using hn)

theorem number_le_newest {xs : List Arrival} {x : Arrival} (h : x ∈ xs) :
    x.number ≤ (newest? xs).getD 0 := by
  have hx : x.number ∈ xs.map number := List.mem_map_of_mem h
  cases hmax : newest? xs with
  | none => exact absurd (List.max?_eq_none_iff.1 hmax) (List.ne_nil_of_mem hx)
  | some n => exact (List.max?_eq_some_iff.1 hmax).2 _ hx

theorem newest_le {xs : List Arrival} {n : ℕ} (h : ∀ x ∈ xs, x.number ≤ n) :
    (newest? xs).getD 0 ≤ n := by
  cases hmax : newest? xs with
  | none => exact Nat.zero_le n
  | some k =>
    obtain ⟨x, hx, rfl⟩ := List.mem_map.1 (List.max?_eq_some_iff.1 hmax).1
    exact h x hx

/-- The inputs that took effect. -/
def taken (handled : List (Arrival × Bool)) : List Arrival := (handled.filter (·.2)).map (·.1)

theorem taken_append (handled more : List (Arrival × Bool)) :
    taken (handled ++ more) = taken handled ++ taken more := by
  simp only [taken, List.filter_append, List.map_append]

theorem taken_concat (handled : List (Arrival × Bool)) (x : Arrival) (took : Bool) :
    taken (handled ++ [(x, took)]) = taken handled ++ if took then [x] else [] := by
  rw [taken, List.filter_append, List.map_append]
  cases took <;> rfl

theorem taken_sublist (handled : List (Arrival × Bool)) :
    (taken handled).Sublist (handled.map (·.1)) := List.filter_sublist.map _

/-- Every input was, when it was handled, within half a round of the newest one
    that had taken effect. -/
def InWindow (handled : List (Arrival × Bool)) : Prop :=
  ∀ i (h : i < handled.length), ∀ n ∈ newest? (taken (handled.take i)),
    Sequence.Near (handled[i].1.number) n

instance (handled : List (Arrival × Bool)) : Decidable (InWindow handled) :=
  inferInstanceAs (Decidable (∀ i (h : i < handled.length), ∀ n ∈ newest? (taken (handled.take i)),
    Sequence.Near (handled[i].1.number) n))

theorem InWindow.of_append {handled more : List (Arrival × Bool)} (h : InWindow (handled ++ more)) :
    InWindow handled := by
  intro i hi n hn
  have hlt : i < (handled ++ more).length := by
    rw [List.length_append]
    omega
  have hnear := h i hlt n (by rwa [List.take_append_of_le_length (Nat.le_of_lt hi)])
  rwa [List.getElem_append_left hi] at hnear

theorem InWindow.near {handled : List (Arrival × Bool)} {x : Arrival} {took : Bool}
    (h : InWindow (handled ++ [(x, took)])) {n : ℕ} (hn : newest? (taken handled) = some n) :
    Sequence.Near x.number n := by
  have hnear := h handled.length (by simp) n (by rw [List.take_left]; exact hn)
  rwa [List.getElem_concat_length rfl] at hnear

/-- Where inputs lead from the origin. -/
def walk (speed dt : Binary32) (xs : List Arrival) : Vec2 :=
  xs.foldl (fun position x => Movement.apply position x.packet.buttons speed dt) Vec2.zero

end Arrival

/-! ## What applying answers -/

namespace Steering

/-- Which of some inputs take effect. -/
def verdicts (s : Steering) (r : World) : List PendingInput → List Bool
  | [] => []
  | p :: ps => (s.apply r p).1 :: verdicts (s.apply r p).2.1 (s.apply r p).2.2 ps

theorem length_verdicts (s : Steering) (r : World) (ps : List PendingInput) :
    (s.verdicts r ps).length = ps.length := by
  induction ps generalizing s r with
  | nil => rfl
  | cons p rest ih => rw [verdicts, List.length_cons, List.length_cons, ih]

/-- An entity is where the inputs that took effect lead it, and the newest of
    them is remembered. -/
structure Leads (s : Steering) (r : World) (id : EntityId) (handled : List (Arrival × Bool)) :
    Prop where
  place : (r.get? .transform id).map (·.position) =
    some (Arrival.walk s.speed s.dt (Arrival.taken handled))
  newest : s.lastApplied.get? id =
    (Arrival.taken handled).getLast?.map fun x => UInt16.ofNat x.number
  /-- The inputs that took effect are in the order of their numbers. -/
  rising : Arrival.InWindow handled →
    (Arrival.taken handled).Pairwise fun x y => x.number < y.number

/-- What is remembered is the low bits of the newest number, or zero. -/
theorem Leads.lastApplied_eq {s : Steering} {r : World} {id : EntityId}
    {handled : List (Arrival × Bool)} (h : s.Leads r id handled)
    (hwindow : Arrival.InWindow handled) : (s.lastApplied.get? id).getD 0 =
      UInt16.ofNat ((Arrival.newest? (Arrival.taken handled)).getD 0) := by
  rw [h.newest, Arrival.newest?_of_rising (h.rising hwindow)]
  cases (Arrival.taken handled).getLast? <;> rfl

theorem Leads.apply_of_ne {s : Steering} {r : World} {id : EntityId}
    {handled : List (Arrival × Bool)} (h : s.Leads r id handled) {p : PendingInput}
    (hne : id ≠ p.entity) : (s.apply r p).2.1.Leads (s.apply r p).2.2 id handled := by
  have hsame := alikeAt_apply s r hne.symm
  refine ⟨?_, hsame.lastApplied.trans h.newest, h.rising⟩
  rw [hsame.get?, h.place, speed_apply, dt_apply]

/-- **An input for the entity** takes effect if it is newer than all that did
    before. -/
theorem Leads.apply {s : Steering} {r : World} {id : EntityId} {handled : List (Arrival × Bool)}
    (h : s.Leads r id handled) (x : Arrival) :
    (s.apply r ⟨id, x.packet⟩).2.1.Leads (s.apply r ⟨id, x.packet⟩).2.2 id
      (handled ++ [(x, (s.apply r ⟨id, x.packet⟩).1)]) := by
  rcases s.apply_cases r ⟨id, x.packet⟩ with ⟨haccepts, he⟩ | ⟨-, he⟩
  · rw [he]
    refine ⟨?_, ?_, fun hwindow => ?_⟩
    · rw [World.get?_modify_self, Arrival.taken_concat]
      obtain ⟨t, ht, hposition⟩ := Option.map_eq_some_iff.1 h.place
      rw [ht]
      simp [steer, Arrival.walk, hposition]
    · rw [EntityMap.get?_insert, if_pos rfl, Arrival.taken_concat]
      simp [Arrival.ofNat_number]
    · have hrising := h.rising hwindow.of_append
      rw [Arrival.taken_concat]
      refine List.pairwise_append.2 ⟨hrising, List.pairwise_singleton _ _, fun y hy z hz => ?_⟩
      obtain rfl := List.mem_singleton.1 hz
      -- the last that took effect is the greatest, and the input is newer than that
      obtain ⟨ys, last, hlast⟩ := (List.eq_nil_or_concat' (Arrival.taken handled)).resolve_left
        (List.ne_nil_of_mem hy)
      have hget : (Arrival.taken handled).getLast? = some last := by
        rw [hlast, List.getLast?_concat]
      have hnear : Sequence.Near z.number last.number := hwindow.near
        (by rw [Arrival.newest?_of_rising hrising, hget]; rfl)
      have hfresh : Sequence.newer z.packet.header.sequence (UInt16.ofNat last.number) = true := by
        have hf := (Bool.and_eq_true _ _ ▸ haccepts : _ ∧ _).1
        rw [isFresh, h.newest, hget] at hf
        exact hf
      rw [← z.ofNat_number] at hfresh
      have hlt := (Sequence.newer_ofNat hnear).1 hfresh
      rw [hlast] at hy hrising
      rcases List.mem_append.1 hy with hy | hy
      · exact ((List.pairwise_append.1 hrising).2.2 y hy last (List.mem_singleton_self _)).trans hlt
      · rw [List.mem_singleton.1 hy]
        exact hlt
  · rw [he]
    refine ⟨?_, ?_, fun hwindow => ?_⟩
    · rw [Arrival.taken_concat]
      simpa using h.place
    · rw [Arrival.taken_concat]
      simpa using h.newest
    · rw [Arrival.taken_concat]
      simpa using h.rising hwindow.of_append

/-- The inputs of an entity among those that wait, with what each was answered. -/
def answered (id : EntityId) (queue : List (EntityId × Arrival)) (verdicts : List Bool) :
    List (Arrival × Bool) :=
  ((queue.zip verdicts).filter fun e => e.1.1 = id).map fun e => (e.1.2, e.2)

theorem answered_cons (id : EntityId) (e : EntityId × Arrival) (queue : List (EntityId × Arrival))
    (took : Bool) (verdicts : List Bool) : answered id (e :: queue) (took :: verdicts) =
      (if e.1 = id then [(e.2, took)] else []) ++ answered id queue verdicts := by
  unfold answered
  rw [List.zip_cons_cons, List.filter_cons]
  by_cases h : e.1 = id <;> simp [h]

theorem answered_map_fst (id : EntityId) {queue : List (EntityId × Arrival)} {verdicts : List Bool}
    (h : verdicts.length = queue.length) : (answered id queue verdicts).map (·.1) =
      (queue.filter fun e => e.1 = id).map (·.2) := by
  induction queue generalizing verdicts with
  | nil => rfl
  | cons e rest ih =>
    obtain _ | ⟨took, verdicts⟩ := verdicts
    · cases h
    · rw [answered_cons, List.map_append, ih (Nat.succ.inj h), List.filter_cons]
      by_cases he : e.1 = id <;> simp [he]

/-- The input that an entry of the ledger's queue stands for. -/
def pending (e : EntityId × Arrival) : PendingInput := ⟨e.1, e.2.packet⟩

/-- Applying all that waits keeps an entity where its inputs lead. -/
theorem Leads.applyAll {s : Steering} {r : World} {id : EntityId} {handled : List (Arrival × Bool)}
    (h : s.Leads r id handled) (queue : List (EntityId × Arrival)) :
    (s.applyAll r (queue.map pending)).2.1.Leads (s.applyAll r (queue.map pending)).2.2 id
      (handled ++ answered id queue (s.verdicts r (queue.map pending))) := by
  induction queue generalizing s r handled with
  | nil =>
    show s.Leads r id (handled ++ [])
    rwa [List.append_nil]
  | cons e rest ih =>
    rw [List.map_cons, applyAll_cons, verdicts, answered_cons, ← List.append_assoc]
    obtain ⟨j, x⟩ := e
    by_cases hj : j = id
    · subst hj
      rw [if_pos rfl]
      exact ih (h.apply x)
    · rw [if_neg hj, List.append_nil]
      exact ih (h.apply_of_ne (Ne.symm hj))

end Steering

/-! ## The ledger -/

/-- What has arrived and what came of it. -/
structure Ledger where
  waiting : List (EntityId × Arrival) := []
  /-- What has arrived from an address since its client joined. -/
  arrived : Address → List Arrival := fun _ => []
  /-- What was handled for an entity since its client joined, and whether it
      took effect. -/
  handled : EntityId → List (Arrival × Bool) := fun _ => []

namespace Ledger

/-- A client joins: nothing has arrived from it and nothing was handled. -/
def enroll (l : Ledger) (a : Address) (id : EntityId) : Ledger :=
  { l with arrived := Function.update l.arrived a [], handled := Function.update l.handled id [] }

/-- An input arrives for an entity; as many inputs as the queue's size wait. -/
def note (l : Ledger) (id : EntityId) (x : Arrival) (size : ℕ) : Ledger :=
  { l with
    waiting := (l.waiting ++ [(id, x)]).drop (l.waiting.length + 1 - size)
    arrived := Function.update l.arrived x.source (l.arrived x.source ++ [x]) }

/-- A datagram is heard: if it is an input packet of a client, or with which one
    joins, it is noted. -/
def hear (l : Ledger) (before after : Server) (d : Datagram) (rounds : ℕ) : Ledger :=
  match InputPacket.decode d.data, after.roster.places.lookup d.peer with
  | some packet, some id =>
    let joined := (before.roster.places.lookup d.peer).isNone
    (if joined then l.enroll d.peer id else l).note id ⟨d.peer, rounds, packet⟩ after.inbox.size
  | _, _ => l

theorem arrived_enroll_self (l : Ledger) (a : Address) (id : EntityId) :
    (l.enroll a id).arrived a = [] := Function.update_self _ _ _

theorem arrived_enroll_of_ne (l : Ledger) {a b : Address} (h : b ≠ a) (id : EntityId) :
    (l.enroll a id).arrived b = l.arrived b := Function.update_of_ne h _ _

theorem handled_enroll_self (l : Ledger) (a : Address) (id : EntityId) :
    (l.enroll a id).handled id = [] := Function.update_self _ _ _

theorem handled_enroll_of_ne (l : Ledger) (a : Address) {id j : EntityId} (h : j ≠ id) :
    (l.enroll a id).handled j = l.handled j := Function.update_of_ne h _ _

theorem arrived_note_self (l : Ledger) (id : EntityId) (x : Arrival) (size : ℕ) :
    (l.note id x size).arrived x.source = l.arrived x.source ++ [x] := Function.update_self _ _ _

theorem arrived_note_of_ne (l : Ledger) (id : EntityId) {x : Arrival} {a : Address}
    (h : a ≠ x.source) (size : ℕ) : (l.note id x size).arrived a = l.arrived a :=
  Function.update_of_ne h _ _

theorem mem_arrived_enroll {l : Ledger} {a b : Address} {id : EntityId} {x : Arrival}
    (hx : x ∈ (l.enroll a id).arrived b) : x ∈ l.arrived b := by
  rcases eq_or_ne b a with rfl | hne
  · rw [arrived_enroll_self] at hx
    cases hx
  · rwa [arrived_enroll_of_ne l hne] at hx

theorem mem_arrived_note {l : Ledger} {id : EntityId} {y : Arrival} {size : ℕ} {a : Address}
    {x : Arrival} (hx : x ∈ (l.note id y size).arrived a) :
    x ∈ l.arrived a ∨ a = y.source ∧ x = y := by
  rcases eq_or_ne a y.source with rfl | hne
  · rw [arrived_note_self] at hx
    rcases List.mem_append.1 hx with hx | hx
    · exact Or.inl hx
    · exact Or.inr ⟨rfl, List.mem_singleton.1 hx⟩
  · rw [arrived_note_of_ne l id hne] at hx
    exact Or.inl hx

/-- What has arrived from an address is what had before, and the datagram if it
    is from there. -/
theorem mem_arrived_hear {l : Ledger} {before after : Server} {d : Datagram} {rounds : ℕ}
    {a : Address} {x : Arrival} (hx : x ∈ (l.hear before after d rounds).arrived a) :
    x ∈ l.arrived a ∨
      a = d.peer ∧ ∃ p, InputPacket.decode d.data = some p ∧ x = ⟨d.peer, rounds, p⟩ := by
  unfold hear at hx
  split at hx
  · rename_i packet id hpacket _
    rcases mem_arrived_note hx with hx | ⟨ha, rfl⟩
    · left
      split_ifs at hx
      · exact mem_arrived_enroll hx
      · exact hx
    · exact Or.inr ⟨ha, packet, hpacket, rfl⟩
  · exact Or.inl hx

/-- All that waits is handled. -/
def handle (l : Ledger) (verdicts : List Bool) : Ledger :=
  { l with
    waiting := []
    handled := fun id => l.handled id ++ Steering.answered id l.waiting verdicts }

end Ledger

/-- A server with the ledger beside it. -/
structure Observed where
  server : Server
  ledger : Ledger := {}

namespace Observed

/-- The server and the ledger after an event.  If it is the arrival of an input,
    `rounds` is how often the numbers had gone round when its sample was
    taken. -/
def step (o : Observed) (rounds : ℕ) (e : Server.Event) : Observed :=
  let after := (o.server.perform e).1
  { server := after
    ledger := match e with
      | .hear d _ => o.ledger.hear o.server after d rounds
      | .tick _ =>
        match o.server.timestep.consume? with
        | none => o.ledger
        | some _ => o.ledger.handle
            (o.server.steering.verdicts o.server.world o.server.inbox.waiting)
      | _ => o.ledger }

def run (o : Observed) (es : List (ℕ × Server.Event)) : Observed :=
  es.foldl (fun o e => o.step e.1 e.2) o

/-- The ledger only looks on. -/
theorem server_run (o : Observed) (es : List (ℕ × Server.Event)) :
    (o.run es).server = (o.server.performAll (es.map (·.2))).1 := by
  induction es generalizing o with
  | nil => rfl
  | cons e rest ih => exact ih (o.step e.1 e.2)

end Observed

/-! ## The books -/

/-- What the ledger says of a client that sits. -/
structure Account (o : Observed) (a : Address) (id : EntityId) : Prop where
  /-- What has arrived came from the client. -/
  own : ∀ x ∈ o.ledger.arrived a, x.source = a
  /-- What was handled and then what waits is in the order of arrival. -/
  order : ((o.ledger.handled id).map (·.1) ++
    (o.ledger.waiting.filter fun e => e.1 = id).map (·.2)).Sublist (o.ledger.arrived a)
  leads : o.server.steering.Leads o.server.world id (o.ledger.handled id)

/-- The ledger's queue is the server's, and each client has an account. -/
structure Books (o : Observed) : Prop where
  sound : o.server.Sound
  queue : o.ledger.waiting.map Steering.pending = o.server.inbox.waiting
  accounts : ∀ a id, (a, id) ∈ o.server.roster.places → Account o a id

namespace Books

theorem congr {o : Observed} (h : Books o) {s : Server} (hconfig : s.config = o.server.config)
    (hworld : s.world = o.server.world) (hinbox : s.inbox = o.server.inbox)
    (hsteering : s.steering = o.server.steering)
    (hplaces : s.roster.places = o.server.roster.places) : Books { o with server := s } where
  sound := h.sound.congr hconfig hworld hinbox hsteering hplaces
  queue := h.queue.trans (congrArg Inbox.waiting hinbox).symm
  accounts a id hid := by
    obtain ⟨hown, horder, hleads⟩ := h.accounts a id (hplaces ▸ hid)
    refine ⟨hown, horder, ?_⟩
    show s.steering.Leads s.world id _
    rw [hsteering, hworld]
    exact hleads

end Books

/-- The queue is the end of what has come. -/
theorem Inbox.waiting_push (q : Inbox) (id : EntityId) (p : InputPacket) :
    (q.push id p).waiting =
      (q.waiting ++ [PendingInput.mk id p]).drop (q.size + 1 - (q.push id p).size) := by
  have hpos := q.capacity_pos
  by_cases hfull : q.size ≥ q.capacity
  · have hpush : (q.push id p).waiting = q.waiting.drop 1 ++ [PendingInput.mk id p] :=
      congrArg (· ++ _) (if_pos hfull)
    have hone : q.waiting.length + 1 - (q.waiting.drop 1 ++ [PendingInput.mk id p]).length = 1 := by
      have : q.size = q.waiting.length := rfl
      rw [List.length_append, List.length_drop, List.length_singleton]
      omega
    rw [size, size, hpush, hone, List.drop_append_of_le_length (Nat.le_trans hpos hfull)]
  · have hpush : (q.push id p).waiting = q.waiting ++ [PendingInput.mk id p] :=
      congrArg (· ++ _) (if_neg hfull)
    rw [size, size, hpush, List.length_append, List.length_singleton, Nat.sub_self, List.drop_zero]

namespace Ledger

theorem waiting_note {l : Ledger} {q : Inbox} (h : l.waiting.map Steering.pending = q.waiting)
    (id : EntityId) (x : Arrival) :
    (l.note id x (q.push id x.packet).size).waiting.map Steering.pending =
      (q.push id x.packet).waiting := by
  have hlength : l.waiting.length = q.size := by rw [Inbox.size, ← h, List.length_map]
  rw [Inbox.waiting_push, note, List.map_drop, List.map_append, h, hlength]
  rfl

/-- Of the queue, nothing is added for another entity. -/
theorem waiting_note_sublist (l : Ledger) (id : EntityId) (x : Arrival) (size : ℕ) (j : EntityId) :
    (((l.note id x size).waiting.filter fun e => e.1 = j).map (·.2)).Sublist
      ((l.waiting.filter fun e => e.1 = j).map (·.2) ++ if id = j then [x] else []) := by
  have hsub : (l.note id x size).waiting.Sublist (l.waiting ++ [(id, x)]) := List.drop_sublist _ _
  refine ((hsub.filter _).map _).trans ?_
  rw [List.filter_append, List.map_append]
  by_cases h : id = j <;> simp [h]

end Ledger

namespace Books

/-! ### Datagrams -/

theorem note {o : Observed} (h : Books o) {x : Arrival} {id : EntityId}
    (hid : (x.source, id) ∈ o.server.roster.places) :
    Books { server := { o.server with inbox := o.server.inbox.push id x.packet }
            ledger := o.ledger.note id x (o.server.inbox.push id x.packet).size } where
  sound := h.sound.push (List.mem_map.2 ⟨_, hid, rfl⟩) x.packet
  queue := Ledger.waiting_note h.queue id x
  accounts a j hj := by
    obtain ⟨hown, horder, hleads⟩ := h.accounts a j hj
    have hwaiting := o.ledger.waiting_note_sublist id x (o.server.inbox.push id x.packet).size j
    by_cases hsame : id = j
    · -- the client's own input goes to the end of both lists
      subst hsame
      have ha : a = x.source := congrArg Prod.fst
        (List.inj_on_of_nodup_map h.sound.entities hj hid rfl)
      subst ha
      refine ⟨fun y hy => ?_, ?_, hleads⟩
      · rw [Ledger.arrived_note_self] at hy
        rcases List.mem_append.1 hy with hy | hy
        · exact hown y hy
        · rw [List.mem_singleton.1 hy]
      · rw [Ledger.arrived_note_self]
        rw [if_pos rfl] at hwaiting
        refine ((List.Sublist.refl _).append hwaiting).trans ?_
        rw [← List.append_assoc]
        exact horder.append_right _
    · have ha : a ≠ x.source := fun ha => hsame (congrArg Prod.snd
        (List.inj_on_of_nodup_map h.sound.addresses hid hj ha.symm))
      rw [if_neg hsame, List.append_nil] at hwaiting
      refine ⟨?_, ?_, hleads⟩
      · rw [Ledger.arrived_note_of_ne _ _ ha]
        exact hown
      · rw [Ledger.arrived_note_of_ne _ _ ha]
        exact ((List.Sublist.refl _).append hwaiting).trans horder

theorem join {o : Observed} (h : Books o) {a : Address}
    (ha : o.server.roster.places.lookup a = none)
    (hroom : o.server.roster.size < o.server.config.maxClients) {id : EntityId} {w : World}
    (hcreate : o.server.world.create? = some (id, w)) (playerId : UInt32) (now : Duration) :
    Books { server := { o.server with
              world := Server.newPlayer w id playerId
              roster := o.server.roster.append a { entity := id, lastHeard := now } }
            ledger := o.ledger.enroll a id } where
  sound := h.sound.join ha hroom hcreate playerId now
  queue := h.queue
  accounts b j hj := by
    obtain ⟨hdead, -, hlife, hkept⟩ := World.create?_spec hcreate
    have hnew : id ∉ o.server.roster.entities := fun hid => by
      rw [(h.sound.alive id).2 hid] at hdead
      cases hdead
    have hlive : w.isAlive id = true := by simp [hlife]
    have hmem : (b, j) ∈ o.server.roster.places ++ [(a, id)] :=
      (Roster.places_append _ _ _).subst hj
    rcases List.mem_append.1 hmem with hold | hold
    · -- a client that sat before: nothing of it is touched
      obtain ⟨hown, horder, hplace, hnewest, hrising⟩ := h.accounts b j hold
      have hb : b ≠ a := by
        rintro rfl
        simpa using List.lookup_eq_none_iff.1 ha _ hold
      have hjid : j ≠ id := fun he => hnew (he ▸ List.mem_map.2 ⟨_, hold, rfl⟩)
      have harrived := o.ledger.arrived_enroll_of_ne hb id
      have hhandled := o.ledger.handled_enroll_of_ne a hjid
      refine ⟨?_, ?_, ?_⟩
      · rw [harrived]
        exact hown
      · rw [harrived, hhandled]
        exact horder
      · rw [hhandled]
        refine ⟨?_, hnewest, hrising⟩
        have hsame := Server.get?_newPlayer_of_ne hlive playerId .transform hjid
        show ((Server.newPlayer w id playerId).get? .transform j).map _ = _
        rw [hsame, hkept]
        exact hplace
    · -- the new client: nothing waits and nothing was handled for its entity
      obtain ⟨rfl, rfl⟩ := Prod.mk.inj (List.mem_singleton.1 hold)
      have harrived := o.ledger.arrived_enroll_self b j
      have hhandled := o.ledger.handled_enroll_self b j
      have hwaiting : (o.ledger.enroll b j).waiting.filter (fun e => e.1 = j) = [] := by
        refine List.filter_eq_nil_iff.2 fun e he hej => hnew ?_
        have hpending : Steering.pending e ∈ o.server.inbox.waiting :=
          h.queue ▸ List.mem_map_of_mem he
        exact of_decide_eq_true hej ▸ h.sound.waiting _ hpending
      refine ⟨?_, ?_, ?_⟩
      · rw [harrived]
        exact fun x hx => by cases hx
      · rw [harrived, hhandled, hwaiting]
        exact List.Sublist.refl _
      · rw [hhandled]
        refine ⟨?_, ?_, fun _ => .nil⟩
        · rw [Server.transform_newPlayer hlive]
          rfl
        · cases hget : o.server.steering.lastApplied.get? j with
          | none => rfl
          | some seq => exact absurd (h.sound.remembered j
              (EntityMap.contains_eq_true.2 ⟨seq, hget⟩)) hnew

/-- **A datagram keeps the books.** -/
theorem hear {o : Observed} (h : Books o) (rounds : ℕ) (d : Datagram) (now : Duration) :
    Books (o.step rounds (.hear d now)) := by
  have hafter : (o.server.perform (.hear d now)).1 = (o.server.receiveOne d now).1 := rfl
  unfold Observed.step Ledger.hear
  dsimp only
  rw [hafter]
  rcases o.server.receiveOne_cases d now with ⟨p, traffic, q, hp, rfl, he⟩ |
    ⟨hp, traffic, roster, effects, he, hplaces, -⟩
  · rw [he, hp]
    have hcounted : Books { o with server := { o.server with traffic } } :=
      h.congr rfl rfl rfl rfl rfl
    rcases Server.queueInput_cases { o.server with traffic } p d.peer now with ⟨id, hid, hq⟩ |
      ⟨ha, id, w, hroom, hcreate, hq⟩ | ⟨ha, hq⟩
    · have hid' : o.server.roster.places.lookup d.peer = some id := hid
      have hnoted := hcounted.note (x := ⟨d.peer, rounds, p⟩) (Roster.mem_places_of_lookup hid)
      simp only [hq, Roster.places_heard, hid', Option.isNone_some, Bool.false_eq_true, if_false]
      exact hnoted.congr rfl rfl rfl rfl (Roster.places_heard _ _ _)
    · have ha' : o.server.roster.places.lookup d.peer = none := ha
      have hjoined := hcounted.join ha hroom hcreate p.playerId now
      have hlast : (d.peer, id) ∈ (o.server.roster.append d.peer
          { entity := id, lastHeard := now }).places := by
        rw [Roster.places_append]
        exact List.mem_append_right _ List.mem_cons_self
      have hlookup : (o.server.roster.append d.peer
          { entity := id, lastHeard := now }).places.lookup d.peer = some id := by
        rw [Roster.places_append, List.lookup_append, ha']
        simp
      have hnoted := hjoined.note (x := ⟨d.peer, rounds, p⟩) hlast
      simp only [hq, Roster.places_heard, ha', hlookup, Option.isNone_none, if_true]
      exact hnoted.congr rfl rfl rfl rfl (Roster.places_heard _ _ _)
    · have ha' : o.server.roster.places.lookup d.peer = none := ha
      simp only [hq, Roster.places_heard, ha']
      exact hcounted.congr rfl rfl rfl rfl (Roster.places_heard _ _ _)
  · rw [he, hp]
    exact h.congr rfl rfl rfl rfl hplaces

/-- **A tick keeps the books**: all that waits is handled, and nothing is taken
    from the clients that stay. -/
theorem tick {o : Observed} (h : Books o) (n : Tick) (now : Duration) :
    Books { server := (o.server.tick n now).1
            ledger := o.ledger.handle
              (o.server.steering.verdicts o.server.world o.server.inbox.waiting) } where
  sound := h.sound.tick n now
  queue := by
    rw [Server.tick_fst, Server.dropSilent_eq_of_gone]
    rfl
  accounts a id hid := by
    obtain ⟨hold, hworld, hlast⟩ := h.sound.kept_tick hid
    obtain ⟨hown, horder, hleads⟩ := h.accounts a id hold
    have happlied := hleads.applyAll o.ledger.waiting
    rw [h.queue] at happlied
    obtain ⟨hplace, hnewest, hrising⟩ := happlied
    refine ⟨hown, ?_, ?_⟩
    · show (List.map _ (o.ledger.handled id ++ Steering.answered id o.ledger.waiting _) ++
        []).Sublist _
      rw [List.append_nil, List.map_append, Steering.answered_map_fst]
      · exact horder
      · rw [Steering.length_verdicts, ← h.queue, List.length_map]
    · show ((o.server.tick n now).1.steering).Leads (o.server.tick n now).1.world id _
      refine ⟨?_, hlast.trans hnewest, hrising⟩
      rw [hworld, Server.tick_fst, Server.dropSilent_eq_of_gone]
      exact hplace

/-- **Every event keeps the books.** -/
theorem step {o : Observed} (h : Books o) (rounds : ℕ) (e : Server.Event) :
    Books (o.step rounds e) := by
  cases e with
  | elapse d => exact h.congr rfl rfl rfl rfl rfl
  | hear d now => exact h.hear rounds d now
  | tick now =>
    unfold Observed.step Server.perform
    dsimp only
    cases hdue : o.server.timestep.consume? with
    | none => exact h
    | some due =>
      obtain ⟨n, t⟩ := due
      exact (h.congr rfl rfl rfl rfl rfl :
        Books { o with server := { o.server with timestep := t } }).tick n now
  | settle outcomes => exact h.congr rfl rfl rfl rfl rfl

/-- **Of a client that stays** no event takes anything from what was handled. -/
theorem handled_step {o : Observed} (h : Books o) (rounds : ℕ) (e : Server.Event) {a : Address}
    {id : EntityId} (hid : (a, id) ∈ o.server.roster.places)
    (hstays : (a, id) ∈ (o.step rounds e).server.roster.places) :
    ∃ more, (o.step rounds e).ledger.handled id = o.ledger.handled id ++ more := by
  cases e with
  | elapse d => exact ⟨[], (List.append_nil _).symm⟩
  | hear d now =>
    refine ⟨[], ?_⟩
    rw [List.append_nil]
    have hsound : (o.step rounds (.hear d now)).server.Sound := (h.step rounds _).sound
    show (o.ledger.hear o.server (o.step rounds (.hear d now)).server d rounds).handled id = _
    unfold Ledger.hear
    split
    · rename_i packet j hpacket hj
      dsimp only
      split_ifs with hjoined
      · -- one that joins has another entity
        have hne : id ≠ j := by
          rintro rfl
          obtain rfl : a = d.peer := congrArg Prod.fst (List.inj_on_of_nodup_map hsound.entities
            hstays (Roster.mem_places_of_lookup hj) rfl)
          rw [Roster.lookup_of_mem_places h.sound.addresses hid] at hjoined
          cases hjoined
        exact Ledger.handled_enroll_of_ne o.ledger d.peer hne
      · rfl
    · rfl
  | tick now =>
    unfold Observed.step
    dsimp only
    split
    · exact ⟨[], (List.append_nil _).symm⟩
    · exact ⟨_, rfl⟩
  | settle outcomes => exact ⟨[], (List.append_nil _).symm⟩

end Books

namespace Observed

def start (config : ServerConfig) (port : UInt16) : Observed := { server := .make config port }

theorem books_start (config : ServerConfig) (port : UInt16) : Books (start config port) where
  sound := Server.sound_make config port
  queue := rfl
  accounts _ _ h := by cases h

/-- **Every run keeps the books.** -/
theorem books_run {o : Observed} (h : Books o) (es : List (ℕ × Server.Event)) :
    Books (o.run es) := by
  induction es generalizing o with
  | nil => exact h
  | cons e rest ih => exact ih (h.step e.1 e.2)

theorem config_run (o : Observed) (es : List (ℕ × Server.Event)) :
    (o.run es).server.config = o.server.config := by
  induction es generalizing o with
  | nil => rfl
  | cons e rest ih => exact (ih (o.step e.1 e.2)).trans (o.server.config_perform e.2)

/-- **A server serves a client in order.**  Whatever arrives from whom, and
    whenever it ticks and drops clients: if each input of the client was within
    half a round of the newest applied one when it was handled, then the inputs
    that were applied came from the client's own address, in the order in which
    they arrived and with rising numbers; the client's entity is where they lead
    from the origin, and the low bits of the newest of them are remembered.  No
    datagram moves the entity before the next tick. -/
theorem serves_in_order (config : ServerConfig) (port : UInt16) (es : List (ℕ × Server.Event))
    (a : Address) (seat : Seat)
    (hseat : ((start config port).run es).server.roster.find? a = some seat)
    (hwindow : Arrival.InWindow (((start config port).run es).ledger.handled seat.entity)) :
    let o := (start config port).run es
    let applied := Arrival.taken (o.ledger.handled seat.entity)
    (applied.Sublist (o.ledger.arrived a) ∧ ∀ x ∈ o.ledger.arrived a, x.source = a) ∧
    (applied.Pairwise fun x y => x.number < y.number) ∧
    (o.server.world.get? .transform seat.entity).map (·.position) =
      some (Arrival.walk config.moveSpeed (Timestep.ofRate config.tickRate).dt applied) ∧
    o.server.steering.lastApplied.get? seat.entity =
      applied.getLast?.map (fun x => UInt16.ofNat x.number) ∧
    ∀ d now, (o.server.perform (.hear d now)).1.world.get? .transform seat.entity =
      o.server.world.get? .transform seat.entity := by
  intro o applied
  have hbooks : Books o := books_run (books_start config port) es
  have hconfig : o.server.config = config := config_run _ es
  have hlookup : o.server.roster.places.lookup a = some seat.entity := by
    rw [← Roster.places_find?, hseat]
    rfl
  have hmem := Roster.mem_places_of_lookup hlookup
  obtain ⟨hown, horder, hplace, hnewest, hrising⟩ := hbooks.accounts a seat.entity hmem
  rw [hbooks.sound.speed, hbooks.sound.dt, hconfig] at hplace
  have hhandled := (List.sublist_append_left _ _).trans horder
  refine ⟨⟨(Arrival.taken_sublist _).trans hhandled, hown⟩, hrising hwindow, hplace, hnewest,
    fun d now => ?_⟩
  exact Server.transform_receiveOne hbooks.sound (List.mem_map.2 ⟨_, hmem, rfl⟩) d now

/-- Two inputs on either side of a round arrive, then the first once more, and a
    tick handles them. -/
def aroundTheRound : List (ℕ × Server.Event) :=
  let heard (n : ℕ) : ℕ × Server.Event :=
    (n / 65536, .hear ⟨⟨.localhost, 4001⟩,
      (({ sequence := UInt32.ofNat n, buttons := .right } : Command).toPacket 7).encode⟩ 0)
  [heard 65535, heard 65536, heard 65535, (0, .elapse 20000000), (0, .tick 0)]

/-- Of those inputs the first two are applied, in order. -/
theorem serves_in_order_aroundTheRound :
    let config : ServerConfig := {}
    let a : Address := ⟨.localhost, 4001⟩
    let seat : Seat := { entity := 1, lastHeard := 0 }
    let o := (start config 4000).run aroundTheRound
    let applied := Arrival.taken (o.ledger.handled seat.entity)
    (o.server.roster.find? a = some seat ∧ Arrival.InWindow (o.ledger.handled seat.entity) ∧
      applied.map Arrival.number = [65535, 65536]) ∧
    (applied.Sublist (o.ledger.arrived a) ∧ ∀ x ∈ o.ledger.arrived a, x.source = a) ∧
    (applied.Pairwise fun x y => x.number < y.number) ∧
    (o.server.world.get? .transform seat.entity).map (·.position) =
      some (Arrival.walk config.moveSpeed (Timestep.ofRate config.tickRate).dt applied) ∧
    o.server.steering.lastApplied.get? seat.entity =
      applied.getLast?.map (fun x => UInt16.ofNat x.number) ∧
    ∀ d now, (o.server.perform (.hear d now)).1.world.get? .transform seat.entity =
      o.server.world.get? .transform seat.entity := by
  exact ⟨by decide +kernel, serves_in_order {} 4000 aroundTheRound ⟨.localhost, 4001⟩
    { entity := 1, lastHeard := 0 } (by decide +kernel) (by decide +kernel)⟩

end Observed

end Netplay
