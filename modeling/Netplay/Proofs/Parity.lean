/-
  A correction plays again what the server will do.

  The client replays the unconfirmed commands by their full numbers, the server
  applies them as packets that carry the low bits, and drops those that are not
  newer than the last.  As long as each command is ahead of the one before it by
  no more than half a round, the server drops none of them.

  * `World.SameBut`: what a change of some components of one entity leaves
    alone;
  * `Steering.Stands`: where the server has an entity, and after which command;
    kept by an input (`Stands.apply`) and by a list of them (`Stands.serve`);
  * `CommandLog.unconfirmed_eq`: what is played again does not depend on the
    order of the history;
  * `Corrector.reconcile_serves`: all that a comparison does.
-/
import Netplay.Proofs.Numbers
import Netplay.Proofs.Serving
import Netplay.Proofs.Windows

namespace Netplay

open Component (Kind)

/-! ## What a change leaves alone -/

namespace World

/-- Nothing but components of these kinds of one entity differs. -/
structure SameBut (kinds : List Kind) (id : EntityId) (r r' : World) : Prop where
  alive : r'.alive = r.alive
  nextId : r'.nextId = r.nextId
  kindsSeen : r'.kindsSeen = r.kindsSeen
  get? : ∀ k j, j ≠ id ∨ k ∉ kinds → r'.get? k j = r.get? k j

theorem SameBut.trans {kinds kinds' : List Kind} {id : EntityId} {r r' r'' : World}
    (h : SameBut kinds id r r') (h' : SameBut kinds' id r' r'') :
    SameBut (kinds ++ kinds') id r r'' where
  alive := h'.alive.trans h.alive
  nextId := h'.nextId.trans h.nextId
  kindsSeen := h'.kindsSeen.trans h.kindsSeen
  get? k j hj := by
    rw [List.mem_append, not_or] at hj
    rw [h'.get? k j (hj.imp_right And.right), h.get? k j (hj.imp_right And.left)]

theorem SameBut.mono {kinds kinds' : List Kind} {id : EntityId} {r r' : World}
    (h : SameBut kinds id r r') (hsub : kinds ⊆ kinds') : SameBut kinds' id r r' where
  alive := h.alive
  nextId := h.nextId
  kindsSeen := h.kindsSeen
  get? k j hj := h.get? k j (hj.imp_right fun hk hk' => hk (hsub hk'))

theorem sameBut_modify (r : World) (k : Kind) (id : EntityId) (f : k.Value → k.Value) :
    SameBut [k] id r (r.modify k id f) := by
  refine ⟨?_, ?_, ?_, ?_⟩
  · unfold modify
    split
    · exact alive_withStore r k _
    · rfl
  · unfold modify
    split
    · cases k <;> rfl
    · rfl
  · unfold modify
    split
    · cases k <;> rfl
    · rfl
  · intro k' j hj
    by_cases hk : k' = k
    · subst hk
      rw [get?_modify, if_neg (hj.resolve_right (by simp))]
    · exact get?_modify_of_ne r id j hk f

end World

/-! ## Commands in steps of less than half a round -/

/-- Each command is ahead of the one before it, the first ahead of the number
    `n`, by no more than half a round. -/
def Climbs : ℕ → List Command → Prop
  | _, [] => True
  | n, c :: rest => n < c.sequence.toNat ∧ c.sequence.toNat ≤ n + 32767 ∧
      Climbs c.sequence.toNat rest

instance decidableClimbs : ∀ n cs, Decidable (Climbs n cs)
  | _, [] => inferInstanceAs (Decidable True)
  | _, c :: rest =>
    have := decidableClimbs c.sequence.toNat rest
    inferInstanceAs (Decidable (_ ∧ _ ∧ _))

namespace Climbs

theorem lt {n : ℕ} {cs : List Command} (h : Climbs n cs) : ∀ c ∈ cs, n < c.sequence.toNat := by
  induction cs generalizing n with
  | nil => simp
  | cons c rest ih =>
    obtain ⟨hlt, -, hrest⟩ := h
    intro c' hc'
    rcases List.mem_cons.1 hc' with rfl | hc'
    · exact hlt
    · exact hlt.trans (ih hrest c' hc')

theorem ascending {n : ℕ} {cs : List Command} (h : Climbs n cs) :
    cs.Pairwise fun a b => a.sequence < b.sequence := by
  induction cs generalizing n with
  | nil => exact .nil
  | cons c rest ih =>
    obtain ⟨-, -, hrest⟩ := h
    refine List.pairwise_cons.2 ⟨?_, ih hrest⟩
    intro c' hc'
    exact UInt32.lt_iff_toNat_lt.2 (hrest.lt c' hc')

end Climbs

/-- **What is played again does not depend on the order of the history**: in
    strictly ascending order there is one list of the newer commands. -/
theorem CommandLog.unconfirmed_eq {h : CommandLog} {ack : UInt32} {cs : List Command}
    (hperm : cs.Perm (h.after ack)) (hasc : cs.Pairwise fun a b => a.sequence < b.sequence) :
    Corrector.unconfirmed h ack = cs :=
  mergeSort_of_ascending hperm.symm hasc

/-! ## The server's side -/

namespace Steering

/-- The server applies commands that a player has sent for an entity. -/
def serve (s : Steering) (w : World) (e : EntityId) (playerId : UInt32) (cs : List Command) :
    ℕ × Steering × World :=
  s.applyAll w (cs.map fun c => ⟨e, c.toPacket playerId⟩)

/-- The server has the entity at a position, and the newest command applied to
    it is that of the number `n`. -/
structure Stands (s : Steering) (w : World) (e : EntityId) (n : ℕ) (position : Vec2) : Prop where
  newest : s.lastApplied.get? e = some (UInt16.ofNat n)
  place : (w.get? .transform e).map (·.position) = some position

variable {s : Steering} {w : World} {e : EntityId} {n : ℕ} {position : Vec2}

/-- **A command that is ahead takes effect**: the entity moves by it. -/
theorem Stands.apply (h : s.Stands w e n position) {c : Command} (hlt : n < c.sequence.toNat)
    (hle : c.sequence.toNat ≤ n + 32767) (playerId : UInt32) :
    ∃ s' w', s.apply w ⟨e, c.toPacket playerId⟩ = (true, s', w') ∧ s'.speed = s.speed ∧
      s'.dt = s.dt ∧
      s'.Stands w' e c.sequence.toNat (Movement.apply position c.buttons s.speed s.dt) := by
  obtain ⟨t, ht, hposition⟩ := Option.map_eq_some_iff.1 h.place
  have hpacket : (c.toPacket playerId).header.sequence = UInt16.ofNat c.sequence.toNat := rfl
  have hfresh : s.isFresh ⟨e, c.toPacket playerId⟩ = true := by
    unfold isFresh
    simp only [h.newest, hpacket]
    exact (Sequence.newer_ofNat ⟨hle, by omega⟩).2 hlt
  have haccepts : s.accepts w ⟨e, c.toPacket playerId⟩ = true := by
    rw [accepts, hfresh, World.has, ht]
    rfl
  refine ⟨_, _, apply_of_accepts haccepts, rfl, rfl, ?_, ?_⟩
  · rw [EntityMap.get?_insert, if_pos rfl, hpacket]
  · rw [World.get?_modify_self, ht, ← hposition]
    rfl

/-- **Commands that climb all take effect**, and lead where a replay leads. -/
theorem Stands.serve {cs : List Command} (h : s.Stands w e n position) (hclimbs : Climbs n cs)
    (hdt : ∀ c ∈ cs, c.deltaTime = s.dt) (playerId : UInt32) :
    (s.serve w e playerId cs).1 = cs.length ∧
      ((s.serve w e playerId cs).2.2.get? .transform e).map (·.position) =
        some (Corrector.replay s.speed position cs) := by
  induction cs generalizing s w n position with
  | nil => exact ⟨rfl, h.place⟩
  | cons c rest ih =>
    obtain ⟨hlt, hle, hrest⟩ := hclimbs
    obtain ⟨s', w', happly, hspeed, hstep, hstands⟩ := h.apply hlt hle playerId
    obtain ⟨hc, hdt⟩ := List.forall_mem_cons.1 hdt
    obtain ⟨hcount, hplace⟩ := ih hstands hrest (hstep ▸ hdt)
    unfold Steering.serve at hcount hplace ⊢
    rw [List.map_cons, count_applyAll_cons, applyAll_cons, happly]
    constructor
    · rw [hcount, List.length_cons, if_pos rfl, Nat.add_comm]
    · rw [hplace, hspeed, ← hc]
      rfl

end Steering

/-! ## All that a comparison does -/

theorem CommandLog.acknowledge_eq (h : CommandLog) (ack : UInt32) :
    h.acknowledge ack = if h.acknowledged < ack then
      { h with acknowledged := ack, entries := h.after ack } else h := by
  unfold CommandLog.acknowledge
  split_ifs with hstale hnew hnew
  · exact absurd hnew (UInt32.not_lt.2 hstale)
  · rfl
  · rfl
  · exact absurd (UInt32.not_lt.1 hnew) hstale

/-- **A correction leads where the server's steps will lead.**  A comparison that
    is skipped changes nothing.  Any other changes no more than the position and
    the history, which loses the commands confirmed if this is news; and the
    position only by a correction.  The corrected position is, bit for bit, the
    one that the same speed and step give an entity of the server at the
    authoritative position, when the commands that are not confirmed reach it in
    ascending order, each within half a round of the one before. -/
theorem Corrector.reconcile_serves (c : Corrector) (r : World) (id : EntityId) (position : Vec2)
    (ack : UInt32) :
    (¬ (r.isAlive id = true ∧ r.has .history id = true ∧ r.has .transform id = true) ∧
      c.reconcile r id position ack = (.skipped, c, r)) ∨
    ∃ log t verdict sinceCorrection r', r.isAlive id = true ∧ r.get? .history id = some log ∧
      r.get? .transform id = some t ∧
      c.reconcile r id position ack = (verdict, { c with sinceCorrection }, r') ∧
      World.SameBut [.transform, .history] id r r' ∧
      r'.get? .history id = some (if log.acknowledged < ack then
        { log with acknowledged := ack, entries := log.after ack } else log) ∧
      ((∃ error, verdict = .within error ∧ r'.get? .transform id = some t) ∨
        ∃ error place, verdict = .corrected error (log.after ack).length ∧
          r'.get? .transform id = some { t with position := place } ∧
          ∀ (s : Steering) (w : World) (e : EntityId) (playerId : UInt32) (cs : List Command),
            cs.Perm (log.after ack) → Climbs ack.toNat cs → (∀ x ∈ cs, x.deltaTime = s.dt) →
            s.speed = c.config.moveSpeed → s.Stands w e ack.toNat position →
            (s.serve w e playerId cs).1 = cs.length ∧
              ((s.serve w e playerId cs).2.2.get? .transform e).map (·.position) =
                some place) := by
  rcases c.reconcile_cases r id position ack with hskip |
    ⟨log, t, timer, hlive, hlog, ht, ⟨error, he⟩ | ⟨error, he⟩⟩
  · exact Or.inl hskip
  · right
    refine ⟨log, t, _, timer, _, hlive, hlog, ht, he, ?_, ?_, Or.inl ⟨error, rfl, ?_⟩⟩
    · exact (World.sameBut_modify r .history id _).mono (by simp)
    · rw [World.get?_modify_self, hlog, Option.map_some, CommandLog.acknowledge_eq]
    · rw [World.get?_modify_of_ne _ id id (by decide), ht]
  · right
    have hlength : (unconfirmed log ack).length = (log.after ack).length :=
      (List.mergeSort_perm (log.after ack) _).length_eq
    refine ⟨log, t, _, timer, _, hlive, hlog, ht, he, ?_, ?_,
      Or.inr ⟨error, replay c.config.moveSpeed position (unconfirmed log ack), ?_, ?_, ?_⟩⟩
    · exact (World.sameBut_modify r .transform id _).trans (World.sameBut_modify _ .history id _)
    · rw [World.get?_modify_self, World.get?_modify_of_ne _ id id (by decide), hlog,
        Option.map_some, CommandLog.acknowledge_eq]
    · rw [hlength]
    · rw [World.get?_modify_of_ne _ id id (by decide), World.get?_modify_self, ht]
      rfl
    · intro s w e playerId cs hperm hclimbs hdt hspeed hstands
      rw [CommandLog.unconfirmed_eq hperm hclimbs.ascending, ← hspeed]
      exact hstands.serve hclimbs hdt playerId

def Verdict.corrects : Verdict → Bool
  | .corrected _ _ => true
  | _ => false

/-- Commands out of order, on both sides of the end of a round of low bits. -/
def outOfOrder : List Command :=
  [{ sequence := 65537, buttons := .right }, { sequence := 65535, buttons := .up },
    { sequence := 65536, buttons := .down }]

/-- A history of them is played again in ascending order, and the server does not
    take the low bits 0 for old. -/
theorem Corrector.reconcile_serves_outOfOrder :
    let c : Corrector := { config := {} }
    let log : CommandLog := { CommandLog.empty with entries := outOfOrder }
    let placed := (World.empty.spawn 1).2.attach .transform 1 (.placed ⟨.one, .one⟩)
    let r := placed.attach .history 1 log
    let s : Steering :=
      { speed := c.config.moveSpeed
        dt := standardStep
        lastApplied := EntityMap.empty.insert 2 65534 }
    let w := (World.empty.spawn 2).2.attach .transform 2 (.placed .zero)
    let served := s.serve w 2 9 (outOfOrder.rotateLeft 1)
    ∃ error place, (c.reconcile r 1 .zero 65534).1 = .corrected error 3 ∧
      (c.reconcile r 1 .zero 65534).2.2.get? .transform 1 = some (.placed place) ∧
      served.1 = 3 ∧ (served.2.2.get? .transform 2).map (·.position) = some place := by
  intro c log placed r s w served
  have hverdict : (c.reconcile r 1 .zero 65534).1.corrects = true := by decide +kernel
  rcases c.reconcile_serves r 1 .zero 65534 with ⟨-, he⟩ |
    ⟨log', t, verdict, _, r', -, hlog, ht, he, -, -,
      ⟨_, rfl, -⟩ | ⟨error, place, rfl, hplace, hserves⟩⟩
  · rw [he] at hverdict
    cases hverdict
  · rw [he] at hverdict
    cases hverdict
  · obtain rfl : log = log' := Option.some.inj hlog
    obtain rfl : Transform.placed ⟨.one, .one⟩ = t := Option.some.inj ht
    obtain ⟨hcount, hserved⟩ := hserves s w 2 9 (outOfOrder.rotateLeft 1)
      (by decide +kernel) (by decide +kernel) (by decide +kernel) rfl
      ⟨by decide +kernel, by decide +kernel⟩
    rw [he]
    exact ⟨error, place, rfl, hplace, hcount, hserved⟩

end Netplay
