/-
  Commands on their way to the sender.

  Whoever plays puts commands in at the end; the sender takes the oldest out.

  * `CommandBuffer.performAll_inOrder`: calls take out what was put in, each command once and
    in order, and lose nothing but by `clear`.
-/
import Netplay.Control.Command

namespace Netplay

/-- Commands that wait to be sent, oldest first. -/
abbrev CommandBuffer := List Command

namespace CommandBuffer

def push (b : CommandBuffer) (c : Command) : CommandBuffer := b ++ [c]

/-- The oldest command, if there is one, and the others. -/
def pop : CommandBuffer → Option Command × CommandBuffer
  | [] => (none, [])
  | c :: rest => (some c, rest)

def clear (_ : CommandBuffer) : CommandBuffer := []

@[simp] theorem pop_nil : pop [] = (none, []) := rfl

@[simp] theorem pop_cons (c : Command) (rest : CommandBuffer) :
    pop (c :: rest) = (some c, rest) := rfl

theorem eq_cons_of_pop {b rest : CommandBuffer} {c : Command} (h : b.pop = (some c, rest)) :
    b = c :: rest := by
  cases b with
  | nil => cases h
  | cons d others =>
    obtain ⟨rfl, rfl⟩ : d = c ∧ others = rest := by simpa using h
    rfl

/-! ## Calls -/

inductive Call where
  | push (c : Command)
  | pop
  | clear

/-- The buffer after a call, and what was taken. -/
def perform (b : CommandBuffer) : Call → List Command × CommandBuffer
  | .push c => ([], b.push c)
  | .pop => (b.pop.1.toList, b.pop.2)
  | .clear => ([], b.clear)

def performAll (b : CommandBuffer) : List Call → List Command × CommandBuffer
  | [] => ([], b)
  | e :: rest =>
    let (first, b) := b.perform e
    let (later, b) := performAll b rest
    (first ++ later, b)

/-- The commands that calls put in. -/
def pushed (es : List Call) : List Command :=
  es.filterMap fun
    | .push c => some c
    | _ => none

/-- What a call takes out, and what it leaves, was there before or is put in. -/
theorem perform_inOrder (b : CommandBuffer) (e : Call) :
    ((b.perform e).1 ++ (b.perform e).2).Sublist (b ++ pushed [e]) ∧
      (e ≠ .clear → (b.perform e).1 ++ (b.perform e).2 = b ++ pushed [e]) := by
  cases e with
  | push c => exact ⟨List.Sublist.refl _, fun _ => rfl⟩
  | pop => cases b <;> simp [perform, pushed]
  | clear => exact ⟨List.nil_sublist _, fun h => absurd rfl h⟩

/-- **A buffer is first in, first out**: what calls take out, followed by what they leave, is
    in the order in which it was put in, and all of it unless the buffer was cleared. -/
theorem performAll_inOrder (b : CommandBuffer) (es : List Call) :
    ((b.performAll es).1 ++ (b.performAll es).2).Sublist (b ++ pushed es) ∧
      (.clear ∉ es → (b.performAll es).1 ++ (b.performAll es).2 = b ++ pushed es) := by
  induction es generalizing b with
  | nil => simp [performAll, pushed]
  | cons e rest ih =>
    obtain ⟨hstep, hall⟩ := b.perform_inOrder e
    obtain ⟨hrun, hrest⟩ := ih (b.perform e).2
    have hpushed : pushed (e :: rest) = pushed [e] ++ pushed rest :=
      List.filterMap_append (l := [e])
    rw [performAll, hpushed, ← List.append_assoc]
    dsimp only
    rw [List.append_assoc]
    constructor
    · refine ((List.Sublist.refl _).append hrun).trans ?_
      rw [← List.append_assoc]
      exact hstep.append (List.Sublist.refl _)
    · intro hkept
      obtain ⟨he, hkept⟩ := not_or.1 (mt List.mem_cons.2 hkept)
      rw [hrest hkept, ← List.append_assoc, hall (Ne.symm he)]

end CommandBuffer

end Netplay
