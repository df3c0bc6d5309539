import Mathlib.Tactic

/-!
# Filling slots in order

Samples arrive one at a time, each with an answer: accept it and go on, take it
again, or accept it and stop. Slots are filled from the first upwards, a sample
taken again stays in the current slot until the next one replaces it, and the
sequence is finished by an answer that stops it or with the last slot.
-/
namespace WchIotSdk.SlotSequence

variable {α : Type*}

inductive Answer
  | accept
  | again
  | stop
  deriving DecidableEq, Repr

/-- The slots filled so far and what is in the one after them, if anything. -/
structure Slots (α : Type*) where
  filled : List α
  current : Option α
  finished : Bool
  deriving DecidableEq, Repr

namespace Slots

def empty : Slots α := ⟨[], none, false⟩

/-- The next sample, where `last` is the index of the last slot. -/
def add (last : ℕ) (x : Slots α) (sample : α) (answer : Answer) : Slots α :=
  if x.finished then x
  else
    match answer with
    | .accept => ⟨x.filled ++ [sample], none, decide (last ≤ x.filled.length)⟩
    | .again => ⟨x.filled, some sample, false⟩
    | .stop => ⟨x.filled ++ [sample], none, true⟩

def addAll (last : ℕ) (x : Slots α) : List (α × Answer) → Slots α
  | [] => x
  | (sample, answer) :: rest => addAll last (x.add last sample answer) rest

variable {last : ℕ} {x : Slots α} {sample : α} {answer : Answer}

@[simp] theorem add_of_finished (h : x.finished = true) : x.add last sample answer = x := by
  simp [add, h]

theorem add_accept (h : x.finished = false) :
    x.add last sample .accept =
      ⟨x.filled ++ [sample], none, decide (last ≤ x.filled.length)⟩ := by
  simp [add, h]

theorem add_again (h : x.finished = false) :
    x.add last sample .again = ⟨x.filled, some sample, false⟩ := by
  simp [add, h]

theorem add_stop (h : x.finished = false) :
    x.add last sample .stop = ⟨x.filled ++ [sample], none, true⟩ := by
  simp [add, h]

theorem finished_add : (x.add last sample answer).finished = true ↔
    x.finished = true ∨ answer = .stop ∨ (answer = .accept ∧ last ≤ x.filled.length) := by
  cases hfin : x.finished with
  | true => simp [hfin]
  | false =>
    cases answer with
    | accept => simp [add_accept hfin]
    | again => simp [add_again hfin]
    | stop => simp [add_stop hfin]

theorem addAll_append (h h' : List (α × Answer)) :
    x.addAll last (h ++ h') = (x.addAll last h).addAll last h' := by
  induction h generalizing x with
  | nil => rfl
  | cons c h ih => exact ih

/-- A filled slot stays as it is: the slots grow at their end. -/
theorem filled_prefix_add : x.filled <+: (x.add last sample answer).filled := by
  cases hfin : x.finished with
  | true => rw [add_of_finished hfin]
  | false =>
    cases answer with
    | accept =>
      rw [add_accept hfin]
      exact List.prefix_append _ _
    | again => rw [add_again hfin]
    | stop =>
      rw [add_stop hfin]
      exact List.prefix_append _ _

theorem filled_prefix_addAll (h : List (α × Answer)) : x.filled <+: (x.addAll last h).filled := by
  induction h generalizing x with
  | nil => exact List.prefix_rfl
  | cons c h ih => exact filled_prefix_add.trans ih

end Slots

end WchIotSdk.SlotSequence
