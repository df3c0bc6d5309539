import WchIotSdk.EventRuns
import Mathlib.Tactic

/-!
# A slot for one item

An item is offered while the slot is empty and taken, or it is refused. A key is
given back: the item that has it leaves the slot, and any other key means nothing. In
every run the items taken and given back alternate.
-/
namespace WchIotSdk.SingleSlot
open EventRuns

variable {α κ : Type*}

inductive Request (α κ : Type*) where
  | offer (a : α)
  | giveBack (k : κ)
  deriving DecidableEq, Repr

inductive Answer (α : Type*) where
  | taken (a : α)
  | refused (a : α)
  | givenBack (a : α)
  | ignored
  deriving DecidableEq, Repr

variable [DecidableEq κ] (key : α → κ)

def answer (slot : Option α) : Request α κ → Answer α
  | .offer a =>
    match slot with
    | none => .taken a
    | some _ => .refused a
  | .giveBack k =>
    match slot with
    | none => .ignored
    | some a => if k = key a then .givenBack a else .ignored

def step (slot : Option α) (r : Request α κ) : Option α :=
  match answer key slot r with
  | .taken a => some a
  | .givenBack _ => none
  | .refused _ => slot
  | .ignored => slot

/-- The changes of the slot among the answers. -/
def Answer.change : Answer α → Option (Answer α)
  | .taken a => some (.taken a)
  | .givenBack a => some (.givenBack a)
  | .refused _ => none
  | .ignored => none

/-- An item comes and goes. -/
def stay (a : α) : List (Answer α) := [.taken a, .givenBack a]

def answers (slot : Option α) (rs : List (Request α κ)) : List (Answer α) :=
  outputs (step key) (fun slot r => [answer key slot r]) slot rs

/-- Something put out for each answer. -/
theorem answers_flatMap {ο : Type*} (f : Answer α → List ο) (slot : Option α)
    (rs : List (Request α κ)) :
    outputs (step key) (fun slot r => f (answer key slot r)) slot rs =
      (answers key slot rs).flatMap f := by
  induction rs generalizing slot with
  | nil => rfl
  | cons r rs ih =>
    rw [outputs_cons, ih]
    exact List.flatMap_cons.symm

/-- With the item in the slot at the start, stays follow one another, and the last
one may still last. -/
theorem stays (slot : Option α) (rs : List (Request α κ)) :
    ∃ past : List α,
      slot.toList.map Answer.taken ++ (answers key slot rs).filterMap Answer.change =
        past.flatMap stay ++ (run (step key) slot rs).toList.map .taken := by
  induction rs generalizing slot with
  | nil => exact ⟨[], List.append_nil _⟩
  | cons r rs ih =>
    obtain ⟨past, hpast⟩ := ih (step key slot r)
    have hcons : answers key slot (r :: rs) =
        answer key slot r :: answers key (step key slot r) rs := rfl
    rw [hcons, run_cons]
    rcases slot with _ | a
    · cases r with
      | offer b => exact ⟨past, hpast⟩
      | giveBack k => exact ⟨past, hpast⟩
    · cases r with
      | offer b => exact ⟨past, hpast⟩
      | giveBack k =>
        by_cases hk : k = key a
        · refine ⟨a :: past, ?_⟩
          have hanswer : answer key (some a) (.giveBack k) = .givenBack a := if_pos hk
          have hstep : step key (some a) (.giveBack k) = none := by rw [step, hanswer]
          rw [hstep] at hpast
          rw [hanswer, hstep, List.flatMap_cons, List.append_assoc, ← hpast]
          rfl
        · refine ⟨past, ?_⟩
          have hanswer : answer key (some a) (.giveBack k) = .ignored := if_neg hk
          have hstep : step key (some a) (.giveBack k) = some a := by rw [step, hanswer]
          rw [hstep] at hpast
          rw [hanswer, hstep, ← hpast]
          rfl

end WchIotSdk.SingleSlot
