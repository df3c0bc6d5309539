import WchIotSdk.EventRuns
import Mathlib.Data.BitVec

/-!
# Tasks that serve one event a call

A task is called with a word of pending events, one bit each. It serves the first
event of its list that is pending and returns the word without it. With none of
its events pending it returns zero. The scheduler keeps the word returned, and
other code posts events between the calls.
-/
namespace WchIotSdk.TaskEvents
open EventRuns

/-- The numbers of the events a task knows, in the order of its tests. -/
structure Task (w : ℕ) where
  bits : List ℕ
  nodup : bits.Nodup
  lt : ∀ i ∈ bits, i < w

variable {w : ℕ} (k : Task w) {word : BitVec w} {i : ℕ}

namespace Task

/-- The event served by a call. -/
def first (word : BitVec w) : Option ℕ := k.bits.find? word.getLsbD

/-- The word a call returns. -/
def rest (word : BitVec w) : BitVec w :=
  match k.first word with
  | some i => word ^^^ BitVec.twoPow w i
  | none => 0

/-- The events of the task that are pending, in the order of its tests. -/
def pending (word : BitVec w) : List ℕ := k.bits.filter word.getLsbD

theorem first_eq_head? (word : BitVec w) : k.first word = (k.pending word).head? :=
  List.head?_filter.symm

theorem first_mem (h : k.first word = some i) : i ∈ k.bits := List.mem_of_find?_eq_some h

theorem first_set (h : k.first word = some i) : word.getLsbD i = true :=
  List.find?_some h

/-- A call clears the event it serves and no other one of the task. -/
theorem rest_getLsbD {j : ℕ} (hj : j ∈ k.bits) :
    (k.rest word).getLsbD j = (word.getLsbD j && decide (k.first word ≠ some j)) := by
  unfold rest
  cases hfirst : k.first word with
  | none =>
    have hclear := List.find?_eq_none.1 hfirst j hj
    simp_all
  | some i =>
    have hi := k.lt i (k.first_mem hfirst)
    have hset := k.first_set hfirst
    rw [BitVec.getLsbD_xor, BitVec.getLsbD_twoPow]
    by_cases hij : i = j
    · subst hij
      simp [hset, hi]
    · simp [hij]

/-- What is pending afterwards is all but the first. -/
theorem pending_rest (word : BitVec w) : k.pending (k.rest word) = (k.pending word).tail := by
  have hkeep : k.pending (k.rest word) =
      (k.pending word).filter fun j => decide (k.first word ≠ some j) := by
    unfold pending
    rw [List.filter_filter]
    refine List.filter_congr fun j hj => ?_
    rw [k.rest_getLsbD hj, Bool.and_comm]
  have hnodup : (k.pending word).Nodup := k.nodup.filter _
  rw [hkeep, k.first_eq_head?]
  cases hp : k.pending word with
  | nil => rfl
  | cons i is =>
    rw [hp, List.nodup_cons] at hnodup
    rw [List.head?_cons, List.tail_cons, List.filter_cons_of_neg (by simp)]
    refine List.filter_eq_self.2 fun j hj => ?_
    have hne : i ≠ j := fun h => hnodup.1 (h ▸ hj)
    simpa using hne

theorem rest_eq_zero (h : k.pending word = []) : k.rest word = 0 := by
  have hfirst : k.first word = none := by rw [k.first_eq_head?, h]; rfl
  rw [rest, hfirst]

end Task

/-- The test of a task for one of its events. -/
theorem and_twoPow_ne_zero (hi : i < w) :
    word &&& BitVec.twoPow w i ≠ 0 ↔ word.getLsbD i = true := by
  rw [BitVec.and_twoPow]
  cases word.getLsbD i with
  | false => simp
  | true =>
    simp only [if_true, iff_true]
    intro hzero
    have hbit := congrArg (BitVec.getLsbD · i) hzero
    simp [hi] at hbit

/-- Events are posted, or the scheduler calls the task. -/
inductive Activity (w : ℕ) where
  | post (events : BitVec w)
  | call
  deriving DecidableEq, Repr

def step (word : BitVec w) : Activity w → BitVec w
  | .post events => word ||| events
  | .call => k.rest word

/-- The event served by an activity. -/
def served (word : BitVec w) : Activity w → List ℕ
  | .post _ => []
  | .call => (k.first word).toList

/-- The posts of an event. -/
def Activity.posts (i : ℕ) : Activity w → Bool
  | .post events => events.getLsbD i
  | .call => false

/-- A pending event of the task stays pending until it is served. -/
theorem pending_or_served (hi : i ∈ k.bits) (hset : word.getLsbD i = true)
    (as : List (Activity w)) :
    (run (step k) word as).getLsbD i = true ∨ i ∈ outputs (step k) (served k) word as := by
  induction as generalizing word with
  | nil => exact Or.inl hset
  | cons a as ih =>
    rw [run_cons, outputs_cons, List.mem_append]
    cases a with
    | post events =>
      have hkept : (step k word (.post events)).getLsbD i = true := by simp [step, hset]
      exact (ih hkept).imp id Or.inr
    | call =>
      by_cases hfirst : k.first word = some i
      · exact Or.inr (Or.inl (by simp [served, hfirst]))
      · have hkept : (step k word .call).getLsbD i = true := by
          simp [step, k.rest_getLsbD hi, hset, hfirst]
        exact (ih hkept).imp id Or.inr

/-- One activity serves or leaves pending no more than was pending or posted. -/
lemma step_served_le (hi : i ∈ k.bits) (a : Activity w) :
    (served k word a).count i + ((step k word a).getLsbD i).toNat ≤
      (word.getLsbD i).toNat + (a.posts i).toNat := by
  cases a with
  | post events =>
    simp only [served, step, Activity.posts, List.count_nil, BitVec.getLsbD_or]
    cases word.getLsbD i <;> cases events.getLsbD i <;> decide
  | call =>
    simp only [served, step, Activity.posts, k.rest_getLsbD hi]
    by_cases hfirst : k.first word = some i
    · simp [hfirst, k.first_set hfirst]
    · have hcount : (k.first word).toList.count i = 0 :=
        List.count_eq_zero.2 (by simpa [eq_comm] using hfirst)
      simp [hcount, hfirst]

/-- No post is served twice. -/
theorem served_le_posts (hi : i ∈ k.bits) (as : List (Activity w)) :
    (outputs (step k) (served k) word as).count i + ((run (step k) word as).getLsbD i).toNat ≤
      (word.getLsbD i).toNat + as.countP (Activity.posts i) := by
  induction as generalizing word with
  | nil => simp [outputs]
  | cons a as ih =>
    have hone := @step_served_le w k word i hi a
    have hmore := @ih (step k word a)
    rw [outputs_cons, run_cons, List.count_append, List.countP_cons]
    have hpost : (if Activity.posts i a = true then 1 else 0) = (a.posts i).toNat := by
      cases a.posts i <;> rfl
    omega

/-- Calls in a row serve what is pending in the order of the tests. -/
theorem calls_serve (n : ℕ) (word : BitVec w) :
    outputs (step k) (served k) word (List.replicate n .call) = (k.pending word).take n := by
  induction n generalizing word with
  | zero => rfl
  | succ n ih =>
    rw [List.replicate_succ, outputs_cons, ih]
    change (k.first word).toList ++ (k.pending (k.rest word)).take n = _
    rw [k.first_eq_head?, k.pending_rest]
    cases k.pending word with
    | nil => simp
    | cons i is => rfl

lemma calls_zero (n : ℕ) : run (step k) 0 (List.replicate n .call) = 0 := by
  have hpending : k.pending 0 = [] := List.filter_eq_nil_iff.2 (by simp)
  induction n with
  | zero => rfl
  | succ n ih => rw [List.replicate_succ, run_cons, step, k.rest_eq_zero hpending, ih]

/-- One call more than there are events pending leaves nothing at all. -/
theorem calls_empty (word : BitVec w) {n : ℕ} (hn : (k.pending word).length < n) :
    run (step k) word (List.replicate n .call) = 0 := by
  induction n generalizing word with
  | zero => exact absurd hn (Nat.not_lt_zero _)
  | succ n ih =>
    rw [List.replicate_succ, run_cons, step]
    by_cases hpending : k.pending word = []
    · rw [k.rest_eq_zero hpending, calls_zero]
    · have hpos := List.length_pos_iff.2 hpending
      refine ih (k.rest word) ?_
      rw [k.pending_rest, List.length_tail]
      omega

section Programs

variable {σ α β ο : Type*}

/-- The code of a task: the function the scheduler calls, with what it is answered,
and callbacks, which get no word. A mark tells for which event an output was made. -/
structure Program (w : ℕ) (σ α β ο : Type*) where
  process : α → σ → BitVec w → σ × List ο × BitVec w
  callback : σ → β → σ × List ο
  mark : ο → Option ℕ

/-- What happens to a task and its word. -/
inductive Input (w : ℕ) (α β : Type*) where
  | post (events : BitVec w)
  | call (answers : α)
  | callback (args : β)

/-- What happens to the word. -/
def Input.activities : Input w α β → List (Activity w)
  | .post events => [.post events]
  | .call _ => [.call]
  | .callback _ => []

namespace Program

variable (P : Program w σ α β ο)

def step (s : σ × BitVec w) : Input w α β → σ × BitVec w
  | .post events => (s.1, s.2 ||| events)
  | .call answers => ((P.process answers s.1 s.2).1, (P.process answers s.1 s.2).2.2)
  | .callback args => ((P.callback s.1 args).1, s.2)

def out (s : σ × BitVec w) : Input w α β → List ο
  | .post _ => []
  | .call answers => (P.process answers s.1 s.2).2.1
  | .callback args => (P.callback s.1 args).2

/-- The code serves the events of a task. -/
structure Serves (k : Task w) : Prop where
  returned : ∀ a s word, (P.process a s word).2.2 = k.rest word
  marked : ∀ a s word, (P.process a s word).2.1.filterMap P.mark = (k.first word).toList
  silent : ∀ s b, (P.callback s b).2.filterMap P.mark = []

/-- The events served in a run, in order. -/
def served (s : σ × BitVec w) (es : List (Input w α β)) : List ℕ :=
  (outputs P.step P.out s es).filterMap P.mark

variable {P} {k}

theorem Serves.step_word (h : P.Serves k) (s : σ × BitVec w) (e : Input w α β) :
    (P.step s e).2 = run (TaskEvents.step k) s.2 e.activities := by
  cases e with
  | post events => rfl
  | call answers => exact h.returned answers s.1 s.2
  | callback args => rfl

theorem Serves.out_marks (h : P.Serves k) (s : σ × BitVec w) (e : Input w α β) :
    (P.out s e).filterMap P.mark =
      outputs (TaskEvents.step k) (TaskEvents.served k) s.2 e.activities := by
  cases e with
  | post events => rfl
  | call answers => exact (h.marked answers s.1 s.2).trans (List.append_nil _).symm
  | callback args => exact h.silent s.1 args

theorem Serves.run_word (h : P.Serves k) (s : σ × BitVec w) (es : List (Input w α β)) :
    (run P.step s es).2 = run (TaskEvents.step k) s.2 (es.flatMap Input.activities) :=
  run_view (fun s e _ => h.step_word s e) s fun _ _ => trivial

theorem Serves.served_eq (h : P.Serves k) (s : σ × BitVec w) (es : List (Input w α β)) :
    P.served s es = outputs (TaskEvents.step k) (TaskEvents.served k) s.2
      (es.flatMap Input.activities) :=
  outputs_view (fun s e _ => h.step_word s e) (fun s e _ => h.out_marks s e) s fun _ _ => trivial

/-- No event of the task is lost or served twice, whatever else happens. -/
structure KeepsEvents (P : Program w σ α β ο) (k : Task w) : Prop where
  kept : ∀ s es, ∀ i ∈ k.bits, s.2.getLsbD i = true →
    (run P.step s es).2.getLsbD i = true ∨ i ∈ P.served s es
  once : ∀ s es, ∀ i ∈ k.bits,
    (P.served s es).count i + ((run P.step s es).2.getLsbD i).toNat ≤
      (s.2.getLsbD i).toNat + (es.flatMap Input.activities).countP (Activity.posts i)
  /-- Left alone, the task serves what is pending in its order and then rests. -/
  ordered : ∀ s (answers : List α),
    P.served s (answers.map .call) = (k.pending s.2).take answers.length ∧
      ((k.pending s.2).length < answers.length → (run P.step s (answers.map .call)).2 = 0)

theorem Serves.keepsEvents (h : P.Serves k) : P.KeepsEvents k where
  kept s es i hi hset := by
    rw [h.run_word, h.served_eq]
    exact pending_or_served k hi hset _
  once s es i hi := by
    rw [h.run_word, h.served_eq]
    exact served_le_posts k hi _
  ordered s answers := by
    have hcalls : (answers.map Input.call : List (Input w α β)).flatMap Input.activities =
        List.replicate answers.length .call := by
      rw [List.flatMap_map]
      induction answers with
      | nil => rfl
      | cons a as ih => rw [List.flatMap_cons, ih, List.length_cons, List.replicate_succ]; rfl
    rw [h.run_word, h.served_eq, hcalls]
    exact ⟨calls_serve k _ _, calls_empty k _⟩

end Program

end Programs

end WchIotSdk.TaskEvents
