import WchIotSdk.EventRuns

/-!
# The value of the last write

A store of registers is written one register at a time. After a list of writes each
register holds the value of the last write to it, and its first value if there is
none. A machine whose every step changes its registers by the writes of that step
holds the last written values after every run.
-/
namespace WchIotSdk.LastWrite
open EventRuns

variable {κ α : Type*} [DecidableEq κ]

def lastWritten (init : κ → α) (writes : List (κ × α)) (k : κ) : α :=
  (((writes.filter fun w => w.1 = k).getLast?).map Prod.snd).getD (init k)

@[simp] theorem lastWritten_nil (init : κ → α) : lastWritten init [] = init := rfl

theorem lastWritten_append (init : κ → α) (writes writes' : List (κ × α)) :
    lastWritten init (writes ++ writes') = lastWritten (lastWritten init writes) writes' := by
  funext k
  rw [lastWritten, List.filter_append, List.getLast?_append, lastWritten]
  cases (writes'.filter fun w => w.1 = k).getLast? with
  | none => rfl
  | some w => rfl

theorem lastWritten_singleton (init : κ → α) (k : κ) (v : α) :
    lastWritten init [(k, v)] = Function.update init k v := by
  funext j
  by_cases h : j = k
  · subst h
    simp [lastWritten]
  · simp [lastWritten, h, Ne.symm h]

theorem run_lastWritten {σ ε : Type*} {step : σ → ε → σ} {p : σ → ε → Prop}
    {value : σ → κ → α} {writes : σ → ε → List (κ × α)}
    (hstep : ∀ s e, p s e → value (step s e) = lastWritten (value s) (writes s e)) {s : σ}
    {es : List ε} (hp : Along step p s es) :
    value (run step s es) = lastWritten (value s) (outputs step writes s es) := by
  induction es generalizing s with
  | nil => rfl
  | cons e es ih => rw [run_cons, ih hp.2, hstep s e hp.1, outputs_cons, lastWritten_append]

/-- A single register, written by the events that name a value for it. -/
theorem run_register {ε : Type*} (written : ε → Option α) (a : α) (es : List ε) :
    run (fun a e => (written e).getD a) a es = ((es.filterMap written).getLast?).getD a := by
  induction es generalizing a with
  | nil => rfl
  | cons e es ih =>
    rw [run_cons, ih]
    cases he : written e with
    | none => rw [List.filterMap_cons_none he, Option.getD_none]
    | some v =>
      rw [List.filterMap_cons_some he, List.getLast?_cons, Option.getD_some, Option.getD_some]

end WchIotSdk.LastWrite
