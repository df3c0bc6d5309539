import Mathlib.Tactic

/-!
# Runs of a deterministic machine over a list of events

A machine is a step function. Its run over a finite list of events is the left
fold of that function, so an arbitrary list of events is an arbitrary schedule.
A condition on steps relates an event to the state in which it happens; it is
carried along a run by recursion on the events.
-/
namespace WchIotSdk.EventRuns

variable {σ ε : Type*}

/-- State reached after the events, in order. -/
def run (step : σ → ε → σ) (s : σ) : List ε → σ
  | [] => s
  | e :: es => run step (step s e) es

/-- Every event of the list meets `p` in the state in which it happens. -/
def Along (step : σ → ε → σ) (p : σ → ε → Prop) (s : σ) : List ε → Prop
  | [] => True
  | e :: es => p s e ∧ Along step p (step s e) es

/-- What the events put out, in order, each in the state in which it happens. -/
def outputs {ο : Type*} (step : σ → ε → σ) (out : σ → ε → List ο) (s : σ) : List ε → List ο
  | [] => []
  | e :: es => out s e ++ outputs step out (step s e) es

@[simp] theorem run_nil (step : σ → ε → σ) (s : σ) : run step s [] = s := rfl

@[simp] theorem run_cons (step : σ → ε → σ) (s : σ) (e : ε) (es : List ε) :
    run step s (e :: es) = run step (step s e) es := rfl

@[simp] theorem along_nil (step : σ → ε → σ) (p : σ → ε → Prop) (s : σ) :
    Along step p s [] := trivial

@[simp] theorem along_cons (step : σ → ε → σ) (p : σ → ε → Prop) (s : σ) (e : ε)
    (es : List ε) : Along step p s (e :: es) ↔ p s e ∧ Along step p (step s e) es := Iff.rfl

@[simp] theorem outputs_cons {ο : Type*} (step : σ → ε → σ) (out : σ → ε → List ο) (s : σ) (e : ε)
    (es : List ε) :
    outputs step out s (e :: es) = out s e ++ outputs step out (step s e) es := rfl

theorem run_append (step : σ → ε → σ) (s : σ) (es fs : List ε) :
    run step s (es ++ fs) = run step (run step s es) fs := by
  induction es generalizing s with
  | nil => rfl
  | cons e es ih => simp [ih]

theorem along_append (step : σ → ε → σ) (p : σ → ε → Prop) (s : σ) (es fs : List ε) :
    Along step p s (es ++ fs) ↔ Along step p s es ∧ Along step p (run step s es) fs := by
  induction es generalizing s with
  | nil => simp
  | cons e es ih => simp [ih, and_assoc]

/-- Decidable step conditions can be evaluated along a concrete run. -/
instance decidableAlong (step : σ → ε → σ) (p : σ → ε → Prop) [∀ s e, Decidable (p s e)] :
    ∀ s es, Decidable (Along step p s es)
  | _, [] => inferInstanceAs (Decidable True)
  | s, e :: es =>
    have := decidableAlong step p (step s e) es
    inferInstanceAs (Decidable (p s e ∧ Along step p (step s e) es))

/-- A view of the state that every step changes without the rest of the state. -/
theorem run_map {τ : Type*} {view : σ → τ} {step : σ → ε → σ} {step' : τ → ε → τ}
    (hstep : ∀ s e, view (step s e) = step' (view s) e) (s : σ) (es : List ε) :
    view (run step s es) = run step' (view s) es := by
  induction es generalizing s with
  | nil => rfl
  | cons e es ih => rw [run_cons, run_cons, ih, hstep]

theorem outputs_append {ο : Type*} (step : σ → ε → σ) (out : σ → ε → List ο) (s : σ)
    (es fs : List ε) :
    outputs step out s (es ++ fs) =
      outputs step out s es ++ outputs step out (run step s es) fs := by
  induction es generalizing s with
  | nil => rfl
  | cons e es ih => simp [ih]

/-- A view of the state that is a machine of its own, in which an event is a list of
events. -/
theorem run_view {τ ε' : Type*} {view : σ → τ} {seen : ε → List ε'} {step : σ → ε → σ}
    {step' : τ → ε' → τ} {ok : ε → Prop}
    (hstep : ∀ s e, ok e → view (step s e) = run step' (view s) (seen e)) (s : σ) {es : List ε}
    (hok : ∀ e ∈ es, ok e) : view (run step s es) = run step' (view s) (es.flatMap seen) := by
  induction es generalizing s with
  | nil => rfl
  | cons e es ih =>
    rw [List.forall_mem_cons] at hok
    rw [run_cons, ih _ hok.2, hstep s e hok.1, List.flatMap_cons, run_append]

/-- What such a view puts out is found in what the machine puts out. -/
theorem outputs_view {τ ε' ο ο' : Type*} {view : σ → τ} {seen : ε → List ε'} {step : σ → ε → σ}
    {step' : τ → ε' → τ} {out : σ → ε → List ο} {out' : τ → ε' → List ο'} {shown : ο → Option ο'}
    {ok : ε → Prop} (hstep : ∀ s e, ok e → view (step s e) = run step' (view s) (seen e))
    (hout : ∀ s e, ok e → (out s e).filterMap shown = outputs step' out' (view s) (seen e)) (s : σ)
    {es : List ε} (hok : ∀ e ∈ es, ok e) :
    (outputs step out s es).filterMap shown = outputs step' out' (view s) (es.flatMap seen) := by
  induction es generalizing s with
  | nil => rfl
  | cons e es ih =>
    rw [List.forall_mem_cons] at hok
    rw [outputs_cons, List.filterMap_append, hout s e hok.1, ih _ hok.2, hstep s e hok.1,
      List.flatMap_cons, outputs_append]

/-- A property kept by every step whose event meets `p` holds at the end of a
run all of whose events meet `p`. -/
theorem run_invariant {step : σ → ε → σ} {p : σ → ε → Prop} {inv : σ → Prop}
    (hstep : ∀ s e, inv s → p s e → inv (step s e)) {s : σ} (hs : inv s) {es : List ε}
    (hp : Along step p s es) : inv (run step s es) := by
  induction es generalizing s with
  | nil => exact hs
  | cons e es ih => exact ih (hstep s e hs hp.1) hp.2

/-- A property kept by every step holds at the end of every run. -/
theorem run_preserves {step : σ → ε → σ} {inv : σ → Prop}
    (hstep : ∀ s e, inv s → inv (step s e)) {s : σ} (hs : inv s) (es : List ε) :
    inv (run step s es) := by
  induction es generalizing s with
  | nil => exact hs
  | cons e es ih => exact ih (hstep s e hs)

/-- Two step conditions that agree under an invariant, which the steps meeting
the second one keep, agree along whole runs. -/
theorem along_congr {step : σ → ε → σ} {p q : σ → ε → Prop} {inv : σ → Prop}
    (hpq : ∀ s e, inv s → (p s e ↔ q s e))
    (hstep : ∀ s e, inv s → q s e → inv (step s e)) {s : σ} (hs : inv s) (es : List ε) :
    Along step p s es ↔ Along step q s es := by
  induction es generalizing s with
  | nil => exact Iff.rfl
  | cons e es ih =>
    rw [along_cons, along_cons, hpq s e hs]
    exact and_congr_right fun hq => ih (hstep s e hs hq)

/-- A step condition passes over to another one that follows from it under an
invariant. -/
theorem along_mono {step : σ → ε → σ} {p q : σ → ε → Prop} {inv : σ → Prop}
    (hstep : ∀ s e, inv s → p s e → q s e ∧ inv (step s e)) {s : σ} (hs : inv s) {es : List ε}
    (hp : Along step p s es) : Along step q s es := by
  induction es generalizing s with
  | nil => trivial
  | cons e es ih =>
    obtain ⟨hq, hnext⟩ := hstep s e hs hp.1
    exact ⟨hq, ih hnext hp.2⟩

/-- A step condition that says the same of an event in every state. -/
theorem along_iff_forall {step : σ → ε → σ} {p : σ → ε → Prop} {q : ε → Prop}
    (hpq : ∀ s e, p s e ↔ q e) (s : σ) (es : List ε) :
    Along step p s es ↔ ∀ e ∈ es, q e := by
  induction es generalizing s with
  | nil => simp
  | cons e es ih => rw [along_cons, hpq, ih, List.forall_mem_cons]

/-- An invariant that carries, as a proposition, whether all steps so far met `p`. -/
theorem run_tracked {step : σ → ε → σ} {p : σ → ε → Prop} {ok : ε → Prop}
    {inv : Prop → σ → Prop}
    (hstep : ∀ q s e, ok e → inv q s → inv (q ∧ p s e) (step s e)) {q : Prop} {s : σ}
    (hs : inv q s) {es : List ε} (hok : ∀ e ∈ es, ok e) :
    inv (q ∧ Along step p s es) (run step s es) := by
  induction es generalizing q s with
  | nil => simpa using hs
  | cons e es ih =>
    rw [along_cons, ← and_assoc]
    exact ih (hstep q s e (hok e List.mem_cons_self) hs)
      fun e' he' => hok e' (List.mem_cons_of_mem e he')

/-- A measure that every event lowers unless it leaves the state alone is lowered by
events one of which would change the state. -/
theorem run_lowers {step : σ → ε → σ} {ok : ε → Prop} {measure : σ → ℕ}
    (hstep : ∀ s e, ok e → step s e = s ∨ measure (step s e) < measure s) {s : σ} {es : List ε}
    (hok : ∀ e ∈ es, ok e) (hchange : ∃ e ∈ es, step s e ≠ s) :
    measure (run step s es) < measure s := by
  have hmono (t : σ) (fs : List ε) (hfs : ∀ e ∈ fs, ok e) :
      measure (run step t fs) ≤ measure t := by
    induction fs generalizing t with
    | nil => exact le_rfl
    | cons f fs ih =>
      refine (ih (step t f) fun e he => hfs e (List.mem_cons_of_mem f he)).trans ?_
      rcases hstep t f (hfs f List.mem_cons_self) with heq | hlt
      · rw [heq]
      · exact hlt.le
  induction es with
  | nil => obtain ⟨e, he, -⟩ := hchange; cases he
  | cons f es ih =>
    have hrest (e : ε) (he : e ∈ es) : ok e := hok e (List.mem_cons_of_mem f he)
    rcases hstep s f (hok f List.mem_cons_self) with heq | hlt
    · rw [run_cons, heq]
      obtain ⟨e, he, hne⟩ := hchange
      rcases List.mem_cons.mp he with rfl | he
      · exact absurd heq hne
      · exact ih hrest ⟨e, he, hne⟩
    · exact (hmono (step s f) es hrest).trans_lt hlt

/-- Rounds of events, each of which would change any state that is not final, come to a
final state in as many rounds as the measure says. -/
theorem run_rounds {step : σ → ε → σ} {ok : ε → Prop} {measure : σ → ℕ} {final : σ → Prop}
    (hstep : ∀ s e, ok e → step s e = s ∨ measure (step s e) < measure s)
    (hfinal : ∀ s e, ok e → final s → final (step s e)) {rounds : List (List ε)}
    (hok : ∀ es ∈ rounds, ∀ e ∈ es, ok e)
    (hchange : ∀ es ∈ rounds, ∀ s, ¬ final s → ∃ e ∈ es, step s e ≠ s) {s : σ}
    (hrounds : measure s < rounds.length) : final (run step s rounds.flatten) := by
  induction rounds generalizing s with
  | nil => exact absurd hrounds (Nat.not_lt_zero _)
  | cons es rounds ih =>
    have hrest (fs : List ε) (hfs : fs ∈ rounds) := hok fs (List.mem_cons_of_mem es hfs)
    rw [List.flatten_cons, run_append]
    by_cases hs : final s
    · have hall (e : ε) (he : e ∈ es ++ rounds.flatten) : ok e := by
        rcases List.mem_append.mp he with he | he
        · exact hok es List.mem_cons_self e he
        · obtain ⟨fs, hfs, he⟩ := List.mem_flatten.mp he
          exact hrest fs hfs e he
      rw [← run_append]
      have halong : Along step (fun _ e => ok e) s (es ++ rounds.flatten) :=
        (along_iff_forall (p := fun _ e => ok e) (fun _ e => Iff.rfl) s _).mpr hall
      exact run_invariant (fun t e ht he => hfinal t e he ht) hs halong
    · have hlt := run_lowers hstep (hok es List.mem_cons_self) (hchange es List.mem_cons_self s hs)
      refine ih hrest (fun fs hfs => hchange fs (List.mem_cons_of_mem es hfs)) ?_
      rw [List.length_cons] at hrounds
      omega

end WchIotSdk.EventRuns
