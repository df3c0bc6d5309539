import Mathlib.Tactic

/-!
# The first of numbered slots to answer

Slots are numbered; a query asks them in order and takes the first answer. A run
of slots can be cut in two, so that a table can be compared with what it was
filled from piece by piece.
-/
namespace WchIotSdk.FirstMatch

variable {β : Type*}

/-- The first answer of the `n` slots from `i` on. -/
def firstSome (f : ℕ → Option β) : ℕ → ℕ → Option β
  | _, 0 => none
  | i, n + 1 => (f i).or (firstSome f (i + 1) n)

@[simp] theorem firstSome_zero (f : ℕ → Option β) (i : ℕ) : firstSome f i 0 = none := rfl

theorem firstSome_succ (f : ℕ → Option β) (i n : ℕ) :
    firstSome f i (n + 1) = (f i).or (firstSome f (i + 1) n) := rfl

theorem firstSome_add (f : ℕ → Option β) (i m n : ℕ) :
    firstSome f i (m + n) = (firstSome f i m).or (firstSome f (i + m) n) := by
  induction m generalizing i with
  | zero => simp
  | succ m ih =>
    have hnext : i + 1 + m = i + (m + 1) := by omega
    rw [Nat.succ_add, firstSome_succ, firstSome_succ, ih, Option.or_assoc, hnext]

theorem firstSome_map {γ : Type*} (f : ℕ → Option β) (g : β → γ) (i n : ℕ) :
    firstSome (fun j => (f j).map g) i n = (firstSome f i n).map g := by
  induction n generalizing i with
  | zero => rfl
  | succ n ih =>
    rw [firstSome_succ, firstSome_succ, ih]
    cases f i <;> rfl

theorem firstSome_congr {f g : ℕ → Option β} {i n : ℕ}
    (h : ∀ j, i ≤ j → j < i + n → f j = g j) : firstSome f i n = firstSome g i n := by
  induction n generalizing i with
  | zero => rfl
  | succ n ih =>
    rw [firstSome_succ, firstSome_succ, h i le_rfl (by omega)]
    congr 1
    apply ih
    intro j hj hn
    exact h j (by omega) (by omega)

theorem firstSome_eq_none_iff {f : ℕ → Option β} {i n : ℕ} :
    firstSome f i n = none ↔ ∀ j, i ≤ j → j < i + n → f j = none := by
  induction n generalizing i with
  | zero =>
    simp only [firstSome_zero, true_iff]
    intro j hj hn
    omega
  | succ n ih =>
    rw [firstSome_succ, Option.or_eq_none_iff, ih]
    constructor
    · intro hfound j hj hn
      obtain ⟨hi, hrest⟩ := hfound
      by_cases hij : j = i
      · rwa [hij]
      · exact hrest j (by omega) (by omega)
    · intro h
      exact ⟨h i le_rfl (by omega), fun j hj hn => h j (by omega) (by omega)⟩

/-- An answer comes from one slot, and the slots before it do not answer. -/
theorem firstSome_eq_some_iff {f : ℕ → Option β} {i n : ℕ} {b : β} :
    firstSome f i n = some b ↔
      ∃ j, i ≤ j ∧ j < i + n ∧ f j = some b ∧ ∀ k, i ≤ k → k < j → f k = none := by
  induction n generalizing i with
  | zero =>
    simp only [firstSome_zero, reduceCtorEq, false_iff]
    intro hfound
    obtain ⟨j, hj, hn, _⟩ := hfound
    omega
  | succ n ih =>
    rw [firstSome_succ]
    cases hi : f i with
    | some c =>
      rw [Option.some_or]
      constructor
      · intro hc
        exact ⟨i, le_rfl, by omega, by rw [hi, hc], fun k hk hki => by omega⟩
      · intro hfound
        obtain ⟨j, hj, _, hb, hbefore⟩ := hfound
        by_cases hij : j = i
        · rw [← hb, hij, hi]
        · have hnone := hbefore i le_rfl (by omega)
          rw [hi] at hnone
          cases hnone
    | none =>
      rw [Option.none_or, ih]
      constructor
      · intro hfound
        obtain ⟨j, hj, hn, hb, hbefore⟩ := hfound
        refine ⟨j, by omega, by omega, hb, fun k hk hkj => ?_⟩
        by_cases hik : k = i
        · rwa [hik]
        · exact hbefore k (by omega) hkj
      · intro hfound
        obtain ⟨j, hj, hn, hb, hbefore⟩ := hfound
        have hij : j ≠ i := by
          intro hij
          rw [hij, hi] at hb
          cases hb
        exact ⟨j, by omega, by omega, hb, fun k hk hkj => hbefore k (by omega) hkj⟩

end WchIotSdk.FirstMatch
