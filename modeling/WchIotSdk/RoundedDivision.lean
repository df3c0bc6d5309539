import Mathlib.Algebra.Order.Floor.Semifield
import Mathlib.Tactic

/-!
# Rounded division

The quotient of two naturals rounded to the nearest natural, halves up. With the
dividend scaled by an even factor it is obtained from two divisions that round
down. Rounding in any of three directions is one division that rounds down,
after an offset has been added to the dividend.
-/
namespace WchIotSdk.RoundedDivision

/-- `a / b` rounded half up. -/
def roundHalfUp (a b : ℕ) : ℕ := (2 * a + b) / (2 * b)

variable {a b : ℕ}

theorem le_roundHalfUp_iff (hb : 0 < b) {q : ℕ} :
    q ≤ roundHalfUp a b ↔ q * (2 * b) ≤ 2 * a + b :=
  Nat.le_div_iff_mul_le (by omega)

theorem roundHalfUp_lt_iff (hb : 0 < b) {q : ℕ} :
    roundHalfUp a b < q ↔ 2 * a + b < q * (2 * b) :=
  Nat.div_lt_iff_lt_mul (by omega)

/-- Rounding down twice with a scaled dividend loses nothing. -/
theorem scaled_div_eq {h : ℕ} (hh : 0 < h) (hb : 0 < b) :
    (2 * h * a / b + h) / (2 * h) = roundHalfUp a b := by
  calc (2 * h * a / b + h) / (2 * h)
      = ((2 * h * a + b * h) / b) / (2 * h) := by rw [Nat.add_mul_div_left _ _ hb]
    _ = (2 * h * a + b * h) / (b * (2 * h)) := Nat.div_div_eq_div_mul _ _ _
    _ = (h * (2 * a + b)) / (h * (2 * b)) := by
      congr 1 <;> ring
    _ = roundHalfUp a b := Nat.mul_div_mul_left _ _ hh

/-- The direction in which a nonnegative rational becomes a natural. -/
inductive Rounding where
  | floor
  | near
  | ceil
  deriving DecidableEq, Repr

namespace Rounding

/-- Halves go up. -/
def round : Rounding → ℚ → ℕ
  | floor, x => ⌊x⌋₊
  | near, x => ⌊x + 1 / 2⌋₊
  | ceil, x => ⌈x⌉₊

/-- What makes a division by `b` round in this direction. -/
def offset : Rounding → ℕ → ℕ
  | floor, _ => 0
  | near, b => b / 2
  | ceil, b => b - 1

theorem offset_lt (r : Rounding) (hb : 0 < b) : r.offset b < b := by
  cases r <;> simp only [offset] <;> omega

theorem near_div (hb : 0 < b) : (a + b / 2) / b = roundHalfUp a b := by
  refine eq_of_forall_le_iff fun q => ?_
  rw [le_roundHalfUp_iff hb, Nat.le_div_iff_mul_le hb, Nat.mul_left_comm]
  omega

theorem ceil_div (hb : 0 < b) : (a + (b - 1)) / b = ⌈(a / b : ℚ)⌉₊ := by
  refine eq_of_forall_ge_iff fun q => ?_
  have hbq : (0 : ℚ) < b := by exact_mod_cast hb
  rw [Nat.ceil_le, div_le_iff₀ hbq, ← Nat.lt_succ_iff, Nat.div_lt_iff_lt_mul hb, Nat.succ_mul]
  norm_cast
  omega

/-- One division that rounds down gives the exact quotient, rounded. -/
theorem offset_div (r : Rounding) (hb : 0 < b) :
    (a + r.offset b) / b = r.round (a / b) := by
  cases r with
  | floor => exact (Nat.floor_div_eq_div a b).symm
  | near =>
    have hhalf : (a / b + 1 / 2 : ℚ) = (2 * a + b : ℕ) / (2 * b : ℕ) := by
      have hbq : (b : ℚ) ≠ 0 := by exact_mod_cast hb.ne'
      push_cast
      field_simp
    change (a + b / 2) / b = ⌊(a / b + 1 / 2 : ℚ)⌋₊
    rw [near_div hb, hhalf, Nat.floor_div_eq_div]
    rfl
  | ceil => exact ceil_div hb

theorem round_natCast (r : Rounding) (n : ℕ) : r.round n = n := by
  cases r with
  | floor => exact Nat.floor_natCast n
  | near => exact (Nat.floor_eq_iff (by positivity)).2 ⟨by norm_num, by norm_num⟩
  | ceil => exact Nat.ceil_natCast n

theorem round_mono (r : Rounding) : Monotone r.round := by
  intro x y hxy
  cases r with
  | floor => exact Nat.floor_mono hxy
  | near => exact Nat.floor_mono (by linarith)
  | ceil => exact Nat.ceil_mono hxy

theorem round_le (r : Rounding) {x : ℚ} {n : ℕ} (hx : x ≤ n) : r.round x ≤ n :=
  (r.round_mono hx).trans_eq (r.round_natCast n)

/-- A whole part passes through unrounded. -/
theorem round_add_natCast (r : Rounding) {x : ℚ} (hx : 0 ≤ x) (n : ℕ) :
    r.round (x + n) = r.round x + n := by
  cases r with
  | floor => exact Nat.floor_add_natCast hx n
  | near =>
    change ⌊(x + n + 1 / 2 : ℚ)⌋₊ = ⌊x + 1 / 2⌋₊ + n
    rw [add_right_comm, Nat.floor_add_natCast (by positivity)]
  | ceil => exact Nat.ceil_add_natCast hx n

/-- Scaling the whole multiples of the divisor apart from the rest of the
dividend gives the same quotient. -/
theorem split_div (r : Rounding) (hb : 0 < b) (c : ℕ) :
    a / b * c + (a % b * c + r.offset b) / b = r.round (a * c / b) := by
  have hbq : (b : ℚ) ≠ 0 := by exact_mod_cast hb.ne'
  have hsplit : (a * c / b : ℚ) = (a % b * c : ℕ) / b + (a / b * c : ℕ) := by
    have hdiv : ((b * (a / b) + a % b : ℕ) : ℚ) = a := by exact_mod_cast Nat.div_add_mod a b
    rw [← hdiv]
    push_cast
    field_simp
    ring
  rw [r.offset_div hb, hsplit, r.round_add_natCast (by positivity), Nat.add_comm]

/-- Up into one unit and down into the other are adjoint. -/
theorem ceil_le_iff_le_floor (hb : 0 < b) {c m : ℕ} (hc : 0 < c) :
    ceil.round (a * c / b) ≤ m ↔ a ≤ floor.round (m * b / c) := by
  have hbq : (0 : ℚ) < b := by exact_mod_cast hb
  have hcq : (0 : ℚ) < c := by exact_mod_cast hc
  change ⌈(a * c / b : ℚ)⌉₊ ≤ m ↔ a ≤ ⌊(m * b / c : ℚ)⌋₊
  rw [Nat.ceil_le, Nat.le_floor_iff (by positivity), div_le_iff₀ hbq, le_div_iff₀ hcq]

/-- Up into a unit at least as fine and down again loses nothing. -/
theorem floor_ceil_cancel (hb : 0 < b) {c : ℕ} (hbc : b ≤ c) :
    floor.round (ceil.round (a * c / b) * b / c) = a := by
  have hc : 0 < c := hb.trans_le hbc
  refine le_antisymm ?_ ((ceil_le_iff_le_floor hb hc).1 le_rfl)
  have hbq : (0 : ℚ) < b := by exact_mod_cast hb
  have hcq : (0 : ℚ) < c := by exact_mod_cast hc
  have hup : (ceil.round (a * c / b) : ℚ) < a * c / b + 1 := Nat.ceil_lt_add_one (by positivity)
  have hback : (ceil.round (a * c / b) : ℚ) * b / c < a + 1 := by
    have hle : (b : ℚ) ≤ c := by exact_mod_cast hbc
    rw [div_lt_iff₀ hcq]
    calc (ceil.round (a * c / b) : ℚ) * b
        < (a * c / b + 1) * b := mul_lt_mul_of_pos_right hup hbq
      _ = a * c + b := by field_simp
      _ ≤ (a + 1) * c := by linarith
  exact Nat.lt_succ_iff.1 ((Nat.floor_lt (by positivity)).2 (by exact_mod_cast hback))

end Rounding

end WchIotSdk.RoundedDivision
