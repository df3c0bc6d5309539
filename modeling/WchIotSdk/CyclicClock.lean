import Mathlib.Tactic

/-!
# Distances on a cyclic clock

A clock of period `D` counts from 0 to `D - 1` and starts over. The distance
ahead from one count to another is the number of increments that lead from the
first to the second, going around the period where necessary.
-/
namespace WchIotSdk.CyclicClock

/-- Increments from count `a` to count `b` on a clock of period `D`. -/
def ahead (D a b : ℤ) : ℤ := (b - a) % D

theorem ahead_lt {D : ℤ} (hD : 0 < D) (a b : ℤ) : ahead D a b < D :=
  Int.emod_lt_of_pos _ hD

/-- Only the residue of the target matters. -/
theorem ahead_emod_right (D a b : ℤ) : ahead D a (b % D) = ahead D a b := by
  unfold ahead
  rw [Int.sub_emod, Int.emod_emod_of_dvd b (dvd_refl D), ← Int.sub_emod]

/-- Within one period, in the order of the counts, the distance is the plain
difference; the other way round it passes the end of the period once. -/
theorem ahead_of_le {D a b : ℤ} (hab : a ≤ b) (hb : b - a < D) : ahead D a b = b - a :=
  Int.emod_eq_of_lt (by omega) hb

theorem ahead_of_lt {D a b : ℤ} (hab : b < a) (ha : a - b ≤ D) : ahead D a b = b + D - a := by
  unfold ahead
  rw [← Int.add_emod_right, Int.emod_eq_of_lt (by omega) (by omega)]
  ring

/-- Moving the target back by no more than the distance to it shortens the
distance by that amount. -/
theorem ahead_sub {D a b l : ℤ} (hD : 0 < D) (hl : 0 ≤ l) (hle : l ≤ ahead D a b) :
    ahead D a (b - l) = ahead D a b - l := by
  have hlt := ahead_lt hD a b
  have hsplit : b - l - a = ahead D a b - l + D * ((b - a) / D) := by
    have := Int.emod_add_mul_ediv (b - a) D
    unfold ahead
    omega
  rw [ahead, hsplit, Int.add_mul_emod_self_left, Int.emod_eq_of_lt (by omega) (by omega)]

end WchIotSdk.CyclicClock
