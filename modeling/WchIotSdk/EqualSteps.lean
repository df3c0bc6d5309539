import Mathlib.Data.BitVec
import Mathlib.GroupTheory.OrderOfElement
import Mathlib.Tactic

/-!
# Equal steps in an additive group

The places of a walk that always makes the same step are the multiples of the step
from where it starts. They are distinct for as many steps as the order of the step,
and no longer. An odd step on words of `w` bits has the order `2 ^ w`, so such a walk
meets every word before it comes back.
-/
namespace WchIotSdk.EqualSteps

section Group

variable {G : Type*} [AddGroup G] (x a : G)

/-- The first `n` places of the walk with step `a` that starts at `x`. -/
def places (n : ℕ) : List G := (List.range n).map fun i => x + i • a

theorem places_succ (n : ℕ) : places x a (n + 1) = x :: places (x + a) a n := by
  rw [places, List.range_succ_eq_map, List.map_cons, zero_nsmul, add_zero, List.map_map, places]
  congr 1
  apply List.map_congr_left
  intro i _
  rw [Function.comp_apply, succ_nsmul', add_assoc]

theorem place_eq_iff (i j : ℕ) : x + i • a = x + j • a ↔ i ≡ j [MOD addOrderOf a] := by
  rw [add_right_inj, nsmul_eq_nsmul_iff_modEq]

variable {x a}

/-- The walk is back where it started after as many steps as the order. -/
theorem places_nodup_iff (h : 0 < addOrderOf a) {n : ℕ} :
    (places x a n).Nodup ↔ n ≤ addOrderOf a := by
  constructor
  · intro hnodup
    by_contra hlong
    have hback : x + (0 : ℕ) • a = x + addOrderOf a • a := by
      rw [addOrderOf_nsmul_eq_zero, zero_nsmul]
    have hzero := List.inj_on_of_nodup_map hnodup (List.mem_range.mpr (by omega))
      (List.mem_range.mpr (by omega)) hback
    omega
  · intro hshort
    refine List.Nodup.map_on (fun i hi j hj hij => ?_) List.nodup_range
    rw [List.mem_range] at hi hj
    rw [place_eq_iff] at hij
    exact hij.eq_of_lt_of_lt (by omega) (by omega)

end Group

section Words

variable {w : ℕ} {a : BitVec w}

lemma nsmul_eq_zero_iff (n : ℕ) : n • a = 0 ↔ 2 ^ w ∣ n * a.toNat := by
  rw [← BitVec.toNat_inj, nsmul_eq_mul, BitVec.toNat_mul, BitVec.natCast_eq_ofNat,
    BitVec.toNat_ofNat, Nat.mod_mul_mod, Nat.dvd_iff_mod_eq_zero]
  rfl

theorem addOrderOf_odd (h : Odd a.toNat) : addOrderOf a = 2 ^ w := by
  have hcoprime : Nat.Coprime (2 ^ w) a.toNat := (Nat.coprime_two_left.mpr h).pow_left w
  apply Nat.dvd_antisymm
  · rw [addOrderOf_dvd_iff_nsmul_eq_zero, nsmul_eq_zero_iff]
    exact dvd_mul_right _ _
  · have hzero := (nsmul_eq_zero_iff _).mp (addOrderOf_nsmul_eq_zero a)
    exact hcoprime.dvd_of_dvd_mul_right hzero

/-- An odd step goes through all the words before one comes again. -/
theorem places_odd_nodup_iff (h : Odd a.toNat) {x : BitVec w} {n : ℕ} :
    (places x a n).Nodup ↔ n ≤ 2 ^ w := by
  rw [← addOrderOf_odd h]
  exact places_nodup_iff (by rw [addOrderOf_odd h]; positivity)

end Words

end WchIotSdk.EqualSteps
