import WchIotSdk.ByteMemory

/-!
# Arrays of half words in memory

A half word is two bytes, the low one first. An array is the half words from an
address upwards; storing one of them leaves the others and all other bytes alone.
-/
namespace WchIotSdk.HalfWordArray
open ByteDigits ByteMemory

def loadHalf (m : Memory) (p : ℤ) : BitVec 16 := BitVec.ofNat 16 (leValue (readBytes m p 2))

def storeHalf (m : Memory) (p : ℤ) (v : BitVec 16) : Memory := writeBytes m p (leBytes 2 v.toNat)

/-- The first `n` half words of an array. -/
def loadHalves (m : Memory) (p : ℤ) (n : ℕ) : List (BitVec 16) :=
  (List.range n).map fun i : ℕ => loadHalf m (p + 2 * i)

variable {m : Memory} {p : ℤ} {v : BitVec 16}

@[simp] theorem loadHalf_storeHalf : loadHalf (storeHalf m p v) p = v := by
  have hread : readBytes (storeHalf m p v) p 2 = leBytes 2 v.toNat := by
    have h := readBytes_writeBytes m p (leBytes 2 v.toNat)
    rwa [length_leBytes] at h
  have hlt : v.toNat % 256 ^ 2 = v.toNat := Nat.mod_eq_of_lt v.isLt
  rw [loadHalf, hread, leValue_leBytes, hlt, BitVec.ofNat_toNat, BitVec.setWidth_eq]

theorem loadHalf_storeHalf_of_disjoint {q : ℤ} (h : q + 2 ≤ p ∨ p + 2 ≤ q) :
    loadHalf (storeHalf m p v) q = loadHalf m q := by
  rw [loadHalf, storeHalf, readBytes_writeBytes_disjoint, loadHalf]
  rw [length_leBytes]
  exact h

theorem storeHalf_outside {a : ℤ} (h : a < p ∨ p + 2 ≤ a) : storeHalf m p v a = m a := by
  apply writeBytes_outside
  rw [length_leBytes]
  exact h

theorem loadHalves_succ (n : ℕ) :
    loadHalves m p (n + 1) = loadHalves m p n ++ [loadHalf m (p + 2 * n)] := by
  rw [loadHalves, List.range_succ, List.map_append]
  rfl

theorem take_loadHalves {k n : ℕ} (h : k ≤ n) :
    (loadHalves m p n).take k = loadHalves m p k := by
  rw [loadHalves, ← List.map_take, List.take_range, min_eq_left h, loadHalves]

/-- A store from slot `n` on leaves the first `n` slots alone. -/
theorem loadHalves_storeHalf {n k : ℕ} (h : n ≤ k) :
    loadHalves (storeHalf m (p + 2 * k) v) p n = loadHalves m p n := by
  apply List.map_congr_left
  intro i hi
  have hlt := List.mem_range.mp hi
  exact loadHalf_storeHalf_of_disjoint (by omega)

/-- A store in the slot after the first `n` ones. -/
theorem loadHalves_storeHalf_succ (n : ℕ) :
    loadHalves (storeHalf m (p + 2 * n) v) p (n + 1) = loadHalves m p n ++ [v] := by
  rw [loadHalves_succ, loadHalf_storeHalf, loadHalves_storeHalf le_rfl]

end WchIotSdk.HalfWordArray
