import Mathlib.Data.List.Basic

/-!
# Reading a value in chunks

A reader answers with a chunk of a value from an offset on, or refuses. Who reads on
from the end of each chunk until the reader refuses has the chunks and the refusal.
A reader that hands out a value piece by piece lets it be put together again.

The reading runs as long as it is given steps and has no result before it ends.
-/
namespace WchIotSdk.ChunkedReads

variable {α ε : Type*}

def collect (read : ℕ → Except ε (List α)) : ℕ → ℕ → Option (List (List α) × ε)
  | 0, _ => none
  | n + 1, offset =>
    match read offset with
    | .error e => some ([], e)
    | .ok chunk => (collect read n (offset + chunk.length)).map fun r => (chunk :: r.1, r.2)

/-- Up to its end the value is read in chunks of at most `size`, there with `e`. -/
structure Serves (read : ℕ → Except ε (List α)) (value : List α) (size : ℕ) (e : ε) : Prop where
  chunk : ∀ offset, offset < value.length →
    read offset = .ok ((value.drop offset).take size)
  refused : read value.length = .error e

variable {read : ℕ → Except ε (List α)} {value : List α} {size : ℕ} {e : ε}

/-- The chunk at an offset and the value after it. -/
lemma take_append_drop_drop (value : List α) (size offset : ℕ) :
    (value.drop offset).take size ++
      value.drop (offset + ((value.drop offset).take size).length) = value.drop offset := by
  have hrest : value.drop (offset + ((value.drop offset).take size).length) =
      (value.drop offset).drop size := by
    rw [List.drop_drop, List.length_take, List.length_drop]
    obtain hsize | hsize := Nat.le_total size (value.length - offset)
    · rw [Nat.min_eq_left hsize]
    · rw [Nat.min_eq_right hsize, List.drop_eq_nil_of_le (by omega),
        List.drop_eq_nil_of_le (by omega)]
  rw [hrest, List.take_append_drop]

theorem Serves.collect_eq (h : Serves read value size e) (hsize : 0 < size) {n offset : ℕ}
    (hoffset : offset ≤ value.length) (hn : value.length - offset < n) :
    ∃ chunks, collect read n offset = some (chunks, e) ∧ chunks.flatten = value.drop offset := by
  induction n generalizing offset with
  | zero => omega
  | succ n ih =>
    obtain hlt | rfl := Nat.lt_or_eq_of_le hoffset
    · -- the chunk is not empty, so that fewer bytes are left than steps
      have hlen : 0 < ((value.drop offset).take size).length := by
        rw [List.length_take, List.length_drop]
        omega
      have hle : offset + ((value.drop offset).take size).length ≤ value.length := by
        rw [List.length_take, List.length_drop]
        omega
      obtain ⟨chunks, hcollect, hflat⟩ := ih hle (by omega)
      refine ⟨(value.drop offset).take size :: chunks, ?_, ?_⟩
      · rw [collect, h.chunk offset hlt]
        simp only [hcollect, Option.map_some]
      · rw [List.flatten_cons, hflat, take_append_drop_drop]
    · exact ⟨[], by rw [collect, h.refused], by rw [List.drop_length]; rfl⟩

end WchIotSdk.ChunkedReads
