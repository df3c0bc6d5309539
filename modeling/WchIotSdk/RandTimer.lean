import WchIotSdk.ByteMemory
import WchIotSdk.EqualSteps
import Mathlib.Algebra.Order.Floor.Div

/-!
# Random numbers from the timer

`sys_rand32_get` adds a counter to the cycles of the clock, and every call moves the
counter on by the same odd number. While the clock stands still the results walk
through the words in equal steps. `sys_rand_get` fills a buffer with the results of
as many calls as there are blocks of four bytes, the last one cut off.
-/
namespace WchIotSdk.RandTimer
open ByteDigits ByteMemory EqualSteps

def rand32Inc : BitVec 32 := 1000000003

/-- `_rand32_counter`, with the number of times that the clock has been read. -/
structure Rand where
  counter : BitVec 32
  reads : ℕ
  deriving DecidableEq, Repr

/-- The new value of the target and the previous one. -/
def atomicAdd (target value : BitVec 32) : BitVec 32 × BitVec 32 := (target + value, target)

section Code

variable (clock : ℕ → BitVec 32)

/-- `clock` is what `k_cycle_get_32` returns, read by read. -/
def sysRand32Get (s : Rand) : Rand × BitVec 32 :=
  let (counter, previous) := atomicAdd s.counter rand32Inc
  ({ counter, reads := s.reads + 1 }, clock s.reads + previous)

/-- The state after a call. -/
abbrev next (s : Rand) : Rand := (sysRand32Get clock s).1

/-- The lowest bytes of a word on the stack, to `dst`. -/
def memcpy (m : Memory) (dst : ℤ) (src : BitVec 32) (n : BitVec 32) : Memory :=
  writeBytes m dst ((leBytes 4 src.toNat).take n.toNat)

/-- The loop, with a bound on its rounds; `none` if it goes on after them. The buffer is
apart from the counter. -/
def sysRandGet : ℕ → Rand → Memory → ℤ → BitVec 32 → Option (Rand × Memory)
  | steps, s, m, udst, outlen =>
    if outlen = 0 then some (s, m)
    else
      match steps with
      | 0 => none
      | steps + 1 =>
        let (s, ret) := sysRand32Get clock s
        let blocksize := if outlen < 4 then outlen else 4
        let m := memcpy m udst ret blocksize
        sysRandGet steps s m (udst + blocksize.toNat) (outlen - blocksize)

/-- The results of `n` calls, one after the other. -/
def results (s : Rand) : ℕ → List (BitVec 32)
  | 0 => []
  | n + 1 => (sysRand32Get clock s).2 :: results (next clock s) n

/-- The bytes of the results as they lie in memory. -/
def resultBytes (s : Rand) (n : ℕ) : List Byte :=
  (results clock s n).flatMap fun ret => leBytes 4 ret.toNat

/-- What filling `outlen` bytes from `dst` on leaves behind. -/
structure Fills (s : Rand) (m : Memory) (dst : ℤ) (outlen : ℕ) (s' : Rand) (m' : Memory) :
    Prop where
  calls : s' = (next clock)^[outlen ⌈/⌉ 4] s
  inside : readBytes m' dst outlen = (resultBytes clock s (outlen ⌈/⌉ 4)).take outlen
  outside : ∀ a, a < dst ∨ dst + outlen ≤ a → m' a = m a

end Code

lemma results_succ (clock : ℕ → BitVec 32) (s : Rand) (n : ℕ) :
    results clock s (n + 1) = (sysRand32Get clock s).2 :: results clock (next clock s) n := rfl

section Bursts

/-- While the clock stands still the results are the places of a walk. -/
lemma results_eq (cycle : BitVec 32) (s : Rand) (n : ℕ) :
    results (fun _ => cycle) s n = places (cycle + s.counter) rand32Inc n := by
  induction n generalizing s with
  | zero => rfl
  | succ n ih =>
    have hfirst : (sysRand32Get (fun _ => cycle) s).2 = cycle + s.counter := rfl
    have hnext : (next (fun _ => cycle) s).counter = s.counter + rand32Inc := rfl
    rw [results_succ, ih, hfirst, hnext, places_succ, add_assoc]

/-- The results of a burst are distinct until all the words have been there. -/
theorem results_nodup_iff (cycle : BitVec 32) (s : Rand) (n : ℕ) :
    (results (fun _ => cycle) s n).Nodup ↔ n ≤ 2 ^ 32 := by
  rw [results_eq]
  exact places_odd_nodup_iff (by decide)

end Bursts

section Blocks

variable (clock : ℕ → BitVec 32) (s : Rand)

/-- The length of a block and what is left after it. -/
lemma ceilDiv_blocks {n : ℕ} (h : 0 < n) : n ⌈/⌉ 4 = (n - 4) ⌈/⌉ 4 + 1 := by
  rw [Nat.ceilDiv_eq_add_pred_div, Nat.ceilDiv_eq_add_pred_div]
  omega

lemma resultBytes_succ (n : ℕ) :
    resultBytes clock s (n + 1) =
      leBytes 4 (sysRand32Get clock s).2.toNat ++ resultBytes clock (next clock s) n := by
  rw [resultBytes, results_succ, List.flatMap_cons, resultBytes]

lemma length_resultBytes (n : ℕ) : (resultBytes clock s n).length = 4 * n := by
  induction n generalizing s with
  | zero => rfl
  | succ n ih =>
    rw [resultBytes_succ, List.length_append, length_leBytes, ih]
    ring

/-- The first block of a buffer, which may be cut off, and the rest. -/
lemma take_resultBytes {n : ℕ} (h : 0 < n) :
    (resultBytes clock s (n ⌈/⌉ 4)).take n =
      (leBytes 4 (sysRand32Get clock s).2.toNat).take n ++
        (resultBytes clock (next clock s) ((n - 4) ⌈/⌉ 4)).take (n - 4) := by
  rw [ceilDiv_blocks h, resultBytes_succ, List.take_append, length_leBytes]

lemma blocksize_toNat (outlen : BitVec 32) :
    (if outlen < 4 then outlen else 4).toNat = min outlen.toNat 4 := by
  have hfour : (4 : BitVec 32).toNat = 4 := rfl
  split
  · next hlt =>
    rw [BitVec.lt_def, hfour] at hlt
    rw [min_eq_left hlt.le]
  · next hge =>
    rw [BitVec.lt_def, hfour] at hge
    rw [min_eq_right (not_lt.mp hge), hfour]

/-- One round takes the block off the length. -/
lemma rest_toNat (outlen : BitVec 32) :
    (outlen - if outlen < 4 then outlen else 4).toNat = outlen.toNat - 4 := by
  have hblock := blocksize_toNat outlen
  have hle : (if outlen < 4 then outlen else 4) ≤ outlen := by
    rw [BitVec.le_def, hblock]
    exact min_le_left _ _
  rw [BitVec.toNat_sub_of_le hle, hblock]
  omega

/-- A block and what is written after it are one write. -/
lemma writeBytes_memcpy (m : Memory) (dst : ℤ) (ret outlen : BitVec 32) (rest : List Byte) :
    let blocksize := if outlen < 4 then outlen else 4
    writeBytes (memcpy m dst ret blocksize) (dst + blocksize.toNat) rest =
      writeBytes m dst ((leBytes 4 ret.toNat).take outlen.toNat ++ rest) := by
  intro blocksize
  have hblock : blocksize.toNat = min outlen.toNat 4 := blocksize_toNat outlen
  have htake : (leBytes 4 ret.toNat).take blocksize.toNat =
      (leBytes 4 ret.toNat).take outlen.toNat := by
    rw [hblock, List.take_eq_take_min (i := outlen.toNat), length_leBytes]
  rw [memcpy, htake, writeBytes_append, List.length_take, length_leBytes, hblock]

/-- The loop goes through as many rounds as there are blocks. -/
lemma sysRandGet_eq (steps : ℕ) (s : Rand) (m : Memory) (dst : ℤ) (outlen : BitVec 32) :
    sysRandGet clock steps s m dst outlen =
      if outlen.toNat ⌈/⌉ 4 ≤ steps then
        some ((next clock)^[outlen.toNat ⌈/⌉ 4] s,
          writeBytes m dst ((resultBytes clock s (outlen.toNat ⌈/⌉ 4)).take outlen.toNat))
      else none := by
  induction steps generalizing s m dst outlen with
  | zero =>
    by_cases hzero : outlen = 0
    · rw [sysRandGet, if_pos hzero, hzero]
      rfl
    · have hpos : 0 < outlen.toNat := BitVec.toNat_pos_of_ne_zero hzero
      rw [sysRandGet, if_neg hzero, ceilDiv_blocks hpos, if_neg (by omega)]
  | succ steps ih =>
    by_cases hzero : outlen = 0
    · rw [sysRandGet, if_pos hzero, hzero]
      rfl
    · have hpos : 0 < outlen.toNat := BitVec.toNat_pos_of_ne_zero hzero
      rw [sysRandGet, if_neg hzero]
      dsimp only
      rw [ih, rest_toNat, writeBytes_memcpy, take_resultBytes clock s hpos, ceilDiv_blocks hpos,
        Function.iterate_succ_apply]
      simp only [Nat.add_le_add_iff_right]

/-- The loop ends with the buffer filled and nothing else written. -/
theorem sysRandGet_fills {s' : Rand} {m m' : Memory} {steps : ℕ} {dst : ℤ} {outlen : BitVec 32}
    (h : sysRandGet clock steps s m dst outlen = some (s', m')) :
    Fills clock s m dst outlen.toNat s' m' := by
  have hlength : ((resultBytes clock s (outlen.toNat ⌈/⌉ 4)).take outlen.toNat).length =
      outlen.toNat := by
    rw [List.length_take, length_resultBytes, Nat.ceilDiv_eq_add_pred_div]
    omega
  rw [sysRandGet_eq] at h
  split at h
  · obtain ⟨rfl, rfl⟩ := Prod.mk.inj (Option.some.inj h)
    refine ⟨rfl, ?_, fun a ha => ?_⟩
    · have hread := readBytes_writeBytes m dst
        ((resultBytes clock s (outlen.toNat ⌈/⌉ 4)).take outlen.toNat)
      rwa [hlength] at hread
    · exact writeBytes_outside m dst _ (by rwa [hlength])
  · exact absurd h (Option.some_ne_none _).symm

end Blocks

/-- Bursts do not repeat before they have gone through all the words, and a buffer is
filled by as many calls as it has blocks. -/
theorem burst_distinct_and_fills :
    (∀ (cycle : BitVec 32) (s : Rand) (n : ℕ),
      (results (fun _ => cycle) s n).Nodup ↔ n ≤ 2 ^ 32) ∧
    ∀ (clock : ℕ → BitVec 32) (steps : ℕ) (s : Rand) (m : Memory) (dst : ℤ)
        (outlen : BitVec 32),
      ((sysRandGet clock steps s m dst outlen).isSome ↔ outlen.toNat ⌈/⌉ 4 ≤ steps) ∧
        ∀ s' m', sysRandGet clock steps s m dst outlen = some (s', m') →
          Fills clock s m dst outlen.toNat s' m' := by
  refine ⟨results_nodup_iff, fun clock steps s m dst outlen => ⟨?_, fun s' m' h => ?_⟩⟩
  · rw [sysRandGet_eq]
    split
    · next hle => exact ⟨fun _ => hle, fun _ => rfl⟩
    · next hlt => exact ⟨fun h => absurd h (by decide), fun h => absurd h hlt⟩
  · exact sysRandGet_fills clock s h

/-- Six bytes, by two calls. -/
theorem fills_six_bytes :
    (results (fun _ => 7) ⟨5, 0⟩ 2).Nodup ∧
      ∃ s' m', sysRandGet (fun _ => 7) 2 ⟨5, 0⟩ (fun _ => 0) 0x20000000 6 = some (s', m') ∧
        Fills (fun _ => 7) ⟨5, 0⟩ (fun _ => 0) 0x20000000 6 s' m' := by
  obtain ⟨hbursts, hbuffers⟩ := burst_distinct_and_fills
  obtain ⟨hends, hfills⟩ := hbuffers (fun _ => 7) 2 ⟨5, 0⟩ (fun _ => 0) 0x20000000 6
  obtain ⟨⟨s', m'⟩, hsome⟩ := Option.isSome_iff_exists.mp (hends.mpr (by decide))
  exact ⟨(hbursts 7 ⟨5, 0⟩ 2).mpr (by norm_num), s', m', hsome, hfills s' m' hsome⟩

end WchIotSdk.RandTimer
