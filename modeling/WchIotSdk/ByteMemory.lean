import WchIotSdk.ByteDigits

/-!
# Byte-addressed memory

A memory gives every address a byte. Runs of bytes are read and written from an
address upwards. Addresses are integers, so that moving a pointer never loses
information; whether a run lies inside an object is for its user to say.
-/
namespace WchIotSdk.ByteMemory
open ByteDigits

abbrev Memory := ℤ → Byte

def readBytes (m : Memory) (p : ℤ) : ℕ → List Byte
  | 0 => []
  | n + 1 => m p :: readBytes m (p + 1) n

def writeBytes (m : Memory) (p : ℤ) : List Byte → Memory
  | [] => m
  | b :: bs => writeBytes (Function.update m p b) (p + 1) bs

@[simp] theorem length_readBytes (m : Memory) (p : ℤ) (n : ℕ) :
    (readBytes m p n).length = n := by
  induction n generalizing p with
  | zero => rfl
  | succ n ih => rw [readBytes, List.length_cons, ih]

theorem getElem_readBytes (m : Memory) (p : ℤ) (n : ℕ) {i : ℕ}
    (h : i < (readBytes m p n).length) : (readBytes m p n)[i] = m (p + i) := by
  induction n generalizing p i with
  | zero => exact absurd h (Nat.not_lt_zero i)
  | succ n ih =>
    cases i with
    | zero => simp [readBytes]
    | succ i =>
      have hnext : p + 1 + i = p + ((i + 1 : ℕ) : ℤ) := by
        push_cast
        ring
      simp only [readBytes, List.getElem_cons_succ, ih, hnext]

theorem readBytes_add (m : Memory) (p : ℤ) (a b : ℕ) :
    readBytes m p (a + b) = readBytes m p a ++ readBytes m (p + a) b := by
  induction a generalizing p with
  | zero => simp [readBytes]
  | succ a ih =>
    have hnext : p + 1 + a = p + ((a + 1 : ℕ) : ℤ) := by
      push_cast
      ring
    rw [Nat.succ_add, readBytes, readBytes, ih, List.cons_append, hnext]

theorem take_readBytes (m : Memory) (p : ℤ) {a n : ℕ} (h : a ≤ n) :
    (readBytes m p n).take a = readBytes m p a := by
  obtain ⟨b, rfl⟩ := Nat.exists_eq_add_of_le h
  rw [readBytes_add, List.take_left' (length_readBytes m p a)]

theorem drop_readBytes (m : Memory) (p : ℤ) {a n : ℕ} (h : a ≤ n) :
    (readBytes m p n).drop a = readBytes m (p + a) (n - a) := by
  obtain ⟨b, rfl⟩ := Nat.exists_eq_add_of_le h
  rw [readBytes_add, List.drop_left' (length_readBytes m p a), Nat.add_sub_cancel_left]

/-- A run depends on its own bytes only. -/
theorem readBytes_congr {m m' : Memory} {p : ℤ} {n : ℕ}
    (h : ∀ a, p ≤ a → a < p + n → m a = m' a) : readBytes m p n = readBytes m' p n := by
  induction n generalizing p with
  | zero => rfl
  | succ n ih =>
    rw [readBytes, readBytes, h p le_rfl (by omega)]
    congr 1
    apply ih
    intro a ha hn
    exact h a (by omega) (by push_cast; omega)

theorem writeBytes_outside (m : Memory) (p : ℤ) (bs : List Byte) {a : ℤ}
    (h : a < p ∨ p + bs.length ≤ a) : writeBytes m p bs a = m a := by
  induction bs generalizing m p with
  | nil => rfl
  | cons b bs ih =>
    rw [List.length_cons] at h
    push_cast at h
    rw [writeBytes, ih _ _ (by omega), Function.update_of_ne (by omega)]

theorem writeBytes_append (m : Memory) (p : ℤ) (bs cs : List Byte) :
    writeBytes m p (bs ++ cs) = writeBytes (writeBytes m p bs) (p + bs.length) cs := by
  induction bs generalizing m p with
  | nil => simp [writeBytes]
  | cons b bs ih =>
    have hnext : p + 1 + bs.length = p + ((b :: bs).length : ℤ) := by
      push_cast [List.length_cons]
      ring
    rw [List.cons_append, writeBytes, ih, hnext, writeBytes]

/-- What has been written is read. -/
theorem readBytes_writeBytes (m : Memory) (p : ℤ) (bs : List Byte) :
    readBytes (writeBytes m p bs) p bs.length = bs := by
  induction bs generalizing m p with
  | nil => rfl
  | cons b bs ih =>
    rw [List.length_cons, readBytes, writeBytes, ih, writeBytes_outside _ _ _ (by omega),
      Function.update_self]

/-- A run is read with what has been written at its start. -/
theorem readBytes_writeBytes_prefix (m : Memory) (p : ℤ) {bs : List Byte} {n : ℕ}
    (h : bs.length ≤ n) :
    readBytes (writeBytes m p bs) p n = bs ++ (readBytes m p n).drop bs.length := by
  obtain ⟨k, rfl⟩ := Nat.exists_eq_add_of_le h
  have hrest : readBytes (writeBytes m p bs) (p + bs.length) k = readBytes m (p + bs.length) k := by
    apply readBytes_congr
    intro a ha _
    exact writeBytes_outside m p bs (Or.inr ha)
  rw [readBytes_add, readBytes_writeBytes, hrest, drop_readBytes m p h, Nat.add_sub_cancel_left]

/-- A run apart from the written one is read as before. -/
theorem readBytes_writeBytes_disjoint (m : Memory) (p : ℤ) (bs : List Byte) {q : ℤ} {n : ℕ}
    (h : q + n ≤ p ∨ p + bs.length ≤ q) :
    readBytes (writeBytes m p bs) q n = readBytes m q n := by
  apply readBytes_congr
  intro a ha hn
  exact writeBytes_outside m p bs (by omega)

/-- Memories that agree outside a run and on the run are equal. -/
theorem memory_ext {m m' : Memory} (p : ℤ) (n : ℕ)
    (hout : ∀ a, a < p ∨ p + n ≤ a → m a = m' a) (hin : readBytes m p n = readBytes m' p n) :
    m = m' := by
  induction n generalizing p with
  | zero =>
    ext1 a
    exact hout a (by omega)
  | succ n ih =>
    rw [readBytes, readBytes, List.cons.injEq] at hin
    refine ih (p + 1) (fun a ha => ?_) hin.2
    by_cases hap : a = p
    · rw [hap, hin.1]
    · exact hout a (by push_cast; omega)

/-- Writing back what is there changes nothing. -/
theorem writeBytes_readBytes (m : Memory) (p : ℤ) (n : ℕ) :
    writeBytes m p (readBytes m p n) = m := by
  refine memory_ext p n (fun a ha => ?_) ?_
  · exact writeBytes_outside m p _ (by rwa [length_readBytes])
  · have hread := readBytes_writeBytes m p (readBytes m p n)
    rwa [length_readBytes] at hread

end WchIotSdk.ByteMemory
