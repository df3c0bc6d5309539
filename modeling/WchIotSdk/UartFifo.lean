import Mathlib.Tactic
import Mathlib.Data.BitVec

/-!
# Reading the receive FIFO

`uart_wch_fifo_read` calls `hal_uart_fifo_rx` until it has the bytes asked for;
`hal_uart_fifo_rx` takes bytes until it finds the FIFO empty. Both count in eight
bits. Bytes arrive while the functions run: a batch before each access to the
count register or the buffer register. What arrives is what the receiver puts
into the FIFO.
-/
namespace WchIotSdk.UartFifo

/-- Where the call is: at the test of the outer loop, at the test of the inner one,
at the read of a byte, or returned. The inner function has its count and its
pointer into the buffer. -/
inductive Pc where
  | outer
  | count (len : BitVec 8) (data : ℕ)
  | byte (len : BitVec 8) (data : ℕ)
  | returned (num : BitVec 8)
  deriving DecidableEq, Repr

/-- An access to the registers, with the value read. -/
inductive Access where
  | rfc (count : ℕ)
  | rbr (byte : BitVec 8)
  deriving DecidableEq, Repr

structure Call where
  fifo : List (BitVec 8)
  numRx : BitVec 8
  pc : Pc
  /-- The bytes stored, each with its index in the buffer. -/
  writes : List (BitVec 8 × ℕ)
  log : List Access
  deriving DecidableEq, Repr

/-- The call of `uart_wch_fifo_read`. -/
def start (fifo : List (BitVec 8)) : Call := ⟨fifo, 0, .outer, [], []⟩

variable (arrivals : ℕ → List (BitVec 8)) (size : ℕ)

/-- The FIFO at the next access, after the batch before it. -/
def Call.line (c : Call) : List (BitVec 8) := c.fifo ++ arrivals c.log.length

def step (c : Call) : Call :=
  match c.pc with
  | .outer =>
    if (size : ℤ) - c.numRx.toNat > 0 then { c with pc := .count 0 c.numRx.toNat }
    else { c with pc := .returned c.numRx }
  | .count len data =>
    if (c.line arrivals).length ≠ 0 then
      { c with
        fifo := c.line arrivals
        log := c.log ++ [Access.rfc (c.line arrivals).length]
        pc := .byte len data }
    else
      { c with
        fifo := c.line arrivals
        log := c.log ++ [Access.rfc (c.line arrivals).length]
        numRx := c.numRx + len
        pc := .outer }
  | .byte len data =>
    let byte := (c.line arrivals).headD 0
    { c with
      fifo := (c.line arrivals).tail
      writes := c.writes ++ [(byte, data)]
      log := c.log ++ [Access.rbr byte]
      pc := .count (len + 1) (data + 1) }
  | .returned _ => c

def run (c : Call) (n : ℕ) : Call := (step arrivals size)^[n] c

/-- All bytes received before an access, the oldest first. -/
def received (fifo : List (BitVec 8)) : ℕ → List (BitVec 8)
  | 0 => fifo
  | k + 1 => received fifo k ++ arrivals k

/-- A bounded, lossless drain that does not block. -/
structure BoundedDrain (fifo : List (BitVec 8)) (c : Call) (num : BitVec 8) : Prop where
  returned : c.pc = .returned num
  in_bounds : ∀ write ∈ c.writes, write.2 < size
  places : c.writes.map Prod.snd = List.range c.writes.length
  lossless : received arrivals fifo c.log.length = c.writes.map Prod.fst ++ c.fifo
  num_eq : num.toNat = c.writes.length
  ran_empty : c.writes.length < size → c.log.getLast? = some (.rfc 0)
  not_blocking : ∀ before after, c.log = before ++ .rfc 0 :: after → after = []

/-- The drain is full when the FIFO is found empty for the first time, with a count
that fits eight bits. -/
def FullWhenEmpty (fifo : List (BitVec 8)) : Prop :=
  size < 256 ∧ (received arrivals fifo (2 * size + 1)).length = size ∧
    ∀ k < size, k < (received arrivals fifo (2 * k + 1)).length

/-- After `k` bytes, at the test of the inner loop: nothing but the first `k` bytes
received is stored. -/
structure Reading (fifo : List (BitVec 8)) (k : ℕ) (c : Call) : Prop where
  pc : c.pc = .count (BitVec.ofNat 8 k) k
  numRx : c.numRx = 0
  log_length : c.log.length = 2 * k
  places : c.writes.map Prod.snd = List.range k
  lossless : received arrivals fifo (2 * k) = c.writes.map Prod.fst ++ c.fifo
  log_full : ∀ access ∈ c.log, access ≠ .rfc 0

section Steps

variable {arrivals size} {fifo : List (BitVec 8)}

lemma run_succ (c : Call) (n : ℕ) : run arrivals size c (n + 1) =
    step arrivals size (run arrivals size c n) := Function.iterate_succ_apply' _ _ _

lemma run_add (c : Call) (m n : ℕ) : run arrivals size c (m + n) =
    run arrivals size (run arrivals size c m) n := by
  rw [run, run, run, Nat.add_comm, Function.iterate_add_apply]

/-- The call stays returned. -/
lemma run_returned {c : Call} {num : BitVec 8} (h : c.pc = .returned num) (n : ℕ) :
    run arrivals size c n = c := by
  induction n with
  | zero => rfl
  | succ n ih => rw [run_succ, ih, step, h]

section Reading

variable {k : ℕ} {c : Call} (h : Reading arrivals fifo k c)
include h

lemma Reading.writes_length : c.writes.length = k := by
  have hlength := congrArg List.length h.places
  simpa using hlength

/-- At the next access the bytes that are not stored are in the FIFO. -/
lemma Reading.received_eq :
    received arrivals fifo (2 * k + 1) = c.writes.map Prod.fst ++ c.line arrivals := by
  rw [received, h.lossless, Call.line, h.log_length, List.append_assoc]

lemma Reading.line_length :
    (received arrivals fifo (2 * k + 1)).length = k + (c.line arrivals).length := by
  rw [h.received_eq, List.length_append, List.length_map, h.writes_length]

/-- One turn of the inner loop. -/
lemma Reading.turn (hk : k < (received arrivals fifo (2 * k + 1)).length) :
    Reading arrivals fifo (k + 1) (step arrivals size (step arrivals size c)) := by
  have hlength := h.line_length
  obtain ⟨byte, rest, hline⟩ : ∃ byte rest, c.line arrivals = byte :: rest :=
    List.exists_cons_of_ne_nil (List.ne_nil_of_length_pos (by omega))
  have hcount : step arrivals size c =
      { c with
        fifo := byte :: rest
        log := c.log ++ [Access.rfc (rest.length + 1)]
        pc := .byte (BitVec.ofNat 8 k) k } := by
    rw [step, h.pc]
    simp [hline]
  have hbyte : step arrivals size (step arrivals size c) =
      { c with
        fifo := rest ++ arrivals (2 * k + 1)
        writes := c.writes ++ [(byte, k)]
        log := c.log ++ [Access.rfc (rest.length + 1)] ++ [Access.rbr byte]
        pc := .count (BitVec.ofNat 8 k + 1) (k + 1) } := by
    rw [hcount, step]
    simp [Call.line, h.log_length]
  rw [hbyte]
  constructor
  · exact congrArg (Pc.count · (k + 1)) (BitVec.ofNat_add k 1).symm
  · exact h.numRx
  · simp [h.log_length]
    omega
  · simp [h.places, List.range_succ]
  · have hnext : received arrivals fifo (2 * (k + 1)) =
        received arrivals fifo (2 * k + 1) ++ arrivals (2 * k + 1) := rfl
    rw [hnext, h.received_eq, hline]
    simp
  · intro access hmem
    simp only [List.mem_append, List.mem_singleton] at hmem
    obtain (hmem | rfl) | rfl := hmem
    · exact h.log_full access hmem
    · simp
    · simp

/-- The inner loop ends when all bytes received are stored. -/
lemma Reading.empty (hk : (received arrivals fifo (2 * k + 1)).length = k) :
    step arrivals size c =
      { c with
        fifo := []
        log := c.log ++ [Access.rfc 0]
        numRx := BitVec.ofNat 8 k
        pc := .outer } := by
  have hlength := h.line_length
  have hline : c.line arrivals = [] := List.eq_nil_of_length_eq_zero (by omega)
  rw [step, h.pc]
  simp [hline, h.numRx]

end Reading

/-- The inner loop takes bytes as long as there are any. -/
lemma reading_run (hsize : 0 < size) {k : ℕ}
    (hk : ∀ j < k, j < (received arrivals fifo (2 * j + 1)).length) :
    Reading arrivals fifo k (run arrivals size (start fifo) (2 * k + 1)) := by
  induction k with
  | zero =>
    have hfirst : run arrivals size (start fifo) 1 = { start fifo with pc := .count 0 0 } := by
      have hpos : (size : ℤ) - (0 : BitVec 8).toNat > 0 := by
        have hzero : (0 : BitVec 8).toNat = 0 := rfl
        omega
      rw [run_succ]
      exact if_pos hpos
    rw [Nat.mul_zero, Nat.zero_add, hfirst]
    exact ⟨rfl, rfl, rfl, rfl, by simp [received, start], by simp [start]⟩
  | succ k ih =>
    have htwo : 2 * (k + 1) + 1 = 2 * k + 1 + 1 + 1 := by ring
    rw [htwo, run_succ, run_succ]
    exact (ih fun j hj => hk j (by omega)).turn (hk k (by omega))

/-- The outer loop returns if the count in eight bits reaches the size. -/
lemma run_empty_returned (hsize : 0 < size) {k : ℕ}
    (hk : ∀ j < k, j < (received arrivals fifo (2 * j + 1)).length)
    (hempty : (received arrivals fifo (2 * k + 1)).length = k) (hfull : size ≤ k % 256) :
    run arrivals size (start fifo) (2 * k + 3) =
      { run arrivals size (start fifo) (2 * k + 1) with
        fifo := []
        log := (run arrivals size (start fifo) (2 * k + 1)).log ++ [Access.rfc 0]
        numRx := BitVec.ofNat 8 k
        pc := .returned (BitVec.ofNat 8 k) } := by
  have hreading : Reading arrivals fifo k _ := reading_run hsize hk
  have hdone : ¬ (size : ℤ) - (BitVec.ofNat 8 k).toNat > 0 := by
    rw [BitVec.toNat_ofNat]
    omega
  have htwo : 2 * k + 3 = 2 * k + 1 + 1 + 1 := rfl
  rw [htwo, run_succ, run_succ, hreading.empty hempty]
  exact if_neg hdone

lemma log_count {c : Call} {len : BitVec 8} {data : ℕ} (h : c.pc = .count len data) :
    (step arrivals size c).log = c.log ++ [Access.rfc (c.line arrivals).length] := by
  rw [step, h]
  dsimp only
  split_ifs <;> rfl

/-- Otherwise it asks an empty FIFO again. -/
lemma run_empty_again (hsize : 0 < size) {k : ℕ}
    (hk : ∀ j < k, j < (received arrivals fifo (2 * j + 1)).length)
    (hempty : (received arrivals fifo (2 * k + 1)).length = k) (hmore : k % 256 < size) :
    (∃ len data, (run arrivals size (start fifo) (2 * k + 3)).pc = .count len data) ∧
      ∃ count, (run arrivals size (start fifo) (2 * k + 4)).log =
        (run arrivals size (start fifo) (2 * k + 1)).log ++ [Access.rfc 0, Access.rfc count] := by
  have hreading : Reading arrivals fifo k _ := reading_run hsize hk
  have hagain : (size : ℤ) - (BitVec.ofNat 8 k).toNat > 0 := by
    rw [BitVec.toNat_ofNat]
    omega
  have hthree : run arrivals size (start fifo) (2 * k + 3) =
      { run arrivals size (start fifo) (2 * k + 1) with
        fifo := []
        log := (run arrivals size (start fifo) (2 * k + 1)).log ++ [Access.rfc 0]
        numRx := BitVec.ofNat 8 k
        pc := .count 0 (BitVec.ofNat 8 k).toNat } := by
    have htwo : 2 * k + 3 = 2 * k + 1 + 1 + 1 := rfl
    rw [htwo, run_succ, run_succ, hreading.empty hempty]
    exact if_pos hagain
  have hpc : (run arrivals size (start fifo) (2 * k + 3)).pc =
      .count 0 (BitVec.ofNat 8 k).toNat := by rw [hthree]
  have hlog : (run arrivals size (start fifo) (2 * k + 3)).log =
      (run arrivals size (start fifo) (2 * k + 1)).log ++ [Access.rfc 0] := by rw [hthree]
  refine ⟨⟨0, _, hpc⟩, ((run arrivals size (start fifo) (2 * k + 3)).line arrivals).length, ?_⟩
  rw [run_succ, log_count hpc, hlog, List.append_assoc]
  rfl

/-- The log only grows. -/
lemma log_prefix_step (c : Call) : c.log <+: (step arrivals size c).log := by
  rw [step]
  split
  · split_ifs <;> exact List.prefix_rfl
  · split_ifs <;> exact List.prefix_append _ _
  · exact List.prefix_append _ _
  · exact List.prefix_rfl

lemma log_prefix_run (c : Call) (n : ℕ) : c.log <+: (run arrivals size c n).log := by
  induction n with
  | zero => exact List.prefix_rfl
  | succ n ih =>
    rw [run_succ]
    exact ih.trans (log_prefix_step _)

lemma run_eq_of_returned {c : Call} {m n : ℕ} {num : BitVec 8}
    (h : (run arrivals size c n).pc = .returned num) (hle : n ≤ m) :
    run arrivals size c m = run arrivals size c n := by
  obtain ⟨d, rfl⟩ := Nat.exists_eq_add_of_le hle
  rw [run_add, run_returned h]

/-- A run returns in one way. -/
lemma returned_unique {c : Call} {m n : ℕ} {num num' : BitVec 8}
    (hm : (run arrivals size c m).pc = .returned num)
    (hn : (run arrivals size c n).pc = .returned num') :
    run arrivals size c m = run arrivals size c n := by
  obtain hle | hle := le_total m n
  · exact (run_eq_of_returned hm hle).symm
  · exact run_eq_of_returned hn hle

/-- Asked for nothing, the call returns at once. -/
lemma boundedDrain_zero (hzero : size = 0) :
    BoundedDrain arrivals size fifo (run arrivals size (start fifo) 1) 0 := by
  have hfirst : run arrivals size (start fifo) 1 = { start fifo with pc := .returned 0 } := by
    have hdone : ¬ (size : ℤ) - (0 : BitVec 8).toNat > 0 := by
      rw [hzero]
      decide
    rw [run_succ]
    exact if_neg hdone
  rw [hfirst]
  constructor
  · rfl
  · simp [start]
  · simp [start]
  · simp [start, received]
  · simp [start]
  · simp [start, hzero]
  · simp [start]

/-- The empty FIFO is found by the last access if no access before it found it. -/
lemma last_of_empty {log before after : List Access} (hlog : ∀ access ∈ log, access ≠ .rfc 0)
    (hsplit : log ++ [.rfc 0] = before ++ .rfc 0 :: after) : after = [] := by
  obtain hnil | ⟨after', last, rfl⟩ := List.eq_nil_or_concat' after
  · exact hnil
  · have hend : log ++ [Access.rfc 0] = (before ++ Access.rfc 0 :: after') ++ [last] := by
      simpa using hsplit
    have hinit := (List.append_inj' hend rfl).1
    exact absurd rfl (hlog (.rfc 0) (by rw [hinit]; simp))

/-- Full when empty, the call returns what was asked for. -/
lemma boundedDrain_full (hsize : 0 < size) (h : FullWhenEmpty arrivals size fifo) :
    BoundedDrain arrivals size fifo (run arrivals size (start fifo) (2 * size + 3))
      (BitVec.ofNat 8 size) := by
  obtain ⟨hbyte, hempty, hbefore⟩ := h
  have hreading : Reading arrivals fifo size _ := reading_run hsize hbefore
  have hlength := hreading.line_length
  have hline : (run arrivals size (start fifo) (2 * size + 1)).line arrivals = [] :=
    List.eq_nil_of_length_eq_zero (by omega)
  rw [run_empty_returned hsize hbefore hempty (Nat.mod_eq_of_lt hbyte).ge]
  constructor
  · rfl
  · intro write hwrite
    have hmem := List.mem_map_of_mem (f := Prod.snd) hwrite
    rw [hreading.places, List.mem_range] at hmem
    exact hmem
  · exact hreading.places.trans (by rw [hreading.writes_length])
  · have hreceived := hreading.received_eq
    rw [hline] at hreceived
    simpa [hreading.log_length] using hreceived
  · show (BitVec.ofNat 8 size).toNat =
      (run arrivals size (start fifo) (2 * size + 1)).writes.length
    rw [BitVec.toNat_ofNat, Nat.mod_eq_of_lt hbyte, hreading.writes_length]
  · intro _
    exact List.getLast?_concat
  · intro before after hlog
    exact last_of_empty hreading.log_full hlog

/-- A call that returns has found the FIFO empty, with as many bytes received as it
has stored. -/
lemma empty_of_returned (hsize : 0 < size) {n : ℕ} {num : BitVec 8}
    (h : (run arrivals size (start fifo) n).pc = .returned num) :
    ∃ k, (received arrivals fifo (2 * k + 1)).length = k ∧
      ∀ j < k, j < (received arrivals fifo (2 * j + 1)).length := by
  have hempties : ∃ k, ¬ k < (received arrivals fifo (2 * k + 1)).length := by
    by_contra hnone
    have hreading : Reading arrivals fifo n _ :=
      reading_run hsize fun j _ => not_not.mp (not_exists.mp hnone j)
    have hpc := hreading.pc
    rw [run_eq_of_returned h (by omega), h] at hpc
    cases hpc
  have hbefore : ∀ j < Nat.find hempties, j < (received arrivals fifo (2 * j + 1)).length :=
    fun _ hj => not_not.mp (Nat.find_min hempties hj)
  have hreading : Reading arrivals fifo (Nat.find hempties) _ := reading_run hsize hbefore
  have hnot := Nat.find_spec hempties
  have hlength := hreading.line_length
  exact ⟨Nat.find hempties, by omega, hbefore⟩

/-- A bounded drain finds the FIFO empty when it is full, and then only. -/
lemma full_of_boundedDrain {n : ℕ} {num : BitVec 8} (hsize : 0 < size)
    (h : BoundedDrain arrivals size fifo (run arrivals size (start fifo) n) num) :
    FullWhenEmpty arrivals size fifo := by
  obtain ⟨k, hempty, hbefore⟩ := empty_of_returned hsize h.returned
  have hreading : Reading arrivals fifo k _ := reading_run hsize hbefore
  by_cases hfull : size ≤ k % 256
  · have hreturned := run_empty_returned hsize hbefore hempty hfull
    have hsame : run arrivals size (start fifo) n =
        run arrivals size (start fifo) (2 * k + 3) :=
      returned_unique h.returned (by rw [hreturned])
    have hwrites : (run arrivals size (start fifo) n).writes =
        (run arrivals size (start fifo) (2 * k + 1)).writes := by rw [hsame, hreturned]
    have hle : k ≤ size := by
      by_contra hmore
      have hmem : size ∈ (run arrivals size (start fifo) n).writes.map Prod.snd := by
        rw [hwrites, hreading.places, List.mem_range]
        omega
      obtain ⟨write, hwrite, hindex⟩ := List.mem_map.mp hmem
      have hlt := h.in_bounds write hwrite
      omega
    have hk : k = size := by omega
    rw [← hk]
    exact ⟨by omega, hempty, hbefore⟩
  · obtain ⟨⟨len, data, hpc⟩, count, hlog⟩ :=
      run_empty_again hsize hbefore hempty (Nat.lt_of_not_le hfull)
    have hlate : 2 * k + 4 ≤ n := by
      by_contra hearly
      rw [run_eq_of_returned h.returned (by omega), h.returned] at hpc
      cases hpc
    have hbegin : (run arrivals size (start fifo) (2 * k + 4)).log <+:
        (run arrivals size (run arrivals size (start fifo) (2 * k + 4)) (n - (2 * k + 4))).log :=
      log_prefix_run _ _
    rw [← run_add, Nat.add_sub_cancel' hlate, hlog] at hbegin
    obtain ⟨rest, hrest⟩ := hbegin
    have hnil := h.not_blocking (run arrivals size (start fifo) (2 * k + 1)).log
      (Access.rfc count :: rest) (by rw [← hrest]; simp)
    cases hnil

end Steps

/-- The call drains as it should exactly if no byte is asked for, or if the FIFO is
first found empty with all that was asked for, in eight bits, received. -/
theorem fifoRead_bounded_iff (fifo : List (BitVec 8)) :
    (∃ n num, BoundedDrain arrivals size fifo (run arrivals size (start fifo) n) num) ↔
      size = 0 ∨ FullWhenEmpty arrivals size fifo := by
  constructor
  · intro h
    obtain ⟨n, num, hdrain⟩ := h
    by_cases hzero : size = 0
    · exact Or.inl hzero
    · exact Or.inr (full_of_boundedDrain (Nat.pos_of_ne_zero hzero) hdrain)
  · intro h
    by_cases hzero : size = 0
    · exact ⟨1, 0, boundedDrain_zero hzero⟩
    · exact ⟨_, _, boundedDrain_full (Nat.pos_of_ne_zero hzero) (h.resolve_left hzero)⟩

/-- Asked for one byte, the call stores all three that are in the FIFO. -/
theorem one_of_three_overflows :
    (run (fun _ => []) 1 (start [0xa1, 0xa2, 0xa3]) 9).pc = .returned 3 ∧
      (run (fun _ => []) 1 (start [0xa1, 0xa2, 0xa3]) 9).writes =
        [(0xa1, 0), (0xa2, 1), (0xa3, 2)] ∧
      ¬ ∃ n num, BoundedDrain (fun _ => []) 1 [0xa1, 0xa2, 0xa3]
        (run (fun _ => []) 1 (start [0xa1, 0xa2, 0xa3]) n) num := by
  refine ⟨by decide +kernel, by decide +kernel, fun h => ?_⟩
  obtain ⟨n, num, hdrain⟩ := h
  have hfull := (full_of_boundedDrain (by norm_num) hdrain).2.1
  exact absurd hfull (by decide)

end WchIotSdk.UartFifo
