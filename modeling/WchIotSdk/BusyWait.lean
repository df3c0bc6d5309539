import WchIotSdk.RtcReads

/-!
# Waiting on the cycle counter

`k_busy_wait` without an architecture's own busy wait reads the cycle counter,
which the RTC driver takes from the RTC, until the difference to the first
reading reaches the cycles of the wait. The difference is one of 32-bit values,
the counter starts over after a day.
-/
namespace WchIotSdk.BusyWait
open RtcTimer RtcTimestamp RtcReads

def sysClockHwCyclesPerSec : BitVec 64 := 32768
def usecPerSec : BitVec 64 := 1000000

/-- 64-bit arithmetic, the quotient in 32 bits. -/
def cyclesToWait (usecToWait : BitVec 32) : BitVec 32 :=
  (usecToWait.setWidth 64 * sysClockHwCyclesPerSec / usecPerSec).setWidth 32

/-- `k_cycle_get_32`: the count of the RTC at the read. -/
def sysClockCycleGet32 (base : RtcRegs) (r : Rtc) : BitVec 32 := (r.regs base).cnt32k

/-- The loop: how many readings it takes, `none` while it still waits. -/
def waitLoop (startCycles cycles : BitVec 32) : List (BitVec 32) → Option ℕ
  | [] => none
  | currentCycles :: readings =>
    if currentCycles - startCycles ≥ cycles then some 1
    else (waitLoop startCycles cycles readings).map (· + 1)

def kBusyWait (usecToWait startCycles : BitVec 32) (readings : List (BitVec 32)) : Option ℕ :=
  if usecToWait = 0 then some 0 else waitLoop startCycles (cyclesToWait usecToWait) readings

/-- Readings of an RTC that advances before each of them. -/
def readings (base : RtcRegs) (r : Rtc) : List ℕ → List (BitVec 32)
  | [] => []
  | d :: advances =>
    sysClockCycleGet32 base (r.advance d) :: readings base (r.advance d) advances

/-- The call on a running RTC. -/
def busyWaitOn (base : RtcRegs) (r : Rtc) (usecToWait : BitVec 32) (advances : List ℕ) : Option ℕ :=
  kBusyWait usecToWait (sysClockCycleGet32 base r) (readings base r advances)

/-- The cycles of a wait, rounded down. -/
def waitCycles (usec : BitVec 32) : ℕ := usec.toNat * 32768 / 1000000

/-- No 32-bit argument overflows the arithmetic. -/
theorem cyclesToWait_toNat (usec : BitVec 32) : (cyclesToWait usec).toNat = waitCycles usec := by
  have husec := usec.isLt
  have hhz : sysClockHwCyclesPerSec.toNat = 32768 := rfl
  have husecs : usecPerSec.toNat = 1000000 := rfl
  rw [cyclesToWait, BitVec.toNat_setWidth, BitVec.toNat_udiv, BitVec.toNat_mul,
    BitVec.toNat_setWidth, hhz, husecs, Nat.mod_eq_of_lt (lt_trans husec (by norm_num)),
    Nat.mod_eq_of_lt (by omega), waitCycles]
  omega

lemma cyclesToWait_lt (usec : BitVec 32) : (cyclesToWait usec).toNat < 140737489 := by
  have husec := usec.isLt
  rw [cyclesToWait_toNat, waitCycles]
  omega

lemma waitLoop_eq (startCycles cycles : BitVec 32) (readings : List (BitVec 32)) :
    waitLoop startCycles cycles readings =
      (readings.findIdx? fun current => current - startCycles ≥ cycles).map (· + 1) := by
  induction readings with
  | nil => rfl
  | cons current readings ih =>
    rw [waitLoop, List.findIdx?_cons]
    by_cases h : current - startCycles ≥ cycles
    · rw [if_pos h, if_pos (decide_eq_true h)]
      rfl
    · rw [if_neg h, if_neg (by simpa using h), ih]

/-- The loop takes as many readings as it needs for the first that ends it. -/
lemma waitLoop_eq_some_iff {startCycles cycles : BitVec 32} {readings : List (BitVec 32)} {n : ℕ} :
    waitLoop startCycles cycles readings = some (n + 1) ↔
      ∃ h : n < readings.length, cycles ≤ readings[n] - startCycles ∧
        ∀ m (hm : m < n), ¬ cycles ≤ readings[m] - startCycles := by
  rw [waitLoop_eq, Option.map_eq_some_iff]
  simp only [Nat.add_right_cancel_iff, exists_eq_right, List.findIdx?_eq_some_iff_getElem,
    decide_eq_true_eq, ge_iff_le]

section Readings

variable (base : RtcRegs) (r : Rtc)

@[simp] lemma readings_length (advances : List ℕ) :
    (readings base r advances).length = advances.length := by
  induction advances generalizing r with
  | nil => rfl
  | cons d advances ih => simp [readings, ih]

/-- A reading is the count after all increments up to it. -/
lemma readings_getElem {advances : List ℕ} {n : ℕ} (h : n < (readings base r advances).length) :
    (readings base r advances)[n] =
      sysClockCycleGet32 base (r.advance (advances.take (n + 1)).sum) := by
  induction advances generalizing r n with
  | nil => simp [readings] at h
  | cons d advances ih =>
    cases n with
    | zero => simp [readings]
    | succ n => simp [readings, ih, Rtc.advance_advance]

/-- The test of the loop on a reading less than a day after the first. A reading
past midnight is far ahead in 32 bits. -/
lemma test_iff {c : BitVec 32} {n : ℕ} (hc : c.toNat < 140737489) (hn : n < rtcOnedayTicks) :
    c ≤ sysClockCycleGet32 base (r.advance n) - sysClockCycleGet32 base r ↔
      c.toNat ≤ n ∨ rtcOnedayTicks ≤ r.dayTicks + n := by
  have hstart : (sysClockCycleGet32 base r).toNat = (r.dayTicks + 0) % rtcOnedayTicks :=
    cnt32k_toNat base r 0
  have hday := r.dayTicks_lt
  rw [BitVec.le_def, BitVec.toNat_sub, hstart, sysClockCycleGet32, cnt32k_toNat]
  rw [rtcOnedayTicks] at *
  omega

end Readings

/-- Reading `n` is the first with at least `c` cycles since the start. -/
def FirstElapsed (c : ℕ) (advances : List ℕ) (n : ℕ) : Prop :=
  n < advances.length ∧ c ≤ (advances.take (n + 1)).sum ∧
    ∀ m < n, (advances.take (m + 1)).sum < c

/-- The wait takes the readings up to the first at which its cycles are over. -/
def WaitsExactly (base : RtcRegs) (r : Rtc) (usec : BitVec 32) (advances : List ℕ) : Prop :=
  ∀ n, busyWaitOn base r usec advances = some (n + 1) ↔
    FirstElapsed (waitCycles usec) advances n

/-- No reading falls between midnight and the end of the wait. -/
def NoReadingPastMidnight (r : Rtc) (c : ℕ) (advances : List ℕ) : Prop :=
  ∀ taken, taken <+: advances → taken.sum < c → r.dayTicks + taken.sum < rtcOnedayTicks

section Waits

variable (base : RtcRegs) (r : Rtc) {usec : BitVec 32} {advances : List ℕ}

lemma sum_take_le {m n : ℕ} (h : m ≤ n) : (advances.take m).sum ≤ (advances.take n).sum := by
  have hbegin : advances.take m = (advances.take n).take m := by
    rw [List.take_take, Nat.min_eq_left h]
  rw [hbegin]
  conv_rhs => rw [← List.take_append_drop m (advances.take n), List.sum_append]
  exact Nat.le_add_right _ _

/-- One advance after a reading within the wait is still less than a day after
the start. -/
lemma sum_take_succ_lt {c m : ℕ} (hsteps : ∀ d ∈ advances, d < rtcOnedayTicks - c)
    (hm : m < advances.length) (hle : (advances.take m).sum ≤ c) :
    (advances.take (m + 1)).sum < rtcOnedayTicks := by
  have hstep := hsteps _ (List.getElem_mem hm)
  rw [List.sum_take_succ _ _ hm]
  omega

lemma busyWaitOn_eq (husec : usec ≠ 0) {n : ℕ} :
    busyWaitOn base r usec advances = some (n + 1) ↔
      n < advances.length ∧
        cyclesToWait usec ≤ sysClockCycleGet32 base (r.advance (advances.take (n + 1)).sum) -
          sysClockCycleGet32 base r ∧
        ∀ m < n, ¬ cyclesToWait usec ≤
          sysClockCycleGet32 base (r.advance (advances.take (m + 1)).sum) -
            sysClockCycleGet32 base r := by
  rw [busyWaitOn, kBusyWait, if_neg husec, waitLoop_eq_some_iff]
  simp only [readings_getElem, readings_length, exists_prop]

variable {base r}

/-- While the wait lasts, the loop ends with it or at midnight. -/
lemma test_take_iff (hsteps : ∀ d ∈ advances, d < rtcOnedayTicks - waitCycles usec)
    {m : ℕ} (hm : m < advances.length)
    (hbefore : ∀ k < m, (advances.take (k + 1)).sum < waitCycles usec) :
    cyclesToWait usec ≤ sysClockCycleGet32 base (r.advance (advances.take (m + 1)).sum) -
        sysClockCycleGet32 base r ↔
      waitCycles usec ≤ (advances.take (m + 1)).sum ∨
        rtcOnedayTicks ≤ r.dayTicks + (advances.take (m + 1)).sum := by
  have hle : (advances.take m).sum ≤ waitCycles usec := by
    cases m with
    | zero => simp
    | succ m => exact (hbefore m (by omega)).le
  rw [← cyclesToWait_toNat]
  exact test_iff base r (cyclesToWait_lt usec) (sum_take_succ_lt hsteps hm hle)

/-- Without a reading past midnight the loop ends with the wait. -/
lemma waitsExactly_of (husec : usec ≠ 0)
    (hsteps : ∀ d ∈ advances, d < rtcOnedayTicks - waitCycles usec)
    (h : NoReadingPastMidnight r (waitCycles usec) advances) :
    WaitsExactly base r usec advances := by
  have htest {m : ℕ} (hm : m < advances.length)
      (hbefore : ∀ k < m, (advances.take (k + 1)).sum < waitCycles usec) :
      cyclesToWait usec ≤ sysClockCycleGet32 base (r.advance (advances.take (m + 1)).sum) -
        sysClockCycleGet32 base r ↔ waitCycles usec ≤ (advances.take (m + 1)).sum := by
    have hmidnight := h _ (List.take_prefix (m + 1) advances)
    rw [test_take_iff hsteps hm hbefore]
    omega
  intro n
  rw [busyWaitOn_eq base r husec]
  constructor
  · intro hexit
    obtain ⟨hn, hlast, hearlier⟩ := hexit
    have hbefore (m : ℕ) : m < n → (advances.take (m + 1)).sum < waitCycles usec := by
      induction m using Nat.strong_induction_on with
      | _ m ih =>
        intro hm
        have hnot := mt (htest (by omega) fun k hk => ih k hk (by omega)).mpr (hearlier m hm)
        omega
    exact ⟨hn, (htest hn hbefore).mp hlast, hbefore⟩
  · intro hfirst
    obtain ⟨hn, hover, hbefore⟩ := hfirst
    refine ⟨hn, (htest hn hbefore).mpr hover, fun m hm htrue => ?_⟩
    have hle := (htest (by omega) fun k hk => hbefore k (by omega)).mp htrue
    have hlt := hbefore m hm
    omega

/-- A reading past midnight within the wait ends the loop, then or before. -/
lemma noReadingPastMidnight_of (husec : usec ≠ 0)
    (hsteps : ∀ d ∈ advances, d < rtcOnedayTicks - waitCycles usec)
    (h : WaitsExactly base r usec advances) :
    NoReadingPastMidnight r (waitCycles usec) advances := by
  intro taken hbegin hwithin
  by_contra hpast
  have htaken := List.prefix_iff_eq_take.mp hbegin
  have hlength := hbegin.length_le
  cases hm : taken.length with
  | zero =>
    have hnil := List.eq_nil_of_length_eq_zero hm
    have hday := r.dayTicks_lt
    rw [hnil, List.sum_nil] at hpast
    omega
  | succ m =>
    rw [hm] at htaken
    have hbefore (k : ℕ) (hk : k ≤ m) :
        (advances.take (k + 1)).sum < waitCycles usec := by
      have hle : (advances.take (k + 1)).sum ≤ (advances.take (m + 1)).sum :=
        sum_take_le (by omega)
      rw [← htaken] at hle
      omega
    have htest : cyclesToWait usec ≤
        sysClockCycleGet32 base (r.advance (advances.take (m + 1)).sum) -
          sysClockCycleGet32 base r := by
      refine (test_take_iff hsteps (by omega) fun k hk => hbefore k (by omega)).mpr (Or.inr ?_)
      rw [← htaken]
      omega
    have hends : ∃ n, cyclesToWait usec ≤
        sysClockCycleGet32 base (r.advance (advances.take (n + 1)).sum) -
          sysClockCycleGet32 base r := ⟨m, htest⟩
    have hfirst : Nat.find hends ≤ m := Nat.find_min' hends htest
    have hexit := (h (Nat.find hends)).mp ((busyWaitOn_eq base r husec).mpr
      ⟨by omega, Nat.find_spec hends, fun _ => Nat.find_min hends⟩)
    have hover := hexit.2.1
    have hlt := hbefore _ hfirst
    omega

end Waits

/-- The wait is right exactly if no reading falls between midnight and its end. -/
theorem waitsExactly_iff (base : RtcRegs) (r : Rtc) {usec : BitVec 32} (husec : usec ≠ 0)
    {advances : List ℕ}
    (hsteps : ∀ d ∈ advances, d < rtcOnedayTicks - waitCycles usec) :
    WaitsExactly base r usec advances ↔
      NoReadingPastMidnight r (waitCycles usec) advances :=
  ⟨noReadingPastMidnight_of husec hsteps, waitsExactly_of husec hsteps⟩

theorem waitsExactly_at_midday :
    (1000000 : BitVec 32) ≠ 0 ∧
      (∀ d ∈ [20000, 20000], d < rtcOnedayTicks - waitCycles 1000000) ∧
      (WaitsExactly ⟨0, 0, 0, 0⟩ ⟨3, 21600, 0⟩ 1000000 [20000, 20000] ↔
        NoReadingPastMidnight ⟨3, 21600, 0⟩ (waitCycles 1000000) [20000, 20000]) := by
  have husec : (1000000 : BitVec 32) ≠ 0 := by decide
  have hsteps : ∀ d ∈ [20000, 20000], d < rtcOnedayTicks - waitCycles 1000000 := by
    decide
  exact ⟨husec, hsteps, waitsExactly_iff _ _ husec hsteps⟩

/-- One tick before midnight a wait of a second is over with the next reading. -/
theorem midnight_returns_early :
    (∀ d ∈ [1], d < rtcOnedayTicks - waitCycles 1000000) ∧
      busyWaitOn ⟨0, 0, 0, 0⟩ ⟨3, 43199, 65535⟩ 1000000 [1] = some 1 ∧
      waitCycles 1000000 = 32768 ∧
      ¬ WaitsExactly ⟨0, 0, 0, 0⟩ ⟨3, 43199, 65535⟩ 1000000 [1] := by
  have hexit : busyWaitOn ⟨0, 0, 0, 0⟩ ⟨3, 43199, 65535⟩ 1000000 [1] = some 1 := by
    decide +kernel
  have hcycles : waitCycles 1000000 = 32768 := by decide
  refine ⟨by decide, hexit, hcycles, fun h => ?_⟩
  have hover := ((h 0).mp hexit).2.1
  rw [hcycles] at hover
  norm_num at hover

end WchIotSdk.BusyWait
