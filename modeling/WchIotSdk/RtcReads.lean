import WchIotSdk.RtcTimestamp

/-!
# Reading a running RTC

The counters of the RTC carry into one another while software reads them:
65536 ticks make a unit of two seconds, 43200 units a day. `hal_rtc_get_ticks`
reads the 32-bit count of the day until two reads agree.
`hal_rtc_get_timestamp` reads the day, the unit and the tick one after the other,
once each.
-/
namespace WchIotSdk.RtcReads
open RtcTimer RtcTimestamp

/-- The free-running counters. -/
structure Rtc where
  day : Fin (2 ^ 14)
  sec2 : Fin 43200
  tick : Fin (2 ^ 16)
  deriving DecidableEq, Repr

namespace Rtc

/-- One increment of the 32 kHz counter, with its carries. The day counter
starts over after 14 bits. -/
def increment (r : Rtc) : Rtc :=
  if htick : r.tick.val + 1 < 2 ^ 16 then { r with tick := ⟨r.tick.val + 1, htick⟩ }
  else if hsec2 : r.sec2.val + 1 < 43200 then { r with sec2 := ⟨r.sec2.val + 1, hsec2⟩, tick := 0 }
  else { day := r.day + 1, sec2 := 0, tick := 0 }

def advance (r : Rtc) (n : ℕ) : Rtc := increment^[n] r

/-- Increments since day 0. -/
def count (r : Rtc) : ℕ := (r.day.val * 43200 + r.sec2.val) * 65536 + r.tick.val

/-- Increments since midnight. -/
def dayTicks (r : Rtc) : ℕ := r.sec2.val * 65536 + r.tick.val

/-- What the registers show. -/
def regs (r : Rtc) (base : RtcRegs) : RtcRegs :=
  { base with
    cnt32k := BitVec.ofNat 32 r.dayTicks
    cntDay := BitVec.ofNat 32 r.day.val }

/-- The time `n` increments later, in seconds since day 0 and with the days
counted on. -/
def secondsAfter (r : Rtc) (n : ℕ) : ℕ := (r.count + n) / 32768

end Rtc

/-- `hal_rtc_get_timestamp`, with the registers as they are at each of its reads. -/
def halRtcGetTimestampAt (atDay atSec2 atTick : RtcRegs) : ℤ :=
  let day : BitVec 16 := (atDay.cntDay &&& BitVec.ofNat 32 rtcCntDayMsk).setWidth 16
  let sec2 := atSec2.cnt2s
  let tick := atTick.cntTicks
  ((day.setWidth 32 * BitVec.ofNat 32 rtcOneddaySeconds + sec2.setWidth 32 * 2 +
    (if tick < 32768 then 0 else 1) : BitVec 32).toNat : ℤ)

/-- The call on a running RTC: `g₁` increments before the second read and `g₂`
before the third. -/
def readTimestamp (base : RtcRegs) (r : Rtc) (g₁ g₂ : ℕ) : ℤ :=
  halRtcGetTimestampAt (r.regs base) ((r.advance g₁).regs base)
    ((r.advance (g₁ + g₂)).regs base)

/-- `hal_rtc_get_ticks` on a running RTC. Each turn of the loop reads twice; a
pair has the increments between its reads and those before the next turn. The
result is the count with the increments since the call, `none` while the loop
still turns. -/
def readTicks (base : RtcRegs) (r : Rtc) : List (ℕ × ℕ) → Option (BitVec 32 × ℕ)
  | [] => none
  | (between, next) :: gaps =>
    if (r.regs base).cnt32k = ((r.advance between).regs base).cnt32k then
      some ((r.regs base).cnt32k, between)
    else
      (readTicks base (r.advance (between + next)) gaps).map
        fun (ticks, elapsed) => (ticks, between + next + elapsed)

namespace Rtc

variable (r : Rtc)

lemma count_lt : r.count < 2 ^ 14 * 43200 * 65536 := by
  have hday := r.day.isLt
  have hsec2 := r.sec2.isLt
  have htick := r.tick.isLt
  unfold count
  omega

lemma dayTicks_lt : r.dayTicks < rtcOnedayTicks := by
  have hsec2 := r.sec2.isLt
  have htick := r.tick.isLt
  rw [dayTicks, rtcOnedayTicks]
  omega

/-- The counters are the digits of the count. -/
lemma tick_eq : r.tick.val = r.count % 65536 := by
  have htick := r.tick.isLt
  unfold count
  omega

lemma sec2_eq : r.sec2.val = r.count / 65536 % 43200 := by
  have hsec2 := r.sec2.isLt
  have htick := r.tick.isLt
  unfold count
  omega

lemma day_eq : r.day.val = r.count / 65536 / 43200 := by
  have hsec2 := r.sec2.isLt
  have htick := r.tick.isLt
  unfold count
  omega

lemma count_increment : r.increment.count = (r.count + 1) % (2 ^ 14 * 43200 * 65536) := by
  have hday := r.day.isLt
  have hsec2 := r.sec2.isLt
  have htick := r.tick.isLt
  unfold increment
  split_ifs with hnext hunit
  · simp only [count]
    omega
  · have hzero : (0 : Fin (2 ^ 16)).val = 0 := rfl
    simp only [count, hzero]
    omega
  · have hzero : (0 : Fin (2 ^ 16)).val = 0 := rfl
    have hzero' : (0 : Fin 43200).val = 0 := rfl
    have hadd : (r.day + 1).val = (r.day.val + 1) % 2 ^ 14 := rfl
    simp only [count, hzero, hzero', hadd]
    omega

/-- The carries keep the count, up to the turn of the day counter. -/
theorem count_advance (n : ℕ) : (r.advance n).count = (r.count + n) % (2 ^ 14 * 43200 * 65536) := by
  induction n with
  | zero =>
    rw [advance, Function.iterate_zero, id, Nat.add_zero, Nat.mod_eq_of_lt r.count_lt]
  | succ n ih =>
    have hstep : r.advance (n + 1) = (r.advance n).increment := by
      simp only [advance, Function.iterate_succ_apply']
    rw [hstep, count_increment, ih]
    omega

lemma advance_advance (m n : ℕ) : (r.advance m).advance n = r.advance (m + n) := by
  simp only [advance]
  rw [Nat.add_comm, Function.iterate_add_apply]

lemma tick_advance (n : ℕ) : (r.advance n).tick.val = (r.count + n) % 65536 := by
  rw [tick_eq, count_advance]
  omega

lemma sec2_advance (n : ℕ) : (r.advance n).sec2.val = (r.count + n) / 65536 % 43200 := by
  rw [sec2_eq, count_advance]
  omega

end Rtc

section Registers

variable (base : RtcRegs) (r : Rtc)

/-- The three reads, as numbers. -/
lemma day_toNat : ((((r.regs base).cntDay &&& BitVec.ofNat 32 rtcCntDayMsk).setWidth 16).setWidth
    32).toNat = r.day.val := by
  have hmask : (BitVec.ofNat 32 rtcCntDayMsk).toNat = 2 ^ 14 - 1 := rfl
  have hday := r.day.isLt
  rw [BitVec.toNat_setWidth, BitVec.toNat_setWidth, BitVec.toNat_and, hmask,
    Nat.and_two_pow_sub_one_eq_mod, Rtc.regs, BitVec.toNat_ofNat]
  omega

lemma cnt2s_toNat : (r.regs base).cnt2s.toNat = r.sec2.val := by
  have hsec2 := r.sec2.isLt
  have htick := r.tick.isLt
  rw [RtcRegs.cnt2s, BitVec.toNat_setWidth, BitVec.toNat_ushiftRight, Nat.shiftRight_eq_div_pow,
    Rtc.regs, BitVec.toNat_ofNat, Rtc.dayTicks]
  omega

lemma cntTicks_toNat : (r.regs base).cntTicks.toNat = r.tick.val := by
  have hsec2 := r.sec2.isLt
  have htick := r.tick.isLt
  rw [RtcRegs.cntTicks, BitVec.toNat_setWidth, Rtc.regs, BitVec.toNat_ofNat, Rtc.dayTicks]
  omega

/-- The second half of a unit counts one second. -/
lemma lastSecond_toNat : (if (r.regs base).cntTicks < 32768 then 0 else 1 : BitVec 32).toNat =
    r.tick.val / 32768 := by
  have htick := r.tick.isLt
  have hbound : (32768 : BitVec 16).toNat = 32768 := rfl
  have hlow : (r.regs base).cntTicks < 32768 ↔ r.tick.val < 32768 := by
    rw [BitVec.lt_def, cntTicks_toNat, hbound]
  split_ifs with h
  · have := hlow.mp h
    show 0 = _
    omega
  · have := mt hlow.mpr h
    show 1 = _
    omega

/-- The sum of the three reads does not wrap. -/
theorem getTimestampAt_eq (atDay atSec2 atTick : Rtc) :
    halRtcGetTimestampAt (atDay.regs base) (atSec2.regs base) (atTick.regs base) =
      (atDay.day.val * 86400 + atSec2.sec2.val * 2 + atTick.tick.val / 32768 : ℕ) := by
  have hday := atDay.day.isLt
  have hsec2 := atSec2.sec2.isLt
  have htick := atTick.tick.isLt
  have hdays := day_toNat base atDay
  have hunits : ((atSec2.regs base).cnt2s.setWidth 32).toNat = atSec2.sec2.val := by
    rw [BitVec.toNat_setWidth, cnt2s_toNat]
    omega
  have hlast := lastSecond_toNat base atTick
  have hdayMul : (BitVec.ofNat 32 rtcOneddaySeconds).toNat = 86400 := rfl
  have htwo : (2 : BitVec 32).toNat = 2 := rfl
  have hsum : atDay.day.val * 86400 + atSec2.sec2.val * 2 + atTick.tick.val / 32768 < 2 ^ 32 := by
    omega
  show ((_ + _ + _ : BitVec 32).toNat : ℤ) = _
  rw [BitVec.toNat_add, BitVec.toNat_add, BitVec.toNat_mul, BitVec.toNat_mul, hdays, hunits, hlast,
    hdayMul, htwo]
  simp only [Nat.mod_add_mod, Nat.add_mod_mod]
  rw [Nat.mod_eq_of_lt hsum]

/-- At one instant the registers give the time, up to the turn of the day
counter. -/
theorem getTimestamp_advance (n : ℕ) :
    halRtcGetTimestamp ((r.advance n).regs base) = (r.secondsAfter n % (2 ^ 14 * 86400) : ℕ) := by
  have hread : halRtcGetTimestamp ((r.advance n).regs base) =
      halRtcGetTimestampAt ((r.advance n).regs base) ((r.advance n).regs base)
        ((r.advance n).regs base) := rfl
  rw [hread, getTimestampAt_eq, Rtc.day_eq, Rtc.sec2_eq, Rtc.tick_eq, Rtc.count_advance,
    Rtc.secondsAfter]
  norm_cast
  omega

end Registers

section Timestamps

variable (base : RtcRegs) (r : Rtc) (g₁ g₂ : ℕ)

/-- Between the first two reads the unit went back past midnight. -/
def UnitBack : Prop := (r.advance g₁).sec2 < r.sec2

/-- The call starts in the second half of a unit that the second read still
shows, and the third read is in the first half of another. -/
def HalfLost : Prop :=
  (r.advance g₁).sec2 = r.sec2 ∧ 32768 ≤ r.tick.val ∧ (r.advance (g₁ + g₂)).tick.val < 32768

instance : Decidable (UnitBack r g₁) := inferInstanceAs (Decidable (_ < _))
instance : Decidable (HalfLost r g₁ g₂) := inferInstanceAs (Decidable (_ ∧ _ ∧ _))

lemma readTimestamp_eq : readTimestamp base r g₁ g₂ =
    (r.day.val * 86400 + (r.advance g₁).sec2.val * 2 +
      (r.advance (g₁ + g₂)).tick.val / 32768 : ℕ) :=
  getTimestampAt_eq base r (r.advance g₁) (r.advance (g₁ + g₂))

/-- The read time is never ahead of the clock. -/
theorem readTimestamp_le : readTimestamp base r g₁ g₂ ≤ (r.secondsAfter (g₁ + g₂) : ℤ) := by
  rw [readTimestamp_eq, Rtc.secondsAfter, Rtc.day_eq, Rtc.sec2_advance, Rtc.tick_advance]
  norm_cast
  omega

/-- It is behind the start of the call if the unit went back or its half was
lost. -/
theorem le_readTimestamp_iff :
    (r.secondsAfter 0 : ℤ) ≤ readTimestamp base r g₁ g₂ ↔ ¬ UnitBack r g₁ ∧ ¬ HalfLost r g₁ g₂ := by
  have hstart : r.secondsAfter 0 = r.day.val * 86400 + r.sec2.val * 2 + r.tick.val / 32768 := by
    rw [Rtc.secondsAfter, Rtc.count]
    omega
  have hlt := r.tick.isLt
  have hlt' := (r.advance (g₁ + g₂)).tick.isLt
  rw [readTimestamp_eq, hstart, UnitBack, HalfLost, Fin.lt_def, Fin.ext_iff]
  norm_cast
  omega

/-- In calls shorter than a second these are the two carries: midnight between
the first reads, or the end of a unit between the last ones. -/
theorem unitBack_iff (hg : g₁ < 65536) :
    UnitBack r g₁ ↔ rtcOnedayTicks ≤ r.dayTicks + g₁ := by
  have hday := r.day.isLt
  have hsec2 := r.sec2.isLt
  have htick := r.tick.isLt
  rw [UnitBack, Fin.lt_def, Rtc.sec2_advance, Rtc.count, Rtc.dayTicks, rtcOnedayTicks]
  omega

theorem halfLost_iff (hg : g₁ + g₂ < 32768) :
    HalfLost r g₁ g₂ ↔
      32768 ≤ r.tick.val ∧ r.tick.val + g₁ < 65536 ∧ 65536 ≤ r.tick.val + g₁ + g₂ := by
  have hsec2 := r.sec2.isLt
  have htick := r.tick.isLt
  rw [HalfLost, Fin.ext_iff, Rtc.sec2_advance, Rtc.tick_advance, Rtc.count]
  omega

end Timestamps

/-- A returned count is one the RTC had during the call. -/
theorem readTicks_real (base : RtcRegs) (gaps : List (ℕ × ℕ)) (r : Rtc) {ticks : BitVec 32}
    {elapsed : ℕ} (h : readTicks base r gaps = some (ticks, elapsed)) :
    ∃ n ≤ elapsed, ticks = ((r.advance n).regs base).cnt32k := by
  induction gaps generalizing r ticks elapsed with
  | nil => cases h
  | cons gap gaps ih =>
    obtain ⟨between, next⟩ := gap
    rw [readTicks] at h
    split_ifs at h with hagree
    · obtain ⟨rfl, rfl⟩ := Prod.mk.inj (Option.some.inj h)
      exact ⟨0, Nat.zero_le _, rfl⟩
    · obtain ⟨⟨later, rest⟩, hlater, heq⟩ := Option.map_eq_some_iff.mp h
      obtain ⟨rfl, rfl⟩ := Prod.mk.inj heq
      obtain ⟨n, hn, hticks⟩ := ih _ hlater
      refine ⟨between + next + n, by omega, ?_⟩
      rw [hticks, Rtc.advance_advance]

/-- The count of the day goes around once a day. -/
theorem cnt32k_toNat (base : RtcRegs) (r : Rtc) (n : ℕ) :
    ((r.advance n).regs base).cnt32k.toNat = (r.dayTicks + n) % rtcOnedayTicks := by
  have hsec2 := Rtc.sec2_advance r n
  have htick := Rtc.tick_advance r n
  have hcount : r.count = r.day.val * 43200 * 65536 + r.dayTicks := by
    rw [Rtc.count, Rtc.dayTicks]
    ring
  rw [Rtc.regs, BitVec.toNat_ofNat, rtcOnedayTicks]
  simp only [Rtc.dayTicks] at hcount ⊢
  omega

lemma cnt32k_eq_iff (base : RtcRegs) (r : Rtc) (n : ℕ) :
    (r.regs base).cnt32k = ((r.advance n).regs base).cnt32k ↔ n % rtcOnedayTicks = 0 := by
  have hday := r.dayTicks_lt
  have hstart : (r.regs base).cnt32k.toNat = (r.dayTicks + 0) % rtcOnedayTicks :=
    cnt32k_toNat base r 0
  rw [← BitVec.toNat_inj, hstart, cnt32k_toNat]
  rw [rtcOnedayTicks] at *
  omega

/-- The loop of `hal_rtc_get_ticks` ends with the first turn whose reads agree. -/
theorem readTicks_isSome_iff (base : RtcRegs) (gaps : List (ℕ × ℕ)) (r : Rtc) :
    (readTicks base r gaps).isSome ↔ ∃ gap ∈ gaps, gap.1 % rtcOnedayTicks = 0 := by
  induction gaps generalizing r with
  | nil => simp [readTicks]
  | cons gap gaps ih =>
    have hagree := cnt32k_eq_iff base r gap.1
    rw [readTicks]
    split_ifs with h
    · simp [hagree.mp h]
    · simp [ih, mt hagree.mpr h]

/-- No read is torn: the ticks are a count of the RTC, the timestamp is between
those of the first and the last read. -/
structure NoTornRead (base : RtcRegs) (r : Rtc) (gaps : List (ℕ × ℕ)) (g₁ g₂ : ℕ) : Prop where
  ticks : ∀ ticks elapsed, readTicks base r gaps = some (ticks, elapsed) →
    ∃ n ≤ elapsed, ticks = ((r.advance n).regs base).cnt32k
  start_le : (r.secondsAfter 0 : ℤ) ≤ readTimestamp base r g₁ g₂
  le_end : readTimestamp base r g₁ g₂ ≤ (r.secondsAfter (g₁ + g₂) : ℤ)

theorem noTornRead_iff (base : RtcRegs) (r : Rtc) (gaps : List (ℕ × ℕ)) (g₁ g₂ : ℕ) :
    NoTornRead base r gaps g₁ g₂ ↔ ¬ UnitBack r g₁ ∧ ¬ HalfLost r g₁ g₂ := by
  constructor
  · intro h
    exact (le_readTimestamp_iff base r g₁ g₂).mp h.start_le
  · intro h
    exact ⟨fun _ _ => readTicks_real base gaps r, (le_readTimestamp_iff base r g₁ g₂).mpr h,
      readTimestamp_le base r g₁ g₂⟩

/-- One increment at midnight sets the timestamp back by a day. -/
theorem midnight_torn :
    readTimestamp ⟨0, 0, 0, 0⟩ ⟨5, 43199, 65535⟩ 1 0 = 5 * 86400 ∧
      (⟨5, 43199, 65535⟩ : Rtc).secondsAfter 0 = 5 * 86400 + 86399 ∧
      ¬ NoTornRead ⟨0, 0, 0, 0⟩ ⟨5, 43199, 65535⟩ [] 1 0 := by
  have hread : readTimestamp ⟨0, 0, 0, 0⟩ ⟨5, 43199, 65535⟩ 1 0 = 5 * 86400 := by decide +kernel
  have hstart : (⟨5, 43199, 65535⟩ : Rtc).secondsAfter 0 = 5 * 86400 + 86399 := by decide +kernel
  refine ⟨hread, hstart, fun h => ?_⟩
  have hle := h.start_le
  rw [hread, hstart] at hle
  norm_num at hle

end WchIotSdk.RtcReads
