import WchIotSdk.RtcTimer
import Mathlib.Data.BitVec

/-!
# RTC timestamps

`hal_rtc_set_timestamp` splits the seconds since the start date into days and a
rest, scales the rest to ticks in a 16-bit variable, and loads both counters
through R32_RTC_TRIG. `hal_rtc_get_timestamp` adds the counters up. The read
value lacks the start date and most of the rest, so no accepted time is read
back; what is read back is proved for every accepted time.

`time_t` is wider than the times here, an integer; the other arithmetic has the
width of its variables.
-/
namespace WchIotSdk.RtcTimestamp
open RtcTimer

def rtcTimestampMax : ℤ := 1388534400
def rtcOneddaySeconds : ℕ := 60 * 60 * 24
def rtcStartTimestamp : ℤ := 1640995200

/-- `RTC_CNT_DAY_MSK`, 14 bits. -/
def rtcCntDayMsk : ℕ := 2 ^ 14 - 1

def wchErrorInvalidParam : ℤ := 4

/-- The registers of the RTC. -/
structure RtcRegs where
  modeCtrl : BitVec 8
  trig : BitVec 32
  cnt32k : BitVec 32
  cntDay : BitVec 32
  deriving DecidableEq, Repr

/-- The halves of R32_RTC_CNT_32K. -/
def RtcRegs.cntTicks (r : RtcRegs) : BitVec 16 := r.cnt32k.setWidth 16
def RtcRegs.cnt2s (r : RtcRegs) : BitVec 16 := (r.cnt32k >>> 16).setWidth 16

def setTicks (r : RtcRegs) (ticks : BitVec 32) : RtcRegs := { r with trig := halRtcSetTicks ticks }

/-- The bits of R8_RTC_MODE_CTRL clear themselves once the counter is loaded. -/
def halRtcLoadHigh (r : RtcRegs) : RtcRegs :=
  { r with cntDay := r.trig, modeCtrl := (r.modeCtrl ||| 0x80#8) &&& ~~~0x80#8 }

def halRtcLoadLow (r : RtcRegs) : RtcRegs :=
  { r with cnt32k := r.trig, modeCtrl := (r.modeCtrl ||| 0x40#8) &&& ~~~0x40#8 }

def halRtcUpdateTicks (r : RtcRegs) (ticks : BitVec 32) : RtcRegs :=
  halRtcLoadLow (setTicks r ticks)

def halRtcUpdateDays (r : RtcRegs) (days : BitVec 16) : RtcRegs :=
  halRtcLoadHigh (setTicks r (days.setWidth 32 &&& BitVec.ofNat 32 rtcCntDayMsk))

/-- The loop over the days. -/
def splitDays (timeDelta : ℤ) (day : BitVec 16) : ℤ × BitVec 16 :=
  if timeDelta ≥ rtcOneddaySeconds then splitDays (timeDelta - rtcOneddaySeconds) (day + 1)
  else (timeDelta, day)
termination_by timeDelta.toNat
decreasing_by
  unfold rtcOneddaySeconds at *
  omega

/-- The new registers and the result. -/
def halRtcSetTimestamp (r : RtcRegs) (rawtime : ℤ) : RtcRegs × ℤ :=
  let timeDelta := rawtime - rtcStartTimestamp
  if timeDelta < 0 ∨ timeDelta > rtcTimestampMax then (r, -wchErrorInvalidParam)
  else
    let (timeDelta, day) := splitDays timeDelta 0
    let tick : BitVec 16 := BitVec.ofInt 16 (timeDelta * 32768)
    (halRtcUpdateTicks (halRtcUpdateDays r day) (tick.setWidth 32), 0)

/-- The sum is computed in `unsigned long`. -/
def halRtcGetTimestamp (r : RtcRegs) : ℤ :=
  let day : BitVec 16 := (r.cntDay &&& BitVec.ofNat 32 rtcCntDayMsk).setWidth 16
  let sec2 := r.cnt2s
  let tick := r.cntTicks
  ((day.setWidth 32 * BitVec.ofNat 32 rtcOneddaySeconds + sec2.setWidth 32 * 2 +
    (if tick < 32768 then 0 else 1) : BitVec 32).toNat : ℤ)

/-- The time is accepted. -/
def Accepted (rawtime : ℤ) : Prop :=
  0 ≤ rawtime - rtcStartTimestamp ∧ rawtime - rtcStartTimestamp ≤ rtcTimestampMax

instance (rawtime : ℤ) : Decidable (Accepted rawtime) := inferInstanceAs (Decidable (_ ∧ _))

/-- The loop leaves the remainder and counts the quotient. -/
lemma splitDays_eq (n : ℕ) (day : BitVec 16) :
    splitDays n day =
      (((n % rtcOneddaySeconds : ℕ) : ℤ), day + BitVec.ofNat 16 (n / rtcOneddaySeconds)) := by
  have hpos : 0 < rtcOneddaySeconds := by decide
  induction n using Nat.strong_induction_on generalizing day with
  | _ n ih =>
    rw [splitDays]
    by_cases hday : rtcOneddaySeconds ≤ n
    · have hcast : (n : ℤ) - rtcOneddaySeconds = ((n - rtcOneddaySeconds : ℕ) : ℤ) :=
        (Nat.cast_sub hday).symm
      have hone : (1 : BitVec 16) = BitVec.ofNat 16 1 := rfl
      rw [if_pos (by exact_mod_cast hday), hcast, ih _ (by omega), ← Nat.mod_eq_sub_mod hday,
        Nat.div_eq_sub_div hpos hday, BitVec.ofNat_add, hone, BitVec.add_assoc,
        BitVec.add_comm (BitVec.ofNat 16 1)]
    · have hlt : n < rtcOneddaySeconds := Nat.lt_of_not_le hday
      rw [if_neg (by exact_mod_cast hday), Nat.mod_eq_of_lt hlt, Nat.div_eq_of_lt hlt]
      simp

section Accepted

variable {n : ℕ} (r : RtcRegs)

/-- In 16 bits only the last bit of the seconds is left of their ticks. -/
lemma tick_toNat (m : ℕ) : (BitVec.ofInt 16 ((m : ℤ) * 32768)).toNat = m % 2 * 32768 := by
  rw [BitVec.toNat_ofInt]
  omega

lemma halRtcSetTicks_of_lt {ticks : BitVec 32} (h : ticks.toNat < 2 ^ 16) :
    halRtcSetTicks ticks = ticks := by
  have hday : (BitVec.ofNat 32 rtcOnedayTicks).toNat = 2831155200 := by decide
  rw [halRtcSetTicks, if_neg]
  rw [gt_iff_lt, BitVec.lt_def, hday]
  omega

/-- The counters after an accepted time, `n` seconds after the start date. -/
theorem setTimestamp_counters (hn : (n : ℤ) ≤ rtcTimestampMax) :
    (halRtcSetTimestamp r (rtcStartTimestamp + n)).1.cntDay.toNat = n / rtcOneddaySeconds ∧
      (halRtcSetTimestamp r (rtcStartTimestamp + n)).1.cnt32k.toNat =
        n % rtcOneddaySeconds % 2 * 32768 ∧
      (halRtcSetTimestamp r (rtcStartTimestamp + n)).2 = 0 := by
  have hmax : n ≤ 1388534400 := by
    unfold rtcTimestampMax at hn
    omega
  have hdays : n / rtcOneddaySeconds < 2 ^ 14 := by
    rw [rtcOneddaySeconds]
    omega
  have hdelta : rtcStartTimestamp + n - rtcStartTimestamp = (n : ℤ) := by ring
  have hday : ((0 + BitVec.ofNat 16 (n / rtcOneddaySeconds) : BitVec 16).setWidth 32 &&&
      BitVec.ofNat 32 rtcCntDayMsk).toNat = n / rtcOneddaySeconds := by
    have hmask : (BitVec.ofNat 32 rtcCntDayMsk).toNat = 2 ^ 14 - 1 := rfl
    have hzero : (0 : BitVec 16) + BitVec.ofNat 16 (n / rtcOneddaySeconds) =
        BitVec.ofNat 16 (n / rtcOneddaySeconds) := BitVec.zero_add _
    rw [hzero, BitVec.toNat_and, hmask, Nat.and_two_pow_sub_one_eq_mod, BitVec.toNat_setWidth,
      BitVec.toNat_ofNat, Nat.mod_eq_of_lt (lt_trans hdays (by norm_num)),
      Nat.mod_eq_of_lt (lt_trans hdays (by norm_num)), Nat.mod_eq_of_lt hdays]
  have htick (m : ℕ) : ((BitVec.ofInt 16 ((m : ℤ) * 32768)).setWidth 32).toNat =
      m % 2 * 32768 := by
    rw [BitVec.toNat_setWidth, tick_toNat]
    omega
  rw [halRtcSetTimestamp]
  simp only [hdelta, splitDays_eq]
  rw [if_neg (by omega)]
  refine ⟨?_, ?_, rfl⟩
  · show (halRtcSetTicks _).toNat = _
    rw [halRtcSetTicks_of_lt (by rw [hday]; omega), hday]
  · show (halRtcSetTicks _).toNat = _
    rw [halRtcSetTicks_of_lt (by rw [htick]; omega), htick]

/-- Nothing wraps in the ranges the counters are set to. -/
lemma seconds_toNat {day sec last : BitVec 32} {days half : ℕ} (hday : day.toNat = days)
    (hdays14 : days < 2 ^ 14) (hsec : sec.toNat = 0) (hlast : last.toNat = half) (hhalf2 : half < 2) :
    (day * BitVec.ofNat 32 rtcOneddaySeconds + sec * 2 + last).toNat =
      days * rtcOneddaySeconds + half := by
  have hdayMul : (BitVec.ofNat 32 rtcOneddaySeconds).toNat = rtcOneddaySeconds := rfl
  rw [BitVec.toNat_add, BitVec.toNat_add, BitVec.toNat_mul, BitVec.toNat_mul, hday, hsec, hlast,
    hdayMul, rtcOneddaySeconds]
  omega

/-- The second half of a 2-second unit counts as one second. -/
lemma second_of_tick {tick : BitVec 16} {half : ℕ} (htick : tick.toNat = half * 32768) :
    (if tick < 32768 then 0 else 1 : BitVec 32).toNat = half := by
  have hbound : (32768 : BitVec 16).toNat = 32768 := rfl
  have hlow : tick < 32768 ↔ half = 0 := by
    rw [BitVec.lt_def, htick, hbound]
    omega
  by_cases hzero : half = 0
  · rw [if_pos (hlow.mpr hzero), hzero]
    rfl
  · have hone : half = 1 := by omega
    rw [if_neg (mt hlow.mp hzero), hone]
    rfl

/-- Reading adds up the counters. -/
lemma getTimestamp_eq {r : RtcRegs} {days half : ℕ} (hdays : r.cntDay.toNat = days)
    (hdays14 : days < 2 ^ 14) (hhalf : r.cnt32k.toNat = half * 32768) (hhalf2 : half < 2) :
    halRtcGetTimestamp r = (days * rtcOneddaySeconds + half : ℕ) := by
  have hday : (((r.cntDay &&& BitVec.ofNat 32 rtcCntDayMsk).setWidth 16).setWidth 32).toNat =
      days := by
    have hmask : (BitVec.ofNat 32 rtcCntDayMsk).toNat = 2 ^ 14 - 1 := rfl
    rw [BitVec.toNat_setWidth, BitVec.toNat_setWidth, BitVec.toNat_and, hmask,
      Nat.and_two_pow_sub_one_eq_mod, hdays, Nat.mod_eq_of_lt hdays14]
    omega
  have hsec : (r.cnt2s.setWidth 32).toNat = 0 := by
    rw [RtcRegs.cnt2s, BitVec.toNat_setWidth, BitVec.toNat_setWidth, BitVec.toNat_ushiftRight,
      hhalf, Nat.shiftRight_eq_div_pow]
    omega
  have htick : r.cntTicks.toNat = half * 32768 := by
    rw [RtcRegs.cntTicks, BitVec.toNat_setWidth, hhalf]
    omega
  have hlast := second_of_tick htick
  exact congrArg Nat.cast (seconds_toNat hday hdays14 hsec hlast hhalf2)

/-- What is read back: whole days, and of the rest one bit. -/
theorem getTimestamp_setTimestamp (hn : (n : ℤ) ≤ rtcTimestampMax) :
    halRtcGetTimestamp (halRtcSetTimestamp r (rtcStartTimestamp + n)).1 =
      (n / rtcOneddaySeconds * rtcOneddaySeconds + n % rtcOneddaySeconds % 2 : ℕ) := by
  have hmax : n ≤ 1388534400 := by
    unfold rtcTimestampMax at hn
    omega
  obtain ⟨hday, htick, -⟩ := setTimestamp_counters r hn
  apply getTimestamp_eq hday _ htick (Nat.mod_lt _ (by norm_num))
  rw [rtcOneddaySeconds]
  omega

/-- Apart from the start date, a time is read back if it lies in the first two
seconds of its day. -/
theorem getTimestamp_from_start_iff (hn : (n : ℤ) ≤ rtcTimestampMax) :
    rtcStartTimestamp + halRtcGetTimestamp (halRtcSetTimestamp r (rtcStartTimestamp + n)).1 =
      rtcStartTimestamp + n ↔ n % rtcOneddaySeconds < 2 := by
  have hsplit := Nat.div_add_mod' n rtcOneddaySeconds
  rw [getTimestamp_setTimestamp r hn]
  generalize n / rtcOneddaySeconds * rtcOneddaySeconds = days at hsplit ⊢
  generalize n % rtcOneddaySeconds = rest at hsplit ⊢
  omega

end Accepted

/-- An accepted time is read back; a rejected one changes no register. -/
structure TimestampSpec (r : RtcRegs) (rawtime : ℤ) : Prop where
  roundTrip : Accepted rawtime → halRtcGetTimestamp (halRtcSetTimestamp r rawtime).1 = rawtime
  rejected : ¬ Accepted rawtime → (halRtcSetTimestamp r rawtime).1 = r

lemma not_accepted_iff (rawtime : ℤ) : ¬ Accepted rawtime ↔
    rawtime - rtcStartTimestamp < 0 ∨ rawtime - rtcStartTimestamp > rtcTimestampMax := by
  unfold Accepted
  omega

/-- No accepted time is read back, whatever the registers held. -/
lemma getTimestamp_ne (r : RtcRegs) {rawtime : ℤ} (h : Accepted rawtime) :
    halRtcGetTimestamp (halRtcSetTimestamp r rawtime).1 ≠ rawtime := by
  obtain ⟨n, hn⟩ := Int.eq_ofNat_of_zero_le h.1
  have hmax : (n : ℤ) ≤ rtcTimestampMax := hn ▸ h.2
  have hsplit := Nat.div_add_mod' n rtcOneddaySeconds
  have hmod := Nat.mod_le (n % rtcOneddaySeconds) 2
  have hraw : rawtime = rtcStartTimestamp + n := by omega
  rw [hraw, getTimestamp_setTimestamp r hmax]
  unfold rtcStartTimestamp
  omega

/-- Only rejected times are treated as they should be. -/
theorem timestamp_spec_iff (r : RtcRegs) (rawtime : ℤ) :
    TimestampSpec r rawtime ↔ ¬ Accepted rawtime := by
  constructor
  · intro h haccepted
    exact getTimestamp_ne r haccepted (h.roundTrip haccepted)
  · intro h
    refine ⟨fun haccepted => absurd haccepted h, fun _ => ?_⟩
    rw [halRtcSetTimestamp]
    simp only [if_pos ((not_accepted_iff rawtime).mp h)]

/-- Ten seconds after the start date the counters are read as zero. -/
theorem ten_seconds_lost :
    Accepted (rtcStartTimestamp + 10) ∧
      ¬ TimestampSpec ⟨0, 0, 0, 0⟩ (rtcStartTimestamp + 10) ∧
      halRtcGetTimestamp (halRtcSetTimestamp ⟨0, 0, 0, 0⟩ (rtcStartTimestamp + 10)).1 = 0 := by
  have haccepted : Accepted (rtcStartTimestamp + 10) := by decide
  refine ⟨haccepted, fun h => getTimestamp_ne _ haccepted (h.roundTrip haccepted), ?_⟩
  have hread := getTimestamp_setTimestamp (n := 10) ⟨0, 0, 0, 0⟩ (by decide)
  exact hread

end WchIotSdk.RtcTimestamp
