import WchIotSdk.CyclicClock

/-!
# RTC alarm path of the system clock

`sys_clock_set_ticks` hands its argument through `set_rtc_alarm` and
`hal_rtc_set_alarm` to `hal_rtc_set_ticks`, which corrects it once by the length
of the RTC day and stores it in R32_RTC_TRIG. All counts are `uint32_t`.
-/
namespace WchIotSdk.RtcTimer

/-- `RTC_ONEDAY_TICKS`, seconds per day times 32768. -/
def rtcOnedayTicks : ℕ := 60 * 60 * 24 * 32768

/-- CONFIG_SOC_RTC_MAX_TICK. -/
def configSocRtcMaxTick : ℕ := 0xA8C00000

/-- The value `hal_rtc_set_ticks` stores in R32_RTC_TRIG. -/
def halRtcSetTicks (ticks : BitVec 32) : BitVec 32 :=
  if ticks > BitVec.ofNat 32 rtcOnedayTicks then ticks - BitVec.ofNat 32 rtcOnedayTicks
  else ticks

def halRtcSetAlarm (ticks : BitVec 32) : BitVec 32 := halRtcSetTicks ticks

def setRtcAlarm (time : BitVec 32) : BitVec 32 := halRtcSetAlarm time

/-- The value written to R32_RTC_TRIG; the hint is unused. -/
def sysClockSetTicks (ticks : BitVec 32) (_idle : Bool) : BitVec 32 := setRtcAlarm ticks

theorem sysClockSetTicks_toNat (ticks : BitVec 32) (idle : Bool) :
    (sysClockSetTicks ticks idle).toNat =
      if configSocRtcMaxTick < ticks.toNat then ticks.toNat - configSocRtcMaxTick
      else ticks.toNat := by
  have hday : (BitVec.ofNat 32 rtcOnedayTicks).toNat = configSocRtcMaxTick := by decide
  simp only [sysClockSetTicks, setRtcAlarm, halRtcSetAlarm, halRtcSetTicks, gt_iff_lt,
    BitVec.lt_def, hday]
  split_ifs with h
  · rw [BitVec.toNat_sub_of_le (by rw [BitVec.le_def, hday]; exact h.le), hday]
  · rfl

/-- A count within the day is stored as it is. -/
theorem sysClockSetTicks_of_lt {ticks : BitVec 32} (h : ticks.toNat < configSocRtcMaxTick)
    (idle : Bool) : sysClockSetTicks ticks idle = ticks := by
  apply BitVec.eq_of_toNat_eq
  rw [sysClockSetTicks_toNat, if_neg (by omega)]

end WchIotSdk.RtcTimer
