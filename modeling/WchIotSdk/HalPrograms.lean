import WchIotSdk.SafeAccess
import WchIotSdk.SysDelay

/-!
# The functions that write guarded registers

Delays are left out of the programs: they access no register. A loop that waits for a
register of the hardware is given the number of its rounds.
-/
namespace WchIotSdk.SafeAccess
open RegisterPrograms RtcTimer RtcTimestamp

/-- The two bytes of R16_SLP_CLK_OFF; a bit that is set switches a clock off. -/
def halClkPeriphClkEnable (per : BitVec 16) : Hal Unit := do
  sysSafeAccessEnable
  update .slpClkOff0 fun v => v &&& ~~~(per &&& 0xff).setWidth 8
  sysSafeAccessEnable
  update .slpClkOff1 fun v => v &&& ~~~(per >>> 8).setWidth 8
  sysSafeAccessDisable

/-- The second window is opened from inside the first. -/
def halClkPeriphClkDisable (per : BitVec 16) : Hal Unit := do
  sysSafeAccessEnable
  update .slpClkOff0 fun v => v ||| (per &&& 0xff).setWidth 8
  sysSafeAccessEnable
  update .slpClkOff1 fun v => v ||| (per >>> 8).setWidth 8
  sysSafeAccessDisable

def rbClkXt32mPon : BitVec 8 := 0x04
def rbClkPllPon : BitVec 8 := 0x10

/-- `hal_clk_pwr_pll_is_on` and `hal_clk_pwr_xt32m_is_on`, then `hal_clk_pwr_pll_on` and
`hal_clk_pwr_xt32m_on`, for the bit of the source. -/
def clkPwrIsOn (mask : BitVec 8) : Hal Bool := do
  let v : BitVec 8 ← load Reg.hfckPwrCtrl
  return v &&& mask != 0

def clkPwrOn (mask : BitVec 8) : Hal Unit := updateWindow .hfckPwrCtrl fun v => v ||| mask

/-- The tests in `hal_clk_sys_setup`: what runs already is not switched on again. -/
def ensureClkPwr (mask : BitVec 8) : Hal Unit := do
  unless ← clkPwrIsOn mask do clkPwrOn mask

/-- CLK_MODE_32M, CLK_MODE_PLL and CLK_MODE_32K, the last wider than its field. -/
def clkMode32m : BitVec 32 := 0x00
def clkModePll : BitVec 32 := 0x01
def clkMode32k : BitVec 32 := 0x11

/-- The mode field has two bits, so that CLK_MODE_32K is cut to CLK_MODE_PLL. -/
def halClkSysConfig (clkMode : BitVec 32) (div : BitVec 8) : Hal Unit := do
  let cfg : BitVec 8 := (((clkMode <<< 6) &&& 0xc0) ||| (div.setWidth 32 &&& 0x1f)).setWidth 8
  storeWindow .clkSysCfg (cfg.setWidth 16)

/-- The oscillators that the source needs, then the clock and the timing of the flash. -/
def halClkSysSetup (clk : BitVec 32) : Hal Unit := do
  updateWindow .pllConfig fun v => v &&& ~~~(1#8 <<< 5)
  let mode := (clk &&& 0xc0) >>> 6
  if mode = clkMode32k then
    halClkSysConfig clkMode32k 5
  else if mode = clkModePll then
    ensureClkPwr rbClkXt32mPon
    ensureClkPwr rbClkPllPon
    halClkSysConfig clkModePll ((clk &&& 0x1f).setWidth 8)
    storeWindow .flashCfg 0x53
  else
    ensureClkPwr rbClkXt32mPon
    halClkSysConfig clkMode32m ((clk &&& 0x1f).setWidth 8)
    storeWindow .flashCfg 0x51

/-- A field of a tuning register is replaced. -/
def cfgTune (r : Reg) (mask bits : Value r) : Hal Unit := do
  let reg ← load r
  storeWindow r ((reg &&& ~~~mask) ||| (bits &&& mask))

def halClkLseCfgCurrent (cur : BitVec 8) : Hal Unit := cfgTune .xt32kTune 0x03 cur
def halClkLseCfgCapacitance (cap : BitVec 8) : Hal Unit := cfgTune .xt32kTune 0xf0 (cap <<< 4)

/-- `hse_current_t`. -/
def hseCurrent100 : BitVec 8 := 1
def hseCurrent150 : BitVec 8 := 3

def halClkHseCfgCurrent (cur : BitVec 8) : Hal Unit := cfgTune .xt32mTune 0x03 cur

/-- The capacitances need three bits, the mask of the field has two. -/
def halClkHseCfgCapacitance (cap : BitVec 8) : Hal Unit := cfgTune .xt32mTune 0x30 (cap <<< 4)

/-- `low_freq_source_t`. -/
inductive LfSource where
  | none
  | lsi
  | lse
  deriving DecidableEq, Repr

/-- The power of the oscillator, and for the crystal the selection of it. -/
def LfSource.cfg : LfSource → BitVec 8
  | .none => 0
  | .lse => 0x01 ||| 0x04
  | .lsi => 0x02

/-- Each round compares two readings of the clock pin. -/
def waitClkPin : ℕ → Hal Unit
  | 0 => return ()
  | rounds + 1 => do
    let _ ← load Reg.ck32kConfig
    let _ ← load Reg.ck32kConfig
    waitClkPin rounds

/-- LSE_CURRENT_200 while the crystal starts, LSE_CURRENT_100 afterwards. -/
def lseCurrentFor (src : LfSource) (cur : BitVec 8) : Hal Unit :=
  if src = .lse then halClkLseCfgCurrent cur else return ()

/-- A crystal starts with the higher current. -/
def halClkLfSourceSelect (src : LfSource) (rounds : ℕ) : Hal Unit := do
  storeWindow .ck32kConfig src.cfg
  lseCurrentFor src 3
  waitClkPin rounds
  lseCurrentFor src 1

/-- `hal_lsi_set_tune_flash` and `hal_lsi_set_tune_ram`, which write the saved value. -/
def halLsiSetTuneFlash (int32kTuneFlash : BitVec 16) : Hal Unit :=
  storeWindow .int32kTune int32kTuneFlash

def halLsiSetTuneRam (int32kTuneRam : BitVec 16) : Hal Unit :=
  storeWindow .int32kTune int32kTuneRam

def rbPwrDcdcEn : BitVec 16 := 0x0200
def rbPwrDcdcPre : BitVec 16 := 0x0400

/-- `hwInfo` is the first word that the ROM returns. -/
def halPwrDcdcEnable (enable : Bool) (hwInfo : BitVec 32) : Hal Unit := do
  if enable then
    updateWindow .powerPlan fun v => v &&& ~~~(rbPwrDcdcEn ||| rbPwrDcdcPre)
  else if hwInfo &&& (1 <<< 13) ≠ 0 then return ()
  else updateWindow .powerPlan fun v => v ||| (rbPwrDcdcEn ||| rbPwrDcdcPre)

/-- `pwr_wakeup_mode_t`. -/
inductive WakeupMode where
  | edgeLong
  | edgeShort
  | levelLong
  | levelShort
  deriving DecidableEq, Repr

def rbWakeEvMode : BitVec 8 := 0x40
def rbWakeDelay : BitVec 8 := 0x80

/-- RB_WAKE_EV_MODE and RB_WAKE_DELAY for a mode. -/
def WakeupMode.cfg : WakeupMode → BitVec 8
  | .edgeLong => rbWakeEvMode
  | .edgeShort => 0
  | .levelLong => rbWakeDelay
  | .levelShort => rbWakeEvMode ||| rbWakeDelay

/-- Both bits are cleared before those of the mode are set. -/
def halPwrWakeupMode (mode : WakeupMode) : Hal Unit := do
  sysSafeAccessEnable
  update .slpWakeCtrl fun v => v &&& ~~~(rbWakeEvMode ||| rbWakeDelay)
  sysSafeAccessEnable
  update .slpWakeCtrl fun v => v ||| mode.cfg
  sysSafeAccessDisable

/-- The register is read before the window is opened. -/
def halPwrWakeupSource (source : BitVec 8) (enable : Bool) : Hal Unit := do
  let temp : BitVec 8 ← load Reg.slpWakeCtrl
  storeWindow .slpWakeCtrl (if enable then temp ||| source else temp &&& ~~~source)

def pwrMonitorOff : BitVec 8 := 0xff

/-- Bit 7 of the level selects the monitor of low power. The two registers are written in one
window. -/
def halPwrMonitorConfig (level : BitVec 8) : Hal Unit := do
  let _ ← load Reg.batDetCtrl
  let _ ← load Reg.batDetCfg
  if level = pwrMonitorOff then storeWindow .batDetCtrl 0
  else
    sysSafeAccessEnable
    store .batDetCtrl (if level &&& 0x80 ≠ 0 then 0x02 ||| ((level >>> 2) &&& 1) else 0x01)
    store .batDetCfg (level &&& 0x03)
    sysSafeAccessDisable
    updateWindow .batDetCtrl fun v => v ||| (0x08 ||| 0x04)

/-- `__WFI`, which sleeps until an interrupt. -/
def wfi : Hal Unit := do
  update .sctlr fun v => v &&& ~~~(1#32 <<< 3)
  act .wfi

/-- WFI without deep sleep. -/
def halPwrEnterIdle : Hal Unit := do
  act .flashRomSwReset
  store .flashCtrl 0x04
  update .sctlr fun v => v &&& ~~~(1#32 <<< 2)
  wfi

/-- WFI in deep sleep. R8_PLL_CONFIG is put back after waking. -/
def halPwrEnterHalt : Hal Unit := do
  act .flashRomSwReset
  store .flashCtrl 0x04
  updateWindow .pllConfig fun v => v ||| (1#8 <<< 5)
  update .sctlr fun v => v ||| (1#32 <<< 2)
  wfi
  updateWindow .pllConfig fun v => v &&& ~~~(1#8 <<< 5)

def rbRamRetLv : BitVec 8 := 0x40
def rbPwrPlanEn : BitVec 16 := 0x8000
def rbPwrMust0010 : BitVec 16 := 0x1000
def rbPwrCore : BitVec 16 := 0x04

/-- As for halt, with RB_RAM_RET_LV and a plan of what stays powered besides the core. -/
def halPwrEnterSleep (peri : BitVec 8) : Hal Unit := do
  act .flashRomSwReset
  store .flashCtrl 0x04
  sysSafeAccessEnable
  update .pllConfig fun v => v ||| (1#8 <<< 5)
  sysSafeAccessEnable
  update .slpPowerCtrl fun v => v ||| rbRamRetLv
  sysSafeAccessEnable
  store .powerPlan (rbPwrPlanEn ||| rbPwrMust0010 ||| rbPwrCore ||| peri.setWidth 16)
  sysSafeAccessDisable
  update .sctlr fun v => v ||| (1#32 <<< 2)
  wfi
  updateWindow .pllConfig fun v => v &&& ~~~(1#8 <<< 5)

/-- CLK_SOURCE_HSE_6_4MHZ. -/
def clkSourceHse6_4Mhz : BitVec 32 := (clkMode32m <<< 6) ||| 5

/-- The core is not in the plan, and nothing is put back. -/
def halPwrEnterShutdown (peri : BitVec 8) : Hal Unit := do
  act .flashRomSwReset
  store .flashCtrl 0x04
  halClkSysSetup clkSourceHse6_4Mhz
  sysSafeAccessEnable
  update .slpPowerCtrl fun v => v ||| rbRamRetLv
  sysSafeAccessEnable
  store .powerPlan (rbPwrPlanEn ||| rbPwrMust0010 ||| peri.setWidth 16)
  sysSafeAccessDisable
  update .sctlr fun v => v ||| (1#32 <<< 2)
  wfi

def rtcFlagTmr : BitVec 8 := BitVec.twoPow 8 6
def rtcFlagTrig : BitVec 8 := BitVec.twoPow 8 7

/-- Any other flag is ignored. -/
def halRtcFlagClear (flag : BitVec 8) : Hal Unit := do
  if flag = rtcFlagTmr then store .rtcFlagCtrl 0x10
  else if flag = rtcFlagTrig then store .rtcFlagCtrl 0x20

def rbRtcTmrMode : BitVec 8 := 0x07
def rbRtcIgnoreB0 : BitVec 8 := 0x08
def rbRtcTmrEn : BitVec 8 := 0x10
def rbRtcTrigEn : BitVec 8 := 0x20
def rbRtcLoadLo : BitVec 8 := 0x40
def rbRtcLoadHi : BitVec 8 := 0x80

/-- Setting or clearing bits of R8_RTC_MODE_CTRL. -/
def rtcModeSet (bits : BitVec 8) : Hal Unit := updateWindow .rtcModeCtrl fun v => v ||| bits
def rtcModeClear (bits : BitVec 8) : Hal Unit := updateWindow .rtcModeCtrl fun v => v &&& ~~~bits

def halRtcModeTrigEnable : Hal Unit := rtcModeSet rbRtcTrigEn
def halRtcModeTrigDisable : Hal Unit := rtcModeClear rbRtcTrigEn
def halRtcModeTmrEnable : Hal Unit := rtcModeSet rbRtcTmrEn
def halRtcModeTmrDisable : Hal Unit := rtcModeClear rbRtcTmrEn
def halRtcLoadHigh : Hal Unit := rtcModeSet rbRtcLoadHi
def halRtcLoadLow : Hal Unit := rtcModeSet rbRtcLoadLo

/-- The mode is left to the function called last. -/
def halRtcModeTrigConfig (ignore : Bool) : Hal Unit := do
  sysSafeAccessEnable
  if ignore then update .rtcModeCtrl fun v => v ||| rbRtcIgnoreB0
  else update .rtcModeCtrl fun v => v &&& ~~~rbRtcIgnoreB0
  halRtcModeTrigEnable

/-- The period is cleared and set, then the timer is enabled in its own window. -/
def halRtcModeTmrCfg (perid : BitVec 8) : Hal Unit := do
  sysSafeAccessEnable
  update .rtcModeCtrl fun v => v &&& ~~~rbRtcTmrMode
  sysSafeAccessEnable
  update .rtcModeCtrl fun v => v ||| (perid &&& rbRtcTmrMode)
  halRtcModeTmrEnable

/-- A tick count beyond the day is reduced by a day first. -/
def halRtcSetTicks (ticks : BitVec 32) : Hal Unit :=
  storeWindow .rtcTrig (RtcTimer.halRtcSetTicks ticks)

/-- The trigger register is loaded into the ticks of the day. -/
def halRtcUpdateTicks (ticks : BitVec 32) : Hal Unit := do
  halRtcSetTicks ticks
  halRtcLoadLow

/-- The trigger register is loaded into the days. -/
def halRtcUpdateDays (days : BitVec 16) : Hal Unit := do
  halRtcSetTicks (days.setWidth 32 &&& BitVec.ofNat 32 rtcCntDayMsk)
  halRtcLoadHigh

/-- The days first, then the ticks, of which 16 bits are kept. -/
def halRtcSetTimestamp (rawtime : ℤ) : Hal ℤ := do
  let timeDelta := rawtime - rtcStartTimestamp
  if timeDelta < 0 ∨ timeDelta > rtcTimestampMax then return -wchErrorInvalidParam
  let (timeDelta, day) := splitDays timeDelta 0
  let tick : BitVec 16 := BitVec.ofInt 16 (timeDelta * 32768)
  halRtcUpdateDays day
  halRtcUpdateTicks (tick.setWidth 32)
  return 0

/-- RB_SOFTWARE_RESET. -/
def halSysReset : Hal Unit := do
  act .flashRomSwReset
  updateWindow .rstWdogCtrl fun v => v ||| 0x01

open SysDelay in
/-- The clock source for CONFIG_SOC_SYSTEM_OPERATE_FREQ. -/
def clkSource : OperateFreq → BitVec 32
  | .mhz60 => (clkModePll <<< 6) ||| 8
  | .mhz48 => (clkModePll <<< 6) ||| 10
  | .mhz40 => (clkModePll <<< 6) ||| 12
  | .mhz32 => (clkModePll <<< 6) ||| 15
  | .mhz24 => (clkModePll <<< 6) ||| 20
  | .mhz16 => (clkMode32m <<< 6) ||| 2
  | .mhz8 => (clkMode32m <<< 6) ||| 4
  | .mhz4 => (clkMode32m <<< 6) ||| 8
  | .mhz2 => (clkMode32m <<< 6) ||| 16
  | .mhz1 => (clkMode32m <<< 6) ||| 0

def halSysInit (freq : SysDelay.OperateFreq) : Hal Unit := halClkSysSetup (clkSource freq)

/-- A call of one of the functions. -/
inductive HalCall where
  | periphClkEnable (per : BitVec 16)
  | periphClkDisable (per : BitVec 16)
  | sysSetup (clk : BitVec 32)
  | lseCfgCurrent (cur : BitVec 8)
  | lseCfgCapacitance (cap : BitVec 8)
  | hseCfgCurrent (cur : BitVec 8)
  | hseCfgCapacitance (cap : BitVec 8)
  | lfSourceSelect (src : LfSource) (rounds : ℕ)
  | lsiSetTuneFlash (tune : BitVec 16)
  | lsiSetTuneRam (tune : BitVec 16)
  | dcdcEnable (enable : Bool) (hwInfo : BitVec 32)
  | wakeupMode (mode : WakeupMode)
  | wakeupSource (source : BitVec 8) (enable : Bool)
  | monitorConfig (level : BitVec 8)
  | enterIdle
  | enterHalt
  | enterSleep (peri : BitVec 8)
  | enterShutdown (peri : BitVec 8)
  | rtcModeTrigConfig (ignore : Bool)
  | rtcModeTmrCfg (perid : BitVec 8)
  | rtcModeTrigDisable
  | rtcModeTmrDisable
  | rtcSetTicks (ticks : BitVec 32)
  | rtcUpdateTicks (ticks : BitVec 32)
  | rtcUpdateDays (days : BitVec 16)
  | rtcSetTimestamp (rawtime : ℤ)
  | rtcFlagClear (flag : BitVec 8)
  | sysReset
  | sysInit (freq : SysDelay.OperateFreq)
  deriving DecidableEq, Repr

/-- The program of a call; results are dropped. -/
def HalCall.prog : HalCall → Hal Unit
  | .periphClkEnable per => halClkPeriphClkEnable per
  | .periphClkDisable per => halClkPeriphClkDisable per
  | .sysSetup clk => halClkSysSetup clk
  | .lseCfgCurrent cur => halClkLseCfgCurrent cur
  | .lseCfgCapacitance cap => halClkLseCfgCapacitance cap
  | .hseCfgCurrent cur => halClkHseCfgCurrent cur
  | .hseCfgCapacitance cap => halClkHseCfgCapacitance cap
  | .lfSourceSelect src rounds => halClkLfSourceSelect src rounds
  | .lsiSetTuneFlash tune => halLsiSetTuneFlash tune
  | .lsiSetTuneRam tune => halLsiSetTuneRam tune
  | .dcdcEnable enable hwInfo => halPwrDcdcEnable enable hwInfo
  | .wakeupMode mode => halPwrWakeupMode mode
  | .wakeupSource source enable => halPwrWakeupSource source enable
  | .monitorConfig level => halPwrMonitorConfig level
  | .enterIdle => halPwrEnterIdle
  | .enterHalt => halPwrEnterHalt
  | .enterSleep peri => halPwrEnterSleep peri
  | .enterShutdown peri => halPwrEnterShutdown peri
  | .rtcModeTrigConfig ignore => halRtcModeTrigConfig ignore
  | .rtcModeTmrCfg perid => halRtcModeTmrCfg perid
  | .rtcModeTrigDisable => halRtcModeTrigDisable
  | .rtcModeTmrDisable => halRtcModeTmrDisable
  | .rtcSetTicks ticks => halRtcSetTicks ticks
  | .rtcUpdateTicks ticks => halRtcUpdateTicks ticks
  | .rtcUpdateDays days => halRtcUpdateDays days
  | .rtcSetTimestamp rawtime => do let _ ← halRtcSetTimestamp rawtime
  | .rtcFlagClear flag => halRtcFlagClear flag
  | .sysReset => halSysReset
  | .sysInit freq => halSysInit freq

end WchIotSdk.SafeAccess
