import WchIotSdk.EventRuns
import WchIotSdk.HalPrograms

/-!
# Calls on the chip, with and without the lock

The same programs run on a chip whose registers can always be written, and on one that
loses a write to a guarded register outside safe access mode. No function ever loses a
write, whatever mode it is called in.
-/
namespace WchIotSdk.SafeAccess
open RegisterPrograms EventRuns RtcTimestamp

/-- What the registers say about how the chip sleeps. -/
structure Sleep where
  sctlr : BitVec 32
  flashCtrl : BitVec 8
  pllConfig : BitVec 8
  slpPowerCtrl : BitVec 8
  powerPlan : BitVec 16
  xt32mTune : BitVec 8
  deriving DecidableEq, Repr

/-- The registers, and the sleeps so far. -/
structure Chip where
  regs : (r : Reg) → Value r
  sleeps : List Sleep

namespace Chip

def write (c : Chip) (r : Reg) (v : Value r) : Chip :=
  { c with regs := Function.update c.regs r v }

/-- RB_PWR_PLAN_EN clears itself after a sleep. -/
def sleep (c : Chip) : Chip :=
  { regs := Function.update c.regs .powerPlan (c.regs .powerPlan &&& ~~~rbPwrPlanEn)
    sleeps := c.sleeps ++ [⟨c.regs .sctlr, c.regs .flashCtrl, c.regs .pllConfig,
      c.regs .slpPowerCtrl, c.regs .powerPlan, c.regs .xt32mTune⟩] }

end Chip

/-- The routine of the ROM leaves the registers here alone. -/
def chipBus : Bus Reg Value Action Chip where
  read c r := c.regs r
  write := Chip.write
  act
    | c, .wfi => c.sleep
    | c, .flashRomSwReset => c

/-- The chip behind its lock. -/
def lockedBus : Bus Reg Value Action (Chip × AccMode) := chipBus.guarded safeAccess

def callOn {σ : Type} (bus : Bus Reg Value Action σ) (s : σ) (call : HalCall) : σ :=
  (exec bus call.prog s).2

section Functions

lemma neutral_pure {α : Type} (a : α) : Neutral (pure a : Hal α) := fun _ => rfl

lemma windowed_halClkPeriphClkEnable (per : BitVec 16) :
    Windowed (halClkPeriphClkEnable per) := by
  intro mode
  simp [halClkPeriphClkEnable, update]

lemma windowed_halClkPeriphClkDisable (per : BitVec 16) :
    Windowed (halClkPeriphClkDisable per) := by
  intro mode
  simp [halClkPeriphClkDisable, update]

lemma windowed_halClkSysConfig (clkMode : BitVec 32) (div : BitVec 8) :
    Windowed (halClkSysConfig clkMode div) := windowed_storeWindow _

lemma tidy_ensureClkPwr (mask : BitVec 8) : Tidy (ensureClkPwr mask) := by
  intro mode
  simp only [ensureClkPwr, clkPwrIsOn, admitted_bind, admitted_load, admitted_pure]
  intro v
  split
  · exact Or.inr rfl
  · exact (windowed_updateWindow _).tidy mode

lemma windowed_halClkSysSetup (clk : BitVec 32) : Windowed (halClkSysSetup clk) := by
  have hconfig (m : BitVec 32) (d v : BitVec 8) : Windowed (do
      halClkSysConfig m d
      storeWindow .flashCfg v) :=
    (windowed_halClkSysConfig m d).tidy.bind_windowed fun _ => windowed_storeWindow _
  have hpll : Windowed (updateWindow .pllConfig fun v => v &&& ~~~(1#8 <<< 5)) :=
    windowed_updateWindow _
  refine hpll.tidy.bind_windowed fun _ => Windowed.ite (windowed_halClkSysConfig _ _) ?_
  refine Windowed.ite ?_ ((tidy_ensureClkPwr _).bind_windowed fun _ => hconfig _ _ _)
  exact (tidy_ensureClkPwr _).bind_windowed fun _ =>
    (tidy_ensureClkPwr _).bind_windowed fun _ => hconfig _ _ _

lemma windowed_cfgTune {r : Reg} (mask bits : Value r) : Windowed (cfgTune r mask bits) :=
  fun mode _ => windowed_storeWindow _ mode

lemma neutral_waitClkPin (rounds : ℕ) : Neutral (waitClkPin rounds) := by
  induction rounds with
  | zero => exact neutral_pure ()
  | succ rounds ih =>
    intro mode
    simp only [waitClkPin, admitted_bind, admitted_load]
    exact fun _ _ => ih mode

lemma windowed_halClkLfSourceSelect (src : LfSource) (rounds : ℕ) :
    Windowed (halClkLfSourceSelect src rounds) := by
  have htune (cur : BitVec 8) : Tidy (lseCurrentFor src cur) :=
    Tidy.ite (windowed_cfgTune _ _).tidy (neutral_pure ()).tidy
  have hafter : Tidy (do lseCurrentFor src 3; waitClkPin rounds; lseCurrentFor src 1) :=
    (htune 3).bind fun _ => (neutral_waitClkPin rounds).tidy.bind fun _ => htune 1
  have hfirst : Windowed (storeWindow .ck32kConfig src.cfg) := windowed_storeWindow _
  exact hfirst.bind_tidy fun _ => hafter

lemma windowed_halPwrDcdcEnable {enable : Bool} {hwInfo : BitVec 32}
    (h : (enable || hwInfo &&& (1 <<< 13) == 0) = true) :
    Windowed (halPwrDcdcEnable enable hwInfo) := by
  cases enable with
  | true => exact windowed_updateWindow _
  | false =>
    have hbit : ¬ hwInfo &&& (1 <<< 13) ≠ 0 := by simpa using h
    rw [halPwrDcdcEnable, if_neg Bool.false_ne_true, if_neg hbit]
    exact windowed_updateWindow _

/-- With the bit set in the ROM, nothing is switched. -/
lemma neutral_halPwrDcdcEnable {enable : Bool} {hwInfo : BitVec 32}
    (h : (enable || hwInfo &&& (1 <<< 13) == 0) = false) :
    Neutral (halPwrDcdcEnable enable hwInfo) := by
  obtain ⟨rfl, hbit⟩ := Bool.or_eq_false_iff.mp h
  have hne : hwInfo &&& (1 <<< 13) ≠ 0 := by simpa using hbit
  rw [halPwrDcdcEnable, if_neg Bool.false_ne_true, if_pos hne]
  exact neutral_pure ()

lemma windowed_halPwrWakeupMode (wakeupMode : WakeupMode) :
    Windowed (halPwrWakeupMode wakeupMode) := by
  intro mode
  simp [halPwrWakeupMode, update]

lemma windowed_halPwrWakeupSource (source : BitVec 8) (enable : Bool) :
    Windowed (halPwrWakeupSource source enable) := fun mode _ => windowed_storeWindow _ mode

lemma windowed_halPwrMonitorConfig (level : BitVec 8) : Windowed (halPwrMonitorConfig level) := by
  intro mode
  simp only [halPwrMonitorConfig, admitted_bind, admitted_load]
  intro _ _
  split <;> simp [storeWindow, updateWindow, update]

lemma neutral_halPwrEnterIdle : Neutral halPwrEnterIdle := by
  intro mode
  simp [halPwrEnterIdle, wfi, update, Reg.guarded]

lemma windowed_halPwrEnterHalt : Windowed halPwrEnterHalt := by
  intro mode
  simp [halPwrEnterHalt, wfi, update, updateWindow, Reg.guarded]

lemma windowed_halPwrEnterSleep (peri : BitVec 8) : Windowed (halPwrEnterSleep peri) := by
  intro mode
  simp [halPwrEnterSleep, wfi, update, updateWindow, Reg.guarded]

lemma windowed_halPwrEnterShutdown (peri : BitVec 8) :
    Windowed (halPwrEnterShutdown peri) := by
  have hrest : Windowed (do
      sysSafeAccessEnable
      update .slpPowerCtrl fun v => v ||| rbRamRetLv
      sysSafeAccessEnable
      store .powerPlan (rbPwrPlanEn ||| rbPwrMust0010 ||| peri.setWidth 16)
      sysSafeAccessDisable
      update .sctlr fun v => v ||| (1#32 <<< 2)
      wfi) := by
    intro mode
    simp [wfi, update, Reg.guarded]
  have hact : Neutral (act Action.flashRomSwReset : Hal Unit) := fun _ => rfl
  have hflash : Neutral (store Reg.flashCtrl 0x04 : Hal Unit) := neutral_store rfl (by decide) _
  exact hact.tidy.bind_windowed fun _ => hflash.tidy.bind_windowed fun _ =>
    (windowed_halClkSysSetup _).tidy.bind_windowed fun _ => hrest

lemma windowed_rtcModeSet (bits : BitVec 8) : Windowed (rtcModeSet bits) :=
  windowed_updateWindow _

lemma windowed_rtcModeClear (bits : BitVec 8) : Windowed (rtcModeClear bits) :=
  windowed_updateWindow _

lemma windowed_halRtcModeTrigConfig (ignore : Bool) : Windowed (halRtcModeTrigConfig ignore) := by
  intro mode
  cases ignore <;>
    simpa [halRtcModeTrigConfig, halRtcModeTrigEnable, update] using
      windowed_rtcModeSet rbRtcTrigEn .unlocked

lemma windowed_halRtcModeTmrCfg (perid : BitVec 8) : Windowed (halRtcModeTmrCfg perid) := by
  intro mode
  simpa [halRtcModeTmrCfg, halRtcModeTmrEnable, update] using
    windowed_rtcModeSet rbRtcTmrEn .unlocked

lemma windowed_halRtcSetTicks (ticks : BitVec 32) : Windowed (halRtcSetTicks ticks) :=
  windowed_storeWindow _

lemma windowed_halRtcUpdateTicks (ticks : BitVec 32) : Windowed (halRtcUpdateTicks ticks) :=
  (windowed_halRtcSetTicks ticks).tidy.bind_windowed fun _ => windowed_rtcModeSet rbRtcLoadLo

lemma windowed_halRtcUpdateDays (days : BitVec 16) : Windowed (halRtcUpdateDays days) :=
  (windowed_halRtcSetTicks _).tidy.bind_windowed fun _ => windowed_rtcModeSet rbRtcLoadHi

lemma refused_iff (rawtime : ℤ) :
    (rawtime - rtcStartTimestamp < 0 ∨ rawtime - rtcStartTimestamp > rtcTimestampMax) ↔
      ¬ Accepted rawtime := by
  unfold Accepted
  omega

lemma windowed_halRtcSetTimestamp {rawtime : ℤ} (h : Accepted rawtime) :
    Windowed (HalCall.rtcSetTimestamp rawtime).prog := by
  intro mode
  rw [HalCall.prog, halRtcSetTimestamp, if_neg (by rwa [refused_iff, not_not])]
  exact ((windowed_halRtcUpdateDays _).tidy.bind_windowed fun _ =>
    windowed_halRtcUpdateTicks _) mode

/-- A time that is refused touches nothing. -/
lemma neutral_halRtcSetTimestamp {rawtime : ℤ} (h : ¬ Accepted rawtime) :
    Neutral (HalCall.rtcSetTimestamp rawtime).prog := by
  rw [HalCall.prog, halRtcSetTimestamp, if_pos ((refused_iff rawtime).mpr h)]
  exact fun _ => rfl

lemma neutral_halRtcFlagClear (flag : BitVec 8) : Neutral (halRtcFlagClear flag) := by
  intro mode
  unfold halRtcFlagClear
  split_ifs <;> simp [Reg.guarded]

lemma windowed_halSysReset : Windowed halSysReset := by
  intro mode
  simp [halSysReset, updateWindow, update]

end Functions

/-- The call enters safe access mode. -/
def HalCall.usesLock : HalCall → Bool
  | .dcdcEnable enable hwInfo => enable || hwInfo &&& (1 <<< 13) == 0
  | .rtcSetTimestamp rawtime => decide (Accepted rawtime)
  | .enterIdle | .rtcFlagClear _ => false
  | _ => true

/-- A call that enters safe access mode loses no write and leaves the mode. -/
theorem HalCall.windowed {call : HalCall} (h : call.usesLock = true) : Windowed call.prog := by
  cases call with
  | periphClkEnable per => exact windowed_halClkPeriphClkEnable per
  | periphClkDisable per => exact windowed_halClkPeriphClkDisable per
  | sysSetup clk => exact windowed_halClkSysSetup clk
  | lseCfgCurrent cur => exact windowed_cfgTune _ _
  | lseCfgCapacitance cap => exact windowed_cfgTune _ _
  | hseCfgCurrent cur => exact windowed_cfgTune _ _
  | hseCfgCapacitance cap => exact windowed_cfgTune _ _
  | lfSourceSelect src rounds => exact windowed_halClkLfSourceSelect src rounds
  | lsiSetTuneFlash tune => exact windowed_storeWindow _
  | lsiSetTuneRam tune => exact windowed_storeWindow _
  | dcdcEnable enable hwInfo => exact windowed_halPwrDcdcEnable h
  | wakeupMode mode => exact windowed_halPwrWakeupMode mode
  | wakeupSource source enable => exact windowed_halPwrWakeupSource source enable
  | monitorConfig level => exact windowed_halPwrMonitorConfig level
  | enterHalt => exact windowed_halPwrEnterHalt
  | enterSleep peri => exact windowed_halPwrEnterSleep peri
  | enterShutdown peri => exact windowed_halPwrEnterShutdown peri
  | rtcModeTrigConfig ignore => exact windowed_halRtcModeTrigConfig ignore
  | rtcModeTmrCfg perid => exact windowed_halRtcModeTmrCfg perid
  | rtcModeTrigDisable => exact windowed_rtcModeClear rbRtcTrigEn
  | rtcModeTmrDisable => exact windowed_rtcModeClear rbRtcTmrEn
  | rtcSetTicks ticks => exact windowed_halRtcSetTicks ticks
  | rtcUpdateTicks ticks => exact windowed_halRtcUpdateTicks ticks
  | rtcUpdateDays days => exact windowed_halRtcUpdateDays days
  | rtcSetTimestamp rawtime => exact windowed_halRtcSetTimestamp (of_decide_eq_true h)
  | sysReset => exact windowed_halSysReset
  | sysInit freq => exact windowed_halClkSysSetup (clkSource freq)
  | enterIdle => exact absurd h Bool.false_ne_true
  | rtcFlagClear flag => exact absurd h Bool.false_ne_true

/-- Any other call writes no guarded register. -/
theorem HalCall.neutral {call : HalCall} (h : call.usesLock = false) : Neutral call.prog := by
  cases call with
  | enterIdle => exact neutral_halPwrEnterIdle
  | rtcFlagClear flag => exact neutral_halRtcFlagClear flag
  | dcdcEnable enable hwInfo => exact neutral_halPwrDcdcEnable h
  | rtcSetTimestamp rawtime => exact neutral_halRtcSetTimestamp (of_decide_eq_false h)
  | _ => exact absurd h.symm Bool.false_ne_true

/-- No function loses a write. -/
theorem HalCall.tidy (call : HalCall) : Tidy call.prog := by
  cases h : call.usesLock with
  | true => exact (HalCall.windowed h).tidy
  | false => exact (HalCall.neutral h).tidy

/-- The mode after a call. -/
def modeAfter (mode : AccMode) (call : HalCall) : AccMode :=
  if call.usesLock then .locked else mode

/-- On the chip with the lock a call does what it does without the lock. -/
theorem callOn_lockedBus (c : Chip) (mode : AccMode) (call : HalCall) :
    callOn lockedBus (c, mode) call = (callOn chipBus c call, modeAfter mode call) := by
  cases h : call.usesLock with
  | true =>
    obtain ⟨mode', hexec, rfl⟩ := exec_guarded chipBus (HalCall.windowed h mode) c
    rw [callOn, lockedBus, hexec, modeAfter, if_pos h]
    rfl
  | false =>
    obtain ⟨mode', hexec, rfl⟩ := exec_guarded chipBus (HalCall.neutral h mode) c
    rw [callOn, lockedBus, hexec, modeAfter, h]
    rfl

/-- Calls one after the other lose no write, whatever the mode at the start, and only
calls that do not touch the mode leave it as it was. -/
theorem run_lockedBus (calls : List HalCall) (c : Chip) (mode : AccMode) :
    run (callOn lockedBus) (c, mode) calls =
      (run (callOn chipBus) c calls, if calls.any HalCall.usesLock then .locked else mode) := by
  induction calls generalizing c mode with
  | nil => rfl
  | cons call calls ih =>
    rw [run_cons, run_cons, callOn_lockedBus, ih, modeAfter, List.any_cons]
    cases call.usesLock <;> cases calls.any HalCall.usesLock <;> rfl

/-- Over any sequence of calls the lock takes no write away. The chip is left open only if
it was found open and no call has used the lock. -/
theorem calls_lose_no_write (calls : List HalCall) (c : Chip) (mode : AccMode) :
    (run (callOn lockedBus) (c, mode) calls).1 = run (callOn chipBus) c calls ∧
      ((run (callOn lockedBus) (c, mode) calls).2 = .unlocked →
        mode = .unlocked ∧ ∀ call ∈ calls, call.usesLock = false) := by
  rw [run_lockedBus]
  refine ⟨rfl, fun hmode => ?_⟩
  cases hany : calls.any HalCall.usesLock with
  | true =>
    rw [hany] at hmode
    cases hmode
  | false =>
    rw [hany] at hmode
    exact ⟨hmode, by simpa using hany⟩

/-! ## Interrupts between the accesses

An open window has a timer, RB_SAFE_ACC_TIMER, which locks the chip when it runs out.
The accesses of one call follow each other at once; only what happens between them can
outlast the timer. -/

/-- What happens in a gap: a call made by an interrupt, or that the timer of an open
window runs out. -/
inductive GapEvent where
  | interrupt (call : HalCall)
  | timeout

namespace GapEvent

def usesLock : GapEvent → Bool
  | .interrupt call => call.usesLock
  | .timeout => false

/-- A call that waits for an interrupt outlasts the timer. The others that do so lock the
chip themselves. -/
def expires : GapEvent → Bool
  | .interrupt call => match call with
    | .enterIdle => true
    | _ => false
  | .timeout => true

end GapEvent

/-- The timer locks an open window. -/
def AccMode.expired : AccMode → AccMode
  | .unlocked => .locked
  | mode => mode

def gapChip (c : Chip) : GapEvent → Chip
  | .interrupt call => callOn chipBus c call
  | .timeout => c

/-- The chip with its lock and its timer, in a gap. -/
def gapStep (s : Chip × AccMode) (e : GapEvent) : Chip × AccMode :=
  let t := match e with
    | .interrupt call => callOn lockedBus s call
    | .timeout => s
  if e.expires then (t.1, t.2.expired) else t

/-- The mode after a gap. -/
def gapMode (mode : AccMode) (es : List GapEvent) : AccMode :=
  if es.any GapEvent.usesLock then .locked
  else if es.any GapEvent.expires then mode.expired
  else mode

@[simp] lemma locked_expired : AccMode.locked.expired = .locked := rfl

@[simp] lemma expired_expired (mode : AccMode) : mode.expired.expired = mode.expired := by
  cases mode <;> rfl

lemma gapStep_eq (c : Chip) (mode : AccMode) (e : GapEvent) :
    gapStep (c, mode) e = (gapChip c e, gapMode mode [e]) := by
  cases e with
  | timeout => rfl
  | interrupt call =>
    simp only [gapStep, callOn_lockedBus, gapChip, gapMode, List.any_cons, List.any_nil,
      Bool.or_false, GapEvent.usesLock, modeAfter]
    cases call.usesLock <;> cases (GapEvent.interrupt call).expires <;> simp

lemma gapMode_cons (mode : AccMode) (e : GapEvent) (es : List GapEvent) :
    gapMode (gapMode mode [e]) es = gapMode mode (e :: es) := by
  unfold gapMode
  rw [List.any_cons, List.any_cons, List.any_cons, List.any_nil, List.any_cons, List.any_nil]
  generalize e.usesLock = b, e.expires = x, es.any GapEvent.usesLock = bs,
    es.any GapEvent.expires = xs
  cases b <;> cases x <;> cases bs <;> cases xs <;> simp

lemma run_gapStep (es : List GapEvent) (c : Chip) (mode : AccMode) :
    run gapStep (c, mode) es = (run gapChip c es, gapMode mode es) := by
  induction es generalizing c mode with
  | nil => rfl
  | cons e es ih =>
    rw [run_cons, run_cons, gapStep_eq, ih]
    rw [gapMode_cons]

/-- A program on the chip with the lock and the timer, with events in its gaps. -/
def interrupted {α : Type} (p : Hal α) (gaps : ℕ → List GapEvent) (s : Chip × AccMode) :
    α × Chip × AccMode := interleaved lockedBus gapStep p gaps s

/-- Nothing in a gap with an open window outlasts the timer. -/
def InTime (es : List GapEvent) (s : Chip × AccMode) : Prop :=
  s.2 = .unlocked → es.any GapEvent.expires = false

/-- The call leaves the registers as they are. -/
def HalCall.Spares (call : HalCall) (owned : Set Reg) : Prop :=
  ∀ c : Chip, ∀ r ∈ owned, (callOn chipBus c call).regs r = c.regs r

/-- The mode and the registers are the same. -/
def SameOn (owned : Set Reg) (s t : Chip × AccMode) : Prop :=
  s.2 = t.2 ∧ ∀ r ∈ owned, s.1.regs r = t.1.regs r

lemma bisimilar_sameOn (owned : Set Reg) : Bisimilar lockedBus owned (SameOn owned) where
  read h hr := h.2 _ hr
  write := by
    intro s t r v h _
    refine ⟨by simp only [lockedBus, Bus.guarded, h.1], fun r' hr' => ?_⟩
    simp only [lockedBus, Bus.guarded, h.1]
    split
    · simp only [chipBus, Chip.write, Function.update]
      split
      · rfl
      · exact h.2 r' hr'
    · exact h.2 r' hr'
  act := by
    intro s t o h
    refine ⟨h.1, fun r hr => ?_⟩
    cases o with
    | flashRomSwReset => exact h.2 r hr
    | wfi =>
      by_cases hplan : r = .powerPlan
      · subst hplan
        simp [lockedBus, Bus.guarded, chipBus, Chip.sleep, h.2 _ hr]
      · simp [lockedBus, Bus.guarded, chipBus, Chip.sleep, hplan, h.2 _ hr]

/-- The calls in a gap leave the registers as they are. -/
def Spared (owned : Set Reg) (es : List GapEvent) : Prop :=
  ∀ call, GapEvent.interrupt call ∈ es → call.Spares owned

lemma Spared.regs {owned : Set Reg} {es : List GapEvent} (h : Spared owned es) (c : Chip) :
    ∀ r ∈ owned, (run gapChip c es).regs r = c.regs r := by
  intro r hr
  induction es generalizing c with
  | nil => rfl
  | cons e es ih =>
    rw [run_cons, ih fun call hcall => h call (List.mem_cons_of_mem e hcall)]
    cases e with
    | timeout => rfl
    | interrupt call => exact h call List.mem_cons_self c r hr

lemma gapMode_inTime {es : List GapEvent} {s : Chip × AccMode}
    (huses : es.any GapEvent.usesLock = false) (htime : InTime es s) : gapMode s.2 es = s.2 := by
  rw [gapMode, huses, if_neg Bool.false_ne_true]
  cases hmode : s.2 with
  | unlocked => rw [htime hmode, if_neg Bool.false_ne_true]
  | _ => exact ite_self _

/-- Interrupts that leave the lock and the registers of a call alone, and do not outlast
the timer while the call has the window open, do not disturb it. -/
theorem interrupted_spared {owned : Set Reg} {call : HalCall} (hcall : Within owned call.prog)
    {gaps : ℕ → List GapEvent} (hlock : ∀ k, (gaps k).any GapEvent.usesLock = false)
    (hspared : ∀ k, Spared owned (gaps k)) (c : Chip) (mode : AccMode)
    (htime : AtGaps lockedBus InTime call.prog gaps (c, mode)) :
    SameOn owned (callOn chipBus c call, modeAfter mode call)
      (interrupted call.prog gaps (c, mode)).2 := by
  rw [← callOn_lockedBus]
  refine (exec_interleaved (bisimilar_sameOn owned) hcall (htime.imp ?_) ⟨rfl, fun _ _ => rfl⟩).2
  intro k s hin t hsame
  obtain ⟨hmode, hregs⟩ := hsame
  rw [run_gapStep, ← hmode, gapMode_inTime (hlock k) hin]
  exact ⟨rfl, fun r hr => (hregs r hr).trans ((hspared k).regs t.1 r hr).symm⟩

/-- Interrupts that clear the flag of the RTC do not disturb the setting of its alarm, and
one that waits before the window is opened does not either. -/
theorem rtcSetTicks_under_flagClear :
    SameOn {.rtcTrig, .safeAccessSig}
      (callOn chipBus ⟨fun r => 0#r.width, []⟩ (.rtcSetTicks 5), .locked)
      (interrupted (HalCall.rtcSetTicks 5).prog
        (fun k => if k = 1 then [.interrupt .enterIdle, .timeout]
          else [.interrupt (.rtcFlagClear rtcFlagTrig)])
        (⟨fun r => 0#r.width, []⟩, .locked)).2 := by
  refine interrupted_spared (by simp [HalCall.prog, halRtcSetTicks, storeWindow,
    sysSafeAccessEnable, sysSafeAccessDisable, Within.bind]) ?_ ?_ _ .locked ?_
  · intro k
    split <;> rfl
  · rintro k call hcall c r hr
    split at hcall
    · obtain rfl : call = .enterIdle := by simpa using hcall
      rcases hr with rfl | rfl <;> rfl
    · obtain rfl : call = .rtcFlagClear rtcFlagTrig := by simpa using hcall
      rcases hr with rfl | rfl <;> rfl
  · change AtGaps lockedBus InTime (.store .safeAccessSig safeAccessSig1
      (.store .safeAccessSig safeAccessSig2 (.store .rtcTrig (RtcTimer.halRtcSetTicks 5)
        (.store .safeAccessSig 0 (.done ()))))) _ _
    exact ⟨fun _ => rfl, fun h => absurd h (by decide), fun _ => rfl, fun _ => rfl, fun _ => rfl⟩

lemma lockedBus_write_sig (c : Chip) (mode : AccMode) (v : BitVec 8) :
    lockedBus.write (c, mode) .safeAccessSig v = (c.write .safeAccessSig v, signature mode v) := by
  simp [lockedBus, Bus.guarded, chipBus, safeAccess, nextMode, Reg.guarded]

lemma lockedBus_write_guarded {r : Reg} (hr : r.guarded = true) (c : Chip) (mode : AccMode)
    (v : Value r) :
    lockedBus.write (c, mode) r v = (if mode = .unlocked then c.write r v else c, mode) := by
  have hne : r ≠ .safeAccessSig := by
    rintro rfl
    exact absurd hr (by decide)
  cases mode <;> simp [lockedBus, Bus.guarded, chipBus, hr, hne]

/-- What happens between the first signature and the write takes the write away exactly
when it enters safe access mode itself, or outlasts the timer of the window that the
second signature has opened; the value is then the old one. -/
theorem interrupted_storeWindow {r : Reg} (hr : r.guarded = true) (v : Value r)
    {gaps : ℕ → List GapEvent} (hgaps : ∀ k, Spared {r} (gaps k)) (c : Chip) (mode : AccMode) :
    (interrupted (storeWindow r v) gaps (c, mode)).2.1.regs r =
      if (gaps 1 ++ gaps 2).any GapEvent.usesLock ∨ (gaps 2).any GapEvent.expires then c.regs r
      else v := by
  have hne : r ≠ .safeAccessSig := by
    rintro rfl
    exact absurd hr (by decide)
  have hspared (k : ℕ) (c : Chip) : (run gapChip c (gaps k)).regs r = c.regs r :=
    (hgaps k).regs c r rfl
  have hother (c : Chip) (v : BitVec 8) : (c.write .safeAccessSig v).regs r = c.regs r := by
    simp [Chip.write, hne]
  have hsame (c : Chip) : (c.write r v).regs r = v := by simp [Chip.write]
  change (interleaved lockedBus gapStep
    (.store .safeAccessSig safeAccessSig1 (.store .safeAccessSig safeAccessSig2
      (.store r v (.store .safeAccessSig 0 (.done ()))))) gaps (c, mode)).2.1.regs r = _
  simp only [interleaved, run_gapStep, lockedBus_write_sig, lockedBus_write_guarded hr]
  rw [hspared, hother, hspared, List.any_append]
  -- the second signature unlocks only if the first one is still standing
  cases h1 : (gaps 1).any GapEvent.usesLock <;> cases h2 : (gaps 2).any GapEvent.usesLock <;>
    cases h3 : (gaps 2).any GapEvent.expires <;>
    simp [gapMode, h1, h2, h3, signature, safeAccessSig1, safeAccessSig2, AccMode.expired, hsame,
      hother, hspared]

/-- An alarm set while an interrupt raises the current of the oscillator is lost. -/
theorem rtcTrig_window_lost :
    (interrupted (storeWindow .rtcTrig 5#32)
      (fun k => if k = 2 then [.interrupt (.hseCfgCurrent hseCurrent150)] else [])
      (⟨fun r => 0#r.width, []⟩, .locked)).2.1.regs .rtcTrig = 0#32 := by
  have hspares (k : ℕ) : Spared {Reg.rtcTrig}
      (if k = 2 then [GapEvent.interrupt (.hseCfgCurrent hseCurrent150)] else []) := by
    rintro call hcall c r rfl
    split at hcall
    · obtain rfl : call = .hseCfgCurrent hseCurrent150 := by simpa using hcall
      rfl
    · exact absurd hcall List.not_mem_nil
  rw [interrupted_storeWindow rfl 5#32 hspares]
  rfl

end WchIotSdk.SafeAccess
