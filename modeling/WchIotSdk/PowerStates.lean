import WchIotSdk.ClockTree
import WchIotSdk.SuspendOutcome

/-!
# The power states on the chip

`pm_state_set` and `pm_state_exit_post_ops` are programs on the registers. Whatever was
called before, the chip sleeps in the mode of the state it is sent to. The current of
the 32 MHz oscillator is raised before the two deeper states and lowered by the exit
operations, which interrupts may run.
-/
namespace WchIotSdk.PowerStates
open RegisterPrograms EventRuns SafeAccess PowerPolicy PowerSuspend

/-- `pwr_state_t`. -/
inductive PwrState where
  | idle
  | halt
  | sleepToRam
  | shutdown
  deriving DecidableEq, Repr

/-- What the registers select when the core waits: the deep sleep bit of SCTLR, an enabled
power plan, and the core retained in it. -/
def modeOf (s : Sleep) : PwrState :=
  if s.sctlr.getLsbD 2 = false then .idle
  else if s.powerPlan.getLsbD 15 = false then .halt
  else if s.powerPlan.getLsbD 2 then .sleepToRam
  else .shutdown

/-- What the other registers have to hold in every mode: the flash is off, WFI does not
stand for WFE, and with a plan its fixed bit is set and the voltage of the RAM is low. -/
structure Prepared (s : Sleep) : Prop where
  flash : s.flashCtrl = 0x04
  wfi : s.sctlr.getLsbD 3 = false
  plan : modeOf s = .sleepToRam ∨ modeOf s = .shutdown →
    s.powerPlan.getLsbD 12 = true ∧ s.slpPowerCtrl.getLsbD 6 = true

/-- Between calls no plan is enabled and the PLL is not held. -/
structure Awake (c : Chip) : Prop where
  plan : (c.regs .powerPlan).getLsbD 15 = false
  pll : (c.regs .pllConfig).getLsbD 5 = false

/-- The mode in which a call lets the chip sleep, and whether bit 5 of R8_PLL_CONFIG is set
meanwhile. -/
def sleepOf : HalCall → Option (PwrState × Bool)
  | .enterIdle => some (.idle, false)
  | .enterHalt => some (.halt, true)
  | .enterSleep _ => some (.sleepToRam, true)
  | .enterShutdown peri => some (if peri.getLsbD 2 then .sleepToRam else .shutdown, false)
  | _ => none

/-- A sleep in the given mode, with everything prepared for it. -/
def SleepsIn (s : Sleep) (mode : PwrState × Bool) : Prop :=
  modeOf s = mode.1 ∧ s.pllConfig.getLsbD 5 = mode.2 ∧ Prepared s

/-- What one call adds to the sleeps. -/
structure CallSleeps (c d : Chip) (call : HalCall) : Prop where
  awake : Awake d
  sleeps : ∃ news, d.sleeps = c.sleeps ++ news ∧ List.Forall₂ SleepsIn news (sleepOf call).toList

section Calls

variable {c : Chip}

/-- The bit of SCTLR that makes a sleep deep, and the one that WFI clears. -/
lemma sctlr_bits (v : BitVec 32) :
    ((v &&& ~~~(1#32 <<< 2)) &&& ~~~(1#32 <<< 3)).getLsbD 2 = false ∧
      ((v &&& ~~~(1#32 <<< 2)) &&& ~~~(1#32 <<< 3)).getLsbD 3 = false ∧
      ((v ||| 1#32 <<< 2) &&& ~~~(1#32 <<< 3)).getLsbD 2 = true ∧
      ((v ||| 1#32 <<< 2) &&& ~~~(1#32 <<< 3)).getLsbD 3 = false := by
  simp

lemma pll_bits (v : BitVec 8) :
    (v ||| 1#8 <<< 5).getLsbD 5 = true ∧ (v &&& ~~~(1#8 <<< 5)).getLsbD 5 = false := by
  simp

lemma callSleeps_enterIdle (hc : Awake c) :
    CallSleeps c (callOn chipBus c .enterIdle) .enterIdle := by
  obtain ⟨hdeep, hwfi, -⟩ := sctlr_bits (c.regs .sctlr)
  have hsleeps : (callOn chipBus c .enterIdle).sleeps = c.sleeps ++
      [⟨(c.regs .sctlr &&& ~~~(1#32 <<< 2)) &&& ~~~(1#32 <<< 3), 0x04, c.regs .pllConfig,
        c.regs .slpPowerCtrl, c.regs .powerPlan, c.regs .xt32mTune⟩] := by
    simp [callOn, HalCall.prog, halPwrEnterIdle, update, wfi, chipBus, Chip.write, Chip.sleep]
  have hmode : modeOf ⟨(c.regs .sctlr &&& ~~~(1#32 <<< 2)) &&& ~~~(1#32 <<< 3), 0x04,
      c.regs .pllConfig, c.regs .slpPowerCtrl, c.regs .powerPlan, c.regs .xt32mTune⟩ = .idle := by
    rw [modeOf, if_pos hdeep]
  refine ⟨⟨?_, ?_⟩, _, hsleeps, .cons ⟨hmode, hc.pll, rfl, hwfi, ?_⟩ .nil⟩
  · simp [callOn, HalCall.prog, halPwrEnterIdle, update, wfi, chipBus, Chip.write, Chip.sleep,
      rbPwrPlanEn]
  · simpa [callOn, HalCall.prog, halPwrEnterIdle, update, wfi, chipBus, Chip.write, Chip.sleep]
      using hc.pll
  · rw [hmode]
    simp

lemma callSleeps_enterHalt (hc : Awake c) :
    CallSleeps c (callOn chipBus c .enterHalt) .enterHalt := by
  obtain ⟨-, -, hdeep, hwfi⟩ := sctlr_bits (c.regs .sctlr)
  have hsleeps : (callOn chipBus c .enterHalt).sleeps = c.sleeps ++
      [⟨(c.regs .sctlr ||| 1#32 <<< 2) &&& ~~~(1#32 <<< 3), 0x04, c.regs .pllConfig ||| 1#8 <<< 5,
        c.regs .slpPowerCtrl, c.regs .powerPlan, c.regs .xt32mTune⟩] := by
    simp [callOn, HalCall.prog, halPwrEnterHalt, updateWindow, update, wfi, sysSafeAccessEnable,
      sysSafeAccessDisable, chipBus, Chip.write, Chip.sleep]
  have hmode : modeOf ⟨(c.regs .sctlr ||| 1#32 <<< 2) &&& ~~~(1#32 <<< 3), 0x04,
      c.regs .pllConfig ||| 1#8 <<< 5, c.regs .slpPowerCtrl, c.regs .powerPlan,
      c.regs .xt32mTune⟩ = .halt := by
    rw [modeOf, if_neg (by simp), if_pos hc.plan]
  refine ⟨⟨?_, ?_⟩, _, hsleeps, .cons ⟨hmode, (pll_bits _).1, rfl, hwfi, ?_⟩ .nil⟩
  · simp [callOn, HalCall.prog, halPwrEnterHalt, updateWindow, update, wfi, sysSafeAccessEnable,
      sysSafeAccessDisable, chipBus, Chip.write, Chip.sleep, rbPwrPlanEn]
  · simp [callOn, HalCall.prog, halPwrEnterHalt, updateWindow, update, wfi, sysSafeAccessEnable,
      sysSafeAccessDisable, chipBus, Chip.write, Chip.sleep]
  · rw [hmode]
    simp

/-- The bits of the two plans. -/
lemma plan_bits (peri : BitVec 8) :
    (rbPwrPlanEn ||| rbPwrMust0010 ||| peri.setWidth 16).getLsbD 15 = true ∧
      (rbPwrPlanEn ||| rbPwrMust0010 ||| peri.setWidth 16).getLsbD 12 = true ∧
      (rbPwrPlanEn ||| rbPwrMust0010 ||| peri.setWidth 16).getLsbD 2 = peri.getLsbD 2 := by
  simp [rbPwrPlanEn, rbPwrMust0010]

lemma plan_bits_core (peri : BitVec 8) :
    (rbPwrPlanEn ||| rbPwrMust0010 ||| rbPwrCore ||| peri.setWidth 16).getLsbD 15 = true ∧
      (rbPwrPlanEn ||| rbPwrMust0010 ||| rbPwrCore ||| peri.setWidth 16).getLsbD 12 = true ∧
      (rbPwrPlanEn ||| rbPwrMust0010 ||| rbPwrCore ||| peri.setWidth 16).getLsbD 2 = true := by
  simp [rbPwrPlanEn, rbPwrMust0010, rbPwrCore]

lemma retLv_bit (v : BitVec 8) : (v ||| rbRamRetLv).getLsbD 6 = true := by
  simp [rbRamRetLv]

lemma callSleeps_enterSleep (peri : BitVec 8) :
    CallSleeps c (callOn chipBus c (.enterSleep peri)) (.enterSleep peri) := by
  obtain ⟨-, -, hdeep, hwfi⟩ := sctlr_bits (c.regs .sctlr)
  obtain ⟨hen, hmust, hcore⟩ := plan_bits_core peri
  have hsleeps : (callOn chipBus c (.enterSleep peri)).sleeps = c.sleeps ++
      [⟨(c.regs .sctlr ||| 1#32 <<< 2) &&& ~~~(1#32 <<< 3), 0x04, c.regs .pllConfig ||| 1#8 <<< 5,
        c.regs .slpPowerCtrl ||| rbRamRetLv,
        rbPwrPlanEn ||| rbPwrMust0010 ||| rbPwrCore ||| peri.setWidth 16, c.regs .xt32mTune⟩] := by
    simp [callOn, HalCall.prog, halPwrEnterSleep, updateWindow, update, wfi, sysSafeAccessEnable,
      sysSafeAccessDisable, chipBus, Chip.write, Chip.sleep]
  have hmode : modeOf ⟨(c.regs .sctlr ||| 1#32 <<< 2) &&& ~~~(1#32 <<< 3), 0x04,
      c.regs .pllConfig ||| 1#8 <<< 5, c.regs .slpPowerCtrl ||| rbRamRetLv,
      rbPwrPlanEn ||| rbPwrMust0010 ||| rbPwrCore ||| peri.setWidth 16, c.regs .xt32mTune⟩ =
      .sleepToRam := by
    simp only [modeOf, hdeep, hen, hcore, if_true, Bool.true_eq_false, if_false]
  refine ⟨⟨?_, ?_⟩, _, hsleeps,
    .cons ⟨hmode, (pll_bits _).1, rfl, hwfi, fun _ => ⟨hmust, retLv_bit _⟩⟩ .nil⟩
  · simp [callOn, HalCall.prog, halPwrEnterSleep, updateWindow, update, wfi, sysSafeAccessEnable,
      sysSafeAccessDisable, chipBus, Chip.write, Chip.sleep, rbPwrPlanEn]
  · simp [callOn, HalCall.prog, halPwrEnterSleep, updateWindow, update, wfi, sysSafeAccessEnable,
      sysSafeAccessDisable, chipBus, Chip.write, Chip.sleep]

/-- A program that does not wait leaves the sleeps and the registers it does not write. -/
lemma exec_unslept {α : Type} {r : Reg} {p : Hal α}
    (hp : Confined (fun r' => r' ≠ r) (fun o => o ≠ .wfi) p) (d : Chip) :
    (exec chipBus p d).2.sleeps = d.sleeps ∧ (exec chipBus p d).2.regs r = d.regs r := by
  have halways : Always chipBus (fun e => e.sleeps = d.sleeps ∧ e.regs r = d.regs r) p d := by
    refine always_of_confined ?_ ?_ hp ⟨rfl, rfl⟩
    · intro e r' v hr' he
      have hne : r ≠ r' := fun h => of_decide_eq_true hr' h.symm
      exact ⟨he.1, by simp [chipBus, Chip.write, hne, he.2]⟩
    · intro e o ho he
      cases o with
      | wfi => exact absurd rfl (of_decide_eq_true ho)
      | flashRomSwReset => exact he
  exact halways.last

/-- Setting up the clock releases the PLL. -/
lemma exec_halClkSysSetup_pll (clk : BitVec 32) (d : Chip) :
    (exec chipBus (halClkSysSetup clk) d).2.regs .pllConfig =
      d.regs .pllConfig &&& ~~~(1#8 <<< 5) := by
  have hconfig (m : BitVec 32) (e v : BitVec 8) :
      Confined (fun r' => r' ≠ .pllConfig) (fun o => o ≠ Action.wfi)
        (do halClkSysConfig m e; storeWindow .flashCfg v) :=
    (confined_storeWindow (r := .clkSysCfg) rfl rfl _).bind fun _ =>
      confined_storeWindow (r := .flashCfg) rfl rfl v
  have hens (mask : BitVec 8) : Confined (fun r' => r' ≠ .pllConfig) (fun o => o ≠ Action.wfi)
      (ensureClkPwr mask) := confined_ensureClkPwr rfl rfl mask
  rw [halClkSysSetup, exec_bind]
  refine (exec_unslept (Confined.ite ?_ (Confined.ite ?_ ?_)) _).2.trans ?_
  · exact confined_storeWindow (r := .clkSysCfg) rfl rfl _
  · exact (hens _).bind fun _ => (hens _).bind fun _ => hconfig _ _ _
  · exact (hens _).bind fun _ => hconfig _ _ _
  · simp [updateWindow, update, sysSafeAccessEnable, sysSafeAccessDisable, chipBus, Chip.write]

lemma callSleeps_enterShutdown (peri : BitVec 8) :
    CallSleeps c (callOn chipBus c (.enterShutdown peri)) (.enterShutdown peri) := by
  let d := (exec chipBus (halClkSysSetup clkSourceHse6_4Mhz) (c.write .flashCtrl 0x04)).2
  have hframe {r : Reg} (hr : r ∉ (HalCall.sysSetup clkSourceHse6_4Mhz).writes) :
      d.sleeps = c.sleeps ∧ d.regs r = (c.write .flashCtrl 0x04).regs r := by
    refine exec_unslept (confined_halClkSysSetup _ fun r' hr' => decide_eq_true ?_) _
    rintro rfl
    exact hr hr'
  have hpll : (d.regs .pllConfig).getLsbD 5 = false := by
    rw [exec_halClkSysSetup_pll]
    exact (pll_bits _).2
  have hflash : d.regs .flashCtrl = 0x04 := by
    rw [(hframe (by decide)).2]
    simp [Chip.write]
  obtain ⟨-, -, hdeep, hwfi⟩ := sctlr_bits (d.regs .sctlr)
  obtain ⟨hen, hmust, hcore⟩ := plan_bits peri
  have hcall : callOn chipBus c (.enterShutdown peri) = (exec chipBus (do
      sysSafeAccessEnable
      update .slpPowerCtrl fun v => v ||| rbRamRetLv
      sysSafeAccessEnable
      store .powerPlan (rbPwrPlanEn ||| rbPwrMust0010 ||| peri.setWidth 16)
      sysSafeAccessDisable
      update .sctlr fun v => v ||| (1#32 <<< 2)
      wfi) d).2 := by
    simp only [callOn, HalCall.prog, halPwrEnterShutdown, exec_bind, exec_act, exec_store]
    rfl
  have hsleeps : (callOn chipBus c (.enterShutdown peri)).sleeps = c.sleeps ++
      [⟨(d.regs .sctlr ||| 1#32 <<< 2) &&& ~~~(1#32 <<< 3), 0x04, d.regs .pllConfig,
        d.regs .slpPowerCtrl ||| rbRamRetLv,
        rbPwrPlanEn ||| rbPwrMust0010 ||| peri.setWidth 16, d.regs .xt32mTune⟩] := by
    rw [hcall]
    simp [update, wfi, sysSafeAccessEnable, sysSafeAccessDisable, chipBus, Chip.write, Chip.sleep,
      hflash, (hframe (r := .sctlr) (by decide)).1]
  have hmode : modeOf ⟨(d.regs .sctlr ||| 1#32 <<< 2) &&& ~~~(1#32 <<< 3), 0x04,
      d.regs .pllConfig, d.regs .slpPowerCtrl ||| rbRamRetLv,
      rbPwrPlanEn ||| rbPwrMust0010 ||| peri.setWidth 16, d.regs .xt32mTune⟩ =
      if peri.getLsbD 2 then .sleepToRam else .shutdown := by
    simp only [modeOf, hdeep, hen, hcore, Bool.true_eq_false, if_false]
  refine ⟨⟨?_, ?_⟩, _, hsleeps,
    .cons ⟨hmode, hpll, rfl, hwfi, fun _ => ⟨hmust, retLv_bit _⟩⟩ .nil⟩
  · rw [hcall]
    simp [update, wfi, sysSafeAccessEnable, sysSafeAccessDisable, chipBus, Chip.write, Chip.sleep,
      rbPwrPlanEn]
  · rw [hcall]
    simpa [update, wfi, sysSafeAccessEnable, sysSafeAccessDisable, chipBus, Chip.write, Chip.sleep]
      using hpll

/-- Any other call lets nothing sleep and leaves what it does not write. -/
lemma exec_other {call : HalCall} (hcall : Action.wfi ∉ call.acts) {r : Reg}
    (hr : r ∉ call.writes) : (callOn chipBus c call).sleeps = c.sleeps ∧
      (callOn chipBus c call).regs r = c.regs r := by
  refine exec_unslept ((confined_halCall call).mono (fun r' hr' => decide_eq_true ?_)
    fun o ho => decide_eq_true ?_) c
  · rintro rfl
    exact hr (of_decide_eq_true hr')
  · rintro rfl
    exact hcall (of_decide_eq_true ho)

lemma callSleeps_other {call : HalCall} (hnone : sleepOf call = none)
    (hsleeps : (callOn chipBus c call).sleeps = c.sleeps) (hawake : Awake (callOn chipBus c call)) :
    CallSleeps c (callOn chipBus c call) call :=
  ⟨hawake, [], by rw [hsleeps, List.append_nil], by rw [hnone]; exact .nil⟩

lemma callSleeps_frame (hc : Awake c) {call : HalCall} (hnone : sleepOf call = none)
    (hcall : Action.wfi ∉ call.acts) (hplan : Reg.powerPlan ∉ call.writes)
    (hpll : Reg.pllConfig ∉ call.writes) : CallSleeps c (callOn chipBus c call) call := by
  obtain ⟨hsleeps, hplan'⟩ := exec_other (c := c) hcall hplan
  obtain ⟨-, hpll'⟩ := exec_other (c := c) hcall hpll
  exact callSleeps_other hnone hsleeps ⟨by rw [hplan', hc.plan], by rw [hpll', hc.pll]⟩

/-- Setting up the clock leaves the chip awake. -/
lemma callSleeps_sysSetup (hc : Awake c) {call : HalCall} {clk : BitVec 32}
    (hnone : sleepOf call = none) (hprog : call.prog = halClkSysSetup clk)
    (hcall : Action.wfi ∉ call.acts) (hplan : Reg.powerPlan ∉ call.writes) :
    CallSleeps c (callOn chipBus c call) call := by
  obtain ⟨hsleeps, hplan'⟩ := exec_other (c := c) hcall hplan
  refine callSleeps_other hnone hsleeps ⟨by rw [hplan', hc.plan], ?_⟩
  rw [callOn, hprog, exec_halClkSysSetup_pll]
  exact (pll_bits _).2

lemma callSleeps_dcdcEnable (hc : Awake c) (enable : Bool) (hwInfo : BitVec 32) :
    CallSleeps c (callOn chipBus c (.dcdcEnable enable hwInfo)) (.dcdcEnable enable hwInfo) := by
  have hother {r : Reg} (hr : r ∉ (HalCall.dcdcEnable enable hwInfo).writes) :
      (callOn chipBus c (.dcdcEnable enable hwInfo)).sleeps = c.sleeps ∧
        (callOn chipBus c (.dcdcEnable enable hwInfo)).regs r = c.regs r :=
    exec_other List.not_mem_nil hr
  have hpll : Reg.pllConfig ∉ (HalCall.dcdcEnable enable hwInfo).writes := by
    simp [HalCall.writes]
  refine callSleeps_other rfl (hother hpll).1 ⟨?_, by rw [(hother hpll).2, hc.pll]⟩
  have hplan := hc.plan
  rw [callOn, HalCall.prog, halPwrDcdcEnable]
  split_ifs
  all_goals
    simp_all [updateWindow, update, sysSafeAccessEnable, sysSafeAccessDisable, chipBus, Chip.write,
      rbPwrDcdcEn, rbPwrDcdcPre]

/-- What a call adds to the sleeps, from any state between calls. -/
theorem callSleeps (hc : Awake c) (call : HalCall) :
    CallSleeps c (callOn chipBus c call) call := by
  cases call with
  | enterIdle => exact callSleeps_enterIdle hc
  | enterHalt => exact callSleeps_enterHalt hc
  | enterSleep peri => exact callSleeps_enterSleep peri
  | enterShutdown peri => exact callSleeps_enterShutdown peri
  | sysSetup clk => exact callSleeps_sysSetup hc rfl rfl List.not_mem_nil (by simp [HalCall.writes])
  | sysInit freq => exact callSleeps_sysSetup hc rfl rfl List.not_mem_nil (by simp [HalCall.writes])
  | dcdcEnable enable hwInfo => exact callSleeps_dcdcEnable hc enable hwInfo
  | sysReset => exact callSleeps_frame hc rfl (by decide) (by decide) (by decide)
  | _ =>
    exact callSleeps_frame hc rfl List.not_mem_nil (by simp [HalCall.writes])
      (by simp [HalCall.writes])

end Calls

/-- Over any sequence of calls on the chip with its lock, the chip sleeps once for each call
that is to let it sleep, in the order of the calls, each time in the mode of that call and
prepared for it. -/
theorem run_sleeps {c : Chip} (hc : Awake c) (mode : AccMode) (calls : List HalCall) :
    ∃ news, (run (callOn lockedBus) (c, mode) calls).1.sleeps = c.sleeps ++ news ∧
      List.Forall₂ SleepsIn news (calls.filterMap sleepOf) := by
  rw [run_lockedBus]
  induction calls generalizing c with
  | nil => exact ⟨[], (List.append_nil _).symm, .nil⟩
  | cons call calls ih =>
    obtain ⟨hawake, first, hfirst, hin⟩ := callSleeps hc call
    obtain ⟨rest, hrest, hins⟩ := ih hawake
    refine ⟨first ++ rest, ?_, ?_⟩
    · rw [run_cons, hrest, hfirst, List.append_assoc]
    · have hcons : (call :: calls).filterMap sleepOf =
          (sleepOf call).toList ++ calls.filterMap sleepOf := by
        cases h : sleepOf call <;> simp [h]
      rw [hcons]
      exact List.rel_append hin hins

/-- A sleep that retains the core and the RAM, and then an idle wait. -/
theorem sleep_then_idle :
    ∃ news, (run (callOn lockedBus) (⟨fun r => 0#r.width, []⟩, .locked)
      [.enterSleep 0x1a, .rtcSetTicks 5, .enterIdle]).1.sleeps = [] ++ news ∧
      List.Forall₂ SleepsIn news [(.sleepToRam, true), (.idle, false)] :=
  run_sleeps ⟨rfl, rfl⟩ .locked [.enterSleep 0x1a, .rtcSetTicks 5, .enterIdle]

/-! ## The states of the power management -/

/-- The calls of `pm_state_set`, in order. -/
def pmStateSet : PmState → List HalCall
  | .runtimeIdle | .suspendToIdle => [.enterIdle]
  | .standby => [.hseCfgCurrent hseCurrent150, .enterHalt]
  | .suspendToRam => [.hseCfgCurrent hseCurrent150, .enterSleep (0x02 ||| 0x10 ||| 0x08)]
  | .softOff => [.enterShutdown 0]
  | _ => []

def pmStateExitPostOps : PmState → List HalCall
  | .standby | .suspendToRam => [.hseCfgCurrent hseCurrent100]
  | _ => []

/-- What an observed step of the power management calls. The alarm recorded is the value
stored already, which `hal_rtc_set_ticks` reduces no further. -/
def obsCalls : Obs → List HalCall
  | .alarm trig => [.rtcSetTicks trig]
  | .stateSet state _ => pmStateSet state
  | .exitPostOps state _ => pmStateExitPostOps state
  | .policyAsked _ | .callback _ _ _ => []

end WchIotSdk.PowerStates
