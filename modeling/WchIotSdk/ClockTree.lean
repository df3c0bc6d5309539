import WchIotSdk.SafeAccessRuns

/-!
# The clock tree

What every function of the hardware abstraction layer may write, and what follows for
the system clock: the source that is selected is powered, at every access.
-/
namespace WchIotSdk.SafeAccess
open RegisterPrograms EventRuns RtcTimestamp

/-- The registers that a call may write. -/
def HalCall.writes : HalCall → List Reg
  | .periphClkEnable _ | .periphClkDisable _ => [.safeAccessSig, .slpClkOff0, .slpClkOff1]
  | .sysSetup _ | .sysInit _ => [.safeAccessSig, .pllConfig, .hfckPwrCtrl, .clkSysCfg, .flashCfg]
  | .lseCfgCurrent _ | .lseCfgCapacitance _ => [.safeAccessSig, .xt32kTune]
  | .hseCfgCurrent _ | .hseCfgCapacitance _ => [.safeAccessSig, .xt32mTune]
  | .lfSourceSelect _ _ => [.safeAccessSig, .ck32kConfig, .xt32kTune]
  | .lsiSetTuneFlash _ | .lsiSetTuneRam _ => [.safeAccessSig, .int32kTune]
  | .dcdcEnable _ _ => [.safeAccessSig, .powerPlan]
  | .wakeupMode _ | .wakeupSource _ _ => [.safeAccessSig, .slpWakeCtrl]
  | .monitorConfig _ => [.safeAccessSig, .batDetCtrl, .batDetCfg]
  | .enterIdle => [.flashCtrl, .sctlr]
  | .enterHalt => [.safeAccessSig, .flashCtrl, .sctlr, .pllConfig]
  | .enterSleep _ => [.safeAccessSig, .flashCtrl, .sctlr, .pllConfig, .slpPowerCtrl, .powerPlan]
  | .enterShutdown _ => [.safeAccessSig, .flashCtrl, .sctlr, .pllConfig, .hfckPwrCtrl, .clkSysCfg,
      .flashCfg, .slpPowerCtrl, .powerPlan]
  | .rtcModeTrigConfig _ | .rtcModeTmrCfg _ | .rtcModeTrigDisable | .rtcModeTmrDisable =>
    [.safeAccessSig, .rtcModeCtrl]
  | .rtcSetTicks _ => [.safeAccessSig, .rtcTrig]
  | .rtcUpdateTicks _ | .rtcUpdateDays _ | .rtcSetTimestamp _ =>
    [.safeAccessSig, .rtcTrig, .rtcModeCtrl]
  | .rtcFlagClear _ => [.rtcFlagCtrl]
  | .sysReset => [.safeAccessSig, .rstWdogCtrl]

/-- What a call does besides. -/
def HalCall.acts : HalCall → List Action
  | .enterIdle | .enterHalt | .enterSleep _ | .enterShutdown _ => [.flashRomSwReset, .wfi]
  | .sysReset => [.flashRomSwReset]
  | _ => []

section Confined

variable {writes : Reg → Bool} {acts : Action → Bool}

lemma confined_storeWindow (hsig : writes .safeAccessSig) {r : Reg} (hr : writes r)
    (v : Value r) : Confined writes acts (storeWindow r v) := ⟨hsig, hsig, hr, hsig, trivial⟩

lemma confined_updateWindow (hsig : writes .safeAccessSig) {r : Reg} (hr : writes r)
    (f : Value r → Value r) : Confined writes acts (updateWindow r f) :=
  ⟨hsig, hsig, fun _ => ⟨hr, hsig, trivial⟩⟩

lemma confined_cfgTune (hsig : writes .safeAccessSig) {r : Reg} (hr : writes r)
    (mask bits : Value r) : Confined writes acts (cfgTune r mask bits) := fun _ =>
  confined_storeWindow hsig hr _

lemma confined_ensureClkPwr (hsig : writes .safeAccessSig) (hpwr : writes .hfckPwrCtrl)
    (mask : BitVec 8) : Confined writes acts (ensureClkPwr mask) :=
  Confined.bind (fun _ => trivial) fun _ =>
    Confined.ite (confined_pure ()) (confined_updateWindow hsig hpwr _)

lemma confined_halClkSysSetup (clk : BitVec 32)
    (h : ∀ r ∈ (HalCall.sysSetup clk).writes, writes r) :
    Confined writes acts (halClkSysSetup clk) := by
  simp only [HalCall.writes, List.forall_mem_cons] at h
  obtain ⟨hsig, hpll, hpwr, hclk, hflash, -⟩ := h
  have hconfig (m : BitVec 32) (d v : BitVec 8) : Confined writes acts (do
      halClkSysConfig m d
      storeWindow .flashCfg v) :=
    (confined_storeWindow hsig hclk _).bind fun _ => confined_storeWindow hsig hflash v
  refine (confined_updateWindow hsig hpll _).bind fun _ =>
    Confined.ite (confined_storeWindow hsig hclk _) (Confined.ite ?_ ?_)
  · exact (confined_ensureClkPwr hsig hpwr _).bind fun _ =>
      (confined_ensureClkPwr hsig hpwr _).bind fun _ => hconfig _ _ _
  · exact (confined_ensureClkPwr hsig hpwr _).bind fun _ => hconfig _ _ _

lemma confined_waitClkPin (rounds : ℕ) : Confined writes acts (waitClkPin rounds) := by
  induction rounds with
  | zero => exact confined_pure ()
  | succ rounds ih => exact fun _ _ => ih

lemma confined_halClkLfSourceSelect (hsig : writes .safeAccessSig) (hcfg : writes .ck32kConfig)
    (htune : writes .xt32kTune) (src : LfSource) (rounds : ℕ) :
    Confined writes acts (halClkLfSourceSelect src rounds) := by
  have hcur (cur : BitVec 8) : Confined writes acts (lseCurrentFor src cur) :=
    Confined.ite (confined_cfgTune hsig htune _ _) (confined_pure ())
  exact (confined_storeWindow hsig hcfg _).bind fun _ => (hcur 3).bind fun _ =>
    (confined_waitClkPin rounds).bind fun _ => hcur 1

/-- A counter of the RTC is loaded through the trigger register. -/
lemma confined_loadCounter (hsig : writes .safeAccessSig) (htrig : writes .rtcTrig)
    (hmode : writes .rtcModeCtrl) (ticks : BitVec 32) (bits : BitVec 8) :
    Confined writes acts (do halRtcSetTicks ticks; rtcModeSet bits) :=
  (confined_storeWindow hsig htrig _).bind fun _ => confined_updateWindow hsig hmode _

end Confined

/-- A call writes its registers and takes its actions only. -/
theorem confined_halCall (call : HalCall) :
    Confined (fun r => r ∈ call.writes) (fun o => o ∈ call.acts) call.prog := by
  cases call with
  | periphClkEnable per => exact ⟨rfl, rfl, fun _ => ⟨rfl, rfl, rfl, fun _ => ⟨rfl, rfl, trivial⟩⟩⟩
  | periphClkDisable per => exact ⟨rfl, rfl, fun _ => ⟨rfl, rfl, rfl, fun _ => ⟨rfl, rfl, trivial⟩⟩⟩
  | sysSetup clk => exact confined_halClkSysSetup clk fun r hr => decide_eq_true hr
  | sysInit freq => exact confined_halClkSysSetup _ fun r hr => decide_eq_true hr
  | lseCfgCurrent cur => exact confined_cfgTune rfl rfl _ _
  | lseCfgCapacitance cap => exact confined_cfgTune rfl rfl _ _
  | hseCfgCurrent cur => exact confined_cfgTune rfl rfl _ _
  | hseCfgCapacitance cap => exact confined_cfgTune rfl rfl _ _
  | lfSourceSelect src rounds => exact confined_halClkLfSourceSelect rfl rfl rfl src rounds
  | lsiSetTuneFlash tune => exact confined_storeWindow rfl rfl _
  | lsiSetTuneRam tune => exact confined_storeWindow rfl rfl _
  | dcdcEnable enable hwInfo =>
    exact Confined.ite (confined_updateWindow rfl rfl _)
      (Confined.ite (confined_pure ()) (confined_updateWindow rfl rfl _))
  | wakeupMode mode => exact ⟨rfl, rfl, fun _ => ⟨rfl, rfl, rfl, fun _ => ⟨rfl, rfl, trivial⟩⟩⟩
  | wakeupSource source enable => exact fun _ => confined_storeWindow rfl rfl _
  | monitorConfig level =>
    exact fun _ _ => Confined.ite (confined_storeWindow rfl rfl _)
      ⟨rfl, rfl, rfl, rfl, rfl, confined_updateWindow rfl rfl _⟩
  | enterIdle => exact ⟨rfl, rfl, fun _ => ⟨rfl, fun _ => ⟨rfl, rfl, trivial⟩⟩⟩
  | enterHalt =>
    exact ⟨rfl, rfl, rfl, rfl, fun _ => ⟨rfl, rfl, fun _ => ⟨rfl, fun _ =>
      ⟨rfl, rfl, confined_updateWindow rfl rfl _⟩⟩⟩⟩
  | enterSleep peri =>
    exact ⟨rfl, rfl, rfl, rfl, fun _ => ⟨rfl, rfl, rfl, fun _ => ⟨rfl, rfl, rfl, rfl, rfl, fun _ =>
      ⟨rfl, fun _ => ⟨rfl, rfl, confined_updateWindow rfl rfl _⟩⟩⟩⟩⟩
  | enterShutdown peri =>
    refine ⟨rfl, rfl, (confined_halClkSysSetup _ ?_).bind fun _ => ?_⟩
    · simp [HalCall.writes]
    · exact ⟨rfl, rfl, fun _ => ⟨rfl, rfl, rfl, rfl, rfl, fun _ => ⟨rfl, fun _ =>
        ⟨rfl, rfl, trivial⟩⟩⟩⟩
  | rtcModeTrigDisable => exact confined_updateWindow rfl rfl _
  | rtcModeTmrDisable => exact confined_updateWindow rfl rfl _
  | rtcModeTrigConfig ignore =>
    cases ignore <;> exact ⟨rfl, rfl, fun _ => ⟨rfl, confined_updateWindow rfl rfl _⟩⟩
  | rtcModeTmrCfg perid =>
    exact ⟨rfl, rfl, fun _ => ⟨rfl, rfl, rfl, fun _ => ⟨rfl, confined_updateWindow rfl rfl _⟩⟩⟩
  | rtcSetTicks ticks => exact confined_storeWindow rfl rfl _
  | rtcUpdateTicks ticks => exact confined_loadCounter rfl rfl rfl _ _
  | rtcUpdateDays days => exact confined_loadCounter rfl rfl rfl _ _
  | rtcSetTimestamp rawtime =>
    refine Confined.bind (Confined.ite (confined_pure _) ?_) fun _ => confined_pure ()
    exact (confined_loadCounter rfl rfl rfl _ rbRtcLoadHi).bind fun _ =>
      (confined_loadCounter rfl rfl rfl _ rbRtcLoadLo).bind fun _ => confined_pure _
  | rtcFlagClear flag =>
    exact Confined.ite ⟨rfl, trivial⟩ (Confined.ite ⟨rfl, trivial⟩ (confined_pure ()))
  | sysReset => exact ⟨rfl, confined_updateWindow rfl rfl _⟩

/-- Everything else is left alone; only a sleep clears the power plan's enable bit. -/
theorem callOn_frame {call : HalCall} {r : Reg} (hr : r ∉ call.writes) (hplan : r ≠ .powerPlan)
    (c : Chip) : (callOn chipBus c call).regs r = c.regs r := by
  have halways : Always chipBus (fun d => d.regs r = c.regs r) call.prog c := by
    refine always_of_confined ?_ ?_ (confined_halCall call) rfl
    · intro d r' v hallowed hd
      have hne : r ≠ r' := by
        rintro rfl
        exact hr (of_decide_eq_true hallowed)
      simp [chipBus, Chip.write, hne, hd]
    · intro d o _ hd
      cases o <;> simp [chipBus, Chip.sleep, hplan, hd]
  exact halways.last

/-! ## The system clock -/

/-- The sources of the system clock under a configuration are powered: the mode is 3 for
the 32 kHz clock, 1 for the PLL, and the PLL takes the 32 MHz crystal. -/
def FedBy (cfg : BitVec 16) (pwr : BitVec 8) : Prop :=
  ((cfg &&& 0xc0) >>> 6 ≠ 3 → pwr &&& rbClkXt32mPon ≠ 0) ∧
    ((cfg &&& 0xc0) >>> 6 = 1 → pwr &&& rbClkPllPon ≠ 0)

/-- Whatever the system clock is divided from is powered. -/
def ClockFed (c : Chip) : Prop := FedBy (c.regs .clkSysCfg) (c.regs .hfckPwrCtrl)

/-- The program keeps the clock fed at all its accesses. -/
def KeepsFed {α : Type} (p : Hal α) : Prop := ∀ c, ClockFed c → Always chipBus ClockFed p c

section ClockFed

variable {α β : Type}

theorem KeepsFed.bind {p : Hal α} {f : α → Hal β} (hp : KeepsFed p) (hf : ∀ a, KeepsFed (f a)) :
    KeepsFed (p >>= f) := fun c hc => (hp c hc).bind (hf _ _ (hp c hc).last)

/-- A program that leaves the clock registers alone. -/
theorem KeepsFed.of_confined {p : Hal α}
    (hp : Confined (fun r => r ≠ .clkSysCfg ∧ r ≠ .hfckPwrCtrl) (fun _ => true) p) :
    KeepsFed p := by
  refine fun c => always_of_confined ?_ ?_ hp
  · intro d r v hr hd
    obtain ⟨hclk, hpwr⟩ := of_decide_eq_true hr
    simpa [ClockFed, chipBus, Chip.write, Ne.symm hclk, Ne.symm hpwr] using hd
  · intro d o _ hd
    cases o <;> simpa [ClockFed, chipBus, Chip.sleep] using hd

lemma and_ne_zero_or {v mask : BitVec 8} (h : v &&& mask ≠ 0) (bits : BitVec 8) :
    (v ||| bits) &&& mask ≠ 0 := by
  rw [BitVec.and_or_distrib_right]
  exact fun hzero => h (BitVec.or_eq_zero_iff.mp hzero).1

/-- More power feeds every configuration that was fed. -/
lemma FedBy.or {cfg : BitVec 16} {pwr : BitVec 8} (h : FedBy cfg pwr) (bits : BitVec 8) :
    FedBy cfg (pwr ||| bits) :=
  ⟨fun hmode => and_ne_zero_or (h.1 hmode) bits, fun hmode => and_ne_zero_or (h.2 hmode) bits⟩

lemma ClockFed.write_sig {c : Chip} (h : ClockFed c) (v : BitVec 8) :
    ClockFed (c.write .safeAccessSig v) := by
  simpa [ClockFed, Chip.write] using h

lemma always_clkPwrOn (mask : BitVec 8) : KeepsFed (clkPwrOn mask) := by
  intro c hc
  have hsigned := (hc.write_sig safeAccessSig1).write_sig safeAccessSig2
  have hset : ClockFed (((c.write .safeAccessSig safeAccessSig1).write .safeAccessSig
      safeAccessSig2).write .hfckPwrCtrl (c.regs .hfckPwrCtrl ||| mask)) := by
    simpa [ClockFed, Chip.write] using hc.or mask
  exact ⟨hc, hc.write_sig _, hsigned, hsigned, hset, hset.write_sig 0⟩

lemma keepsFed_ensureClkPwr (mask : BitVec 8) : KeepsFed (ensureClkPwr mask) := by
  intro c hc
  refine ⟨hc, ?_⟩
  change Always chipBus ClockFed (if _ then _ else _) c
  split
  · exact hc
  · exact always_clkPwrOn mask c hc

/-- What switching a source on leaves: its bit is set, no other one is cleared, and the
configuration is the same. -/
structure PoweredOn (mask : BitVec 8) (c d : Chip) : Prop where
  on : d.regs .hfckPwrCtrl &&& mask ≠ 0
  kept : ∀ mask', c.regs .hfckPwrCtrl &&& mask' ≠ 0 → d.regs .hfckPwrCtrl &&& mask' ≠ 0

lemma ensureClkPwr_spec {mask : BitVec 8} (hmask : mask ≠ 0) (c : Chip) :
    PoweredOn mask c (exec chipBus (ensureClkPwr mask) c).2 := by
  have hexec : exec chipBus (ensureClkPwr mask) c =
      exec chipBus (if c.regs .hfckPwrCtrl &&& mask != 0 then pure () else clkPwrOn mask) c := rfl
  rw [hexec]
  split
  case isTrue hon => exact ⟨bne_iff_ne.mp hon, fun _ => id⟩
  case isFalse hoff =>
    have hpwr : (exec chipBus (clkPwrOn mask) c).2.regs .hfckPwrCtrl =
        c.regs .hfckPwrCtrl ||| mask := by
      simp [clkPwrOn, updateWindow, sysSafeAccessEnable, sysSafeAccessDisable, chipBus, Chip.write]
    refine ⟨?_, fun mask' h => ?_⟩
    · rw [hpwr, BitVec.or_comm]
      exact and_ne_zero_or (by rwa [BitVec.and_self]) _
    · rw [hpwr]
      exact and_ne_zero_or h mask

/-- The value that `hal_clk_sys_config` writes, and the mode in it. -/
def clkCfg (clkMode : BitVec 32) (div : BitVec 8) : BitVec 16 :=
  ((((clkMode <<< 6) &&& 0xc0) ||| (div.setWidth 32 &&& 0x1f)).setWidth 8 : BitVec 8).setWidth 16

lemma clkCfg_mode (div : BitVec 8) :
    (clkCfg clkModePll div &&& 0xc0) >>> 6 = 1 ∧ (clkCfg clkMode32m div &&& 0xc0) >>> 6 = 0 := by
  have h : ∀ div : BitVec 8, (clkCfg clkModePll div &&& 0xc0) >>> 6 = 1 ∧
      (clkCfg clkMode32m div &&& 0xc0) >>> 6 = 0 := by decide +kernel
  exact h div

lemma exec_halClkSysConfig (clkMode : BitVec 32) (div : BitVec 8) (c : Chip) :
    let d := (exec chipBus (halClkSysConfig clkMode div) c).2
    d.regs .clkSysCfg = clkCfg clkMode div ∧ d.regs .hfckPwrCtrl = c.regs .hfckPwrCtrl := by
  simp [halClkSysConfig, clkCfg, storeWindow, sysSafeAccessEnable, sysSafeAccessDisable, chipBus,
    Chip.write]

lemma always_halClkSysConfig {clkMode : BitVec 32} {div : BitVec 8} {c : Chip} (hc : ClockFed c)
    (hfed : FedBy (clkCfg clkMode div) (c.regs .hfckPwrCtrl)) :
    Always chipBus ClockFed (halClkSysConfig clkMode div) c := by
  have hsigned := (hc.write_sig safeAccessSig1).write_sig safeAccessSig2
  have hset : ClockFed (((c.write .safeAccessSig safeAccessSig1).write .safeAccessSig
      safeAccessSig2).write .clkSysCfg (clkCfg clkMode div)) := by
    simpa [ClockFed, Chip.write] using hfed
  exact ⟨hc, hc.write_sig _, hsigned, hset, hset.write_sig 0⟩

/-- The mode that the enumeration calls 32K does not fit the field. -/
lemma mode_ne_clkMode32k (clk : BitVec 32) : (clk &&& 0xc0) >>> 6 ≠ clkMode32k := by
  intro h
  have htoNat := congrArg BitVec.toNat h
  have hle : (clk &&& 0xc0).toNat ≤ 0xc0 := Nat.and_le_right
  rw [BitVec.toNat_ushiftRight, Nat.shiftRight_eq_div_pow] at htoNat
  have h17 : clkMode32k.toNat = 17 := rfl
  omega

/-- Configuration and flash timing, once the sources are powered. -/
lemma switch_spec {clkMode : BitVec 32} {div v : BitVec 8} {c : Chip}
    (hfed : FedBy (clkCfg clkMode div) (c.regs .hfckPwrCtrl)) :
    ClockFed (exec chipBus (do halClkSysConfig clkMode div; storeWindow .flashCfg v) c).2 ∧
      (ClockFed c → Always chipBus ClockFed
        (do halClkSysConfig clkMode div; storeWindow .flashCfg v) c) := by
  have hflash : KeepsFed (storeWindow .flashCfg v) :=
    KeepsFed.of_confined (confined_storeWindow (r := .flashCfg) rfl rfl v)
  have hconfig : ClockFed (exec chipBus (halClkSysConfig clkMode div) c).2 := by
    obtain ⟨hclk, hpwr⟩ := exec_halClkSysConfig clkMode div c
    rw [ClockFed, hclk, hpwr]
    exact hfed
  rw [exec_bind]
  exact ⟨(hflash _ hconfig).last, fun hc => (always_halClkSysConfig hc hfed).bind
    (hflash _ hconfig)⟩

lemma fedBy_pll {c d e : Chip} (hd : PoweredOn rbClkXt32mPon c d) (he : PoweredOn rbClkPllPon d e)
    (div : BitVec 8) : FedBy (clkCfg clkModePll div) (e.regs .hfckPwrCtrl) :=
  ⟨fun _ => he.kept _ hd.on, fun _ => he.on⟩

lemma fedBy_32m {c d : Chip} (hd : PoweredOn rbClkXt32mPon c d) (div : BitVec 8) :
    FedBy (clkCfg clkMode32m div) (d.regs .hfckPwrCtrl) := by
  refine ⟨fun _ => hd.on, fun hmode => ?_⟩
  rw [(clkCfg_mode div).2] at hmode
  exact absurd hmode (by decide)

/-- Setting up the clock keeps it fed all the way, and feeds one that was not. -/
theorem halClkSysSetup_spec (clk : BitVec 32) (c : Chip) :
    ClockFed (exec chipBus (halClkSysSetup clk) c).2 ∧
      (ClockFed c → Always chipBus ClockFed (halClkSysSetup clk) c) := by
  have hpll : KeepsFed (updateWindow .pllConfig fun v => v &&& ~~~(1#8 <<< 5)) :=
    KeepsFed.of_confined (confined_updateWindow rfl rfl _)
  have hxt := fun c => ensureClkPwr_spec (show rbClkXt32mPon ≠ 0 by decide) c
  have hpllOn := fun c => ensureClkPwr_spec (show rbClkPllPon ≠ 0 by decide) c
  rw [halClkSysSetup]
  simp only [if_neg (mode_ne_clkMode32k clk)]
  split
  · constructor
    · simp only [exec_bind]
      exact (switch_spec (fedBy_pll (hxt _) (hpllOn _) _)).1
    · intro hc
      have h1 := hpll c hc
      have h2 := keepsFed_ensureClkPwr rbClkXt32mPon _ h1.last
      have h3 := keepsFed_ensureClkPwr rbClkPllPon _ h2.last
      exact h1.bind (h2.bind (h3.bind ((switch_spec (fedBy_pll (hxt _) (hpllOn _) _)).2 h3.last)))
  · constructor
    · simp only [exec_bind]
      exact (switch_spec (fedBy_32m (hxt _) _)).1
    · intro hc
      have h1 := hpll c hc
      have h2 := keepsFed_ensureClkPwr rbClkXt32mPon _ h1.last
      exact h1.bind (h2.bind ((switch_spec (fedBy_32m (hxt _) _)).2 h2.last))

/-- Only the set-up of the clock writes its registers. -/
lemma writes_clock (call : HalCall) :
    (∀ r ∈ call.writes, r ≠ .clkSysCfg ∧ r ≠ .hfckPwrCtrl) ∨ (∃ clk, call = .sysSetup clk) ∨
      (∃ freq, call = .sysInit freq) ∨ ∃ peri, call = .enterShutdown peri := by
  cases call with
  | sysSetup clk => exact Or.inr (Or.inl ⟨clk, rfl⟩)
  | sysInit freq => exact Or.inr (Or.inr (Or.inl ⟨freq, rfl⟩))
  | enterShutdown peri => exact Or.inr (Or.inr (Or.inr ⟨peri, rfl⟩))
  | _ => exact Or.inl (by simp only [HalCall.writes]; decide)

/-- Every function keeps the clock fed at all its accesses. -/
theorem keepsFed_halCall (call : HalCall) : KeepsFed call.prog := by
  rcases writes_clock call with hfree | ⟨clk, rfl⟩ | ⟨freq, rfl⟩ | ⟨peri, rfl⟩
  · refine KeepsFed.of_confined ((confined_halCall call).mono (fun r hr => ?_) fun _ _ => rfl)
    exact decide_eq_true (hfree r (of_decide_eq_true hr))
  · exact fun c => (halClkSysSetup_spec clk c).2
  · exact fun c => (halClkSysSetup_spec (clkSource freq) c).2
  · have hreset : KeepsFed (act Action.flashRomSwReset : Hal Unit) :=
      KeepsFed.of_confined ⟨rfl, trivial⟩
    have hctrl : KeepsFed (store Reg.flashCtrl 0x04 : Hal Unit) :=
      KeepsFed.of_confined ⟨rfl, trivial⟩
    have hsetup : KeepsFed (halClkSysSetup clkSourceHse6_4Mhz) := fun c =>
      (halClkSysSetup_spec _ c).2
    have hsleep : KeepsFed (do
        sysSafeAccessEnable
        update .slpPowerCtrl fun v => v ||| rbRamRetLv
        sysSafeAccessEnable
        store .powerPlan (rbPwrPlanEn ||| rbPwrMust0010 ||| peri.setWidth 16)
        sysSafeAccessDisable
        update .sctlr fun v => v ||| (1#32 <<< 2)
        wfi) :=
      KeepsFed.of_confined ⟨rfl, rfl, fun _ => ⟨rfl, rfl, rfl, rfl, rfl, fun _ => ⟨rfl, fun _ =>
        ⟨rfl, rfl, trivial⟩⟩⟩⟩
    exact hreset.bind fun _ => hctrl.bind fun _ => hsetup.bind fun _ => hsleep

/-- One call on the chip with its lock. -/
lemma keepsFed_locked {s : Chip × AccMode} (hs : ClockFed s.1) (call : HalCall) :
    Always lockedBus (fun s => ClockFed s.1) call.prog s :=
  (keepsFed_halCall call s.1 hs).guarded (call.tidy s.2)

/-- From the set-up of the clock on, at every access of every later call on the chip with
its lock, whatever the system clock is divided from is powered. -/
theorem clockFed_after_init (freq : SysDelay.OperateFreq) (c : Chip) (mode : AccMode)
    (calls : List HalCall) :
    Along (callOn lockedBus)
      (fun s call => Always lockedBus (fun s => ClockFed s.1) call.prog s)
      (callOn lockedBus (c, mode) (.sysInit freq)) calls := by
  have hrun (s : Chip × AccMode) (hs : ClockFed s.1) : Along (callOn lockedBus)
      (fun s call => Always lockedBus (fun s => ClockFed s.1) call.prog s) s calls := by
    induction calls generalizing s with
    | nil => trivial
    | cons call calls ih =>
      exact ⟨keepsFed_locked hs call, ih _ (keepsFed_locked hs call).last⟩
  apply hrun
  rw [callOn_lockedBus]
  exact (halClkSysSetup_spec (clkSource freq) c).1

end ClockFed

end WchIotSdk.SafeAccess
