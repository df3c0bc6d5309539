import WchIotSdk.RoundedDivision
import WchIotSdk.UartRoundTrip

/-!
# The baud rate divisor

`hal_clk_sys_setup` writes the mode and the divider of the system clock,
`hal_clk_sys_get` reads them back, and `hal_uart_baudrate_set` divides twice the
frequency by 16, the baud rate and the divider of the UART, rounded by a
division of ten times the dividend. All of this is 32-bit arithmetic; the
quotient is stored in 16 bits.
-/
namespace WchIotSdk.UartConfigure
open RoundedDivision

def clkMode32m : BitVec 32 := 0x00
def clkModePll : BitVec 32 := 0x01
def clkMode32k : BitVec 32 := 0x11

/-- The register that selects the clock, a mode and a divider in eight bits. -/
def halClkSysConfig (u : Registers) (clkMode : BitVec 32) (div : BitVec 8) : Registers :=
  let cfg : BitVec 8 := (((clkMode <<< 6) &&& 0xc0) ||| (div.setWidth 32 &&& 0x1f)).setWidth 8
  { u with clkSysCfg := cfg.setWidth 16 }

/-- What `hal_clk_sys_setup` selects; it also switches on the oscillator and the
PLL and sets the flash timing. -/
def halClkSysSetup (u : Registers) (clk : BitVec 32) : Registers :=
  let mode := (clk &&& 0xc0) >>> 6
  if mode = clkMode32k then halClkSysConfig u clkMode32k 5
  else if mode = clkModePll then halClkSysConfig u clkModePll ((clk &&& 0x1f).setWidth 8)
  else halClkSysConfig u clkMode32m ((clk &&& 0x1f).setWidth 8)

/-- The clock that an argument of `hal_clk_sys_setup` selects: the frequency that
is divided, in Hz, and its divider. -/
def sourceHz (clk : BitVec 32) : ℕ := if clk.toNat / 64 % 4 = 1 then 480000000 else 32000000
def clkDivider (clk : BitVec 32) : ℕ := clk.toNat % 32

/-- The system frequency in exact arithmetic. -/
def sysHz (clk : BitVec 32) : ℕ := sourceHz clk / clkDivider clk

section Clock

variable (u : Registers) (clk : BitVec 32)

lemma mode_toNat : ((clk &&& 0xc0) >>> 6).toNat = clk.toNat / 64 % 4 := by
  have hmask : ((0xc0 : BitVec 32) >>> 6).toNat = 2 ^ 2 - 1 := rfl
  rw [BitVec.ushiftRight_and_distrib, BitVec.toNat_and, hmask, Nat.and_two_pow_sub_one_eq_mod,
    BitVec.toNat_ushiftRight, Nat.shiftRight_eq_div_pow]

lemma divider_toNat : ((clk &&& 0x1f).setWidth 8).toNat = clkDivider clk := by
  have hmask : (0x1f : BitVec 32).toNat = 2 ^ 5 - 1 := rfl
  rw [BitVec.toNat_setWidth, BitVec.toNat_and, hmask, Nat.and_two_pow_sub_one_eq_mod, clkDivider]
  omega

/-- The mode that the enumeration calls 32K does not fit its field, so one of the
other two is selected. -/
lemma halClkSysSetup_eq : halClkSysSetup u clk =
    halClkSysConfig u (if clk.toNat / 64 % 4 = 1 then clkModePll else clkMode32m)
      ((clk &&& 0x1f).setWidth 8) := by
  have hmode := mode_toNat clk
  have h32k : (clk &&& 0xc0) >>> 6 ≠ clkMode32k := by
    intro h
    rw [h] at hmode
    have hval : clkMode32k.toNat = 17 := rfl
    omega
  have hpll : (clk &&& 0xc0) >>> 6 = clkModePll ↔ clk.toNat / 64 % 4 = 1 := by
    have hval : clkModePll.toNat = 1 := rfl
    rw [← BitVec.toNat_inj, hmode, hval]
  rw [halClkSysSetup]
  simp only [if_neg h32k, hpll]
  split_ifs <;> rfl

/-- What is read back of a mode and a divider. -/
lemma halClkSysGet_config (rtcFreq : BitVec 32) (pll : Prop) [Decidable pll] {d : BitVec 8}
    (hd : d.toNat < 32) :
    halClkSysGet rtcFreq (halClkSysConfig u (if pll then clkModePll else clkMode32m) d) =
      divu (if pll then fpll else fhse) (d.setWidth 32) := by
  have hpll : ∀ d : BitVec 8, d.toNat < 32 →
      ((((((clkModePll <<< 6) &&& 0xc0) ||| (d.setWidth 32 &&& 0x1f)).setWidth 8).setWidth
        16).setWidth 8 : BitVec 8) = 0x40 ||| d := by decide +kernel
  have h32m : ∀ d : BitVec 8, d.toNat < 32 →
      ((((((clkMode32m <<< 6) &&& 0xc0) ||| (d.setWidth 32 &&& 0x1f)).setWidth 8).setWidth
        16).setWidth 8 : BitVec 8) = d := by decide +kernel
  have hfields : ∀ d : BitVec 8, d.toNat < 32 →
      ((0x40 ||| d) &&& 0xc0) >>> 6 = 0x01 ∧ (0x40 ||| d) &&& 0x1f = d ∧
        (d &&& 0xc0) >>> 6 = 0x00 ∧ d &&& 0x1f = d := by decide +kernel
  obtain ⟨hmode, hdiv, hmode', hdiv'⟩ := hfields d hd
  split_ifs with h
  · rw [halClkSysGet, halClkSysConfig]
    simp only [hpll d hd, hmode, hdiv]
    rfl
  · rw [halClkSysGet, halClkSysConfig]
    simp only [h32m d hd, hmode', hdiv']
    rfl

lemma divider_lt (clk : BitVec 32) : ((clk &&& 0x1f).setWidth 8).toNat < 32 := by
  rw [divider_toNat, clkDivider]
  omega

/-- With a divider the frequency is exact. -/
theorem halClkSysGet_setup (rtcFreq : BitVec 32) (h : clkDivider clk ≠ 0) :
    (halClkSysGet rtcFreq (halClkSysSetup u clk)).toNat = sysHz clk := by
  have hdiv : (((clk &&& 0x1f).setWidth 8).setWidth 32).toNat = clkDivider clk := by
    rw [BitVec.toNat_setWidth, divider_toNat, clkDivider]
    omega
  rw [halClkSysSetup_eq, halClkSysGet_config u rtcFreq _ (divider_lt clk), divu_toNat (by rwa [hdiv]), hdiv,
    sysHz, sourceHz]
  split_ifs <;> rfl

/-- The divisor of the division in `hal_clk_sys_get`. -/
def clkDivField (u : Registers) : BitVec 8 := u.clkSysCfg.setWidth 8 &&& 0x1f

lemma clkDivField_setup : (clkDivField (halClkSysSetup u clk)).toNat = clkDivider clk := by
  have hcfg : ∀ d : BitVec 8, d.toNat < 32 → ∀ pll : Bool,
      ((((((if pll then clkModePll else clkMode32m) <<< 6) &&& 0xc0) |||
        (d.setWidth 32 &&& 0x1f)).setWidth 8).setWidth 16).setWidth 8 &&& 0x1f = d := by
    decide +kernel
  have hread := hcfg _ (divider_lt clk) (decide (clk.toNat / 64 % 4 = 1))
  simp only [decide_eq_true_eq] at hread
  rw [halClkSysSetup_eq, clkDivField, halClkSysConfig, hread, divider_toNat]

end Clock

section Divisor

variable (rtcFreq : BitVec 32) (u : Registers) (clk baud : BitVec 32)

/-- The rate is programmed and read back without a division by zero or an
overflow, and the divisor is the nearest one. -/
structure BaudExact : Prop where
  clkDivisor : clkDivField (halClkSysSetup u clk) ≠ 0
  dividend_fits : 10 * sysHz clk * 2 < 2 ^ 32
  product_fits : 16 * baud.toNat * u.div.toNat < 2 ^ 32
  product_ne_zero : 16 * baud * u.div.setWidth 32 ≠ 0
  dl_pos : 1 ≤ (halUartBaudrateSet rtcFreq (halClkSysSetup u clk) baud).dl.toNat
  dl_eq : (halUartBaudrateSet rtcFreq (halClkSysSetup u clk) baud).dl.toNat =
    roundHalfUp (2 * sysHz clk) (16 * baud.toNat * u.div.toNat)
  read_product_ne_zero :
    16 * (halUartBaudrateSet rtcFreq (halClkSysSetup u clk) baud).dl.setWidth 32 *
      u.div.setWidth 32 ≠ 0
  read_eq : (halUartBaudrateGet rtcFreq
      (halUartBaudrateSet rtcFreq (halClkSysSetup u clk) baud)).toNat =
    2 * sysHz clk /
      (16 * (halUartBaudrateSet rtcFreq (halClkSysSetup u clk) baud).dl.toNat * u.div.toNat)

/-- Every request with this rate is rejected. -/
def RateRejected : Prop :=
  ∀ cfg : UartConfig, cfg.baudrate = baud →
    (uartWchConfigure (halClkSysSetup u clk) rtcFreq cfg).2 ≠ 0

/-- The clock has a divider, ten times twice its frequency fits 32 bits, and the
rate is neither too high nor too low for a divisor of 16 bits. -/
structure BaudInRange : Prop where
  clkDivider_ne_zero : clkDivider clk ≠ 0
  sysHz_fits : 20 * sysHz clk < 2 ^ 32
  rate_le : 4 * (baud.toNat * u.div.toNat) ≤ sysHz clk
  le_rate : sysHz clk < 524284 * (baud.toNat * u.div.toNat)

variable {rtcFreq u clk baud}

/-- The registers that the divisor is computed from are not those that selecting a
clock changes. -/
lemma setup_div : (halClkSysSetup u clk).div = u.div := by
  rw [halClkSysSetup_eq]
  rfl

/-- Without overflow the computed divisor is the rounded quotient. -/
lemma halUartDl_toNat (hclk : clkDivider clk ≠ 0) (hsys : 20 * sysHz clk < 2 ^ 32)
    (hproduct : 16 * baud.toNat * u.div.toNat < 2 ^ 32)
    (hpos : 0 < 16 * baud.toNat * u.div.toNat) :
    (halUartDl (halClkSysGet rtcFreq (halClkSysSetup u clk)) u.div baud).toNat =
      roundHalfUp (2 * sysHz clk) (16 * baud.toNat * u.div.toNat) := by
  have hget := halClkSysGet_setup u clk rtcFreq hclk
  have hten : (10 : BitVec 32).toNat = 10 := rfl
  have htwo : (2 : BitVec 32).toNat = 2 := rfl
  have hfive : (5 : BitVec 32).toNat = 5 := rfl
  have hdividend : (10 * halClkSysGet rtcFreq (halClkSysSetup u clk) * 2).toNat =
      2 * 5 * (2 * sysHz clk) := by
    rw [BitVec.toNat_mul, BitVec.toNat_mul, hten, htwo, hget]
    omega
  have hquotient : 2 * 5 * (2 * sysHz clk) / (16 * baud.toNat * u.div.toNat) ≤
      2 * 5 * (2 * sysHz clk) / 16 := by
    apply Nat.div_le_div_left _ (by norm_num)
    rw [Nat.mul_assoc] at hpos ⊢
    omega
  rw [halUartDl, divu_toNat (by rw [hten]; norm_num), BitVec.toNat_add, divu_toNat
    (by rw [product_toNat hproduct]; omega), hdividend, product_toNat hproduct, hten, hfive,
    ← scaled_div_eq (by norm_num : 0 < 5) hpos]
  generalize 2 * 5 * (2 * sysHz clk) / (16 * baud.toNat * u.div.toNat) = q at hquotient ⊢
  congr 1
  omega

/-- Reading back overflows for no divisor, and divides by one that is not 0. -/
lemma halUartBaudrateGet_toNat (rtcFreq baud : BitVec 32) (hclk : clkDivider clk ≠ 0)
    (hsys : 20 * sysHz clk < 2 ^ 32) (hdiv : 0 < u.div.toNat)
    (hdl : 0 < (halUartBaudrateSet rtcFreq (halClkSysSetup u clk) baud).dl.toNat) :
    16 * (halUartBaudrateSet rtcFreq (halClkSysSetup u clk) baud).dl.setWidth 32 *
        u.div.setWidth 32 ≠ 0 ∧
      (halUartBaudrateGet rtcFreq (halUartBaudrateSet rtcFreq (halClkSysSetup u clk) baud)).toNat =
        2 * sysHz clk / (16 *
          (halUartBaudrateSet rtcFreq (halClkSysSetup u clk) baud).dl.toNat * u.div.toNat) := by
  have hget := halClkSysGet_setup u clk rtcFreq hclk
  have hsame : halUartBaudrateGet rtcFreq (halUartBaudrateSet rtcFreq (halClkSysSetup u clk) baud) =
      baudrateOf (halClkSysGet rtcFreq (halClkSysSetup u clk)) (halClkSysSetup u clk).div
        (halUartBaudrateSet rtcFreq (halClkSysSetup u clk) baud).dl := rfl
  rw [hsame, setup_div]
  generalize (halUartBaudrateSet rtcFreq (halClkSysSetup u clk) baud).dl = dl at hdl ⊢
  have hwide : (dl.setWidth 32).toNat = dl.toNat := by
    rw [BitVec.toNat_setWidth]
    omega
  have hbound : dl.toNat * u.div.toNat < 2 ^ 16 * 2 ^ 8 := Nat.mul_lt_mul'' dl.isLt u.div.isLt
  have hpos := Nat.mul_pos hdl hdiv
  have hproduct : (16 * dl.setWidth 32 * u.div.setWidth 32).toNat =
      16 * dl.toNat * u.div.toNat := by
    rw [product_toNat (by rw [hwide, Nat.mul_assoc]; omega), hwide]
  have htwo : (2 : BitVec 32).toNat = 2 := rfl
  rw [Nat.mul_assoc] at hproduct
  constructor
  · intro hzero
    rw [hzero] at hproduct
    have hzero' : (0 : BitVec 32).toNat = 0 := rfl
    omega
  · rw [baudrateOf, divu_toNat (by omega), hproduct, BitVec.toNat_mul, hget, htwo, Nat.mul_assoc,
      Nat.mod_eq_of_lt (by omega), Nat.mul_comm 2]

/-- A divisor of 16 bits, in terms of the rate. -/
lemma divisor_range (clk : BitVec 32) (hpos : 0 < baud.toNat * u.div.toNat) :
    (1 ≤ roundHalfUp (2 * sysHz clk) (16 * baud.toNat * u.div.toNat) ↔
        4 * (baud.toNat * u.div.toNat) ≤ sysHz clk) ∧
      (roundHalfUp (2 * sysHz clk) (16 * baud.toNat * u.div.toNat) < 2 ^ 16 ↔
        sysHz clk < 524284 * (baud.toNat * u.div.toNat)) := by
  have hassoc : 16 * baud.toNat * u.div.toNat = 16 * (baud.toNat * u.div.toNat) :=
    Nat.mul_assoc _ _ _
  rw [hassoc, le_roundHalfUp_iff (by omega), roundHalfUp_lt_iff (by omega)]
  omega

lemma rateRejected_iff : RateRejected rtcFreq u clk baud ↔ baud = 0 := by
  constructor
  · intro h
    by_contra hbaud
    refine h ⟨baud, uartCfgParityNone, uartCfgStopBits1, uartCfgDataBits8, uartCfgFlowCtrlNone⟩
      rfl ((configure_err_iff _ rtcFreq _).mpr ⟨hbaud, ?_, ?_, Or.inl rfl⟩)
    · exact (by decide : ParityKnown uartCfgParityNone)
    · exact (by decide : DataBitsKnown uartCfgDataBits8)
  · intro hzero cfg hcfg haccepted
    exact ((configure_err_iff _ rtcFreq cfg).mp haccepted).baudrate (hcfg.trans hzero)

/-- In range every step is exact. -/
lemma baudExact_of (h : BaudInRange u clk baud) : BaudExact rtcFreq u clk baud := by
  have hpos : 0 < baud.toNat * u.div.toNat := by
    have := h.le_rate
    omega
  have hassoc : 16 * baud.toNat * u.div.toNat = 16 * (baud.toNat * u.div.toNat) :=
    Nat.mul_assoc _ _ _
  have hfits : 16 * baud.toNat * u.div.toNat < 2 ^ 32 := by
    have := h.rate_le
    have := h.sysHz_fits
    omega
  have hdl : (halUartDl (halClkSysGet rtcFreq (halClkSysSetup u clk)) u.div baud).toNat = _ :=
    halUartDl_toNat h.clkDivider_ne_zero h.sysHz_fits hfits (by omega)
  obtain ⟨hlow, hhigh⟩ := divisor_range clk hpos
  have hpos' := hlow.mpr h.rate_le
  have hlt := hhigh.mpr h.le_rate
  have hstored : (halUartBaudrateSet rtcFreq (halClkSysSetup u clk) baud).dl.toNat =
      roundHalfUp (2 * sysHz clk) (16 * baud.toNat * u.div.toNat) := by
    rw [halUartBaudrateSet, setup_div, BitVec.toNat_setWidth, hdl, Nat.mod_eq_of_lt hlt]
  have hdiv : 0 < u.div.toNat := Nat.pos_of_mul_pos_left hpos
  obtain ⟨hread_pos, hread⟩ := halUartBaudrateGet_toNat rtcFreq baud h.clkDivider_ne_zero
    h.sysHz_fits hdiv (by rw [hstored]; omega)
  refine ⟨?_, ?_, hfits, ?_, ?_, hstored, hread_pos, hread⟩
  · intro hzero
    exact h.clkDivider_ne_zero (by rw [← clkDivField_setup u clk, hzero]; rfl)
  · have := h.sysHz_fits
    omega
  · intro hzero
    have hproduct := product_toNat hfits
    rw [hzero] at hproduct
    have hzero' : (0 : BitVec 32).toNat = 0 := rfl
    omega
  · rw [hstored]
    exact hpos'

/-- An exact divisor is in range. -/
lemma baudInRange_of (h : BaudExact rtcFreq u clk baud) : BaudInRange u clk baud := by
  have hclk : clkDivider clk ≠ 0 := by
    intro hzero
    apply h.clkDivisor
    apply BitVec.eq_of_toNat_eq
    rw [clkDivField_setup, hzero]
    rfl
  have hpos : 0 < baud.toNat * u.div.toNat := by
    have hassoc : 16 * baud.toNat * u.div.toNat = 16 * (baud.toNat * u.div.toNat) :=
      Nat.mul_assoc _ _ _
    have hproduct := product_toNat h.product_fits
    have hne := mt (BitVec.toNat_inj (y := 0)).mp h.product_ne_zero
    have hzero : (0 : BitVec 32).toNat = 0 := rfl
    omega
  obtain ⟨hlow, hhigh⟩ := divisor_range clk hpos
  have hfits := h.dividend_fits
  refine ⟨hclk, by omega, hlow.mp ?_, hhigh.mp ?_⟩
  · rw [← h.dl_eq]
    exact h.dl_pos
  · rw [← h.dl_eq]
    exact BitVec.isLt _

end Divisor

/-- The divisor of a rate is exact exactly if the clock has a divider and the rate
is in range; no rate but 0 is rejected. -/
theorem baudrate_exact_iff (rtcFreq : BitVec 32) (u : Registers) (clk baud : BitVec 32) :
    BaudExact rtcFreq u clk baud ∨ RateRejected rtcFreq u clk baud ↔
      baud = 0 ∨ BaudInRange u clk baud := by
  rw [rateRejected_iff, or_comm]
  exact or_congr_right ⟨baudInRange_of, baudExact_of⟩

/-- 50 baud at 60 MHz need a divisor of 150000, of which 18928 is stored. -/
theorem fifty_baud_truncated :
    (halUartBaudrateSet 32768 (halClkSysSetup ⟨0, 0, 0, 1, 0⟩ 0x48) 50).dl = 18928 ∧
      roundHalfUp (2 * sysHz 0x48) (16 * 50 * 1) = 150000 ∧
      ¬ (BaudExact 32768 ⟨0, 0, 0, 1, 0⟩ 0x48 50 ∨ RateRejected 32768 ⟨0, 0, 0, 1, 0⟩ 0x48 50) := by
  have hdl : (halUartBaudrateSet 32768 (halClkSysSetup ⟨0, 0, 0, 1, 0⟩ 0x48) 50).dl = 18928 := by
    decide +kernel
  have hexact : roundHalfUp (2 * sysHz 0x48) (16 * 50 * 1) = 150000 := by decide +kernel
  refine ⟨hdl, hexact, fun h => ?_⟩
  obtain h | h := h
  · have heq := h.dl_eq
    rw [hdl] at heq
    exact absurd (heq.trans hexact) (by decide)
  · exact absurd (rateRejected_iff.mp h) (by decide)

end WchIotSdk.UartConfigure
