import WchIotSdk.UartConfigure

/-!
# Round trip of a UART configuration

The line control register is seen as four fields that do not overlap. Each
setter writes its own fields, so what the getters of the others report is not
changed by it, and the round trip of a configuration is the round trip of each
part of it. The divisor and the rate read back are said in exact arithmetic, where
no division is by zero.
-/
namespace WchIotSdk.UartConfigure
open RegisterFields

/-- The fields of the line control register. -/
structure LineView where
  parEn : BitVec 8
  parMod : BitVec 8
  stopBit : BitVec 8
  wordSz : BitVec 8

def Registers.line (u : Registers) : LineView :=
  ⟨field rbLcrParEn u.lcr, field uartLcrParModMsk u.lcr, field uartLcrStopBitMsk u.lcr,
    field uartLcrWordSzMsk u.lcr⟩

section Fields

variable (u : Registers)

lemma line_pairtySet (mode : BitVec 8) :
    (halUartPairtySet u mode).line =
      { u.line with
        parEn := field rbLcrParEn rbLcrParEn
        parMod := field uartLcrParModMsk (mode <<< 4) } := by
  have hlcr : (halUartPairtySet u mode).lcr =
      writeField uartLcrParModMsk (writeField rbLcrParEn u.lcr rbLcrParEn) (mode <<< 4) := by
    rw [← or_eq_writeField]
    rfl
  have h1 : Apart rbLcrParEn uartLcrParModMsk := by decide
  have h2 : Apart uartLcrStopBitMsk uartLcrParModMsk := by decide
  have h3 : Apart uartLcrStopBitMsk rbLcrParEn := by decide
  have h4 : Apart uartLcrWordSzMsk uartLcrParModMsk := by decide
  have h5 : Apart uartLcrWordSzMsk rbLcrParEn := by decide
  rw [Registers.line, Registers.line, hlcr, field_writeField, field_writeField_of_apart h1,
    field_writeField, field_writeField_of_apart h2, field_writeField_of_apart h3,
    field_writeField_of_apart h4, field_writeField_of_apart h5]

lemma line_pairtyDisable : (halUartPairtyDisable u).line = { u.line with parEn := 0 } := by
  have hlcr : (halUartPairtyDisable u).lcr = writeField rbLcrParEn u.lcr 0#8 :=
    and_not_eq_writeField _ _
  have h1 : Apart uartLcrParModMsk rbLcrParEn := by decide
  have h2 : Apart uartLcrStopBitMsk rbLcrParEn := by decide
  have h3 : Apart uartLcrWordSzMsk rbLcrParEn := by decide
  rw [Registers.line, Registers.line, hlcr, field_writeField, field_writeField_of_apart h1,
    field_writeField_of_apart h2, field_writeField_of_apart h3]
  rfl

lemma line_stopBitSet (stopBits : BitVec 8) :
    (halUartStopBitSet u stopBits).line =
      { u.line with stopBit := field uartLcrStopBitMsk (stopBits <<< 2) } := by
  have hlcr : (halUartStopBitSet u stopBits).lcr =
      writeField uartLcrStopBitMsk u.lcr (stopBits <<< 2) := rfl
  have h1 : Apart rbLcrParEn uartLcrStopBitMsk := by decide
  have h2 : Apart uartLcrParModMsk uartLcrStopBitMsk := by decide
  have h3 : Apart uartLcrWordSzMsk uartLcrStopBitMsk := by decide
  rw [Registers.line, Registers.line, hlcr, field_writeField, field_writeField_of_apart h1,
    field_writeField_of_apart h2, field_writeField_of_apart h3]

lemma line_wordSizeSet (wordSz : BitVec 8) :
    (halUartWordSizeSet u wordSz).line =
      { u.line with wordSz := field uartLcrWordSzMsk (wordSz <<< 0) } := by
  have hlcr : (halUartWordSizeSet u wordSz).lcr =
      writeField uartLcrWordSzMsk u.lcr (wordSz <<< 0) := rfl
  have h1 : Apart rbLcrParEn uartLcrWordSzMsk := by decide
  have h2 : Apart uartLcrParModMsk uartLcrWordSzMsk := by decide
  have h3 : Apart uartLcrStopBitMsk uartLcrWordSzMsk := by decide
  rw [Registers.line, Registers.line, hlcr, field_writeField, field_writeField_of_apart h1,
    field_writeField_of_apart h2, field_writeField_of_apart h3]

/-- What the getters see. -/
lemma pairtyIsEnabled_eq : halUartPairtyIsEnabled u = u.line.parEn := rfl
lemma pairtyGet_eq : halUartPairtyGet u = u.line.parMod >>> 4 := rfl
lemma stopBitGet_eq : halUartStopBitGet u = u.line.stopBit >>> 2 := rfl
lemma wordSizeGet_eq : halUartWordSizeGet u = u.line.wordSz >>> 0 := rfl

end Fields

section Parts

variable {u : Registers} {v : BitVec 8}

/-- The parities, stop bits and data bits that are translated. -/
def ParityKnown (v : BitVec 8) : Prop := v ≤ uartCfgParitySpace
def StopBitsKnown (v : BitVec 8) : Prop := v = uartCfgStopBits1 ∨ v = uartCfgStopBits2
def DataBitsKnown (v : BitVec 8) : Prop := v ≤ uartCfgDataBits8

instance (v : BitVec 8) : Decidable (ParityKnown v) := inferInstanceAs (Decidable (_ ≤ _))
instance (v : BitVec 8) : Decidable (StopBitsKnown v) := inferInstanceAs (Decidable (_ ∨ _))
instance (v : BitVec 8) : Decidable (DataBitsKnown v) := inferInstanceAs (Decidable (_ ≤ _))

/-- What the configuration of the line leaves alone. -/
structure KeepsRest (u u' : Registers) : Prop where
  ier : u'.ier = u.ier
  dl : u'.dl = u.dl
  div : u'.div = u.div
  clkSysCfg : u'.clkSysCfg = u.clkSysCfg

lemma KeepsRest.trans {u u' u'' : Registers} (h : KeepsRest u u') (h' : KeepsRest u' u'') :
    KeepsRest u u'' :=
  ⟨h'.ier.trans h.ier, h'.dl.trans h.dl, h'.div.trans h.div, h'.clkSysCfg.trans h.clkSysCfg⟩

/-- The getters report what is in their fields. -/
lemma getPairty_congr {u u' : Registers} (hen : u'.line.parEn = u.line.parEn)
    (hmod : u'.line.parMod = u.line.parMod) : uartWchGetPairty u' = uartWchGetPairty u := by
  rw [uartWchGetPairty, uartWchGetPairty, pairtyIsEnabled_eq, pairtyIsEnabled_eq, pairtyGet_eq,
    pairtyGet_eq, hen, hmod]

lemma getStopBits_congr {u u' : Registers} (h : u'.line.stopBit = u.line.stopBit) :
    uartWchGetStopBits u' = uartWchGetStopBits u := by
  rw [uartWchGetStopBits, uartWchGetStopBits, stopBitGet_eq, stopBitGet_eq, h]

lemma getDataBits_congr {u u' : Registers} (h : u'.line.wordSz = u.line.wordSz) :
    uartWchGetDataBits u' = uartWchGetDataBits u := by
  rw [uartWchGetDataBits, uartWchGetDataBits, wordSizeGet_eq, wordSizeGet_eq, h]

/-- Parity: translated if known, reported as it was set, in its own fields. -/
lemma setPairty_spec (u : Registers) (h : ParityKnown v) :
    (uartWchSetPairty u v).2 = 0 ∧ uartWchGetPairty (uartWchSetPairty u v).1 = .ok v ∧
      (uartWchSetPairty u v).1.line.stopBit = u.line.stopBit ∧
      (uartWchSetPairty u v).1.line.wordSz = u.line.wordSz ∧
      KeepsRest u (uartWchSetPairty u v).1 := by
  have hcases : ∀ v : BitVec 8, ParityKnown v → v = 0 ∨ v = 1 ∨ v = 2 ∨ v = 3 ∨ v = 4 := by
    decide
  have hset (mode : BitVec 8) : (halUartPairtySet u mode).line.stopBit = u.line.stopBit ∧
      (halUartPairtySet u mode).line.wordSz = u.line.wordSz ∧
      KeepsRest u (halUartPairtySet u mode) := by
    rw [line_pairtySet]
    exact ⟨rfl, rfl, rfl, rfl, rfl, rfl⟩
  have hget (mode : BitVec 8) : uartWchGetPairty (halUartPairtySet u mode) =
      uartWchGetPairty (halUartPairtySet ⟨0, 0, 0, 0, 0⟩ mode) := by
    apply getPairty_congr
    · rw [line_pairtySet, line_pairtySet]
    · rw [line_pairtySet, line_pairtySet]
  rcases hcases v h with rfl | rfl | rfl | rfl | rfl
  · refine ⟨rfl, ?_, ?_⟩
    · show uartWchGetPairty (halUartPairtyDisable u) = _
      rw [uartWchGetPairty, pairtyIsEnabled_eq, line_pairtyDisable]
      rfl
    · show (halUartPairtyDisable u).line.stopBit = _ ∧ (halUartPairtyDisable u).line.wordSz = _ ∧
        KeepsRest u (halUartPairtyDisable u)
      rw [line_pairtyDisable]
      exact ⟨rfl, rfl, rfl, rfl, rfl, rfl⟩
  · exact ⟨rfl, (hget uartParityOdd).trans rfl, hset uartParityOdd⟩
  · exact ⟨rfl, (hget uartParityEven).trans rfl, hset uartParityEven⟩
  · exact ⟨rfl, (hget uartParityMark).trans rfl, hset uartParityMark⟩
  · exact ⟨rfl, (hget uartParitySpace).trans rfl, hset uartParitySpace⟩

/-- Six bits are reported for all but five. -/
def reportedDataBits (v : BitVec 8) : BitVec 8 :=
  if v = uartCfgDataBits5 then uartCfgDataBits5 else uartCfgDataBits6

lemma setDataBits_spec (u : Registers) (h : DataBitsKnown v) :
    (uartWchSetDataBits u v).2 = 0 ∧
      uartWchGetDataBits (uartWchSetDataBits u v).1 = .ok (reportedDataBits v) ∧
      (uartWchSetDataBits u v).1.line.parEn = u.line.parEn ∧
      (uartWchSetDataBits u v).1.line.parMod = u.line.parMod ∧
      (uartWchSetDataBits u v).1.line.stopBit = u.line.stopBit ∧
      KeepsRest u (uartWchSetDataBits u v).1 := by
  have hcases : ∀ v : BitVec 8, DataBitsKnown v → v = 0 ∨ v = 1 ∨ v = 2 ∨ v = 3 := by
    decide
  have hset (wordSz : BitVec 8) : (halUartWordSizeSet u wordSz).line.parEn = u.line.parEn ∧
      (halUartWordSizeSet u wordSz).line.parMod = u.line.parMod ∧
      (halUartWordSizeSet u wordSz).line.stopBit = u.line.stopBit ∧
      KeepsRest u (halUartWordSizeSet u wordSz) := by
    rw [line_wordSizeSet]
    exact ⟨rfl, rfl, rfl, rfl, rfl, rfl, rfl⟩
  have hget (wordSz : BitVec 8) : uartWchGetDataBits (halUartWordSizeSet u wordSz) =
      uartWchGetDataBits (halUartWordSizeSet ⟨0, 0, 0, 0, 0⟩ wordSz) := by
    apply getDataBits_congr
    rw [line_wordSizeSet, line_wordSizeSet]
  rcases hcases v h with rfl | rfl | rfl | rfl
  · exact ⟨rfl, (hget uartData5Bits).trans rfl, hset uartData5Bits⟩
  · exact ⟨rfl, (hget uartData6Bits).trans rfl, hset uartData6Bits⟩
  · exact ⟨rfl, (hget uartData7Bits).trans rfl, hset uartData7Bits⟩
  · exact ⟨rfl, (hget uartData8Bits).trans rfl, hset uartData8Bits⟩

lemma setStopBits_spec (u : Registers) (h : StopBitsKnown v) :
    (uartWchSetStopBits u v).2 = 0 ∧
      uartWchGetStopBits (uartWchSetStopBits u v).1 = .ok v ∧
      (uartWchSetStopBits u v).1.line.parEn = u.line.parEn ∧
      (uartWchSetStopBits u v).1.line.parMod = u.line.parMod ∧
      (uartWchSetStopBits u v).1.line.wordSz = u.line.wordSz ∧
      KeepsRest u (uartWchSetStopBits u v).1 := by
  have hset (stopBits : BitVec 8) : (halUartStopBitSet u stopBits).line.parEn = u.line.parEn ∧
      (halUartStopBitSet u stopBits).line.parMod = u.line.parMod ∧
      (halUartStopBitSet u stopBits).line.wordSz = u.line.wordSz ∧
      KeepsRest u (halUartStopBitSet u stopBits) := by
    rw [line_stopBitSet]
    exact ⟨rfl, rfl, rfl, rfl, rfl, rfl, rfl⟩
  have hget (stopBits : BitVec 8) : uartWchGetStopBits (halUartStopBitSet u stopBits) =
      uartWchGetStopBits (halUartStopBitSet ⟨0, 0, 0, 0, 0⟩ stopBits) := by
    apply getStopBits_congr
    rw [line_stopBitSet, line_stopBitSet]
  rcases h with rfl | rfl
  · exact ⟨rfl, (hget uartStopBits1).trans rfl, hset uartStopBits1⟩
  · exact ⟨rfl, (hget uartStopBits2).trans rfl, hset uartStopBits2⟩

/-- Flow control: reported as on or off, by a bit that the other writes to the
same register leave alone. -/
lemma setFlowCtrl_spec (u : Registers) (v : BitVec 8) :
    (uartWchSetFlowCtrl u v).2 = 0 ∧
      uartWchGetFlowCtrl (uartWchSetFlowCtrl u v).1 = .ok (if v = 0 then 0 else 1) ∧
      (uartWchSetFlowCtrl u v).1.line = u.line ∧ (uartWchSetFlowCtrl u v).1.dl = u.dl ∧
      (uartWchSetFlowCtrl u v).1.div = u.div ∧
      (uartWchSetFlowCtrl u v).1.clkSysCfg = u.clkSysCfg := by
  have hon : ∀ ier : BitVec 8,
      (ier ||| rbMcrAuFlowEn ||| rbIerRtsEn ||| rbMcrRts) &&& rbMcrAuFlowEn ≠ 0 := by decide
  have hoff : ∀ ier : BitVec 8,
      ((ier &&& ~~~rbMcrAuFlowEn) &&& ~~~rbMcrRts &&& ~~~rbIerRtsEn) &&& rbMcrAuFlowEn = 0 := by
    decide
  by_cases hv : v = 0
  · have hset : uartWchSetFlowCtrl u v = (halUart0ModemRtsDisable (halUart0ModemRstSetHigh
        (halUart0ModemAutoflowDisable u)), 0) := if_neg (not_not.mpr hv)
    rw [hset, if_pos hv]
    refine ⟨rfl, ?_, rfl, rfl, rfl, rfl⟩
    exact if_neg (not_not.mpr (hoff u.ier))
  · have hset : uartWchSetFlowCtrl u v = (halUart0ModemRstSetLow (halUart0ModemRtsEnable
        (halUart0ModemAutoflowEnable u)), 0) := if_pos hv
    rw [hset, if_neg hv]
    refine ⟨rfl, ?_, rfl, rfl, rfl, rfl⟩
    exact if_pos (hon u.ier)

end Parts

/-- The frequency that is divided, in Hz, and its divider. -/
def Registers.clkSource (u : Registers) : ℕ :=
  if u.clkSysCfg.toNat / 64 % 4 = 1 then 480000000 else 32000000

def Registers.clkDivider (u : Registers) : ℕ := u.clkSysCfg.toNat % 32

/-- The system frequency. Divided by zero, it is all ones to the processor. -/
def Registers.sysHz (u : Registers) : ℕ :=
  if u.clkDivider = 0 then 2 ^ 32 - 1 else u.clkSource / u.clkDivider

/-- The divisor for a rate: 2 * `sys` / (16 * `baud` * `div`) rounded, by a division
of ten times the dividend, in 32 bits, and then kept in 16. -/
def roundedDl (sys div baud : ℕ) : ℕ :=
  (20 * sys % 2 ^ 32 / (16 * baud * div % 2 ^ 32) + 5) / 10 % 2 ^ 16

section Rate

lemma divu_toNat {a b : BitVec 32} (hb : b.toNat ≠ 0) : (divu a b).toNat = a.toNat / b.toNat := by
  have hne : b ≠ 0#32 := by
    intro h
    rw [h] at hb
    exact hb rfl
  rw [divu, BitVec.smtUDiv_eq, if_neg hne, BitVec.toNat_udiv]

lemma divu_zero_toNat {a b : BitVec 32} (hb : b.toNat = 0) : (divu a b).toNat = 2 ^ 32 - 1 := by
  have hzero : b = 0#32 := BitVec.eq_of_toNat_eq hb
  rw [divu, BitVec.smtUDiv_eq, if_pos hzero, BitVec.toNat_allOnes]

lemma product_toNat_mod (x : BitVec 32) (div : BitVec 8) :
    (16 * x * div.setWidth 32).toNat = 16 * x.toNat * div.toNat % 2 ^ 32 := by
  have hsixteen : (16 : BitVec 32).toNat = 16 := rfl
  have hdiv : (div.setWidth 32).toNat = div.toNat := by
    rw [BitVec.toNat_setWidth]
    omega
  rw [BitVec.toNat_mul, BitVec.toNat_mul, hsixteen, hdiv, Nat.mod_mul_mod]

lemma product_toNat {x : BitVec 32} {div : BitVec 8} (h : 16 * x.toNat * div.toNat < 2 ^ 32) :
    (16 * x * div.setWidth 32).toNat = 16 * x.toNat * div.toNat := by
  rw [product_toNat_mod, Nat.mod_eq_of_lt h]

/-- The two bits of the mode and the five of the divider. -/
theorem halClkSysGet_toNat (configSocRtcFreq : BitVec 32) (u : Registers) :
    (halClkSysGet configSocRtcFreq u).toNat = u.sysHz := by
  have hfields : ∀ reg : BitVec 8, (reg &&& 0xc0) >>> 6 ≠ 0x11 ∧
      ((reg &&& 0xc0) >>> 6 = 0x01 ↔ reg.toNat / 64 % 4 = 1) ∧
      ((reg &&& 0x1f).setWidth 32).toNat = reg.toNat % 32 := by decide +kernel
  obtain ⟨h32k, hpll, hdiv⟩ := hfields (u.clkSysCfg.setWidth 8)
  have hlow : (u.clkSysCfg.setWidth 8).toNat = u.clkSysCfg.toNat % 256 := by
    rw [BitVec.toNat_setWidth]
  have hmode : (u.clkSysCfg.setWidth 8).toNat / 64 % 4 = u.clkSysCfg.toNat / 64 % 4 := by omega
  have hdivider : (((u.clkSysCfg.setWidth 8) &&& 0x1f).setWidth 32).toNat = u.clkDivider := by
    rw [hdiv, Registers.clkDivider]
    omega
  have hquotient (source : BitVec 32) :
      (divu source (((u.clkSysCfg.setWidth 8) &&& 0x1f).setWidth 32)).toNat =
        if u.clkDivider = 0 then 2 ^ 32 - 1 else source.toNat / u.clkDivider := by
    by_cases hzero : u.clkDivider = 0
    · rw [if_pos hzero, divu_zero_toNat (hdivider.trans hzero)]
    · rw [if_neg hzero, divu_toNat (by rwa [hdivider]), hdivider]
  rw [hmode] at hpll
  rw [halClkSysGet, Registers.sysHz, Registers.clkSource, if_neg h32k]
  by_cases hmod : u.clkSysCfg.toNat / 64 % 4 = 1
  · rw [if_pos (hpll.mpr hmod), if_pos hmod, hquotient]
    rfl
  · rw [if_neg (mt hpll.mp hmod), if_neg hmod, hquotient]
    rfl

lemma sysHz_le {u : Registers} (h : u.clkDivider ≠ 0) : u.sysHz ≤ 480000000 := by
  rw [Registers.sysHz, if_neg h]
  refine le_trans (Nat.div_le_self _ _) ?_
  rw [Registers.clkSource]
  split_ifs <;> norm_num

/-- The divisor in arithmetic. A dividend over zero is all ones, and wraps to a
divisor of zero. -/
lemma halUartDl_setWidth_toNat (sys : BitVec 32) (div : BitVec 8) (baud : BitVec 32) :
    ((halUartDl sys div baud).setWidth 16).toNat =
      roundedDl sys.toNat div.toNat baud.toNat := by
  have hten : (10 : BitVec 32).toNat = 10 := rfl
  have htwo : (2 : BitVec 32).toNat = 2 := rfl
  have hfive : (5 : BitVec 32).toNat = 5 := rfl
  have hdividend : (10 * sys * 2).toNat = 20 * sys.toNat % 2 ^ 32 := by
    rw [BitVec.toNat_mul, BitVec.toNat_mul, hten, htwo]
    omega
  have hproduct := product_toNat_mod baud div
  have hsixteen : 16 ∣ 16 * baud.toNat * div.toNat % 2 ^ 32 := by
    rw [Nat.mul_assoc]
    omega
  have hsum : (divu (10 * sys * 2) (16 * baud * div.setWidth 32) + 5).toNat / 10 =
      (20 * sys.toNat % 2 ^ 32 / (16 * baud.toNat * div.toNat % 2 ^ 32) + 5) / 10 := by
    rw [BitVec.toNat_add, hfive]
    by_cases hzero : 16 * baud.toNat * div.toNat % 2 ^ 32 = 0
    · rw [divu_zero_toNat (hproduct.trans hzero), hzero, Nat.div_zero]
      norm_num
    · have hle : 20 * sys.toNat % 2 ^ 32 / (16 * baud.toNat * div.toNat % 2 ^ 32) ≤
          20 * sys.toNat % 2 ^ 32 / 16 :=
        Nat.div_le_div_left (Nat.le_of_dvd (by omega) hsixteen) (by norm_num)
      rw [divu_toNat (by rwa [hproduct]), hproduct, hdividend]
      generalize 20 * sys.toNat % 2 ^ 32 / (16 * baud.toNat * div.toNat % 2 ^ 32) = q at hle ⊢
      congr 1
      omega
  rw [BitVec.toNat_setWidth, halUartDl, divu_toNat (by rw [hten]; norm_num), hten, hsum, roundedDl]

/-- Reading back overflows for no divisor. -/
lemma baudrateOf_toNat {sys : BitVec 32} {div : BitVec 8} {dl : BitVec 16}
    (hsys : sys.toNat < 2 ^ 31) (hdiv : div.toNat ≠ 0) (hdl : dl.toNat ≠ 0) :
    (baudrateOf sys div dl).toNat = 2 * sys.toNat / (16 * dl.toNat * div.toNat) := by
  have htwo : (2 : BitVec 32).toNat = 2 := rfl
  have hwide : (dl.setWidth 32).toNat = dl.toNat := by
    rw [BitVec.toNat_setWidth]
    omega
  have hbound : dl.toNat * div.toNat < 2 ^ 16 * 2 ^ 8 := Nat.mul_lt_mul'' dl.isLt div.isLt
  have hpos := Nat.mul_pos (Nat.pos_of_ne_zero hdl) (Nat.pos_of_ne_zero hdiv)
  have hproduct : (16 * dl.setWidth 32 * div.setWidth 32).toNat =
      16 * dl.toNat * div.toNat := by
    rw [product_toNat (by rw [hwide, Nat.mul_assoc]; omega), hwide]
  rw [baudrateOf, divu_toNat (by rw [hproduct, Nat.mul_assoc]; omega), hproduct, BitVec.toNat_mul,
    htwo, Nat.mod_eq_of_lt (by omega), Nat.mul_comm 2]

end Rate

section RoundTrip

variable (u : Registers) (configSocRtcFreq : BitVec 32) (cfg : UartConfig)

lemma einval_ne : -einval ≠ 0 := by decide
lemma enosys_ne : -enosys ≠ 0 := by decide
lemma enotsup_ne : -enotsup ≠ 0 := by decide

/-- A value that is not translated is refused. -/
lemma setPairty_err_iff {v : BitVec 8} : (uartWchSetPairty u v).2 = 0 ↔ ParityKnown v := by
  constructor
  · intro h
    by_contra hv
    have hne : ∀ v : BitVec 8, ¬ParityKnown v → v ≠ uartCfgParityNone ∧ v ≠ uartCfgParityOdd ∧
        v ≠ uartCfgParityEven ∧ v ≠ uartCfgParityMark ∧ v ≠ uartCfgParitySpace := by decide
    obtain ⟨hnone, hodd, heven, hmark, hspace⟩ := hne v hv
    rw [uartWchSetPairty, if_neg hnone, if_neg hodd, if_neg heven, if_neg hmark,
      if_neg hspace] at h
    exact einval_ne h
  · intro hv
    exact (setPairty_spec u hv).1

lemma setDataBits_err_iff {v : BitVec 8} :
    (uartWchSetDataBits u v).2 = 0 ↔ DataBitsKnown v := by
  constructor
  · intro h
    by_contra hv
    have hne : ∀ v : BitVec 8, ¬DataBitsKnown v → v ≠ uartCfgDataBits5 ∧
        v ≠ uartCfgDataBits6 ∧ v ≠ uartCfgDataBits7 ∧ v ≠ uartCfgDataBits8 := by decide
    obtain ⟨h5, h6, h7, h8⟩ := hne v hv
    rw [uartWchSetDataBits, if_neg h5, if_neg h6, if_neg h7, if_neg h8] at h
    by_cases h9 : v = uartCfgDataBits9
    · rw [if_pos h9] at h
      exact enosys_ne h
    · rw [if_neg h9] at h
      exact einval_ne h
  · intro hv
    exact (setDataBits_spec u hv).1

lemma setStopBits_err_iff {v : BitVec 8} :
    (uartWchSetStopBits u v).2 = 0 ↔ StopBitsKnown v := by
  constructor
  · intro h
    by_contra hv
    obtain ⟨h1, h2⟩ := not_or.mp hv
    rw [uartWchSetStopBits, if_neg h1, if_neg h2] at h
    by_cases hhalf : v = uartCfgStopBits05 ∨ v = uartCfgStopBits15
    · rw [if_pos hhalf] at h
      exact enotsup_ne h
    · rw [if_neg hhalf] at h
      exact einval_ne h
  · intro hv
    exact (setStopBits_spec u hv).1

/-- The configurations that are accepted. -/
structure Accepted (cfg : UartConfig) : Prop where
  baudrate : cfg.baudrate ≠ 0
  parity : ParityKnown cfg.parity
  dataBits : DataBitsKnown cfg.dataBits
  stopBits : StopBitsKnown cfg.stopBits

/-- What an accepted configuration does, setter by setter. -/
lemma configure_eq (h : Accepted cfg) :
    uartWchConfigure u configSocRtcFreq cfg =
      uartWchSetFlowCtrl (uartWchSetStopBits (uartWchSetDataBits (uartWchSetPairty
        (halUartBaudrateSet configSocRtcFreq u cfg.baudrate) cfg.parity).1 cfg.dataBits).1
          cfg.stopBits).1 cfg.dataBits := by
  have hparity := (setPairty_err_iff (halUartBaudrateSet configSocRtcFreq u cfg.baudrate)).mpr
    h.parity
  have hdata := (setDataBits_err_iff (uartWchSetPairty
    (halUartBaudrateSet configSocRtcFreq u cfg.baudrate) cfg.parity).1).mpr h.dataBits
  have hstop := (setStopBits_err_iff (uartWchSetDataBits (uartWchSetPairty
    (halUartBaudrateSet configSocRtcFreq u cfg.baudrate) cfg.parity).1 cfg.dataBits).1).mpr
      h.stopBits
  have hflow := (setFlowCtrl_spec (uartWchSetStopBits (uartWchSetDataBits (uartWchSetPairty
    (halUartBaudrateSet configSocRtcFreq u cfg.baudrate) cfg.parity).1 cfg.dataBits).1
      cfg.stopBits).1 cfg.dataBits).1
  rw [uartWchConfigure, if_neg h.baudrate]
  dsimp only
  rw [if_neg (not_not.mpr hparity), if_neg (not_not.mpr hdata), if_neg (not_not.mpr hstop),
    if_neg (not_not.mpr hflow)]
  exact Prod.ext rfl hflow.symm

theorem configure_err_iff : (uartWchConfigure u configSocRtcFreq cfg).2 = 0 ↔ Accepted cfg := by
  constructor
  · intro h
    have hbaud : cfg.baudrate ≠ 0 := by
      intro hzero
      rw [uartWchConfigure, if_pos hzero] at h
      exact einval_ne h
    rw [uartWchConfigure, if_neg hbaud] at h
    dsimp only at h
    by_cases hparity : (uartWchSetPairty (halUartBaudrateSet configSocRtcFreq u cfg.baudrate)
        cfg.parity).2 = 0
    swap
    · rw [if_pos hparity] at h
      exact absurd h hparity
    rw [if_neg (not_not.mpr hparity)] at h
    by_cases hdata : (uartWchSetDataBits (uartWchSetPairty
        (halUartBaudrateSet configSocRtcFreq u cfg.baudrate) cfg.parity).1 cfg.dataBits).2 = 0
    swap
    · rw [if_pos hdata] at h
      exact absurd h hdata
    rw [if_neg (not_not.mpr hdata)] at h
    by_cases hstop : (uartWchSetStopBits (uartWchSetDataBits (uartWchSetPairty
        (halUartBaudrateSet configSocRtcFreq u cfg.baudrate) cfg.parity).1 cfg.dataBits).1
          cfg.stopBits).2 = 0
    swap
    · rw [if_pos hstop] at h
      exact absurd h hstop
    exact ⟨hbaud, (setPairty_err_iff _).mp hparity, (setDataBits_err_iff _).mp hdata,
      (setStopBits_err_iff _).mp hstop⟩
  · intro h
    rw [configure_eq u configSocRtcFreq cfg h]
    exact (setFlowCtrl_spec _ _).1

/-- The divisor that a baud rate is programmed as. -/
def programmedDl : BitVec 16 :=
  (halUartDl (halClkSysGet configSocRtcFreq u) u.div cfg.baudrate).setWidth 16

/-- The divisor, and the registers that an accepted configuration leaves alone. -/
lemma configure_rest (h : Accepted cfg) :
    (uartWchConfigure u configSocRtcFreq cfg).1.dl = programmedDl u configSocRtcFreq cfg ∧
      (uartWchConfigure u configSocRtcFreq cfg).1.div = u.div ∧
      (uartWchConfigure u configSocRtcFreq cfg).1.clkSysCfg = u.clkSysCfg := by
  rw [configure_eq u configSocRtcFreq cfg h]
  let u₁ := halUartBaudrateSet configSocRtcFreq u cfg.baudrate
  let u₂ := (uartWchSetPairty u₁ cfg.parity).1
  let u₃ := (uartWchSetDataBits u₂ cfg.dataBits).1
  let u₄ := (uartWchSetStopBits u₃ cfg.stopBits).1
  obtain ⟨-, -, -, -, hkeep₂⟩ := setPairty_spec u₁ h.parity
  obtain ⟨-, -, -, -, -, hkeep₃⟩ := setDataBits_spec u₂ h.dataBits
  obtain ⟨-, -, -, -, -, hkeep₄⟩ := setStopBits_spec u₃ h.stopBits
  obtain ⟨-, -, -, hdl₅, hdiv₅, hclk₅⟩ := setFlowCtrl_spec u₄ cfg.dataBits
  have hkeep : KeepsRest u₁ u₄ := (hkeep₂.trans hkeep₃).trans hkeep₄
  exact ⟨hdl₅.trans hkeep.dl, hdiv₅.trans hkeep.div, hclk₅.trans hkeep.clkSysCfg⟩

/-- What is read back after a configuration that was accepted. -/
theorem configureGet_configure (h : Accepted cfg) :
    uartWchConfigureGet (uartWchConfigure u configSocRtcFreq cfg).1 configSocRtcFreq =
      .ok ⟨halUartBaudrateGet configSocRtcFreq (uartWchConfigure u configSocRtcFreq cfg).1,
        cfg.parity, cfg.stopBits, reportedDataBits cfg.dataBits,
        if cfg.dataBits = uartCfgDataBits5 then uartCfgFlowCtrlNone else uartCfgFlowCtrlRtsCts⟩ := by
  rw [configure_eq u configSocRtcFreq cfg h]
  let u₁ := halUartBaudrateSet configSocRtcFreq u cfg.baudrate
  let u₂ := (uartWchSetPairty u₁ cfg.parity).1
  let u₃ := (uartWchSetDataBits u₂ cfg.dataBits).1
  let u₄ := (uartWchSetStopBits u₃ cfg.stopBits).1
  let u₅ := (uartWchSetFlowCtrl u₄ cfg.dataBits).1
  show uartWchConfigureGet u₅ configSocRtcFreq = _
  obtain ⟨-, hparity, -, -, -⟩ := setPairty_spec u₁ h.parity
  obtain ⟨-, hdata, hen₃, hmod₃, -, -⟩ := setDataBits_spec u₂ h.dataBits
  obtain ⟨-, hstop, hen₄, hmod₄, hword₄, -⟩ := setStopBits_spec u₃ h.stopBits
  obtain ⟨-, hflow, hline₅, -, -, -⟩ := setFlowCtrl_spec u₄ cfg.dataBits
  have hgetParity : uartWchGetPairty u₅ = .ok cfg.parity := by
    have hen : u₅.line.parEn = u₂.line.parEn := by rw [hline₅, hen₄, hen₃]
    have hmod : u₅.line.parMod = u₂.line.parMod := by rw [hline₅, hmod₄, hmod₃]
    rw [getPairty_congr hen hmod, hparity]
  have hgetData : uartWchGetDataBits u₅ = .ok (reportedDataBits cfg.dataBits) := by
    have hword : u₅.line.wordSz = u₃.line.wordSz := by rw [hline₅, hword₄]
    rw [getDataBits_congr hword, hdata]
  have hgetStop : uartWchGetStopBits u₅ = .ok cfg.stopBits := by
    have hbit : u₅.line.stopBit = u₄.line.stopBit := by rw [hline₅]
    rw [getStopBits_congr hbit, hstop]
  rw [uartWchConfigureGet, hgetData, hgetParity, hgetStop, hflow]
  rfl

/-- The rate is the one that the divisor in the registers makes of the clock, and
no division on the way is by zero. -/
structure RateOf (u : Registers) (baudrate : BitVec 32) : Prop where
  clkDivider : u.clkDivider ≠ 0
  div : u.div.toNat ≠ 0
  dl : u.dl.toNat ≠ 0
  exact : baudrate.toNat = 2 * u.sysHz / (16 * u.dl.toNat * u.div.toNat)

/-- The round trip of a configuration, as far as it is accepted: the divisor is
programmed from the requested rate, and read back are the settings of the line and
the rate of the divisor. -/
def RoundTrip : Prop :=
  (uartWchConfigure u configSocRtcFreq cfg).2 = 0 →
    (uartWchConfigure u configSocRtcFreq cfg).1.dl.toNat =
        roundedDl u.sysHz u.div.toNat cfg.baudrate.toNat ∧
    ∃ got, uartWchConfigureGet (uartWchConfigure u configSocRtcFreq cfg).1 configSocRtcFreq =
        .ok got ∧
      got.parity = cfg.parity ∧ got.dataBits = cfg.dataBits ∧ got.stopBits = cfg.stopBits ∧
      got.flowCtrl = cfg.flowCtrl ∧
      RateOf (uartWchConfigure u configSocRtcFreq cfg).1 got.baudrate

/-- The settings that are read back as they were set: five data bits without flow
control, and six with it. -/
def LineAgrees (cfg : UartConfig) : Prop :=
  (cfg.dataBits = uartCfgDataBits5 ∧ cfg.flowCtrl = uartCfgFlowCtrlNone) ∨
    (cfg.dataBits = uartCfgDataBits6 ∧ cfg.flowCtrl = uartCfgFlowCtrlRtsCts)

lemma programmedDl_toNat : (programmedDl u configSocRtcFreq cfg).toNat =
    roundedDl u.sysHz u.div.toNat cfg.baudrate.toNat := by
  rw [programmedDl, halUartDl_setWidth_toNat, halClkSysGet_toNat]

variable {u configSocRtcFreq cfg}

lemma lineAgrees_iff (cfg : UartConfig) : LineAgrees cfg ↔
    reportedDataBits cfg.dataBits = cfg.dataBits ∧
      (if cfg.dataBits = uartCfgDataBits5 then uartCfgFlowCtrlNone else uartCfgFlowCtrlRtsCts) =
        cfg.flowCtrl := by
  constructor
  · rintro (⟨hdata, hflow⟩ | ⟨hdata, hflow⟩)
    · rw [hdata, hflow]
      exact ⟨rfl, rfl⟩
    · rw [hdata, hflow]
      exact ⟨rfl, rfl⟩
  · rintro ⟨hdata, hflow⟩
    by_cases hfive : cfg.dataBits = uartCfgDataBits5
    · rw [if_pos hfive] at hflow
      exact Or.inl ⟨hfive, hflow.symm⟩
    · rw [reportedDataBits, if_neg hfive] at hdata
      rw [if_neg hfive] at hflow
      exact Or.inr ⟨hdata.symm, hflow.symm⟩

/-- The rate that is read back, with nothing but nonzero divisors asked for. -/
lemma rateOf_configure_iff (h : Accepted cfg) :
    RateOf (uartWchConfigure u configSocRtcFreq cfg).1
        (halUartBaudrateGet configSocRtcFreq (uartWchConfigure u configSocRtcFreq cfg).1) ↔
      u.clkDivider ≠ 0 ∧ u.div ≠ 0 ∧ roundedDl u.sysHz u.div.toNat cfg.baudrate.toNat ≠ 0 := by
  obtain ⟨hdl, hdiv, hclk⟩ := configure_rest u configSocRtcFreq cfg h
  have hdivider : (uartWchConfigure u configSocRtcFreq cfg).1.clkDivider = u.clkDivider := by
    rw [Registers.clkDivider, hclk, Registers.clkDivider]
  have hprogrammed := programmedDl_toNat u configSocRtcFreq cfg
  have hzero : u.div.toNat ≠ 0 ↔ u.div ≠ 0 := not_congr (BitVec.toNat_inj (y := 0))
  constructor
  · rintro ⟨hne, hdivne, hdlne, -⟩
    rw [hdivider] at hne
    rw [hdiv] at hdivne
    rw [hdl, hprogrammed] at hdlne
    exact ⟨hne, hzero.mp hdivne, hdlne⟩
  · rintro ⟨hne, hdivne, hdlne⟩
    have hdivne' : (uartWchConfigure u configSocRtcFreq cfg).1.div.toNat ≠ 0 := by
      rw [hdiv]
      exact hzero.mpr hdivne
    have hdlne' : (uartWchConfigure u configSocRtcFreq cfg).1.dl.toNat ≠ 0 := by
      rwa [hdl, hprogrammed]
    have hne' : (uartWchConfigure u configSocRtcFreq cfg).1.clkDivider ≠ 0 := by rwa [hdivider]
    refine ⟨hne', hdivne', hdlne', ?_⟩
    have hsys := halClkSysGet_toNat configSocRtcFreq (uartWchConfigure u configSocRtcFreq cfg).1
    have hle := sysHz_le hne'
    rw [halUartBaudrateGet, baudrateOf_toNat (by omega) hdivne' hdlne', hsys]

/-- Data bits are reported as they were set for five and six, and flow control as off
for five and as on for the others; the rate is right unless the clock divider, the
divider of the UART or the rounded divisor is zero. -/
theorem configure_roundTrip_iff (u : Registers) (configSocRtcFreq : BitVec 32)
    (cfg : UartConfig) :
    RoundTrip u configSocRtcFreq cfg ↔
      (Accepted cfg → LineAgrees cfg ∧ u.clkDivider ≠ 0 ∧ u.div ≠ 0 ∧
        roundedDl u.sysHz u.div.toNat cfg.baudrate.toNat ≠ 0) := by
  rw [RoundTrip, configure_err_iff]
  apply imp_congr_right
  intro haccepted
  have hdl : (uartWchConfigure u configSocRtcFreq cfg).1.dl.toNat =
      roundedDl u.sysHz u.div.toNat cfg.baudrate.toNat := by
    rw [(configure_rest u configSocRtcFreq cfg haccepted).1, programmedDl_toNat]
  rw [and_iff_right hdl, configureGet_configure u configSocRtcFreq cfg haccepted,
    lineAgrees_iff, ← @rateOf_configure_iff u configSocRtcFreq cfg haccepted]
  constructor
  · rintro ⟨got, hgot, -, hdata, -, hflow, hrate⟩
    obtain rfl := Except.ok.inj hgot
    exact ⟨⟨hdata, hflow⟩, hrate⟩
  · rintro ⟨⟨hdata, hflow⟩, hrate⟩
    exact ⟨_, rfl, rfl, hdata, rfl, hflow, hrate⟩

/-- 8N1 without flow control is reported as six data bits with flow control. -/
theorem eight_data_bits_reported_as_six :
    ¬RoundTrip ⟨0, 0, 0, 1, 0x48⟩ 32768
      ⟨115200, uartCfgParityNone, uartCfgStopBits1, uartCfgDataBits8, uartCfgFlowCtrlNone⟩ := by
  intro h
  obtain ⟨-, got, hgot, -, hdata, -⟩ := h (by decide +kernel)
  have hsix : uartWchConfigureGet (uartWchConfigure ⟨0, 0, 0, 1, 0x48⟩ 32768
      ⟨115200, uartCfgParityNone, uartCfgStopBits1, uartCfgDataBits8, uartCfgFlowCtrlNone⟩).1
        32768 = .ok ⟨115384, uartCfgParityNone, uartCfgStopBits1, uartCfgDataBits6,
          uartCfgFlowCtrlRtsCts⟩ := by
    decide +kernel
  obtain rfl := Except.ok.inj (hsix.symm.trans hgot)
  exact absurd hdata (by decide)

end RoundTrip

end WchIotSdk.UartConfigure
