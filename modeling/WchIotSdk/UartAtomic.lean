import WchIotSdk.UartRoundTrip

/-!
# Configuring any of the UARTs

`uart_wch_configure` validates and writes its settings one after the other, so a
setting that is refused leaves those before it written. Flow control is refused
for every UART but UART0, and on UART0 it is set by functions that write bits
of the modem control register to the interrupt enable register.
-/
namespace WchIotSdk.UartConfigure
open RegisterFields

inductive UartInstance where
  | uart0 | uart1 | uart2 | uart3
  deriving DecidableEq, Repr

/-- The registers of one UART. -/
structure UartRegs where
  mcr : BitVec 8
  ier : BitVec 8
  lcr : BitVec 8
  dl : BitVec 16
  div : BitVec 8
  deriving DecidableEq, Repr

/-- The UARTs and the register that selects the system clock. -/
structure UartBlock where
  regs : UartInstance → UartRegs
  clkSysCfg : BitVec 16

namespace UartBlock

/-- The registers that configuring a UART uses. -/
def port (b : UartBlock) (uart : UartInstance) : Registers :=
  ⟨(b.regs uart).ier, (b.regs uart).lcr, (b.regs uart).dl, (b.regs uart).div, b.clkSysCfg⟩

def setPort (b : UartBlock) (uart : UartInstance) (u : Registers) : UartBlock :=
  { b with
    regs := Function.update b.regs uart
      { b.regs uart with ier := u.ier, lcr := u.lcr, dl := u.dl, div := u.div } }

end UartBlock

/-- `uart_wch_set_flow_ctrl` with CONFIG_WCH_UART_0 or without. Past the test the
modem functions write to UART0, which is the UART configured. -/
def uartWchSetFlowCtrlOn (configWchUart0 : Bool) (uart : UartInstance) (u : Registers)
    (flowCtrl : BitVec 8) : Registers × ℤ :=
  if configWchUart0 then
    if uart ≠ .uart0 then (u, -enotsup) else uartWchSetFlowCtrl u flowCtrl
  else (u, -enotsup)

def uartWchConfigureOn (configWchUart0 : Bool) (uart : UartInstance) (u : Registers)
    (configSocRtcFreq : BitVec 32) (cfg : UartConfig) : Registers × ℤ :=
  if cfg.baudrate = 0 then (u, -einval)
  else
    let u := halUartBaudrateSet configSocRtcFreq u cfg.baudrate
    let (u, err) := uartWchSetPairty u cfg.parity
    if err ≠ 0 then (u, err)
    else
      let (u, err) := uartWchSetDataBits u cfg.dataBits
      if err ≠ 0 then (u, err)
      else
        let (u, err) := uartWchSetStopBits u cfg.stopBits
        if err ≠ 0 then (u, err)
        else
          let (u, err) := uartWchSetFlowCtrlOn configWchUart0 uart u cfg.dataBits
          if err ≠ 0 then (u, err) else (u, 0)

/-- The call on one of the UARTs. -/
def configureUart (configWchUart0 : Bool) (b : UartBlock) (uart : UartInstance)
    (configSocRtcFreq : BitVec 32) (cfg : UartConfig) : UartBlock × ℤ :=
  let (u, err) := uartWchConfigureOn configWchUart0 uart (b.port uart) configSocRtcFreq cfg
  (b.setPort uart u, err)

/-- On UART0 this is the configuration of UART0. -/
lemma uartWchConfigureOn_uart0 (u : Registers) (configSocRtcFreq : BitVec 32) (cfg : UartConfig) :
    uartWchConfigureOn true .uart0 u configSocRtcFreq cfg =
      uartWchConfigure u configSocRtcFreq cfg := rfl

section Refused

variable {u : Registers} {v : BitVec 8}

/-- A refused value writes nothing. -/
lemma setPairty_unknown (h : ¬ ParityKnown v) : (uartWchSetPairty u v).1 = u := by
  have hne : ∀ v : BitVec 8, ¬ParityKnown v → v ≠ uartCfgParityNone ∧ v ≠ uartCfgParityOdd ∧
      v ≠ uartCfgParityEven ∧ v ≠ uartCfgParityMark ∧ v ≠ uartCfgParitySpace := by decide
  obtain ⟨hnone, hodd, heven, hmark, hspace⟩ := hne v h
  rw [uartWchSetPairty, if_neg hnone, if_neg hodd, if_neg heven, if_neg hmark, if_neg hspace]

lemma setDataBits_unknown (h : ¬ DataBitsKnown v) : (uartWchSetDataBits u v).1 = u := by
  have hne : ∀ v : BitVec 8, ¬DataBitsKnown v → v ≠ uartCfgDataBits5 ∧
      v ≠ uartCfgDataBits6 ∧ v ≠ uartCfgDataBits7 ∧ v ≠ uartCfgDataBits8 := by decide
  obtain ⟨h5, h6, h7, h8⟩ := hne v h
  rw [uartWchSetDataBits, if_neg h5, if_neg h6, if_neg h7, if_neg h8]
  split_ifs <;> rfl

lemma setStopBits_unknown (h : ¬ StopBitsKnown v) : (uartWchSetStopBits u v).1 = u := by
  obtain ⟨h1, h2⟩ := not_or.mp h
  rw [uartWchSetStopBits, if_neg h1, if_neg h2]
  split_ifs <;> rfl

/-- A value that is already programmed changes nothing. -/
lemma setPairty_of_get (h : uartWchGetPairty u = .ok v) :
    (uartWchSetPairty u v).1.lcr = u.lcr := by
  have hcases : ∀ v : BitVec 8, ParityKnown v → v = 0 ∨ v = 1 ∨ v = 2 ∨ v = 3 ∨ v = 4 := by
    decide
  have hall : ∀ v ∈ [0, 1, 2, 3, 4], ∀ lcr : BitVec 8,
      uartWchGetPairty ⟨0, lcr, 0, 0, 0⟩ = .ok v →
        (uartWchSetPairty ⟨0, lcr, 0, 0, 0⟩ v).1.lcr = lcr := by decide +kernel
  by_cases hknown : ParityKnown v
  · rcases hcases v hknown with rfl | rfl | rfl | rfl | rfl
    all_goals exact hall _ (by simp) u.lcr h
  · rw [setPairty_unknown hknown]

lemma setDataBits_of_get (h : halUartWordSizeGet u = v) :
    (uartWchSetDataBits u v).1.lcr = u.lcr := by
  have hcases : ∀ v : BitVec 8, DataBitsKnown v → v = 0 ∨ v = 1 ∨ v = 2 ∨ v = 3 := by
    decide
  have hall : ∀ v ∈ [0, 1, 2, 3], ∀ lcr : BitVec 8, halUartWordSizeGet ⟨0, lcr, 0, 0, 0⟩ = v →
      (uartWchSetDataBits ⟨0, lcr, 0, 0, 0⟩ v).1.lcr = lcr := by decide +kernel
  by_cases hknown : DataBitsKnown v
  · rcases hcases v hknown with rfl | rfl | rfl | rfl
    all_goals exact hall _ (by simp) u.lcr h
  · rw [setDataBits_unknown hknown]

lemma setStopBits_of_get (h : uartWchGetStopBits u = .ok v) :
    (uartWchSetStopBits u v).1.lcr = u.lcr := by
  have hall : ∀ v ∈ [uartCfgStopBits1, uartCfgStopBits2], ∀ lcr : BitVec 8,
      uartWchGetStopBits ⟨0, lcr, 0, 0, 0⟩ = .ok v →
        (uartWchSetStopBits ⟨0, lcr, 0, 0, 0⟩ v).1.lcr = lcr := by decide +kernel
  by_cases hknown : StopBitsKnown v
  · rcases hknown with rfl | rfl
    all_goals exact hall _ (by simp) u.lcr h
  · rw [setStopBits_unknown hknown]

/-- The word size register holds the data bits that were set. -/
lemma wordSizeGet_setDataBits (u : Registers) (h : DataBitsKnown v) :
    halUartWordSizeGet (uartWchSetDataBits u v).1 = v := by
  have hcases : ∀ v : BitVec 8, DataBitsKnown v → v = 0 ∨ v = 1 ∨ v = 2 ∨ v = 3 := by
    decide
  have hset (wordSz : BitVec 8) : halUartWordSizeGet (halUartWordSizeSet u wordSz) =
      field uartLcrWordSzMsk (wordSz <<< 0) >>> 0 := by
    rw [wordSizeGet_eq, line_wordSizeSet]
  rcases hcases v h with rfl | rfl | rfl | rfl
  all_goals exact hset _

/-- The setters of the line leave the other registers alone. -/
lemma setPairty_keeps (u : Registers) (v : BitVec 8) : KeepsRest u (uartWchSetPairty u v).1 := by
  by_cases h : ParityKnown v
  · exact (setPairty_spec u h).2.2.2.2
  · rw [setPairty_unknown h]
    exact ⟨rfl, rfl, rfl, rfl⟩

lemma setDataBits_keeps (u : Registers) (v : BitVec 8) :
    KeepsRest u (uartWchSetDataBits u v).1 := by
  by_cases h : DataBitsKnown v
  · exact (setDataBits_spec u h).2.2.2.2.2
  · rw [setDataBits_unknown h]
    exact ⟨rfl, rfl, rfl, rfl⟩

lemma setStopBits_keeps (u : Registers) (v : BitVec 8) :
    KeepsRest u (uartWchSetStopBits u v).1 := by
  by_cases h : StopBitsKnown v
  · exact (setStopBits_spec u h).2.2.2.2.2
  · rw [setStopBits_unknown h]
    exact ⟨rfl, rfl, rfl, rfl⟩

end Refused

section Stages

variable (u : Registers) (configSocRtcFreq : BitVec 32) (cfg : UartConfig)

/-- The registers after each of the settings. -/
def rateWritten : Registers := halUartBaudrateSet configSocRtcFreq u cfg.baudrate
def parityWritten : Registers :=
  (uartWchSetPairty (rateWritten u configSocRtcFreq cfg) cfg.parity).1
def dataWritten : Registers :=
  (uartWchSetDataBits (parityWritten u configSocRtcFreq cfg) cfg.dataBits).1
def stopWritten : Registers :=
  (uartWchSetStopBits (dataWritten u configSocRtcFreq cfg) cfg.stopBits).1

/-- Flow control can be set on this UART. -/
def FlowSupported (configWchUart0 : Bool) (uart : UartInstance) : Prop :=
  configWchUart0 = true ∧ uart = .uart0

instance (configWchUart0 : Bool) (uart : UartInstance) :
    Decidable (FlowSupported configWchUart0 uart) := inferInstanceAs (Decidable (_ ∧ _))

/-- How far a configuration gets: the registers it leaves with an error, or the
flow control it ends with. -/
inductive ConfigureCases (configWchUart0 : Bool) (uart : UartInstance) :
    Registers × ℤ → Prop where
  | rate {err : ℤ} (herr : err ≠ 0) (hrate : cfg.baudrate = 0) :
      ConfigureCases configWchUart0 uart (u, err)
  | parity {err : ℤ} (herr : err ≠ 0) (hrate : cfg.baudrate ≠ 0)
      (hparity : ¬ ParityKnown cfg.parity) :
      ConfigureCases configWchUart0 uart (rateWritten u configSocRtcFreq cfg, err)
  | dataBits {err : ℤ} (herr : err ≠ 0) (hrate : cfg.baudrate ≠ 0)
      (hparity : ParityKnown cfg.parity) (hdata : ¬ DataBitsKnown cfg.dataBits) :
      ConfigureCases configWchUart0 uart (parityWritten u configSocRtcFreq cfg, err)
  | stopBits {err : ℤ} (herr : err ≠ 0) (hrate : cfg.baudrate ≠ 0)
      (hparity : ParityKnown cfg.parity) (hdata : DataBitsKnown cfg.dataBits)
      (hstop : ¬ StopBitsKnown cfg.stopBits) :
      ConfigureCases configWchUart0 uart (dataWritten u configSocRtcFreq cfg, err)
  | flowCtrl {err : ℤ} (herr : err ≠ 0) (h : Accepted cfg)
      (hflow : ¬ FlowSupported configWchUart0 uart) :
      ConfigureCases configWchUart0 uart (stopWritten u configSocRtcFreq cfg, err)
  | configured (h : Accepted cfg) (hflow : FlowSupported configWchUart0 uart) :
      ConfigureCases configWchUart0 uart
        ((uartWchSetFlowCtrl (stopWritten u configSocRtcFreq cfg) cfg.dataBits).1, 0)

variable (configWchUart0 : Bool) (uart : UartInstance)

lemma setFlowCtrlOn_of_supported (h : FlowSupported configWchUart0 uart) (u : Registers)
    (v : BitVec 8) :
    uartWchSetFlowCtrlOn configWchUart0 uart u v = ((uartWchSetFlowCtrl u v).1, 0) := by
  obtain ⟨rfl, rfl⟩ := h
  exact Prod.ext rfl (setFlowCtrl_spec u v).1

lemma setFlowCtrlOn_of_not_supported (h : ¬ FlowSupported configWchUart0 uart) (u : Registers)
    (v : BitVec 8) : uartWchSetFlowCtrlOn configWchUart0 uart u v = (u, -enotsup) := by
  rw [uartWchSetFlowCtrlOn]
  split_ifs with hconfig huart
  · rfl
  · exact absurd ⟨hconfig, not_not.mp huart⟩ h
  · rfl

/-- The chain of tests, over the stages. -/
lemma configureOn_eq : uartWchConfigureOn configWchUart0 uart u configSocRtcFreq cfg =
    if cfg.baudrate = 0 then (u, -einval)
    else if (uartWchSetPairty (rateWritten u configSocRtcFreq cfg) cfg.parity).2 ≠ 0 then
      uartWchSetPairty (rateWritten u configSocRtcFreq cfg) cfg.parity
    else if (uartWchSetDataBits (parityWritten u configSocRtcFreq cfg) cfg.dataBits).2 ≠ 0 then
      uartWchSetDataBits (parityWritten u configSocRtcFreq cfg) cfg.dataBits
    else if (uartWchSetStopBits (dataWritten u configSocRtcFreq cfg) cfg.stopBits).2 ≠ 0 then
      uartWchSetStopBits (dataWritten u configSocRtcFreq cfg) cfg.stopBits
    else if (uartWchSetFlowCtrlOn configWchUart0 uart (stopWritten u configSocRtcFreq cfg)
        cfg.dataBits).2 ≠ 0 then
      uartWchSetFlowCtrlOn configWchUart0 uart (stopWritten u configSocRtcFreq cfg) cfg.dataBits
    else ((uartWchSetFlowCtrlOn configWchUart0 uart (stopWritten u configSocRtcFreq cfg)
      cfg.dataBits).1, 0) := rfl

theorem configureOn_cases : ConfigureCases u configSocRtcFreq cfg configWchUart0 uart
    (uartWchConfigureOn configWchUart0 uart u configSocRtcFreq cfg) := by
  rw [configureOn_eq]
  by_cases hrate : cfg.baudrate = 0
  · rw [if_pos hrate]
    exact .rate einval_ne hrate
  rw [if_neg hrate]
  by_cases hparity : ParityKnown cfg.parity
  swap
  · have herr := mt (setPairty_err_iff (rateWritten u configSocRtcFreq cfg)).mp hparity
    rw [if_pos herr, ← Prod.mk.eta (p := uartWchSetPairty _ _), setPairty_unknown hparity]
    exact .parity herr hrate hparity
  rw [if_neg (not_not.mpr ((setPairty_err_iff _).mpr hparity))]
  by_cases hdata : DataBitsKnown cfg.dataBits
  swap
  · have herr := mt (setDataBits_err_iff (parityWritten u configSocRtcFreq cfg)).mp hdata
    rw [if_pos herr, ← Prod.mk.eta (p := uartWchSetDataBits _ _), setDataBits_unknown hdata]
    exact .dataBits herr hrate hparity hdata
  rw [if_neg (not_not.mpr ((setDataBits_err_iff _).mpr hdata))]
  by_cases hstop : StopBitsKnown cfg.stopBits
  swap
  · have herr := mt (setStopBits_err_iff (dataWritten u configSocRtcFreq cfg)).mp hstop
    rw [if_pos herr, ← Prod.mk.eta (p := uartWchSetStopBits _ _), setStopBits_unknown hstop]
    exact .stopBits herr hrate hparity hdata hstop
  rw [if_neg (not_not.mpr ((setStopBits_err_iff _).mpr hstop))]
  by_cases hflow : FlowSupported configWchUart0 uart
  · rw [setFlowCtrlOn_of_supported _ _ hflow, if_neg (not_not.mpr rfl)]
    exact .configured ⟨hrate, hparity, hdata, hstop⟩ hflow
  · rw [setFlowCtrlOn_of_not_supported _ _ hflow, if_pos enotsup_ne]
    exact .flowCtrl enotsup_ne ⟨hrate, hparity, hdata, hstop⟩ hflow

end Stages

section Programmed

variable {u : Registers} {configSocRtcFreq : BitVec 32} {cfg : UartConfig}

/-- The registers of a stage other than the line control register. -/
lemma parityWritten_keeps (u : Registers) (configSocRtcFreq : BitVec 32) (cfg : UartConfig) :
    KeepsRest (rateWritten u configSocRtcFreq cfg) (parityWritten u configSocRtcFreq cfg) :=
  setPairty_keeps _ _

lemma dataWritten_keeps (u : Registers) (configSocRtcFreq : BitVec 32) (cfg : UartConfig) :
    KeepsRest (rateWritten u configSocRtcFreq cfg) (dataWritten u configSocRtcFreq cfg) :=
  (parityWritten_keeps u configSocRtcFreq cfg).trans (setDataBits_keeps _ _)

lemma stopWritten_keeps (u : Registers) (configSocRtcFreq : BitVec 32) (cfg : UartConfig) :
    KeepsRest (rateWritten u configSocRtcFreq cfg) (stopWritten u configSocRtcFreq cfg) :=
  (dataWritten_keeps u configSocRtcFreq cfg).trans (setStopBits_keeps _ _)

lemma line_of_lcr {u u' : Registers} (h : u'.lcr = u.lcr) : u'.line = u.line := by
  rw [Registers.line, Registers.line, h]

/-- A stage leaves the line control register as it was exactly if its settings and
those of the stages before are programmed. -/
lemma parityWritten_lcr_iff (hparity : ParityKnown cfg.parity) :
    (parityWritten u configSocRtcFreq cfg).lcr = u.lcr ↔ uartWchGetPairty u = .ok cfg.parity := by
  constructor
  · intro hlcr
    have hline := line_of_lcr hlcr
    rw [← (setPairty_spec (rateWritten u configSocRtcFreq cfg) hparity).2.1]
    exact getPairty_congr (congrArg LineView.parEn hline.symm)
      (congrArg LineView.parMod hline.symm)
  · intro hget
    exact setPairty_of_get (u := rateWritten u configSocRtcFreq cfg) hget

lemma dataWritten_lcr_iff (hparity : ParityKnown cfg.parity) (hdata : DataBitsKnown cfg.dataBits) :
    (dataWritten u configSocRtcFreq cfg).lcr = u.lcr ↔
      uartWchGetPairty u = .ok cfg.parity ∧ halUartWordSizeGet u = cfg.dataBits := by
  constructor
  · intro hlcr
    have hline := line_of_lcr hlcr
    obtain ⟨-, -, hen, hmod, -, -⟩ :=
      setDataBits_spec (parityWritten u configSocRtcFreq cfg) hdata
    constructor
    · rw [← (setPairty_spec (rateWritten u configSocRtcFreq cfg) hparity).2.1]
      apply getPairty_congr
      · exact (congrArg LineView.parEn hline.symm).trans hen
      · exact (congrArg LineView.parMod hline.symm).trans hmod
    · rw [← wordSizeGet_setDataBits (parityWritten u configSocRtcFreq cfg) hdata,
        wordSizeGet_eq, wordSizeGet_eq]
      exact congrArg (fun line => LineView.wordSz line >>> 0) hline.symm
  · intro hget
    have hlcr : (parityWritten u configSocRtcFreq cfg).lcr = u.lcr :=
      (parityWritten_lcr_iff hparity).mpr hget.1
    have hword : halUartWordSizeGet (parityWritten u configSocRtcFreq cfg) = cfg.dataBits := by
      rw [wordSizeGet_eq, line_of_lcr hlcr, ← wordSizeGet_eq, hget.2]
    exact (setDataBits_of_get hword).trans hlcr

lemma stopWritten_lcr_iff (hparity : ParityKnown cfg.parity) (hdata : DataBitsKnown cfg.dataBits)
    (hstop : StopBitsKnown cfg.stopBits) :
    (stopWritten u configSocRtcFreq cfg).lcr = u.lcr ↔
      uartWchGetPairty u = .ok cfg.parity ∧ halUartWordSizeGet u = cfg.dataBits ∧
        uartWchGetStopBits u = .ok cfg.stopBits := by
  constructor
  · intro hlcr
    have hline := line_of_lcr hlcr
    obtain ⟨-, hget, hen, hmod, hword, -⟩ :=
      setStopBits_spec (dataWritten u configSocRtcFreq cfg) hstop
    obtain ⟨-, -, hen', hmod', -, -⟩ :=
      setDataBits_spec (parityWritten u configSocRtcFreq cfg) hdata
    refine ⟨?_, ?_, ?_⟩
    · rw [← (setPairty_spec (rateWritten u configSocRtcFreq cfg) hparity).2.1]
      apply getPairty_congr
      · exact ((congrArg LineView.parEn hline.symm).trans hen).trans hen'
      · exact ((congrArg LineView.parMod hline.symm).trans hmod).trans hmod'
    · have hsize : u.line.wordSz = (dataWritten u configSocRtcFreq cfg).line.wordSz :=
        (congrArg LineView.wordSz hline.symm).trans hword
      rw [← wordSizeGet_setDataBits (parityWritten u configSocRtcFreq cfg) hdata,
        wordSizeGet_eq, wordSizeGet_eq, hsize]
      rfl
    · rw [← hget]
      exact getStopBits_congr (congrArg LineView.stopBit hline.symm)
  · intro hget
    have hlcr : (dataWritten u configSocRtcFreq cfg).lcr = u.lcr :=
      (dataWritten_lcr_iff hparity hdata).mpr ⟨hget.1, hget.2.1⟩
    have hbit : uartWchGetStopBits (dataWritten u configSocRtcFreq cfg) = .ok cfg.stopBits := by
      rw [← hget.2.2]
      exact getStopBits_congr (congrArg LineView.stopBit (line_of_lcr hlcr))
    exact (setStopBits_of_get hbit).trans hlcr

variable (u configSocRtcFreq cfg)

/-- What the configuration writes before it is refused is programmed already: the
divisor for the rate, and the settings of the line in front of the refused one. -/
def AlreadyProgrammed : Prop :=
  cfg.baudrate = 0 ∨
    roundedDl u.sysHz u.div.toNat cfg.baudrate.toNat = u.dl.toNat ∧
      (ParityKnown cfg.parity → uartWchGetPairty u = .ok cfg.parity ∧
        (DataBitsKnown cfg.dataBits → halUartWordSizeGet u = cfg.dataBits ∧
          (StopBitsKnown cfg.stopBits → uartWchGetStopBits u = .ok cfg.stopBits)))

/-- The bit that flow control shares with the transmit interrupt is as it will be
set: on, except for five data bits. -/
def TransmitBitMatches : Prop :=
  u.ier &&& rbMcrRts ≠ 0 ↔ cfg.dataBits ≠ uartCfgDataBits5

/-- No register is changed. -/
def Unchanged (u u' : Registers) : Prop := u'.dl = u.dl ∧ u'.lcr = u.lcr ∧ u'.ier = u.ier

variable {u configSocRtcFreq cfg}

lemma flowCtrl_interrupts_iff (u : Registers) (v : BitVec 8) :
    (uartWchSetFlowCtrl u v).1.ier &&& 0x0f = u.ier &&& 0x0f ↔
      (u.ier &&& rbMcrRts ≠ 0 ↔ v ≠ uartCfgDataBits5) := by
  have hon : ∀ ier : BitVec 8,
      (ier ||| rbMcrAuFlowEn ||| rbIerRtsEn ||| rbMcrRts) &&& 0x0f = ier &&& 0x0f ↔
        ier &&& rbMcrRts ≠ 0 := by decide +kernel
  have hoff : ∀ ier : BitVec 8,
      ((ier &&& ~~~rbMcrAuFlowEn) &&& ~~~rbMcrRts &&& ~~~rbIerRtsEn) &&& 0x0f = ier &&& 0x0f ↔
        ier &&& rbMcrRts = 0 := by decide +kernel
  have hfive : uartCfgDataBits5 = 0 := rfl
  by_cases hv : v = 0
  · have hset : uartWchSetFlowCtrl u v = (halUart0ModemRtsDisable (halUart0ModemRstSetHigh
        (halUart0ModemAutoflowDisable u)), 0) := if_neg (not_not.mpr hv)
    have hbits := hoff u.ier
    rw [hset, hfive]
    simp only [hv, ne_eq, not_true_eq_false, iff_false, not_not]
    exact hbits
  · have hset : uartWchSetFlowCtrl u v = (halUart0ModemRstSetLow (halUart0ModemRtsEnable
        (halUart0ModemAutoflowEnable u)), 0) := if_pos hv
    have hbits := hon u.ier
    rw [hset, hfive]
    simp only [hv, ne_eq, not_false_eq_true, iff_true]
    exact hbits

/-- The divisor in the register, by the setter's own computation. -/
lemma alreadyProgrammed_iff (u : Registers) (configSocRtcFreq : BitVec 32) (cfg : UartConfig) :
    AlreadyProgrammed u cfg ↔ cfg.baudrate = 0 ∨
      programmedDl u configSocRtcFreq cfg = u.dl ∧
        (ParityKnown cfg.parity → uartWchGetPairty u = .ok cfg.parity ∧
          (DataBitsKnown cfg.dataBits → halUartWordSizeGet u = cfg.dataBits ∧
            (StopBitsKnown cfg.stopBits → uartWchGetStopBits u = .ok cfg.stopBits))) := by
  rw [AlreadyProgrammed, ← programmedDl_toNat u configSocRtcFreq cfg, BitVec.toNat_inj]

/-- With an error, the registers are as before exactly if what was written was
programmed. -/
lemma unchanged_iff_of_err {configWchUart0 : Bool} {uart : UartInstance} {out : Registers × ℤ}
    (h : ConfigureCases u configSocRtcFreq cfg configWchUart0 uart out) (herr : out.2 ≠ 0) :
    Unchanged u out.1 ↔ AlreadyProgrammed u cfg := by
  rw [alreadyProgrammed_iff u configSocRtcFreq cfg]
  cases h with
  | rate _ hrate => exact iff_of_true ⟨rfl, rfl, rfl⟩ (Or.inl hrate)
  | parity _ hrate hparity =>
    simp only [hrate, hparity, false_or, false_imp_iff, and_true]
    exact ⟨fun hsame => hsame.1, fun hdl => ⟨hdl, rfl, rfl⟩⟩
  | dataBits _ hrate hparity hdata =>
    have hkeep := parityWritten_keeps u configSocRtcFreq cfg
    simp only [hrate, hparity, hdata, false_or, false_imp_iff, true_imp_iff,
      and_true]
    rw [Unchanged, parityWritten_lcr_iff hparity, hkeep.dl, hkeep.ier]
    exact ⟨fun hsame => ⟨hsame.1, hsame.2.1⟩, fun hsame => ⟨hsame.1, hsame.2, rfl⟩⟩
  | stopBits _ hrate hparity hdata hstop =>
    have hkeep := dataWritten_keeps u configSocRtcFreq cfg
    simp only [hrate, hparity, hdata, hstop, false_or, false_imp_iff,
      true_imp_iff, and_true]
    rw [Unchanged, dataWritten_lcr_iff hparity hdata, hkeep.dl, hkeep.ier]
    exact ⟨fun hsame => ⟨hsame.1, hsame.2.1⟩, fun hsame => ⟨hsame.1, hsame.2, rfl⟩⟩
  | flowCtrl _ haccepted _ =>
    have hkeep := stopWritten_keeps u configSocRtcFreq cfg
    simp only [haccepted.baudrate, haccepted.parity, haccepted.dataBits,
      haccepted.stopBits, false_or, true_imp_iff]
    rw [Unchanged, stopWritten_lcr_iff haccepted.parity haccepted.dataBits haccepted.stopBits,
      hkeep.dl, hkeep.ier]
    exact ⟨fun hsame => ⟨hsame.1, hsame.2.1⟩, fun hsame => ⟨hsame.1, hsame.2, rfl⟩⟩
  | configured _ _ => exact absurd rfl herr

/-- Without an error, the interrupts enabled are as before exactly if the bit that
flow control writes matches. -/
lemma interrupts_iff_of_ok {configWchUart0 : Bool} {uart : UartInstance} {out : Registers × ℤ}
    (h : ConfigureCases u configSocRtcFreq cfg configWchUart0 uart out) (hok : out.2 = 0) :
    out.1.ier &&& 0x0f = u.ier &&& 0x0f ↔ TransmitBitMatches u cfg := by
  cases h with
  | rate herr _ => exact absurd hok herr
  | parity herr _ _ => exact absurd hok herr
  | dataBits herr _ _ _ => exact absurd hok herr
  | stopBits herr _ _ _ _ => exact absurd hok herr
  | flowCtrl herr _ _ => exact absurd hok herr
  | configured _ _ =>
    have hkeep := stopWritten_keeps u configSocRtcFreq cfg
    have hier : (stopWritten u configSocRtcFreq cfg).ier = u.ier := hkeep.ier
    rw [TransmitBitMatches, ← hier]
    exact flowCtrl_interrupts_iff _ _

/-- Accepted configurations of a UART with flow control. -/
lemma configureOn_ok_iff {configWchUart0 : Bool} {uart : UartInstance} {out : Registers × ℤ}
    (h : ConfigureCases u configSocRtcFreq cfg configWchUart0 uart out) :
    out.2 = 0 ↔ Accepted cfg ∧ FlowSupported configWchUart0 uart := by
  cases h with
  | rate herr hrate => exact iff_of_false herr fun hok => hok.1.baudrate hrate
  | parity herr _ hparity => exact iff_of_false herr fun hok => hparity hok.1.parity
  | dataBits herr _ _ hdata => exact iff_of_false herr fun hok => hdata hok.1.dataBits
  | stopBits herr _ _ _ hstop => exact iff_of_false herr fun hok => hstop hok.1.stopBits
  | flowCtrl herr _ hflow => exact iff_of_false herr fun hok => hflow hok.2
  | configured haccepted hflow => exact iff_of_true rfl ⟨haccepted, hflow⟩

end Programmed

/-- With an error no register of any UART is changed; without one the interrupts
enabled are those from before. -/
structure ConfigureAtomic (configWchUart0 : Bool) (b : UartBlock) (uart : UartInstance)
    (configSocRtcFreq : BitVec 32) (cfg : UartConfig) : Prop where
  rejected : (configureUart configWchUart0 b uart configSocRtcFreq cfg).2 ≠ 0 → ∀ other,
    ((configureUart configWchUart0 b uart configSocRtcFreq cfg).1.regs other).dl =
        (b.regs other).dl ∧
      ((configureUart configWchUart0 b uart configSocRtcFreq cfg).1.regs other).lcr =
        (b.regs other).lcr ∧
      ((configureUart configWchUart0 b uart configSocRtcFreq cfg).1.regs other).ier =
        (b.regs other).ier ∧
      ((configureUart configWchUart0 b uart configSocRtcFreq cfg).1.regs other).mcr =
        (b.regs other).mcr
  accepted : (configureUart configWchUart0 b uart configSocRtcFreq cfg).2 = 0 → ∀ other,
    ((configureUart configWchUart0 b uart configSocRtcFreq cfg).1.regs other).ier &&& 0x0f =
      (b.regs other).ier &&& 0x0f

section Block

variable (configWchUart0 : Bool) (b : UartBlock) (uart : UartInstance)
  (configSocRtcFreq : BitVec 32) (cfg : UartConfig)

/-- Only the registers of the UART configured are written. -/
lemma setPort_unchanged_iff (u : Registers) :
    (∀ other, ((b.setPort uart u).regs other).dl = (b.regs other).dl ∧
      ((b.setPort uart u).regs other).lcr = (b.regs other).lcr ∧
      ((b.setPort uart u).regs other).ier = (b.regs other).ier ∧
      ((b.setPort uart u).regs other).mcr = (b.regs other).mcr) ↔
      Unchanged (b.port uart) u := by
  constructor
  · intro h
    have hsame := h uart
    simp only [UartBlock.setPort, Function.update_self] at hsame
    exact ⟨hsame.1, hsame.2.1, hsame.2.2.1⟩
  · intro h other
    by_cases huart : other = uart
    · rw [huart]
      simp only [UartBlock.setPort, Function.update_self]
      exact ⟨h.1, h.2.1, h.2.2, trivial⟩
    · simp only [UartBlock.setPort, Function.update_of_ne huart, and_self]

lemma setPort_interrupts_iff (u : Registers) :
    (∀ other, ((b.setPort uart u).regs other).ier &&& 0x0f = (b.regs other).ier &&& 0x0f) ↔
      u.ier &&& 0x0f = (b.port uart).ier &&& 0x0f := by
  constructor
  · intro h
    have hsame := h uart
    simp only [UartBlock.setPort, Function.update_self] at hsame
    exact hsame
  · intro h other
    by_cases huart : other = uart
    · rw [huart]
      simp only [UartBlock.setPort, Function.update_self]
      exact h
    · simp only [UartBlock.setPort, Function.update_of_ne huart]

/-- The call is atomic and leaves the interrupts alone exactly if it succeeds where
the transmit interrupt is enabled as flow control will leave it, or fails where all
it has written was programmed before. -/
theorem configureAtomic_iff :
    ConfigureAtomic configWchUart0 b uart configSocRtcFreq cfg ↔
      (Accepted cfg ∧ FlowSupported configWchUart0 uart →
        TransmitBitMatches (b.port uart) cfg) ∧
      (¬ (Accepted cfg ∧ FlowSupported configWchUart0 uart) →
        AlreadyProgrammed (b.port uart) cfg) := by
  have hcases := configureOn_cases (b.port uart) configSocRtcFreq cfg configWchUart0 uart
  have hok := configureOn_ok_iff hcases
  have hunchanged := setPort_unchanged_iff b uart
    (uartWchConfigureOn configWchUart0 uart (b.port uart) configSocRtcFreq cfg).1
  have hinterrupts := setPort_interrupts_iff b uart
    (uartWchConfigureOn configWchUart0 uart (b.port uart) configSocRtcFreq cfg).1
  constructor
  · intro h
    constructor
    · intro hsupported
      exact (interrupts_iff_of_ok hcases (hok.mpr hsupported)).mp
        (hinterrupts.mp (h.accepted (hok.mpr hsupported)))
    · intro hrefused
      have herr := mt hok.mp hrefused
      exact (unchanged_iff_of_err hcases herr).mp (hunchanged.mp (h.rejected herr))
  · intro h
    constructor
    · intro herr
      exact hunchanged.mpr ((unchanged_iff_of_err hcases herr).mpr (h.2 (mt hok.mpr herr)))
    · intro hzero
      exact hinterrupts.mpr ((interrupts_iff_of_ok hcases hzero).mpr (h.1 (hok.mp hzero)))

end Block

/-- On UART1 the rate and the line are programmed before flow control is refused. -/
theorem uart1_partly_configured :
    (configureUart true ⟨fun _ => ⟨0, 0, 0, 0, 1⟩, 0x48⟩ .uart1 32768
        ⟨115200, uartCfgParityNone, uartCfgStopBits1, uartCfgDataBits8, uartCfgFlowCtrlNone⟩).2 =
        -enotsup ∧
      ((configureUart true ⟨fun _ => ⟨0, 0, 0, 0, 1⟩, 0x48⟩ .uart1 32768
        ⟨115200, uartCfgParityNone, uartCfgStopBits1, uartCfgDataBits8,
          uartCfgFlowCtrlNone⟩).1.regs .uart1).lcr = 3 ∧
      ¬ ConfigureAtomic true ⟨fun _ => ⟨0, 0, 0, 0, 1⟩, 0x48⟩ .uart1 32768
        ⟨115200, uartCfgParityNone, uartCfgStopBits1, uartCfgDataBits8, uartCfgFlowCtrlNone⟩ := by
  have herr : (configureUart true ⟨fun _ => ⟨0, 0, 0, 0, 1⟩, 0x48⟩ .uart1 32768
      ⟨115200, uartCfgParityNone, uartCfgStopBits1, uartCfgDataBits8, uartCfgFlowCtrlNone⟩).2 =
      -enotsup := by decide +kernel
  have hlcr : ((configureUart true ⟨fun _ => ⟨0, 0, 0, 0, 1⟩, 0x48⟩ .uart1 32768
      ⟨115200, uartCfgParityNone, uartCfgStopBits1, uartCfgDataBits8,
        uartCfgFlowCtrlNone⟩).1.regs .uart1).lcr = 3 := by decide +kernel
  refine ⟨herr, hlcr, fun h => ?_⟩
  have hsame := (h.rejected (by rw [herr]; exact enotsup_ne) .uart1).2.1
  rw [hlcr] at hsame
  exact absurd hsame (by decide)

end WchIotSdk.UartConfigure
