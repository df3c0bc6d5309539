import WchIotSdk.RegisterFields

/-!
# Configuring UART0 and reading the configuration back

`uart_wch_configure` translates the fields of a configuration into the line
control register, the divisor and, on UART0, the flow control bits, which the
functions for the modem all keep in the interrupt enable register.
`uart_wch_configure_get` translates back. The two agree on parity, stop bits and
the divisor for every accepted configuration, and on data bits and flow control
for two combinations of these.

UART0 is meant throughout, with CONFIG_WCH_UART_0; any other UART is refused by
`uart_wch_set_flow_ctrl`.
-/
namespace WchIotSdk.UartConfigure
open RegisterFields

/-- `enum uart_config_parity`. -/
def uartCfgParityNone : BitVec 8 := 0
def uartCfgParityOdd : BitVec 8 := 1
def uartCfgParityEven : BitVec 8 := 2
def uartCfgParityMark : BitVec 8 := 3
def uartCfgParitySpace : BitVec 8 := 4

/-- `enum uart_config_stop_bits`. -/
def uartCfgStopBits05 : BitVec 8 := 0
def uartCfgStopBits1 : BitVec 8 := 1
def uartCfgStopBits15 : BitVec 8 := 2
def uartCfgStopBits2 : BitVec 8 := 3

/-- `enum uart_config_data_bits`. -/
def uartCfgDataBits5 : BitVec 8 := 0
def uartCfgDataBits6 : BitVec 8 := 1
def uartCfgDataBits7 : BitVec 8 := 2
def uartCfgDataBits8 : BitVec 8 := 3
def uartCfgDataBits9 : BitVec 8 := 4

/-- `enum uart_config_flow_control`. -/
def uartCfgFlowCtrlNone : BitVec 8 := 0
def uartCfgFlowCtrlRtsCts : BitVec 8 := 1

/-- `struct uart_config`. -/
structure UartConfig where
  baudrate : BitVec 32
  parity : BitVec 8
  stopBits : BitVec 8
  dataBits : BitVec 8
  flowCtrl : BitVec 8
  deriving DecidableEq, Repr

/-- `uart_parity_mode_t`, `uart_stop_bits_t` and `uart_word_size_t`. -/
def uartParityOdd : BitVec 8 := 0
def uartParityEven : BitVec 8 := 1
def uartParityMark : BitVec 8 := 2
def uartParitySpace : BitVec 8 := 3
def uartStopBits1 : BitVec 8 := 0
def uartStopBits2 : BitVec 8 := 1
def uartData5Bits : BitVec 8 := 0
def uartData6Bits : BitVec 8 := 1
def uartData7Bits : BitVec 8 := 2
def uartData8Bits : BitVec 8 := 3

/-- Bits of the registers. -/
def uartLcrParModMsk : BitVec 8 := 0x30
def uartLcrStopBitMsk : BitVec 8 := 0x04
def uartLcrWordSzMsk : BitVec 8 := 0x03
def rbLcrParEn : BitVec 8 := 0x08
def rbMcrAuFlowEn : BitVec 8 := 0x20
def rbMcrRts : BitVec 8 := 0x02
def rbIerRtsEn : BitVec 8 := 0x20

def einval : ℤ := 22
def enosys : ℤ := 88
def enotsup : ℤ := 134

/-- The registers of UART0 in use, and the one that selects the system clock. -/
structure Registers where
  ier : BitVec 8
  lcr : BitVec 8
  dl : BitVec 16
  div : BitVec 8
  clkSysCfg : BitVec 16
  deriving DecidableEq, Repr

section Clock

/-- `unsigned` division of the processor, by zero too. -/
def divu (a b : BitVec 32) : BitVec 32 := BitVec.smtUDiv a b

def fhse : BitVec 32 := 32000000
def fpll : BitVec 32 := fhse * 15

/-- `CLK_MODE_32K` is 0x11, which the two bits of the mode never are. -/
def halClkSysGet (configSocRtcFreq : BitVec 32) (u : Registers) : BitVec 32 :=
  let reg := u.clkSysCfg.setWidth 8
  let div := reg &&& 0x1f
  let mod := (reg &&& 0xc0) >>> 6
  if mod = 0x11 then configSocRtcFreq
  else if mod = 0x01 then divu fpll (div.setWidth 32)
  else divu fhse (div.setWidth 32)

/-- The divisor for a baud rate, before it is stored in 16 bits. -/
def halUartDl (sys : BitVec 32) (div : BitVec 8) (baudrate : BitVec 32) : BitVec 32 :=
  divu (divu (10 * sys * 2) (16 * baudrate * div.setWidth 32) + 5) 10

/-- baudrate = Fsys * 2 / (div * 16 * dl). -/
def baudrateOf (sys : BitVec 32) (div : BitVec 8) (dl : BitVec 16) : BitVec 32 :=
  divu (sys * 2) (16 * dl.setWidth 32 * div.setWidth 32)

/-- R16_UART_DL. -/
def halUartBaudrateSet (configSocRtcFreq : BitVec 32) (u : Registers) (baudrate : BitVec 32) :
    Registers :=
  { u with dl := (halUartDl (halClkSysGet configSocRtcFreq u) u.div baudrate).setWidth 16 }

def halUartBaudrateGet (configSocRtcFreq : BitVec 32) (u : Registers) : BitVec 32 :=
  baudrateOf (halClkSysGet configSocRtcFreq u) u.div u.dl

end Clock

section Hal

variable (u : Registers)

/-- Enabling parity and its mode are separate writes of the LCR. -/
def halUartPairtySet (mode : BitVec 8) : Registers :=
  let u := { u with lcr := u.lcr ||| rbLcrParEn }
  let u := { u with lcr := u.lcr &&& ~~~uartLcrParModMsk }
  { u with lcr := u.lcr ||| ((mode <<< 4) &&& uartLcrParModMsk) }

def halUartPairtyGet : BitVec 8 := (u.lcr &&& uartLcrParModMsk) >>> 4
def halUartPairtyDisable : Registers := { u with lcr := u.lcr &&& ~~~rbLcrParEn }
def halUartPairtyIsEnabled : BitVec 8 := u.lcr &&& rbLcrParEn

/-- The field of the LCR is cleared and set. -/
def halUartStopBitSet (stopBits : BitVec 8) : Registers :=
  let u := { u with lcr := u.lcr &&& ~~~uartLcrStopBitMsk }
  { u with lcr := u.lcr ||| ((stopBits <<< 2) &&& uartLcrStopBitMsk) }

def halUartStopBitGet : BitVec 8 := (u.lcr &&& uartLcrStopBitMsk) >>> 2

/-- The field of the LCR is cleared and set. -/
def halUartWordSizeSet (wordSz : BitVec 8) : Registers :=
  let u := { u with lcr := u.lcr &&& ~~~uartLcrWordSzMsk }
  { u with lcr := u.lcr ||| ((wordSz <<< 0) &&& uartLcrWordSzMsk) }

def halUartWordSizeGet : BitVec 8 := (u.lcr &&& uartLcrWordSzMsk) >>> 0

def halUart0ModemRtsEnable : Registers := { u with ier := u.ier ||| rbIerRtsEn }
def halUart0ModemRtsDisable : Registers := { u with ier := u.ier &&& ~~~rbIerRtsEn }
def halUart0ModemAutoflowEnable : Registers := { u with ier := u.ier ||| rbMcrAuFlowEn }
def halUart0ModemAutoflowDisable : Registers := { u with ier := u.ier &&& ~~~rbMcrAuFlowEn }
def halUart0ModemAutoflowIsEnabled : BitVec 8 := u.ier &&& rbMcrAuFlowEn
def halUart0ModemRstSetLow : Registers := { u with ier := u.ier ||| rbMcrRts }
def halUart0ModemRstSetHigh : Registers := { u with ier := u.ier &&& ~~~rbMcrRts }

end Hal

section Driver

variable (u : Registers)

/-- Each parity of the configuration has its mode; an unknown one writes nothing. -/
def uartWchSetPairty (pairty : BitVec 8) : Registers × ℤ :=
  if pairty = uartCfgParityNone then (halUartPairtyDisable u, 0)
  else if pairty = uartCfgParityOdd then (halUartPairtySet u uartParityOdd, 0)
  else if pairty = uartCfgParityEven then (halUartPairtySet u uartParityEven, 0)
  else if pairty = uartCfgParityMark then (halUartPairtySet u uartParityMark, 0)
  else if pairty = uartCfgParitySpace then (halUartPairtySet u uartParitySpace, 0)
  else (u, -einval)

/-- The mode is read only with parity enabled. -/
def uartWchGetPairty : Except ℤ (BitVec 8) :=
  if halUartPairtyIsEnabled u = 0 then .ok uartCfgParityNone
  else
    let halPairty := halUartPairtyGet u
    if halPairty = uartParityOdd then .ok uartCfgParityOdd
    else if halPairty = uartParityEven then .ok uartCfgParityEven
    else if halPairty = uartParityMark then .ok uartCfgParityMark
    else if halPairty = uartParitySpace then .ok uartCfgParitySpace
    else .error (-einval)

/-- Half stop bits are known and not supported. -/
def uartWchSetStopBits (stopBits : BitVec 8) : Registers × ℤ :=
  if stopBits = uartCfgStopBits1 then (halUartStopBitSet u uartStopBits1, 0)
  else if stopBits = uartCfgStopBits2 then (halUartStopBitSet u uartStopBits2, 0)
  else if stopBits = uartCfgStopBits05 ∨ stopBits = uartCfgStopBits15 then (u, -enotsup)
  else (u, -einval)

/-- One bit of the LCR: one stop bit, or two. -/
def uartWchGetStopBits : Except ℤ (BitVec 8) :=
  let halStopBits := halUartStopBitGet u
  if halStopBits = uartStopBits1 then .ok uartCfgStopBits1
  else if halStopBits = uartStopBits2 then .ok uartCfgStopBits2
  else .error (-einval)

/-- Nine bits are known and not supported. -/
def uartWchSetDataBits (dataBits : BitVec 8) : Registers × ℤ :=
  if dataBits = uartCfgDataBits5 then (halUartWordSizeSet u uartData5Bits, 0)
  else if dataBits = uartCfgDataBits6 then (halUartWordSizeSet u uartData6Bits, 0)
  else if dataBits = uartCfgDataBits7 then (halUartWordSizeSet u uartData7Bits, 0)
  else if dataBits = uartCfgDataBits8 then (halUartWordSizeSet u uartData8Bits, 0)
  else if dataBits = uartCfgDataBits9 then (u, -enosys)
  else (u, -einval)

/-- Seven and eight bits are reported as six. -/
def uartWchGetDataBits : Except ℤ (BitVec 8) :=
  let halDataBits := halUartWordSizeGet u
  if halDataBits = uartData5Bits then .ok uartCfgDataBits5
  else if halDataBits = uartData6Bits then .ok uartCfgDataBits6
  else if halDataBits = uartData7Bits then .ok uartCfgDataBits6
  else if halDataBits = uartData8Bits then .ok uartCfgDataBits6
  else .error (-einval)

/-- Any value but zero switches automatic flow control and RTS on. -/
def uartWchSetFlowCtrl (flowCtrl : BitVec 8) : Registers × ℤ :=
  if flowCtrl ≠ 0 then
    let u := halUart0ModemAutoflowEnable u
    let u := halUart0ModemRtsEnable u
    (halUart0ModemRstSetLow u, 0)
  else
    let u := halUart0ModemAutoflowDisable u
    let u := halUart0ModemRstSetHigh u
    (halUart0ModemRtsDisable u, 0)

def uartWchGetFlowCtrl : Except ℤ (BitVec 8) :=
  if halUart0ModemAutoflowIsEnabled u ≠ 0 then .ok 1 else .ok 0

/-- The last call is passed the data bits. -/
def uartWchConfigure (configSocRtcFreq : BitVec 32) (cfg : UartConfig) : Registers × ℤ :=
  if cfg.baudrate = 0 then (u, -einval)
  else
    let u := halUartBaudrateSet configSocRtcFreq u cfg.baudrate
    let (u, err) := uartWchSetPairty u cfg.parity
    if err ≠ 0 then (u, err)
    else
      let (u, err) := uartWchSetDataBits u cfg.dataBits
      if err ≠ 0 then (u, err)
      else
        let (u, err) := uartWchSetStopBits u cfg.stopBits
        if err ≠ 0 then (u, err)
        else
          let (u, err) := uartWchSetFlowCtrl u cfg.dataBits
          if err ≠ 0 then (u, err) else (u, 0)

/-- The first field that cannot be translated ends the call. -/
def uartWchConfigureGet (configSocRtcFreq : BitVec 32) : Except ℤ UartConfig := do
  let dataBits ← uartWchGetDataBits u
  let pairty ← uartWchGetPairty u
  let stopBits ← uartWchGetStopBits u
  let flowCtrl ← uartWchGetFlowCtrl u
  return ⟨halUartBaudrateGet configSocRtcFreq u, pairty, stopBits, dataBits, flowCtrl⟩

end Driver

end WchIotSdk.UartConfigure
