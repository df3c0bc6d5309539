import WchIotSdk.GpioConfigure
import Mathlib.Data.List.TakeWhile

/-!
# Pin tables

A word of a pin table has fields for the line, the port, the mode, the pull, the
level, the alternate flag and the function of a pin. `pinctrl_configure_pins`
goes down a table and stops at the first word that it rejects.

What a word encodes is a setting; a word with an unknown value in a field that
counts encodes none.
-/
namespace WchIotSdk.Pinctrl
open Gpio

/-- The ports that `wch_port` points to. -/
inductive Port where
  | a
  | b
  deriving DecidableEq, Repr

structure PinRegs where
  portA : GpioRegs
  portB : GpioRegs
  r16PinAlternate : BitVec 16
  r16PinAnalogIe : BitVec 16
  deriving DecidableEq, Repr

namespace PinRegs

def port (r : PinRegs) : Port → GpioRegs
  | .a => r.portA
  | .b => r.portB

def setPort (r : PinRegs) (regs : GpioRegs) : Port → PinRegs
  | .a => { r with portA := regs }
  | .b => { r with portB := regs }

end PinRegs

section Layout

/-- `BIT_MASK(n) << pos`. -/
def fieldMask (n pos : ℕ) : BitVec 32 := (BIT n - 1) <<< pos

def wchPinPos : ℕ := 0
def wchPortPos : ℕ := 5
def wchModePos : ℕ := 9
def wchPupdPos : ℕ := 11
def wchOutDataPos : ℕ := 13
def wchAltPos : ℕ := 14
def wchFunPos : ℕ := 16

def wchPinMsk : BitVec 32 := fieldMask 5 wchPinPos
def wchPortMsk : BitVec 32 := fieldMask 4 wchPortPos
def wchModeMsk : BitVec 32 := fieldMask 2 wchModePos
def wchPupdMsk : BitVec 32 := fieldMask 2 wchPupdPos
def wchOutDataMsk : BitVec 32 := fieldMask 1 wchOutDataPos
def wchAltMsk : BitVec 32 := fieldMask 1 wchAltPos
def wchFunMsk : BitVec 32 := fieldMask 16 wchFunPos

def wchModeIn : BitVec 32 := 0#32 <<< wchModePos
def wchModeOut : BitVec 32 := 1#32 <<< wchModePos
def wchModeAnalog : BitVec 32 := 2#32 <<< wchModePos

def wchPupdNoPull : BitVec 32 := 0#32 <<< wchPupdPos
def wchPupdPullUp : BitVec 32 := 1#32 <<< wchPupdPos
def wchPupdPullDown : BitVec 32 := 2#32 <<< wchPupdPos

def wchOutputLow : BitVec 32 := 0#32 <<< wchOutDataPos
def wchOutputHigh : BitVec 32 := 1#32 <<< wchOutDataPos

/-- A word for a port, 0 for port A, without a function. -/
def wchPinmux (port line mode : BitVec 32) : BitVec 32 :=
  (line <<< wchPinPos &&& wchPinMsk) ||| (port <<< wchPortPos &&& wchPortMsk) |||
    (mode &&& wchModeMsk)

/-- The analog functions with the bits of R16_PIN_ANALOG_IE that enable them. -/
def analogFunctions : List (BitVec 32 × BitVec 16) :=
  [(0#32 <<< wchFunPos, 0x40), -- USB_DP_PU
    (1#32 <<< wchFunPos, 0x80), -- USB
    (2#32 <<< wchFunPos, 0x100), -- ADC_8_9
    (3#32 <<< wchFunPos, 0x200), -- ADC_0
    (4#32 <<< wchFunPos, 0x400), -- ADC_1
    (5#32 <<< wchFunPos, 0x800), -- ADC_12
    (6#32 <<< wchFunPos, 0x1000), -- ADC_13
    (7#32 <<< wchFunPos, 0x2000), -- XT32K
    (8#32 <<< wchFunPos, 0x4000), -- ADC_2_3
    (9#32 <<< wchFunPos, 0x8000)] -- ADC_4_5

/-- The alternate functions with the bits of R16_PIN_ALTERNATE. -/
def altFunctions : List (BitVec 32 × BitVec 16) :=
  [(10#32 <<< wchFunPos, 0x1), -- TMR0
    (11#32 <<< wchFunPos, 0x2), -- TMR1
    (12#32 <<< wchFunPos, 0x4), -- TMR2
    (13#32 <<< wchFunPos, 0x10), -- UART0
    (14#32 <<< wchFunPos, 0x20), -- UART1
    (15#32 <<< wchFunPos, 0x100)] -- SPI0

end Layout

section Code

variable (r : PinRegs) (pinmux : BitVec 32)

def halGpioAlernateEnable (perph : BitVec 16) : PinRegs :=
  { r with r16PinAlternate := r.r16PinAlternate ||| perph }

def halGpioAnalogEnable (perph : BitVec 16) : PinRegs :=
  { r with r16PinAnalogIe := r.r16PinAnalogIe ||| perph }

/-- The element of `wch_port`, if the index is in range. -/
def wchPort (index : ℕ) : Option Port := [Port.a, Port.b][index]?

def portOf : Option Port := wchPort ((pinmux &&& wchPortMsk) >>> wchPortPos).toNat
def lineOf : ℕ := ((pinmux &&& wchPinMsk) >>> wchPinPos).toNat

/-- The switch over the alternate functions. -/
def configureAlternate : PinRegs × ℤ :=
  if pinmux &&& wchAltMsk ≠ 0 then
    match altFunctions.lookup (pinmux &&& wchFunMsk) with
    | some perph => (halGpioAlernateEnable r perph, 0)
    | none => (r, -enotsup)
  else (r, 0)

/-- The switch over the modes. -/
def configureMode (port : Port) (pin : BitVec 32) : PinRegs × ℤ :=
  let modeConfig (regs : GpioRegs) (mode : GpioMode) : PinRegs × ℤ :=
    (r.setPort (halGpioModeConfig regs pin mode) port, 0)
  if pinmux &&& wchModeMsk = wchModeIn then
    if pinmux &&& wchPupdMsk = wchPupdNoPull then modeConfig (r.port port) .inFloating
    else if pinmux &&& wchPupdMsk = wchPupdPullUp then modeConfig (r.port port) .inPu
    else if pinmux &&& wchPupdMsk = wchPupdPullDown then modeConfig (r.port port) .inPd
    else (r, -enotsup)
  else if pinmux &&& wchModeMsk = wchModeOut then
    if pinmux &&& wchOutDataMsk = wchOutputLow then
      modeConfig (halGpioPinsReset (r.port port) pin) .outPp5mA
    else if pinmux &&& wchOutDataMsk = wchOutputHigh then
      modeConfig (halGpioPinsSet (r.port port) pin) .outPp5mA
    else (r, -enotsup)
  else if pinmux &&& wchModeMsk = wchModeAnalog then
    match analogFunctions.lookup (pinmux &&& wchFunMsk) with
    -- without a break the case goes on into the default one
    | some perph => (halGpioAnalogEnable r perph, -enotsup)
    | none => (r, -enotsup)
  else (r, -enotsup)

/-- One word; it has no result if the port is not in the table. -/
def configurePin : Option (PinRegs × ℤ) :=
  match portOf pinmux with
  | none => none
  | some port =>
    let (r, ret) := configureAlternate r pinmux
    if ret ≠ 0 then some (r, ret)
    else some (configureMode r pinmux port (BIT (lineOf pinmux)))

end Code

def pinctrlConfigurePins (r : PinRegs) : List (BitVec 32) → Option (PinRegs × ℤ)
  | [] => some (r, 0)
  | pinmux :: pins =>
    match configurePin r pinmux with
    | none => none
    | some (r, ret) => if ret ≠ 0 then some (r, ret) else pinctrlConfigurePins r pins

section Settings

inductive Pull where
  | none
  | up
  | down
  deriving DecidableEq, Repr

inductive Mode where
  | input (pull : Pull)
  | output (high : Bool)
  | analog (function : BitVec 16)
  deriving DecidableEq, Repr

def Mode.isAnalog : Mode → Bool
  | .analog _ => true
  | _ => false

structure Setting where
  port : Port
  line : ℕ
  line_lt : line < 32
  mode : Mode
  alternate : Option (BitVec 16)
  deriving DecidableEq, Repr

def modeOf (pinmux : BitVec 32) : Option Mode :=
  if pinmux &&& wchModeMsk = wchModeIn then
    if pinmux &&& wchPupdMsk = wchPupdNoPull then some (.input .none)
    else if pinmux &&& wchPupdMsk = wchPupdPullUp then some (.input .up)
    else if pinmux &&& wchPupdMsk = wchPupdPullDown then some (.input .down)
    else none
  else if pinmux &&& wchModeMsk = wchModeOut then
    some (.output (pinmux &&& wchOutDataMsk = wchOutputHigh))
  else if pinmux &&& wchModeMsk = wchModeAnalog then
    (analogFunctions.lookup (pinmux &&& wchFunMsk)).map .analog
  else none

/-- No function without the flag, and nothing for an unknown function. -/
def alternateOf (pinmux : BitVec 32) : Option (Option (BitVec 16)) :=
  if pinmux &&& wchAltMsk ≠ 0 then (altFunctions.lookup (pinmux &&& wchFunMsk)).map some
  else some none

lemma lineOf_lt (pinmux : BitVec 32) : lineOf pinmux < 32 := by
  have hmask : ((pinmux &&& wchPinMsk) >>> wchPinPos).toNat ≤ wchPinMsk.toNat := by
    rw [wchPinPos, BitVec.ushiftRight_zero, BitVec.toNat_and]
    exact Nat.and_le_right
  have hval : wchPinMsk.toNat = 31 := by decide
  rw [lineOf]
  omega

/-- What a word encodes. -/
def decode (pinmux : BitVec 32) : Option Setting :=
  match portOf pinmux, modeOf pinmux, alternateOf pinmux with
  | some port, some mode, some alternate =>
    some ⟨port, lineOf pinmux, lineOf_lt pinmux, mode, alternate⟩
  | _, _, _ => none

/-- The word encodes a setting. -/
def encodes (pinmux : BitVec 32) : Bool := (decode pinmux).isSome

/-- The settings of the words before the first one that encodes none. -/
def settings (pins : List (BitVec 32)) : List Setting := (pins.takeWhile encodes).filterMap decode

/-- The bits of all alternate functions of the settings, and of the analog ones. -/
def alternates (ss : List Setting) : BitVec 16 :=
  ss.foldr (fun s bits => s.alternate.getD 0 ||| bits) 0

def Mode.function : Mode → BitVec 16
  | .analog function => function
  | _ => 0

def analogs (ss : List Setting) : BitVec 16 :=
  ss.foldr (fun s bits => s.mode.function ||| bits) 0

/-- The bits of a pin in the registers of its port. -/
structure PinBits where
  dir : Bool
  out : Bool
  pu : Bool
  pdDrv : Bool
  deriving DecidableEq, Repr

def pinBits (regs : GpioRegs) (line : ℕ) : PinBits :=
  ⟨regs.dir.getLsbD line, regs.out.getLsbD line, regs.pu.getLsbD line, regs.pdDrv.getLsbD line⟩

def PinRegs.bits (r : PinRegs) (port : Port) (line : ℕ) : PinBits := pinBits (r.port port) line

/-- The bits after the mode is set. An output is driven with 5 mA and keeps its pull. -/
def Mode.write (b : PinBits) : Mode → PinBits
  | .input pull => { b with dir := false, pu := pull = .up, pdDrv := pull = .down }
  | .output high => { b with dir := true, out := high, pdDrv := false }
  | .analog _ => b

/-- The settings that are the last of their pins. -/
def lasts : List Setting → List Setting
  | [] => []
  | s :: ss =>
    if ∃ t ∈ ss, t.port = s.port ∧ t.line = s.line then lasts ss else s :: lasts ss

/-- The registers show the setting; what a setting without a function leaves off is
said of the table as a whole. -/
structure Shows (r : PinRegs) (s : Setting) : Prop where
  bits : s.mode.write (r.bits s.port s.line) = r.bits s.port s.line
  analog : r.r16PinAnalogIe &&& s.mode.function = s.mode.function
  alternate : r.r16PinAlternate &&& s.alternate.getD 0 = s.alternate.getD 0

/-- Pins and functions that no setting names are left. -/
structure LeavesOthers (r : PinRegs) (ss : List Setting) (r' : PinRegs) : Prop where
  pins : ∀ port line, (∀ s ∈ ss, s.port = port → s.line ≠ line) →
    r'.bits port line = r.bits port line
  alternates : r'.r16PinAlternate &&& ~~~alternates ss = r.r16PinAlternate &&& ~~~alternates ss
  analogs : r'.r16PinAnalogIe &&& ~~~analogs ss = r.r16PinAnalogIe &&& ~~~analogs ss

/-- Of the functions that settings name, those are enabled that the last settings of
the pins name. -/
structure Functions (ss : List Setting) (r' : PinRegs) : Prop where
  alternates : r'.r16PinAlternate &&& alternates ss = alternates (lasts ss)
  analogs : r'.r16PinAnalogIe &&& analogs ss = analogs (lasts ss)

/-- What a table promises: each pin has the setting of its last word. From a word that
encodes nothing on, nothing is configured: with such a word in the table, each pin has
the setting of a word before it, or is left as it was. -/
structure Configured (r : PinRegs) (pins : List (BitVec 32)) (r' : PinRegs) (ret : ℤ) : Prop where
  ret_eq : ret = if ∀ pinmux ∈ pins, encodes pinmux then 0 else -enotsup
  last : (∀ pinmux ∈ pins, encodes pinmux) →
    ∀ ss s ss', settings pins = ss ++ s :: ss' →
      (∀ t ∈ ss', t.port = s.port → t.line ≠ s.line) → Shows r' s
  functions : (∀ pinmux ∈ pins, encodes pinmux) → Functions (settings pins) r'
  before : ∀ port line, r'.bits port line = r.bits port line ∨
    ∃ s ∈ settings pins, s.port = port ∧ s.line = line ∧
      s.mode.write (r'.bits port line) = r'.bits port line
  left : LeavesOthers r (settings pins) r'

end Settings

section Words

variable (r : PinRegs) (s : Setting) {pinmux : BitVec 32}

/-- The registers of a port with a mode set. -/
def Mode.regs (regs : GpioRegs) (pin : BitVec 32) : Mode → GpioRegs
  | .input .none => halGpioModeConfig regs pin .inFloating
  | .input .up => halGpioModeConfig regs pin .inPu
  | .input .down => halGpioModeConfig regs pin .inPd
  | .output false => halGpioModeConfig (halGpioPinsReset regs pin) pin .outPp5mA
  | .output true => halGpioModeConfig (halGpioPinsSet regs pin) pin .outPp5mA
  | .analog _ => regs

/-- The registers with the mode of a pin set. -/
def setMode (port : Port) (pin : BitVec 32) (mode : Mode) : PinRegs :=
  { r.setPort (mode.regs (r.port port) pin) port with
    r16PinAnalogIe := r.r16PinAnalogIe ||| mode.function }

def setAlternate (alternate : Option (BitVec 16)) : PinRegs :=
  { r with r16PinAlternate := r.r16PinAlternate ||| alternate.getD 0 }

/-- The registers with a setting made. -/
def make : PinRegs := setMode (setAlternate r s.alternate) s.port (BIT s.line) s.mode

lemma enotsup_ne : -enotsup ≠ 0 := by decide

lemma low_or_high (pinmux : BitVec 32) :
    pinmux &&& wchOutDataMsk = wchOutputLow ∨ pinmux &&& wchOutDataMsk = wchOutputHigh := by
  have hmask : wchOutDataMsk = BitVec.twoPow 32 13 := by decide
  rw [hmask, BitVec.and_twoPow]
  cases pinmux.getLsbD 13 with
  | false => exact .inl (by decide)
  | true => exact .inr (by decide)

lemma setAlternate_none : setAlternate r none = r := by
  rw [setAlternate, Option.getD_none,
    show r.r16PinAlternate ||| 0 = r.r16PinAlternate from BitVec.or_zero]

lemma configureAlternate_some {alternate : Option (BitVec 16)}
    (h : alternateOf pinmux = some alternate) :
    configureAlternate r pinmux = (setAlternate r alternate, 0) := by
  rw [alternateOf] at h
  rw [configureAlternate]
  split_ifs at h ⊢ with hflag
  · obtain ⟨perph, hperph, rfl⟩ := Option.map_eq_some_iff.mp h
    rw [hperph]
    rfl
  · obtain rfl := Option.some_inj.mp h
    rw [setAlternate_none]

lemma configureAlternate_none (h : alternateOf pinmux = none) :
    configureAlternate r pinmux = (r, -enotsup) := by
  rw [alternateOf] at h
  rw [configureAlternate]
  split_ifs at h ⊢ with hflag
  rw [Option.map_eq_none_iff.mp h]

lemma setMode_plain (mode : Mode) (hmode : mode.isAnalog = false) (port : Port)
    (pin : BitVec 32) :
    setMode r port pin mode = r.setPort (mode.regs (r.port port) pin) port := by
  have hfunction : mode.function = 0 := by
    cases mode with
    | analog function => cases hmode
    | input pull => rfl
    | output high => rfl
  rw [setMode, hfunction, show r.r16PinAnalogIe ||| 0 = r.r16PinAnalogIe from BitVec.or_zero]
  cases port <;> rfl

lemma configureMode_some {mode : Mode} (h : modeOf pinmux = some mode) (port : Port)
    (pin : BitVec 32) : configureMode r pinmux port pin =
      (setMode r port pin mode, if mode.isAnalog then -enotsup else 0) := by
  have hlevel := low_or_high pinmux
  rw [modeOf] at h
  split_ifs at h with hin hno hup hdown hout hanalog
  · obtain rfl := Option.some_inj.mp h
    rw [setMode_plain r (.input .none) rfl]
    simp only [configureMode, if_pos hin, if_pos hno]
    rfl
  · obtain rfl := Option.some_inj.mp h
    rw [setMode_plain r (.input .up) rfl]
    simp only [configureMode, if_pos hin, if_neg hno, if_pos hup]
    rfl
  · obtain rfl := Option.some_inj.mp h
    rw [setMode_plain r (.input .down) rfl]
    simp only [configureMode, if_pos hin, if_neg hno, if_neg hup, if_pos hdown]
    rfl
  · obtain rfl := Option.some_inj.mp h
    have hlow : wchOutputLow ≠ wchOutputHigh := by decide
    rw [setMode_plain r (.output _) rfl]
    obtain hlevel | hlevel := hlevel
    · simp only [configureMode, if_neg hin, if_pos hout, hlevel, if_true, hlow, decide_false]
      rfl
    · simp only [configureMode, if_neg hin, if_pos hout, hlevel, hlow.symm, if_false, if_true,
        decide_true]
      rfl
  · obtain ⟨function, hfunction, rfl⟩ := Option.map_eq_some_iff.mp h
    simp only [configureMode, if_neg hin, if_neg hout, if_pos hanalog, hfunction]
    cases port <;> rfl

lemma configureMode_none (h : modeOf pinmux = none) (port : Port) (pin : BitVec 32) :
    configureMode r pinmux port pin = (r, -enotsup) := by
  rw [modeOf] at h
  rw [configureMode]
  split_ifs at h ⊢
  all_goals first
    | rfl
    | rw [Option.map_eq_none_iff.mp h]

lemma configurePin_out_of_range (h : portOf pinmux = none) : configurePin r pinmux = none := by
  rw [configurePin, h]

/-- A word that encodes a setting makes it, and is rejected if it is an analog one. -/
lemma configurePin_some {s : Setting} (h : decode pinmux = some s) : configurePin r pinmux =
    some (make r s, if s.mode.isAnalog then -enotsup else 0) := by
  rw [decode] at h
  split at h
  case h_2 => cases h
  case h_1 port mode alternate hport hmode halternate =>
    obtain rfl := Option.some_inj.mp h
    rw [configurePin, hport]
    simp only [configureAlternate_some r halternate, configureMode_some _ hmode, ne_eq,
      not_true_eq_false, if_false]
    rfl

/-- A word that encodes none still enables its alternate function. -/
lemma configurePin_none (h : decode pinmux = none) {port : Port} (hport : portOf pinmux = some port) :
    configurePin r pinmux =
      some (setAlternate r ((alternateOf pinmux).getD none), -enotsup) := by
  rw [configurePin, hport]
  cases halternate : alternateOf pinmux with
  | none =>
    rw [Option.getD_none, setAlternate_none]
    simp only [configureAlternate_none r halternate, if_pos enotsup_ne]
  | some alternate =>
    have hmode : modeOf pinmux = none := by
      cases hmode : modeOf pinmux with
      | none => rfl
      | some mode => rw [decode, hport, hmode, halternate] at h; cases h
    simp only [configureAlternate_some r halternate, configureMode_none _ hmode, ne_eq,
      not_true_eq_false, if_false]
    rfl

end Words

section Making

variable {r : PinRegs} {s t : Setting} {ss ss' : List Setting} {port : Port} {line : ℕ}

lemma regs_bits_self (regs : GpioRegs) (hline : line < 32) (mode : Mode) :
    pinBits (mode.regs regs (BIT line)) line = mode.write (pinBits regs line) := by
  have hset := or_BIT_self hline
  have hclear := and_not_BIT_self hline
  cases mode with
  | analog function => rfl
  | input pull =>
    cases pull <;> simp [Mode.regs, Mode.write, halGpioModeConfig, pinBits, hset, hclear]
  | output high =>
    cases high <;> simp [Mode.regs, Mode.write, halGpioModeConfig, halGpioPinsReset,
      halGpioPinsSet, GpioRegs.writeClr, pinBits, hset, hclear]

lemma regs_bits_other (regs : GpioRegs) (hline : line < 32) {i : ℕ} (hi : i ≠ line) (mode : Mode) :
    pinBits (mode.regs regs (BIT line)) i = pinBits regs i := by
  have hset := or_BIT_other hline hi
  have hclear := and_not_BIT_other hline hi
  cases mode with
  | analog function => rfl
  | input pull => cases pull <;> simp [Mode.regs, halGpioModeConfig, pinBits, hset, hclear]
  | output high =>
    cases high <;> simp [Mode.regs, halGpioModeConfig, halGpioPinsReset,
      halGpioPinsSet, GpioRegs.writeClr, pinBits, hset, hclear]

lemma make_port (r : PinRegs) (s : Setting) (port : Port) : (make r s).port port =
    if s.port = port then s.mode.regs (r.port port) (BIT s.line) else r.port port := by
  obtain ⟨p, line, hline, mode, alternate⟩ := s
  cases p <;> cases port <;> rfl

lemma make_alternate (r : PinRegs) (s : Setting) :
    (make r s).r16PinAlternate = r.r16PinAlternate ||| s.alternate.getD 0 := by
  rw [make, setMode]
  cases s.port <;> rfl

lemma make_analog (r : PinRegs) (s : Setting) :
    (make r s).r16PinAnalogIe = r.r16PinAnalogIe ||| s.mode.function := rfl

lemma make_bits_self (r : PinRegs) (s : Setting) :
    (make r s).bits s.port s.line = s.mode.write (r.bits s.port s.line) := by
  rw [PinRegs.bits, make_port, if_pos rfl]
  exact regs_bits_self _ s.line_lt s.mode

lemma make_bits_other (h : s.port = port → s.line ≠ line) :
    (make r s).bits port line = r.bits port line := by
  rw [PinRegs.bits, make_port]
  split_ifs with hport
  · exact regs_bits_other _ s.line_lt (h hport).symm s.mode
  · rfl

lemma or_and_self {w : ℕ} (reg bits : BitVec w) : (reg ||| bits) &&& bits = bits := by
  simp only [BitVec.eq_of_getLsbD_eq_iff, BitVec.getLsbD_and, BitVec.getLsbD_or]
  grind

lemma or_and_of_and {w : ℕ} {reg bits : BitVec w} (more : BitVec w) (h : reg &&& bits = bits) :
    (reg ||| more) &&& bits = bits := by
  rw [BitVec.or_comm, BitVec.and_or_distrib_right, h]
  simp only [BitVec.eq_of_getLsbD_eq_iff, BitVec.getLsbD_and, BitVec.getLsbD_or]
  grind

lemma make_shows (r : PinRegs) (s : Setting) : Shows (make r s) s where
  bits := by
    rw [make_bits_self]
    cases s.mode <;> rfl
  analog := or_and_self _ _
  alternate := by
    rw [make_alternate]
    exact or_and_self _ _

lemma Shows.make (h : Shows r s) (ht : t.port = s.port → t.line ≠ s.line) :
    Shows (make r t) s where
  bits := by
    rw [make_bits_other ht]
    exact h.bits
  analog := or_and_of_and _ h.analog
  alternate := by
    rw [make_alternate]
    exact or_and_of_and _ h.alternate

def makeAll (r : PinRegs) (ss : List Setting) : PinRegs := ss.foldl make r

lemma makeAll_bits_other (h : ∀ s ∈ ss, s.port = port → s.line ≠ line) :
    (makeAll r ss).bits port line = r.bits port line := by
  induction ss generalizing r with
  | nil => rfl
  | cons s ss ih =>
    rw [List.forall_mem_cons] at h
    exact (ih h.2).trans (make_bits_other h.1)

lemma makeAll_alternate (r : PinRegs) (ss : List Setting) :
    (makeAll r ss).r16PinAlternate = r.r16PinAlternate ||| alternates ss := by
  induction ss generalizing r with
  | nil => exact BitVec.or_zero.symm
  | cons s ss ih =>
    refine (ih (make r s)).trans ?_
    rw [make_alternate]
    exact BitVec.or_assoc _ _ _

lemma makeAll_analog (r : PinRegs) (ss : List Setting) :
    (makeAll r ss).r16PinAnalogIe = r.r16PinAnalogIe ||| analogs ss := by
  induction ss generalizing r with
  | nil => exact BitVec.or_zero.symm
  | cons s ss ih =>
    refine (ih (make r s)).trans ?_
    rw [make_analog]
    exact BitVec.or_assoc _ _ _

/-- The mode of a pin can be written once more. -/
lemma Mode.write_write (b : PinBits) (mode : Mode) : mode.write (mode.write b) = mode.write b := by
  cases mode <;> rfl

/-- A pin has a setting that was made, or is left as it was. -/
lemma makeAll_before (r : PinRegs) (ss : List Setting) (port : Port) (line : ℕ) :
    (makeAll r ss).bits port line = r.bits port line ∨
      ∃ s ∈ ss, s.port = port ∧ s.line = line ∧
        s.mode.write ((makeAll r ss).bits port line) = (makeAll r ss).bits port line := by
  induction ss generalizing r with
  | nil => exact .inl rfl
  | cons s ss ih =>
    obtain hleft | ⟨t, ht, hshows⟩ := ih (make r s)
    · have hbits : (Pinctrl.makeAll r (s :: ss)).bits port line = (make r s).bits port line := hleft
      by_cases hpin : s.port = port ∧ s.line = line
      · obtain ⟨rfl, rfl⟩ := hpin
        refine .inr ⟨s, List.mem_cons_self, rfl, rfl, ?_⟩
        rw [hbits, make_bits_self, Mode.write_write]
      · exact .inl (hbits.trans (make_bits_other fun hport hline => hpin ⟨hport, hline⟩))
    · exact .inr ⟨t, List.mem_cons_of_mem s ht, hshows⟩

lemma setAlternate_bits (r : PinRegs) (alternate : Option (BitVec 16)) (port : Port) (line : ℕ) :
    (setAlternate r alternate).bits port line = r.bits port line := by
  cases port <;> rfl

lemma Shows.makeAll (h : Shows r s) (hss : ∀ t ∈ ss, t.port = s.port → t.line ≠ s.line) :
    Shows (makeAll r ss) s := by
  induction ss generalizing r with
  | nil => exact h
  | cons t ss ih =>
    rw [List.forall_mem_cons] at hss
    exact ih (h.make hss.1) hss.2

/-- The last setting of a pin is the one its registers show. -/
lemma makeAll_shows (hss : ∀ t ∈ ss', t.port = s.port → t.line ≠ s.line) :
    Shows (makeAll r (ss ++ s :: ss')) s := by
  rw [Pinctrl.makeAll, List.foldl_append]
  exact (make_shows _ s).makeAll hss

end Making

section Tables

variable {r r' : PinRegs} {ws pins : List (BitVec 32)} {ss : List Setting} {pinmux : BitVec 32}
  {ret : ℤ}

lemma encodes_of_some {s : Setting} (h : decode pinmux = some s) : encodes pinmux = true := by
  rw [encodes, h]
  rfl

lemma encodes_of_map (hws : ws.map decode = ss.map some) : ∀ w ∈ ws, encodes w = true := by
  intro w hw
  have hmem : decode w ∈ ss.map some := hws ▸ List.mem_map_of_mem hw
  obtain ⟨s, -, hs⟩ := List.mem_map.mp hmem
  exact encodes_of_some hs.symm

lemma settings_append (hws : ws.map decode = ss.map some) (pins : List (BitVec 32)) :
    settings (ws ++ pins) = ss ++ settings pins := by
  have hvalues : ws.filterMap decode = ss :=
    calc ws.filterMap decode = (ws.map decode).filterMap id := by rw [List.filterMap_map]; rfl
      _ = ss.filterMap some := by rw [hws, List.filterMap_map]; rfl
      _ = ss := List.filterMap_some
  rw [settings, List.takeWhile_append_of_pos (encodes_of_map hws), List.filterMap_append, hvalues]
  rfl

lemma settings_cons_some {s : Setting} (h : decode pinmux = some s) (pins : List (BitVec 32)) :
    settings (pinmux :: pins) = s :: settings pins := by
  rw [settings, List.takeWhile_cons_of_pos (encodes_of_some h), List.filterMap_cons_some h]
  rfl

lemma settings_cons_none (h : decode pinmux = none) (pins : List (BitVec 32)) :
    settings (pinmux :: pins) = [] := by
  have hnot : ¬ encodes pinmux = true := by simp [encodes, h]
  rw [settings, List.takeWhile_cons_of_neg hnot]
  rfl

/-- The words before the first one that the code rejects are done one after another. -/
lemma configurePins_plain (hws : ws.map decode = ss.map some)
    (hplain : ∀ s ∈ ss, s.mode.isAnalog = false) (r : PinRegs) (pins : List (BitVec 32)) :
    pinctrlConfigurePins r (ws ++ pins) = pinctrlConfigurePins (makeAll r ss) pins := by
  induction ws generalizing ss r with
  | nil =>
    obtain rfl := List.map_eq_nil_iff.mp hws.symm
    rfl
  | cons w ws ih =>
    cases ss with
    | nil => cases hws
    | cons s ss =>
      rw [List.map_cons, List.map_cons, List.cons.injEq] at hws
      rw [List.forall_mem_cons] at hplain
      rw [List.cons_append, pinctrlConfigurePins, configurePin_some r hws.1, hplain.1]
      exact ih hws.2 hplain.2 (make r s)

/-- Every table has its words up to the first one that the code rejects. -/
lemma plain_append (pins : List (BitVec 32)) :
    ∃ (ws : List (BitVec 32)) (ss : List Setting) (pins' : List (BitVec 32)),
      pins = ws ++ pins' ∧ ws.map decode = ss.map some ∧
      (∀ s ∈ ss, s.mode.isAnalog = false) ∧
      ∀ pinmux ∈ pins'.head?, ∀ s ∈ decode pinmux, s.mode.isAnalog = true := by
  induction pins with
  | nil => exact ⟨[], [], [], rfl, rfl, by simp, by simp⟩
  | cons pinmux pins ih =>
    by_cases hrejected : ∀ s ∈ decode pinmux, s.mode.isAnalog = true
    · exact ⟨[], [], pinmux :: pins, rfl, rfl, by simp, by simpa using hrejected⟩
    · push Not at hrejected
      obtain ⟨s, hs, hplain⟩ := hrejected
      obtain ⟨ws, ss, pins', rfl, hws, hss, hhead⟩ := ih
      refine ⟨pinmux :: ws, s :: ss, pins', rfl, ?_, ?_, hhead⟩
      · rw [List.map_cons, List.map_cons, hws, Option.mem_def.mp hs]
      · exact List.forall_mem_cons.mpr ⟨Bool.eq_false_iff.mpr hplain, hss⟩

/-- When a table is configured as promised: it has no analog word, and each alternate
function that it names is one of the last word of a pin. With a word that encodes
nothing, there is an analog word before it, or it has a port of the table, and no
alternate function that was not enabled before. -/
structure Supported (r : PinRegs) (pins : List (BitVec 32)) : Prop where
  valid : (∀ pinmux ∈ pins, encodes pinmux) →
    (∀ s ∈ settings pins, s.mode.isAnalog = false) ∧
      alternates (settings pins) = alternates (lasts (settings pins))
  invalid : ∀ pinmux ∈ (pins.dropWhile encodes).head?,
    (∃ s ∈ settings pins, s.mode.isAnalog = true) ∨
      (portOf pinmux).isSome ∧
        ((alternateOf pinmux).getD none).getD 0 &&&
          ~~~(r.r16PinAlternate ||| alternates (settings pins)) = 0

lemma alternates_append (ss ss' : List Setting) :
    alternates (ss ++ ss') = alternates ss ||| alternates ss' := by
  induction ss with
  | nil => exact BitVec.zero_or.symm
  | cons s ss ih =>
    rw [List.cons_append, alternates, List.foldr_cons, ← alternates, ih]
    exact (BitVec.or_assoc _ _ _).symm

lemma analogs_append (ss ss' : List Setting) :
    analogs (ss ++ ss') = analogs ss ||| analogs ss' := by
  induction ss with
  | nil => exact BitVec.zero_or.symm
  | cons s ss ih =>
    rw [List.cons_append, analogs, List.foldr_cons, ← analogs, ih]
    exact (BitVec.or_assoc _ _ _).symm

/-- Settings that are not analog name no analog function. -/
lemma analogs_plain (hplain : ∀ s ∈ ss, s.mode.isAnalog = false) : analogs ss = 0 := by
  induction ss with
  | nil => rfl
  | cons s ss ih =>
    rw [List.forall_mem_cons] at hplain
    have hfunction : s.mode.function = 0 := by
      cases hmode : s.mode with
      | analog function => rw [hmode] at hplain; cases hplain.1
      | input pull => rfl
      | output high => rfl
    rw [analogs, List.foldr_cons, ← analogs, ih hplain.2, hfunction]
    rfl

lemma mem_of_mem_lasts {s : Setting} (h : s ∈ lasts ss) : s ∈ ss := by
  induction ss with
  | nil => exact h
  | cons t ss ih =>
    rw [lasts] at h
    split_ifs at h with hlater
    · exact List.mem_cons_of_mem t (ih h)
    · obtain rfl | hmem := List.mem_cons.mp h
      · exact List.mem_cons_self
      · exact List.mem_cons_of_mem t (ih hmem)

/-- All functions named are enabled, so none of them may be one that was replaced. -/
lemma functions_makeAll_iff (hplain : ∀ s ∈ ss, s.mode.isAnalog = false) (r : PinRegs) :
    Functions ss (makeAll r ss) ↔ alternates ss = alternates (lasts ss) := by
  have hnamed : (makeAll r ss).r16PinAlternate &&& alternates ss = alternates ss := by
    rw [makeAll_alternate]
    exact or_and_self _ _
  have hlasts : ∀ s ∈ lasts ss, s.mode.isAnalog = false := fun s hs =>
    hplain s (mem_of_mem_lasts hs)
  constructor
  · intro h
    rw [← h.alternates, hnamed]
  · intro h
    refine ⟨hnamed.trans h, ?_⟩
    rw [analogs_plain hplain, analogs_plain hlasts]
    exact BitVec.and_zero

/-- Bits that are named may be set. -/
lemma or_and_not {w : ℕ} (reg bits bits' : BitVec w) :
    (reg ||| bits) &&& ~~~(bits ||| bits') = reg &&& ~~~(bits ||| bits') := by
  simp only [BitVec.eq_of_getLsbD_eq_iff, BitVec.getLsbD_and, BitVec.getLsbD_or,
    BitVec.getLsbD_not]
  grind

lemma or_or_and_not_iff {w : ℕ} (reg bits more : BitVec w) :
    (reg ||| bits ||| more) &&& ~~~bits = reg &&& ~~~bits ↔ more &&& ~~~(reg ||| bits) = 0#w := by
  simp only [BitVec.eq_of_getLsbD_eq_iff, BitVec.getLsbD_and, BitVec.getLsbD_or,
    BitVec.getLsbD_not, BitVec.getLsbD_zero]
  grind

lemma leavesOthers_makeAll (r : PinRegs) (ss ss' : List Setting) :
    LeavesOthers r (ss ++ ss') (makeAll r ss) where
  pins port line h := makeAll_bits_other fun s hs => h s (List.mem_append_left ss' hs)
  alternates := by
    rw [makeAll_alternate, alternates_append]
    exact or_and_not _ _ _
  analogs := by
    rw [makeAll_analog, analogs_append]
    exact or_and_not _ _ _

/-- A function that is enabled besides was enabled before, or is one of the settings. -/
lemma leavesOthers_setAlternate (r : PinRegs) (ss : List Setting) (alternate : Option (BitVec 16)) :
    LeavesOthers r ss (setAlternate (makeAll r ss) alternate) ↔
      alternate.getD 0 &&& ~~~(r.r16PinAlternate ||| alternates ss) = 0 := by
  have hleft : LeavesOthers r ss (makeAll r ss) := by
    simpa using leavesOthers_makeAll r ss []
  refine Iff.trans ?_ (or_or_and_not_iff r.r16PinAlternate (alternates ss) (alternate.getD 0))
  rw [← makeAll_alternate]
  exact ⟨fun h => h.alternates, fun h => ⟨hleft.pins, h, hleft.analogs⟩⟩

end Tables

section Results

variable {r : PinRegs} {ws post : List (BitVec 32)} {ss : List Setting} {pinmux : BitVec 32}

/-- The call has a result, and the table is configured as promised. -/
def Correct (r : PinRegs) (pins : List (BitVec 32)) : Prop :=
  ∃ r' ret, pinctrlConfigurePins r pins = some (r', ret) ∧ Configured r pins r' ret

lemma correct_of_eq {pins : List (BitVec 32)} {r' : PinRegs} {ret : ℤ}
    (h : pinctrlConfigurePins r pins = some (r', ret)) :
    Correct r pins ↔ Configured r pins r' ret := by
  constructor
  · rintro ⟨r₁, ret₁, h₁, hconfigured⟩
    rw [h, Option.some_inj, Prod.mk.injEq] at h₁
    obtain ⟨rfl, rfl⟩ := h₁
    exact hconfigured
  · exact fun hconfigured => ⟨r', ret, h, hconfigured⟩

lemma correct_plain (hws : ws.map decode = ss.map some)
    (hplain : ∀ s ∈ ss, s.mode.isAnalog = false) : Correct r ws ↔ Supported r ws := by
  have hencodes := encodes_of_map hws
  have hsettings : settings ws = ss := by simpa [settings] using settings_append hws []
  have hcall : pinctrlConfigurePins r ws = some (makeAll r ss, 0) := by
    simpa [pinctrlConfigurePins] using configurePins_plain hws hplain r []
  rw [correct_of_eq hcall]
  constructor
  · intro h
    have hfunctions := h.functions hencodes
    rw [hsettings, functions_makeAll_iff hplain] at hfunctions
    refine ⟨fun _ => ?_, ?_⟩
    · rw [hsettings]
      exact ⟨hplain, hfunctions⟩
    · rw [List.dropWhile_eq_nil_iff.mpr hencodes]
      simp
  · intro h
    have hfunctions := (h.valid hencodes).2
    rw [hsettings, ← functions_makeAll_iff hplain r] at hfunctions
    refine ⟨(if_pos hencodes).symm, ?_, fun _ => ?_, ?_, ?_⟩
    · rintro - ss₁ s ss₂ hsplit hlast
      rw [← hsettings, hsplit]
      exact makeAll_shows hlast
    · rwa [hsettings]
    · rw [hsettings]
      exact makeAll_before r ss
    · rw [hsettings]
      simpa using leavesOthers_makeAll r ss []

/-- An analog word is rejected as if it encoded nothing. -/
lemma correct_analog (hws : ws.map decode = ss.map some)
    (hplain : ∀ s ∈ ss, s.mode.isAnalog = false) {s : Setting} (hs : decode pinmux = some s)
    (hanalog : s.mode.isAnalog = true) :
    Correct r (ws ++ pinmux :: post) ↔ Supported r (ws ++ pinmux :: post) := by
  have hcall : pinctrlConfigurePins r (ws ++ pinmux :: post) =
      some (makeAll r (ss ++ [s]), -enotsup) := by
    rw [configurePins_plain hws hplain, pinctrlConfigurePins, configurePin_some _ hs, hanalog,
      makeAll, makeAll, List.foldl_append]
    rfl
  have hsettings : settings (ws ++ pinmux :: post) = (ss ++ [s]) ++ settings post := by
    rw [settings_append hws, settings_cons_some hs, List.append_assoc, List.singleton_append]
  have hmem : s ∈ settings (ws ++ pinmux :: post) := by
    rw [hsettings]
    simp
  rw [correct_of_eq hcall]
  by_cases hall : ∀ w ∈ ws ++ pinmux :: post, encodes w
  · refine iff_of_false (fun h => ?_) (fun h => ?_)
    · have hret := h.ret_eq
      rw [if_pos hall] at hret
      exact enotsup_ne hret
    · have hnot := (h.valid hall).1 s hmem
      rw [hanalog] at hnot
      cases hnot
  · refine iff_of_true ⟨(if_neg hall).symm, fun h => absurd h hall, fun h => absurd h hall, ?_, ?_⟩
      ⟨fun h => absurd h hall, fun _ _ => .inl ⟨s, hmem, hanalog⟩⟩
    · intro port line
      rw [hsettings]
      refine (makeAll_before r (ss ++ [s]) port line).imp_right ?_
      rintro ⟨t, ht, hshows⟩
      exact ⟨t, List.mem_append_left _ ht, hshows⟩
    · rw [hsettings]
      exact leavesOthers_makeAll r (ss ++ [s]) (settings post)

/-- What is asked of the first word that encodes nothing, if no analog word is before it. -/
lemma supported_invalid_iff (hws : ws.map decode = ss.map some)
    (hplain : ∀ s ∈ ss, s.mode.isAnalog = false) (hnone : decode pinmux = none) :
    Supported r (ws ++ pinmux :: post) ↔ (portOf pinmux).isSome ∧
      ((alternateOf pinmux).getD none).getD 0 &&& ~~~(r.r16PinAlternate ||| alternates ss) = 0 := by
  have hsettings : settings (ws ++ pinmux :: post) = ss := by
    rw [settings_append hws, settings_cons_none hnone, List.append_nil]
  have hnot : ¬ encodes pinmux = true := by simp [encodes, hnone]
  have hhead : ((ws ++ pinmux :: post).dropWhile encodes).head? = some pinmux := by
    rw [List.dropWhile_append_of_pos (encodes_of_map hws), List.dropWhile_cons_of_neg hnot,
      List.head?_cons]
  constructor
  · intro h
    have hinvalid := h.invalid pinmux hhead
    rw [hsettings] at hinvalid
    refine hinvalid.resolve_left ?_
    rintro ⟨s, hs, hanalog⟩
    rw [hplain s hs] at hanalog
    cases hanalog
  · intro h
    refine ⟨fun hencodes => ?_, fun w hw => .inr ?_⟩
    · exact absurd (hencodes pinmux (List.mem_append_right ws List.mem_cons_self)) hnot
    · rw [hhead, Option.mem_some] at hw
      rwa [← hw, hsettings]

lemma correct_invalid (hws : ws.map decode = ss.map some)
    (hplain : ∀ s ∈ ss, s.mode.isAnalog = false) (hnone : decode pinmux = none) :
    Correct r (ws ++ pinmux :: post) ↔ Supported r (ws ++ pinmux :: post) := by
  rw [supported_invalid_iff hws hplain hnone]
  cases hport : portOf pinmux with
  | none =>
    have hcall : pinctrlConfigurePins r (ws ++ pinmux :: post) = none := by
      rw [configurePins_plain hws hplain, pinctrlConfigurePins, configurePin_out_of_range _ hport]
    refine iff_of_false ?_ (fun h => Bool.false_ne_true h.1)
    rintro ⟨r', ret, h, -⟩
    rw [hcall] at h
    cases h
  | some port =>
    have hcall : pinctrlConfigurePins r (ws ++ pinmux :: post) =
        some (setAlternate (makeAll r ss) ((alternateOf pinmux).getD none), -enotsup) := by
      rw [configurePins_plain hws hplain, pinctrlConfigurePins, configurePin_none _ hnone hport]
      rfl
    have hsettings : settings (ws ++ pinmux :: post) = ss := by
      rw [settings_append hws, settings_cons_none hnone, List.append_nil]
    have hall : ¬ ∀ w ∈ ws ++ pinmux :: post, encodes w := by
      intro h
      have hencodes := h pinmux (List.mem_append_right ws List.mem_cons_self)
      rw [encodes, hnone] at hencodes
      exact Bool.false_ne_true hencodes
    rw [correct_of_eq hcall, ← leavesOthers_setAlternate]
    constructor
    · intro h
      have hleft := h.left
      rw [hsettings] at hleft
      exact ⟨rfl, hleft⟩
    · intro h
      refine ⟨(if_neg hall).symm, fun hencodes => absurd hencodes hall,
        fun hencodes => absurd hencodes hall, fun port line => ?_, ?_⟩
      · rw [hsettings, setAlternate_bits]
        exact makeAll_before r ss port line
      · rw [hsettings]
        exact h.2

/-- A pin that is given up as an alternate one in the same table stays one. -/
example :
    let r : PinRegs := ⟨⟨0, 0, 0, 0, 0⟩, ⟨0, 0, 0, 0, 0⟩, 0, 0⟩
    let plain := wchPinmux 0 14 wchModeIn
    (pinctrlConfigurePins r [plain ||| wchAltMsk ||| 13#32 <<< wchFunPos, plain]).map
      (fun out => out.1.r16PinAlternate) = some 0x10 := by decide

/-- The UART pins with the alternate flag name no function. -/
example : encodes (wchPinmux 0 14 wchModeOut ||| wchOutputHigh ||| wchAltMsk) = false := by decide

end Results

end WchIotSdk.Pinctrl
