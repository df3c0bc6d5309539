import WchIotSdk.RegisterFields

/-!
# Writing a GPIO port

The masked writes of the GPIO interface invert the value for active-low pins,
merge it with the pin levels outside the mask and set the bits of the result in
the output latch. CLR reads as 0, and a 1 written to it clears a bit of the latch.
-/
namespace WchIotSdk.Gpio
open RegisterFields

/-- `WCH_GPIO_Type`, but for CLR. PIN has the levels of the pins. -/
structure GpioRegs where
  dir : BitVec 32
  pin : BitVec 32
  out : BitVec 32
  pu : BitVec 32
  pdDrv : BitVec 32
  deriving DecidableEq, Repr

/-- A port with the mask of its active-low pins. -/
structure GpioDevice where
  regs : GpioRegs
  invert : BitVec 32
  deriving DecidableEq, Repr

def BIT (pin : ℕ) : BitVec 32 := 1#32 <<< pin

section Hal

variable (r : GpioRegs) (pins : BitVec 32)

def GpioRegs.writeClr (value : BitVec 32) : GpioRegs := { r with out := r.out &&& ~~~value }

def halGpioPinsReset : GpioRegs := r.writeClr (0 ||| pins)
def halGpioPinsSet : GpioRegs := { r with out := r.out ||| pins }
def halGpioPinsInvert : GpioRegs := { r with out := r.out ^^^ pins }
def halGpioPortGet : BitVec 32 := r.pin

end Hal

section Driver

variable (d : GpioDevice) (mask value pins : BitVec 32)

def gpioWchPortSetMaskedRaw : GpioDevice × ℤ :=
  let getVal := halGpioPortGet d.regs
  ({ d with regs := halGpioPinsSet d.regs ((mask &&& value) ||| (getVal &&& ~~~mask)) }, 0)

def gpioWchPortSetBitsRaw : GpioDevice × ℤ := ({ d with regs := halGpioPinsSet d.regs pins }, 0)
def gpioWchPortClearBitsRaw : GpioDevice × ℤ :=
  ({ d with regs := halGpioPinsReset d.regs pins }, 0)
def gpioWchPortToggleBits : GpioDevice × ℤ := ({ d with regs := halGpioPinsInvert d.regs pins }, 0)

end Driver

section Interface

variable (d : GpioDevice) (mask value pins setPins clearPins : BitVec 32)

def gpioPortSetMaskedRaw : GpioDevice × ℤ := gpioWchPortSetMaskedRaw d mask value

def gpioPortSetMasked : GpioDevice × ℤ :=
  let value := value ^^^ d.invert
  gpioPortSetMaskedRaw d mask value

def gpioPortSetBitsRaw : GpioDevice × ℤ := gpioWchPortSetBitsRaw d pins
def gpioPortSetBits : GpioDevice × ℤ := gpioPortSetMasked d pins pins
def gpioPortClearBitsRaw : GpioDevice × ℤ := gpioWchPortClearBitsRaw d pins
def gpioPortClearBits : GpioDevice × ℤ := gpioPortSetMasked d pins 0

def gpioPortSetClrBitsRaw : GpioDevice × ℤ :=
  gpioPortSetMaskedRaw d (setPins ||| clearPins) setPins

def gpioPortSetClrBits : GpioDevice × ℤ := gpioPortSetMasked d (setPins ||| clearPins) setPins

def gpioPortToggleBits : GpioDevice × ℤ := gpioWchPortToggleBits d pins
def gpioPinToggle (pin : ℕ) : GpioDevice × ℤ := gpioPortToggleBits d (BIT pin)

def gpioPinSetRaw (pin : ℕ) (value : ℤ) : GpioDevice × ℤ :=
  if value ≠ 0 then gpioPortSetBitsRaw d (BIT pin) else gpioPortClearBitsRaw d (BIT pin)

def gpioPinSet (pin : ℕ) (value : ℤ) : GpioDevice × ℤ :=
  let value := if d.invert &&& BIT pin ≠ 0 then (if value ≠ 0 then 0 else 1) else value
  gpioPinSetRaw d pin value

end Interface

section Toggle

variable (d : GpioDevice) (pins : BitVec 32)

/-- Toggling inverts the latches of the selected pins, of whatever level they are active,
and leaves the others. -/
theorem gpioPortToggleBits_out :
    (gpioPortToggleBits d pins).1.regs.out &&& pins = ~~~d.regs.out &&& pins ∧
      (gpioPortToggleBits d pins).1.regs.out &&& ~~~pins = d.regs.out &&& ~~~pins := by
  change (d.regs.out ^^^ pins) &&& pins = _ ∧ (d.regs.out ^^^ pins) &&& ~~~pins = _
  simp only [BitVec.eq_of_getLsbD_eq_iff, BitVec.getLsbD_and, BitVec.getLsbD_xor,
    BitVec.getLsbD_not]
  grind

theorem gpioPortToggleBits_twice :
    (gpioPortToggleBits (gpioPortToggleBits d pins).1 pins).1 = d := by
  have hout : d.regs.out ^^^ pins ^^^ pins = d.regs.out := by
    rw [BitVec.xor_assoc, BitVec.xor_self, BitVec.xor_zero]
  simp [gpioPortToggleBits, gpioWchPortToggleBits, halGpioPinsInvert, hout]

example (pin : ℕ) : (gpioPinToggle (gpioPinToggle d pin).1 pin).1 = d :=
  gpioPortToggleBits_twice d (BIT pin)

end Toggle

/-- A call that writes several pins. -/
inductive PortWrite where
  | maskedRaw (mask value : BitVec 32)
  | masked (mask value : BitVec 32)
  | setBits (pins : BitVec 32)
  | clearBits (pins : BitVec 32)
  | setClrBitsRaw (setPins clearPins : BitVec 32)
  | setClrBits (setPins clearPins : BitVec 32)
  deriving DecidableEq, Repr

namespace PortWrite

def exec (d : GpioDevice) : PortWrite → GpioDevice × ℤ
  | maskedRaw mask value => gpioPortSetMaskedRaw d mask value
  | masked mask value => gpioPortSetMasked d mask value
  | setBits pins => gpioPortSetBits d pins
  | clearBits pins => gpioPortClearBits d pins
  | setClrBitsRaw setPins clearPins => gpioPortSetClrBitsRaw d setPins clearPins
  | setClrBits setPins clearPins => gpioPortSetClrBits d setPins clearPins

/-- The pins selected. Set and clear pins do not overlap, as is asserted. -/
def pins : PortWrite → BitVec 32
  | maskedRaw mask _ | masked mask _ => mask
  | setBits pins | clearBits pins => pins
  | setClrBitsRaw setPins clearPins | setClrBits setPins clearPins => setPins ||| clearPins

/-- The physical levels requested for them. -/
def levels (invert : BitVec 32) : PortWrite → BitVec 32
  | maskedRaw _ value => value
  | masked _ value => value ^^^ invert
  | setBits _ => ~~~invert
  | clearBits _ => invert
  | setClrBitsRaw setPins _ => setPins
  | setClrBits setPins _ => setPins ^^^ invert

end PortWrite

/-- The selected pins are driven to the levels requested, the others are left. -/
structure Drives (d : GpioDevice) (w : PortWrite) : Prop where
  selected : (w.exec d).1.regs.out &&& w.pins = w.levels d.invert &&& w.pins
  others : (w.exec d).1.regs.out &&& ~~~w.pins = d.regs.out &&& ~~~w.pins

section Writes

variable (d : GpioDevice)

lemma and_xor_self {w : ℕ} (pins invert : BitVec w) :
    pins &&& (pins ^^^ invert) = pins &&& ~~~invert := by
  simp only [BitVec.eq_of_getLsbD_eq_iff, BitVec.getLsbD_and, BitVec.getLsbD_xor,
    BitVec.getLsbD_not]
  grind

/-- The latch after any of the calls: the levels are merged in, and so are the
levels of the pins outside. -/
lemma exec_out (w : PortWrite) : (w.exec d).1.regs.out =
    d.regs.out ||| ((w.pins &&& w.levels d.invert) ||| (d.regs.pin &&& ~~~w.pins)) := by
  cases w with
  | maskedRaw mask value => rfl
  | masked mask value => rfl
  | setBits pins =>
    show d.regs.out ||| ((pins &&& (pins ^^^ d.invert)) ||| _) = _
    rw [and_xor_self]
    rfl
  | clearBits pins =>
    show d.regs.out ||| ((pins &&& (0 ^^^ d.invert)) ||| _) = _
    rw [show (0 : BitVec 32) ^^^ d.invert = d.invert from BitVec.zero_xor]
    rfl
  | setClrBitsRaw setPins clearPins => rfl
  | setClrBits setPins clearPins => rfl

/-- Setting bits drives them up only if none is to be cleared. -/
lemma selected_iff {w : ℕ} (out pin mask level : BitVec w) :
    (out ||| ((mask &&& level) ||| (pin &&& ~~~mask))) &&& mask = level &&& mask ↔
      out &&& mask &&& ~~~level = 0#w := by
  simp only [BitVec.eq_of_getLsbD_eq_iff, BitVec.getLsbD_and, BitVec.getLsbD_or,
    BitVec.getLsbD_not, BitVec.getLsbD_zero]
  grind

/-- The others are left only if none of them is high with a latch that is low. -/
lemma others_iff {w : ℕ} (out pin mask level : BitVec w) :
    (out ||| ((mask &&& level) ||| (pin &&& ~~~mask))) &&& ~~~mask = out &&& ~~~mask ↔
      pin &&& ~~~mask &&& ~~~out = 0#w := by
  simp only [BitVec.eq_of_getLsbD_eq_iff, BitVec.getLsbD_and, BitVec.getLsbD_or,
    BitVec.getLsbD_not, BitVec.getLsbD_zero]
  grind

end Writes

/-- A write does what it should exactly if no selected pin has to go from high to
low, and no other pin is high while its latch is low. -/
theorem drives_iff (d : GpioDevice) (w : PortWrite) :
    Drives d w ↔
      d.regs.out &&& w.pins &&& ~~~(w.levels d.invert) = 0 ∧
        d.regs.pin &&& ~~~w.pins &&& ~~~d.regs.out = 0 := by
  constructor
  · intro h
    have hselected := h.selected
    have hothers := h.others
    rw [exec_out] at hselected hothers
    exact ⟨(selected_iff _ _ _ _).mp hselected, (others_iff _ _ _ _).mp hothers⟩
  · intro h
    constructor
    · rw [exec_out]
      exact (selected_iff _ _ _ _).mpr h.1
    · rw [exec_out]
      exact (others_iff _ _ _ _).mpr h.2

/-- Pin 0 is high and cannot be cleared by a masked write. -/
theorem masked_write_cannot_clear :
    ((PortWrite.maskedRaw 0x1 0x0).exec ⟨⟨0x1, 0x1, 0x1, 0, 0⟩, 0⟩).1.regs.out = 0x1 ∧
      ¬ Drives ⟨⟨0x1, 0x1, 0x1, 0, 0⟩, 0⟩ (.maskedRaw 0x1 0x0) := by
  have hout : ((PortWrite.maskedRaw 0x1 0x0).exec ⟨⟨0x1, 0x1, 0x1, 0, 0⟩, 0⟩).1.regs.out = 0x1 := by
    decide
  refine ⟨hout, fun h => ?_⟩
  have hselected := h.selected
  rw [hout] at hselected
  exact absurd hselected (by decide)

end WchIotSdk.Gpio
