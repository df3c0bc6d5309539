import WchIotSdk.GpioPort

/-!
# Configuring a pin

`gpio_pin_configure` translates the logical initial level to a physical one,
records whether the pin is active low and calls the driver, which sets the
initial level and the mode of the pin.
-/
namespace WchIotSdk.Gpio

/-- The flags of a pin. -/
def gpioActiveLow : BitVec 32 := BIT 0
def gpioSingleEnded : BitVec 32 := BIT 1
def gpioLineOpenDrain : BitVec 32 := BIT 2
def gpioPullUp : BitVec 32 := BIT 4
def gpioPullDown : BitVec 32 := BIT 5
def gpioInput : BitVec 32 := BIT 16
def gpioOutput : BitVec 32 := BIT 17
def gpioOutputInitLow : BitVec 32 := BIT 18
def gpioOutputInitHigh : BitVec 32 := BIT 19
def gpioOutputInitLogical : BitVec 32 := BIT 20
def gpioIntMask : BitVec 32 := BIT 21 ||| BIT 22 ||| BIT 23 ||| BIT 24 ||| BIT 25 ||| BIT 26

def enotsup : ℤ := 134

/-- `gpio_mode_t`. -/
inductive GpioMode where
  | inFloating | inPu | inPd | outPp5mA | outPp20mA | analog
  deriving DecidableEq, Repr

def halGpioModeConfig (r : GpioRegs) (pins : BitVec 32) : GpioMode → GpioRegs
  | .inFloating =>
    { r with pdDrv := r.pdDrv &&& ~~~pins, pu := r.pu &&& ~~~pins, dir := r.dir &&& ~~~pins }
  | .inPu => { r with pdDrv := r.pdDrv &&& ~~~pins, pu := r.pu ||| pins, dir := r.dir &&& ~~~pins }
  | .inPd => { r with pdDrv := r.pdDrv ||| pins, pu := r.pu &&& ~~~pins, dir := r.dir &&& ~~~pins }
  | .outPp5mA => { r with pdDrv := r.pdDrv &&& ~~~pins, dir := r.dir ||| pins }
  | .outPp20mA => { r with pdDrv := r.pdDrv ||| pins, dir := r.dir ||| pins }
  | .analog => r

/-- The mode and the error; without input or output the mode is left as it is. -/
def gpioWchFlagsToCfg (flag : BitVec 32) (pinCfg : GpioMode) : GpioMode × ℤ :=
  if flag &&& gpioOutput ≠ 0 then
    if flag &&& gpioSingleEnded ≠ 0 then (pinCfg, -enotsup) else (.outPp5mA, 0)
  else if flag &&& gpioInput ≠ 0 then
    if flag &&& gpioPullUp ≠ 0 then (.inPu, 0)
    else if flag &&& gpioPullDown ≠ 0 then (.inPd, 0)
    else (.inFloating, 0)
  else (pinCfg, 0)

def gpioWchPinConfigure (d : GpioDevice) (pin : ℕ) (flags : BitVec 32) : GpioDevice × ℤ :=
  let (pinCfg, err) := gpioWchFlagsToCfg flags .inFloating
  if err ≠ 0 then (d, err)
  else
    let d :=
      if flags &&& gpioOutput ≠ 0 then
        if flags &&& gpioOutputInitLow ≠ 0 then (gpioWchPortSetBitsRaw d (BIT pin)).1
        else if flags &&& gpioOutputInitHigh ≠ 0 then (gpioWchPortClearBitsRaw d (BIT pin)).1
        else d
      else d
    ({ d with regs := halGpioModeConfig d.regs (BIT pin) pinCfg }, 0)

/-- The flags that the driver is passed. -/
def driverFlags (flags : BitVec 32) : BitVec 32 :=
  let flags :=
    if flags &&& gpioOutputInitLogical ≠ 0 ∧
        flags &&& (gpioOutputInitLow ||| gpioOutputInitHigh) ≠ 0 ∧
        flags &&& gpioActiveLow ≠ 0 then
      flags ^^^ (gpioOutputInitLow ||| gpioOutputInitHigh)
    else flags
  flags &&& ~~~gpioOutputInitLogical

def gpioPinConfigure (d : GpioDevice) (pin : ℕ) (flags : BitVec 32) : GpioDevice × ℤ :=
  let flags := driverFlags flags
  let d :=
    if flags &&& gpioActiveLow ≠ 0 then { d with invert := d.invert ||| BIT pin }
    else { d with invert := d.invert &&& ~~~BIT pin }
  gpioWchPinConfigure d pin flags

/-- The assertions of `gpio_pin_configure`. -/
structure Asserted (portPinMask : BitVec 32) (pin : ℕ) (flags : BitVec 32) : Prop where
  no_interrupt : flags &&& gpioIntMask = 0
  one_pull : flags &&& (gpioPullUp ||| gpioPullDown) ≠ gpioPullUp ||| gpioPullDown
  single_ended_output : flags &&& gpioOutput ≠ 0 ∨ flags &&& gpioSingleEnded = 0
  open_drain_single_ended : flags &&& gpioSingleEnded ≠ 0 ∨ flags &&& gpioLineOpenDrain = 0
  init_output : flags &&& (gpioOutputInitLow ||| gpioOutputInitHigh) = 0 ∨ flags &&& gpioOutput ≠ 0
  one_init : flags &&& (gpioOutputInitLow ||| gpioOutputInitHigh) ≠
    gpioOutputInitLow ||| gpioOutputInitHigh
  supported : portPinMask &&& BIT pin ≠ 0

section Bits

/-- A flag is a bit. -/
lemma and_BIT_ne_zero_iff {k : ℕ} (hk : k < 32) (x : BitVec 32) :
    x &&& BIT k ≠ 0 ↔ x.getLsbD k = true := by
  have htwo : BIT k = BitVec.twoPow 32 k := (BitVec.twoPow_eq 32 k).symm
  rw [htwo, BitVec.and_twoPow]
  cases x.getLsbD k with
  | false => simp
  | true =>
    simp only [if_true, iff_true]
    intro hzero
    have hbit := congrArg (fun v => v.getLsbD k) hzero
    simp [hk] at hbit

lemma getLsbD_BIT (pin i : ℕ) (hpin : pin < 32) : (BIT pin).getLsbD i = decide (pin = i) := by
  rw [BIT, ← BitVec.twoPow_eq, BitVec.getLsbD_twoPow]
  simp [hpin]

lemma and_two_ne_zero_iff {j k : ℕ} (hj : j < 32) (hk : k < 32) (x : BitVec 32) :
    x &&& (BIT j ||| BIT k) ≠ 0 ↔ x.getLsbD j = true ∨ x.getLsbD k = true := by
  have hor : (x &&& BIT j ||| x &&& BIT k) = 0 ↔ x &&& BIT j = 0 ∧ x &&& BIT k = 0 :=
    BitVec.or_eq_zero_iff
  rw [BitVec.and_or_distrib_left, ne_eq, hor, not_and_or, ← and_BIT_ne_zero_iff hj,
    ← and_BIT_ne_zero_iff hk]

/-- Not both flags are set. -/
lemma not_both_of_ne {j k : ℕ} {x : BitVec 32} (h : x &&& (BIT j ||| BIT k) ≠ BIT j ||| BIT k) :
    ¬ (x.getLsbD j = true ∧ x.getLsbD k = true) := by
  intro hboth
  apply h
  have hself (i : ℕ) (hi : x.getLsbD i = true) : x &&& BIT i = BIT i := by
    have htwo : BIT i = BitVec.twoPow 32 i := (BitVec.twoPow_eq 32 i).symm
    rw [htwo, BitVec.and_twoPow, if_pos hi]
  rw [BitVec.and_or_distrib_left, hself j hboth.1, hself k hboth.2]

/-- The initial level is exchanged for a logical one of an active-low pin. -/
def Exchanged (flags : BitVec 32) : Prop :=
  flags.getLsbD 20 = true ∧ (flags.getLsbD 18 = true ∨ flags.getLsbD 19 = true) ∧
    flags.getLsbD 0 = true

instance (flags : BitVec 32) : Decidable (Exchanged flags) :=
  inferInstanceAs (Decidable (_ ∧ _ ∧ _))

lemma driverFlags_eq (flags : BitVec 32) : driverFlags flags =
    (if Exchanged flags then flags ^^^ (BIT 18 ||| BIT 19) else flags) &&& ~~~BIT 20 := by
  have hexchanged : (flags &&& gpioOutputInitLogical ≠ 0 ∧
      flags &&& (gpioOutputInitLow ||| gpioOutputInitHigh) ≠ 0 ∧
        flags &&& gpioActiveLow ≠ 0) ↔ Exchanged flags := by
    rw [Exchanged, ← and_BIT_ne_zero_iff (by norm_num : 20 < 32),
      ← and_two_ne_zero_iff (by norm_num : 18 < 32) (by norm_num : 19 < 32),
      ← and_BIT_ne_zero_iff (by norm_num : 0 < 32)]
    rfl
  rw [driverFlags]
  simp only [hexchanged]
  rfl

lemma driverFlags_getLsbD (flags : BitVec 32) {k : ℕ} (hk : k < 32) (hlogical : k ≠ 20) :
    (driverFlags flags).getLsbD k =
      if Exchanged flags ∧ (k = 18 ∨ k = 19) then !flags.getLsbD k else flags.getLsbD k := by
  have hclear : (~~~BIT 20).getLsbD k = true := by
    rw [BitVec.getLsbD_not, getLsbD_BIT 20 k (by norm_num)]
    simp [hk, Ne.symm hlogical]
  rw [driverFlags_eq, BitVec.getLsbD_and, hclear, Bool.and_true]
  by_cases hexchanged : Exchanged flags
  · rw [if_pos hexchanged, BitVec.getLsbD_xor, BitVec.getLsbD_or,
      getLsbD_BIT 18 k (by norm_num), getLsbD_BIT 19 k (by norm_num)]
    by_cases hinit : k = 18 ∨ k = 19
    · rcases hinit with rfl | rfl
      · simp [hexchanged]
      · simp [hexchanged]
    · obtain ⟨hlow, hhigh⟩ := not_or.mp hinit
      simp [hlow, hhigh, Ne.symm hlow, Ne.symm hhigh]
  · rw [if_neg hexchanged, if_neg (fun h => hexchanged h.1)]

end Bits

section Configure

variable (d : GpioDevice) (pin : ℕ) (flags : BitVec 32)

/-- The mask of the active-low pins with the pin entered. -/
def enteredInvert : BitVec 32 :=
  if flags.getLsbD 0 then d.invert ||| BIT pin else d.invert &&& ~~~BIT pin

/-- The latch with the initial level that the driver sets. -/
def initialOut : BitVec 32 :=
  if flags.getLsbD 17 then
    if (driverFlags flags).getLsbD 18 then d.regs.out ||| BIT pin
    else if (driverFlags flags).getLsbD 19 then d.regs.out &&& ~~~BIT pin
    else d.regs.out
  else d.regs.out

variable {flags}

lemma driverFlag_iff {k : ℕ} (hk : k < 32) (h18 : k ≠ 18) (h19 : k ≠ 19) (h20 : k ≠ 20) :
    driverFlags flags &&& BIT k ≠ 0 ↔ flags.getLsbD k = true := by
  rw [and_BIT_ne_zero_iff hk, driverFlags_getLsbD flags hk h20, if_neg (by omega)]

lemma entered_eq :
    (if driverFlags flags &&& gpioActiveLow ≠ 0 then { d with invert := d.invert ||| BIT pin }
      else { d with invert := d.invert &&& ~~~BIT pin }) =
      { d with invert := enteredInvert d pin flags } := by
  have hlow : driverFlags flags &&& gpioActiveLow ≠ 0 ↔ flags.getLsbD 0 = true :=
    driverFlag_iff (by norm_num) (by norm_num) (by norm_num) (by norm_num)
  simp only [hlow, enteredInvert]
  split_ifs <;> rfl

/-- Single-ended outputs are refused after the pin is entered. -/
lemma pinConfigure_refused (hsingle : flags.getLsbD 1 = true) (hout : flags.getLsbD 17 = true) :
    gpioPinConfigure d pin flags = ({ d with invert := enteredInvert d pin flags }, -enotsup) := by
  have houtput : driverFlags flags &&& gpioOutput ≠ 0 :=
    (driverFlag_iff (by norm_num) (by norm_num) (by norm_num) (by norm_num)).mpr hout
  have hended : driverFlags flags &&& gpioSingleEnded ≠ 0 :=
    (driverFlag_iff (by norm_num) (by norm_num) (by norm_num) (by norm_num)).mpr hsingle
  rw [gpioPinConfigure]
  simp only [entered_eq, gpioWchPinConfigure, gpioWchFlagsToCfg, if_pos houtput, if_pos hended]
  rfl

lemma initialOut_eq : (
    if driverFlags flags &&& gpioOutput ≠ 0 then
      if driverFlags flags &&& gpioOutputInitLow ≠ 0 then (gpioWchPortSetBitsRaw d (BIT pin)).1
      else if driverFlags flags &&& gpioOutputInitHigh ≠ 0 then
        (gpioWchPortClearBitsRaw d (BIT pin)).1
      else d
    else d) = { d with regs := { d.regs with out := initialOut d pin flags } } := by
  have houtput : driverFlags flags &&& gpioOutput ≠ 0 ↔ flags.getLsbD 17 = true :=
    driverFlag_iff (by norm_num) (by norm_num) (by norm_num) (by norm_num)
  have hlow : driverFlags flags &&& gpioOutputInitLow ≠ 0 ↔
      (driverFlags flags).getLsbD 18 = true := and_BIT_ne_zero_iff (by norm_num) _
  have hhigh : driverFlags flags &&& gpioOutputInitHigh ≠ 0 ↔
      (driverFlags flags).getLsbD 19 = true := and_BIT_ne_zero_iff (by norm_num) _
  simp only [houtput, hlow, hhigh, initialOut]
  split_ifs
  · rfl
  · rw [gpioWchPortClearBitsRaw, halGpioPinsReset, GpioRegs.writeClr,
      show (0 : BitVec 32) ||| BIT pin = BIT pin from BitVec.zero_or]
  · rfl
  · rfl

/-- All else is configured. -/
lemma pinConfigure_accepted (h : ¬ (flags.getLsbD 1 = true ∧ flags.getLsbD 17 = true)) :
    ∃ mode, gpioPinConfigure d pin flags =
      (⟨halGpioModeConfig { d.regs with out := initialOut d pin flags } (BIT pin) mode,
        enteredInvert d pin flags⟩, 0) := by
  have houtput : driverFlags flags &&& gpioOutput ≠ 0 ↔ flags.getLsbD 17 = true :=
    driverFlag_iff (by norm_num) (by norm_num) (by norm_num) (by norm_num)
  have hended : driverFlags flags &&& gpioSingleEnded ≠ 0 ↔ flags.getLsbD 1 = true :=
    driverFlag_iff (by norm_num) (by norm_num) (by norm_num) (by norm_num)
  obtain ⟨mode, hmode⟩ : ∃ mode,
      gpioWchFlagsToCfg (driverFlags flags) .inFloating = (mode, 0) := by
    rw [gpioWchFlagsToCfg]
    simp only [houtput, hended]
    split_ifs with hout hsingle
    · exact absurd ⟨hsingle, hout⟩ h
    all_goals exact ⟨_, rfl⟩
  refine ⟨mode, ?_⟩
  rw [gpioPinConfigure]
  simp only [entered_eq, gpioWchPinConfigure, hmode, initialOut_eq]
  rfl

end Configure

section Spec

/-- The bit of a pin in the latch after `gpio_pin_set`: the value, inverted for an
active-low pin. -/
lemma pinSet_out (d : GpioDevice) {pin : ℕ} (hpin : pin < 32) (value : ℤ) :
    (gpioPinSet d pin value).1.regs.out.getLsbD pin =
      (decide (value ≠ 0) ^^ d.invert.getLsbD pin) := by
  have hbit : (BIT pin).getLsbD pin = true := by
    rw [getLsbD_BIT pin pin hpin]
    simp
  have hraw (value : ℤ) : (gpioPinSetRaw d pin value).1.regs.out.getLsbD pin =
      decide (value ≠ 0) := by
    rw [gpioPinSetRaw]
    split_ifs with hvalue
    · simp [gpioPortSetBitsRaw, gpioWchPortSetBitsRaw, halGpioPinsSet, hbit, hvalue]
    · simp [gpioPortClearBitsRaw, gpioWchPortClearBitsRaw, halGpioPinsReset, GpioRegs.writeClr,
        hbit, hvalue]
  have hinvert := and_BIT_ne_zero_iff hpin d.invert
  rw [gpioPinSet, hraw]
  simp only [hinvert]
  cases d.invert.getLsbD pin with
  | false => simp
  | true =>
    by_cases hvalue : value = 0
    · simp [hvalue]
    · simp [hvalue]

/-- What configuring a pin should do: set its initial level, leave the other pins
alone, and change nothing with an error. -/
structure PinConfigured (d : GpioDevice) (pin : ℕ) (flags : BitVec 32) : Prop where
  low : (gpioPinConfigure d pin flags).2 = 0 → flags &&& gpioOutputInitLow ≠ 0 →
    flags &&& gpioOutputInitLogical = 0 →
      (gpioPinConfigure d pin flags).1.regs.out.getLsbD pin = false
  high : (gpioPinConfigure d pin flags).2 = 0 → flags &&& gpioOutputInitHigh ≠ 0 →
    flags &&& gpioOutputInitLogical = 0 →
      (gpioPinConfigure d pin flags).1.regs.out.getLsbD pin = true
  inactive : (gpioPinConfigure d pin flags).2 = 0 → flags &&& gpioOutputInitLow ≠ 0 →
    flags &&& gpioOutputInitLogical ≠ 0 →
      (gpioPinConfigure d pin flags).1.regs.out.getLsbD pin =
        (gpioPinSet (gpioPinConfigure d pin flags).1 pin 0).1.regs.out.getLsbD pin
  active : (gpioPinConfigure d pin flags).2 = 0 → flags &&& gpioOutputInitHigh ≠ 0 →
    flags &&& gpioOutputInitLogical ≠ 0 →
      (gpioPinConfigure d pin flags).1.regs.out.getLsbD pin =
        (gpioPinSet (gpioPinConfigure d pin flags).1 pin 1).1.regs.out.getLsbD pin
  others : (gpioPinConfigure d pin flags).2 = 0 → ∀ i, i ≠ pin →
    (gpioPinConfigure d pin flags).1.regs.dir.getLsbD i = d.regs.dir.getLsbD i ∧
      (gpioPinConfigure d pin flags).1.regs.pu.getLsbD i = d.regs.pu.getLsbD i ∧
      (gpioPinConfigure d pin flags).1.regs.pdDrv.getLsbD i = d.regs.pdDrv.getLsbD i ∧
      (gpioPinConfigure d pin flags).1.invert.getLsbD i = d.invert.getLsbD i
  rejected : (gpioPinConfigure d pin flags).2 ≠ 0 → (gpioPinConfigure d pin flags).1 = d

/-- Setting or clearing a pin in a register leaves the other pins. -/
lemma or_BIT_other {pin i : ℕ} (hpin : pin < 32) (hi : i ≠ pin) (x : BitVec 32) :
    (x ||| BIT pin).getLsbD i = x.getLsbD i := by
  rw [BitVec.getLsbD_or, getLsbD_BIT pin i hpin]
  simp [Ne.symm hi]

lemma and_not_BIT_other {pin i : ℕ} (hpin : pin < 32) (hi : i ≠ pin) (x : BitVec 32) :
    (x &&& ~~~BIT pin).getLsbD i = x.getLsbD i := by
  rw [BitVec.getLsbD_and, BitVec.getLsbD_not, getLsbD_BIT pin i hpin]
  by_cases hwidth : i < 32
  · simp [Ne.symm hi, hwidth]
  · simp [BitVec.getLsbD_of_ge x i (Nat.le_of_not_lt hwidth)]

lemma or_BIT_self {pin : ℕ} (hpin : pin < 32) (x : BitVec 32) :
    (x ||| BIT pin).getLsbD pin = true := by
  rw [BitVec.getLsbD_or, getLsbD_BIT pin pin hpin]
  simp

lemma and_not_BIT_self {pin : ℕ} (hpin : pin < 32) (x : BitVec 32) :
    (x &&& ~~~BIT pin).getLsbD pin = false := by
  rw [BitVec.getLsbD_and, BitVec.getLsbD_not, getLsbD_BIT pin pin hpin]
  simp

lemma modeConfig_other (r : GpioRegs) {pin i : ℕ} (hpin : pin < 32) (hi : i ≠ pin)
    (mode : GpioMode) :
    (halGpioModeConfig r (BIT pin) mode).dir.getLsbD i = r.dir.getLsbD i ∧
      (halGpioModeConfig r (BIT pin) mode).pu.getLsbD i = r.pu.getLsbD i ∧
      (halGpioModeConfig r (BIT pin) mode).pdDrv.getLsbD i = r.pdDrv.getLsbD i := by
  have hset := or_BIT_other hpin hi
  have hclear := and_not_BIT_other hpin hi
  cases mode <;> simp only [halGpioModeConfig, hset, hclear, and_self]

lemma modeConfig_out (r : GpioRegs) (pins : BitVec 32) (mode : GpioMode) :
    (halGpioModeConfig r pins mode).out = r.out := by
  cases mode <;> rfl

lemma enteredInvert_other (d : GpioDevice) {pin i : ℕ} (hpin : pin < 32) (hi : i ≠ pin)
    (flags : BitVec 32) : (enteredInvert d pin flags).getLsbD i = d.invert.getLsbD i := by
  rw [enteredInvert]
  split_ifs
  · exact or_BIT_other hpin hi _
  · exact and_not_BIT_other hpin hi _

lemma enteredInvert_self (d : GpioDevice) {pin : ℕ} (hpin : pin < 32) (flags : BitVec 32) :
    (enteredInvert d pin flags).getLsbD pin = flags.getLsbD 0 := by
  rw [enteredInvert]
  cases flags.getLsbD 0 with
  | false => exact and_not_BIT_self hpin d.invert
  | true => exact or_BIT_self hpin d.invert

/-- The mask is as before exactly if the pin was entered the same way. -/
lemma enteredInvert_eq_iff (d : GpioDevice) {pin : ℕ} (hpin : pin < 32) (flags : BitVec 32) :
    enteredInvert d pin flags = d.invert ↔ d.invert.getLsbD pin = flags.getLsbD 0 := by
  constructor
  · intro h
    rw [← h, enteredInvert_self d hpin]
  · intro h
    apply BitVec.eq_of_getLsbD_eq
    intro i _
    by_cases hi : i = pin
    · rw [hi, enteredInvert_self d hpin, h]
    · exact enteredInvert_other d hpin hi flags

variable {d : GpioDevice} {pin : ℕ} {flags : BitVec 32}

/-- The flag that the driver finds set, of the two for the initial level. -/
lemma driverFlags_init {k j : ℕ} (hkj : k = 18 ∧ j = 19 ∨ k = 19 ∧ j = 18)
    (hinit : flags.getLsbD k = true) (hother : flags.getLsbD j = false) :
    (driverFlags flags).getLsbD k = !(flags.getLsbD 20 && flags.getLsbD 0) ∧
      (driverFlags flags).getLsbD j = (flags.getLsbD 20 && flags.getLsbD 0) := by
  have hexchanged : Exchanged flags ↔ (flags.getLsbD 20 && flags.getLsbD 0) = true := by
    rw [Bool.and_eq_true, Exchanged]
    rcases hkj with ⟨rfl, rfl⟩ | ⟨rfl, rfl⟩
    · exact ⟨fun h => ⟨h.1, h.2.2⟩, fun h => ⟨h.1, Or.inl hinit, h.2⟩⟩
    · exact ⟨fun h => ⟨h.1, h.2.2⟩, fun h => ⟨h.1, Or.inr hinit, h.2⟩⟩
  rw [driverFlags_getLsbD flags (by omega) (by omega),
    driverFlags_getLsbD flags (by omega) (by omega), hinit, hother]
  by_cases h : (flags.getLsbD 20 && flags.getLsbD 0) = true
  · rw [if_pos ⟨hexchanged.mpr h, by omega⟩, if_pos ⟨hexchanged.mpr h, by omega⟩, h]
    exact ⟨rfl, rfl⟩
  · rw [if_neg (fun hboth => h (hexchanged.mp hboth.1)),
      if_neg (fun hboth => h (hexchanged.mp hboth.1)), Bool.eq_false_iff.mpr h]
    exact ⟨rfl, rfl⟩

/-- Low is driven high and high low, before the exchange for active-low pins. -/
lemma initialOut_low (hpin : pin < 32) (hout : flags.getLsbD 17 = true)
    (hlow : flags.getLsbD 18 = true) (hhigh : flags.getLsbD 19 = false) :
    (initialOut d pin flags).getLsbD pin = !(flags.getLsbD 20 && flags.getLsbD 0) := by
  obtain ⟨h18, h19⟩ := driverFlags_init (Or.inl ⟨rfl, rfl⟩) hlow hhigh
  rw [initialOut, if_pos hout, h18, h19]
  cases flags.getLsbD 20 && flags.getLsbD 0 with
  | false => simp [getLsbD_BIT pin pin hpin]
  | true => simp [getLsbD_BIT pin pin hpin]

lemma initialOut_high (hpin : pin < 32) (hout : flags.getLsbD 17 = true)
    (hhigh : flags.getLsbD 19 = true) (hlow : flags.getLsbD 18 = false) :
    (initialOut d pin flags).getLsbD pin = (flags.getLsbD 20 && flags.getLsbD 0) := by
  obtain ⟨h19, h18⟩ := driverFlags_init (Or.inr ⟨rfl, rfl⟩) hhigh hlow
  rw [initialOut, if_pos hout, h18, h19]
  cases flags.getLsbD 20 && flags.getLsbD 0 with
  | false => simp [getLsbD_BIT pin pin hpin]
  | true => simp [getLsbD_BIT pin pin hpin]

/-- The inputs on which configuring a pin does what it should. -/
structure ConfigurableAsIs (d : GpioDevice) (pin : ℕ) (flags : BitVec 32) : Prop where
  no_level : flags &&& gpioSingleEnded = 0 →
    flags &&& (gpioOutputInitLow ||| gpioOutputInitHigh) = 0
  entered : flags &&& gpioSingleEnded ≠ 0 →
    (d.invert &&& BIT pin ≠ 0 ↔ flags &&& gpioActiveLow ≠ 0)

lemma pin_lt_of_supported {portPinMask : BitVec 32} (h : portPinMask &&& BIT pin ≠ 0) :
    pin < 32 := by
  by_contra hpin
  have hzero : BIT pin = 0 := BitVec.shiftLeft_eq_zero (Nat.le_of_not_lt hpin)
  rw [hzero] at h
  exact h BitVec.and_zero

/-- The refused flags: only the mask of the active-low pins may differ. -/
lemma pinConfigured_refused_iff (hpin : pin < 32) (hsingle : flags.getLsbD 1 = true)
    (hout : flags.getLsbD 17 = true) :
    PinConfigured d pin flags ↔ d.invert.getLsbD pin = flags.getLsbD 0 := by
  have hresult := pinConfigure_refused d pin hsingle hout
  have herr : (gpioPinConfigure d pin flags).2 ≠ 0 := by
    rw [hresult]
    exact (by decide : -enotsup ≠ 0)
  rw [← enteredInvert_eq_iff d hpin]
  constructor
  · intro h
    have hsame := h.rejected herr
    rw [hresult] at hsame
    exact congrArg GpioDevice.invert hsame
  · intro h
    refine ⟨fun hok => absurd hok herr, fun hok => absurd hok herr, fun hok => absurd hok herr,
      fun hok => absurd hok herr, fun hok => absurd hok herr, fun _ => ?_⟩
    rw [hresult, h]

/-- The accepted flags: every initial level is wrong. -/
lemma no_level_of_pinConfigured {portPinMask : BitVec 32} (h : Asserted portPinMask pin flags)
    (hsingle : ¬ flags.getLsbD 1 = true) (hspec : PinConfigured d pin flags) :
    ¬ (flags.getLsbD 18 = true ∨ flags.getLsbD 19 = true) := by
  have hpin := pin_lt_of_supported h.supported
  obtain ⟨mode, hresult⟩ := pinConfigure_accepted d pin (fun hboth => hsingle hboth.1)
  have hok : (gpioPinConfigure d pin flags).2 = 0 := by rw [hresult]
  have hbit : (gpioPinConfigure d pin flags).1.regs.out.getLsbD pin =
      (initialOut d pin flags).getLsbD pin := by rw [hresult, modeConfig_out]
  have hset (value : ℤ) : (gpioPinSet (gpioPinConfigure d pin flags).1 pin value).1.regs.out.getLsbD
      pin = (decide (value ≠ 0) ^^ flags.getLsbD 0) := by
    rw [pinSet_out _ hpin, hresult, enteredInvert_self d hpin]
  have hone := not_both_of_ne h.one_init
  have hlowFlag := and_BIT_ne_zero_iff (by norm_num : 18 < 32) flags
  have hhighFlag := and_BIT_ne_zero_iff (by norm_num : 19 < 32) flags
  have hlogicalFlag := and_BIT_ne_zero_iff (by norm_num : 20 < 32) flags
  have houtput (hinit : flags.getLsbD 18 = true ∨ flags.getLsbD 19 = true) :
      flags.getLsbD 17 = true := by
    rw [← and_BIT_ne_zero_iff (by norm_num : 17 < 32)]
    exact h.init_output.resolve_left
      ((and_two_ne_zero_iff (by norm_num) (by norm_num) flags).mpr hinit)
  rintro (hlow | hhigh)
  · have hhigh : flags.getLsbD 19 = false := Bool.eq_false_iff.mpr fun hhigh => hone ⟨hlow, hhigh⟩
    have hvalue := initialOut_low (d := d) hpin (houtput (Or.inl hlow)) hlow hhigh
    cases hlogical : flags.getLsbD 20 with
    | false =>
      have hfalse := hspec.low hok (hlowFlag.mpr hlow)
        (not_not.mp (mt hlogicalFlag.mp (by rw [hlogical]; decide)))
      rw [hbit, hvalue, hlogical] at hfalse
      cases hfalse
    | true =>
      have hsame := hspec.inactive hok (hlowFlag.mpr hlow) (hlogicalFlag.mpr hlogical)
      rw [hbit, hvalue, hset, hlogical] at hsame
      cases hactive : flags.getLsbD 0 <;> rw [hactive] at hsame <;> cases hsame
  · have hlow : flags.getLsbD 18 = false := Bool.eq_false_iff.mpr fun hlow => hone ⟨hlow, hhigh⟩
    have hvalue := initialOut_high (d := d) hpin (houtput (Or.inr hhigh)) hhigh hlow
    cases hlogical : flags.getLsbD 20 with
    | false =>
      have htrue := hspec.high hok (hhighFlag.mpr hhigh)
        (not_not.mp (mt hlogicalFlag.mp (by rw [hlogical]; decide)))
      rw [hbit, hvalue, hlogical] at htrue
      cases htrue
    | true =>
      have hsame := hspec.active hok (hhighFlag.mpr hhigh) (hlogicalFlag.mpr hlogical)
      rw [hbit, hvalue, hset, hlogical] at hsame
      cases hactive : flags.getLsbD 0 <;> rw [hactive] at hsame <;> cases hsame

/-- Without an initial level the pin is configured, and only the pin. -/
lemma pinConfigured_of_no_level (hpin : pin < 32) (hsingle : ¬ flags.getLsbD 1 = true)
    (hlevel : ¬ (flags.getLsbD 18 = true ∨ flags.getLsbD 19 = true)) :
    PinConfigured d pin flags := by
  obtain ⟨mode, hresult⟩ := pinConfigure_accepted d pin (fun hboth => hsingle hboth.1)
  have hlow : ¬ flags &&& gpioOutputInitLow ≠ 0 :=
    mt (and_BIT_ne_zero_iff (by norm_num) flags).mp fun h => hlevel (Or.inl h)
  have hhigh : ¬ flags &&& gpioOutputInitHigh ≠ 0 :=
    mt (and_BIT_ne_zero_iff (by norm_num) flags).mp fun h => hlevel (Or.inr h)
  refine ⟨fun _ h => absurd h hlow, fun _ h => absurd h hhigh, fun _ h => absurd h hlow,
    fun _ h => absurd h hhigh, fun _ i hi => ?_, fun herr => absurd ?_ herr⟩
  · rw [hresult]
    obtain ⟨hdir, hpu, hpdDrv⟩ :=
      modeConfig_other { d.regs with out := initialOut d pin flags } hpin hi mode
    exact ⟨hdir, hpu, hpdDrv, enteredInvert_other d hpin hi flags⟩
  · rw [hresult]

end Spec

/-- Under the assertions a pin is configured as it should be exactly if no initial
level is asked for, or, for the single-ended outputs that are refused, if the pin
was entered as active low or not as before. -/
theorem pinConfigured_iff {portPinMask : BitVec 32} (d : GpioDevice) {pin : ℕ} {flags : BitVec 32}
    (h : Asserted portPinMask pin flags) :
    PinConfigured d pin flags ↔ ConfigurableAsIs d pin flags := by
  have hpin := pin_lt_of_supported h.supported
  have hsingleFlag : flags &&& gpioSingleEnded ≠ 0 ↔ flags.getLsbD 1 = true :=
    and_BIT_ne_zero_iff (by norm_num) flags
  have hlevelFlag : flags &&& (gpioOutputInitLow ||| gpioOutputInitHigh) ≠ 0 ↔
      flags.getLsbD 18 = true ∨ flags.getLsbD 19 = true :=
    and_two_ne_zero_iff (by norm_num) (by norm_num) flags
  have hactiveFlag : flags &&& gpioActiveLow ≠ 0 ↔ flags.getLsbD 0 = true :=
    and_BIT_ne_zero_iff (by norm_num) flags
  by_cases hsingle : flags.getLsbD 1 = true
  · have hout : flags.getLsbD 17 = true := by
      rw [← and_BIT_ne_zero_iff (by norm_num : 17 < 32)]
      exact h.single_ended_output.resolve_right (hsingleFlag.mpr hsingle)
    rw [pinConfigured_refused_iff hpin hsingle hout, Bool.eq_iff_iff,
      ← and_BIT_ne_zero_iff hpin, ← hactiveFlag]
    exact ⟨fun hentered => ⟨fun hnone => absurd hnone (hsingleFlag.mpr hsingle), fun _ => hentered⟩,
      fun hconf => hconf.entered (hsingleFlag.mpr hsingle)⟩
  · constructor
    · intro hspec
      exact ⟨fun _ => not_not.mp (mt hlevelFlag.mp (no_level_of_pinConfigured h hsingle hspec)),
        fun hended => absurd (hsingleFlag.mp hended) hsingle⟩
    · intro hconf
      have hzero := hconf.no_level (not_not.mp (mt hsingleFlag.mp hsingle))
      exact pinConfigured_of_no_level hpin hsingle (mt hlevelFlag.mpr (not_not.mpr hzero))

/-- A port in use, with pin 3 active low, and flags for a single-ended output of pin 3 that
is high at first. -/
def portInUse : GpioDevice := ⟨⟨0x12, 0x34, 0x56, 0x78, 0x9a⟩, 0x8⟩

def singleEndedHigh : BitVec 32 :=
  gpioOutput ||| gpioSingleEnded ||| gpioOutputInitHigh ||| gpioActiveLow

theorem pinConfigured_single_ended : Asserted 0xffff 3 singleEndedHigh ∧
    (PinConfigured portInUse 3 singleEndedHigh ↔
      ConfigurableAsIs portInUse 3 singleEndedHigh) := by
  have h : Asserted 0xffff 3 singleEndedHigh := by
    constructor <;> decide
  exact ⟨h, pinConfigured_iff _ h⟩

/-- An output initialized low is driven high. -/
theorem init_low_drives_high :
    Asserted 0xffff 3 (gpioOutput ||| gpioOutputInitLow) ∧
      gpioPinConfigure ⟨⟨0, 0, 0, 0, 0⟩, 0⟩ 3 (gpioOutput ||| gpioOutputInitLow) =
        (⟨⟨0x8, 0, 0x8, 0, 0⟩, 0⟩, 0) ∧
      ¬ PinConfigured ⟨⟨0, 0, 0, 0, 0⟩, 0⟩ 3 (gpioOutput ||| gpioOutputInitLow) := by
  have hresult : gpioPinConfigure ⟨⟨0, 0, 0, 0, 0⟩, 0⟩ 3 (gpioOutput ||| gpioOutputInitLow) =
      (⟨⟨0x8, 0, 0x8, 0, 0⟩, 0⟩, 0) := by decide
  refine ⟨by constructor <;> decide, hresult, fun h => ?_⟩
  have hlow := h.low (by rw [hresult]) (by decide) (by decide)
  rw [hresult] at hlow
  exact absurd hlow (by decide)

end WchIotSdk.Gpio
