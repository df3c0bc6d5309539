import Mathlib.Tactic
import Mathlib.Data.BitVec

/-!
# Interrupts of the GPIO ports

The interrupt registers of a port have 16 bits. On port B the bits 8 and 9 belong
to the pins 22 and 23; every function that takes or returns pins moves these two
bits on its own. A 1 written to a flag clears it.
-/
namespace WchIotSdk.GpioInterrupts

inductive GpioPort where
  | gpioA | gpioB
  deriving DecidableEq, Repr

/-- `gpio_int_mode_t`. -/
inductive GpioIntMode where
  | lowLevel | highLevel | fallEdge | riseEdge
  deriving DecidableEq, Repr

/-- The registers of a port that its interrupts use. -/
structure IntRegs where
  intEn : BitVec 16
  intMode : BitVec 16
  intIf : BitVec 16
  out : BitVec 32
  deriving DecidableEq, Repr

/-- `GPIO_Pin_22 | GPIO_Pin_23`. -/
def gpioPin22And23 : BitVec 32 := 0x00400000 ||| 0x00800000

/-- The pins with the bits of 22 and 23 added in their place. -/
def movedPins (pins : BitVec 32) : BitVec 32 := pins ||| ((pins &&& gpioPin22And23) >>> 14)

section Registers

variable (s : IntRegs)

/-- `|=` and `&= ~` on a 16-bit register, and a write to the flags. -/
def orInto (reg : BitVec 16) (bits : BitVec 32) : BitVec 16 := (reg.setWidth 32 ||| bits).setWidth 16
def clearIn (reg : BitVec 16) (bits : BitVec 32) : BitVec 16 :=
  (reg.setWidth 32 &&& ~~~bits).setWidth 16

def IntRegs.writeIf (value : BitVec 16) : IntRegs := { s with intIf := s.intIf &&& ~~~value }

end Registers

section Hal

variable (s : IntRegs) (pins : BitVec 32)

def halGpioIntPinsEnable : GpioPort → IntRegs
  | .gpioA => { s with intEn := orInto s.intEn (pins &&& 0xffff) }
  | .gpioB => { s with intEn := orInto s.intEn (movedPins pins &&& 0xffff) }

def halGpioIntPinsDisable : GpioPort → IntRegs
  | .gpioA => { s with intEn := clearIn s.intEn pins }
  | .gpioB => { s with intEn := clearIn s.intEn (movedPins pins) }

def halGpioIntFlagPortGet : GpioPort → BitVec 32
  | .gpioA => s.intIf.setWidth 32
  | .gpioB => (s.intIf.setWidth 32 &&& ~~~(gpioPin22And23 >>> 14)) |||
      ((s.intIf.setWidth 32 <<< 14) &&& gpioPin22And23)

def halGpioIntFlagPinsGet : GpioPort → BitVec 32
  | .gpioA => s.intIf.setWidth 32 &&& pins
  | .gpioB => s.intIf.setWidth 32 &&& movedPins pins

/-- The value written to the flags. -/
def flagPinsClearValue : GpioPort → BitVec 16
  | .gpioA => (pins &&& 0xffff).setWidth 16
  | .gpioB => (movedPins pins &&& 0xffff).setWidth 16

def halGpioIntFlagPinsClear (port : GpioPort) : IntRegs := s.writeIf (flagPinsClearValue pins port)

/-- The mode goes into the register of the modes and the level into the latch. -/
def intModeConfigOn (hwPins : BitVec 32) : GpioIntMode → IntRegs
  | .lowLevel => { s with intMode := clearIn s.intMode hwPins, out := s.out &&& ~~~pins }
  | .highLevel => { s with intMode := clearIn s.intMode hwPins, out := s.out ||| pins }
  | .fallEdge => { s with intMode := orInto s.intMode hwPins, out := s.out &&& ~~~pins }
  | .riseEdge => { s with intMode := orInto s.intMode hwPins, out := s.out ||| pins }

def halGpioIntModeConfig (mode : GpioIntMode) : GpioPort → IntRegs
  | .gpioA =>
    let s := intModeConfigOn s pins pins mode
    let s := s.writeIf (pins.setWidth 16)
    { s with intEn := orInto s.intEn pins }
  | .gpioB =>
    let pinsB := movedPins pins
    let s := intModeConfigOn s pins pinsB mode
    let s := s.writeIf (pinsB.setWidth 16)
    { s with intEn := orInto s.intEn pinsB }

/-- The handler of a port, with the flags that are raised between its read and its
write of the flags. It reports pins to the callbacks. -/
def gpioIrqHandler (port : GpioPort) (raised : BitVec 16) : IntRegs × BitVec 32 :=
  let intPins := halGpioIntFlagPortGet s port
  let s := { s with intIf := s.intIf ||| raised }
  (halGpioIntFlagPinsClear s intPins port, intPins)

end Hal

/-- The pin that a bit of the interrupt registers belongs to. -/
def pinOf (port : GpioPort) (i : ℕ) : ℕ :=
  match port with
  | .gpioA => i
  | .gpioB => if i = 8 then 22 else if i = 9 then 23 else i

/-- Level and edge modes. -/
def edgeMode : GpioIntMode → Bool
  | .lowLevel | .highLevel => false
  | .fallEdge | .riseEdge => true

section Pins

variable {i k : ℕ}

lemma pinOf_of_ne (port : GpioPort) (h8 : i ≠ 8) (h9 : i ≠ 9) : pinOf port i = i := by
  cases port <;> simp [pinOf, h8, h9]

lemma pinOf_lt (port : GpioPort) (hi : i < 16) : pinOf port i < 32 := by
  cases port with
  | gpioA => exact hi.trans (by norm_num)
  | gpioB =>
    unfold pinOf
    dsimp only
    split_ifs <;> omega

/-- The pins 8 and 9 of port B have no bit. -/
lemma pinOf_gpioB_ne (hk : k = 8 ∨ k = 9) : pinOf .gpioB i ≠ k := by
  intro h
  unfold pinOf at h
  dsimp only at h
  split_ifs at h <;> omega

lemma pinOf_injective (port : GpioPort) (hi : i < 16) (hk : k < 16)
    (h : pinOf port i = pinOf port k) : i = k := by
  cases port with
  | gpioA => exact h
  | gpioB =>
    unfold pinOf at h
    dsimp only at h
    split_ifs at h <;> omega

lemma flag_lt {reg : BitVec 16} (h : reg.getLsbD i = true) : i < 16 := by
  by_contra hi
  rw [BitVec.getLsbD_of_ge _ _ (Nat.le_of_not_lt hi)] at h
  cases h

end Pins

section Bits

lemma getLsbD_orInto (reg : BitVec 16) (bits : BitVec 32) {i : ℕ} (hi : i < 16) :
    (orInto reg bits).getLsbD i = (reg.getLsbD i || bits.getLsbD i) := by
  rw [orInto, BitVec.getLsbD_setWidth, BitVec.getLsbD_or, BitVec.getLsbD_setWidth]
  simp [hi, show i < 32 by omega]

lemma getLsbD_clearIn (reg : BitVec 16) (bits : BitVec 32) {i : ℕ} (hi : i < 16) :
    (clearIn reg bits).getLsbD i = (reg.getLsbD i && !bits.getLsbD i) := by
  rw [clearIn, BitVec.getLsbD_setWidth, BitVec.getLsbD_and, BitVec.getLsbD_setWidth,
    BitVec.getLsbD_not]
  simp [hi, show i < 32 by omega]

lemma getLsbD_low (bits : BitVec 32) {i : ℕ} (hi : i < 16) :
    (bits &&& 0xffff).getLsbD i = bits.getLsbD i := by
  have hmask : ∀ i : Fin 16, (0xffff : BitVec 32).getLsbD i = true := by decide
  rw [BitVec.getLsbD_and, hmask ⟨i, hi⟩, Bool.and_true]

/-- Of the bits of a register only 8 and 9 get those of other pins. -/
lemma getLsbD_movedPins (pins : BitVec 32) {i : ℕ} (hi : i < 16) :
    (movedPins pins).getLsbD i =
      (pins.getLsbD i || (decide (i = 8 ∨ i = 9) && pins.getLsbD (pinOf .gpioB i))) := by
  have hmask : ∀ i : Fin 16, gpioPin22And23.getLsbD (14 + i) = decide (i.val = 8 ∨ i.val = 9) := by
    decide
  have hpin : i = 8 ∨ i = 9 → pinOf .gpioB i = 14 + i := by
    rintro (rfl | rfl) <;> rfl
  rw [movedPins, BitVec.getLsbD_or, BitVec.getLsbD_ushiftRight, BitVec.getLsbD_and,
    hmask ⟨i, hi⟩, Bool.and_comm]
  by_cases h : i = 8 ∨ i = 9
  · rw [hpin h]
  · simp [h]

/-- The flags of port B as pins: 8 and 9 are taken out, 22 and 23 are those of the
bits 8 and 9. -/
lemma getLsbD_portGet_gpioB (s : IntRegs) {n : ℕ} (hn : n < 32) :
    (halGpioIntFlagPortGet s .gpioB).getLsbD n = true ↔
      (s.intIf.getLsbD n = true ∧ ¬ (n = 8 ∨ n = 9)) ∨
        (14 ≤ n ∧ s.intIf.getLsbD (n - 14) = true) ∧ (n = 22 ∨ n = 23) := by
  have hlow : ∀ n : Fin 32, (~~~(gpioPin22And23 >>> 14)).getLsbD n =
      !decide (n.val = 8 ∨ n.val = 9) := by decide
  have hhigh : ∀ n : Fin 32, gpioPin22And23.getLsbD n = decide (n.val = 22 ∨ n.val = 23) := by
    decide
  rw [halGpioIntFlagPortGet, BitVec.getLsbD_or, BitVec.getLsbD_and, BitVec.getLsbD_and,
    BitVec.getLsbD_shiftLeft, BitVec.getLsbD_setWidth, BitVec.getLsbD_setWidth, hlow ⟨n, hn⟩,
    hhigh ⟨n, hn⟩]
  have hsub : n - 14 < 32 := by omega
  simp [hn, hsub]

lemma getLsbD_portGet (s : IntRegs) (port : GpioPort) (n : ℕ) :
    (halGpioIntFlagPortGet s port).getLsbD n = true ↔
      ∃ i < 16, pinOf port i = n ∧ s.intIf.getLsbD i = true := by
  by_cases hn : n < 32
  swap
  · rw [BitVec.getLsbD_of_ge _ _ (Nat.le_of_not_lt hn)]
    refine iff_of_false Bool.false_ne_true ?_
    rintro ⟨i, hi, rfl, -⟩
    exact hn (pinOf_lt port hi)
  cases port with
  | gpioA =>
    rw [halGpioIntFlagPortGet, BitVec.getLsbD_setWidth, decide_eq_true hn, Bool.true_and]
    constructor
    · intro h
      exact ⟨n, flag_lt h, rfl, h⟩
    · rintro ⟨i, -, rfl, hflag⟩
      exact hflag
  | gpioB =>
    rw [getLsbD_portGet_gpioB s hn]
    constructor
    · rintro (⟨hflag, hpin⟩ | ⟨⟨-, hflag⟩, hpin⟩)
      · obtain ⟨h8, h9⟩ := not_or.mp hpin
        exact ⟨n, flag_lt hflag, pinOf_of_ne .gpioB h8 h9, hflag⟩
      · rcases hpin with rfl | rfl
        · exact ⟨8, by norm_num, rfl, hflag⟩
        · exact ⟨9, by norm_num, rfl, hflag⟩
    · rintro ⟨i, -, rfl, hflag⟩
      by_cases h8 : i = 8
      · subst h8
        exact Or.inr ⟨⟨by decide, hflag⟩, Or.inl rfl⟩
      by_cases h9 : i = 9
      · subst h9
        exact Or.inr ⟨⟨by decide, hflag⟩, Or.inr rfl⟩
      · rw [pinOf_of_ne .gpioB h8 h9]
        exact Or.inl ⟨hflag, not_or.mpr ⟨h8, h9⟩⟩

end Bits

/-- The bits of the interrupt registers that a mask of pins is turned into. -/
def hwPins (pins : BitVec 32) : GpioPort → BitVec 32
  | .gpioA => pins
  | .gpioB => movedPins pins

/-- The mask has a bit of the registers exactly if it has the pin of the bit. -/
def Aligned (port : GpioPort) (pins : BitVec 32) : Prop :=
  ∀ i < 16, (hwPins pins port).getLsbD i = pins.getLsbD (pinOf port i)

section Masks

variable (s : IntRegs) (pins : BitVec 32) (port : GpioPort) (mode : GpioIntMode)

lemma enable_getLsbD {i : ℕ} (hi : i < 16) : (halGpioIntPinsEnable s pins port).intEn.getLsbD i =
    (s.intEn.getLsbD i || (hwPins pins port).getLsbD i) := by
  cases port with
  | gpioA => exact (getLsbD_orInto _ _ hi).trans (by rw [getLsbD_low _ hi]; rfl)
  | gpioB => exact (getLsbD_orInto _ _ hi).trans (by rw [getLsbD_low _ hi]; rfl)

lemma disable_getLsbD {i : ℕ} (hi : i < 16) : (halGpioIntPinsDisable s pins port).intEn.getLsbD i =
    (s.intEn.getLsbD i && !(hwPins pins port).getLsbD i) := by
  cases port with
  | gpioA => exact getLsbD_clearIn _ _ hi
  | gpioB => exact getLsbD_clearIn _ _ hi

lemma modeConfig_intEn {i : ℕ} (hi : i < 16) :
    (halGpioIntModeConfig s pins mode port).intEn.getLsbD i =
      (s.intEn.getLsbD i || (hwPins pins port).getLsbD i) := by
  cases port with
  | gpioA => cases mode <;> exact getLsbD_orInto _ _ hi
  | gpioB => cases mode <;> exact getLsbD_orInto _ _ hi

lemma modeConfig_intMode {i : ℕ} (hi : i < 16) :
    (halGpioIntModeConfig s pins mode port).intMode.getLsbD i =
      if (hwPins pins port).getLsbD i then edgeMode mode else s.intMode.getLsbD i := by
  have hset (bits : BitVec 32) : (orInto s.intMode bits).getLsbD i =
      if bits.getLsbD i then true else s.intMode.getLsbD i := by
    rw [getLsbD_orInto _ _ hi]
    cases bits.getLsbD i <;> simp
  have hclear (bits : BitVec 32) : (clearIn s.intMode bits).getLsbD i =
      if bits.getLsbD i then false else s.intMode.getLsbD i := by
    rw [getLsbD_clearIn _ _ hi]
    cases bits.getLsbD i <;> simp
  cases port with
  | gpioA =>
    cases mode
    · exact hclear pins
    · exact hclear pins
    · exact hset pins
    · exact hset pins
  | gpioB =>
    cases mode
    · exact hclear (movedPins pins)
    · exact hclear (movedPins pins)
    · exact hset (movedPins pins)
    · exact hset (movedPins pins)

lemma clearValue_getLsbD {i : ℕ} (hi : i < 16) :
    (flagPinsClearValue pins port).getLsbD i = (hwPins pins port).getLsbD i := by
  cases port with
  | gpioA =>
    rw [flagPinsClearValue, BitVec.getLsbD_setWidth, getLsbD_low _ hi]
    simp [hi, hwPins]
  | gpioB =>
    rw [flagPinsClearValue, BitVec.getLsbD_setWidth, getLsbD_low _ hi]
    simp [hi, hwPins]

lemma aligned_gpioA : Aligned .gpioA pins := fun _ _ => rfl

lemma aligned_gpioB_iff : Aligned .gpioB pins ↔
    (pins.getLsbD 8 = true → pins.getLsbD 22 = true) ∧
      (pins.getLsbD 9 = true → pins.getLsbD 23 = true) := by
  constructor
  · intro h
    have h8 := h 8 (by norm_num)
    have h9 := h 9 (by norm_num)
    rw [hwPins, getLsbD_movedPins _ (by norm_num)] at h8 h9
    simp only [pinOf] at h8 h9
    constructor
    · intro hpin
      rw [hpin] at h8
      exact h8.symm
    · intro hpin
      rw [hpin] at h9
      exact h9.symm
  · intro h i hi
    rw [hwPins, getLsbD_movedPins _ hi]
    by_cases h8 : i = 8
    · subst h8
      show (pins.getLsbD 8 || (true && pins.getLsbD 22)) = pins.getLsbD 22
      cases hpin : pins.getLsbD 8 with
      | false => rfl
      | true => rw [h.1 hpin, Bool.true_or]
    by_cases h9 : i = 9
    · subst h9
      show (pins.getLsbD 9 || (true && pins.getLsbD 23)) = pins.getLsbD 23
      cases hpin : pins.getLsbD 9 with
      | false => rfl
      | true => rw [h.2 hpin, Bool.true_or]
    · have hpin : pinOf .gpioB i = i := by simp [pinOf, h8, h9]
      simp [hpin, h8, h9]

/-- The flags of the pins 22 and 23 are not moved back. -/
lemma pinsGet_gpioB_getLsbD (h : Aligned .gpioB pins) (n : ℕ) :
    (halGpioIntFlagPinsGet s pins .gpioB).getLsbD n = true ↔
      s.intIf.getLsbD n = true ∧ pins.getLsbD (pinOf .gpioB n) = true := by
  rw [halGpioIntFlagPinsGet, BitVec.getLsbD_and, BitVec.getLsbD_setWidth, Bool.and_eq_true,
    Bool.and_eq_true, decide_eq_true_eq]
  constructor
  · rintro ⟨⟨-, hflag⟩, hmask⟩
    rw [← h n (flag_lt hflag)]
    exact ⟨hflag, hmask⟩
  · rintro ⟨hflag, hpin⟩
    have h16 := flag_lt hflag
    rw [← h n h16] at hpin
    exact ⟨⟨by omega, hflag⟩, hpin⟩

lemma pinsGet_gpioB_iff (h : Aligned .gpioB pins) :
    halGpioIntFlagPinsGet s pins .gpioB = halGpioIntFlagPortGet s .gpioB &&& pins ↔
      ¬ (s.intIf.getLsbD 8 = true ∧ pins.getLsbD 22 = true) ∧
        ¬ (s.intIf.getLsbD 9 = true ∧ pins.getLsbD 23 = true) := by
  have hright (n : ℕ) : (halGpioIntFlagPortGet s .gpioB &&& pins).getLsbD n = true ↔
      (∃ i < 16, pinOf .gpioB i = n ∧ s.intIf.getLsbD i = true) ∧ pins.getLsbD n = true := by
    rw [BitVec.getLsbD_and, Bool.and_eq_true, getLsbD_portGet]
  constructor
  · intro heq
    have hno (k : ℕ) (hk : k = 8 ∨ k = 9)
        (hboth : s.intIf.getLsbD k = true ∧ pins.getLsbD (pinOf .gpioB k) = true) : False := by
      have hbit := (pinsGet_gpioB_getLsbD s pins h k).mpr hboth
      rw [heq, hright] at hbit
      obtain ⟨⟨i, -, hpin, -⟩, -⟩ := hbit
      exact pinOf_gpioB_ne hk hpin
    exact ⟨hno 8 (Or.inl rfl), hno 9 (Or.inr rfl)⟩
  · intro hclear
    -- a pin that is pending and in the mask keeps its number
    have hkept (n : ℕ) (hflag : s.intIf.getLsbD n = true)
        (hpin : pins.getLsbD (pinOf .gpioB n) = true) : pinOf .gpioB n = n := by
      apply pinOf_of_ne
      · rintro rfl
        exact hclear.1 ⟨hflag, hpin⟩
      · rintro rfl
        exact hclear.2 ⟨hflag, hpin⟩
    apply BitVec.eq_of_getLsbD_eq
    intro n _
    rw [Bool.eq_iff_iff, pinsGet_gpioB_getLsbD s pins h, hright]
    constructor
    · rintro ⟨hflag, hpin⟩
      have hsame := hkept n hflag hpin
      rw [hsame] at hpin
      exact ⟨⟨n, flag_lt hflag, hsame, hflag⟩, hpin⟩
    · rintro ⟨⟨i, -, rfl, hflag⟩, hpin⟩
      have hsame := hkept i hflag hpin
      rw [hsame] at hpin ⊢
      rw [hsame]
      exact ⟨hflag, hpin⟩

end Masks

/-- The functions agree on which bit of the registers is which pin. -/
structure Remapped (s : IntRegs) (pins : BitVec 32) (mode : GpioIntMode) (port : GpioPort) :
    Prop where
  enabled : ∀ i < 16, (halGpioIntPinsEnable s pins port).intEn.getLsbD i =
    (s.intEn.getLsbD i || pins.getLsbD (pinOf port i))
  disabled : ∀ i < 16, (halGpioIntPinsDisable s pins port).intEn.getLsbD i =
    (s.intEn.getLsbD i && !pins.getLsbD (pinOf port i))
  modes_kept : (halGpioIntPinsEnable s pins port).intMode = s.intMode ∧
    (halGpioIntPinsDisable s pins port).intMode = s.intMode
  config_mode : ∀ i < 16, (halGpioIntModeConfig s pins mode port).intMode.getLsbD i =
    if pins.getLsbD (pinOf port i) then edgeMode mode else s.intMode.getLsbD i
  config_enabled : ∀ i < 16, (halGpioIntModeConfig s pins mode port).intEn.getLsbD i =
    (s.intEn.getLsbD i || pins.getLsbD (pinOf port i))
  pending : ∀ n, (halGpioIntFlagPortGet s port).getLsbD n = true ↔
    ∃ i < 16, pinOf port i = n ∧ s.intIf.getLsbD i = true
  pending_masked : halGpioIntFlagPinsGet s pins port = halGpioIntFlagPortGet s port &&& pins
  reported : ∀ raised, (gpioIrqHandler s port raised).2 = halGpioIntFlagPortGet s port
  cleared : ∀ raised, ∀ i < 16,
    (flagPinsClearValue (gpioIrqHandler s port raised).2 port).getLsbD i =
      (gpioIrqHandler s port raised).2.getLsbD (pinOf port i)
  not_lost : ∀ raised, ∀ i < 16, (gpioIrqHandler s port raised).1.intIf.getLsbD i =
    (raised.getLsbD i && !s.intIf.getLsbD i)

/-- The mask has none of the bits 8 and 9 alone, and the flags of the pins 22 and
23 in it are not raised. -/
def MaskUsable (s : IntRegs) (pins : BitVec 32) : GpioPort → Prop
  | .gpioA => True
  | .gpioB => ((pins.getLsbD 8 = true → pins.getLsbD 22 = true) ∧
      (pins.getLsbD 9 = true → pins.getLsbD 23 = true)) ∧
    ¬ (s.intIf.getLsbD 8 = true ∧ pins.getLsbD 22 = true) ∧
    ¬ (s.intIf.getLsbD 9 = true ∧ pins.getLsbD 23 = true)

instance (s : IntRegs) (pins : BitVec 32) : ∀ port, Decidable (MaskUsable s pins port)
  | .gpioA => inferInstanceAs (Decidable True)
  | .gpioB => inferInstanceAs (Decidable (_ ∧ _))

section Agreement

variable (s : IntRegs) (pins : BitVec 32) (mode : GpioIntMode) (port : GpioPort)

/-- The flags as pins have the pins 8 and 9 of port B never. -/
lemma aligned_portGet : Aligned port (halGpioIntFlagPortGet s port) := by
  cases port with
  | gpioA => exact aligned_gpioA _
  | gpioB =>
    have hnone (n : ℕ) (hn : n = 8 ∨ n = 9) :
        (halGpioIntFlagPortGet s .gpioB).getLsbD n ≠ true := by
      rw [ne_eq, getLsbD_portGet]
      rintro ⟨i, -, hpin, -⟩
      exact pinOf_gpioB_ne hn hpin
    rw [aligned_gpioB_iff]
    exact ⟨fun h => absurd h (hnone 8 (Or.inl rfl)), fun h => absurd h (hnone 9 (Or.inr rfl))⟩

lemma portGet_pinOf {i : ℕ} (hi : i < 16) :
    (halGpioIntFlagPortGet s port).getLsbD (pinOf port i) = s.intIf.getLsbD i := by
  rw [Bool.eq_iff_iff, getLsbD_portGet]
  constructor
  · rintro ⟨k, hk, hpin, hflag⟩
    rwa [← pinOf_injective port hk hi hpin]
  · intro hflag
    exact ⟨i, hi, rfl, hflag⟩

/-- The handler clears the flags that it has read. -/
lemma handler_clears {i : ℕ} (hi : i < 16) :
    (flagPinsClearValue (halGpioIntFlagPortGet s port) port).getLsbD i = s.intIf.getLsbD i := by
  rw [clearValue_getLsbD _ _ hi, aligned_portGet s port i hi, portGet_pinOf s port hi]

end Agreement

section Claim

variable {s : IntRegs} {pins : BitVec 32} {mode : GpioIntMode} {port : GpioPort}

/-- A disabled bit shows the mask when it is enabled, an enabled one when disabled. -/
lemma Remapped.aligned (h : Remapped s pins mode port) : Aligned port pins := by
  intro i hi
  have henabled := h.enabled i hi
  have hdisabled := h.disabled i hi
  rw [enable_getLsbD _ _ _ hi] at henabled
  rw [disable_getLsbD _ _ _ hi] at hdisabled
  cases hbit : s.intEn.getLsbD i with
  | false =>
    rw [hbit, Bool.false_or, Bool.false_or] at henabled
    exact henabled
  | true =>
    rw [hbit, Bool.true_and, Bool.true_and] at hdisabled
    exact Bool.not_inj hdisabled

lemma pinsGet_gpioA : halGpioIntFlagPinsGet s pins .gpioA = halGpioIntFlagPortGet s .gpioA &&& pins :=
  rfl

lemma remapped_of_aligned (h : Aligned port pins)
    (hmasked : halGpioIntFlagPinsGet s pins port = halGpioIntFlagPortGet s port &&& pins) :
    Remapped s pins mode port where
  enabled i hi := by rw [enable_getLsbD _ _ _ hi, h i hi]
  disabled i hi := by rw [disable_getLsbD _ _ _ hi, h i hi]
  modes_kept := by cases port <;> exact ⟨rfl, rfl⟩
  config_mode i hi := by rw [modeConfig_intMode _ _ _ _ hi, h i hi]
  config_enabled i hi := by rw [modeConfig_intEn _ _ _ _ hi, h i hi]
  pending n := getLsbD_portGet s port n
  pending_masked := hmasked
  reported _ := rfl
  cleared raised i hi := by
    show (flagPinsClearValue (halGpioIntFlagPortGet s port) port).getLsbD i =
      (halGpioIntFlagPortGet s port).getLsbD (pinOf port i)
    rw [handler_clears s port hi, portGet_pinOf s port hi]
  not_lost raised i hi := by
    show ((s.intIf ||| raised) &&& ~~~flagPinsClearValue (halGpioIntFlagPortGet s port) port).getLsbD
      i = _
    rw [BitVec.getLsbD_and, BitVec.getLsbD_not, BitVec.getLsbD_or, handler_clears s port hi]
    cases s.intIf.getLsbD i <;> simp [hi]

/-- The bits of the interrupt registers are the same pins to every function exactly
for the usable masks. -/
theorem remapped_iff (s : IntRegs) (pins : BitVec 32) (mode : GpioIntMode) (port : GpioPort) :
    Remapped s pins mode port ↔ MaskUsable s pins port := by
  cases port with
  | gpioA =>
    exact iff_of_true (remapped_of_aligned (aligned_gpioA pins) pinsGet_gpioA) trivial
  | gpioB =>
    constructor
    · intro h
      exact ⟨(aligned_gpioB_iff pins).mp h.aligned,
        (pinsGet_gpioB_iff s pins h.aligned).mp h.pending_masked⟩
    · rintro ⟨hmask, hclear⟩
      have h := (aligned_gpioB_iff pins).mpr hmask
      exact remapped_of_aligned h ((pinsGet_gpioB_iff s pins h).mpr hclear)

/-- The pending pin 22 is returned as pin 8. -/
theorem pin22_returned_as_pin8 :
    halGpioIntFlagPinsGet ⟨0, 0, 0x100, 0⟩ 0x400000 .gpioB = 0x100 ∧
      halGpioIntFlagPortGet ⟨0, 0, 0x100, 0⟩ .gpioB &&& 0x400000 = 0x400000 ∧
      ¬ Remapped ⟨0, 0, 0x100, 0⟩ 0x400000 .lowLevel .gpioB := by
  refine ⟨by decide, by decide, ?_⟩
  intro h
  have hmasked := h.pending_masked
  revert hmasked
  decide

end Claim

end WchIotSdk.GpioInterrupts
