import WchIotSdk.GpioInterrupts
import WchIotSdk.GpioConfigure
import WchIotSdk.LastWrite

/-!
# Setting up the interrupts of a port

`gpio_pin_interrupt_configure` takes the mode and the trigger of a pin as flags. A
logical trigger is exchanged for a pin that is active low. The driver passes on what
the hardware has, an interrupt at a level or at one edge, and refuses the rest. A
setup turns the interrupt of its line on and drops a pending flag.
-/
namespace WchIotSdk.GpioInterruptSetup
open GpioInterrupts EventRuns LastWrite
open Gpio (BIT enotsup getLsbD_BIT and_BIT_ne_zero_iff)

def gpioIntDisable : BitVec 32 := BIT 21
def gpioIntEnable : BitVec 32 := BIT 22
def gpioIntLevelsLogical : BitVec 32 := BIT 23
def gpioIntEdge : BitVec 32 := BIT 24
def gpioIntLow0 : BitVec 32 := BIT 25
def gpioIntHigh1 : BitVec 32 := BIT 26

/-- `enum gpio_int_mode` and `enum gpio_int_trig`. -/
def gpioIntModeDisabled : BitVec 32 := gpioIntDisable
def gpioIntModeLevel : BitVec 32 := gpioIntEnable
def gpioIntModeEdge : BitVec 32 := gpioIntEnable ||| gpioIntEdge
def gpioIntTrigLow : BitVec 32 := gpioIntLow0
def gpioIntTrigHigh : BitVec 32 := gpioIntHigh1

def gpioWchPinInterruptConfigure (s : IntRegs) (port : GpioPort) (pin : ℕ)
    (mode trig : BitVec 32) : IntRegs × ℤ :=
  if mode = gpioIntModeDisabled then (halGpioIntPinsDisable s (BIT pin) port, 0)
  else if mode = gpioIntModeLevel then
    if trig = gpioIntTrigLow then (halGpioIntModeConfig s (BIT pin) .lowLevel port, 0)
    else if trig = gpioIntTrigHigh then (halGpioIntModeConfig s (BIT pin) .highLevel port, 0)
    else (s, -enotsup)
  else if mode = gpioIntModeEdge then
    if trig = gpioIntTrigLow then (halGpioIntModeConfig s (BIT pin) .fallEdge port, 0)
    else if trig = gpioIntTrigHigh then (halGpioIntModeConfig s (BIT pin) .riseEdge port, 0)
    else (s, -enotsup)
  else (s, -enotsup)

/-- The pins of the port that are active low are in `invert`. -/
def gpioPinInterruptConfigure (s : IntRegs) (port : GpioPort) (invert : BitVec 32) (pin : ℕ)
    (flags : BitVec 32) : IntRegs × ℤ :=
  let flags :=
    if flags &&& gpioIntLevelsLogical ≠ 0 ∧ invert &&& BIT pin ≠ 0 then
      flags ^^^ (gpioIntLow0 ||| gpioIntHigh1)
    else flags
  gpioWchPinInterruptConfigure s port pin
    (flags &&& (gpioIntEdge ||| gpioIntDisable ||| gpioIntEnable))
    (flags &&& (gpioIntLow0 ||| gpioIntHigh1))

/-! ## What a call asks for -/

def triggerMode (edge high : Bool) : GpioIntMode :=
  match edge, high with
  | false, false => .lowLevel
  | false, true => .highLevel
  | true, false => .fallEdge
  | true, true => .riseEdge

/-- The flags ask for no interrupt or for one; none that the hardware has are refused. -/
def asked (activeLow : Bool) (flags : BitVec 32) : Option (Option GpioIntMode) :=
  match flags.getLsbD 21, flags.getLsbD 22 with
  | true, false => if flags.getLsbD 24 then none else some none
  | false, true =>
    if flags.getLsbD 25 = flags.getLsbD 26 then none
    else some (some (triggerMode (flags.getLsbD 24)
      (flags.getLsbD 26 ^^ (flags.getLsbD 23 && activeLow))))
  | _, _ => none

/-- The interrupt that the registers show for a line. -/
def shown (port : GpioPort) (s : IntRegs) (line : Fin 16) : Option GpioIntMode :=
  if s.intEn.getLsbD line then
    some (triggerMode (s.intMode.getLsbD line) (s.out.getLsbD (pinOf port line)))
  else none

section Flags

/-- A group of flags has a value if each of them has its bit. -/
lemma group_eq_iff (x : BitVec 32) {mask v : BitVec 32} (ks : List ℕ)
    (hmask : ∀ i : Fin 32, mask.getLsbD i = decide (i.val ∈ ks)) (hv : v &&& mask = v) :
    x &&& mask = v ↔ ∀ k ∈ ks, x.getLsbD k = v.getLsbD k := by
  constructor
  · intro h k hk
    by_cases hlt : k < 32
    · have hbit := congrArg (fun w => w.getLsbD k) h
      simpa [BitVec.getLsbD_and, hmask ⟨k, hlt⟩, hk] using hbit
    · rw [BitVec.getLsbD_of_ge _ _ (Nat.le_of_not_lt hlt),
        BitVec.getLsbD_of_ge _ _ (Nat.le_of_not_lt hlt)]
  · intro h
    rw [← hv]
    refine BitVec.eq_of_getLsbD_eq fun i hi => ?_
    rw [BitVec.getLsbD_and, BitVec.getLsbD_and, hmask ⟨i, hi⟩]
    by_cases hmem : i ∈ ks
    · rw [h i hmem]
    · simp [hmem]

variable (flags : BitVec 32)

lemma mode_disabled_iff :
    flags &&& (gpioIntEdge ||| gpioIntDisable ||| gpioIntEnable) = gpioIntModeDisabled ↔
      flags.getLsbD 24 = false ∧ flags.getLsbD 21 = true ∧ flags.getLsbD 22 = false := by
  rw [group_eq_iff flags [24, 21, 22] (by decide) (by decide)]
  simp [gpioIntModeDisabled, gpioIntDisable, BIT]

lemma mode_level_iff :
    flags &&& (gpioIntEdge ||| gpioIntDisable ||| gpioIntEnable) = gpioIntModeLevel ↔
      flags.getLsbD 24 = false ∧ flags.getLsbD 21 = false ∧ flags.getLsbD 22 = true := by
  rw [group_eq_iff flags [24, 21, 22] (by decide) (by decide)]
  simp [gpioIntModeLevel, gpioIntEnable, BIT]

lemma mode_edge_iff :
    flags &&& (gpioIntEdge ||| gpioIntDisable ||| gpioIntEnable) = gpioIntModeEdge ↔
      flags.getLsbD 24 = true ∧ flags.getLsbD 21 = false ∧ flags.getLsbD 22 = true := by
  rw [group_eq_iff flags [24, 21, 22] (by decide) (by decide)]
  simp [gpioIntModeEdge, gpioIntEnable, gpioIntEdge, BIT]

lemma trig_low_iff : flags &&& (gpioIntLow0 ||| gpioIntHigh1) = gpioIntTrigLow ↔
    flags.getLsbD 25 = true ∧ flags.getLsbD 26 = false := by
  rw [group_eq_iff flags [25, 26] (by decide) (by decide)]
  simp [gpioIntTrigLow, gpioIntLow0, BIT]

lemma trig_high_iff : flags &&& (gpioIntLow0 ||| gpioIntHigh1) = gpioIntTrigHigh ↔
    flags.getLsbD 25 = false ∧ flags.getLsbD 26 = true := by
  rw [group_eq_iff flags [25, 26] (by decide) (by decide)]
  simp [gpioIntTrigHigh, gpioIntHigh1, BIT]

end Flags

section Calls

variable (s : IntRegs) (port : GpioPort) (invert flags : BitVec 32) {pin : ℕ}

/-- What a call does about what it asks for. -/
def answer (s : IntRegs) (port : GpioPort) (pin : ℕ) : Option (Option GpioIntMode) → IntRegs × ℤ
  | none => (s, -enotsup)
  | some none => (halGpioIntPinsDisable s (BIT pin) port, 0)
  | some (some mode) => (halGpioIntModeConfig s (BIT pin) mode port, 0)

/-- Only the two flags of the trigger are exchanged. -/
lemma exchanged_getLsbD (activeLow : Bool) (k : ℕ) :
    (if flags.getLsbD 23 && activeLow then flags ^^^ (gpioIntLow0 ||| gpioIntHigh1)
      else flags).getLsbD k =
      (flags.getLsbD k ^^ (flags.getLsbD 23 && activeLow && decide (k = 25 ∨ k = 26))) := by
  have hmask : (gpioIntLow0 ||| gpioIntHigh1).getLsbD k = decide (k = 25 ∨ k = 26) := by
    rw [BitVec.getLsbD_or, gpioIntLow0, gpioIntHigh1, getLsbD_BIT _ _ (by norm_num),
      getLsbD_BIT _ _ (by norm_num)]
    simp [eq_comm]
  split_ifs with h
  · rw [BitVec.getLsbD_xor, hmask, h, Bool.true_and]
  · rw [eq_false_of_ne_true h, Bool.false_and, Bool.xor_false]

theorem configure_eq (hpin : pin < 32) :
    gpioPinInterruptConfigure s port invert pin flags =
      answer s port pin (asked (invert.getLsbD pin) flags) := by
  have hlogical : (flags &&& gpioIntLevelsLogical ≠ 0 ∧ invert &&& BIT pin ≠ 0) ↔
      (flags.getLsbD 23 && invert.getLsbD pin) = true := by
    rw [Bool.and_eq_true, ← and_BIT_ne_zero_iff hpin, ← and_BIT_ne_zero_iff (by norm_num)]
    rfl
  simp only [gpioPinInterruptConfigure, hlogical, gpioWchPinInterruptConfigure, mode_disabled_iff,
    mode_level_iff, mode_edge_iff, trig_low_iff, trig_high_iff, exchanged_getLsbD, asked]
  generalize flags.getLsbD 21 = disable, flags.getLsbD 22 = enable, flags.getLsbD 24 = edge,
    flags.getLsbD 25 = low, flags.getLsbD 26 = high,
    (flags.getLsbD 23 && invert.getLsbD pin) = exchanged
  cases disable <;> cases enable <;> cases edge <;> cases low <;> cases high <;>
    cases exchanged <;> rfl

end Calls

section Lines

variable (s : IntRegs) (port : GpioPort) (line : Fin 16) (mode : GpioIntMode)

def highMode : GpioIntMode → Bool
  | .lowLevel | .fallEdge => false
  | .highLevel | .riseEdge => true

lemma triggerMode_eq : triggerMode (edgeMode mode) (highMode mode) = mode := by
  cases mode <;> rfl

lemma pinOf_lt_width : pinOf port line < 32 := pinOf_lt port line.isLt

/-- The mask of the pin of a line has the pin of no other line. -/
lemma getLsbD_BIT_pinOf (i : Fin 16) :
    (BIT (pinOf port line)).getLsbD (pinOf port i) = decide (i = line) := by
  rw [getLsbD_BIT _ _ (pinOf_lt_width port line)]
  refine decide_eq_decide.mpr ⟨fun h => ?_, fun h => h ▸ rfl⟩
  exact Fin.ext (pinOf_injective port line.isLt i.isLt h).symm

/-- The mask of a pin with an interrupt has the bit of its line only. -/
lemma hwPins_BIT (i : Fin 16) :
    (hwPins (BIT (pinOf port line)) port).getLsbD i = decide (i = line) := by
  have haligned : Aligned port (BIT (pinOf port line)) := by
    cases port with
    | gpioA => exact aligned_gpioA _
    | gpioB =>
      rw [aligned_gpioB_iff]
      simp only [getLsbD_BIT _ _ (pinOf_lt_width .gpioB line), decide_eq_true_eq]
      exact ⟨fun h => absurd h (pinOf_gpioB_ne (Or.inl rfl)),
        fun h => absurd h (pinOf_gpioB_ne (Or.inr rfl))⟩
  rw [haligned i i.isLt, getLsbD_BIT_pinOf]

lemma modeConfig_out (pins : BitVec 32) {n : ℕ} (hn : n < 32) :
    (halGpioIntModeConfig s pins mode port).out.getLsbD n =
      if pins.getLsbD n then highMode mode else s.out.getLsbD n := by
  have hset : (s.out ||| pins).getLsbD n = if pins.getLsbD n then true else s.out.getLsbD n := by
    rw [BitVec.getLsbD_or]
    cases pins.getLsbD n <;> simp
  have hclear : (s.out &&& ~~~pins).getLsbD n =
      if pins.getLsbD n then false else s.out.getLsbD n := by
    rw [BitVec.getLsbD_and, BitVec.getLsbD_not]
    cases pins.getLsbD n <;> simp [hn]
  cases port <;> cases mode <;> first | exact hset | exact hclear

/-- A setup drops the pending flags of its lines. -/
lemma modeConfig_intIf (pins : BitVec 32) (i : Fin 16) :
    (halGpioIntModeConfig s pins mode port).intIf.getLsbD i =
      (s.intIf.getLsbD i && !(hwPins pins port).getLsbD i) := by
  have hdrop (bits : BitVec 32) : (s.intIf &&& ~~~bits.setWidth 16).getLsbD i =
      (s.intIf.getLsbD i && !bits.getLsbD i) := by
    rw [BitVec.getLsbD_and, BitVec.getLsbD_not, BitVec.getLsbD_setWidth]
    simp [i.isLt]
  cases port <;> cases mode <;> exact hdrop _

lemma disable_keeps (pins : BitVec 32) :
    (halGpioIntPinsDisable s pins port).intMode = s.intMode ∧
      (halGpioIntPinsDisable s pins port).out = s.out ∧
      (halGpioIntPinsDisable s pins port).intIf = s.intIf := by
  cases port <;> exact ⟨rfl, rfl, rfl⟩

lemma shown_disable :
    shown port (halGpioIntPinsDisable s (BIT (pinOf port line)) port) =
      Function.update (shown port s) line none := by
  funext i
  obtain ⟨hmode, hout, -⟩ := disable_keeps s port (BIT (pinOf port line))
  rw [shown, disable_getLsbD _ _ _ i.isLt, hwPins_BIT, hmode, hout]
  by_cases h : i = line
  · subst h
    simp
  · simp [h, shown]

lemma shown_modeConfig :
    shown port (halGpioIntModeConfig s (BIT (pinOf port line)) mode port) =
      Function.update (shown port s) line (some mode) := by
  funext i
  rw [shown, modeConfig_intEn _ _ _ _ i.isLt, modeConfig_intMode _ _ _ _ i.isLt,
    modeConfig_out _ _ _ _ (pinOf_lt_width port i), hwPins_BIT, getLsbD_BIT_pinOf]
  by_cases h : i = line
  · subst h
    simp [triggerMode_eq]
  · simp [h, shown]

end Lines

/-! ## Runs of a port -/

/-- A call for the pin of a line, flags that the hardware raises, and an interrupt,
with the flags raised inside its handler. -/
inductive Event where
  | configure (line : Fin 16) (flags : BitVec 32)
  | raise (flags : BitVec 16)
  | handle (raised : BitVec 16)
  deriving Repr

section Runs

variable (port : GpioPort) (invert : BitVec 32)

def step (s : IntRegs) : Event → IntRegs
  | .configure line flags => (gpioPinInterruptConfigure s port invert (pinOf port line) flags).1
  | .raise flags => { s with intIf := s.intIf ||| flags }
  | .handle raised => (gpioIrqHandler s port raised).1

/-- The line and the interrupt that an event sets it up for. -/
def setUp : Event → Option (Fin 16 × Option GpioIntMode)
  | .configure line flags =>
    (asked (invert.getLsbD (pinOf port line)) flags).map fun setting => (line, setting)
  | _ => none

/-- Whether the callbacks are called for the pin of the line. -/
def reports (line : Fin 16) (s : IntRegs) : Event → Bool
  | .handle raised => (gpioIrqHandler s port raised).2.getLsbD (pinOf port line)
  | _ => false

def raises (line : Fin 16) : Event → Bool
  | .configure _ _ => false
  | .raise flags | .handle flags => flags.getLsbD line

variable (s : IntRegs) (line : Fin 16)

lemma shown_step (e : Event) :
    shown port (step port invert s e) =
      lastWritten (shown port s) (setUp port invert e).toList := by
  cases e with
  | configure line flags =>
    rw [step, configure_eq s port invert flags (pinOf_lt_width port line), setUp]
    rcases asked (invert.getLsbD (pinOf port line)) flags with _ | _ | mode
    · rfl
    · exact (shown_disable s port line).trans (lastWritten_singleton _ _ _).symm
    · exact (shown_modeConfig s port line mode).trans (lastWritten_singleton _ _ _).symm
  | raise flags => rfl
  | handle raised => rfl

/-- After any run each line has the interrupt of its last accepted setup, and the one of
the start if there is none. A call is refused exactly if it asks for none that there is. -/
theorem interrupts_set_up (es : List Event) :
    shown port (run (step port invert) s es) =
        lastWritten (shown port s) (es.filterMap (setUp port invert)) ∧
      ∀ (line : Fin 16) flags,
        ((gpioPinInterruptConfigure s port invert (pinOf port line) flags).2 = 0 ↔
          (setUp port invert (.configure line flags)).isSome) := by
  constructor
  · induction es generalizing s with
    | nil => rfl
    | cons e es ih =>
      rw [run_cons, ih, shown_step, ← lastWritten_append]
      cases hsetup : setUp port invert e with
      | none => rw [List.filterMap_cons_none hsetup]; rfl
      | some setting => rw [List.filterMap_cons_some hsetup]; rfl
  · intro line flags
    rw [configure_eq s port invert flags (pinOf_lt_width port line), setUp, Option.isSome_map]
    rcases asked (invert.getLsbD (pinOf port line)) flags with _ | _ | mode
    · exact iff_of_false (show ¬ -enotsup = 0 by decide) (by simp)
    · exact iff_of_true rfl rfl
    · exact iff_of_true rfl rfl

/-- The falling edge of pin 22, whose line is 8, for an active-low pin. -/
example : shown .gpioB (run (step .gpioB (BIT 22)) ⟨0, 0, 0, 0⟩
    [.configure 8 (gpioIntEnable ||| gpioIntLevelsLogical ||| gpioIntEdge ||| gpioIntHigh1)]) 8 =
      some .fallEdge := by decide

/-- One event and the flag of one line: it is reported at most as often as it is raised,
and only a report or a setup takes it away. -/
structure FlagStep (s s' : IntRegs) (e : Event) : Prop where
  counted : (reports port line s e).toNat + (s'.intIf.getLsbD line).toNat ≤
    (s.intIf.getLsbD line).toNat + (raises line e).toNat
  kept : s.intIf.getLsbD line = true → s'.intIf.getLsbD line = true ∨
    reports port line s e = true ∨ ∃ mode, setUp port invert e = some (line, some mode)

lemma flag_step (e : Event) : FlagStep port invert line s (step port invert s e) e := by
  cases e with
  | configure other flags =>
    rw [step, configure_eq s port invert flags (pinOf_lt_width port other)]
    cases hasked : asked (invert.getLsbD (pinOf port other)) flags with
    | none => exact ⟨by simp [reports, raises, answer], fun h => Or.inl h⟩
    | some setting =>
      cases setting with
      | none =>
        obtain ⟨-, -, hflags⟩ := disable_keeps s port (BIT (pinOf port other))
        refine ⟨?_, fun h => Or.inl (hflags ▸ h)⟩
        rw [answer, hflags]
        simp [reports, raises]
      | some mode =>
        have hflag := modeConfig_intIf s port mode (BIT (pinOf port other)) line
        rw [hwPins_BIT] at hflag
        refine ⟨?_, fun h => ?_⟩
        · rw [answer, hflag]
          cases s.intIf.getLsbD line <;> cases decide (line = other) <;> simp [reports, raises]
        · by_cases hline : line = other
          · subst hline
            exact Or.inr (Or.inr ⟨mode, by rw [setUp, hasked]; rfl⟩)
          · refine Or.inl ?_
            rw [answer, hflag, h]
            simp [hline]
  | raise flags =>
    have hflag : (step port invert s (.raise flags)).intIf.getLsbD line =
        (s.intIf.getLsbD line || flags.getLsbD line) := BitVec.getLsbD_or
    refine ⟨?_, fun h => Or.inl (by rw [hflag, h, Bool.true_or])⟩
    rw [hflag, raises]
    cases s.intIf.getLsbD line <;> simp [reports]
  | handle raised =>
    have hreport : reports port line s (.handle raised) = s.intIf.getLsbD line :=
      portGet_pinOf s port line.isLt
    have hflag : (step port invert s (.handle raised)).intIf.getLsbD line =
        (raised.getLsbD line && !s.intIf.getLsbD line) := by
      show ((s.intIf ||| raised) &&&
        ~~~flagPinsClearValue (halGpioIntFlagPortGet s port) port).getLsbD line = _
      rw [BitVec.getLsbD_and, BitVec.getLsbD_not, BitVec.getLsbD_or,
        handler_clears s port line.isLt]
      cases s.intIf.getLsbD line <;> simp [line.isLt]
    refine ⟨?_, fun h => Or.inr (Or.inl (hreport.trans h))⟩
    rw [hreport, hflag, raises]
    cases s.intIf.getLsbD line <;> simp

/-- The reports of a line in a run, event by event. -/
def reported (es : List Event) : List Bool :=
  outputs (step port invert) (fun s e => [reports port line s e]) s es

/-- Over any run no flag is reported that was not raised, or twice, and none is lost: it is
pending, has been reported, or its line has been set up anew. -/
theorem flags_reported (es : List Event) :
    (reported port invert s line es).count true +
        ((run (step port invert) s es).intIf.getLsbD line).toNat ≤
      (s.intIf.getLsbD line).toNat + es.countP (raises line) ∧
    (s.intIf.getLsbD line = true → (run (step port invert) s es).intIf.getLsbD line = true ∨
      true ∈ reported port invert s line es ∨
      ∃ mode, (line, some mode) ∈ es.filterMap (setUp port invert)) := by
  induction es generalizing s with
  | nil => exact ⟨by simp [reported, outputs], Or.inl⟩
  | cons e es ih =>
    obtain ⟨hcount, hkept⟩ := ih (step port invert s e)
    have hstep := flag_step port invert s line e
    have hreported : reported port invert s line (e :: es) =
        reports port line s e :: reported port invert (step port invert s e) line es := rfl
    rw [hreported, run_cons]
    constructor
    · have hfirst := hstep.counted
      have hreports (b : Bool) (bs : List Bool) :
          (b :: bs).count true = bs.count true + b.toNat := by
        cases b <;> simp
      have hraises : (e :: es).countP (raises line) =
          es.countP (raises line) + (raises line e).toNat := by
        rw [List.countP_cons]
        cases raises line e <;> rfl
      rw [hreports, hraises]
      omega
    · intro hflag
      rcases hstep.kept hflag with hpending | hreport | ⟨mode, hsetup⟩
      · rcases hkept hpending with hend | hlater | ⟨mode, hsetup⟩
        · exact Or.inl hend
        · exact Or.inr (Or.inl (List.mem_cons_of_mem _ hlater))
        · refine Or.inr (Or.inr ⟨mode, ?_⟩)
          obtain ⟨e', he', heq⟩ := List.mem_filterMap.mp hsetup
          exact List.mem_filterMap.mpr ⟨e', List.mem_cons_of_mem e he', heq⟩
      · exact Or.inr (Or.inl (hreport ▸ List.mem_cons_self))
      · exact Or.inr (Or.inr ⟨mode, List.mem_filterMap.mpr ⟨e, List.mem_cons_self, hsetup⟩⟩)

end Runs

end WchIotSdk.GpioInterruptSetup
