import WchIotSdk.EventRuns

/-!
# Device wake-up sources

`pm_device_wakeup_enable` keeps the wake-up choice twice: as an atomic flag in
the device's PM resources, and as a bit of R8_SLP_WAKE_CTRL written by the SoC
layer. The RTC has a bit of its own and the two GPIO ports share one. The calls
are made one after another, so every compare-and-swap sees the value it read.
-/
namespace WchIotSdk.WakeupSources
open EventRuns

/-- The devices `pm_device_wakeup_source` knows. -/
inductive Device where
  | rtc
  | gpioa
  | gpiob
  deriving DecidableEq, Repr

/-- The wake-up register and, for each device, the flag word of its PM
resources. A device defined without PM resources has a NULL `pm` pointer. -/
structure WakeState where
  r8SlpWakeCtrl : BitVec 8
  pm : Device → Option (BitVec 32)

def pmDeviceFlagWsCapable : ℕ := 0
def pmDeviceFlagWsEnabled : ℕ := 1

/-- `PWR_WAKEUP_SOURCE_RTC` and `PWR_WAKEUP_SOURCE_GPIO`. -/
def pwrWakeupSourceRtc : BitVec 8 := BitVec.twoPow 8 3
def pwrWakeupSourceGpio : BitVec 8 := BitVec.twoPow 8 4

def halPwrWakeupSource (reg source : BitVec 8) (enable : Bool) : BitVec 8 :=
  if enable then reg ||| source else reg &&& ~~~source

/-- The SoC layer names the source of each device. Each of its branches passes
the constant `true` on, whatever `enable` is. -/
def pmDeviceWakeupSource (reg : BitVec 8) (dev : Device) (_enable : Bool) : BitVec 8 :=
  match dev with
  | .rtc => halPwrWakeupSource reg pwrWakeupSourceRtc true
  | .gpioa => halPwrWakeupSource reg pwrWakeupSourceGpio true
  | .gpiob => halPwrWakeupSource reg pwrWakeupSourceGpio true

/-- Value left in the target, and whether the exchange took place. -/
def atomicCas (target oldValue newValue : BitVec 32) : BitVec 32 × Bool :=
  if target = oldValue then (newValue, true) else (target, false)

def pmDeviceWakeupEnable (s : WakeState) (dev : Device) (enable : Bool) : WakeState × Bool :=
  match s.pm dev with
  | none => (s, false)
  | some flags =>
    if flags &&& BitVec.twoPow 32 pmDeviceFlagWsCapable = 0 then (s, false)
    else if enable then
      let reg := pmDeviceWakeupSource s.r8SlpWakeCtrl dev true
      let out := atomicCas flags flags (flags ||| BitVec.twoPow 32 pmDeviceFlagWsEnabled)
      (⟨reg, Function.update s.pm dev (some out.1)⟩, out.2)
    else
      let reg := pmDeviceWakeupSource s.r8SlpWakeCtrl dev false
      let out := atomicCas flags flags (flags &&& ~~~BitVec.twoPow 32 pmDeviceFlagWsEnabled)
      (⟨reg, Function.update s.pm dev (some out.1)⟩, out.2)

def pmDeviceWakeupIsEnabled (s : WakeState) (dev : Device) : Bool :=
  match s.pm dev with
  | none => false
  | some flags => flags.getLsbD pmDeviceFlagWsEnabled

def pmDeviceWakeupIsCapable (s : WakeState) (dev : Device) : Bool :=
  match s.pm dev with
  | none => false
  | some flags => flags.getLsbD pmDeviceFlagWsCapable

/-- The register bit of a device's wake-up source. -/
def sourceBit : Device → ℕ
  | .rtc => 3
  | .gpioa => 4
  | .gpiob => 4

lemma pmDeviceWakeupSource_getLsbD (reg : BitVec 8) (dev : Device) (enable : Bool) (i : ℕ) :
    (pmDeviceWakeupSource reg dev enable).getLsbD i =
      (reg.getLsbD i || decide (i = sourceBit dev)) := by
  have hbit (k : ℕ) (hk : k < 8) :
      (reg ||| BitVec.twoPow 8 k).getLsbD i = (reg.getLsbD i || decide (i = k)) := by
    simp only [BitVec.getLsbD_or, BitVec.getLsbD_twoPow, hk, decide_true, Bool.true_and]
    congr 1
    exact decide_eq_decide.mpr eq_comm
  cases dev
  · exact hbit 3 (by decide)
  · exact hbit 4 (by decide)
  · exact hbit 4 (by decide)

lemma capable_iff_mask (flags : BitVec 32) :
    flags &&& BitVec.twoPow 32 pmDeviceFlagWsCapable = 0 ↔
      flags.getLsbD pmDeviceFlagWsCapable = false := by
  rw [BitVec.and_twoPow]
  cases h : flags.getLsbD pmDeviceFlagWsCapable with
  | false => simp
  | true =>
    have hbit : BitVec.twoPow 32 pmDeviceFlagWsCapable ≠ 0 := by decide
    simpa using hbit

/-- An incapable device is refused before anything is written. -/
theorem pmDeviceWakeupEnable_incapable (s : WakeState) (dev : Device) (enable : Bool)
    (hc : pmDeviceWakeupIsCapable s dev = false) :
    pmDeviceWakeupEnable s dev enable = (s, false) := by
  unfold pmDeviceWakeupEnable
  unfold pmDeviceWakeupIsCapable at hc
  cases hp : s.pm dev with
  | none => rfl
  | some flags =>
    rw [hp] at hc
    simp only
    rw [if_pos ((capable_iff_mask flags).mpr hc)]

/-- What a call on a capable device does: it succeeds, sets the flag to
`enable`, and sets the register bit of the device in either case. -/
structure CapableCall (s : WakeState) (dev : Device) (enable : Bool)
    (out : WakeState × Bool) : Prop where
  succeeds : out.2 = true
  register : ∀ i, out.1.r8SlpWakeCtrl.getLsbD i =
    (s.r8SlpWakeCtrl.getLsbD i || decide (i = sourceBit dev))
  enabled : ∀ d, pmDeviceWakeupIsEnabled out.1 d =
    if d = dev then enable else pmDeviceWakeupIsEnabled s d
  capable : ∀ d, pmDeviceWakeupIsCapable out.1 d = pmDeviceWakeupIsCapable s d

lemma setEnabled_bits (flags : BitVec 32) :
    (flags ||| BitVec.twoPow 32 pmDeviceFlagWsEnabled).getLsbD pmDeviceFlagWsEnabled = true ∧
      (flags ||| BitVec.twoPow 32 pmDeviceFlagWsEnabled).getLsbD pmDeviceFlagWsCapable =
        flags.getLsbD pmDeviceFlagWsCapable := by
  simp only [BitVec.getLsbD_or, BitVec.getLsbD_twoPow, pmDeviceFlagWsEnabled, pmDeviceFlagWsCapable]
  exact ⟨Bool.or_true _, Bool.or_false _⟩

lemma clearEnabled_bits (flags : BitVec 32) :
    (flags &&& ~~~BitVec.twoPow 32 pmDeviceFlagWsEnabled).getLsbD pmDeviceFlagWsEnabled = false ∧
      (flags &&& ~~~BitVec.twoPow 32 pmDeviceFlagWsEnabled).getLsbD pmDeviceFlagWsCapable =
        flags.getLsbD pmDeviceFlagWsCapable := by
  simp only [BitVec.getLsbD_and, BitVec.getLsbD_not, BitVec.getLsbD_twoPow,
    pmDeviceFlagWsEnabled, pmDeviceFlagWsCapable]
  exact ⟨Bool.and_false _, Bool.and_true _⟩

/-- Storing a flag word whose capable bit stands and whose enabled bit is
`enable`, after writing the source, is a capable call. -/
lemma capableCall_store (s : WakeState) (dev : Device) (enable : Bool) (f : BitVec 32)
    (hc : pmDeviceWakeupIsCapable s dev = true)
    (hen : f.getLsbD pmDeviceFlagWsEnabled = enable)
    (hcap : f.getLsbD pmDeviceFlagWsCapable = true) :
    CapableCall s dev enable
      (⟨pmDeviceWakeupSource s.r8SlpWakeCtrl dev enable, Function.update s.pm dev (some f)⟩,
        true) := by
  refine ⟨rfl, fun i => pmDeviceWakeupSource_getLsbD _ _ enable i, fun d => ?_, fun d => ?_⟩
  · by_cases hd : d = dev
    · subst d
      simpa [pmDeviceWakeupIsEnabled] using hen
    · simp [pmDeviceWakeupIsEnabled, hd]
  · by_cases hd : d = dev
    · subst d
      rw [hc]
      simpa [pmDeviceWakeupIsCapable] using hcap
    · simp [pmDeviceWakeupIsCapable, hd]

theorem pmDeviceWakeupEnable_capable (s : WakeState) (dev : Device) (enable : Bool)
    (hc : pmDeviceWakeupIsCapable s dev = true) :
    CapableCall s dev enable (pmDeviceWakeupEnable s dev enable) := by
  cases hp : s.pm dev with
  | none => simp [pmDeviceWakeupIsCapable, hp] at hc
  | some flags =>
    have hcap : flags.getLsbD pmDeviceFlagWsCapable = true := by
      simpa [pmDeviceWakeupIsCapable, hp] using hc
    have hmask : ¬ flags &&& BitVec.twoPow 32 pmDeviceFlagWsCapable = 0 := by
      rw [capable_iff_mask, hcap]
      decide
    simp only [pmDeviceWakeupEnable, hp, if_neg hmask, atomicCas, if_true]
    cases enable with
    | true =>
      have hb := setEnabled_bits flags
      exact capableCall_store s dev true _ hc hb.1 (hb.2.trans hcap)
    | false =>
      have hb := clearEnabled_bits flags
      exact capableCall_store s dev false _ hc hb.1 (hb.2.trans hcap)

/-- The two source bits of the register are the union of the sources of the
enabled devices. -/
def SourcesMatch (s : WakeState) : Prop :=
  ∀ i, i = sourceBit .rtc ∨ i = sourceBit .gpioa →
    (s.r8SlpWakeCtrl.getLsbD i = true ↔
      ∃ d, sourceBit d = i ∧ pmDeviceWakeupIsEnabled s d = true)

/-- All sources disabled: no enabled flag, and both source bits clear. -/
structure AllDisabled (s : WakeState) : Prop where
  flags : ∀ d, pmDeviceWakeupIsEnabled s d = false
  register : ∀ d, s.r8SlpWakeCtrl.getLsbD (sourceBit d) = false

/-- The state part of one `pm_device_wakeup_enable` call. -/
def wakeStep (s : WakeState) (call : Device × Bool) : WakeState :=
  (pmDeviceWakeupEnable s call.1 call.2).1

/-- What is asked of one call: the source bits match the flags afterwards, the
other bits are untouched, and the result tells whether the call took effect. -/
structure CallConsistent (s : WakeState) (call : Device × Bool) : Prop where
  sources : SourcesMatch (wakeStep s call)
  frame : ∀ i, i ≠ sourceBit .rtc → i ≠ sourceBit .gpioa →
    (wakeStep s call).r8SlpWakeCtrl.getLsbD i = s.r8SlpWakeCtrl.getLsbD i
  result : (pmDeviceWakeupEnable s call.1 call.2).2 = true ↔
    pmDeviceWakeupIsCapable s call.1 = true ∧
      pmDeviceWakeupIsEnabled (wakeStep s call) call.1 = call.2
  refusal : (pmDeviceWakeupEnable s call.1 call.2).2 = false → wakeStep s call = s

/-- The call enables, or is refused, or disables a device whose source another
enabled device keeps in use. -/
def KeepsSourceUsed (s : WakeState) (call : Device × Bool) : Prop :=
  call.2 = true ∨ pmDeviceWakeupIsCapable s call.1 = false ∨
    ∃ d, d ≠ call.1 ∧ sourceBit d = sourceBit call.1 ∧ pmDeviceWakeupIsEnabled s d = true

theorem AllDisabled.sourcesMatch {s : WakeState} (h : AllDisabled s) : SourcesMatch s := by
  intro i hi
  have hreg : s.r8SlpWakeCtrl.getLsbD i = false := by
    rcases hi with rfl | rfl
    · exact h.register .rtc
    · exact h.register .gpioa
  simp [hreg, h.flags]

lemma sourceBit_cases (d : Device) : sourceBit d = sourceBit .rtc ∨ sourceBit d = sourceBit .gpioa := by
  cases d <;> simp [sourceBit]

/-- A source is in use after the flag of one device has been set to `enable`. -/
lemma used_after_iff (enabled : Device → Bool) (dev : Device) (enable : Bool) (i : ℕ) :
    (∃ d, sourceBit d = i ∧ (if d = dev then enable else enabled d) = true) ↔
      (sourceBit dev = i ∧ enable = true) ∨
        ∃ d, d ≠ dev ∧ sourceBit d = i ∧ enabled d = true := by
  constructor
  · rintro ⟨d, hd, hen⟩
    by_cases hdd : d = dev
    · rw [if_pos hdd] at hen
      exact Or.inl ⟨hdd ▸ hd, hen⟩
    · rw [if_neg hdd] at hen
      exact Or.inr ⟨d, hdd, hd, hen⟩
  · rintro (⟨hd, hen⟩ | ⟨d, hdd, hd, hen⟩)
    · exact ⟨dev, hd, by rwa [if_pos rfl]⟩
    · exact ⟨d, hd, by rwa [if_neg hdd]⟩

lemma sourcesMatch_wakeStep_iff {s : WakeState} {dev : Device} {enable : Bool}
    (hc : pmDeviceWakeupIsCapable s dev = true) (hs : SourcesMatch s) :
    SourcesMatch (wakeStep s (dev, enable)) ↔ enable = true ∨
      ∃ d, d ≠ dev ∧ sourceBit d = sourceBit dev ∧ pmDeviceWakeupIsEnabled s d = true := by
  have hcall := pmDeviceWakeupEnable_capable s dev enable hc
  have hset {i : ℕ} (hi : i = sourceBit .rtc ∨ i = sourceBit .gpioa) :
      (wakeStep s (dev, enable)).r8SlpWakeCtrl.getLsbD i = true ↔
        (∃ d, sourceBit d = i ∧ pmDeviceWakeupIsEnabled s d = true) ∨ i = sourceBit dev := by
    rw [wakeStep, hcall.register, Bool.or_eq_true, decide_eq_true_eq, hs i hi]
  have hused (i : ℕ) := used_after_iff (pmDeviceWakeupIsEnabled s) dev enable i
  simp only [SourcesMatch, wakeStep, hcall.enabled, hused] at hset ⊢
  constructor
  · intro hm
    have hthis := (hm _ (sourceBit_cases dev)).mp ((hset (sourceBit_cases dev)).mpr (Or.inr rfl))
    exact hthis.imp_left And.right
  · intro hk i hi
    rw [hset hi]
    by_cases hbit : i = sourceBit dev
    · subst hbit
      exact iff_of_true (Or.inr rfl) (hk.imp_left fun hen => ⟨rfl, hen⟩)
    · constructor
      · rintro (⟨d, hd, hen⟩ | heq)
        · have hdd : d ≠ dev := fun hdd => hbit (hdd ▸ hd.symm)
          exact Or.inr ⟨d, hdd, hd, hen⟩
        · exact absurd heq hbit
      · rintro (⟨heq, -⟩ | ⟨d, -, hd, hen⟩)
        · exact absurd heq.symm hbit
        · exact Or.inl ⟨d, hd, hen⟩

/-- Of a call on a capable device only the match of flags and source bits depends
on the arguments. -/
lemma callConsistent_capable_iff {s : WakeState} {dev : Device} {enable : Bool}
    (hc : pmDeviceWakeupIsCapable s dev = true) :
    CallConsistent s (dev, enable) ↔ SourcesMatch (wakeStep s (dev, enable)) := by
  have hcall := pmDeviceWakeupEnable_capable s dev enable hc
  refine ⟨CallConsistent.sources, fun hm => ⟨hm, fun i hr hg => ?_, ?_, fun hf => ?_⟩⟩
  · have hne : i ≠ sourceBit dev := by
      rcases sourceBit_cases dev with h | h <;> rw [h] <;> assumption
    simp [wakeStep, hcall.register, hne]
  · simp [hcall.succeeds, hc, wakeStep, hcall.enabled]
  · rw [hcall.succeeds] at hf
    cases hf

/-- One call from a consistent state is consistent exactly when it does not
take the last enabled device off its source. -/
theorem callConsistent_iff (s : WakeState) (call : Device × Bool) (hs : SourcesMatch s) :
    CallConsistent s call ↔ KeepsSourceUsed s call := by
  obtain ⟨dev, enable⟩ := call
  cases hc : pmDeviceWakeupIsCapable s dev with
  | false =>
    have hcall := pmDeviceWakeupEnable_incapable s dev enable hc
    have hstep : wakeStep s (dev, enable) = s := by simp only [wakeStep, hcall]
    refine iff_of_true ⟨by rwa [hstep], fun i _ _ => by rw [hstep], ?_, fun _ => hstep⟩
      (Or.inr (Or.inl hc))
    simp [hcall, hc]
  | true =>
    rw [callConsistent_capable_iff hc, sourcesMatch_wakeStep_iff hc hs, KeepsSourceUsed, hc]
    simp only [Bool.true_eq_false, false_or]

/-- Every call of a run is consistent exactly when no call of it disables the
last enabled device of a source, or a device that is not enabled. -/
theorem wakeup_run_consistent_iff (s : WakeState) (calls : List (Device × Bool))
    (hs : AllDisabled s) :
    Along wakeStep CallConsistent s calls ↔ Along wakeStep KeepsSourceUsed s calls := by
  have hstep : ∀ t call, SourcesMatch t → KeepsSourceUsed t call →
      SourcesMatch (wakeStep t call) := by
    intro t call ht hk
    exact ((callConsistent_iff t call ht).mpr hk).sources
  exact along_congr callConsistent_iff hstep hs.sourcesMatch calls

/-- All three devices WS_CAPABLE and off, and a zero register. -/
def allCapable : WakeState := ⟨0, fun _ => some 1⟩

theorem allCapable_disabled : AllDisabled allCapable :=
  ⟨fun _ => rfl, fun d => by cases d <;> rfl⟩

theorem wakeup_run_enable_all :
    AllDisabled allCapable ∧
      Along wakeStep CallConsistent allCapable
        [(.rtc, true), (.gpioa, true), (.gpiob, true), (.gpioa, false)] :=
  ⟨allCapable_disabled, (wakeup_run_consistent_iff allCapable _ allCapable_disabled).mpr
    ⟨Or.inl rfl, Or.inl rfl, Or.inl rfl,
      Or.inr (Or.inr ⟨.gpiob, by decide, rfl, by decide⟩), trivial⟩⟩

/-- Enabling the RTC and disabling it again leaves its bit set: the register
still wakes on the RTC although the flag says it is disabled. -/
theorem wakeup_disable_leaves_bit :
    AllDisabled allCapable ∧
      ¬ Along wakeStep CallConsistent allCapable [(.rtc, true), (.rtc, false)] := by
  refine ⟨allCapable_disabled, fun h => ?_⟩
  have hm := (h.2.1).sources 3 (Or.inl rfl)
  obtain ⟨d, hd, hen⟩ := hm.mp (by decide)
  cases d with
  | rtc => exact absurd hen (by decide)
  | gpioa => exact absurd hd (by decide)
  | gpiob => exact absurd hd (by decide)

end WchIotSdk.WakeupSources
