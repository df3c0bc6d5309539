import WchIotSdk.AdcAcceptance
import WchIotSdk.AdcChannels

/-!
# Sampling the temperature in between

`ble_hal_get_inter_temp` keeps the configuration of the selected channel, sets up the
temperature channel, takes one sample and sets up what it kept. The setup refuses what
was kept, because the gain is not part of it, unless the channel is one of the two
that need none; and no setup selects a channel that was read.
-/
namespace WchIotSdk.AdcTemperature
open AdcSampling AdcChannels

/-- How a sample comes: through the events that follow the read, or by polling a
converter whose running conversion, if there is one, ends with `output`. -/
inductive Build
  | interrupt (es : List Event)
  | polling (output : BitVec 16)

/-- `while (!adc_read_is_completed(adc))`, as long as there are events. -/
def waitCompleted (s : Adc) : List Event → Option Adc
  | [] => if adcWchIsCompleted s then some s else none
  | e :: es => if adcWchIsCompleted s then some s else waitCompleted (AdcSampling.step s e) es

/-- A read and the wait for it; `none` if it does not complete. -/
def readAndWait (s : Adc) (sequence : AdcSequence) : Build → Option Adc
  | .interrupt es => waitCompleted (adcWchRead s sequence).1 es
  | .polling output => some (AdcPolling.adcWchRead s sequence output).1

/-- The configuration of the temperature channel in `ble_hal_get_inter_temp`. -/
def channelCfg : AdcChannelCfg :=
  { gain := .gain1_6, acquisitionTime := 0, calibrate := false, channelId := 15
    differential := false }

/-- One sample of channel 15, to `rawAdc`. -/
def seqTemp (rawAdc : ℤ) : AdcSequence :=
  { options := none, channels := bit 15, buffer := rawAdc, bufferSize := 2 }

/-- `rawAdc` is where the sample goes; `none` if the wait does not end. -/
def bleHalGetInterTemp (channelMap : BitVec 32) (rawAdc : ℤ) (b : Build)
    (outputs : ℕ → BitVec 16) (d : AdcDevice) : Option (AdcDevice × BitVec 16) :=
  let cfgSave := adcWchChannelConfigGet d
  let d := (adcWchChannelSetup channelMap d channelCfg outputs).1
  match readAndWait d.adc (seqTemp rawAdc) b with
  | none => none
  | some s =>
    let d := { d with adc := s }
    let d := (adcWchChannelSetup channelMap d cfgSave outputs).1
    some (d, HalfWordArray.loadHalf d.adc.memory rawAdc)

section Channel

variable {s s' : Adc}

lemma channel_onSamplingDone (s : Adc) (answer : AdcAction) :
    (adcContextOnSamplingDone s answer).channel = s.channel := by
  by_cases hseq : s.ctx.sequence.options.isSome = true
  · rw [onSamplingDone_eq hseq]
    cases s.ctx.options.answered answer with
    | accept =>
      dsimp only
      split <;> rfl
    | again => rfl
    | stop => rfl
  · rw [adcContextOnSamplingDone, if_neg hseq]
    rfl

/-- No event moves the converter to another channel. -/
lemma channel_step (s : Adc) (e : Event) : (AdcSampling.step s e).channel = s.channel := by
  cases e with
  | endOfConversion raw =>
    rw [AdcSampling.step]
    split <;> rfl
  | interrupt answer =>
    rw [AdcSampling.step, adcWchHandler]
    by_cases hdma : halAdcGetDmaIntFlag s = true
    · rw [if_pos hdma]
      dsimp only
      split
      · exact channel_onSamplingDone _ answer
      · rfl
    · rw [if_neg hdma]
      dsimp only
      split
      · exact channel_onSamplingDone _ answer
      · rfl

lemma channel_waitCompleted {es : List Event} (h : waitCompleted s es = some s') :
    s'.channel = s.channel := by
  induction es generalizing s with
  | nil =>
    rw [waitCompleted] at h
    split at h
    · rw [Option.some.inj h]
    · exact absurd h (Option.some_ne_none s').symm
  | cons e es ih =>
    rw [waitCompleted] at h
    split at h
    · rw [Option.some.inj h]
    · rw [ih h, channel_step]

/-- An accepted read selects the channel that it names. -/
lemma channel_read {sequence : AdcSequence} (haccept : (adcWchRead s sequence).2 = 0) :
    (adcWchRead s sequence).1.channel = AdcAcceptance.selected sequence.channels := by
  obtain ⟨-, -, hstart⟩ := read_accepted haccept
  rw [hstart, adcContextStartRead]
  cases sequence.options <;> rfl

lemma channel_readPolled {sequence : AdcSequence} (haccept : (adcWchRead s sequence).2 = 0)
    (output : BitVec 16) :
    (AdcPolling.adcWchRead s sequence output).1.channel =
      AdcAcceptance.selected sequence.channels := by
  obtain ⟨hchannels, hsize, -⟩ := read_accepted haccept
  rw [AdcPolling.adcWchRead]
  dsimp only
  rw [if_neg hchannels, if_neg (not_not.mpr hsize)]
  dsimp only
  rw [AdcPolling.halAdcReadRaw]
  split
  · exact channel_step _ _
  · rfl

lemma channel_readAndWait {sequence : AdcSequence} {b : Build}
    (haccept : (adcWchRead s sequence).2 = 0) (h : readAndWait s sequence b = some s') :
    s'.channel = AdcAcceptance.selected sequence.channels := by
  cases b with
  | interrupt es => rw [channel_waitCompleted h, channel_read haccept]
  | polling output =>
    rw [← Option.some.inj h]
    exact channel_readPolled haccept output

end Channel

section Restore

variable {channelMap : BitVec 32} {rawAdc : ℤ} {b : Build} {outputs : ℕ → BitVec 16}
  {d d' : AdcDevice} {raw : BitVec 16}

lemma seqTemp_accepted (s : Adc) (rawAdc : ℤ) : (adcWchRead s (seqTemp rawAdc)).2 = 0 := by
  have hchannels : ¬ bit (findLsbSet (bit 15) - 1) < bit 15 := by decide +kernel
  rw [adcWchRead, seqTemp]
  dsimp only
  rw [if_neg hchannels, checkBufferSize]
  rfl

/-- What is kept has a gain that no external channel is set up with. -/
lemma setup_kept (channelMap : BitVec 32) (outputs : ℕ → BitVec 16) (d₀ d : AdcDevice) :
    (adcWchChannelSetup channelMap d (adcWchChannelConfigGet d₀) outputs).1 =
      if (halAdcGetChannel d₀).setWidth 5 = chIntVtemp then halAdcConfigTemp d
      else if (halAdcGetChannel d₀).setWidth 5 = chIntVbat then halAdcConfigBat d
      else d := by
  rw [adcWchChannelSetup, adcWchChannelConfigGet]
  split
  · rfl
  · split <;> rfl

/-- The channel that was selected is the one of the temperature sensor. -/
lemma kept_temperature_iff (d : AdcDevice) :
    (halAdcGetChannel d).setWidth 5 = chIntVtemp ↔ d.analog.channel = 15 := by
  have hwidth : ∀ channel : BitVec 8,
      (channel &&& 0x0f).setWidth 5 = chIntVtemp ↔ channel &&& 0x0f = 15 := by decide +kernel
  exact hwidth d.adc.channel

/-- After a read only the channel can be another one. -/
lemma analog_adc (d : AdcDevice) (s : Adc) :
    ({ d with adc := s } : AdcDevice).analog =
      { d.analog with channel := s.channel &&& 0x0f } := rfl

/-- Before the kept configuration is set up. -/
lemma analog_sampled {s : Adc} (h : readAndWait
      (adcWchChannelSetup channelMap d channelCfg outputs).1.adc (seqTemp rawAdc) b = some s) :
    ({ (adcWchChannelSetup channelMap d channelCfg outputs).1 with adc := s } :
      AdcDevice).analog = temperature 15 := by
  have hchannel := channel_readAndWait (seqTemp_accepted _ rawAdc) h
  have htemp : (adcWchChannelSetup channelMap d channelCfg outputs).1 = halAdcConfigTemp d := rfl
  have hselected : AdcAcceptance.selected (bit 15) &&& 0x0f = 15 := by decide +kernel
  rw [analog_adc, hchannel, seqTemp, hselected, htemp, analog_configTemp]
  rfl

/-- Whatever was kept, the temperature channel stays selected; and where it was selected
before, its configuration stays too. -/
lemma analog_interTemp (h : bleHalGetInterTemp channelMap rawAdc b outputs d = some (d', raw)) :
    d'.analog.channel = 15 ∧ (d.analog.channel = 15 → d'.analog = temperature 15) := by
  rw [bleHalGetInterTemp] at h
  dsimp only at h
  split at h
  · exact absurd h (Option.some_ne_none _).symm
  · next s hread =>
    have hsampled := analog_sampled hread
    have hkept := setup_kept channelMap outputs d
      { (adcWchChannelSetup channelMap d channelCfg outputs).1 with adc := s }
    rw [← (Prod.mk.inj (Option.some.inj h)).1, hkept]
    constructor
    · split
      · rw [analog_configTemp, hsampled]
        rfl
      · split
        · rw [analog_configBat, hsampled]
          rfl
        · rw [hsampled]
          rfl
    · intro hchannel
      rw [if_pos ((kept_temperature_iff d).mpr hchannel), analog_configTemp, hsampled]
      rfl

/-- The configuration is restored exactly where it was that of the temperature channel
already, with the temperature channel selected. -/
theorem interTemp_restores_iff (channelMap : BitVec 32) (rawAdc : ℤ) (b : Build)
    (outputs : ℕ → BitVec 16) (d d' : AdcDevice) (raw : BitVec 16)
    (hreturns : bleHalGetInterTemp channelMap rawAdc b outputs d = some (d', raw)) :
    d'.analog = d.analog ↔ d.analog = temperature 15 := by
  obtain ⟨hchannel, htemperature⟩ := analog_interTemp hreturns
  constructor
  · intro hrestored
    rw [← hrestored]
    exact htemperature (hrestored ▸ hchannel)
  · intro hbefore
    rw [hbefore]
    apply htemperature
    rw [hbefore]
    rfl

end Restore

/-- The converter after reset and `adc_wch_init`. -/
def initialized : AdcDevice :=
  halAdcInit ⟨⟨0, ⟨0, ⟨none, 0, 0, 0⟩, ⟨false, 0⟩, 0⟩, 0, 0, 0, false, false, 0, false, 0, false,
    fun _ => 0⟩, 0, 0⟩

/-- The end of a conversion and its interrupt. -/
def conversion (raw : BitVec 16) : Build := .interrupt [.endOfConversion raw, .interrupt .continue]

theorem interTemp_restores_temperature :
    let d := { halAdcConfigTemp initialized with adc.channel := 15 }
    ∃ d' raw, bleHalGetInterTemp 0xf33f 0x20000100 (conversion 900) (fun _ => 0) d =
      some (d', raw) ∧ d'.analog = d.analog := by
  intro d
  have hreturns : (bleHalGetInterTemp 0xf33f 0x20000100 (conversion 900) (fun _ => 0) d).isSome =
      true := by decide +kernel
  obtain ⟨⟨d', raw⟩, hsome⟩ := Option.isSome_iff_exists.mp hreturns
  exact ⟨d', raw, hsome, (interTemp_restores_iff _ _ _ _ _ d' raw hsome).mpr (by decide +kernel)⟩

/-- What an application calls. -/
inductive Call
  | setup (channelCfg : AdcChannelCfg) (outputs : ℕ → BitVec 16)
  | read (sequence : AdcSequence) (b : Build)

/-- A call that succeeds, and for a read completes. -/
def perform (channelMap : BitVec 32) (d : AdcDevice) : Call → Option AdcDevice
  | .setup channelCfg outputs =>
    let (d, err) := adcWchChannelSetup channelMap d channelCfg outputs
    if err = 0 then some d else none
  | .read sequence b =>
    if (adcWchRead d.adc sequence).2 = 0 then
      (readAndWait d.adc sequence b).map fun s => { d with adc := s }
    else none

/-- The device after the calls; `none` if one of them fails. -/
def history (channelMap : BitVec 32) (d : AdcDevice) : List Call → Option AdcDevice
  | [] => some d
  | c :: cs => (perform channelMap d c).bind fun d => history channelMap d cs

/-- The channel of the last setup. -/
def lastSetup (last : Option (BitVec 5)) : Call → Option (BitVec 5)
  | .setup channelCfg _ => some channelCfg.channelId
  | .read _ _ => last

/-- What the last setup shows of itself in the configuration. -/
def Shows (d : AdcDevice) : Option (BitVec 5) → Prop
  | none => d.analog.sensor = false
  | some channelId =>
    if channelId = chIntVtemp then d.analog = temperature d.analog.channel
    else if channelId = chIntVbat then d.analog.buffer = true
    else d.analog.sensor = false

section History

variable {channelMap : BitVec 32} {d d' : AdcDevice} {last : Option (BitVec 5)}

/-- A setup shows itself, whatever was there before. -/
lemma shows_setup {channelCfg : AdcChannelCfg} {outputs : ℕ → BitVec 16}
    (hok : (adcWchChannelSetup channelMap d channelCfg outputs).2 = 0) :
    Shows (adcWchChannelSetup channelMap d channelCfg outputs).1 (some channelCfg.channelId) := by
  rw [Shows]
  obtain ⟨hid, hanalog⟩ | ⟨hid, hanalog⟩ | ⟨hnottemp, hnotbat, gain, -, hanalog⟩ :=
    setup_cases hok
  · rw [if_pos hid, hanalog]
    rfl
  · rw [hid, if_neg (by decide), if_pos rfl, hanalog]
    rfl
  · rw [if_neg hnottemp, if_neg hnotbat, hanalog]
    rfl

/-- A read can only change the channel. -/
lemma Shows.read (h : Shows d last) (s : Adc) : Shows { d with adc := s } last := by
  cases last with
  | none => exact h
  | some channelId =>
    rw [Shows] at h ⊢
    rw [analog_adc]
    split_ifs at h ⊢ with htemp hbat
    · rw [h]
      rfl
    · exact h
    · exact h

/-- A call leaves what the last setup shows. -/
lemma Shows.perform (h : Shows d last) {c : Call} (hc : perform channelMap d c = some d') :
    Shows d' (lastSetup last c) := by
  cases c with
  | setup channelCfg outputs =>
    rw [AdcTemperature.perform] at hc
    dsimp only at hc
    split at hc
    · next hok =>
      rw [← Option.some.inj hc]
      exact shows_setup hok
    · exact absurd hc (Option.some_ne_none d').symm
  | read sequence b =>
    rw [AdcTemperature.perform] at hc
    split at hc
    · obtain ⟨s, -, rfl⟩ := Option.map_eq_some_iff.mp hc
      exact h.read s
    · exact absurd hc (Option.some_ne_none d').symm

lemma Shows.history (h : Shows d last) {cs : List Call}
    (hcs : history channelMap d cs = some d') : Shows d' (cs.foldl lastSetup last) := by
  induction cs generalizing d last with
  | nil => rwa [← Option.some.inj hcs]
  | cons c cs ih =>
    obtain ⟨e, hc, hrest⟩ := Option.bind_eq_some_iff.mp hcs
    exact ih (h.perform hc) hrest

/-- From a device whose sensor is off, the calls lead to the configuration of the
temperature channel when their last setup is of it and it has been selected. -/
theorem temperature_iff_calls (hoff : d.analog.sensor = false) {cs : List Call}
    (hcs : history channelMap d cs = some d') :
    d'.analog = temperature 15 ↔
      cs.foldl lastSetup none = some chIntVtemp ∧ d'.analog.channel = 15 := by
  have hstart : Shows d none := hoff
  have hshows : Shows d' (cs.foldl lastSetup none) := hstart.history hcs
  generalize cs.foldl lastSetup none = last at hshows ⊢
  constructor
  · intro htemp
    refine ⟨?_, by rw [htemp]; rfl⟩
    cases last with
    | none =>
      rw [Shows, htemp] at hshows
      exact absurd hshows (by decide)
    | some channelId =>
      rw [Shows] at hshows
      split at hshows
      · next hid => rw [hid]
      · split at hshows <;> rw [htemp] at hshows <;> exact absurd hshows (by decide)
  · rintro ⟨rfl, hchannel⟩
    rw [Shows, if_pos rfl, hchannel] at hshows
    exact hshows

end History

/-- Channel 2 is set up single-ended with gain 1 and read. -/
def application : List Call :=
  [.setup ⟨.gain1, 0, false, 2, false⟩ (fun _ => 0), .read ⟨none, 4, 0x20000000, 2⟩ (conversion 600)]

/-- The configuration of the application is not there afterwards. -/
theorem application_not_restored :
    ¬ ∀ d d' raw, history 0xf33f initialized application = some d →
      bleHalGetInterTemp 0xf33f 0x20000100 (conversion 900) (fun _ => 0) d = some (d', raw) →
        d'.analog = d.analog := by
  intro hrestored
  have hboth : ((history 0xf33f initialized application).bind fun d =>
      (bleHalGetInterTemp 0xf33f 0x20000100 (conversion 900) (fun _ => 0) d).map fun r =>
        (d.analog, r.1.analog)) =
      some (⟨2, false, true, 2, false, 2⟩, ⟨3, true, false, 0, true, 15⟩) := by decide +kernel
  obtain ⟨d, hd, hmap⟩ := Option.bind_eq_some_iff.mp hboth
  obtain ⟨⟨d', raw⟩, hreturns, hpair⟩ := Option.map_eq_some_iff.mp hmap
  obtain ⟨hbefore, hafter⟩ := Prod.mk.inj hpair
  have hsame := hrestored d d' raw hd hreturns
  dsimp only at hafter
  rw [hsame, hbefore] at hafter
  exact absurd hafter (by decide)

end WchIotSdk.AdcTemperature
