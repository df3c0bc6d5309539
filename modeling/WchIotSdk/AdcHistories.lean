import WchIotSdk.AdcTemperature
import WchIotSdk.LastWrite

/-!
# Histories of channel setups

The three paths of `adc_wch_channel_setup` share R8_ADC_CFG and R8_TEM_SENSOR. Two
histories that end with the same setup are compared by what these registers hold
afterwards. Every path writes all shared fields of R8_ADC_CFG. The power of the
temperature sensor is switched on for its own channel and off for the channels that
are checked, and the setup of the battery channel leaves it alone.
-/
namespace WchIotSdk.AdcHistories
open AdcSampling AdcChannels AdcTemperature EventRuns

/-- One call, with the results of the conversions of its calibration. -/
structure SetupCall where
  channelCfg : AdcChannelCfg
  outputs : ℕ → BitVec 16

/-- The fields of R8_ADC_CFG that the setups write, and R8_TEM_SENSOR. -/
structure SharedFields where
  gain : BitVec 8
  differential : Bool
  buffer : Bool
  clockDiv : BitVec 8
  temSensor : BitVec 8
  deriving DecidableEq, Repr

def shared (d : AdcDevice) : SharedFields :=
  { gain := d.analog.gain
    differential := d.analog.differential
    buffer := d.analog.buffer
    clockDiv := d.analog.clockDiv
    temSensor := d.temSensor }

section Calls

variable (channelMap : BitVec 32)

def setupStep (d : AdcDevice) (c : SetupCall) : AdcDevice :=
  (adcWchChannelSetup channelMap d c.channelCfg c.outputs).1

/-- What a setup writes to R8_TEM_SENSOR. -/
def power (channelCfg : AdcChannelCfg) : Option (BitVec 8) :=
  if channelCfg.channelId = chIntVtemp then some rbTemSenPwrOn
  else if channelCfg.channelId = chIntVbat then none
  else if checked channelMap channelCfg then some 0
  else none

/-- The value of R8_TEM_SENSOR that the calls before a setup have written last. -/
def lastPower (temSensor : BitVec 8) (history : List SetupCall) : BitVec 8 :=
  ((history.filterMap fun c => power channelMap c.channelCfg).getLast?).getD temSensor

/-- The registers after two histories that end with the same setup: equal where it
succeeds, and each as before it where it fails. -/
def Independent (d : AdcDevice) (history history' : List SetupCall)
    (channelCfg : AdcChannelCfg) (outputs outputs' : ℕ → BitVec 16) : Prop :=
  let before := run (setupStep channelMap) d history
  let before' := run (setupStep channelMap) d history'
  let after := adcWchChannelSetup channelMap before channelCfg outputs
  let after' := adcWchChannelSetup channelMap before' channelCfg outputs'
  (after.2 = 0 → after'.2 = 0 → shared after.1 = shared after'.1) ∧
    (after.2 ≠ 0 → shared after.1 = shared before) ∧
    (after'.2 ≠ 0 → shared after'.1 = shared before')

end Calls

section Sensor

variable {channelMap : BitVec 32} {d : AdcDevice} {channelCfg : AdcChannelCfg}
  {outputs : ℕ → BitVec 16}

/-- A setup that returns an error changes nothing. -/
theorem setup_refused (h : (adcWchChannelSetup channelMap d channelCfg outputs).2 ≠ 0) :
    (adcWchChannelSetup channelMap d channelCfg outputs).1 = d := by
  by_cases htemp : channelCfg.channelId = chIntVtemp
  · rw [setup_temp htemp] at h
    exact absurd rfl h
  by_cases hbat : channelCfg.channelId = chIntVbat
  · rw [setup_bat hbat] at h
    exact absurd rfl h
  by_cases hchecked : checked channelMap channelCfg = true
  · obtain ⟨-, -, hok, -, -⟩ := setup_checked htemp hbat hchecked
    exact absurd hok h
  · exact (setup_unchecked htemp hbat hchecked).1

lemma temSensor_setup : (adcWchChannelSetup channelMap d channelCfg outputs).1.temSensor =
    (power channelMap channelCfg).getD d.temSensor := by
  rw [power]
  by_cases htemp : channelCfg.channelId = chIntVtemp
  · rw [setup_temp htemp, if_pos htemp, temSensor_configTemp, Option.getD_some]
  by_cases hbat : channelCfg.channelId = chIntVbat
  · rw [setup_bat hbat, if_neg htemp, if_pos hbat, temSensor_configBat, Option.getD_none]
  rw [if_neg htemp, if_neg hbat]
  by_cases hchecked : checked channelMap channelCfg = true
  · obtain ⟨-, -, -, -, hsensor⟩ := setup_checked htemp hbat hchecked
    rw [if_pos hchecked, hsensor, Option.getD_some]
  · rw [if_neg hchecked, (setup_unchecked htemp hbat hchecked).1, Option.getD_none]

/-- Only the battery channel is set up without a write to R8_TEM_SENSOR. -/
lemma power_isSome (hbat : channelCfg.channelId ≠ chIntVbat)
    (hok : (adcWchChannelSetup channelMap d channelCfg outputs).2 = 0) :
    ∃ value, power channelMap channelCfg = some value := by
  rw [power]
  by_cases htemp : channelCfg.channelId = chIntVtemp
  · exact ⟨rbTemSenPwrOn, if_pos htemp⟩
  · have hchecked : checked channelMap channelCfg = true := by
      by_contra hunchecked
      exact (setup_unchecked htemp hbat hunchecked).2 hok
    rw [if_neg htemp, if_neg hbat, if_pos hchecked]
    exact ⟨0, rfl⟩

/-- Whatever the calls before were, the sensor has the power that was written last. -/
theorem temSensor_run (channelMap : BitVec 32) (d : AdcDevice) (history : List SetupCall) :
    (run (setupStep channelMap) d history).temSensor =
      lastPower channelMap d.temSensor history := by
  have hview : (run (setupStep channelMap) d history).temSensor =
      run (fun value c => (power channelMap c.channelCfg).getD value) d.temSensor history :=
    run_map (fun _ _ => temSensor_setup) d history
  rw [hview, LastWrite.run_register, lastPower]

end Sensor

section Fields

variable {channelMap : BitVec 32} {d d' : AdcDevice} {channelCfg : AdcChannelCfg}
  {outputs outputs' : ℕ → BitVec 16}

lemma shared_eq {a : AnalogConfig} (h : d.analog = a) :
    shared d = ⟨a.gain, a.differential, a.buffer, a.clockDiv, d.temSensor⟩ := by
  rw [shared, h]

/-- A successful setup leaves the same fields of R8_ADC_CFG on any two devices. -/
lemma shared_setup (hok : (adcWchChannelSetup channelMap d channelCfg outputs).2 = 0)
    (hok' : (adcWchChannelSetup channelMap d' channelCfg outputs').2 = 0)
    (hpower : (adcWchChannelSetup channelMap d channelCfg outputs).1.temSensor =
      (adcWchChannelSetup channelMap d' channelCfg outputs').1.temSensor) :
    shared (adcWchChannelSetup channelMap d channelCfg outputs).1 =
      shared (adcWchChannelSetup channelMap d' channelCfg outputs').1 := by
  by_cases htemp : channelCfg.channelId = chIntVtemp
  · rw [setup_temp htemp, setup_temp htemp, shared_eq (analog_configTemp d),
      shared_eq (analog_configTemp d')]
    rfl
  by_cases hbat : channelCfg.channelId = chIntVbat
  · rw [setup_bat hbat, setup_bat hbat] at hpower ⊢
    rw [shared_eq (analog_configBat d), shared_eq (analog_configBat d'), hpower]
  obtain ⟨gain, hgain, hanalog⟩ := setup_external htemp hbat hok
  obtain ⟨gain', hgain', hanalog'⟩ := setup_external htemp hbat hok'
  have hsame : gain = gain' := Option.some.inj (hgain.symm.trans hgain')
  rw [shared_eq hanalog, shared_eq hanalog', hsame, hpower]

lemma temSensor_ok (hbat : channelCfg.channelId ≠ chIntVbat)
    (hok : (adcWchChannelSetup channelMap d channelCfg outputs).2 = 0) :
    (adcWchChannelSetup channelMap d channelCfg outputs).1.temSensor =
      (adcWchChannelSetup channelMap d' channelCfg outputs').1.temSensor := by
  obtain ⟨value, hvalue⟩ := power_isSome hbat hok
  rw [temSensor_setup, temSensor_setup, hvalue, Option.getD_some, Option.getD_some]

/-- The battery channel apart, the histories do not matter. For the battery channel the
power of the sensor has to be the same before. -/
theorem independent_iff (channelMap : BitVec 32) (d : AdcDevice) (history history' : List SetupCall)
    (channelCfg : AdcChannelCfg) (outputs outputs' : ℕ → BitVec 16) :
    Independent channelMap d history history' channelCfg outputs outputs' ↔
      (channelCfg.channelId = chIntVbat →
        lastPower channelMap d.temSensor history = lastPower channelMap d.temSensor history') := by
  rw [← temSensor_run, ← temSensor_run]
  constructor
  · rintro ⟨hsame, -, -⟩ hbat
    -- the setup of the battery channel always succeeds
    rw [setup_bat hbat, setup_bat hbat] at hsame
    exact congrArg SharedFields.temSensor (hsame rfl rfl)
  · intro hpower
    refine ⟨fun hok hok' => shared_setup hok hok' ?_, fun h => by rw [setup_refused h],
      fun h => by rw [setup_refused h]⟩
    by_cases hbat : channelCfg.channelId = chIntVbat
    · rw [temSensor_setup, temSensor_setup, hpower hbat]
    · exact temSensor_ok hbat hok

/-- The battery channel, alone and after the temperature channel. -/
theorem battery_dependent :
    let batteryCfg : AdcChannelCfg := ⟨.gain1_4, adcAcqTimeDefault, false, chIntVbat, false⟩
    let temperatureCall : SetupCall := ⟨AdcTemperature.channelCfg, fun _ => 0⟩
    ¬ Independent 0xf33f initialized [] [temperatureCall] batteryCfg (fun _ => 0) fun _ => 0 := by
  intro batteryCfg temperatureCall hindependent
  have hsame := hindependent.1 rfl rfl
  exact absurd (congrArg SharedFields.temSensor hsame) (by decide +kernel)

end Fields

end WchIotSdk.AdcHistories
