import WchIotSdk.AdcPolling
import WchIotSdk.RegisterFields

/-!
# Setting up the channels of the converter

`adc_wch_channel_setup` writes the gain, the differential mode, the input buffer and
the clock of the converter, and the power of the temperature sensor. It does so on
three paths: for the temperature sensor, for the battery and for the other channels,
which it checks first and may calibrate on. What a setup leaves behind is given as a
change of the fields of the registers.
-/
namespace WchIotSdk.AdcChannels
open AdcSampling AdcPolling RegisterFields

/-- `enum adc_gain`. -/
inductive AdcGain
  | gain1_6 | gain1_5 | gain1_4 | gain1_3 | gain2_5 | gain1_2 | gain2_3 | gain4_5 | gain1
  | gain2 | gain3 | gain4 | gain6 | gain8 | gain12 | gain16 | gain24 | gain32 | gain64 | gain128
  deriving DecidableEq, Repr

/-- `struct adc_channel_cfg`. -/
structure AdcChannelCfg where
  gain : AdcGain
  acquisitionTime : BitVec 16
  calibrate : Bool
  channelId : BitVec 5
  differential : Bool
  deriving DecidableEq, Repr

def adcAcqTimeDefault : BitVec 16 := 0

/-- `adc_pga_gain_t`. -/
inductive AdcPgaGain
  | pga1_4 | pga1_2 | pga1 | pga2
  deriving DecidableEq, Repr

def AdcPgaGain.val : AdcPgaGain → BitVec 8
  | .pga1_4 => 0
  | .pga1_2 => 1
  | .pga1 => 2
  | .pga2 => 3

/-- `adc_clk_div_t`. -/
inductive AdcClkDiv
  | sampleFreq3_2 | sampleFreq8 | sampleFreq5_33 | sampleFreq4
  deriving DecidableEq, Repr

def AdcClkDiv.val : AdcClkDiv → BitVec 8
  | .sampleFreq3_2 => 0
  | .sampleFreq8 => 1
  | .sampleFreq5_33 => 2
  | .sampleFreq4 => 3

/-- `adc_config_t`, of which `test` is never read. -/
structure AdcConfig where
  diff : Bool
  gain : AdcPgaGain
  div : AdcClkDiv
  channel : BitVec 32

/-- The converter with R8_ADC_CFG and R8_TEM_SENSOR. -/
structure AdcDevice where
  adc : Adc
  cfg : BitVec 8
  temSensor : BitVec 8

def rbAdcPowerOn : BitVec 8 := 0x01
def rbAdcBufEn : BitVec 8 := 0x02
def rbAdcDiffEn : BitVec 8 := 0x04
def rbAdcOfsTest : BitVec 8 := 0x08
def adcCfgPgaGainMsk : BitVec 8 := 0x30
def adcCfgClkDivMsk : BitVec 8 := 0xc0
def rbTemSenPwrOn : BitVec 8 := 0x80

def chIntVbat : BitVec 5 := 14
def chIntVtemp : BitVec 5 := 15
def chExt0 : BitVec 32 := 0
def chInt7 : BitVec 32 := 7

def einval : ℤ := 22

section Hal

variable (d : AdcDevice)

def halAdcEnable : AdcDevice := { d with cfg := d.cfg ||| rbAdcPowerOn }

def halAdcBuff (enable : Bool) : AdcDevice :=
  if enable then { d with cfg := d.cfg ||| rbAdcBufEn }
  else { d with cfg := d.cfg &&& ~~~rbAdcBufEn }

def halAdcDiff (enable : Bool) : AdcDevice :=
  if enable then { d with cfg := d.cfg ||| rbAdcDiffEn }
  else { d with cfg := d.cfg &&& ~~~rbAdcDiffEn }

def halAdcIsDiff : Bool := d.cfg &&& rbAdcDiffEn ≠ 0

def halAdcTestEnable : AdcDevice := { d with cfg := d.cfg ||| rbAdcOfsTest }
def halAdcTestDisable : AdcDevice := { d with cfg := d.cfg &&& ~~~rbAdcOfsTest }

def halAdcClockDiv (clk : AdcClkDiv) : AdcDevice :=
  let d := { d with cfg := d.cfg &&& ~~~adcCfgClkDivMsk }
  { d with cfg := d.cfg ||| (clk.val <<< 6 &&& adcCfgClkDivMsk) }

def halAdcGetClockDiv : BitVec 8 := (d.cfg &&& adcCfgClkDivMsk) >>> 6

def halAdcSetGain (gain : AdcPgaGain) : AdcDevice :=
  let d := { d with cfg := d.cfg &&& ~~~adcCfgPgaGainMsk }
  { d with cfg := d.cfg ||| (gain.val <<< 4 &&& adcCfgPgaGainMsk) }

def halAdcGetGain : BitVec 8 := (d.cfg &&& adcCfgPgaGainMsk) >>> 4

def setChannel (channel : BitVec 32) : AdcDevice :=
  { d with adc := halAdcSetChannel d.adc channel }

def halAdcGetChannel : BitVec 8 := d.adc.channel &&& 0x0f

/-- The gain of ADC_PGA_1 with the clock of SAMPLEFREQ_5_33, and nothing else. -/
def halAdcReset : AdcDevice :=
  { d with cfg := (AdcPgaGain.pga1.val <<< 4 &&& adcCfgPgaGainMsk) |||
      (AdcClkDiv.sampleFreq5_33.val <<< 6 &&& adcCfgClkDivMsk) }

def halAdcInit : AdcDevice := halAdcEnable (halAdcReset d)

def halAdcTempEnable (enable : Bool) : AdcDevice :=
  if enable then { d with temSensor := rbTemSenPwrOn } else { d with temSensor := 0 }

def halAdcConfigTemp : AdcDevice :=
  let d := halAdcTempEnable d true
  let d := halAdcBuff d false
  let d := halAdcDiff d true
  let d := halAdcSetGain d .pga2
  halAdcClockDiv d .sampleFreq3_2

def halAdcConfigBat : AdcDevice :=
  let d := halAdcBuff d true
  let d := halAdcDiff d false
  let d := halAdcSetGain d .pga1_4
  halAdcClockDiv d .sampleFreq3_2

/-- The argument is not NULL. -/
def halAdcConfig (adc : AdcConfig) : AdcDevice :=
  let d := halAdcTempEnable d false
  let d := halAdcBuff d true
  let d :=
    if adc.diff then
      let d := halAdcDiff d true
      halAdcBuff d false
    else halAdcDiff d false
  let d := halAdcClockDiv d adc.div
  let d := halAdcSetGain d adc.gain
  setChannel d adc.channel

/-- One conversion of the calibration, whose result is `output`. -/
def calibrationSample (d : AdcDevice) (sum : BitVec 32) (output : BitVec 16) :
    AdcDevice × BitVec 32 :=
  let d := { d with adc := halAdcStart d.adc }
  let (s, raw) := halAdcReadRaw d.adc output
  ({ d with adc := s }, sum + (~~~raw.setWidth 32 &&& 0x7ff))

/-- The first `n` conversions. -/
def calibrationLoop (d : AdcDevice) (outputs : ℕ → BitVec 16) : ℕ → AdcDevice × BitVec 32
  | 0 => (d, 0)
  | n + 1 =>
    let (d, sum) := calibrationLoop d outputs n
    calibrationSample d sum (outputs n)

/-- Returns the offset as it is stored. -/
def halAdcSelfCalibration (outputs : ℕ → BitVec 16) : AdcDevice × BitVec 16 :=
  let channel := halAdcGetChannel d
  let d := halAdcTestEnable d
  let d := setChannel d chInt7
  let (d, sum) := calibrationLoop d outputs 16
  let d := halAdcTestDisable d
  let d := setChannel d (channel.setWidth 32)
  let sum := (sum + 8) >>> 4
  (d, (2048 - sum).setWidth 16)

end Hal

section Driver

/-- The gains that the converter has. -/
def pgaGain : AdcGain → Option AdcPgaGain
  | .gain1_4 => some .pga1_4
  | .gain1_2 => some .pga1_2
  | .gain1 => some .pga1
  | .gain2 => some .pga2
  | _ => none

/-- `channelMap` is CONFIG_ADC_CHANNEL_MAP, and `outputs` are the results of the
conversions of a calibration. -/
def adcWchChannelSetup (channelMap : BitVec 32) (d : AdcDevice) (channelCfg : AdcChannelCfg)
    (outputs : ℕ → BitVec 16) : AdcDevice × ℤ :=
  if channelCfg.channelId = chIntVtemp then (halAdcConfigTemp d, 0)
  else if channelCfg.channelId = chIntVbat then (halAdcConfigBat d, 0)
  else
    match pgaGain channelCfg.gain with
    | none => (d, -enotsup)
    | some gain =>
      if bit (channelCfg.channelId.setWidth 32) &&& channelMap = 0 then (d, -einval)
      else if channelCfg.acquisitionTime ≠ adcAcqTimeDefault then (d, -enotsup)
      else
        let adc : AdcConfig :=
          { diff := channelCfg.differential, gain, div := .sampleFreq5_33, channel := chExt0 }
        let d := halAdcConfig d adc
        if channelCfg.calibrate then
          let (d, offset) := halAdcSelfCalibration d outputs
          ({ d with adc.offset := offset }, 0)
        else (d, 0)

/-- The gain stays at the first of `enum adc_gain`. -/
def adcWchChannelConfigGet (d : AdcDevice) : AdcChannelCfg :=
  { gain := .gain1_6
    acquisitionTime := adcAcqTimeDefault
    calibrate := false
    channelId := (halAdcGetChannel d).setWidth 5
    differential := halAdcIsDiff d }

end Driver

/-- What the registers say about the converter. -/
@[ext] structure AnalogConfig where
  gain : BitVec 8
  differential : Bool
  buffer : Bool
  clockDiv : BitVec 8
  sensor : Bool
  channel : BitVec 8
  deriving DecidableEq, Repr

def AdcDevice.analog (d : AdcDevice) : AnalogConfig :=
  { gain := halAdcGetGain d
    differential := halAdcIsDiff d
    buffer := field rbAdcBufEn d.cfg ≠ 0
    clockDiv := halAdcGetClockDiv d
    sensor := field rbTemSenPwrOn d.temSensor ≠ 0
    channel := halAdcGetChannel d }

section Fields

variable {d : AdcDevice} {mask value : BitVec 8}

/-- `d` with a field of R8_ADC_CFG written. -/
def AdcDevice.write (d : AdcDevice) (mask value : BitVec 8) : AdcDevice :=
  { d with cfg := writeField mask d.cfg value }

lemma gain_write (h : Apart adcCfgPgaGainMsk mask) :
    halAdcGetGain (d.write mask value) = halAdcGetGain d := by
  show field adcCfgPgaGainMsk (writeField mask d.cfg value) >>> 4 = _
  rw [field_writeField_of_apart h, field, halAdcGetGain]

lemma isDiff_write (h : Apart rbAdcDiffEn mask) :
    halAdcIsDiff (d.write mask value) = halAdcIsDiff d := by
  show decide (field rbAdcDiffEn (writeField mask d.cfg value) ≠ 0) = _
  rw [field_writeField_of_apart h, field, halAdcIsDiff]

lemma buffer_write (h : Apart rbAdcBufEn mask) :
    (d.write mask value).analog.buffer = d.analog.buffer := by
  show decide (field rbAdcBufEn (writeField mask d.cfg value) ≠ 0) = _
  rw [field_writeField_of_apart h, AdcDevice.analog]

lemma clockDiv_write (h : Apart adcCfgClkDivMsk mask) :
    halAdcGetClockDiv (d.write mask value) = halAdcGetClockDiv d := by
  show field adcCfgClkDivMsk (writeField mask d.cfg value) >>> 6 = _
  rw [field_writeField_of_apart h, field, halAdcGetClockDiv]

@[simp] lemma analog_buff (d : AdcDevice) (enable : Bool) :
    (halAdcBuff d enable).analog = { d.analog with buffer := enable } := by
  have hwrite : halAdcBuff d enable =
      d.write rbAdcBufEn (if enable then rbAdcBufEn else 0#8) := by
    rw [AdcDevice.write, ← setOrClear_eq_writeField, halAdcBuff]
    cases enable <;> rfl
  rw [hwrite]
  refine AnalogConfig.ext (gain_write (by decide)) (isDiff_write (by decide)) ?_
    (clockDiv_write (by decide)) rfl rfl
  show decide (field rbAdcBufEn (writeField rbAdcBufEn d.cfg _) ≠ 0) = enable
  rw [field_writeField]
  cases enable <;> decide

@[simp] lemma analog_diff (d : AdcDevice) (enable : Bool) :
    (halAdcDiff d enable).analog = { d.analog with differential := enable } := by
  have hwrite : halAdcDiff d enable =
      d.write rbAdcDiffEn (if enable then rbAdcDiffEn else 0#8) := by
    rw [AdcDevice.write, ← setOrClear_eq_writeField, halAdcDiff]
    cases enable <;> rfl
  rw [hwrite]
  refine AnalogConfig.ext (gain_write (by decide)) ?_ (buffer_write (by decide))
    (clockDiv_write (by decide)) rfl rfl
  show decide (field rbAdcDiffEn (writeField rbAdcDiffEn d.cfg _) ≠ 0) = enable
  rw [field_writeField]
  cases enable <;> decide

@[simp] lemma analog_setGain (d : AdcDevice) (gain : AdcPgaGain) :
    (halAdcSetGain d gain).analog = { d.analog with gain := gain.val } := by
  have hwrite : halAdcSetGain d gain = d.write adcCfgPgaGainMsk (gain.val <<< 4) := rfl
  rw [hwrite]
  refine AnalogConfig.ext ?_ (isDiff_write (by decide)) (buffer_write (by decide))
    (clockDiv_write (by decide)) rfl rfl
  show field adcCfgPgaGainMsk (writeField adcCfgPgaGainMsk d.cfg _) >>> 4 = gain.val
  rw [field_writeField]
  cases gain <;> decide

@[simp] lemma analog_clockDiv (d : AdcDevice) (clk : AdcClkDiv) :
    (halAdcClockDiv d clk).analog = { d.analog with clockDiv := clk.val } := by
  have hwrite : halAdcClockDiv d clk = d.write adcCfgClkDivMsk (clk.val <<< 6) := rfl
  rw [hwrite]
  refine AnalogConfig.ext (gain_write (by decide)) (isDiff_write (by decide))
    (buffer_write (by decide)) ?_ rfl rfl
  show field adcCfgClkDivMsk (writeField adcCfgClkDivMsk d.cfg _) >>> 6 = clk.val
  rw [field_writeField]
  cases clk <;> decide

/-- The test mode is none of the fields that are read. -/
@[simp] lemma analog_testEnable (d : AdcDevice) : (halAdcTestEnable d).analog = d.analog := by
  have hwrite : halAdcTestEnable d = d.write rbAdcOfsTest rbAdcOfsTest := by
    rw [halAdcTestEnable, AdcDevice.write, or_eq_writeField]
  rw [hwrite]
  exact AnalogConfig.ext (gain_write (by decide)) (isDiff_write (by decide))
    (buffer_write (by decide)) (clockDiv_write (by decide)) rfl rfl

@[simp] lemma analog_testDisable (d : AdcDevice) :
    (halAdcTestDisable d).analog = d.analog := by
  have hwrite : halAdcTestDisable d = d.write rbAdcOfsTest 0 := by
    rw [halAdcTestDisable, AdcDevice.write, and_not_eq_writeField]
    rfl
  rw [hwrite]
  exact AnalogConfig.ext (gain_write (by decide)) (isDiff_write (by decide))
    (buffer_write (by decide)) (clockDiv_write (by decide)) rfl rfl

@[simp] lemma analog_tempEnable (d : AdcDevice) (enable : Bool) :
    (halAdcTempEnable d enable).analog = { d.analog with sensor := enable } := by
  have hwrite : halAdcTempEnable d enable =
      { d with temSensor := if enable then rbTemSenPwrOn else 0 } := by
    rw [halAdcTempEnable]
    cases enable <;> rfl
  rw [hwrite]
  refine AnalogConfig.ext rfl rfl rfl rfl ?_ rfl
  show decide (field rbTemSenPwrOn (if enable then rbTemSenPwrOn else 0) ≠ 0) = enable
  cases enable <;> decide

@[simp] lemma analog_setChannel (d : AdcDevice) (channel : BitVec 32) :
    (setChannel d channel).analog =
      { d.analog with channel := channel.setWidth 8 &&& 0x0f } := by
  refine AnalogConfig.ext rfl rfl rfl rfl rfl ?_
  show channel.setWidth 8 &&& 0x0f &&& 0x0f = channel.setWidth 8 &&& 0x0f
  rw [BitVec.and_assoc, BitVec.and_self]

/-- A channel that was read can be selected again. -/
lemma setChannel_getChannel (d d' : AdcDevice) :
    (setChannel d' ((halAdcGetChannel d).setWidth 32)).analog =
      { d'.analog with channel := d.analog.channel } := by
  rw [analog_setChannel]
  refine AnalogConfig.ext rfl rfl rfl rfl rfl ?_
  show ((halAdcGetChannel d).setWidth 32).setWidth 8 &&& 0x0f = halAdcGetChannel d
  rw [BitVec.setWidth_setWidth_of_le _ (by decide), BitVec.setWidth_eq, halAdcGetChannel,
    BitVec.and_assoc, BitVec.and_self]

end Fields

section Setups

variable {d : AdcDevice}

/-- The sensor, differential and without the input buffer. -/
@[simp] lemma analog_configTemp (d : AdcDevice) :
    (halAdcConfigTemp d).analog =
      { gain := AdcPgaGain.pga2.val, differential := true, buffer := false
        clockDiv := AdcClkDiv.sampleFreq3_2.val, sensor := true
        channel := d.analog.channel } := by
  simp [halAdcConfigTemp]

/-- The sensor is left as it was. -/
@[simp] lemma analog_configBat (d : AdcDevice) :
    (halAdcConfigBat d).analog =
      { d.analog with
        gain := AdcPgaGain.pga1_4.val, differential := false, buffer := true
        clockDiv := AdcClkDiv.sampleFreq3_2.val } := by
  simp [halAdcConfigBat]

/-- Every field is written, the channel too. -/
@[simp] lemma analog_config (d : AdcDevice) (adc : AdcConfig) :
    (halAdcConfig d adc).analog =
      { gain := adc.gain.val, differential := adc.diff, buffer := !adc.diff
        clockDiv := adc.div.val, sensor := false
        channel := adc.channel.setWidth 8 &&& 0x0f } := by
  rw [halAdcConfig]
  cases adc.diff <;> simp

/-- The conversions of the calibration leave the configuration alone. -/
lemma analog_calibrationLoop (d : AdcDevice) (outputs : ℕ → BitVec 16) (n : ℕ) :
    (calibrationLoop d outputs n).1.analog = d.analog := by
  induction n with
  | zero => rfl
  | succ n ih => exact ih

@[simp] lemma analog_selfCalibration (d : AdcDevice) (outputs : ℕ → BitVec 16) :
    (halAdcSelfCalibration d outputs).1.analog = d.analog := by
  have hlast : (halAdcSelfCalibration d outputs).1 =
      setChannel (halAdcTestDisable (calibrationLoop (setChannel (halAdcTestEnable d) chInt7)
        outputs 16).1) ((halAdcGetChannel d).setWidth 32) := rfl
  rw [hlast, setChannel_getChannel, analog_testDisable, analog_calibrationLoop,
    analog_setChannel, analog_testEnable]

/-- The configuration of the temperature channel, with a channel selected. -/
def temperature (channel : BitVec 8) : AnalogConfig :=
  { gain := AdcPgaGain.pga2.val, differential := true, buffer := false
    clockDiv := AdcClkDiv.sampleFreq3_2.val, sensor := true, channel }

/-- The configuration of the battery channel in place of `a`. -/
def battery (a : AnalogConfig) : AnalogConfig :=
  { a with
    gain := AdcPgaGain.pga1_4.val, differential := false, buffer := true
    clockDiv := AdcClkDiv.sampleFreq3_2.val }

/-- The configuration of any other channel. -/
def external (gain : AdcPgaGain) (differential : Bool) : AnalogConfig :=
  { gain := gain.val, differential, buffer := !differential
    clockDiv := AdcClkDiv.sampleFreq5_33.val, sensor := false, channel := 0 }

/-- The offset is not part of the configuration. -/
lemma analog_offset (d : AdcDevice) (offset : BitVec 16) :
    ({ d with adc.offset := offset } : AdcDevice).analog = d.analog := rfl

lemma analog_configExternal (d : AdcDevice) (gain : AdcPgaGain) (differential : Bool) :
    (halAdcConfig d ⟨differential, gain, .sampleFreq5_33, chExt0⟩).analog =
      external gain differential := by
  have hchannel : chExt0.setWidth 8 &&& 0x0f = 0#8 := by decide
  rw [analog_config, hchannel]
  rfl

lemma temSensor_configTemp (d : AdcDevice) : (halAdcConfigTemp d).temSensor = rbTemSenPwrOn := rfl

lemma temSensor_configBat (d : AdcDevice) : (halAdcConfigBat d).temSensor = d.temSensor := rfl

lemma temSensor_config (d : AdcDevice) (adc : AdcConfig) : (halAdcConfig d adc).temSensor = 0 := by
  rw [halAdcConfig]
  cases adc.diff <;> rfl

lemma temSensor_calibrationLoop (d : AdcDevice) (outputs : ℕ → BitVec 16) (n : ℕ) :
    (calibrationLoop d outputs n).1.temSensor = d.temSensor := by
  induction n with
  | zero => rfl
  | succ n ih => exact ih

lemma temSensor_selfCalibration (d : AdcDevice) (outputs : ℕ → BitVec 16) :
    (halAdcSelfCalibration d outputs).1.temSensor = d.temSensor :=
  temSensor_calibrationLoop (setChannel (halAdcTestEnable d) chInt7) outputs 16

/-- The checks that come before `hal_adc_config`. -/
def checked (channelMap : BitVec 32) (channelCfg : AdcChannelCfg) : Bool :=
  (pgaGain channelCfg.gain).isSome ∧
    bit (channelCfg.channelId.setWidth 32) &&& channelMap ≠ 0 ∧
    channelCfg.acquisitionTime = adcAcqTimeDefault

variable {channelMap : BitVec 32} {channelCfg : AdcChannelCfg} {outputs : ℕ → BitVec 16}

lemma setup_temp (htemp : channelCfg.channelId = chIntVtemp) :
    adcWchChannelSetup channelMap d channelCfg outputs = (halAdcConfigTemp d, 0) := if_pos htemp

lemma setup_bat (hbat : channelCfg.channelId = chIntVbat) :
    adcWchChannelSetup channelMap d channelCfg outputs = (halAdcConfigBat d, 0) := by
  have htemp : channelCfg.channelId ≠ chIntVtemp := by
    rw [hbat]
    decide
  rw [adcWchChannelSetup, if_neg htemp, if_pos hbat]

/-- Past the checks every field is written, and the sensor is switched off. -/
lemma setup_checked (htemp : channelCfg.channelId ≠ chIntVtemp)
    (hbat : channelCfg.channelId ≠ chIntVbat) (hchecked : checked channelMap channelCfg = true) :
    ∃ gain, pgaGain channelCfg.gain = some gain ∧
      (adcWchChannelSetup channelMap d channelCfg outputs).2 = 0 ∧
      (adcWchChannelSetup channelMap d channelCfg outputs).1.analog =
        external gain channelCfg.differential ∧
      (adcWchChannelSetup channelMap d channelCfg outputs).1.temSensor = 0 := by
  rw [checked, decide_eq_true_eq] at hchecked
  obtain ⟨hsome, hmap, htime⟩ := hchecked
  obtain ⟨gain, hgain⟩ := Option.isSome_iff_exists.mp hsome
  rw [adcWchChannelSetup, if_neg htemp, if_neg hbat, hgain]
  dsimp only
  rw [if_neg hmap, if_neg (not_not.mpr htime)]
  by_cases hcal : channelCfg.calibrate = true
  · rw [if_pos hcal]
    dsimp only
    rw [analog_offset, analog_selfCalibration, analog_configExternal, temSensor_selfCalibration,
      temSensor_config]
    exact ⟨gain, rfl, rfl, rfl, rfl⟩
  · rw [if_neg hcal, analog_configExternal, temSensor_config]
    exact ⟨gain, rfl, rfl, rfl, rfl⟩

lemma setup_unchecked (htemp : channelCfg.channelId ≠ chIntVtemp)
    (hbat : channelCfg.channelId ≠ chIntVbat)
    (hchecked : checked channelMap channelCfg ≠ true) :
    (adcWchChannelSetup channelMap d channelCfg outputs).1 = d ∧
      (adcWchChannelSetup channelMap d channelCfg outputs).2 ≠ 0 := by
  rw [adcWchChannelSetup, if_neg htemp, if_neg hbat]
  cases hgain : pgaGain channelCfg.gain with
  | none => exact ⟨rfl, by show -enotsup ≠ 0; decide⟩
  | some gain =>
    dsimp only
    by_cases hmap : bit (channelCfg.channelId.setWidth 32) &&& channelMap = 0
    · rw [if_pos hmap]
      exact ⟨rfl, by show -einval ≠ 0; decide⟩
    by_cases htime : channelCfg.acquisitionTime = adcAcqTimeDefault
    · have hsome : (pgaGain channelCfg.gain).isSome = true := by rw [hgain]; rfl
      exact absurd (decide_eq_true ⟨hsome, hmap, htime⟩) hchecked
    · rw [if_neg hmap, if_pos htime]
      exact ⟨rfl, by show -enotsup ≠ 0; decide⟩

/-- A successful setup of a channel that is checked. -/
lemma setup_external (htemp : channelCfg.channelId ≠ chIntVtemp)
    (hbat : channelCfg.channelId ≠ chIntVbat)
    (hok : (adcWchChannelSetup channelMap d channelCfg outputs).2 = 0) :
    ∃ gain, pgaGain channelCfg.gain = some gain ∧
      (adcWchChannelSetup channelMap d channelCfg outputs).1.analog =
        external gain channelCfg.differential := by
  have hchecked : checked channelMap channelCfg = true := by
    by_contra hunchecked
    exact (setup_unchecked htemp hbat hunchecked).2 hok
  obtain ⟨gain, hgain, -, hanalog, -⟩ := setup_checked htemp hbat hchecked
  exact ⟨gain, hgain, hanalog⟩

/-- What a successful setup leaves behind, path by path. -/
theorem setup_cases (hok : (adcWchChannelSetup channelMap d channelCfg outputs).2 = 0) :
    let d' := (adcWchChannelSetup channelMap d channelCfg outputs).1
    (channelCfg.channelId = chIntVtemp ∧ d'.analog = temperature d.analog.channel) ∨
      (channelCfg.channelId = chIntVbat ∧ d'.analog = battery d.analog) ∨
      (channelCfg.channelId ≠ chIntVtemp ∧ channelCfg.channelId ≠ chIntVbat ∧
        ∃ gain, pgaGain channelCfg.gain = some gain ∧
          d'.analog = external gain channelCfg.differential) := by
  intro d'
  by_cases htemp : channelCfg.channelId = chIntVtemp
  · have hd' : d' = halAdcConfigTemp d := congrArg Prod.fst (setup_temp htemp)
    rw [hd']
    exact Or.inl ⟨htemp, analog_configTemp d⟩
  by_cases hbat : channelCfg.channelId = chIntVbat
  · have hd' : d' = halAdcConfigBat d := congrArg Prod.fst (setup_bat hbat)
    rw [hd']
    exact Or.inr (Or.inl ⟨hbat, analog_configBat d⟩)
  exact Or.inr (Or.inr ⟨htemp, hbat, setup_external htemp hbat hok⟩)

end Setups

end WchIotSdk.AdcChannels
