import WchIotSdk.EventRuns
import WchIotSdk.HalfWordArray

/-!
# The interrupt driven converter

`adc_wch_read` checks a sequence once and starts the first conversion. From then
on the interrupt of each completed conversion stores the sample, asks the callback
of the sequence what to do, moves the buffer pointer and starts the next one.

CONFIG_ADC_SUPPORT_INTERRUPT is meant. What the callback answers comes with the
interrupt in which it is asked.
-/
namespace WchIotSdk.AdcSampling
open ByteMemory HalfWordArray

/-- `enum adc_action`. -/
inductive AdcAction
  | continue
  | repeat
  | finish
  deriving DecidableEq, Repr

/-- `struct adc_sequence_options`; the callback may be NULL. -/
structure AdcSequenceOptions where
  callback : Bool
  extraSamplings : BitVec 16
  deriving DecidableEq, Repr

/-- `struct adc_sequence`. -/
structure AdcSequence where
  options : Option AdcSequenceOptions
  channels : BitVec 32
  buffer : ℤ
  bufferSize : BitVec 32
  deriving DecidableEq, Repr

/-- `struct adc_context`. Whether `sequence` has options is read from its pointer,
what they are from the copy in `options`. -/
structure AdcContext where
  status : ℤ
  sequence : AdcSequence
  options : AdcSequenceOptions
  samplingIndex : BitVec 16

/-- `struct adc_wch_data`, the registers of the converter and its DMA, and memory.
`converting` is RB_ADC_START in R8_ADC_CONVERT. -/
structure Adc where
  offset : BitVec 16
  ctx : AdcContext
  buffer : ℤ
  repeatBuffer : ℤ
  channel : BitVec 8
  converting : Bool
  intFlag : Bool
  adcData : BitVec 16
  dmaAuto : Bool
  dmaBeg : BitVec 16
  dmaIntFlag : Bool
  memory : Memory

def enotsup : ℤ := 134
def enomem : ℤ := 12

section Hal

variable (s : Adc)

/-- Every write of R8_ADC_CONVERT clears the interrupt flag. -/
def halAdcStart : Adc := { s with converting := true, intFlag := false }
def halAdcClearIntFlag : Adc := { s with converting := false, intFlag := false }
def halAdcGetIntFlag : Bool := s.intFlag
def halAdcSetChannel (channel : BitVec 32) : Adc :=
  { s with channel := channel.setWidth 8 &&& 0x0f }
def halAdcGetDmaIntFlag : Bool := s.dmaIntFlag
def halAdcDmaStop : Adc := { s with dmaAuto := false, dmaBeg := 0xffff }

/-- The flags are written back as they are read, which clears them. -/
def halAdcClearDmaIntFlag : Adc := { s with dmaIntFlag := false }

end Hal

section Context

variable (s : Adc)

def adcContextStartSampling : Adc := halAdcStart { s with repeatBuffer := s.buffer }

def adcContextUpdateBufferPointer (repeatSampling : Bool) : Adc :=
  if repeatSampling then { s with buffer := s.repeatBuffer }
  else { s with buffer := s.buffer + 2 }

def adcContextComplete (status : ℤ) : Adc := { s with ctx := { s.ctx with status := status } }

def adcContextStartRead (sequence : AdcSequence) : Adc :=
  let s := { s with ctx := { s.ctx with sequence := sequence, status := 1 } }
  let s :=
    match sequence.options with
    | some options => { s with ctx := { s.ctx with options := options, samplingIndex := 0 } }
    | none => s
  adcContextStartSampling s

/-- `answer` is what the callback returns if it is called. -/
def adcContextOnSamplingDone (answer : AdcAction) : Adc :=
  if s.ctx.sequence.options.isSome then
    let action := if s.ctx.options.callback then answer else .continue
    match action with
    | .repeat => adcContextStartSampling (adcContextUpdateBufferPointer s true)
    | .finish => adcContextComplete s 0
    | .continue =>
      if s.ctx.samplingIndex < s.ctx.options.extraSamplings then
        let s := { s with ctx := { s.ctx with samplingIndex := s.ctx.samplingIndex + 1 } }
        adcContextStartSampling (adcContextUpdateBufferPointer s false)
      else adcContextComplete s 0
  else adcContextComplete s 0

end Context

section Driver

variable (s : Adc)

def adcWchHandler (answer : AdcAction) : Adc :=
  let s := if halAdcGetDmaIntFlag s then halAdcClearDmaIntFlag (halAdcDmaStop s) else s
  if halAdcGetIntFlag s then
    let s := halAdcClearIntFlag s
    let s := { s with memory := storeHalf s.memory s.buffer (s.adcData + s.offset) }
    adcContextOnSamplingDone s answer
  else s

/-- The number of the lowest set bit, counted from one, and 0 for none. -/
def findLsbSet (op : BitVec 32) : BitVec 32 := if op = 0 then 0 else op.ctz + 1

/-- A shift takes the low five bits of its count. -/
def bit (n : BitVec 32) : BitVec 32 := 1#32 <<< (n &&& 31#32)

def checkBufferSize (sequences : AdcSequence) : ℤ :=
  let neededBufferSize : BitVec 32 := 2
  let neededBufferSize :=
    match sequences.options with
    | some options => neededBufferSize * (1 + options.extraSamplings.setWidth 32)
    | none => neededBufferSize
  if sequences.bufferSize < neededBufferSize then -enomem else 0

def adcWchRead (sequence : AdcSequence) : Adc × ℤ :=
  let index := findLsbSet sequence.channels - 1
  if bit index < sequence.channels then (s, -enotsup)
  else
    let s := halAdcSetChannel s index
    let err := checkBufferSize sequence
    if err ≠ 0 then (s, err)
    else
      let s := { s with buffer := sequence.buffer }
      (adcContextStartRead s sequence, 0)

/-- The read has completed. -/
def adcWchIsCompleted : Bool := s.ctx.status = 0

end Driver

/-- What happens to the converter: a running conversion ends, or its interrupt
handler runs. -/
inductive Event
  | endOfConversion (raw : BitVec 16)
  | interrupt (answer : AdcAction)
  deriving DecidableEq, Repr

def step (s : Adc) : Event → Adc
  | .endOfConversion raw =>
    if s.converting then { s with converting := false, intFlag := true, adcData := raw } else s
  | .interrupt answer => adcWchHandler s answer

end WchIotSdk.AdcSampling
