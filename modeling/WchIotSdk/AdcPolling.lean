import WchIotSdk.AdcSequence

/-!
# The converter without its interrupt

Without CONFIG_ADC_SUPPORT_INTERRUPT `adc_wch_read` stores what the converter shows
and a read has always completed. The calls that other code can see, the starts of
the converter and the callback of the sequence, are written down as they are made,
so that the two builds can be held against each other.
-/
namespace WchIotSdk.AdcPolling
open ByteMemory HalfWordArray EventRuns AdcSampling

section Driver

variable (s : Adc)

def halAdcBusyCheck : Bool := s.converting

/-- A conversion that is running ends with `output`, and the wait with it. -/
def halAdcReadRaw (output : BitVec 16) : Adc × BitVec 16 :=
  let s := if halAdcBusyCheck s then AdcSampling.step s (.endOfConversion output) else s
  (s, s.adcData &&& 0x0fff)

def adcWchRead (sequence : AdcSequence) (output : BitVec 16) : Adc × ℤ :=
  let index := findLsbSet sequence.channels - 1
  if bit index < sequence.channels then (s, -enotsup)
  else
    let s := halAdcSetChannel s index
    let err := checkBufferSize sequence
    if err ≠ 0 then (s, err)
    else
      let s := { s with buffer := sequence.buffer }
      let (s, raw) := halAdcReadRaw s output
      ({ s with memory := storeHalf s.memory s.buffer (raw + s.offset) }, 0)

def adcWchIsCompleted (_ : Adc) : Bool := true

end Driver

/-- The converter with the calls of `hal_adc_start` counted and those of the callback
of the sequence listed by the sampling index they get. -/
structure Traced where
  adc : Adc
  starts : ℕ
  calls : List (BitVec 16)

namespace Traced

section Context

variable (t : Traced)

def halAdcStart : Traced :=
  { t with adc := AdcSampling.halAdcStart t.adc, starts := t.starts + 1 }

def adcContextStartSampling : Traced :=
  halAdcStart { t with adc.repeatBuffer := t.adc.buffer }

def adcContextUpdateBufferPointer (repeatSampling : Bool) : Traced :=
  { t with adc := AdcSampling.adcContextUpdateBufferPointer t.adc repeatSampling }

def adcContextComplete (status : ℤ) : Traced :=
  { t with adc := AdcSampling.adcContextComplete t.adc status }

def adcContextStartRead (sequence : AdcSequence) : Traced :=
  let t := { t with adc.ctx := { t.adc.ctx with sequence := sequence, status := 1 } }
  let t :=
    match sequence.options with
    | some options =>
      { t with adc.ctx := { t.adc.ctx with options := options, samplingIndex := 0 } }
    | none => t
  adcContextStartSampling t

/-- The callback, if there is one, is called with the sampling index. -/
def callback (answer : AdcAction) : Traced × AdcAction :=
  if t.adc.ctx.options.callback then
    ({ t with calls := t.calls ++ [t.adc.ctx.samplingIndex] }, answer)
  else (t, .continue)

def adcContextOnSamplingDone (answer : AdcAction) : Traced :=
  if t.adc.ctx.sequence.options.isSome then
    let (t, action) := callback t answer
    match action with
    | .repeat => adcContextStartSampling (adcContextUpdateBufferPointer t true)
    | .finish => adcContextComplete t 0
    | .continue =>
      if t.adc.ctx.samplingIndex < t.adc.ctx.options.extraSamplings then
        let t := { t with adc.ctx := { t.adc.ctx with
          samplingIndex := t.adc.ctx.samplingIndex + 1 } }
        adcContextStartSampling (adcContextUpdateBufferPointer t false)
      else adcContextComplete t 0
  else adcContextComplete t 0

end Context

section Driver

variable (t : Traced)

def adcWchHandler (answer : AdcAction) : Traced :=
  let t :=
    if halAdcGetDmaIntFlag t.adc then { t with adc := halAdcClearDmaIntFlag (halAdcDmaStop t.adc) }
    else t
  if halAdcGetIntFlag t.adc then
    let t := { t with adc := halAdcClearIntFlag t.adc }
    let t := { t with
      adc.memory := storeHalf t.adc.memory t.adc.buffer (t.adc.adcData + t.adc.offset) }
    adcContextOnSamplingDone t answer
  else t

/-- The read of the build with the interrupt. -/
def adcWchRead (sequence : AdcSequence) : Traced × ℤ :=
  let index := findLsbSet sequence.channels - 1
  if bit index < sequence.channels then (t, -enotsup)
  else
    let t := { t with adc := halAdcSetChannel t.adc index }
    let err := checkBufferSize sequence
    if err ≠ 0 then (t, err)
    else
      let t := { t with adc.buffer := sequence.buffer }
      (adcContextStartRead t sequence, 0)

/-- The read of the build without it. -/
def adcWchReadPolled (sequence : AdcSequence) (output : BitVec 16) : Traced × ℤ :=
  let index := findLsbSet sequence.channels - 1
  if bit index < sequence.channels then (t, -enotsup)
  else
    let t := { t with adc := halAdcSetChannel t.adc index }
    let err := checkBufferSize sequence
    if err ≠ 0 then (t, err)
    else
      let t := { t with adc.buffer := sequence.buffer }
      let (s, raw) := halAdcReadRaw t.adc output
      let t := { t with adc := s }
      ({ t with adc.memory := storeHalf t.adc.memory t.adc.buffer (raw + t.adc.offset) }, 0)

def step : Event → Traced
  | .endOfConversion raw => { t with adc := AdcSampling.step t.adc (.endOfConversion raw) }
  | .interrupt answer => adcWchHandler t answer

end Driver

section Erasure

variable (t : Traced)

/-- The context proceeds as without the trace. -/
lemma adc_startRead (sequence : AdcSequence) :
    (adcContextStartRead t sequence).adc = AdcSampling.adcContextStartRead t.adc sequence := by
  rw [adcContextStartRead, AdcSampling.adcContextStartRead]
  cases sequence.options <;> rfl

lemma adc_onSamplingDone (answer : AdcAction) :
    (adcContextOnSamplingDone t answer).adc =
      AdcSampling.adcContextOnSamplingDone t.adc answer := by
  rw [adcContextOnSamplingDone, AdcSampling.adcContextOnSamplingDone, callback]
  by_cases hseq : t.adc.ctx.sequence.options.isSome = true
  · rw [if_pos hseq, if_pos hseq]
    by_cases hcallback : t.adc.ctx.options.callback = true
    · rw [if_pos hcallback, if_pos hcallback]
      cases answer with
      | «repeat» => rfl
      | finish => rfl
      | «continue» =>
        dsimp only
        split <;> rfl
    · rw [if_neg hcallback, if_neg hcallback]
      dsimp only
      split <;> rfl
  · rw [if_neg hseq, if_neg hseq]
    rfl

lemma adc_handler (answer : AdcAction) :
    (adcWchHandler t answer).adc = AdcSampling.adcWchHandler t.adc answer := by
  rw [adcWchHandler, AdcSampling.adcWchHandler]
  by_cases hdma : halAdcGetDmaIntFlag t.adc = true
  · rw [if_pos hdma, if_pos hdma]
    dsimp only
    split
    · exact adc_onSamplingDone _ answer
    · rfl
  · rw [if_neg hdma, if_neg hdma]
    dsimp only
    split
    · exact adc_onSamplingDone _ answer
    · rfl

lemma adc_step (e : Event) : (step t e).adc = AdcSampling.step t.adc e := by
  cases e with
  | endOfConversion raw => rfl
  | interrupt answer => exact adc_handler t answer

/-- Without the trace the run is the one of the converter. -/
theorem adc_run (es : List Event) : (run step t es).adc = run AdcSampling.step t.adc es :=
  run_map adc_step t es

theorem adc_read (sequence : AdcSequence) :
    (adcWchRead t sequence).1.adc = (AdcSampling.adcWchRead t.adc sequence).1 ∧
      (adcWchRead t sequence).2 = (AdcSampling.adcWchRead t.adc sequence).2 := by
  rw [adcWchRead, AdcSampling.adcWchRead]
  dsimp only
  split
  · exact ⟨rfl, rfl⟩
  · split
    · exact ⟨rfl, rfl⟩
    · exact ⟨adc_startRead _ sequence, rfl⟩

theorem adc_readPolled (sequence : AdcSequence) (output : BitVec 16) :
    (adcWchReadPolled t sequence output).1.adc =
        (AdcPolling.adcWchRead t.adc sequence output).1 ∧
      (adcWchReadPolled t sequence output).2 =
        (AdcPolling.adcWchRead t.adc sequence output).2 := by
  rw [adcWchReadPolled, AdcPolling.adcWchRead]
  dsimp only
  split
  · exact ⟨rfl, rfl⟩
  · split
    · exact ⟨rfl, rfl⟩
    · exact ⟨rfl, rfl⟩

end Erasure

/-- Whether the callback is asked after a sample. -/
def asks (t : Traced) : Bool := t.adc.ctx.sequence.options.isSome && t.adc.ctx.options.callback

/-- The sample that an event stores. -/
def stores (s : Adc) : Event → List (BitVec 16)
  | .endOfConversion _ => []
  | .interrupt _ => if s.intFlag then [s.adcData + s.offset] else []

/-- All the samples of a run. -/
def samples (s : Adc) (es : List Event) : List (BitVec 16) :=
  outputs AdcSampling.step stores s es

/-- After `n` stored samples: one conversion was started for each of them, and one
more while the read goes on; the callback was asked about each. -/
structure Accounted (t : Traced) (n : ℕ) : Prop where
  starts : t.starts = n + if t.adc.ctx.status = 0 then 0 else 1
  started : 1 ≤ t.starts
  calls : t.calls.length = if t.asks then n else 0
  idle : t.adc.ctx.status = 0 → t.adc.converting = false ∧ t.adc.intFlag = false

section Accounting

variable {t : Traced} {n : ℕ}

/-- The callback is listed and nothing else. -/
lemma callback_spec (t : Traced) (answer : AdcAction) :
    (callback t answer).1 =
      { t with calls := t.calls ++
          if t.adc.ctx.options.callback then [t.adc.ctx.samplingIndex] else [] } := by
  rw [callback]
  split
  · rfl
  · rw [List.append_nil]

/-- After a sample the read completes or the next conversion is started. -/
lemma onSamplingDone_spec (t : Traced) (answer : AdcAction) :
    let t' := adcContextOnSamplingDone t answer
    t'.calls = t.calls ++ (if t.asks then [t.adc.ctx.samplingIndex] else []) ∧
      t'.asks = t.asks ∧
      ((t'.starts = t.starts ∧ t'.adc.ctx.status = 0 ∧
          t'.adc.converting = t.adc.converting ∧ t'.adc.intFlag = t.adc.intFlag) ∨
        (t'.starts = t.starts + 1 ∧ t'.adc.ctx.status = t.adc.ctx.status)) := by
  intro t'
  have ht' : t' = adcContextOnSamplingDone t answer := rfl
  rw [adcContextOnSamplingDone] at ht'
  by_cases hseq : t.adc.ctx.sequence.options.isSome = true
  · have hasks : t.asks = t.adc.ctx.options.callback := by rw [asks, hseq, Bool.true_and]
    rw [if_pos hseq] at ht'
    dsimp only at ht'
    rw [callback_spec, ← hasks] at ht'
    rw [ht']
    cases (callback t answer).2 with
    | «repeat» => exact ⟨rfl, rfl, Or.inr ⟨rfl, rfl⟩⟩
    | finish => exact ⟨rfl, rfl, Or.inl ⟨rfl, rfl, rfl, rfl⟩⟩
    | «continue» =>
      dsimp only
      split
      · exact ⟨rfl, rfl, Or.inr ⟨rfl, rfl⟩⟩
      · exact ⟨rfl, rfl, Or.inl ⟨rfl, rfl, rfl, rfl⟩⟩
  · have hasks : t.asks = false := by
      rw [asks, Bool.eq_false_of_not_eq_true hseq, Bool.false_and]
    rw [if_neg hseq] at ht'
    rw [ht', hasks, if_neg Bool.false_ne_true, List.append_nil]
    exact ⟨rfl, hasks, Or.inl ⟨rfl, rfl, rfl, rfl⟩⟩

lemma traced_of_intFlag (h : t.adc.intFlag = true) (answer : AdcAction) :
    adcWchHandler t answer = adcContextOnSamplingDone { t with adc := stored t.adc } answer := by
  cases hdma : t.adc.dmaIntFlag with
  | true => simp [adcWchHandler, stored, halAdcGetDmaIntFlag, halAdcGetIntFlag,
      halAdcClearDmaIntFlag, halAdcDmaStop, h, hdma]
  | false => simp [adcWchHandler, stored, halAdcGetDmaIntFlag, halAdcGetIntFlag, h, hdma]

lemma traced_of_not_intFlag (h : t.adc.intFlag = false) (answer : AdcAction) :
    (adcWchHandler t answer).starts = t.starts ∧ (adcWchHandler t answer).calls = t.calls := by
  cases hdma : t.adc.dmaIntFlag with
  | true => simp [adcWchHandler, halAdcGetDmaIntFlag, halAdcGetIntFlag,
      halAdcClearDmaIntFlag, halAdcDmaStop, h, hdma]
  | false => simp [adcWchHandler, halAdcGetDmaIntFlag, halAdcGetIntFlag, h, hdma]

/-- An interrupt that stores a sample. -/
lemma Accounted.sample (h : Accounted t n) (hflag : t.adc.intFlag = true) (answer : AdcAction) :
    Accounted (adcWchHandler t answer) (n + 1) := by
  have hgoes : t.adc.ctx.status ≠ 0 := by
    intro hstatus
    exact absurd (hflag.symm.trans (h.idle hstatus).2) (by decide)
  have hstarts : t.starts = n + 1 := by rw [h.starts, if_neg hgoes]
  obtain ⟨hctx, -, -, hconv, hint, -⟩ := stored_spec t.adc
  have hasks : asks { t with adc := stored t.adc } = t.asks := by rw [asks, asks, hctx]
  obtain ⟨hcalls, hasks', hcase⟩ := onSamplingDone_spec { t with adc := stored t.adc } answer
  rw [traced_of_intFlag hflag]
  dsimp only at hcalls hasks' hcase ⊢
  rw [hasks] at hcalls hasks'
  have hlength : (adcContextOnSamplingDone { t with adc := stored t.adc } answer).calls.length =
      if t.asks then n + 1 else 0 := by
    rw [hcalls, List.length_append, h.calls]
    cases t.asks <;> rfl
  obtain ⟨hsame, hdone, hconv', hint'⟩ | ⟨hnext, hstatus⟩ := hcase
  · refine ⟨?_, ?_, ?_, fun _ => ⟨hconv'.trans hconv, hint'.trans hint⟩⟩
    · rw [hsame, hdone, if_pos rfl, hstarts]
    · rw [hsame]
      exact h.started
    · rw [hlength, hasks']
  · have hgoes' : (stored t.adc).ctx.status ≠ 0 := by rwa [hctx]
    refine ⟨?_, ?_, ?_, fun hzero => absurd (hstatus.symm.trans hzero) hgoes'⟩
    · rw [hnext, hstatus, if_neg hgoes', hstarts]
    · omega
    · rw [hlength, hasks']

/-- An interrupt without a sample. -/
lemma Accounted.noSample (h : Accounted t n) (hflag : t.adc.intFlag = false)
    (answer : AdcAction) : Accounted (adcWchHandler t answer) n := by
  obtain ⟨hstarts, hcalls⟩ := traced_of_not_intFlag hflag answer
  obtain ⟨hctx, -, -, hconv, hint, -⟩ := @handler_of_not_intFlag t.adc answer hflag
  rw [← adc_handler] at hctx hconv hint
  refine ⟨?_, ?_, ?_, ?_⟩
  · rw [hstarts, hctx, h.starts]
  · rw [hstarts]
    exact h.started
  · rw [hcalls, asks, hctx, h.calls, asks]
  · intro hstatus
    rw [hctx] at hstatus
    rw [hconv]
    exact ⟨(h.idle hstatus).1, hint⟩

/-- The end of a conversion. -/
lemma Accounted.endOfConversion (h : Accounted t n) (raw : BitVec 16) :
    Accounted (step t (.endOfConversion raw)) n := by
  cases hconv : t.adc.converting with
  | false =>
    have hsame : step t (.endOfConversion raw) = t := by
      rw [step, AdcSampling.step, hconv, if_neg Bool.false_ne_true]
    rwa [hsame]
  | true =>
    have hgoes : t.adc.ctx.status ≠ 0 := by
      intro hstatus
      exact absurd (hconv.symm.trans (h.idle hstatus).1) (by decide)
    rw [step, AdcSampling.step, hconv, if_pos rfl]
    exact ⟨h.starts, h.started, h.calls, fun hstatus => absurd hstatus hgoes⟩

lemma Accounted.step (h : Accounted t n) (e : Event) :
    Accounted (step t e) (n + (stores t.adc e).length) := by
  cases e with
  | endOfConversion raw => exact h.endOfConversion raw
  | interrupt answer =>
    rw [stores]
    cases hflag : t.adc.intFlag with
    | true => exact h.sample hflag answer
    | false => exact h.noSample hflag answer

/-- The account is kept along every run. -/
theorem Accounted.run (h : Accounted t n) (es : List Event) :
    Accounted (run Traced.step t es) (n + (samples t.adc es).length) := by
  induction es generalizing t n with
  | nil => exact h
  | cons e es ih =>
    have hnext := ih (h.step e)
    rw [adc_step] at hnext
    rw [samples, outputs_cons, List.length_append, ← Nat.add_assoc]
    exact hnext

end Accounting

end Traced

/-- A read, with the interrupt and the events that follow it. -/
def interruptBuild (s : Adc) (sequence : AdcSequence) (es : List Event) : Traced :=
  run Traced.step (Traced.adcWchRead ⟨s, 0, []⟩ sequence).1 es

/-- A read without the interrupt. -/
def pollingBuild (s : Adc) (sequence : AdcSequence) (output : BitVec 16) : Traced :=
  (Traced.adcWchReadPolled ⟨s, 0, []⟩ sequence output).1

/-- The two builds left the same behind. -/
structure BuildsAgree (sequence : AdcSequence) (t t' : Traced) : Prop where
  buffer : ∀ a, sequence.buffer ≤ a → a < sequence.buffer + sequence.bufferSize.toNat →
    t.adc.memory a = t'.adc.memory a
  calls : t.calls = t'.calls
  starts : t.starts = t'.starts

section Builds

variable {s : Adc} {sequence : AdcSequence}

lemma startRead_spec (t : Traced) (sequence : AdcSequence) :
    (Traced.adcContextStartRead t sequence).starts = t.starts + 1 ∧
      (Traced.adcContextStartRead t sequence).calls = t.calls ∧
      (Traced.adcContextStartRead t sequence).adc.ctx.status = 1 := by
  rw [Traced.adcContextStartRead]
  cases sequence.options <;> exact ⟨rfl, rfl, rfl⟩

/-- An accepted read has started one conversion. -/
lemma accounted_read (haccept : (AdcSampling.adcWchRead s sequence).2 = 0) :
    (Traced.adcWchRead ⟨s, 0, []⟩ sequence).1.Accounted 0 := by
  obtain ⟨hchannels, hsize, -⟩ := read_accepted haccept
  rw [Traced.adcWchRead]
  dsimp only
  rw [if_neg hchannels, if_neg (not_not.mpr hsize)]
  dsimp only
  obtain ⟨hstarts, hcalls, hstatus⟩ := startRead_spec
    ⟨{ halAdcSetChannel s (findLsbSet sequence.channels - 1) with buffer := sequence.buffer }, 0, []⟩
    sequence
  refine ⟨?_, hstarts.ge, ?_, fun hzero => absurd (hstatus.symm.trans hzero) one_ne_zero⟩
  · rw [hstarts, hstatus, if_neg one_ne_zero]
  · rw [hcalls, ite_self]
    rfl

/-- When an interrupt driven read has completed, as many conversions were started as
samples stored, and the callback was asked about each of them. -/
theorem interruptBuild_completed (es : List Event)
    (haccept : (AdcSampling.adcWchRead s sequence).2 = 0)
    (hcompleted : AdcSampling.adcWchIsCompleted (interruptBuild s sequence es).adc = true) :
    let stored := Traced.samples (AdcSampling.adcWchRead s sequence).1 es
    let t := interruptBuild s sequence es
    t.starts = stored.length ∧ t.calls.length = (if t.asks then stored.length else 0) ∧
      1 ≤ stored.length := by
  intro stored t
  have h : t.Accounted (0 + stored.length) := by
    have hrun := (accounted_read haccept).run es
    rwa [(Traced.adc_read _ sequence).1] at hrun
  have hstatus : t.adc.ctx.status = 0 := of_decide_eq_true hcompleted
  have hstarts := h.starts
  have hstarted := h.started
  have hcalls := h.calls
  rw [Nat.zero_add, if_pos hstatus, Nat.add_zero] at hstarts
  rw [Nat.zero_add] at hcalls
  exact ⟨hstarts, hcalls, hstarts ▸ hstarted⟩

/-- The polled read starts nothing and asks no callback. -/
theorem pollingBuild_quiet (s : Adc) (sequence : AdcSequence) (output : BitVec 16) :
    (pollingBuild s sequence output).starts = 0 ∧ (pollingBuild s sequence output).calls = [] := by
  rw [pollingBuild, Traced.adcWchReadPolled]
  dsimp only
  split
  · exact ⟨rfl, rfl⟩
  · split
    · exact ⟨rfl, rfl⟩
    · exact ⟨rfl, rfl⟩

/-- No accepted read leaves the same behind in both builds: the converter is started
in one of them only. -/
theorem builds_never_agree (s : Adc) (sequence : AdcSequence) (es : List Event)
    (output : BitVec 16) (haccept : (AdcSampling.adcWchRead s sequence).2 = 0)
    (hcompleted : AdcSampling.adcWchIsCompleted (interruptBuild s sequence es).adc = true) :
    ¬ BuildsAgree sequence (interruptBuild s sequence es) (pollingBuild s sequence output) := by
  intro hagree
  obtain ⟨hstarts, -, hsome⟩ := interruptBuild_completed es haccept hcompleted
  have hnone := (pollingBuild_quiet s sequence output).1
  have hsame := hagree.starts
  omega

end Builds

/-- The converter shows 500 from before and 600 is the next result. -/
def showing : Adc :=
  ⟨3, ⟨0, ⟨none, 0, 0, 0⟩, ⟨false, 0⟩, 0⟩, 0, 0, 0, false, false, 500, false, 0, false, fun _ => 0⟩

def single : AdcSequence := ⟨none, 4, 0x20000000, 2⟩

/-- Two samplings after the first, with a callback; its second answer asks for a repeat. -/
def several : AdcSequence := ⟨some ⟨true, 2⟩, 4, 0x20000000, 6⟩

theorem several_never_agrees :
    ¬ BuildsAgree several (interruptBuild showing several
      [.endOfConversion 600, .interrupt .continue, .endOfConversion 610, .interrupt .repeat,
        .endOfConversion 620, .interrupt .continue, .endOfConversion 630, .interrupt .continue])
      (pollingBuild showing several 600) :=
  builds_never_agree showing several _ 600 (by decide +kernel) (by decide +kernel)

/-- The sample of one build is the new result, that of the other the old one. -/
theorem single_differs :
    let es : List Event := [.endOfConversion 600, .interrupt .continue]
    let t := interruptBuild showing single es
    let t' := pollingBuild showing single 600
    (AdcSampling.adcWchRead showing single).2 = 0 ∧
      AdcSampling.adcWchIsCompleted t.adc = true ∧ adcWchIsCompleted t'.adc = true ∧
      loadHalf t.adc.memory single.buffer = 603 ∧ loadHalf t'.adc.memory single.buffer = 503 ∧
      t.starts = 1 ∧ t'.starts = 0 ∧ ¬ BuildsAgree single t t' := by
  refine ⟨by decide +kernel, by decide +kernel, rfl, by decide +kernel, by decide +kernel,
    by decide +kernel, by decide +kernel, ?_⟩
  intro hagree
  exact absurd hagree.starts (by decide +kernel)

end WchIotSdk.AdcPolling
