import WchIotSdk.AdcSampling
import WchIotSdk.SlotSequence

/-!
# An accepted sequence stays in its buffer

The converter fills the slots of the buffer of a sequence in order. While the
sequence goes on, the buffer pointer is at the slot with the sampling index, and
the slots before it hold the accepted samples; this is kept by every event, and so
holds after every run of events that follows an accepted read.
-/
namespace WchIotSdk.AdcSampling
open ByteMemory HalfWordArray EventRuns SlotSequence

/-- What an answer means for the slot; without a callback every sample is accepted. -/
def AdcSequenceOptions.answered (opts : AdcSequenceOptions) (answer : AdcAction) : Answer :=
  match if opts.callback then answer else .continue with
  | .continue => .accept
  | .repeat => .again
  | .finish => .stop

/-- The sample that an event stores, with the answer to it. -/
def conversionOf (opts : AdcSequenceOptions) (s : Adc) : Event → Option (BitVec 16 × Answer)
  | .endOfConversion _ => none
  | .interrupt answer =>
    if s.intFlag then some (s.adcData + s.offset, opts.answered answer) else none

/-- The samples stored in a run, in order. -/
def conversions (opts : AdcSequenceOptions) (s : Adc) (es : List Event) :
    List (BitVec 16 × Answer) :=
  outputs step (fun s e => (conversionOf opts s e).toList) s es

/-- The slot of the current sampling. -/
def Adc.slot (s : Adc) (sequence : AdcSequence) : ℤ :=
  sequence.buffer + 2 * (s.ctx.samplingIndex.toNat : ℤ)

/-- The converter is at work on the sequence and has filled the slots as in `x`. -/
structure InBuffer (sequence : AdcSequence) (opts : AdcSequenceOptions) (before : Memory)
    (s : Adc) (x : Slots (BitVec 16)) : Prop where
  hasOptions : s.ctx.sequence.options.isSome = true
  options : s.ctx.options = opts
  buffer : s.buffer = s.slot sequence
  index_le : s.ctx.samplingIndex.toNat ≤ opts.extraSamplings.toNat
  status : s.ctx.status = if x.finished then 0 else 1
  filled : loadHalves s.memory sequence.buffer x.filled.length = x.filled
  current : ∀ v, x.current = some v → loadHalf s.memory (s.slot sequence) = v
  outside : ∀ a, a < sequence.buffer ∨ s.slot sequence + 2 ≤ a → s.memory a = before a
  goesOn : x.finished = false → x.filled.length = s.ctx.samplingIndex.toNat ∧
    s.repeatBuffer = s.buffer ∧ s.converting ≠ s.intFlag
  done : x.finished = true → x.filled.length = s.ctx.samplingIndex.toNat + 1 ∧
    s.converting = false ∧ s.intFlag = false

section Handler

variable {s : Adc} {answer : AdcAction}

/-- The state in which the handler calls `adc_context_on_sampling_done`. -/
def stored (s : Adc) : Adc :=
  let s := if halAdcGetDmaIntFlag s then halAdcClearDmaIntFlag (halAdcDmaStop s) else s
  let s := halAdcClearIntFlag s
  { s with memory := storeHalf s.memory s.buffer (s.adcData + s.offset) }

lemma handler_of_intFlag (h : s.intFlag = true) :
    adcWchHandler s answer = adcContextOnSamplingDone (stored s) answer := by
  cases hdma : s.dmaIntFlag with
  | true => simp [adcWchHandler, stored, halAdcGetDmaIntFlag, halAdcGetIntFlag,
      halAdcClearDmaIntFlag, halAdcDmaStop, h, hdma]
  | false => simp [adcWchHandler, stored, halAdcGetDmaIntFlag, halAdcGetIntFlag, h, hdma]

/-- What the handler has done by then. -/
lemma stored_spec (s : Adc) :
    (stored s).ctx = s.ctx ∧ (stored s).buffer = s.buffer ∧
      (stored s).repeatBuffer = s.repeatBuffer ∧ (stored s).converting = false ∧
      (stored s).intFlag = false ∧
      (stored s).memory = storeHalf s.memory s.buffer (s.adcData + s.offset) := by
  cases hdma : s.dmaIntFlag with
  | true => simp [stored, halAdcGetDmaIntFlag, hdma, halAdcClearIntFlag, halAdcClearDmaIntFlag,
      halAdcDmaStop]
  | false => simp [stored, halAdcGetDmaIntFlag, hdma, halAdcClearIntFlag]

/-- Without the flag of the converter only the DMA is stopped. -/
lemma handler_of_not_intFlag (h : s.intFlag = false) :
    (adcWchHandler s answer).ctx = s.ctx ∧ (adcWchHandler s answer).buffer = s.buffer ∧
      (adcWchHandler s answer).repeatBuffer = s.repeatBuffer ∧
      (adcWchHandler s answer).converting = s.converting ∧
      (adcWchHandler s answer).intFlag = false ∧
      (adcWchHandler s answer).memory = s.memory := by
  cases hdma : s.dmaIntFlag with
  | true => simp [adcWchHandler, halAdcGetDmaIntFlag, halAdcGetIntFlag, halAdcClearDmaIntFlag,
      halAdcDmaStop, h, hdma]
  | false => simp [adcWchHandler, halAdcGetDmaIntFlag, halAdcGetIntFlag, h, hdma]

/-- What follows a stored sample, by what its answer means for the slot. -/
lemma onSamplingDone_eq (hseq : s.ctx.sequence.options.isSome = true) :
    adcContextOnSamplingDone s answer =
      match s.ctx.options.answered answer with
      | .accept =>
        if s.ctx.samplingIndex < s.ctx.options.extraSamplings then
          halAdcStart { s with
            ctx := { s.ctx with samplingIndex := s.ctx.samplingIndex + 1 }
            buffer := s.buffer + 2
            repeatBuffer := s.buffer + 2 }
        else adcContextComplete s 0
      | .again => halAdcStart { s with buffer := s.repeatBuffer }
      | .stop => adcContextComplete s 0 := by
  rw [adcContextOnSamplingDone, if_pos hseq, AdcSequenceOptions.answered]
  dsimp only
  generalize (if s.ctx.options.callback then answer else .continue) = action
  cases action <;> rfl

end Handler

section Steps

variable {sequence : AdcSequence} {opts : AdcSequenceOptions} {before : Memory} {s : Adc}
  {x : Slots (BitVec 16)} {answer : AdcAction}

/-- The slot is one of the context. -/
lemma slot_congr {s' : Adc} (hctx : s'.ctx = s.ctx) : s'.slot sequence = s.slot sequence := by
  rw [Adc.slot, Adc.slot, hctx]

lemma InBuffer.running (h : InBuffer sequence opts before s x) (hflag : s.intFlag = true) :
    x.finished = false := by
  cases hfin : x.finished with
  | false => rfl
  | true =>
    obtain ⟨-, -, hidle⟩ := h.done hfin
    exact absurd (hflag.symm.trans hidle) (by decide)

/-- Storing a sample leaves the options of the context. -/
lemma InBuffer.options_stored (h : InBuffer sequence opts before s x) :
    (stored s).ctx.sequence.options.isSome = true ∧ (stored s).ctx.options = opts := by
  obtain ⟨hctx, -, -, -, -, -⟩ := stored_spec s
  rw [hctx]
  exact ⟨h.hasOptions, h.options⟩

/-- Storing the sample of the current slot. -/
lemma InBuffer.filled_stored (h : InBuffer sequence opts before s x) (hflag : s.intFlag = true) :
    loadHalves (stored s).memory sequence.buffer (x.filled.length + 1) =
      x.filled ++ [s.adcData + s.offset] := by
  obtain ⟨-, -, -, -, -, hmem⟩ := stored_spec s
  have hlen := (h.goesOn (h.running hflag)).1
  rw [hmem, h.buffer, Adc.slot, ← hlen, loadHalves_storeHalf_succ, h.filled]

lemma InBuffer.kept_stored (h : InBuffer sequence opts before s x) (hflag : s.intFlag = true) :
    loadHalves (stored s).memory sequence.buffer x.filled.length = x.filled := by
  obtain ⟨-, -, -, -, -, hmem⟩ := stored_spec s
  have hlen := (h.goesOn (h.running hflag)).1
  rw [hmem, h.buffer, Adc.slot, ← hlen, loadHalves_storeHalf le_rfl, h.filled]

lemma InBuffer.outside_stored (h : InBuffer sequence opts before s x) {a : ℤ}
    (ha : a < sequence.buffer ∨ s.slot sequence + 2 ≤ a) : (stored s).memory a = before a := by
  obtain ⟨-, -, -, -, -, hmem⟩ := stored_spec s
  rw [hmem, h.buffer, storeHalf_outside, h.outside a ha]
  rw [Adc.slot] at ha ⊢
  omega

/-- The sample is the last one: the slots are filled and the context is complete. -/
lemma InBuffer.complete_stored (h : InBuffer sequence opts before s x)
    (hflag : s.intFlag = true) :
    InBuffer sequence opts before (adcContextComplete (stored s) 0)
      ⟨x.filled ++ [s.adcData + s.offset], none, true⟩ := by
  obtain ⟨hctx, hbuffer, -, hconv, hint, -⟩ := stored_spec s
  obtain ⟨hlen, -, -⟩ := h.goesOn (h.running hflag)
  have hslot : (stored s).slot sequence = s.slot sequence := slot_congr hctx
  have hfilled := h.filled_stored hflag
  refine
    { hasOptions := ?_, options := ?_, buffer := ?_, index_le := ?_, status := rfl
      filled := ?_, outside := ?_, current := fun _ hv => nomatch hv
      goesOn := fun hfalse => absurd hfalse.symm Bool.false_ne_true, done := fun _ => ?_ }
  · exact h.options_stored.1
  · exact h.options_stored.2
  · show (stored s).buffer = (stored s).slot sequence
    rw [hbuffer, hslot, h.buffer]
  · show (stored s).ctx.samplingIndex.toNat ≤ _
    rw [hctx]
    exact h.index_le
  · rw [List.length_append, List.length_singleton]
    exact hfilled
  · intro a ha
    exact h.outside_stored (by rwa [← hslot])
  · rw [List.length_append, List.length_singleton]
    refine ⟨?_, hconv, hint⟩
    show x.filled.length + 1 = (stored s).ctx.samplingIndex.toNat + 1
    rw [hctx, hlen]

/-- The sample is accepted and the next slot is sampled. -/
lemma InBuffer.next_stored (h : InBuffer sequence opts before s x) (hflag : s.intFlag = true)
    (hmore : s.ctx.samplingIndex < opts.extraSamplings) :
    InBuffer sequence opts before
      (halAdcStart { stored s with
        ctx := { (stored s).ctx with samplingIndex := (stored s).ctx.samplingIndex + 1 }
        buffer := (stored s).buffer + 2
        repeatBuffer := (stored s).buffer + 2 })
      ⟨x.filled ++ [s.adcData + s.offset], none, false⟩ := by
  have hgoes := h.running hflag
  obtain ⟨hctx, hbuffer, -, -, -, -⟩ := stored_spec s
  obtain ⟨hlen, -, -⟩ := h.goesOn hgoes
  have hlt := BitVec.lt_def.mp hmore
  have hfilled := h.filled_stored hflag
  have hindex : ((stored s).ctx.samplingIndex + 1).toNat = s.ctx.samplingIndex.toNat + 1 := by
    have hbound := opts.extraSamplings.isLt
    rw [hctx, BitVec.toNat_add]
    exact Nat.mod_eq_of_lt (show s.ctx.samplingIndex.toNat + 1 < 2 ^ 16 by omega)
  have hslot : sequence.buffer + 2 * (((stored s).ctx.samplingIndex + 1).toNat : ℤ) =
      s.slot sequence + 2 := by
    rw [hindex, Adc.slot]
    push_cast
    ring
  refine
    { hasOptions := ?_, options := ?_, buffer := ?_, index_le := ?_, status := ?_
      filled := ?_, outside := ?_, current := fun _ hv => nomatch hv
      goesOn := fun _ => ⟨?_, rfl, Bool.false_ne_true.symm⟩
      done := fun hfalse => absurd hfalse Bool.false_ne_true }
  · exact h.options_stored.1
  · exact h.options_stored.2
  · show (stored s).buffer + 2 = _
    rw [hbuffer, h.buffer]
    exact hslot.symm
  · show ((stored s).ctx.samplingIndex + 1).toNat ≤ _
    omega
  · show (stored s).ctx.status = _
    rw [hctx, h.status, hgoes]
  · rw [List.length_append, List.length_singleton]
    exact hfilled
  · intro a ha
    apply h.outside_stored
    have ha' : a < sequence.buffer ∨ s.slot sequence + 2 + 2 ≤ a := hslot ▸ ha
    omega
  · rw [List.length_append, List.length_singleton]
    show x.filled.length + 1 = ((stored s).ctx.samplingIndex + 1).toNat
    rw [hindex, hlen]

/-- The sample stays in the current slot, which is sampled again. -/
lemma InBuffer.again_stored (h : InBuffer sequence opts before s x) (hflag : s.intFlag = true) :
    InBuffer sequence opts before
      (halAdcStart { stored s with buffer := (stored s).repeatBuffer })
      ⟨x.filled, some (s.adcData + s.offset), false⟩ := by
  have hgoes := h.running hflag
  obtain ⟨hctx, hbuffer, hrepeat, -, -, hmem⟩ := stored_spec s
  obtain ⟨hlen, hrepeatBuffer, -⟩ := h.goesOn hgoes
  have hslot : (stored s).slot sequence = s.slot sequence := slot_congr hctx
  refine
    { hasOptions := ?_, options := ?_, buffer := ?_, index_le := ?_, status := ?_
      filled := h.kept_stored hflag, current := ?_, outside := ?_
      goesOn := fun _ => ⟨?_, rfl, Bool.false_ne_true.symm⟩
      done := fun hfalse => absurd hfalse Bool.false_ne_true }
  · exact h.options_stored.1
  · exact h.options_stored.2
  · show (stored s).repeatBuffer = (stored s).slot sequence
    rw [hrepeat, hslot, hrepeatBuffer, h.buffer]
  · show (stored s).ctx.samplingIndex.toNat ≤ _
    rw [hctx]
    exact h.index_le
  · show (stored s).ctx.status = _
    rw [hctx, h.status, hgoes]
  · intro v hv
    obtain rfl := Option.some.inj hv
    show loadHalf (stored s).memory ((stored s).slot sequence) = _
    rw [hslot, hmem, h.buffer, loadHalf_storeHalf]
  · intro a ha
    exact h.outside_stored (by rwa [← hslot])
  · show x.filled.length = (stored s).ctx.samplingIndex.toNat
    rw [hctx, hlen]

/-- The handler of a completed conversion, answer by answer. -/
lemma InBuffer.handler (h : InBuffer sequence opts before s x) (hflag : s.intFlag = true) :
    InBuffer sequence opts before (adcWchHandler s answer)
      (x.add opts.extraSamplings.toNat (s.adcData + s.offset) (opts.answered answer)) := by
  have hgoes := h.running hflag
  obtain ⟨hctx, -, -, -, -, -⟩ := stored_spec s
  obtain ⟨hlen, -, -⟩ := h.goesOn hgoes
  obtain ⟨hseq, hopts⟩ := h.options_stored
  rw [handler_of_intFlag hflag, onSamplingDone_eq hseq, hopts]
  cases opts.answered answer with
  | accept =>
    rw [Slots.add_accept hgoes, hlen]
    by_cases hmore : s.ctx.samplingIndex < opts.extraSamplings
    · have hlt := BitVec.lt_def.mp hmore
      rw [decide_eq_false (by omega)]
      dsimp only
      rw [if_pos (by rwa [hctx])]
      exact h.next_stored hflag hmore
    · have hge := BitVec.lt_def.not.mp hmore
      rw [decide_eq_true (by omega)]
      dsimp only
      rw [if_neg (by rwa [hctx])]
      exact h.complete_stored hflag
  | again =>
    rw [Slots.add_again hgoes]
    exact h.again_stored hflag
  | stop =>
    rw [Slots.add_stop hgoes]
    exact h.complete_stored hflag

/-- The slots after an event. -/
def slotsAfter (opts : AdcSequenceOptions) (s : Adc) (x : Slots (BitVec 16)) (e : Event) :
    Slots (BitVec 16) :=
  x.addAll opts.extraSamplings.toNat (conversionOf opts s e).toList

lemma conversionOf_interrupt (hflag : s.intFlag = true) :
    conversionOf opts s (.interrupt answer) =
      some (s.adcData + s.offset, opts.answered answer) := if_pos hflag

lemma conversionOf_interrupt_none (hflag : s.intFlag = false) :
    conversionOf opts s (.interrupt answer) = none :=
  if_neg fun htrue => Bool.false_ne_true (hflag.symm.trans htrue)

/-- An event that only moves the flags of the conversion. -/
lemma InBuffer.congr {s' : Adc} (h : InBuffer sequence opts before s x) (hctx : s'.ctx = s.ctx)
    (hbuffer : s'.buffer = s.buffer) (hrepeat : s'.repeatBuffer = s.repeatBuffer)
    (hmem : s'.memory = s.memory) (hgoes : s.converting ≠ s.intFlag → s'.converting ≠ s'.intFlag)
    (hdone : s.converting = false → s.intFlag = false →
      s'.converting = false ∧ s'.intFlag = false) :
    InBuffer sequence opts before s' x := by
  have hslot : s'.slot sequence = s.slot sequence := slot_congr hctx
  obtain ⟨hasOptions, options, buffer, index_le, status, filled, current, outside, goesOn, done⟩ := h
  refine ⟨?_, ?_, ?_, ?_, ?_, ?_, ?_, ?_, ?_, ?_⟩
  · rwa [hctx]
  · rwa [hctx]
  · rwa [hbuffer, hslot]
  · rwa [hctx]
  · rwa [hctx]
  · rwa [hmem]
  · rwa [hmem, hslot]
  · rwa [hmem, hslot]
  · intro hfin
    obtain ⟨hlen, hrepeatBuffer, hflags⟩ := goesOn hfin
    rw [hctx, hrepeat, hbuffer]
    exact ⟨hlen, hrepeatBuffer, hgoes hflags⟩
  · intro hfin
    obtain ⟨hlen, hconv, hint⟩ := done hfin
    rw [hctx]
    exact ⟨hlen, hdone hconv hint⟩

/-- Every event keeps the sequence in its buffer. -/
theorem InBuffer.event (h : InBuffer sequence opts before s x) (e : Event) :
    InBuffer sequence opts before (step s e) (slotsAfter opts s x e) := by
  cases e with
  | endOfConversion raw =>
    show InBuffer sequence opts before (step s (.endOfConversion raw)) x
    cases hconv : s.converting with
    | false =>
      have hsame : step s (.endOfConversion raw) = s := by
        simp [step, hconv]
      rwa [hsame]
    | true =>
      have hends : step s (.endOfConversion raw) =
          { s with converting := false, intFlag := true, adcData := raw } := by
        simp [step, hconv]
      rw [hends]
      refine h.congr rfl rfl rfl rfl (fun _ => Bool.false_ne_true) fun hfalse => ?_
      exact absurd (hfalse.symm.trans hconv) Bool.false_ne_true
  | interrupt answer =>
    rw [slotsAfter]
    cases hflag : s.intFlag with
    | true =>
      rw [conversionOf_interrupt hflag]
      exact h.handler hflag
    | false =>
      rw [conversionOf_interrupt_none hflag]
      obtain ⟨hctx, hbuffer, hrepeat, hconv, hint, hmem⟩ :=
        @handler_of_not_intFlag s answer hflag
      refine h.congr hctx hbuffer hrepeat hmem ?_ ?_
      · show s.converting ≠ s.intFlag → (adcWchHandler s answer).converting ≠ _
        rw [hconv, hflag]
        exact fun hne => hint ▸ hne
      · intro hconv' _
        exact ⟨hconv.trans hconv', hint⟩

theorem InBuffer.events (h : InBuffer sequence opts before s x) (es : List Event) :
    InBuffer sequence opts before (run step s es)
      (x.addAll opts.extraSamplings.toNat (conversions opts s es)) := by
  induction es generalizing s x with
  | nil => exact h
  | cons e es ih =>
    rw [conversions, outputs_cons, Slots.addAll_append, run_cons]
    exact ih (h.event e)

lemma memory_onSamplingDone (s : Adc) (answer : AdcAction) :
    (adcContextOnSamplingDone s answer).memory = s.memory := by
  rw [adcContextOnSamplingDone]
  split
  · dsimp only
    split
    · rfl
    · rfl
    · split <;> rfl
  · rfl

/-- An event writes the sample that it stores, and nothing else. -/
lemma InBuffer.memory_step (h : InBuffer sequence opts before s x) (e : Event) :
    (step s e).memory =
      match conversionOf opts s e with
      | some (sample, _) => storeHalf s.memory (s.slot sequence) sample
      | none => s.memory := by
  cases e with
  | endOfConversion raw =>
    show (step s (.endOfConversion raw)).memory = s.memory
    rw [step]
    split <;> rfl
  | interrupt answer =>
    show (adcWchHandler s answer).memory = _
    cases hflag : s.intFlag with
    | true =>
      obtain ⟨-, -, -, -, -, hmem⟩ := stored_spec s
      rw [conversionOf_interrupt hflag, handler_of_intFlag hflag, memory_onSamplingDone, hmem,
        h.buffer]
    | false =>
      obtain ⟨-, -, -, -, -, hmem⟩ := @handler_of_not_intFlag s answer hflag
      rw [conversionOf_interrupt_none hflag, hmem]

end Steps

/-- What the next event does to the buffer and to the status. -/
structure NextEvent (sequence : AdcSequence) (opts : AdcSequenceOptions) (s : Adc) (e : Event) :
    Prop where
  /-- The sample goes to the current slot and nothing else is written. -/
  memory : (step s e).memory =
    match conversionOf opts s e with
    | some (sample, _) => storeHalf s.memory (s.slot sequence) sample
    | none => s.memory
  /-- The sequence completes when it is stopped or its last slot is accepted. -/
  status : (step s e).ctx.status = 0 ↔ s.ctx.status = 0 ∨
    ∃ sample answer, conversionOf opts s e = some (sample, answer) ∧
      (answer = .stop ∨ (answer = .accept ∧ s.ctx.samplingIndex = opts.extraSamplings))
  /-- Nothing is stored once it has. -/
  complete : s.ctx.status = 0 → conversionOf opts s e = none

section Runs

variable {sequence : AdcSequence} {opts : AdcSequenceOptions} {before : Memory} {s : Adc}
  {x : Slots (BitVec 16)}

lemma InBuffer.status_iff (h : InBuffer sequence opts before s x) :
    s.ctx.status = 0 ↔ x.finished = true := by
  rw [h.status]
  cases x.finished <;> simp

lemma InBuffer.complete (h : InBuffer sequence opts before s x) (hstatus : s.ctx.status = 0)
    (e : Event) : conversionOf opts s e = none := by
  cases e with
  | endOfConversion raw => rfl
  | interrupt answer =>
    obtain ⟨-, -, hint⟩ := h.done (h.status_iff.mp hstatus)
    exact conversionOf_interrupt_none hint

lemma InBuffer.goes_of_conversion (h : InBuffer sequence opts before s x) {e : Event}
    {c : BitVec 16 × Answer} (hconv : conversionOf opts s e = some c) : x.finished = false := by
  cases hfin : x.finished with
  | false => rfl
  | true =>
    have hnone := h.complete (h.status_iff.mpr hfin) e
    exact absurd (hconv.symm.trans hnone) (Option.some_ne_none c)

/-- Filled slots keep their samples. -/
theorem InBuffer.kept (h : InBuffer sequence opts before s x) (es : List Event) :
    loadHalves (run step s es).memory sequence.buffer x.filled.length = x.filled := by
  have hgrown : x.filled <+:
      (x.addAll opts.extraSamplings.toNat (conversions opts s es)).filled :=
    Slots.filled_prefix_addAll _
  have hafter := (h.events es).filled
  rw [← take_loadHalves hgrown.length_le, hafter]
  exact (List.prefix_iff_eq_take.mp hgrown).symm

lemma InBuffer.status_step (h : InBuffer sequence opts before s x) (e : Event) :
    (step s e).ctx.status = 0 ↔ s.ctx.status = 0 ∨
      ∃ sample answer, conversionOf opts s e = some (sample, answer) ∧
        (answer = .stop ∨ (answer = .accept ∧ s.ctx.samplingIndex = opts.extraSamplings)) := by
  rw [(h.event e).status_iff, h.status_iff, slotsAfter]
  cases hconv : conversionOf opts s e with
  | none => simp [Slots.addAll]
  | some c =>
    obtain ⟨sample, answer⟩ := c
    have hlen := (h.goesOn (h.goes_of_conversion hconv)).1
    have hindex := h.index_le
    have hlast : opts.extraSamplings.toNat ≤ x.filled.length ↔
        s.ctx.samplingIndex = opts.extraSamplings := by
      rw [hlen, BitVec.toNat_eq]
      omega
    show (x.add _ sample answer).finished = true ↔ _
    rw [Slots.finished_add, hlast]
    constructor
    · rintro (hfin | hanswer)
      · exact Or.inl hfin
      · exact Or.inr ⟨sample, answer, rfl, hanswer⟩
    · rintro (hfin | ⟨sample', answer', heq, hanswer⟩)
      · exact Or.inl hfin
      · obtain ⟨rfl, rfl⟩ := Prod.mk.inj (Option.some.inj heq)
        exact Or.inr hanswer

lemma InBuffer.nextEvent (h : InBuffer sequence opts before s x) (e : Event) :
    NextEvent sequence opts s e :=
  ⟨h.memory_step e, h.status_step e, fun hstatus => h.complete hstatus e⟩

/-- What the accepted read has checked, and how it starts. -/
lemma read_accepted {s : Adc} (haccept : (adcWchRead s sequence).2 = 0) :
    ¬ bit (findLsbSet sequence.channels - 1) < sequence.channels ∧
      checkBufferSize sequence = 0 ∧
      (adcWchRead s sequence).1 =
        adcContextStartRead { halAdcSetChannel s (findLsbSet sequence.channels - 1) with
          buffer := sequence.buffer } sequence := by
  rw [adcWchRead] at haccept ⊢
  dsimp only at haccept ⊢
  by_cases hchannels : bit (findLsbSet sequence.channels - 1) < sequence.channels
  · rw [if_pos hchannels] at haccept
    have herr : -enotsup ≠ 0 := by decide
    exact absurd haccept herr
  · rw [if_neg hchannels] at haccept ⊢
    by_cases hsize : checkBufferSize sequence = 0
    · rw [if_neg (not_not.mpr hsize)]
      exact ⟨hchannels, hsize, rfl⟩
    · rw [if_pos hsize] at haccept
      exact absurd haccept hsize

/-- The number of samplings of a sequence. -/
def AdcSequence.samplings (sequence : AdcSequence) : ℕ :=
  match sequence.options with
  | some options => options.extraSamplings.toNat + 1
  | none => 1

lemma size_accepted_iff (size needed : BitVec 32) :
    (if size < needed then -enomem else 0) = 0 ↔ needed.toNat ≤ size.toNat := by
  by_cases hsmall : size < needed
  · rw [if_pos hsmall]
    exact iff_of_false (by decide) (not_le.mpr (BitVec.lt_def.mp hsmall))
  · rw [if_neg hsmall]
    exact iff_of_true rfl (not_lt.mp (BitVec.lt_def.not.mp hsmall))

/-- The needed size is computed without wrapping around. -/
lemma checkBufferSize_iff (sequence : AdcSequence) :
    checkBufferSize sequence = 0 ↔ 2 * sequence.samplings ≤ sequence.bufferSize.toNat := by
  rw [checkBufferSize, AdcSequence.samplings]
  cases sequence.options with
  | none => exact size_accepted_iff _ _
  | some options =>
    have hbound := options.extraSamplings.isLt
    have hone : (1 : BitVec 32).toNat = 1 := rfl
    have htwo : (2 : BitVec 32).toNat = 2 := rfl
    have hneeded : (2 * (1 + options.extraSamplings.setWidth 32) : BitVec 32).toNat =
        2 * (options.extraSamplings.toNat + 1) := by
      rw [BitVec.toNat_mul, BitVec.toNat_add, BitVec.toNat_setWidth, hone, htwo]
      omega
    rw [← hneeded]
    exact size_accepted_iff _ _

/-- The buffer has room for every slot of an accepted read. -/
lemma room_of_accepted {s : Adc} (hopts : sequence.options = some opts)
    (haccept : (adcWchRead s sequence).2 = 0) :
    2 * (opts.extraSamplings.toNat + 1) ≤ sequence.bufferSize.toNat := by
  obtain ⟨-, hsize, -⟩ := read_accepted haccept
  rw [checkBufferSize_iff, AdcSequence.samplings, hopts] at hsize
  exact hsize

/-- An accepted read starts with no slot filled. -/
lemma inBuffer_read {s : Adc} (hopts : sequence.options = some opts)
    (haccept : (adcWchRead s sequence).2 = 0) :
    InBuffer sequence opts s.memory (adcWchRead s sequence).1 Slots.empty := by
  obtain ⟨-, -, hstart⟩ := read_accepted haccept
  rw [hstart, adcContextStartRead, hopts]
  refine
    { hasOptions := ?_, options := rfl, buffer := ?_, index_le := Nat.zero_le _, status := rfl
      filled := rfl, outside := fun _ _ => rfl, current := fun _ hv => nomatch hv
      goesOn := fun _ => ⟨rfl, rfl, Bool.false_ne_true.symm⟩
      done := fun hfalse => absurd hfalse Bool.false_ne_true }
  · show sequence.options.isSome = true
    rw [hopts, Option.isSome_some]
  · show sequence.buffer = sequence.buffer + 2 * ((0 : ℕ) : ℤ)
    omega

/-- After an accepted read and any run of events the sequence is in its buffer. The
read is one step because an idle converter does not interrupt it; whatever state
it leaves behind from before is covered. -/
theorem read_stays_in_buffer (s : Adc) (sequence : AdcSequence) (opts : AdcSequenceOptions)
    (es : List Event) (hopts : sequence.options = some opts)
    (haccept : (adcWchRead s sequence).2 = 0) :
    let started := (adcWchRead s sequence).1
    let s' := run step started es
    let x := Slots.empty.addAll opts.extraSamplings.toNat (conversions opts started es)
    InBuffer sequence opts s.memory s' x ∧
      s'.slot sequence + 2 ≤ sequence.buffer + sequence.bufferSize.toNat ∧
      (∀ e, NextEvent sequence opts s' e) ∧
      ∀ es', loadHalves (run step s' es').memory sequence.buffer x.filled.length = x.filled := by
  intro started s' x
  have hbuffer : InBuffer sequence opts s.memory s' x :=
    (inBuffer_read hopts haccept).events es
  have hroom := room_of_accepted hopts haccept
  refine ⟨hbuffer, ?_, hbuffer.nextEvent, hbuffer.kept⟩
  have hindex := hbuffer.index_le
  rw [Adc.slot]
  omega

/-- Two samplings, the first one repeated once. -/
theorem two_samplings_stay_in_buffer :
    let s : Adc := ⟨3, ⟨0, ⟨none, 0, 0, 0⟩, ⟨false, 0⟩, 0⟩, 0, 0, 0, false, false, 0, false, 0,
      false, fun _ => 0⟩
    let sequence : AdcSequence := ⟨some ⟨true, 1⟩, 4, 0x20000000, 4⟩
    let es : List Event := [.endOfConversion 500, .interrupt .repeat, .endOfConversion 600,
      .interrupt .continue, .endOfConversion 700, .interrupt .continue]
    let s' := run step (adcWchRead s sequence).1 es
    s'.ctx.status = 0 ∧ loadHalves s'.memory 0x20000000 2 = [603, 703] := by
  intro s sequence es s'
  obtain ⟨hbuffer, -, -, -⟩ := read_stays_in_buffer s sequence ⟨true, 1⟩ es rfl (by decide +kernel)
  have hslots : Slots.empty.addAll 1 (conversions ⟨true, 1⟩ (adcWchRead s sequence).1 es) =
      ⟨[603, 703], none, true⟩ := by decide +kernel
  have hx : (1 : BitVec 16).toNat = 1 := rfl
  dsimp only at hbuffer
  rw [hx, hslots] at hbuffer
  exact ⟨hbuffer.status, hbuffer.filled⟩

end Runs

end WchIotSdk.AdcSampling
