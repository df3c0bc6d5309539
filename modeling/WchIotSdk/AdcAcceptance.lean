import WchIotSdk.AdcPolling

/-!
# Which reads are accepted

`adc_wch_read` looks at the channels, selects one, looks at the size of the buffer
and starts. What it should have looked at, and what it leaves behind when it
refuses, is compared here with what the request asks for, in both builds.
-/
namespace WchIotSdk.AdcAcceptance
open AdcSampling

/-- One of the sixteen channels is in the set and no other. -/
def OneChannel (channels : BitVec 32) : Prop := ∃ i < 16, channels = BitVec.twoPow 32 i

def SeveralChannels (channels : BitVec 32) : Prop :=
  ∃ i j, i ≠ j ∧ channels.getLsbD i = true ∧ channels.getLsbD j = true

/-- The buffer has room for every sampling. -/
def Room (sequence : AdcSequence) : Prop :=
  2 * sequence.samplings ≤ sequence.bufferSize.toNat

/-- The channel that the converter is set to for a set of channels. -/
def selected (channels : BitVec 32) : BitVec 8 :=
  (findLsbSet channels - 1).setWidth 8 &&& 0x0f

/-- A read in `s` that leaves `r` was validated before it had an effect. -/
structure Validated (s : Adc) (sequence : AdcSequence) (r : Adc × ℤ) : Prop where
  accepted : r.2 = 0 → OneChannel sequence.channels ∧ Room sequence ∧ s.ctx.status = 0
  rejected : r.2 ≠ 0 → r.1.channel = s.channel ∧ r.1.buffer = s.buffer ∧
    r.1.repeatBuffer = s.repeatBuffer ∧ r.1.ctx = s.ctx

/-- The requests that the driver handles as they should be: those with several
channels, those for the channel already selected whose buffer is too small, and the
proper ones while no sequence is in progress. -/
def Handled (s : Adc) (sequence : AdcSequence) : Prop :=
  SeveralChannels sequence.channels ∨
    (¬ Room sequence ∧ s.channel = selected sequence.channels) ∨
    (Room sequence ∧ OneChannel sequence.channels ∧ s.ctx.status = 0)

section Channels

variable {channels : BitVec 32}

/-- The bit of the lowest channel. -/
lemma bit_findLsbSet (hsome : channels ≠ 0) :
    bit (findLsbSet channels - 1) = BitVec.twoPow 32 channels.ctz.toNat := by
  have hlt : channels.ctz.toNat < 32 := BitVec.lt_def.mp (BitVec.ctz_lt_iff_ne_zero.mpr hsome)
  have hmask : channels.ctz &&& 31#32 = channels.ctz := by
    apply BitVec.eq_of_toNat_eq
    have hand : (31#32).toNat = 2 ^ 5 - 1 := rfl
    rw [BitVec.toNat_and, hand, Nat.and_two_pow_sub_one_eq_mod, Nat.mod_eq_of_lt hlt]
  rw [findLsbSet, if_neg hsome, BitVec.add_sub_cancel, bit, hmask, BitVec.twoPow_eq,
    BitVec.shiftLeft_eq']

/-- A set that is not just its lowest channel has another one: some bit differs, and a
bit that differs is set. -/
lemma several_of_ne (hsome : channels ≠ 0)
    (hne : channels ≠ BitVec.twoPow 32 channels.ctz.toNat) : SeveralChannels channels := by
  have hlt : channels.ctz.toNat < 32 := BitVec.lt_def.mp (BitVec.ctz_lt_iff_ne_zero.mpr hsome)
  have hlow : channels.getLsbD channels.ctz.toNat = true :=
    BitVec.getLsbD_true_ctz_of_ne_zero hsome
  obtain ⟨k, hk⟩ : ∃ k, channels.getLsbD k ≠
      (BitVec.twoPow 32 channels.ctz.toNat).getLsbD k := by
    by_contra hall
    push Not at hall
    exact hne (BitVec.eq_of_getLsbD_eq fun k _ => hall k)
  have hother : channels.ctz.toNat ≠ k := by
    rintro rfl
    rw [hlow, BitVec.getLsbD_twoPow, decide_eq_true hlt, decide_eq_true rfl] at hk
    exact hk rfl
  rw [BitVec.getLsbD_twoPow, decide_eq_false hother, Bool.and_false] at hk
  exact ⟨_, k, hother, hlow, Bool.eq_true_of_not_eq_false hk⟩

lemma not_several_twoPow (i : ℕ) : ¬ SeveralChannels (BitVec.twoPow 32 i) := by
  rintro ⟨j, k, hjk, hj, hk⟩
  rw [BitVec.getLsbD_twoPow, Bool.and_eq_true, decide_eq_true_eq, decide_eq_true_eq] at hj hk
  exact hjk (hj.2.symm.trans hk.2)

/-- What the check of the channels refuses. -/
lemma several_iff : bit (findLsbSet channels - 1) < channels ↔ SeveralChannels channels := by
  by_cases hsome : channels = 0
  · subst hsome
    apply iff_of_false (by decide)
    rintro ⟨i, j, -, hi, -⟩
    exact Bool.false_ne_true (BitVec.getLsbD_zero.symm.trans hi)
  · have hlt : channels.ctz.toNat < 32 :=
      BitVec.lt_def.mp (BitVec.ctz_lt_iff_ne_zero.mpr hsome)
    have hle : 2 ^ channels.ctz.toNat ≤ channels.toNat :=
      BitVec.two_pow_ctz_le_toNat_of_ne_zero hsome
    rw [bit_findLsbSet hsome, BitVec.lt_def, BitVec.toNat_twoPow_of_lt hlt]
    constructor
    · intro hmore
      apply several_of_ne hsome
      intro heq
      have hval := congrArg BitVec.toNat heq
      rw [BitVec.toNat_twoPow_of_lt hlt] at hval
      omega
    · intro hseveral
      refine lt_of_le_of_ne hle fun hval => not_several_twoPow channels.ctz.toNat ?_
      have heq : channels = BitVec.twoPow 32 channels.ctz.toNat := by
        apply BitVec.eq_of_toNat_eq
        rw [BitVec.toNat_twoPow_of_lt hlt, hval]
      rwa [← heq]

end Channels

section Reads

variable {s : Adc} {sequence : AdcSequence}

/-- A refusal for the channels comes before anything is written. -/
lemma validated_of_several (hseveral : SeveralChannels sequence.channels) :
    Validated s sequence (s, -enotsup) ∧ Handled s sequence :=
  ⟨⟨fun hzero => absurd hzero (by show -enotsup ≠ 0; decide), fun _ => ⟨rfl, rfl, rfl, rfl⟩⟩,
    Or.inl hseveral⟩

/-- A refusal for the size comes after the channel has been selected. -/
lemma validated_of_small {err : ℤ} (herr : err ≠ 0)
    (hfew : ¬ SeveralChannels sequence.channels) (hsmall : ¬ Room sequence) :
    Validated s sequence (halAdcSetChannel s (findLsbSet sequence.channels - 1), err) ↔
      Handled s sequence := by
  constructor
  · intro h
    obtain ⟨hchannel, -, -, -⟩ := h.rejected herr
    exact Or.inr (Or.inl ⟨hsmall, hchannel.symm⟩)
  · rintro (hseveral | ⟨-, hchannel⟩ | ⟨hroom, -⟩)
    · exact absurd hseveral hfew
    · exact ⟨fun hzero => absurd hzero herr, fun _ => ⟨hchannel.symm, rfl, rfl, rfl⟩⟩
    · exact absurd hroom hsmall

/-- Whatever is left of the sets of channels is accepted, busy or not. -/
lemma validated_of_accepted {s' : Adc} (hfew : ¬ SeveralChannels sequence.channels)
    (hroom : Room sequence) : Validated s sequence (s', 0) ↔ Handled s sequence := by
  constructor
  · intro h
    obtain ⟨hone, -, hidle⟩ := h.accepted rfl
    exact Or.inr (Or.inr ⟨hroom, hone, hidle⟩)
  · rintro (hseveral | ⟨hsmall, -⟩ | ⟨-, hone, hidle⟩)
    · exact absurd hseveral hfew
    · exact absurd hroom hsmall
    · exact ⟨fun _ => ⟨hone, hroom, hidle⟩, fun hne => absurd rfl hne⟩

end Reads

/-- In either build a read is validated before it has an effect exactly when it is
one of the requests that are handled. -/
theorem read_validated_iff (s : Adc) (sequence : AdcSequence) :
    (Validated s sequence (adcWchRead s sequence) ↔ Handled s sequence) ∧
      ∀ output, Validated s sequence (AdcPolling.adcWchRead s sequence output) ↔
        Handled s sequence := by
  rw [adcWchRead]
  simp only [AdcPolling.adcWchRead]
  by_cases hseveral : bit (findLsbSet sequence.channels - 1) < sequence.channels
  · obtain ⟨hvalid, hhandled⟩ := @validated_of_several s sequence (several_iff.mp hseveral)
    rw [if_pos hseveral]
    simp only [if_pos hseveral]
    exact ⟨iff_of_true hvalid hhandled, fun _ => iff_of_true hvalid hhandled⟩
  · have hfew := several_iff.not.mp hseveral
    rw [if_neg hseveral]
    simp only [if_neg hseveral]
    by_cases herr : checkBufferSize sequence = 0
    · have hroom : Room sequence := (checkBufferSize_iff sequence).mp herr
      simp only [if_neg (not_not.mpr herr)]
      exact ⟨validated_of_accepted hfew hroom, fun _ => validated_of_accepted hfew hroom⟩
    · have hsmall : ¬ Room sequence := (checkBufferSize_iff sequence).not.mp herr
      simp only [if_pos herr]
      exact ⟨validated_of_small herr hfew hsmall, fun _ => validated_of_small herr hfew hsmall⟩

/-- A request that names no channel is accepted, for channel 15, while a sequence is
in progress, which it replaces. -/
theorem empty_request_accepted :
    let s : Adc := ⟨3, ⟨1, ⟨none, 4, 0x20000000, 2⟩, ⟨false, 0⟩, 0⟩, 0x20000000, 0x20000000, 2,
      true, false, 0, false, 0, false, fun _ => 0⟩
    let sequence : AdcSequence := ⟨none, 0, 0x20000100, 2⟩
    (adcWchRead s sequence).2 = 0 ∧ (adcWchRead s sequence).1.channel = 15 ∧
      (adcWchRead s sequence).1.buffer = 0x20000100 ∧
      ¬ Validated s sequence (adcWchRead s sequence) := by
  intro s sequence
  have haccept : (adcWchRead s sequence).2 = 0 := by decide +kernel
  refine ⟨haccept, by decide +kernel, by decide +kernel, fun h => ?_⟩
  have hidle : (1 : ℤ) = 0 := (h.accepted haccept).2.2
  exact one_ne_zero hidle

-- A request that is refused for its size has moved the converter to its channel.
example :
    let s : Adc := ⟨3, ⟨1, ⟨none, 4, 0x20000000, 2⟩, ⟨false, 0⟩, 0⟩, 0x20000000, 0x20000000, 2,
      true, false, 0, false, 0, false, fun _ => 0⟩
    let sequence : AdcSequence := ⟨none, 32, 0x20000100, 1⟩
    (adcWchRead s sequence).2 = -enomem ∧ s.channel = 2 ∧
      (adcWchRead s sequence).1.channel = 5 ∧ (adcWchRead s sequence).1.ctx.status = 1 := by
  decide +kernel

end WchIotSdk.AdcAcceptance
