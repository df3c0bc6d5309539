import WchIotSdk.EventRuns
import WchIotSdk.PmpRefinement

/-!
# Requests for dynamic entries: result and atomicity

Whatever calls were made on a context, under whatever number of static entries,
its dynamic entries from the first one open to requests are in use up to some
entry and free from there on. A request is to fail as documented and to change
nothing, or to place its entries in free dynamic ones. It does where it fails the
check of its arguments or finds room; without room it returns 0.
-/
namespace WchIotSdk.Pmp
open EventRuns

section Full

variable {δ : Type} {cfg : PmpConfig} {put : δ → ℤ → Byte → Word → δ} {r : RiscvPmpRegion}

/-- A region that does not fit before the end of the table is not translated. -/
lemma riscvPmpRegionTranslate_full {i : ℕ} (hi : cfg.slots < i + r.entries.length) (d : δ) :
    riscvPmpRegionTranslate cfg put i r d = (d, -28) := by
  rw [riscvPmpRegionTranslate]
  unfold RiscvPmpRegion.entries at hi
  by_cases hwhole : r.start = 0 ∧ r.size = 0
  · simp only [if_pos hwhole, List.length_singleton] at hi ⊢
    rw [if_pos (by omega)]
  · by_cases hmode : r.mode = .tor
    · simp only [if_neg hwhole, if_pos hmode, List.length_cons, List.length_nil] at hi ⊢
      rw [if_pos (by omega)]
    · simp only [if_neg hwhole, if_neg hmode, List.length_singleton] at hi ⊢
      rw [if_pos (by omega)]

/-- Fitting or not, a translation into a context leaves the other entries alone. -/
lemma translate_context_keeps (cfg : PmpConfig) (r : RiscvPmpRegion) (i : ℕ) (pmp : KPmp) :
    ∀ j < cfg.slots, j < i ∨ i + r.entries.length ≤ j →
      contextTable (riscvPmpRegionTranslate cfg putContext i r pmp).1 j = contextTable pmp j := by
  by_cases hfit : i + r.entries.length ≤ cfg.slots
  · exact (riscvPmpRegionTranslate_spec (putsEntry_context cfg) r hfit pmp).2.2
  · intro j _ _
    rw [riscvPmpRegionTranslate_full (by omega)]

end Full

section History

/-- The calls that change a context. The stack is the one the context describes
at the time of the call; the static entries are those configured by then. -/
inductive ContextCall where
  | init
  | initUserAccesses (stackStart stackSize : Word)
  | addDynamic (st : PmpState) (request : DynamicRequest)

def ContextCall.apply (cfg : PmpConfig) (pmp : KPmp) : ContextCall → KPmp
  | .init => zRiscvPmpInit cfg pmp
  | .initUserAccesses stackStart stackSize =>
    zRiscvInitUserAccesses cfg { pmp with stackStart := stackStart, stackSize := stackSize }
  | .addDynamic st request =>
    (zRiscvPmpAddDynamic cfg st pmp request.addr request.size request.flags).1

/-- The context after its initialisation and the given calls. -/
def contextAfter (cfg : PmpConfig) (pmp : KPmp) (calls : List ContextCall) : KPmp :=
  run (ContextCall.apply cfg) (zRiscvPmpInit cfg pmp) calls

/-- Among the entries open to requests a free one is followed by free ones only. -/
def TailFree (cfg : PmpConfig) (pmp : KPmp) : Prop :=
  ∀ j k, firstDynamic cfg ≤ j → j ≤ k → k < cfg.slots → pmp.uPmpcfg j = 0 → pmp.uPmpcfg k = 0

variable {cfg : PmpConfig} {st : PmpState} {pmp : KPmp}

lemma tailFree_init (cfg : PmpConfig) (pmp : KPmp) : TailFree cfg (zRiscvPmpInit cfg pmp) := by
  have hdvd := cfg.slots_dvd
  intro j k _ _ hk _
  rw [zRiscvPmpInit]
  exact if_pos (by omega)

/-- The entries of the stack lie before those open to requests. -/
lemma TailFree.initUserAccesses (h : TailFree cfg pmp) (stackStart stackSize : Word) :
    TailFree cfg (zRiscvInitUserAccesses cfg
      { pmp with stackStart := stackStart, stackSize := stackSize }) := by
  rw [zRiscvInitUserAccesses, riscvPmpRegionsTranslate]
  generalize hctx : ({ pmp with stackStart := stackStart, stackSize := stackSize } : KPmp) = ctx
  have hcfg : ctx.uPmpcfg = pmp.uPmpcfg := by rw [← hctx]
  have hslots := slots_ge cfg
  have hused := pmpUsedEntryDefault_le cfg
  have hlen := entries_length_le (stackRegion cfg ctx)
  have hmode : (stackRegion cfg ctx).mode = pmpModeDefault cfg := rfl
  rw [hmode, ← pmpUsedEntryDefault_eq] at hlen
  by_cases hempty : (stackRegion cfg ctx).Empty
  · rw [if_pos hempty, riscvPmpRegionsTranslate]
    intro j k
    rw [hcfg]
    exact h j k
  · obtain ⟨hnext, -, -⟩ := riscvPmpRegionTranslate_spec (putsEntry_context cfg)
      (stackRegion cfg ctx) (i := 0) (by omega) ctx
    have hkeep : ∀ j < cfg.slots, firstDynamic cfg ≤ j →
        (riscvPmpRegionTranslate cfg putContext 0 (stackRegion cfg ctx) ctx).1.uPmpcfg j =
          pmp.uPmpcfg j := by
      intro j hj hfirst
      rw [firstDynamic] at hfirst
      rw [← hcfg]
      exact congrArg PmpEntry.cfg
        (translate_context_keeps cfg (stackRegion cfg ctx) 0 ctx j hj (Or.inr (by omega)))
    rw [Nat.cast_zero] at hnext
    simp only [if_neg hempty, hnext]
    rw [if_neg (by omega)]
    intro j k hj hjk hk hzero
    rw [riscvPmpRegionsTranslate] at hzero ⊢
    rw [hkeep j (by omega) hj] at hzero
    rw [hkeep k hk (by omega)]
    exact h j k hj hjk hk hzero

/-- A request finds the entries before its own in use, and so does the next one. -/
lemma TailFree.addDynamic (h : TailFree cfg pmp) (st : PmpState) (r : DynamicRequest) :
    TailFree cfg (zRiscvPmpAddDynamic cfg st pmp r.addr r.size r.flags).1 := by
  by_cases haligned : r.Aligned
  · rw [add_aligned haligned]
    obtain ⟨-, -, hused, -⟩ := nextFree_spec pmp.uPmpcfg (firstDynamic cfg)
      (maxDynamicRegion cfg st + 1 - firstDynamic cfg)
    generalize nextFree pmp.uPmpcfg (firstDynamic cfg)
      (maxDynamicRegion cfg st + 1 - firstDynamic cfg) = i at *
    have hkeep := translate_context_keeps cfg (r.region cfg) i pmp
    by_cases hfit : i + (r.region cfg).entries.length ≤ cfg.slots
    · have hhas := (riscvPmpRegionTranslate_spec (putsEntry_context cfg) (r.region cfg) hfit pmp).2.1
      exact tail_put h hused hhas hkeep
    · rw [riscvPmpRegionTranslate_full (by omega)]
      exact h
  · rw [add_unaligned haligned]
    exact h

/-- The invariant of every context. -/
theorem tailFree_contextAfter (cfg : PmpConfig) (pmp : KPmp) (calls : List ContextCall) :
    TailFree cfg (contextAfter cfg pmp calls) := by
  apply run_preserves _ (tailFree_init cfg pmp)
  intro pmp call h
  cases call with
  | init => exact tailFree_init cfg pmp
  | initUserAccesses stackStart stackSize => exact h.initUserAccesses stackStart stackSize
  | addDynamic st request => exact h.addDynamic st request

end History

section Requests

variable {cfg : PmpConfig} {st : PmpState} {pmp : KPmp} {r : DynamicRequest}

/-- The number of dynamic entries, 0 to `max_dynamic_region()`. -/
def dynamicSlots (cfg : PmpConfig) (st : PmpState) : ℕ :=
  cfg.slots - st.staticRegionsNum - st.mprvRegionsNum

/-- The entries that a request needs. -/
def DynamicRequest.slotsNeeded (cfg : PmpConfig) (r : DynamicRequest) : ℕ :=
  if r.size = 4 then 1 else pmpUsedEntryDefault cfg

/-- `n` dynamic entries from `i` on are free. -/
def FreeRun (cfg : PmpConfig) (st : PmpState) (pmp : KPmp) (i n : ℕ) : Prop :=
  i + n ≤ dynamicSlots cfg st ∧ ∀ k < n, pmp.uPmpcfg (i + k) = 0

instance (i n : ℕ) : Decidable (FreeRun cfg st pmp i n) := inferInstanceAs (Decidable (_ ∧ _))

/-- `n` adjacent dynamic entries are free, not before `first`. -/
def FreeSlots (cfg : PmpConfig) (st : PmpState) (pmp : KPmp) (first n : ℕ) : Prop :=
  ∃ i < cfg.slots, first ≤ i ∧ FreeRun cfg st pmp i n

instance (first n : ℕ) : Decidable (FreeSlots cfg st pmp first n) := by
  unfold FreeSlots
  infer_instance

/-- What `z_riscv_pmp_add_dynamic` is to return, and to make of the context. -/
structure AddDynamicSpec (cfg : PmpConfig) (st : PmpState) (pmp : KPmp) (r : DynamicRequest)
    (pmp' : KPmp) (result : ℤ) : Prop where
  invalid : ¬ r.Aligned → result = -22 ∧ pmp' = pmp
  noSpace : r.Aligned → ¬ FreeSlots cfg st pmp 0 (r.slotsNeeded cfg) → result = -28 ∧ pmp' = pmp
  added : r.Aligned → FreeSlots cfg st pmp 0 (r.slotsNeeded cfg) →
    result = 0 ∧ ∃ i, FreeRun cfg st pmp i (r.slotsNeeded cfg) ∧
      (contextTable pmp').Has i (r.region cfg).entries ∧
      ∀ j < cfg.slots, j < i ∨ i + r.slotsNeeded cfg ≤ j →
        contextTable pmp' j = contextTable pmp j
  inUse : ∀ j < cfg.slots, pmp.uPmpcfg j ≠ 0 → contextTable pmp' j = contextTable pmp j

lemma entries_length_region (cfg : PmpConfig) (h : r.Aligned) :
    (r.region cfg).entries.length = r.slotsNeeded cfg := by
  have hwhole : ¬ ((r.region cfg).start = 0 ∧ (r.region cfg).size = 0) := fun hw => h.2.2 hw.2
  rw [RiscvPmpRegion.entries, if_neg hwhole, DynamicRequest.slotsNeeded, pmpUsedEntryDefault_eq,
    DynamicRequest.region]
  by_cases hword : r.size = 4
  · simp only [if_pos hword]
    rfl
  · simp only [if_neg hword]
    split <;> rfl

lemma slotsNeeded_pos (cfg : PmpConfig) (h : r.Aligned) : 0 < r.slotsNeeded cfg := by
  rw [← entries_length_region cfg h]
  exact entries_length_pos _

lemma maxDynamicRegion_succ (h : 0 < dynamicSlots cfg st) :
    maxDynamicRegion cfg st + 1 = dynamicSlots cfg st := by
  unfold dynamicSlots at *
  have hroom : st.Room cfg := by
    unfold PmpState.Room
    omega
  have hmax := maxDynamicRegion_eq hroom
  omega

/-- The entry at which the search for a free one ends. -/
def foundSlot (cfg : PmpConfig) (st : PmpState) (pmp : KPmp) : ℕ :=
  nextFree pmp.uPmpcfg (firstDynamic cfg) (maxDynamicRegion cfg st + 1 - firstDynamic cfg)

/-- What the search finds is free as far as it reaches. -/
lemma freeRun_foundSlot (htail : TailFree cfg pmp) {n : ℕ} (hn : 0 < n)
    (h : foundSlot cfg st pmp + n ≤ dynamicSlots cfg st) :
    FreeRun cfg st pmp (foundSlot cfg st pmp) n := by
  obtain ⟨hge, -, -, hfree⟩ := nextFree_spec pmp.uPmpcfg (firstDynamic cfg)
    (maxDynamicRegion cfg st + 1 - firstDynamic cfg)
  rw [← foundSlot] at hge hfree
  have hmax := maxDynamicRegion_succ (show 0 < dynamicSlots cfg st by omega)
  have hslots : dynamicSlots cfg st ≤ cfg.slots := by
    unfold dynamicSlots
    omega
  refine ⟨h, ?_⟩
  intro k hk
  exact htail _ _ hge (by omega) (by omega) (hfree (by omega))

/-- The search for a free entry finds the free ones there are. -/
lemma freeSlots_iff (htail : TailFree cfg pmp) {n : ℕ} (hn : 0 < n) :
    FreeSlots cfg st pmp (firstDynamic cfg) n ↔
      foundSlot cfg st pmp + n ≤ dynamicSlots cfg st := by
  obtain ⟨hge, -, hused, -⟩ := nextFree_spec pmp.uPmpcfg (firstDynamic cfg)
    (maxDynamicRegion cfg st + 1 - firstDynamic cfg)
  rw [← foundSlot] at hge hused
  constructor
  · intro h
    obtain ⟨i, -, hfirst, hroom, hzero⟩ := h
    have hle : foundSlot cfg st pmp ≤ i := by
      by_contra hlt
      exact hused i hfirst (by omega) (hzero 0 hn)
    omega
  · intro h
    have hslots : dynamicSlots cfg st ≤ cfg.slots := by
      unfold dynamicSlots
      omega
    exact ⟨foundSlot cfg st pmp, by omega, hge, freeRun_foundSlot htail hn h⟩

/-- A request that is done as documented was placed where the search ended. -/
lemma AddDynamicSpec.freeSlots (htail : TailFree cfg pmp) (haligned : r.Aligned)
    (h : AddDynamicSpec cfg st pmp r
      (riscvPmpRegionTranslate cfg putContext (foundSlot cfg st pmp) (r.region cfg) pmp).1 0) :
    FreeSlots cfg st pmp (firstDynamic cfg) (r.slotsNeeded cfg) := by
  have hneeded := slotsNeeded_pos cfg haligned
  have hlen := entries_length_region cfg haligned
  have hkeep := translate_context_keeps cfg (r.region cfg) (foundSlot cfg st pmp) pmp
  have hslots : dynamicSlots cfg st ≤ cfg.slots := by
    unfold dynamicSlots
    omega
  by_cases havail : FreeSlots cfg st pmp 0 (r.slotsNeeded cfg)
  · obtain ⟨-, i, ⟨hroom, hzero⟩, hhas, -⟩ := h.added haligned havail
    rw [freeSlots_iff htail hneeded]
    -- Otherwise the search ended behind the entries that hold the region now.
    by_contra hfull
    have hfirst := hhas 0 (by omega)
    have hsame := hkeep i (by omega) (Or.inl (by omega))
    have hne := entries_cfg_ne_zero _ _ (List.get_mem (r.region cfg).entries ⟨0, by omega⟩)
    rw [← hfirst, Nat.add_zero, hsame] at hne
    exact hne (hzero 0 hneeded)
  · have hresult := (h.noSpace haligned havail).1
    norm_num at hresult

lemma addDynamicSpec_of_freeSlots (htail : TailFree cfg pmp) (haligned : r.Aligned)
    (h : FreeSlots cfg st pmp (firstDynamic cfg) (r.slotsNeeded cfg)) :
    AddDynamicSpec cfg st pmp r
      (riscvPmpRegionTranslate cfg putContext (foundSlot cfg st pmp) (r.region cfg) pmp).1 0 := by
  have hneeded := slotsNeeded_pos cfg haligned
  have hlen := entries_length_region cfg haligned
  have hrun := freeRun_foundSlot htail hneeded ((freeSlots_iff htail hneeded).mp h)
  have hfit : foundSlot cfg st pmp + (r.region cfg).entries.length ≤ cfg.slots := by
    have hroom := hrun.1
    unfold dynamicSlots at hroom
    omega
  obtain ⟨-, hhas, hkeep⟩ := riscvPmpRegionTranslate_spec (putsEntry_context cfg)
    (r.region cfg) hfit pmp
  rw [hlen] at hkeep
  constructor
  · intro hunaligned
    exact absurd haligned hunaligned
  · intro _ hnone
    obtain ⟨i, hi, -, hfree⟩ := h
    exact absurd ⟨i, hi, Nat.zero_le i, hfree⟩ hnone
  · intro _ _
    exact ⟨rfl, foundSlot cfg st pmp, hrun, hhas, hkeep⟩
  · intro j hj hused
    apply hkeep j hj
    by_contra hin
    obtain ⟨k, hk⟩ := Nat.exists_eq_add_of_le (show foundSlot cfg st pmp ≤ j by omega)
    rw [hk] at hused
    exact hused (hrun.2 k (by omega))

/-- In a context built by any calls, under any number of static entries, a
request does what is documented exactly where it fails the check of its
arguments or the entries it needs are free from the first one open to requests
on. -/
theorem add_dynamic_spec_iff (cfg : PmpConfig) (st : PmpState) (pmp : KPmp)
    (calls : List ContextCall) (r : DynamicRequest) :
    AddDynamicSpec cfg st (contextAfter cfg pmp calls) r
        (zRiscvPmpAddDynamic cfg st (contextAfter cfg pmp calls) r.addr r.size r.flags).1
        (zRiscvPmpAddDynamic cfg st (contextAfter cfg pmp calls) r.addr r.size r.flags).2 ↔
      ¬ r.Aligned ∨
        FreeSlots cfg st (contextAfter cfg pmp calls) (firstDynamic cfg) (r.slotsNeeded cfg) := by
  have htail := tailFree_contextAfter cfg pmp calls
  by_cases haligned : r.Aligned
  · rw [add_aligned haligned]
    constructor
    · intro h
      exact Or.inr (h.freeSlots htail haligned)
    · intro h
      exact addDynamicSpec_of_freeSlots htail haligned (h.resolve_left (not_not.mpr haligned))
  · rw [add_unaligned haligned]
    apply iff_of_true _ (Or.inl haligned)
    exact ⟨fun _ => ⟨rfl, rfl⟩, fun h => absurd h haligned, fun h => absurd h haligned,
      fun _ _ _ => rfl⟩

/-- The second of two ranges finds one dynamic entry before the static ones: it
is to fail, returns 0 and changes an entry that is not dynamic. -/
theorem second_range_not_refused :
    ¬ AddDynamicSpec torConfig (bootState torConfig)
      (contextAfter torConfig threadPmp [.initUserAccesses 0x20000000 0x1000,
        .addDynamic (bootState torConfig) ⟨0x20001000, 0x100, pmpR ||| pmpW⟩])
      ⟨0x20002000, 0x100, pmpR ||| pmpW⟩
      (zRiscvPmpAddDynamic torConfig (bootState torConfig)
        (contextAfter torConfig threadPmp [.initUserAccesses 0x20000000 0x1000,
          .addDynamic (bootState torConfig) ⟨0x20001000, 0x100, pmpR ||| pmpW⟩])
        0x20002000 0x100 (pmpR ||| pmpW)).1
      (zRiscvPmpAddDynamic torConfig (bootState torConfig)
        (contextAfter torConfig threadPmp [.initUserAccesses 0x20000000 0x1000,
          .addDynamic (bootState torConfig) ⟨0x20001000, 0x100, pmpR ||| pmpW⟩])
        0x20002000 0x100 (pmpR ||| pmpW)).2 := by
  intro h
  have hresult := (h.noSpace (by decide) (by decide +kernel)).1
  revert hresult
  decide +kernel

end Requests

end WchIotSdk.Pmp
