import Mathlib.Tactic
import Mathlib.Data.BitVec

/-!
# Initializing the devices

The linker gathers the init entries of the levels KERNEL, DRIVER and APPLICATION in
one table. `sys_init` calls the init function of each entry and marks the state of the
entry's device, through the pointer to the state that the device has.

What an init function returns is part of its entry. A device without a state has a
null pointer; to follow it has no result.
-/
namespace WchIotSdk.DeviceInit

variable {ι σ : Type*}

structure DeviceState where
  initResult : BitVec 32
  isInitialized : Bool
  deriving DecidableEq, Repr

/-- `struct device`, with the pointer to its state. -/
structure Device (σ : Type*) where
  sta : Option σ
  deriving DecidableEq, Repr

/-- `struct init_entry`, with the code that its function returns. -/
structure InitEntry (ι σ : Type*) where
  init : ι
  dev : Option (Device σ)
  rc : BitVec 32
  deriving DecidableEq, Repr

/-- The state that an entry's device points to. -/
def InitEntry.sta (e : InitEntry ι σ) : Option σ := e.dev.bind Device.sta

/-- The table, level by level. No two devices share a state. -/
structure InitTable (ι σ : Type*) where
  kernel : List (InitEntry ι σ)
  driver : List (InitEntry ι σ)
  application : List (InitEntry ι σ)
  sta_nodup : ((kernel ++ driver ++ application).filterMap InitEntry.sta).Nodup

def InitTable.entries (t : InitTable ι σ) : List (InitEntry ι σ) :=
  t.kernel ++ t.driver ++ t.application

/-- The calls so far, and the states. -/
structure Boot (ι σ : Type*) where
  calls : List (InitEntry ι σ)
  states : σ → DeviceState

section Code

variable [DecidableEq σ]

/-- `init_result` for a code that is not 0. -/
def clamp (rc : BitVec 32) : BitVec 32 :=
  let rc := if rc.toInt < 0 then -rc else rc
  if rc.toInt > 255 then 255 else rc

/-- `dev->sta->init_result` and `dev->sta->is_initialized`. -/
def markInitialized (rc : BitVec 32) (sta : DeviceState) : DeviceState :=
  let sta := if rc ≠ 0 then { sta with initResult := clamp rc } else sta
  { sta with isInitialized := true }

def runEntry (s : Boot ι σ) (entry : InitEntry ι σ) : Option (Boot ι σ) :=
  let s := { s with calls := s.calls ++ [entry] }
  match entry.dev with
  | none => some s
  | some dev =>
    match dev.sta with
    | none => none
    | some sta =>
      some { s with states := Function.update s.states sta (markInitialized entry.rc (s.states sta)) }

/-- The loop, with the entries that are left. -/
def runEntries (s : Boot ι σ) : List (InitEntry ι σ) → Option (Boot ι σ)
  | [] => some s
  | entry :: entries => (runEntry s entry).bind fun s => runEntries s entries

/-- The start symbols of the levels, and the end marker. -/
def InitTable.levels (t : InitTable ι σ) : List ℕ :=
  [0, t.kernel.length, t.kernel.length + t.driver.length, t.entries.length]

def zSysInitRunLevel (t : InitTable ι σ) (level : ℕ) (s : Boot ι σ) : Option (Boot ι σ) :=
  let start := t.levels.getD level 0
  let stop := t.levels.getD (level + 1) 0
  runEntries s ((t.entries.drop start).take (stop - start))

def bssZero (s : Boot ι σ) : Boot ι σ := { s with states := fun _ => ⟨0, false⟩ }

def sysInit (t : InitTable ι σ) (s : Boot ι σ) : Option (Boot ι σ) :=
  let s := bssZero s
  (zSysInitRunLevel t 0 s).bind fun s =>
    (zSysInitRunLevel t 1 s).bind fun s => zSysInitRunLevel t 2 s

def deviceIsReady (states : σ → DeviceState) (dev : Device σ) : Option Bool :=
  dev.sta.map fun sta => (states sta).isInitialized && (states sta).initResult = 0

end Code

/-- What `sys_init` promises: every entry's function is called once, in order, and a
device is ready if its function returned 0, with the code cut to 255 if not. -/
structure Initialized (t : InitTable ι σ) (s s' : Boot ι σ) : Prop where
  calls : s'.calls = s.calls ++ t.entries
  ready : ∀ e ∈ t.entries, ∀ dev ∈ e.dev,
    ∃ ready, deviceIsReady s'.states dev = some ready ∧ (ready = true ↔ e.rc = 0)
  result : ∀ e ∈ t.entries, ∀ sta ∈ e.sta, e.rc ≠ 0 →
    (s'.states sta).initResult.toInt = min |e.rc.toInt| 255

/-- Every device has a state, and no function of a device returns the least integer. -/
def Bootable (t : InitTable ι σ) : Prop :=
  ∀ e ∈ t.entries, ∀ dev ∈ e.dev, dev.sta.isSome ∧ e.rc ≠ BitVec.intMin 32

section Runs

variable [DecidableEq σ] {s s' : Boot ι σ} {es es' : List (InitEntry ι σ)} {e : InitEntry ι σ}

lemma runEntries_append (s : Boot ι σ) (es es' : List (InitEntry ι σ)) :
    runEntries s (es ++ es') = (runEntries s es).bind fun s => runEntries s es' := by
  induction es generalizing s with
  | nil => rfl
  | cons e es ih =>
    rw [List.cons_append, runEntries, runEntries]
    cases runEntry s e with
    | none => rfl
    | some s => exact ih s

section Levels

variable (t : InitTable ι σ) (s : Boot ι σ)

omit [DecidableEq σ] in
lemma length_entries :
    t.entries.length = t.kernel.length + t.driver.length + t.application.length := by
  rw [InitTable.entries, List.length_append, List.length_append]

lemma runLevel_kernel : zSysInitRunLevel t 0 s = runEntries s t.kernel := by
  show runEntries s ((t.entries.drop 0).take (t.kernel.length - 0)) = _
  rw [List.drop_zero, Nat.sub_zero, InitTable.entries, List.append_assoc, List.take_left' rfl]

lemma runLevel_driver : zSysInitRunLevel t 1 s = runEntries s t.driver := by
  show runEntries s ((t.entries.drop t.kernel.length).take
    (t.kernel.length + t.driver.length - t.kernel.length)) = _
  rw [Nat.add_sub_cancel_left, InitTable.entries, List.append_assoc, List.drop_left' rfl,
    List.take_left' rfl]

lemma runLevel_application : zSysInitRunLevel t 2 s = runEntries s t.application := by
  show runEntries s ((t.entries.drop (t.kernel.length + t.driver.length)).take
    (t.entries.length - (t.kernel.length + t.driver.length))) = _
  rw [length_entries, Nat.add_sub_cancel_left, InitTable.entries,
    List.drop_left' List.length_append, List.take_length]

/-- The levels one after another are the whole table. -/
theorem sysInit_eq : sysInit t s = runEntries (bssZero s) t.entries := by
  rw [InitTable.entries, List.append_assoc, runEntries_append, sysInit, runLevel_kernel]
  congr 1
  funext s
  rw [runEntries_append, runLevel_driver]
  congr 1
  funext s
  exact runLevel_application t s

end Levels

/-- The states with the one of an entry's device marked. -/
def markEntry (states : σ → DeviceState) (e : InitEntry ι σ) : σ → DeviceState :=
  match e.sta with
  | none => states
  | some sta => Function.update states sta (markInitialized e.rc (states sta))

lemma runEntry_eq (s : Boot ι σ) (h : ∀ dev ∈ e.dev, dev.sta.isSome) :
    runEntry s e = some ⟨s.calls ++ [e], markEntry s.states e⟩ := by
  obtain ⟨init, dev, rc⟩ := e
  cases dev with
  | none => rfl
  | some dev =>
    obtain ⟨sta⟩ := dev
    cases sta with
    | none => cases h _ rfl
    | some sta => rfl

lemma runEntry_none (s : Boot ι σ) {dev : Device σ} (hdev : e.dev = some dev)
    (hsta : dev.sta = none) : runEntry s e = none := by
  simp only [runEntry, hdev, hsta]

lemma runEntries_eq (s : Boot ι σ) (h : ∀ e ∈ es, ∀ dev ∈ e.dev, dev.sta.isSome) :
    runEntries s es = some ⟨s.calls ++ es, es.foldl markEntry s.states⟩ := by
  induction es generalizing s with
  | nil => rw [List.append_nil]; rfl
  | cons e es ih =>
    rw [List.forall_mem_cons] at h
    rw [runEntries, runEntry_eq s h.1, Option.bind_some, ih _ h.2, List.append_assoc]
    rfl

/-- A device without a state in the table stops the run. -/
lemma runEntries_none (s : Boot ι σ) {dev : Device σ} (he : e ∈ es) (hdev : e.dev = some dev)
    (hsta : dev.sta = none) : runEntries s es = none := by
  induction es generalizing s with
  | nil => cases he
  | cons e' es ih =>
    rw [runEntries]
    obtain rfl | htail := List.mem_cons.mp he
    · rw [runEntry_none s hdev hsta]
      rfl
    · cases runEntry s e' with
      | none => rfl
      | some s => exact ih s htail

lemma foldl_mark_other {states : σ → DeviceState} {sta : σ} (h : ∀ e ∈ es, e.sta ≠ some sta) :
    es.foldl markEntry states sta = states sta := by
  induction es generalizing states with
  | nil => rfl
  | cons e es ih =>
    rw [List.forall_mem_cons] at h
    have hmark : markEntry states e sta = states sta := by
      rw [markEntry]
      cases hsta : e.sta with
      | none => rfl
      | some sta' =>
        have hne : sta ≠ sta' := by
          rintro rfl
          exact h.1 hsta
        exact Function.update_of_ne hne _ _
    rw [List.foldl_cons, ih h.2, hmark]

lemma foldl_mark_self {states : σ → DeviceState} {sta : σ}
    (hnodup : (es.filterMap InitEntry.sta).Nodup) (he : e ∈ es) (hsta : e.sta = some sta) :
    es.foldl markEntry states sta = markInitialized e.rc (states sta) := by
  induction es generalizing states with
  | nil => cases he
  | cons e' es ih =>
    rw [List.foldl_cons]
    obtain rfl | htail := List.mem_cons.mp he
    · -- the entries behind it have other states
      rw [List.filterMap_cons_some hsta, List.nodup_cons, List.mem_filterMap] at hnodup
      rw [foldl_mark_other fun e he' hsta' => hnodup.1 ⟨e, he', hsta'⟩, markEntry]
      simp only [hsta, Function.update_self]
    · have hrest : (es.filterMap InitEntry.sta).Nodup ∧ e'.sta ≠ some sta := by
        cases hsta' : e'.sta with
        | none =>
          rw [List.filterMap_cons_none hsta'] at hnodup
          exact ⟨hnodup, by simp⟩
        | some sta' =>
          rw [List.filterMap_cons_some hsta', List.nodup_cons, List.mem_filterMap] at hnodup
          refine ⟨hnodup.2, ?_⟩
          rintro hsame
          exact hnodup.1 ⟨e, htail, hsta.trans hsame.symm⟩
      have hmark : markEntry states e' sta = states sta :=
        have hone : ∀ e ∈ [e'], e.sta ≠ some sta := by simpa using hrest.2
        foldl_mark_other hone
      rw [ih hrest.1 htail, hmark]

end Runs

section Codes

variable {rc : BitVec 32}

lemma toInt_clamp (hrc : rc ≠ BitVec.intMin 32) : (clamp rc).toInt = min |rc.toInt| 255 := by
  have hneg : (-rc).toInt = -rc.toInt := BitVec.toInt_neg_of_ne_intMin hrc
  have hmax : (255 : BitVec 32).toInt = 255 := rfl
  rw [clamp]
  split_ifs with h h' h'
  · rw [hneg] at h'
    rw [hmax, abs_of_neg h, min_eq_right (le_of_lt h')]
  · rw [hneg] at h' ⊢
    rw [abs_of_neg h, min_eq_left (not_lt.mp h')]
  · rw [hmax, abs_of_nonneg (not_lt.mp h), min_eq_right (le_of_lt h')]
  · rw [abs_of_nonneg (not_lt.mp h), min_eq_left (not_lt.mp h')]

/-- The least integer is its own negative and passes the test. -/
lemma clamp_intMin : clamp (BitVec.intMin 32) = BitVec.intMin 32 := by decide

lemma clamp_ne_zero (hrc : rc ≠ 0) : clamp rc ≠ 0 := by
  by_cases hmin : rc = BitVec.intMin 32
  · rw [hmin, clamp_intMin]
    decide
  · intro hzero
    have hclamp := toInt_clamp hmin
    have hint : rc.toInt ≠ 0 := fun h => hrc (BitVec.eq_of_toInt_eq h)
    have hpos : 0 < |rc.toInt| := abs_pos.mpr hint
    rw [hzero, show (0 : BitVec 32).toInt = 0 from rfl] at hclamp
    omega

lemma initResult_zero_iff (rc : BitVec 32) :
    (markInitialized rc ⟨0, false⟩).initResult = 0 ↔ rc = 0 := by
  by_cases hrc : rc = 0
  · rw [hrc]
    exact iff_of_true rfl rfl
  · rw [markInitialized, if_pos hrc]
    exact iff_of_false (clamp_ne_zero hrc) hrc

end Codes

section Spec

variable [DecidableEq σ] (t : InitTable ι σ) (s : Boot ι σ)

/-- `sys_init` ends, and has initialized every device. -/
def Correct : Prop := ∃ s', sysInit t s = some s' ∧ Initialized t s s'

variable {t s}

/-- The state of a device of the table after a run to the end. -/
lemma states_after {s' : Boot ι σ} (hrun : sysInit t s = some s')
    (hsta : ∀ e ∈ t.entries, ∀ dev ∈ e.dev, dev.sta.isSome) {e : InitEntry ι σ} {sta : σ}
    (he : e ∈ t.entries) (hdev : e.sta = some sta) :
    s'.calls = s.calls ++ t.entries ∧ s'.states sta = markInitialized e.rc ⟨0, false⟩ := by
  rw [sysInit_eq, runEntries_eq _ hsta] at hrun
  obtain rfl := Option.some_inj.mp hrun
  exact ⟨rfl, foldl_mark_self t.sta_nodup he hdev⟩

lemma correct_of_bootable (h : Bootable t) (s : Boot ι σ) : Correct t s := by
  have hsta : ∀ e ∈ t.entries, ∀ dev ∈ e.dev, dev.sta.isSome := fun e he dev hdev =>
    (h e he dev hdev).1
  have hrun : sysInit t s = some ⟨s.calls ++ t.entries,
      t.entries.foldl markEntry (bssZero s).states⟩ := by
    rw [sysInit_eq, runEntries_eq _ hsta]
    rfl
  refine ⟨_, hrun, rfl, ?_, ?_⟩
  · intro e he dev hdev
    obtain ⟨sta, hsome⟩ := Option.isSome_iff_exists.mp (hsta e he dev hdev)
    have hesta : e.sta = some sta := by rw [InitEntry.sta, hdev, Option.bind_some, hsome]
    obtain ⟨-, hstate⟩ := states_after hrun hsta he hesta
    refine ⟨(markInitialized e.rc ⟨0, false⟩).isInitialized &&
      (markInitialized e.rc ⟨0, false⟩).initResult = 0, ?_, ?_⟩
    · rw [deviceIsReady, hsome, Option.map_some, hstate]
    · have hinitialized : (markInitialized e.rc ⟨0, false⟩).isInitialized = true := rfl
      rw [hinitialized, Bool.true_and, decide_eq_true_iff]
      exact initResult_zero_iff e.rc
  · intro e he sta hesta hrc
    obtain ⟨-, hstate⟩ := states_after hrun hsta he hesta
    obtain ⟨dev, hdev, -⟩ := Option.bind_eq_some_iff.mp hesta
    rw [hstate, markInitialized, if_pos hrc]
    exact toInt_clamp (h e he dev hdev).2

lemma bootable_of_correct (h : Correct t s) : Bootable t := by
  obtain ⟨s', hrun, hinit⟩ := h
  have hsta : ∀ e ∈ t.entries, ∀ dev ∈ e.dev, dev.sta.isSome := by
    intro e he dev hdev
    cases hnone : dev.sta with
    | some sta => rfl
    | none =>
      rw [sysInit_eq, runEntries_none _ he hdev hnone] at hrun
      cases hrun
  intro e he dev hdev
  refine ⟨hsta e he dev hdev, fun hrc => ?_⟩
  obtain ⟨sta, hsome⟩ := Option.isSome_iff_exists.mp (hsta e he dev hdev)
  have hesta : e.sta = some sta := by rw [InitEntry.sta, hdev, Option.bind_some, hsome]
  have hne : e.rc ≠ 0 := by
    rw [hrc]
    decide
  have hresult := hinit.result e he sta hesta hne
  rw [(states_after hrun hsta he hesta).2, markInitialized, if_pos hne, hrc, clamp_intMin] at hresult
  exact absurd hresult (by decide)

/-- A table is initialized as promised exactly if it is bootable. -/
theorem sysInit_correct_iff (t : InitTable ι σ) (s : Boot ι σ) : Correct t s ↔ Bootable t :=
  ⟨bootable_of_correct, fun h => correct_of_bootable h s⟩

end Spec

section Rtc

/-- The entry of the system clock, whose device is declared without a state. -/
def rtcEntry (sysClockDriverInit : ι) (rc : BitVec 32) : InitEntry ι σ :=
  ⟨sysClockDriverInit, some ⟨none⟩, rc⟩

variable [DecidableEq σ]

/-- With the system clock in the table the run never ends. -/
theorem sysInit_rtc {t : InitTable ι σ} {sysClockDriverInit : ι} {rc : BitVec 32}
    (h : rtcEntry sysClockDriverInit rc ∈ t.entries) (s : Boot ι σ) : sysInit t s = none := by
  rw [sysInit_eq]
  exact runEntries_none _ h rfl rfl

/-- The init functions that every build has. -/
inductive InitFunction where
  | wchSysInit
  | sysClockDriverInit
  | wchFlashInit
  | wchEepromInit
  deriving DecidableEq, Repr

/-- The table of a build without further drivers. -/
def smallestTable : InitTable InitFunction Bool where
  kernel := [⟨.wchSysInit, none, 0⟩]
  driver := [rtcEntry .sysClockDriverInit 0, ⟨.wchEepromInit, some ⟨some false⟩, 0⟩,
    ⟨.wchFlashInit, some ⟨some true⟩, 0⟩]
  application := []
  sta_nodup := by decide

/-- The system clock is met before the flash and the EEPROM. -/
theorem smallest_not_correct :
    let s : Boot InitFunction Bool := ⟨[], fun _ => ⟨0, false⟩⟩
    sysInit smallestTable s = none ∧ ¬ Correct smallestTable s := by
  intro s
  have hmem : rtcEntry .sysClockDriverInit 0 ∈ smallestTable.entries :=
    List.mem_append_left _ (List.mem_append_right _ List.mem_cons_self)
  have hnone : sysInit smallestTable s = none := sysInit_rtc hmem s
  refine ⟨hnone, ?_⟩
  rintro ⟨s', hrun, -⟩
  rw [hnone] at hrun
  cases hrun

end Rtc

end WchIotSdk.DeviceInit
