import WchIotSdk.EventRuns
import WchIotSdk.SysSlist
import Mathlib.Data.BitVec

/-!
# The callbacks of a GPIO port

A port has a list of callbacks. To add one it is taken out of the list first, if it
is in it, and put in front. When pins have their flags raised, every callback of
the list whose mask has one of them is run. A callback may take itself out.
-/
namespace WchIotSdk.GpioCallbacks
open EventRuns PointerChain Slist

def einval : ℤ := 22

variable {α : Type*} [DecidableEq α]

section Calls

variable (steps : ℕ) (s : SysSlist α)

def gpioManageCallback (callback : α) (set : Bool) : Option (SysSlist α × ℤ) :=
  let inserted (s : SysSlist α) := if set then sysSlistPrepend s callback else s
  if !sysSlistIsEmpty s then
    match sysSlistFindAndRemove s steps callback with
    | none => none
    | some (s, found) => if !found && !set then some (s, -einval) else some (inserted s, 0)
  else some (inserted s, 0)

/-- A call of `gpio_fire_callbacks`: the masks of the callbacks, and the handlers
that remove their own callback when they get these pins. -/
structure Interrupt (α : Type*) where
  pinMask : α → BitVec 32
  pins : BitVec 32
  leaves : α → BitVec 32 → Bool

/-- The handler of a callback, called with pins, and what its removal returned. -/
structure Invocation (α : Type*) where
  callback : α
  pins : BitVec 32
  removed : Option ℤ
  deriving DecidableEq, Repr

def Interrupt.handler (f : Interrupt α) (cb : α) (pins : BitVec 32) :
    Option (SysSlist α × Invocation α) :=
  if f.leaves cb pins then
    (gpioManageCallback steps s cb false).map fun r => (r.1, ⟨cb, pins, some r.2⟩)
  else some (s, ⟨cb, pins, none⟩)

/-- The callback after the present one is read before the handler is run. -/
def fireLoop (f : Interrupt α) :
    ℕ → SysSlist α → Option α → Option α → Option (SysSlist α × List (Invocation α))
  | 0, _, _, _ => none
  | _ + 1, s, none, _ => some (s, [])
  | n + 1, s, some cb, tmp =>
    if f.pinMask cb &&& f.pins ≠ 0 then
      match f.handler steps s cb (f.pinMask cb &&& f.pins) with
      | none => none
      | some (s, call) =>
        (fireLoop f n s tmp (sysSlistPeekNext s tmp)).map fun r => (r.1, call :: r.2)
    else fireLoop f n s tmp (sysSlistPeekNext s tmp)

def gpioFireCallbacks (f : Interrupt α) : Option (SysSlist α × List (Invocation α)) :=
  fireLoop steps f steps s (sysSlistPeekHead s) (sysSlistPeekNext s (sysSlistPeekHead s))

end Calls

inductive Event (α : Type*) where
  | manage (callback : α) (set : Bool)
  | fire (f : Interrupt α)

/-- A call that has no result leaves the list. -/
def step (steps : ℕ) (s : SysSlist α) : Event α → SysSlist α
  | .manage callback set => ((gpioManageCallback steps s callback set).map Prod.fst).getD s
  | .fire f => ((gpioFireCallbacks steps s f).map Prod.fst).getD s

/-- Following the pointers ends, and meets no callback twice. -/
def WellFormed (s : SysSlist α) : Prop := ∃ l, Holds s l ∧ l.Nodup

def Registered (s : SysSlist α) (a : α) : Prop := ∃ l, Holds s l ∧ a ∈ l

section Manage

variable {s : SysSlist α} {l : List α} {steps : ℕ} {callback : α}

omit [DecidableEq α] in
lemma wellFormed_of_holds (h : Holds s l) : WellFormed s := ⟨l, h, h.nodup⟩

omit [DecidableEq α] in
lemma registered_iff (h : Holds s l) (a : α) : Registered s a ↔ a ∈ l := by
  constructor
  · rintro ⟨l', h', ha⟩
    rwa [h.unique h']
  · intro ha
    exact ⟨l, h, ha⟩

lemma manage_empty (h : Holds s []) (set : Bool) : gpioManageCallback steps s callback set =
    some (if set then sysSlistPrepend s callback else s, 0) := by
  rw [gpioManageCallback, h.isEmpty]
  rfl

/-- What follows the search in a list with nodes. -/
lemma manage_searched {found : Bool} {s' : SysSlist α} (h : Holds s l) (hl : l ≠ []) (set : Bool)
    (hsearch : sysSlistFindAndRemove s steps callback = some (s', found)) :
    gpioManageCallback steps s callback set =
      if !found && !set then some (s', -einval)
      else some (if set then sysSlistPrepend s' callback else s', 0) := by
  rw [gpioManageCallback, h.isEmpty, List.isEmpty_eq_false_iff.mpr hl, hsearch]
  rfl

theorem manage_add (callback : α) (h : Holds s l) (hsteps : l.length < steps) :
    ∃ s', gpioManageCallback steps s callback true = some (s', 0) ∧
      Holds s' (callback :: l.erase callback) := by
  by_cases hl : l = []
  · subst hl
    exact ⟨_, manage_empty h true, prepend_holds h List.not_mem_nil⟩
  by_cases hmem : callback ∈ l
  · obtain ⟨s', hsearch, hout⟩ := findAndRemove_present h hsteps hmem
    exact ⟨_, manage_searched h hl true hsearch, prepend_holds hout h.nodup.not_mem_erase⟩
  · rw [List.erase_of_not_mem hmem]
    exact ⟨_, manage_searched h hl true (findAndRemove_absent h hsteps hmem),
      prepend_holds h hmem⟩

theorem manage_remove (h : Holds s l) (hsteps : l.length < steps) (hmem : callback ∈ l) :
    ∃ s', gpioManageCallback steps s callback false = some (s', 0) ∧
      Holds s' (l.erase callback) := by
  obtain ⟨s', hsearch, hout⟩ := findAndRemove_present h hsteps hmem
  exact ⟨s', manage_searched h (List.ne_nil_of_mem hmem) false hsearch, hout⟩

theorem manage_absent (h : Holds s l) (hsteps : l.length < steps) (hmem : callback ∉ l)
    (hl : l ≠ []) : gpioManageCallback steps s callback false = some (s, -einval) :=
  manage_searched h hl false (findAndRemove_absent h hsteps hmem)

end Manage

/-- The mask of the callback has one of the pins. -/
def Interrupt.hits (f : Interrupt α) (a : α) : Bool := f.pinMask a &&& f.pins ≠ 0

/-- The handler is run and keeps its callback, or it is not run. -/
def Interrupt.stays (f : Interrupt α) (a : α) : Bool :=
  !(f.hits a && f.leaves a (f.pinMask a &&& f.pins))

def Interrupt.invocation (f : Interrupt α) (a : α) : Invocation α :=
  ⟨a, f.pinMask a &&& f.pins,
    if f.leaves a (f.pinMask a &&& f.pins) then some 0 else none⟩

section Fire

variable {s : SysSlist α} {l kept rest : List α} {steps : ℕ} {f : Interrupt α}

/-- The handler of a callback of the list takes it out or leaves the list. -/
lemma handler_eq {a : α} (h : Holds s (kept ++ a :: rest))
    (hsteps : (kept ++ a :: rest).length < steps) :
    ∃ s', f.handler steps s a (f.pinMask a &&& f.pins) = some (s', f.invocation a) ∧
      Holds s' (if f.leaves a (f.pinMask a &&& f.pins) then kept ++ rest else kept ++ a :: rest) := by
  by_cases hleaves : f.leaves a (f.pinMask a &&& f.pins)
  · have hmem : a ∈ kept ++ a :: rest := List.mem_append_right kept List.mem_cons_self
    have hkept : a ∉ kept := by
      intro ha
      exact (List.nodup_append.mp h.nodup).2.2 a ha a List.mem_cons_self rfl
    obtain ⟨s', hcall, hout⟩ := manage_remove h hsteps hmem
    rw [List.erase_append_right _ hkept, List.erase_cons_head] at hout
    refine ⟨s', ?_, by rwa [if_pos hleaves]⟩
    rw [Interrupt.handler, if_pos hleaves, hcall, Interrupt.invocation, if_pos hleaves]
    rfl
  · refine ⟨s, ?_, by rwa [if_neg hleaves]⟩
    rw [Interrupt.handler, if_neg hleaves, Interrupt.invocation, if_neg hleaves]

lemma fireLoop_hit {n : ℕ} {a : α} {tmp : Option α} {s' : SysSlist α} {call : Invocation α}
    (hhit : f.hits a = true)
    (hhandler : f.handler steps s a (f.pinMask a &&& f.pins) = some (s', call)) :
    fireLoop steps f (n + 1) s (some a) tmp =
      (fireLoop steps f n s' tmp (sysSlistPeekNext s' tmp)).map fun r => (r.1, call :: r.2) := by
  rw [fireLoop, if_pos (of_decide_eq_true hhit), hhandler]

lemma fireLoop_miss {n : ℕ} {a : α} {tmp : Option α} (hhit : f.hits a = false) :
    fireLoop steps f (n + 1) s (some a) tmp =
      fireLoop steps f n s tmp (sysSlistPeekNext s tmp) := by
  rw [fireLoop, if_neg (of_decide_eq_false hhit)]

/-- The loop stands at the rest of the list; of the callbacks before it the ones
that stay are kept. -/
lemma fireLoop_eq {n : ℕ} (h : Holds s (kept ++ rest)) (hsteps : (kept ++ rest).length < steps)
    (hn : rest.length < n) :
    ∃ s', fireLoop steps f n s rest.head? rest.tail.head? =
        some (s', (rest.filter f.hits).map f.invocation) ∧
      Holds s' (kept ++ rest.filter f.stays) := by
  induction rest generalizing n s kept with
  | nil =>
    obtain ⟨n, rfl⟩ := Nat.exists_eq_add_of_lt hn
    exact ⟨s, rfl, h⟩
  | cons a rest ih =>
    obtain ⟨n, rfl⟩ : ∃ m, n = m + 1 := ⟨n - 1, by omega⟩
    have hrest : rest.length < n := Nat.lt_of_succ_lt_succ hn
    -- the loop from the next callback on, with the list as the handler left it
    have hgoes {s₁ : SysSlist α} {kept₁ : List α} (h₁ : Holds s₁ (kept₁ ++ rest))
        (hlen : kept₁.length ≤ kept.length + 1) :
        ∃ s', fireLoop steps f n s₁ rest.head? (sysSlistPeekNext s₁ rest.head?) =
            some (s', (rest.filter f.hits).map f.invocation) ∧
          Holds s' (kept₁ ++ rest.filter f.stays) := by
      rw [h₁.peekNext_head]
      refine ih h₁ ?_ hrest
      simp only [List.length_append, List.length_cons] at hsteps ⊢
      omega
    have hkeep : kept ++ a :: rest = (kept ++ [a]) ++ rest := by simp
    cases hhit : f.hits a with
    | false =>
      have hstays : f.stays a = true := by simp [Interrupt.stays, hhit]
      obtain ⟨s', hloop, hout⟩ := hgoes (hkeep ▸ h) (by simp)
      rw [List.filter_cons_of_neg (by simp [hhit]), List.filter_cons_of_pos hstays]
      exact ⟨s', (fireLoop_miss hhit).trans hloop, by simpa using hout⟩
    | true =>
      obtain ⟨s₁, hhandler, h₁⟩ := handler_eq (f := f) h hsteps
      rw [List.filter_cons_of_pos hhit, List.map_cons, List.head?_cons, List.tail_cons,
        fireLoop_hit hhit hhandler]
      by_cases hleaves : f.leaves a (f.pinMask a &&& f.pins)
      · have hstays : ¬ f.stays a = true := by simp [Interrupt.stays, hhit, hleaves]
        rw [if_pos hleaves] at h₁
        obtain ⟨s', hloop, hout⟩ := hgoes h₁ (Nat.le_succ _)
        rw [List.filter_cons_of_neg hstays, hloop]
        exact ⟨s', rfl, hout⟩
      · have hstays : f.stays a = true := by simp [Interrupt.stays, hleaves]
        rw [if_neg hleaves, hkeep] at h₁
        obtain ⟨s', hloop, hout⟩ := hgoes h₁ (by simp)
        rw [List.filter_cons_of_pos hstays, hloop]
        exact ⟨s', rfl, by simpa using hout⟩

theorem fire_eq (h : Holds s l) (hsteps : l.length < steps) :
    ∃ s', gpioFireCallbacks steps s f = some (s', (l.filter f.hits).map f.invocation) ∧
      Holds s' (l.filter f.stays) := by
  have hall : Holds s ([] ++ l) := h
  obtain ⟨s', hloop, hout⟩ := fireLoop_eq (f := f) hall hsteps hsteps
  rw [← hall.peekNext_head, ← h.head_eq] at hloop
  exact ⟨s', hloop, hout⟩

end Fire

/-- What adding and removing a callback promise. -/
structure Managed (s : SysSlist α) (callback : α) (set : Bool) (s' : SysSlist α) (ret : ℤ) :
    Prop where
  wellFormed : WellFormed s'
  added : set = true → ret = 0 ∧ ∀ a, Registered s' a ↔ a = callback ∨ Registered s a
  removed : set = false → Registered s callback →
    ret = 0 ∧ ∀ a, Registered s' a ↔ Registered s a ∧ a ≠ callback
  refused : set = false → ¬ Registered s callback → ret = -einval ∧ s' = s

/-- What an interrupt promises: the callbacks that the pins concern are run once. -/
structure Fired (s : SysSlist α) (f : Interrupt α) (s' : SysSlist α) (calls : List (Invocation α)) :
    Prop where
  wellFormed : WellFormed s'
  once : ∀ a, Registered s a → f.pinMask a &&& f.pins ≠ 0 →
    calls.filter (·.callback = a) = [f.invocation a]
  others : ∀ a, ¬ (Registered s a ∧ f.pinMask a &&& f.pins ≠ 0) → ∀ c ∈ calls, c.callback ≠ a
  left : ∀ a, Registered s' a ↔ Registered s a ∧ f.stays a = true

/-- The call has a result, and the result is the one promised. -/
def Correct (steps : ℕ) (s : SysSlist α) : Event α → Prop
  | .manage callback set =>
    ∃ s' ret, gpioManageCallback steps s callback set = some (s', ret) ∧
      Managed s callback set s' ret
  | .fire f => ∃ s' calls, gpioFireCallbacks steps s f = some (s', calls) ∧ Fired s f s' calls

/-- A callback is removed while the list is empty. -/
def RemovesFromEmpty (s : SysSlist α) : Event α → Prop
  | .manage _ set => set = false ∧ sysSlistIsEmpty s = true
  | .fire _ => False

instance (s : SysSlist α) : ∀ e, Decidable (RemovesFromEmpty s e)
  | .manage _ _ => inferInstanceAs (Decidable (_ ∧ _))
  | .fire _ => inferInstanceAs (Decidable False)

section Steps

variable {s s' : SysSlist α} {l l' : List α} {steps : ℕ} {callback : α} {f : Interrupt α}

lemma managed_add (h : Holds s l) (h' : Holds s' (callback :: l.erase callback)) :
    Managed s callback true s' 0 where
  wellFormed := wellFormed_of_holds h'
  added _ := by
    refine ⟨rfl, fun a => ?_⟩
    rw [registered_iff h', registered_iff h, List.mem_cons, h.nodup.mem_erase_iff]
    by_cases ha : a = callback <;> simp [ha]
  removed hset := by cases hset
  refused hset := by cases hset

lemma managed_remove (h : Holds s l) (hmem : callback ∈ l) (h' : Holds s' (l.erase callback)) :
    Managed s callback false s' 0 where
  wellFormed := wellFormed_of_holds h'
  added hset := by cases hset
  removed _ _ := by
    refine ⟨rfl, fun a => ?_⟩
    rw [registered_iff h', registered_iff h, h.nodup.mem_erase_iff, and_comm]
  refused _ hnot := absurd ((registered_iff h callback).mpr hmem) hnot

omit [DecidableEq α] in
lemma managed_absent (h : Holds s l) (hmem : callback ∉ l) :
    Managed s callback false s (-einval) where
  wellFormed := wellFormed_of_holds h
  added hset := by cases hset
  removed _ hreg := absurd ((registered_iff h callback).mp hreg) hmem
  refused _ _ := ⟨rfl, rfl⟩

lemma fired_of_holds (h : Holds s l) (h' : Holds s' (l.filter f.stays)) :
    Fired s f s' ((l.filter f.hits).map f.invocation) where
  wellFormed := wellFormed_of_holds h'
  once a hreg hhit := by
    rw [registered_iff h] at hreg
    have hmem : a ∈ l.filter f.hits := List.mem_filter.mpr ⟨hreg, decide_eq_true hhit⟩
    have hcomp : (fun c : Invocation α => decide (c.callback = a)) ∘ f.invocation = (· == a) := by
      funext b
      rfl
    rw [List.filter_map, hcomp, List.filter_beq,
      List.count_eq_one_of_mem (h.nodup.filter _) hmem]
    rfl
  others a hnot c hc := by
    rintro rfl
    obtain ⟨b, hb, rfl⟩ := List.mem_map.mp hc
    obtain ⟨hmem, hhit⟩ := List.mem_filter.mp hb
    exact hnot ⟨(registered_iff h b).mpr hmem, of_decide_eq_true hhit⟩
  left a := by rw [registered_iff h', registered_iff h, List.mem_filter]

lemma fire_correct (h : Holds s l) (hsteps : l.length < steps) : Correct steps s (.fire f) := by
  obtain ⟨s', hcall, h'⟩ := fire_eq (f := f) h hsteps
  exact ⟨s', _, hcall, fired_of_holds h h'⟩

/-- Only a removal from the empty list is not refused as it should. -/
theorem correct_iff (h : Holds s l) (hsteps : l.length < steps) (e : Event α) :
    Correct steps s e ↔ ¬ RemovesFromEmpty s e := by
  cases e with
  | fire f => exact iff_of_true (fire_correct h hsteps) not_false
  | manage callback set =>
    cases set with
    | true =>
      obtain ⟨s', hcall, h'⟩ := manage_add callback h hsteps
      refine iff_of_true ⟨s', 0, hcall, managed_add h h'⟩ ?_
      rintro ⟨hset, -⟩
      cases hset
    | false =>
      by_cases hl : l = []
      · subst hl
        refine iff_of_false ?_ (not_not.mpr ⟨rfl, h.isEmpty⟩)
        rintro ⟨s', ret, hcall, hmanaged⟩
        have hnot : ¬ Registered s callback := by
          rw [registered_iff h]
          exact List.not_mem_nil
        rw [manage_empty h false] at hcall
        cases hcall
        exact absurd (hmanaged.refused rfl hnot).1 (by decide)
      · have hempty : ¬ RemovesFromEmpty s (.manage callback false) := by
          rintro ⟨-, hnone⟩
          rw [h.isEmpty, List.isEmpty_iff] at hnone
          exact hl hnone
        refine iff_of_true ?_ hempty
        by_cases hmem : callback ∈ l
        · obtain ⟨s', hcall, h'⟩ := manage_remove h hsteps hmem
          exact ⟨s', 0, hcall, managed_remove h hmem h'⟩
        · exact ⟨s, _, manage_absent h hsteps hmem hl, managed_absent h hmem⟩

/-- Every call keeps the list a list, and adds at most one callback. -/
theorem step_holds (h : Holds s l) (hsteps : l.length < steps) (e : Event α) :
    ∃ l', Holds (step steps s e) l' ∧ l'.length ≤ l.length + 1 := by
  cases e with
  | fire f =>
    obtain ⟨s', hcall, h'⟩ := fire_eq (f := f) h hsteps
    refine ⟨_, ?_, (List.length_filter_le f.stays l).trans (Nat.le_succ _)⟩
    rwa [step, hcall]
  | manage callback set =>
    cases set with
    | true =>
      obtain ⟨s', hcall, h'⟩ := manage_add callback h hsteps
      refine ⟨_, by rwa [step, hcall], ?_⟩
      exact Nat.succ_le_succ (List.length_erase_le)
    | false =>
      by_cases hl : l = []
      · subst hl
        exact ⟨[], by rwa [step, manage_empty h], Nat.zero_le _⟩
      by_cases hmem : callback ∈ l
      · obtain ⟨s', hcall, h'⟩ := manage_remove h hsteps hmem
        exact ⟨_, by rwa [step, hcall], List.length_erase_le.trans (Nat.le_succ _)⟩
      · exact ⟨l, by rwa [step, manage_absent h hsteps hmem hl], Nat.le_succ _⟩

theorem run_holds (h : Holds s l) (es : List (Event α)) (hsteps : l.length + es.length ≤ steps) :
    ∃ l', Holds (run (step steps) s es) l' := by
  induction es generalizing s l with
  | nil => exact ⟨l, h⟩
  | cons e es ih =>
    rw [List.length_cons] at hsteps
    have hlt : l.length < steps := by omega
    obtain ⟨l', h', hlen⟩ := step_holds h hlt e
    exact ih h' (by omega)

lemma along_correct_iff (h : Holds s l) (es : List (Event α))
    (hsteps : l.length + es.length ≤ steps) :
    Along (step steps) (Correct steps) s es ↔
      Along (step steps) (fun s e => ¬ RemovesFromEmpty s e) s es := by
  induction es generalizing s l with
  | nil => exact Iff.rfl
  | cons e es ih =>
    rw [List.length_cons] at hsteps
    have hlt : l.length < steps := by omega
    obtain ⟨l', h', hlen⟩ := step_holds h hlt e
    rw [along_cons, along_cons, correct_iff h hlt, ih h' (by omega)]

end Steps

section Runs

variable (steps : ℕ) (s : SysSlist α) (es : List (Event α))

/-- The list has no cycle and no callback twice in any run, whatever is removed. -/
theorem run_wellFormed (hsteps : es.length ≤ steps) :
    WellFormed (run (step steps) (sysSlistInit s) es) := by
  obtain ⟨l, h⟩ := run_holds holds_init es (by simpa using hsteps)
  exact wellFormed_of_holds h

/-- Also when the empty list is removed from. -/
theorem wellFormed_removed_from_empty :
    WellFormed (run (step 3) (sysSlistInit ⟨none, none, fun _ : ℕ => none⟩)
      [.manage 0 false, .manage 1 true, .manage 0 true]) :=
  run_wellFormed 3 _ _ (by decide)

/-- Every call of a run from the empty list does what it promises exactly if no
callback is removed while the list is empty. -/
theorem registry_correct_iff (hsteps : es.length ≤ steps) :
    Along (step steps) (Correct steps) (sysSlistInit s) es ↔
      Along (step steps) (fun s e => ¬ RemovesFromEmpty s e) (sysSlistInit s) es :=
  along_correct_iff holds_init es (by simpa using hsteps)

/-- A callback is added twice, takes itself out and is removed while another is left. -/
theorem registry_correct_readded :
    Along (step 5) (Correct 5) (sysSlistInit ⟨none, none, fun _ : ℕ => none⟩)
      [.manage 0 true, .manage 1 true, .manage 0 true,
        .fire ⟨fun _ => 1, 3, fun a _ => a == 0⟩, .manage 0 false] :=
  (registry_correct_iff 5 _ _ (by decide)).mpr (by decide +kernel)

/-- The removal of a callback from the empty list succeeds. -/
theorem remove_from_empty_succeeds :
    gpioManageCallback 1 (sysSlistInit ⟨none, none, fun _ : ℕ => none⟩) 0 false =
        some (⟨none, none, fun _ => none⟩, 0) ∧
      ¬ Along (step 1) (Correct 1) (sysSlistInit ⟨none, none, fun _ : ℕ => none⟩)
        [.manage 0 false] := by
  refine ⟨rfl, ?_⟩
  rintro ⟨hcorrect, -⟩
  exact (correct_iff holds_init Nat.one_pos _).mp hcorrect ⟨rfl, rfl⟩

end Runs

end WchIotSdk.GpioCallbacks
