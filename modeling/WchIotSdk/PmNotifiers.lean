import WchIotSdk.SysSlist
import WchIotSdk.PowerSuspend

/-!
# The power notifiers

A notifier is appended to the list without a look at whether it is in it. A
notifier that is registered once and only once at a time has its place in the
list, and the passes of `pm_state_notify` go down the list to its end.
-/
namespace WchIotSdk.PmNotifiers
open EventRuns PointerChain Slist PowerPolicy PowerSuspend

def einval : ℤ := 22

variable {α : Type*} [DecidableEq α]

section Calls

variable (steps : ℕ) (callbacks : α → Notifier) (s : SysSlist α)

def pmNotifierRegister (notifier : α) : SysSlist α := sysSlistAppend s notifier

def pmNotifierUnregister (notifier : α) : Option (SysSlist α × ℤ) :=
  (sysSlistFindAndRemove s steps notifier).map fun r => (r.1, if r.2 then 0 else -einval)

/-- The callback for this direction is not NULL. -/
def hasCallback (enteringState : Bool) (notifier : α) : Bool :=
  if enteringState then (callbacks notifier).stateEntry else (callbacks notifier).stateExit

/-- A callback that was run, with the state it was given. -/
structure Invocation (α : Type*) where
  notifier : α
  state : PmState
  deriving DecidableEq, Repr

def notifyLoop (enteringState : Bool) (state : PmState) :
    ℕ → Option α → Option (List (Invocation α))
  | 0, _ => none
  | _ + 1, none => some []
  | n + 1, some notifier =>
    (notifyLoop enteringState state n (sysSlistPeekNext s (some notifier))).map fun calls =>
      if hasCallback callbacks enteringState notifier then ⟨notifier, state⟩ :: calls else calls

def pmStateNotify (enteringState : Bool) (state : PmState) : Option (List (Invocation α)) :=
  notifyLoop callbacks s enteringState state steps (sysSlistPeekHead s)

end Calls

inductive Event (α : Type*) where
  | register (notifier : α)
  | unregister (notifier : α)
  | notify (enteringState : Bool) (state : PmState)

/-- A call that has no result leaves the list. -/
def step (steps : ℕ) (s : SysSlist α) : Event α → SysSlist α
  | .register notifier => pmNotifierRegister s notifier
  | .unregister notifier => ((pmNotifierUnregister steps s notifier).map Prod.fst).getD s
  | .notify _ _ => s

/-- The invocations that a pass over these notifiers owes. -/
def owed (callbacks : α → Notifier) (enteringState : Bool) (state : PmState) (l : List α) :
    List (Invocation α) :=
  (l.filter (hasCallback callbacks enteringState)).map (⟨·, state⟩)

/-- The notifiers in the order of their registration. -/
def registryStep (l : List α) : Event α → List α
  | .register notifier => l ++ [notifier]
  | .unregister notifier => l.erase notifier
  | .notify _ _ => l

lemma registryStep_length (l : List α) (e : Event α) :
    (registryStep l e).length ≤ l.length + 1 := by
  cases e with
  | register notifier => rw [registryStep, List.length_append, List.length_singleton]
  | unregister notifier => exact List.length_erase_le.trans (Nat.le_succ _)
  | notify enteringState state => exact Nat.le_succ _

/-- What is registered is not registered already. -/
def Fresh (l : List α) : Event α → Prop
  | .register notifier => notifier ∉ l
  | .unregister _ => True
  | .notify _ _ => True

instance (l : List α) : ∀ e, Decidable (Fresh l e)
  | .register _ => inferInstanceAs (Decidable (_ ∉ _))
  | .unregister _ => inferInstanceAs (Decidable True)
  | .notify _ _ => inferInstanceAs (Decidable True)

/-- The list is one before and after the call, and the call does what it promises. A
notifier that is registered again may keep its place or come last. -/
def Correct (steps : ℕ) (callbacks : α → Notifier) (s : SysSlist α) : Event α → Prop
  | .register notifier =>
    ∃ l l', Holds s l ∧ Holds (pmNotifierRegister s notifier) l' ∧
      (l' = l.erase notifier ++ [notifier] ∨ notifier ∈ l ∧ l' = l)
  | .unregister notifier =>
    ∃ l s' ret, Holds s l ∧ pmNotifierUnregister steps s notifier = some (s', ret) ∧
      Holds s' (l.erase notifier) ∧ ret = if notifier ∈ l then 0 else -einval
  | .notify enteringState state =>
    ∃ l, Holds s l ∧
      pmStateNotify steps callbacks s enteringState state =
        some (owed callbacks enteringState state l)

section Passes

variable {callbacks : α → Notifier} {s : SysSlist α} {h t : Option α} {l : List α} {n steps : ℕ}
  {notifier : α} {enteringState : Bool} {state : PmState}

omit [DecidableEq α]

lemma owed_cons : owed callbacks enteringState state (notifier :: l) =
    if hasCallback callbacks enteringState notifier then
      ⟨notifier, state⟩ :: owed callbacks enteringState state l
    else owed callbacks enteringState state l := by
  by_cases hcall : hasCallback callbacks enteringState notifier
  · rw [owed, List.filter_cons_of_pos hcall, List.map_cons, if_pos hcall]
    rfl
  · rw [owed, List.filter_cons_of_neg hcall, if_neg hcall]
    rfl

/-- The loop runs the callbacks of the notifiers on its way to the end. -/
lemma notifyLoop_chain (hl : Chain s.next h l) (hn : l.length < n) :
    notifyLoop callbacks s enteringState state n h =
      some (owed callbacks enteringState state l) := by
  induction l generalizing h n with
  | nil =>
    obtain ⟨n, rfl⟩ := Nat.exists_eq_add_of_lt hn
    obtain rfl : h = none := hl
    rfl
  | cons a l ih =>
    obtain ⟨n, rfl⟩ : ∃ m, n = m + 1 := ⟨n - 1, by omega⟩
    obtain ⟨rfl, hrest⟩ := hl
    have hnext : notifyLoop callbacks s enteringState state n (sysSlistPeekNext s (some a)) =
        some (owed callbacks enteringState state l) := ih hrest (Nat.lt_of_succ_lt_succ hn)
    rw [notifyLoop, hnext, owed_cons]
    rfl

theorem notify_eq (hs : Holds s l) (hsteps : l.length < steps) :
    pmStateNotify steps callbacks s enteringState state =
      some (owed callbacks enteringState state l) :=
  notifyLoop_chain hs.chain hsteps

/-- The loop never leaves a notifier that points to itself. -/
lemma notifyLoop_self (hpath : Segment s.next h l (some notifier))
    (hself : s.next notifier = some notifier) (n : ℕ) :
    notifyLoop callbacks s enteringState state n h = none := by
  induction n generalizing h l with
  | zero => rfl
  | succ n ih =>
    cases l with
    | nil =>
      obtain rfl : h = some notifier := hpath
      have hstay : Segment s.next (sysSlistPeekNext s (some notifier)) [] (some notifier) := hself
      rw [notifyLoop, ih hstay]
      rfl
    | cons a l =>
      obtain ⟨rfl, hrest⟩ := hpath
      have hnext : Segment s.next (sysSlistPeekNext s (some a)) l (some notifier) := hrest
      rw [notifyLoop, ih hnext]
      rfl

end Passes

section Steps

variable {callbacks : α → Notifier} {s : SysSlist α} {l pre : List α} {steps : ℕ} {notifier : α}

/-- Once the last notifier is registered again, no pass over the list ends. -/
theorem notify_never_ends (hs : Holds s (pre ++ [notifier])) (enteringState : Bool)
    (state : PmState) (n : ℕ) :
    pmStateNotify n callbacks (pmNotifierRegister s notifier) enteringState state = none := by
  obtain ⟨hpath, hself⟩ := append_last_self hs
  exact notifyLoop_self hpath hself n

theorem unregister_present (hs : Holds s l) (hsteps : l.length < steps) (hmem : notifier ∈ l) :
    ∃ s', pmNotifierUnregister steps s notifier = some (s', 0) ∧ Holds s' (l.erase notifier) := by
  obtain ⟨s', hsearch, hout⟩ := findAndRemove_present hs hsteps hmem
  refine ⟨s', ?_, hout⟩
  rw [pmNotifierUnregister, hsearch]
  rfl

theorem unregister_absent (hs : Holds s l) (hsteps : l.length < steps) (hmem : notifier ∉ l) :
    pmNotifierUnregister steps s notifier = some (s, -einval) := by
  rw [pmNotifierUnregister, findAndRemove_absent hs hsteps hmem]
  rfl

/-- The list follows the registry while nothing is registered twice. -/
theorem step_holds (hs : Holds s l) (hsteps : l.length < steps) {e : Event α} (he : Fresh l e) :
    Holds (step steps s e) (registryStep l e) := by
  cases e with
  | register notifier => exact append_holds hs he
  | notify enteringState state => exact hs
  | unregister notifier =>
    by_cases hmem : notifier ∈ l
    · obtain ⟨s', hcall, hout⟩ := unregister_present hs hsteps hmem
      rwa [step, hcall]
    · rw [registryStep, List.erase_of_not_mem hmem, step, unregister_absent hs hsteps hmem]
      exact hs

/-- To register the last notifier again gives no list, to register another one again
drops those behind it. -/
lemma register_again (hs : Holds s l) (hmem : notifier ∈ l) :
    ¬ Correct steps callbacks s (.register notifier) := by
  rintro ⟨l₀, l', h₀, h', horder⟩
  obtain rfl := hs.unique h₀
  obtain ⟨pre, post, rfl⟩ := List.append_of_mem hmem
  obtain rfl | ⟨post, last, rfl⟩ := List.eq_nil_or_concat' post
  · exact append_last_not_holds hs h'
  · -- the ones behind it are missing
    obtain rfl := h'.unique (append_inner_holds hs)
    have hlen : (pre ++ [notifier]).length =
        (pre ++ notifier :: (post ++ [last])).length := by
      obtain horder | ⟨-, hsame⟩ := horder
      · rw [horder, List.length_append, List.length_erase_of_mem hmem, List.length_singleton]
        exact Nat.sub_add_cancel (List.length_pos_of_mem hmem)
      · rw [hsame]
    simp only [List.length_append, List.length_cons, List.length_nil] at hlen
    omega

/-- Only to register what is registered is not done right. -/
theorem correct_iff (hs : Holds s l) (hsteps : l.length < steps) (e : Event α) :
    Correct steps callbacks s e ↔ Fresh l e := by
  cases e with
  | notify enteringState state => exact iff_of_true ⟨l, hs, notify_eq hs hsteps⟩ trivial
  | unregister notifier =>
    refine iff_of_true ?_ trivial
    by_cases hmem : notifier ∈ l
    · obtain ⟨s', hcall, hout⟩ := unregister_present hs hsteps hmem
      exact ⟨l, s', 0, hs, hcall, hout, (if_pos hmem).symm⟩
    · refine ⟨l, s, -einval, hs, unregister_absent hs hsteps hmem, ?_, (if_neg hmem).symm⟩
      rwa [List.erase_of_not_mem hmem]
  | register notifier =>
    by_cases hmem : notifier ∈ l
    · exact iff_of_false (register_again hs hmem) (not_not.mpr hmem)
    · refine iff_of_true ⟨l, l ++ [notifier], hs, append_holds hs hmem, .inl ?_⟩ hmem
      rw [List.erase_of_not_mem hmem]

lemma along_correct_iff (hs : Holds s l) (es : List (Event α))
    (hsteps : l.length + es.length ≤ steps) :
    Along (step steps) (Correct steps callbacks) s es ↔ Along registryStep Fresh l es := by
  induction es generalizing s l with
  | nil => exact Iff.rfl
  | cons e es ih =>
    rw [List.length_cons] at hsteps
    have hlt : l.length < steps := by omega
    rw [along_cons, along_cons, correct_iff hs hlt]
    refine and_congr_right fun he => ih (step_holds hs hlt he) ?_
    have hlen := registryStep_length l e
    omega

end Steps

section Runs

variable (steps : ℕ) (callbacks : α → Notifier) (s : SysSlist α) (es : List (Event α))

/-- The calls of a run from the empty list do what they promise exactly if no notifier
is registered while it is in the list. -/
theorem notifiers_correct_iff (hsteps : es.length ≤ steps) :
    Along (step steps) (Correct steps callbacks) (sysSlistInit s) es ↔
      Along registryStep Fresh [] es :=
  along_correct_iff holds_init es (by simpa using hsteps)

/-- A notifier is taken out and registered again behind the other one. -/
theorem notifiers_correct_reordered :
    Along (step 5) (Correct 5 fun a => ⟨true, a = 1⟩) (sysSlistInit ⟨none, none, fun _ : ℕ => none⟩)
      [.register 0, .register 1, .unregister 0, .register 0, .notify true .suspendToIdle] :=
  (notifiers_correct_iff 5 _ _ _ (by decide)).mpr (by decide)

/-- The only notifier, registered twice, keeps every pass from ending. -/
theorem register_twice_not_correct :
    let empty : SysSlist ℕ := sysSlistInit ⟨none, none, fun _ => none⟩
    ¬ Along (step 2) (Correct 2 fun _ => ⟨true, true⟩) empty [.register 0, .register 0] ∧
      ∀ n, pmStateNotify n (fun _ => ⟨true, true⟩)
        (run (step 2) empty [.register 0, .register 0]) true .suspendToIdle = none := by
  intro empty
  have hone : Holds (pmNotifierRegister empty 0) ([] ++ [0]) :=
    append_holds holds_init List.not_mem_nil
  refine ⟨?_, fun n => notify_never_ends hone true .suspendToIdle n⟩
  rintro ⟨-, hcorrect, -⟩
  exact register_again hone List.mem_cons_self hcorrect

end Runs

section Suspend

variable {callbacks : α → Notifier} {s : SysSlist α} {l : List α} {steps : ℕ}

omit [DecidableEq α] in
lemma notifier_mem_of_owed {enteringState : Bool} {state : PmState} {call : Invocation α}
    (hcall : call ∈ owed callbacks enteringState state l) : call.notifier ∈ l := by
  obtain ⟨a, ha, rfl⟩ := List.mem_map.mp hcall
  exact List.mem_of_mem_filter ha

/-- A notifier of the list is known by its position in it. -/
lemma notifyFrom_eq (enteringState : Bool) (state : PmState) (hl : l.Nodup) (k : ℕ) :
    notifyFrom enteringState state k (l.map callbacks) =
      (owed callbacks enteringState state l).map fun call =>
        .callback (k + l.idxOf call.notifier) enteringState call.state := by
  induction l generalizing k with
  | nil => rfl
  | cons a l ih =>
    obtain ⟨ha, hl⟩ := List.nodup_cons.mp hl
    have hshift : notifyFrom enteringState state (k + 1) (l.map callbacks) =
        (owed callbacks enteringState state l).map fun call =>
          .callback (k + (a :: l).idxOf call.notifier) enteringState call.state := by
      rw [ih hl]
      refine List.map_congr_left fun call hcall => ?_
      have hne : a ≠ call.notifier := fun heq => ha (heq ▸ notifier_mem_of_owed hcall)
      rw [List.idxOf_cons_ne l hne, Nat.add_assoc, Nat.add_comm 1]
    have hcons : notifyFrom enteringState state k ((a :: l).map callbacks) =
        (if hasCallback callbacks enteringState a then [.callback k enteringState state] else []) ++
          notifyFrom enteringState state (k + 1) (l.map callbacks) := rfl
    rw [hcons, hshift, owed_cons]
    by_cases hcall : hasCallback callbacks enteringState a
    · rw [if_pos hcall, if_pos hcall, List.map_cons, List.idxOf_cons_self]
      rfl
    · rw [if_neg hcall, if_neg hcall, List.nil_append]

/-- A pass over the list is the step of the suspending thread over its notifiers. -/
theorem notify_suspend (hs : Holds s l) (hsteps : l.length < steps) (enteringState : Bool)
    (m : Machine) :
    ∃ calls, pmStateNotify steps callbacks s enteringState m.zPmState.state = some calls ∧
      PowerSuspend.pmStateNotify (l.map callbacks) enteringState m =
        m.observe (calls.map fun call =>
          .callback (l.idxOf call.notifier) enteringState call.state) := by
  refine ⟨_, notify_eq hs hsteps, ?_⟩
  rw [PowerSuspend.pmStateNotify, notifyFrom_eq enteringState m.zPmState.state hs.nodup 0]
  simp only [Nat.zero_add]

/-- Two notifiers, the second of which is called on the way out only. -/
theorem two_notify_suspend :
    ∃ calls, pmStateNotify 3 (fun a => ⟨a = 0, true⟩)
        (pmNotifierRegister (pmNotifierRegister
          (sysSlistInit ⟨none, none, fun _ : ℕ => none⟩) 0) 1) true .active = some calls ∧
      PowerSuspend.pmStateNotify [⟨true, true⟩, ⟨false, true⟩] true PowerSuspend.initial =
        PowerSuspend.initial.observe (calls.map fun call =>
          .callback ([0, 1].idxOf call.notifier) true call.state) :=
  notify_suspend (append_holds (append_holds holds_init List.not_mem_nil) (by simp)) (by decide)
    true PowerSuspend.initial

end Suspend

end WchIotSdk.PmNotifiers
