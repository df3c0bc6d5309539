import Mathlib.Data.List.Basic
import Mathlib.Logic.Function.Basic

/-!
# Chains of next pointers

A memory gives each node the pointer to the next one. A chain lists the nodes met
on the way from a pointer to the null pointer, and so it has no node twice. Writing
the pointer of one node pushes, unlinks or leaves the nodes of a chain.
-/
namespace WchIotSdk.PointerChain

variable {α : Type*}

/-- The way from `h` to `t` passes the nodes of the list. -/
def Segment (next : α → Option α) : Option α → List α → Option α → Prop
  | h, [], t => h = t
  | h, a :: l, t => h = some a ∧ Segment next (next a) l t

abbrev Chain (next : α → Option α) (h : Option α) (l : List α) : Prop := Segment next h l none

section Paths

variable {next next' : α → Option α} {h t : Option α} {l l₁ l₂ : List α} {a p : α}

@[simp] lemma segment_nil : Segment next h [] t ↔ h = t := Iff.rfl

@[simp] lemma segment_cons :
    Segment next h (a :: l) t ↔ h = some a ∧ Segment next (next a) l t := Iff.rfl

lemma segment_append :
    Segment next h (l₁ ++ l₂) t ↔ ∃ m, Segment next h l₁ m ∧ Segment next m l₂ t := by
  induction l₁ generalizing h with
  | nil => simp
  | cons b l₁ ih => simp [ih, and_assoc]

/-- Two ways from one pointer to null are the same. -/
lemma Chain.unique (h₁ : Chain next h l₁) (h₂ : Chain next h l₂) : l₁ = l₂ := by
  induction l₁ generalizing h l₂ with
  | nil =>
    cases l₂ with
    | nil => rfl
    | cons b l₂ => cases h₁.symm.trans h₂.1
  | cons b l₁ ih =>
    cases l₂ with
    | nil => cases h₁.1.symm.trans h₂
    | cons c l₂ =>
      obtain rfl : b = c := Option.some_inj.mp (h₁.1.symm.trans h₂.1)
      rw [ih h₁.2 h₂.2]

/-- A node that came again would make the way from it longer than itself. -/
lemma Chain.nodup (hl : Chain next h l) : l.Nodup := by
  induction l generalizing h with
  | nil => exact List.nodup_nil
  | cons b l ih =>
    refine List.nodup_cons.mpr ⟨?_, ih hl.2⟩
    intro hmem
    obtain ⟨l₁, l₂, hsplit⟩ := List.append_of_mem hmem
    have hpath := hl.2
    rw [hsplit] at hpath
    obtain ⟨m, -, -, hrest⟩ := segment_append.mp hpath
    have hlen := congrArg List.length (Chain.unique hrest hl.2)
    rw [hsplit, List.length_append, List.length_cons] at hlen
    omega

lemma Chain.head_eq (hl : Chain next h l) : h = l.head? := by
  cases l with
  | nil => exact hl
  | cons b l => exact hl.1

lemma Chain.next_eq (hl : Chain next h (l₁ ++ a :: l₂)) : next a = l₂.head? := by
  obtain ⟨m, -, -, hback⟩ := segment_append.mp hl
  exact Chain.head_eq hback

/-- A chain follows every way that leads from its start. -/
lemma Chain.follows (hl : Chain next h l) (hpath : Segment next h l₁ t) :
    ∃ l₂, l = l₁ ++ l₂ ∧ Chain next t l₂ := by
  induction l₁ generalizing h l with
  | nil => exact ⟨l, rfl, hpath ▸ hl⟩
  | cons b l₁ ih =>
    obtain ⟨rfl, hrest⟩ := hpath
    cases l with
    | nil => cases hl
    | cons c l =>
      obtain rfl : b = c := Option.some_inj.mp hl.1
      obtain ⟨l₂, rfl, htail⟩ := ih hl.2 hrest
      exact ⟨l₂, rfl, htail⟩

/-- No chain leads through a node that points to itself. -/
lemma not_chain_of_self (hpath : Segment next h l₁ (some a)) (hself : next a = some a) :
    ¬ Chain next h l := by
  intro hl
  obtain ⟨l₂, -, hchain⟩ := Chain.follows hl hpath
  cases l₂ with
  | nil => cases hchain
  | cons b l₂ =>
    obtain ⟨hb, hrest⟩ := hchain
    obtain rfl := Option.some_inj.mp hb
    have hlong : Chain next (some a) (a :: l₂) := ⟨rfl, hrest⟩
    rw [hself] at hrest
    have hlen := congrArg List.length (Chain.unique hlong hrest)
    rw [List.length_cons] at hlen
    omega

/-- Only the pointers of its own nodes matter to a way. -/
lemma segment_congr (hn : ∀ b ∈ l, next b = next' b) :
    Segment next h l t ↔ Segment next' h l t := by
  induction l generalizing h with
  | nil => exact Iff.rfl
  | cons b l ih =>
    rw [segment_cons, segment_cons, hn b List.mem_cons_self,
      ih fun c hc => hn c (List.mem_cons_of_mem b hc)]

end Paths

section Writes

variable [DecidableEq α] {next : α → Option α} {h t v : Option α} {l l₁ l₂ : List α} {a p : α}

lemma segment_update (ha : a ∉ l) :
    Segment (Function.update next a v) h l t ↔ Segment next h l t := by
  apply segment_congr
  intro b hb
  exact Function.update_of_ne (ne_of_mem_of_not_mem hb ha) v next

lemma Chain.push (hl : Chain next h l) (ha : a ∉ l) :
    Chain (Function.update next a h) (some a) (a :: l) := by
  refine ⟨rfl, ?_⟩
  rw [Function.update_self]
  exact (segment_update ha).mpr hl

lemma Chain.push_back (hl : Chain next h (l ++ [p])) (ha : a ∉ l ++ [p]) :
    Chain (Function.update (Function.update next a none) p (some a)) h (l ++ [p, a]) := by
  rw [List.mem_append, List.mem_singleton, not_or] at ha
  have hp : p ∉ l := by
    have hnodup := Chain.nodup hl
    rw [List.nodup_append] at hnodup
    exact fun hmem => hnodup.2.2 p hmem p List.mem_cons_self rfl
  obtain ⟨m, hfront, hm, -⟩ := segment_append.mp hl
  refine segment_append.mpr ⟨m, ?_, hm, ?_, ?_⟩
  · exact (segment_update hp).mpr ((segment_update ha.1).mpr hfront)
  · rw [Function.update_self]
  · rw [segment_nil, Function.update_of_ne ha.2, Function.update_self]

/-- The node after `p` is passed over. -/
lemma Chain.unlink (hl : Chain next h (l₁ ++ p :: a :: l₂)) :
    Chain (Function.update next p (next a)) h (l₁ ++ p :: l₂) := by
  have hnodup := hl.nodup
  rw [List.nodup_append, List.nodup_cons] at hnodup
  obtain ⟨-, ⟨hp, -⟩, hdisj⟩ := hnodup
  have hp₁ : p ∉ l₁ := fun hmem => hdisj p hmem p List.mem_cons_self rfl
  have hp₂ : p ∉ l₂ := fun hmem => hp (List.mem_cons_of_mem a hmem)
  obtain ⟨m, hfront, hm, -, hback⟩ := segment_append.mp hl
  refine segment_append.mpr ⟨m, (segment_update hp₁).mpr hfront, hm, ?_⟩
  rw [Function.update_self]
  exact (segment_update hp₂).mpr hback

end Writes

end WchIotSdk.PointerChain
