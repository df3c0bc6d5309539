import Mathlib.Data.Finset.Basic
import WchIotSdk.EventRuns

/-!
# Ledgers of owned blocks

Blocks are acquired and released. A log is settled if every acquisition is of a
block not owned, every release of one owned, and nothing is owned at its end: each
block acquired is released exactly once. Parts that are settled by themselves make
up a settled whole.
-/
namespace WchIotSdk.OwnershipLedger
open EventRuns

variable {β : Type*} [DecidableEq β]

inductive Transfer (β : Type*) where
  | acquire (b : β)
  | release (b : β)
  deriving DecidableEq, Repr

/-- The blocks owned after a transfer. -/
def step (owned : Finset β) : Transfer β → Finset β
  | .acquire b => insert b owned
  | .release b => owned.erase b

/-- A block is acquired while it is not owned, and released while it is. -/
def Legal (owned : Finset β) : Transfer β → Prop
  | .acquire b => b ∉ owned
  | .release b => b ∈ owned

instance (owned : Finset β) (t : Transfer β) : Decidable (Legal owned t) := by
  cases t <;> unfold Legal <;> infer_instance

def Settled (log : List (Transfer β)) : Prop :=
  Along step Legal ∅ log ∧ run step ∅ log = ∅

instance (log : List (Transfer β)) : Decidable (Settled log) :=
  inferInstanceAs (Decidable (_ ∧ _))

theorem settled_nil : Settled ([] : List (Transfer β)) := ⟨trivial, rfl⟩

/-- Behind a settled log another one starts afresh. -/
theorem settled_append_iff {log : List (Transfer β)} (h : Settled log)
    (more : List (Transfer β)) : Settled (log ++ more) ↔ Settled more := by
  unfold Settled
  rw [along_append, run_append, h.2]
  constructor
  · intro hboth
    exact ⟨hboth.1.2, hboth.2⟩
  · intro hmore
    exact ⟨⟨h.1, hmore.1⟩, hmore.2⟩

/-- A sequence of parts is settled after each of them if and only if each of them
is settled by itself. -/
theorem settled_prefixes_iff (parts : List (List (Transfer β))) :
    (∀ past, past <+: parts → Settled past.flatten) ↔ ∀ part ∈ parts, Settled part := by
  induction parts using List.reverseRecOn with
  | nil =>
    constructor
    · intro _ part hpart
      exact absurd hpart (List.not_mem_nil)
    · intro _ past hpast
      rw [List.prefix_nil.mp hpast]
      exact settled_nil
  | append_singleton parts last ih =>
    have hflat : (parts ++ [last]).flatten = parts.flatten ++ last := by simp
    constructor
    · intro h
      have hbefore := ih.mp fun past hpast => h past (hpast.trans (List.prefix_append _ _))
      have hparts : Settled parts.flatten := ih.mpr hbefore parts (List.prefix_refl _)
      have hall := h (parts ++ [last]) (List.prefix_refl _)
      rw [hflat, settled_append_iff hparts] at hall
      intro part hpart
      rcases List.mem_append.mp hpart with hin | hlast
      · exact hbefore part hin
      · rw [List.mem_singleton.mp hlast]
        exact hall
    · intro h past hpast
      have hbefore := ih.mpr fun part hpart => h part (List.mem_append_left _ hpart)
      rcases List.prefix_concat_iff.mp hpast with heq | hin
      · rw [heq, hflat, settled_append_iff (hbefore parts (List.prefix_refl _))]
        exact h last (List.mem_append_right _ (List.mem_singleton_self last))
      · exact hbefore past hin

/-- Along a legal log acquisitions and releases of a block alternate. -/
lemma count_eq (b : β) {owned : Finset β} {log : List (Transfer β)}
    (h : Along step Legal owned log) :
    (if b ∈ owned then 1 else 0) + log.count (.acquire b) =
      log.count (.release b) + if b ∈ run step owned log then 1 else 0 := by
  induction log generalizing owned with
  | nil => rw [List.count_nil, List.count_nil, Nat.add_zero, Nat.zero_add, run_nil]
  | cons t log ih =>
    obtain ⟨hlegal, hrest⟩ := h
    have hnext := ih hrest
    rw [run_cons]
    cases t with
    | acquire c =>
      by_cases hc : c = b
      · subst hc
        have hout : c ∉ owned := hlegal
        simp only [step, Finset.mem_insert_self, if_true, if_neg hout, List.count_cons_self,
          List.count_cons_of_ne (show Transfer.acquire c ≠ .release c by simp)] at hnext ⊢
        omega
      · have hmem : b ∈ insert c owned ↔ b ∈ owned := by
          rw [Finset.mem_insert, or_iff_right (Ne.symm hc)]
        simp only [step, hmem] at hnext
        rw [List.count_cons_of_ne (by simpa using hc), List.count_cons_of_ne (by simp)]
        exact hnext
    | release c =>
      by_cases hc : c = b
      · subst hc
        have hin : c ∈ owned := hlegal
        simp only [step, Finset.notMem_erase, if_false, if_pos hin, List.count_cons_self,
          List.count_cons_of_ne (show Transfer.release c ≠ .acquire c by simp)] at hnext ⊢
        omega
      · have hmem : b ∈ owned.erase c ↔ b ∈ owned := by
          rw [Finset.mem_erase, and_iff_right (Ne.symm hc)]
        simp only [step, hmem] at hnext
        rw [List.count_cons_of_ne (by simp), List.count_cons_of_ne (by simpa using hc)]
        exact hnext

/-- In a settled log a block is released as often as it is acquired. -/
theorem Settled.count_eq {log : List (Transfer β)} (h : Settled log) (b : β) :
    log.count (.acquire b) = log.count (.release b) := by
  have hcount := OwnershipLedger.count_eq b h.1
  rw [h.2] at hcount
  simpa using hcount

end WchIotSdk.OwnershipLedger
