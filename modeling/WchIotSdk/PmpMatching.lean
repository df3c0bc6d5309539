import WchIotSdk.FirstMatch
import WchIotSdk.PmpRegions

/-!
# What the PMP hardware decides

The rule of the RISC-V privileged architecture for user accesses, in exact
arithmetic: each enabled entry covers a range of byte addresses, the
lowest-numbered entry that covers a byte decides on it, and a byte that no entry
covers is denied. Address registers hold bits 33 to 2 of an address, so on RV32
a range may lie or reach beyond the 32-bit addresses.
-/
namespace WchIotSdk.Pmp
open FirstMatch

/-- The address-matching modes of an entry. -/
inductive Matching where
  | off
  | tor
  | na4
  | napot
  deriving DecidableEq, Repr

/-- Bits 4 and 3 of the configuration byte. -/
def matching (cfgVal : Byte) : Matching :=
  match cfgVal.getLsbD 4, cfgVal.getLsbD 3 with
  | false, false => .off
  | false, true => .tor
  | true, false => .na4
  | true, true => .napot

structure PmpEntry where
  cfg : Byte
  addr : Word
  deriving DecidableEq, Repr

abbrev Table := ℕ → PmpEntry

/-- The number of ones below the lowest zero of an address register. -/
def trailingOnes (v : Word) : ℕ := ((List.range 32).find? fun i => !v.getLsbD i).getD 32

/-- The first byte address covered by an entry, and the first one after; `base`
is the address register of the entry before it, or zero. -/
def covered (base : Word) (e : PmpEntry) : Option (ℕ × ℕ) :=
  match matching e.cfg with
  | .off => none
  | .tor => some (4 * base.toNat, 4 * e.addr.toNat)
  | .na4 => some (4 * e.addr.toNat, 4 * e.addr.toNat + 4)
  | .napot =>
    let block := 2 ^ (trailingOnes e.addr + 1)
    some (4 * (e.addr.toNat / block * block), 4 * (e.addr.toNat / block * block + block))

namespace Table

def base (t : Table) (i : ℕ) : Word := if i = 0 then 0 else (t (i - 1)).addr

def range (t : Table) (i : ℕ) : Option (ℕ × ℕ) := covered (t.base i) (t i)

/-- Entry `i` covers the byte at `a`. -/
def Covers (t : Table) (i a : ℕ) : Prop := ∃ r ∈ t.range i, r.1 ≤ a ∧ a < r.2

instance (t : Table) (i a : ℕ) : Decidable (t.Covers i a) :=
  decidable_of_iff (((t.range i).any fun r => decide (r.1 ≤ a ∧ a < r.2)) = true) <| by
    unfold Covers
    cases t.range i <;> simp

/-- The configuration byte of the entry that decides on the byte at `a`. -/
def decision (t : Table) (n a : ℕ) : Option Byte :=
  firstSome (fun i => if t.Covers i a then some (t i).cfg else none) 0 n

/-- Entry `i` decides on the byte at `a`. -/
def Decides (t : Table) (i a : ℕ) : Prop := t.Covers i a ∧ ∀ j < i, ¬ t.Covers j a

instance (t : Table) (i a : ℕ) : Decidable (t.Decides i a) := inferInstanceAs (Decidable (_ ∧ _))

theorem decision_eq_some_iff {t : Table} {n a : ℕ} {c : Byte} :
    t.decision n a = some c ↔ ∃ i < n, t.Decides i a ∧ (t i).cfg = c := by
  rw [decision, firstSome_eq_some_iff]
  constructor
  · intro hfound
    obtain ⟨i, _, hi, hc, hbefore⟩ := hfound
    by_cases hcov : t.Covers i a
    · rw [if_pos hcov] at hc
      refine ⟨i, by omega, ⟨hcov, fun j hj hcovj => ?_⟩, Option.some.inj hc⟩
      have hnone := hbefore j (Nat.zero_le j) hj
      rw [if_pos hcovj] at hnone
      cases hnone
    · rw [if_neg hcov] at hc
      cases hc
  · intro hfound
    obtain ⟨i, hi, ⟨hcov, hbefore⟩, hc⟩ := hfound
    refine ⟨i, Nat.zero_le i, by omega, by rw [if_pos hcov, hc], fun j _ hj => ?_⟩
    rw [if_neg (hbefore j hj)]

/-- Covering a byte, an entry is the deciding one or comes after it. -/
lemma exists_decides_le {t : Table} {i a : ℕ} (h : t.Covers i a) : ∃ j ≤ i, t.Decides j a := by
  induction i using Nat.strong_induction_on with
  | _ i ih =>
    by_cases hlow : ∃ j < i, t.Covers j a
    · obtain ⟨j, hj, hcov⟩ := hlow
      obtain ⟨k, hk, hdec⟩ := ih j hj hcov
      exact ⟨k, by omega, hdec⟩
    · exact ⟨i, le_rfl, h, fun j hj hcov => hlow ⟨j, hj, hcov⟩⟩

end Table

/-- The permissions of a configuration byte for a read, or for a read and a
write. -/
def Grants (cfgVal : Byte) (write : Bool) : Prop :=
  cfgVal.getLsbD 0 = true ∧ (write = true → cfgVal.getLsbD 1 = true)

instance (cfgVal : Byte) (write : Bool) : Decidable (Grants cfgVal write) :=
  inferInstanceAs (Decidable (_ ∧ _))

/-- The access to the byte at `a` is allowed. -/
def Table.Allows (t : Table) (n : ℕ) (write : Bool) (a : ℕ) : Prop :=
  ∃ c ∈ t.decision n a, Grants c write

/-- The table in the registers. -/
def hwTable (csrs : Csrs 32) : Table := fun i => ⟨cfgByte rv32 csrs i, addrWord csrs i⟩

/-- A context shown through the dynamic entries, over the static registers. -/
def combinedTable (cfg : PmpConfig) (st : PmpState) (pmp : KPmp) : Table := fun i =>
  if i ≤ maxDynamicRegion cfg st then ⟨pmp.uPmpcfg i, pmp.uPmpaddr i⟩ else hwTable st.csrs i

section Decoding

/-- The bits of a mode in the configuration byte. -/
def typeBits : Matching → Byte
  | .off => 0
  | .tor => pmpTor
  | .na4 => pmpNa4
  | .napot => pmpNapot

lemma getLsbD_typeBits (m : Matching) : ∀ i < 8, (typeBits m).getLsbD i =
    (decide (i = 3) && decide (m = .tor ∨ m = .napot) ||
      decide (i = 4) && decide (m = .na4 ∨ m = .napot)) := by
  cases m <;> decide

/-- The masked configuration byte names the matching mode. -/
lemma cfg_and_typeMask (c : Byte) : c &&& pmpTypeMask = typeBits (matching c) := by
  have hmask : ∀ i < 8, pmpTypeMask.getLsbD i = decide (i = 3 ∨ i = 4) := by decide
  apply BitVec.eq_of_getLsbD_eq
  intro i hi
  rw [BitVec.getLsbD_and, hmask i hi, getLsbD_typeBits _ i hi]
  by_cases h3 : i = 3
  · subst h3
    rw [matching]
    cases c.getLsbD 4 <;> cases c.getLsbD 3 <;> rfl
  by_cases h4 : i = 4
  · subst h4
    rw [matching]
    cases c.getLsbD 4 <;> cases c.getLsbD 3 <;> rfl
  · simp [h3, h4]

lemma toNat_sub_one {v : Word} (h : 0 < v.toNat) : (v - 1).toNat = v.toNat - 1 := by
  have hlt := v.isLt
  have hone : (1 : Word).toNat = 1 := rfl
  rw [BitVec.toNat_sub, hone]
  omega

lemma trailingOnes_spec (v : Word) :
    trailingOnes v ≤ 32 ∧ (∀ i < trailingOnes v, v.getLsbD i = true) ∧
      (trailingOnes v < 32 → v.getLsbD (trailingOnes v) = false) := by
  unfold trailingOnes
  cases hfind : (List.range 32).find? fun i => !v.getLsbD i with
  | none =>
    rw [List.find?_eq_none] at hfind
    refine ⟨le_rfl, fun i hi => ?_, fun h => absurd h (lt_irrefl _)⟩
    simpa using hfind i (List.mem_range.mpr hi)
  | some t =>
    rw [List.find?_range_eq_some] at hfind
    obtain ⟨hbit, hmem, hbefore⟩ := hfind
    rw [List.mem_range] at hmem
    refine ⟨hmem.le, fun i hi => ?_, fun _ => by simpa using hbit⟩
    simpa using hbefore i hi

end Decoding

end WchIotSdk.Pmp
