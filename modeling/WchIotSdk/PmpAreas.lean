import WchIotSdk.PmpValidate

/-!
# Regions as areas of memory

The purpose of the configuration: an ordered list of areas, of which the first
that holds an address gives its permissions. A region that the encoding can
express is translated into entries that answer as its area does.
-/
namespace WchIotSdk.Pmp
open FirstMatch

/-- The addresses from `start` on and before `stop`, with their permissions. -/
structure Area where
  start : ℕ
  stop : ℕ
  perm : Byte
  deriving DecidableEq, Repr

def Area.permission (r : Area) (a : ℕ) : Option Byte :=
  if r.start ≤ a ∧ a < r.stop then some r.perm else none

/-- The permissions of the first area that holds the address. -/
def firstPermission (rs : List Area) (a : ℕ) : Option Byte := rs.findSome? (·.permission a)

lemma firstPermission_concat (rs : List Area) (r : Area) (a : ℕ) :
    firstPermission (rs ++ [r]) a = (firstPermission rs a).or (r.permission a) := by
  rw [firstPermission, List.findSome?_append, List.findSome?_cons, List.findSome?_nil]
  cases r.permission a <;> rfl

/-- The bits R, W and X. -/
def permBits (cfgVal : Byte) : Byte := cfgVal &&& 0x7#8

/-- The area that a region asks for; start = size = 0 is the whole memory. -/
def RiscvPmpRegion.area (r : RiscvPmpRegion) : Area :=
  if r.start = 0 ∧ r.size = 0 then ⟨0, 2 ^ 32, permBits r.perm⟩
  else ⟨r.start.toNat, r.start.toNat + r.size.toNat, permBits r.perm⟩

namespace Table

/-- The permissions that a table gives to the byte at `a`. -/
def permission (t : Table) (n a : ℕ) : Option Byte := (t.decision n a).map permBits

/-- The answer of entry `i`. -/
def answer (t : Table) (a i : ℕ) : Option Byte :=
  if t.Covers i a then some (permBits (t i).cfg) else none

theorem permission_eq (t : Table) (n a : ℕ) : t.permission n a = firstSome (t.answer a) 0 n := by
  have hmap : t.answer a =
      fun i => (if t.Covers i a then some (t i).cfg else none).map permBits := by
    ext1 i
    rw [answer]
    split <;> rfl
  rw [permission, decision, hmap, firstSome_map]

lemma answer_eq (t : Table) (a i : ℕ) {r : ℕ × ℕ} (hr : t.range i = some r) :
    t.answer a i = if r.1 ≤ a ∧ a < r.2 then some (permBits (t i).cfg) else none := by
  have hcov : t.Covers i a ↔ r.1 ≤ a ∧ a < r.2 := by
    rw [Covers, hr]
    simp
  simp only [answer, hcov]

/-- An entry answers by what it and the one before it hold. -/
lemma answer_congr {t u : Table} {i : ℕ} (hi : t i = u i) (hbase : i ≠ 0 → t (i - 1) = u (i - 1))
    (a : ℕ) : t.answer a i = u.answer a i := by
  have hbase' : t.base i = u.base i := by
    unfold base
    by_cases h0 : i = 0
    · rw [if_pos h0, if_pos h0]
    · rw [if_neg h0, if_neg h0, hbase h0]
  have hcov : t.Covers i a ↔ u.Covers i a := by
    rw [Covers, Covers, range, range, hbase', hi]
  simp only [answer, hcov, hi]

/-- Tables that agree before `n` answer alike there. -/
lemma firstSome_answer_congr {t u : Table} {n : ℕ} (h : ∀ i < n, t i = u i) (a : ℕ) :
    firstSome (t.answer a) 0 n = firstSome (u.answer a) 0 n := by
  apply firstSome_congr
  intro i _ hi
  exact answer_congr (h i (by omega)) (fun _ => h (i - 1) (by omega)) a

lemma answer_off {t : Table} {i : ℕ} (h : (t i).cfg = 0) (a : ℕ) : t.answer a i = none := by
  have hoff : matching 0 = .off := rfl
  rw [answer, if_neg]
  intro hfound
  obtain ⟨r, hr, _⟩ := hfound
  rw [range, covered, h, hoff] at hr
  cases hr

/-- Entries that are switched off do not answer. -/
lemma firstSome_answer_off {t : Table} {i n : ℕ} (h : ∀ j, i ≤ j → j < i + n → (t j).cfg = 0)
    (a : ℕ) : firstSome (t.answer a) i n = none := by
  rw [firstSome_eq_none_iff]
  intro j hj hn
  exact answer_off (h j hj hn) a

end Table

section Encoding

/-- The matching mode of a region of one entry. -/
def RiscvPmpRegion.oneEntryMode (r : RiscvPmpRegion) : Byte :=
  if r.mode = .na4 ∨ r.size = 4 then pmpNa4 else pmpNapot

/-- The entries that a region is translated into. -/
def RiscvPmpRegion.entries (r : RiscvPmpRegion) : List PmpEntry :=
  if r.start = 0 ∧ r.size = 0 then [⟨pmpNapot ||| r.perm, 0x1FFFFFFF⟩]
  else if r.mode = .tor then
    [⟨pmpNa4 ||| r.perm, toPmpAddr r.start⟩, ⟨pmpTor ||| r.perm, toPmpAddr (r.start + r.size)⟩]
  else [⟨r.oneEntryMode ||| r.perm, toPmpNapot r.start r.size⟩]

/-- The permissions of the region leave the matching mode of an entry alone. -/
def RiscvPmpRegion.Keeps (r : RiscvPmpRegion) (mode : Byte) : Prop :=
  matching (mode ||| r.perm) = matching mode

instance (r : RiscvPmpRegion) (mode : Byte) : Decidable (r.Keeps mode) :=
  inferInstanceAs (Decidable (_ = _))

/-- What the encoding can express: the whole memory, nothing, or words. The
bounds of a TOR region fit the word, of which a region of four bytes only needs
the first entry; a NAPOT region is a block of at least eight bytes. -/
def RiscvPmpRegion.Encodable (r : RiscvPmpRegion) : Prop :=
  (r.start = 0 ∧ r.size = 0) ∨ r.Empty ∨
    4 ∣ r.start.toNat ∧ 4 ∣ r.size.toNat ∧
      if r.mode = .tor then
        (r.start.toNat + r.size.toNat < 2 ^ 32 ∨ r.size = 4) ∧ r.Keeps pmpNa4 ∧ r.Keeps pmpTor
      else if r.mode = .na4 ∨ r.size = 4 then r.size = 4 ∧ r.Keeps pmpNa4
      else ∃ k < 32, 3 ≤ k ∧ r.size.toNat = 2 ^ k ∧ 2 ^ k ∣ r.start.toNat

instance (r : RiscvPmpRegion) : Decidable r.Encodable := by
  unfold RiscvPmpRegion.Encodable
  infer_instance

/-- The table holds the entries from `i` on. -/
def Table.Has (t : Table) (i : ℕ) (es : List PmpEntry) : Prop :=
  ∀ k (hk : k < es.length), t (i + k) = es.get ⟨k, hk⟩

lemma permBits_or {mode : Byte} (hmode : permBits mode = 0) (perm : Byte) :
    permBits (mode ||| perm) = permBits perm := by
  unfold permBits at *
  rw [BitVec.and_comm, BitVec.and_or_distrib_left, BitVec.and_comm, hmode, BitVec.and_comm]
  exact BitVec.zero_or

lemma keeps_napot (r : RiscvPmpRegion) : r.Keeps pmpNapot := by
  have h3 : pmpNapot.getLsbD 3 = true := rfl
  have h4 : pmpNapot.getLsbD 4 = true := rfl
  rw [RiscvPmpRegion.Keeps, matching, matching, BitVec.getLsbD_or, BitVec.getLsbD_or, h3, h4,
    Bool.true_or, Bool.true_or]

lemma toNat_toPmpAddr (v : Word) : (toPmpAddr v).toNat = v.toNat / 4 := by
  rw [toPmpAddr, BitVec.toNat_ushiftRight, Nat.shiftRight_eq_div_pow]

lemma trailingOnes_eq {v : Word} {t : ℕ} (ht : t < 32) (hones : ∀ i < t, v.getLsbD i = true)
    (hzero : v.getLsbD t = false) : trailingOnes v = t := by
  obtain ⟨_, hones', hzero'⟩ := trailingOnes_spec v
  rcases Nat.lt_trichotomy (trailingOnes v) t with hlt | heq | hlt
  · have hbit := hones _ hlt
    rw [hzero' (by omega)] at hbit
    cases hbit
  · exact heq
  · rw [hones' t hlt] at hzero
    cases hzero

section Block

variable {start size : Word} {k : ℕ}

lemma getLsbD_toPmpNapot (hk32 : k < 32) (hsize : size.toNat = 2 ^ k) (i : ℕ) :
    (toPmpNapot start size).getLsbD i = (start.getLsbD (i + 2) || decide (i + 3 < k)) := by
  have hmask : size - 1 = BitVec.ofNat 32 (2 ^ k - 1) := by
    have hlt := size.isLt
    apply BitVec.eq_of_toNat_eq
    rw [toNat_sub_one (by rw [hsize]; exact Nat.two_pow_pos k), hsize, BitVec.toNat_ofNat]
    omega
  have hcomm : 1 + (2 + i) = i + 3 := by omega
  rw [toPmpNapot, toPmpAddr, toNapotRange, hmask, BitVec.getLsbD_ushiftRight, BitVec.getLsbD_or,
    BitVec.getLsbD_ushiftRight, BitVec.getLsbD_ofNat, Nat.testBit_two_pow_sub_one, hcomm,
    Nat.add_comm 2 i]
  congr 1
  rw [← Bool.decide_and, decide_eq_decide]
  omega

lemma getLsbD_of_dvd (hstart : 2 ^ k ∣ start.toNat) {i : ℕ} (hi : i < k) :
    start.getLsbD i = false := by
  obtain ⟨q, hq⟩ := hstart
  rw [← BitVec.testBit_toNat, hq, Nat.testBit_two_pow_mul, decide_eq_false (by omega),
    Bool.false_and]

/-- The address register of a block has ones below the bit that gives the size. -/
lemma trailingOnes_toPmpNapot (hk : 3 ≤ k) (hk32 : k < 32) (hsize : size.toNat = 2 ^ k)
    (hstart : 2 ^ k ∣ start.toNat) : trailingOnes (toPmpNapot start size) = k - 3 := by
  apply trailingOnes_eq (by omega)
  · intro i hi
    rw [getLsbD_toPmpNapot hk32 hsize, decide_eq_true (by omega), Bool.or_true]
  · rw [getLsbD_toPmpNapot hk32 hsize, getLsbD_of_dvd hstart (by omega),
      decide_eq_false (by omega), Bool.or_false]

lemma toPmpNapot_div (hk : 3 ≤ k) (hk32 : k < 32) (hsize : size.toNat = 2 ^ k) :
    (toPmpNapot start size).toNat / 2 ^ (k - 2) = start.toNat / 2 ^ k := by
  have hshift : toPmpNapot start size >>> (k - 2) = start >>> k := by
    apply BitVec.eq_of_getLsbD_eq
    intro i _
    have hpos : k - 2 + i + 2 = k + i := by omega
    rw [BitVec.getLsbD_ushiftRight, BitVec.getLsbD_ushiftRight, getLsbD_toPmpNapot hk32 hsize,
      decide_eq_false (by omega), Bool.or_false, hpos]
  have htoNat := congrArg BitVec.toNat hshift
  rwa [BitVec.toNat_ushiftRight, BitVec.toNat_ushiftRight, Nat.shiftRight_eq_div_pow,
    Nat.shiftRight_eq_div_pow] at htoNat

/-- The range of a NAPOT entry is the block. -/
lemma covered_toPmpNapot (hk : 3 ≤ k) (hk32 : k < 32) (hsize : size.toNat = 2 ^ k)
    (hstart : 2 ^ k ∣ start.toNat) {c : Byte} (hm : matching c = .napot) (base : Word) :
    covered base ⟨c, toPmpNapot start size⟩ =
      some (start.toNat, start.toNat + size.toNat) := by
  have hpow : 4 * 2 ^ (k - 2) = 2 ^ k := by
    rw [show 4 = 2 ^ 2 from rfl, ← pow_add]
    congr 1
    omega
  have hblock : k - 3 + 1 = k - 2 := by omega
  have hfirst : 4 * (start.toNat / 2 ^ k * 2 ^ (k - 2)) = start.toNat := by
    rw [Nat.mul_left_comm, hpow, Nat.div_mul_cancel hstart]
  rw [covered, hm]
  simp only [trailingOnes_toPmpNapot hk hk32 hsize hstart, hblock,
    toPmpNapot_div hk hk32 hsize, Nat.mul_add, hfirst, hpow, hsize]

end Block

lemma toPmpNapot_four (start : Word) : toPmpNapot start 4 = toPmpAddr start := by
  apply BitVec.eq_of_getLsbD_eq
  intro i _
  rw [getLsbD_toPmpNapot (k := 2) (by omega) rfl, decide_eq_false (by omega), Bool.or_false,
    toPmpAddr, BitVec.getLsbD_ushiftRight, Nat.add_comm]

section Answers

variable {t : Table} {i a : ℕ} {r : RiscvPmpRegion}

lemma Table.Has.head {e : PmpEntry} {es : List PmpEntry} (h : t.Has i (e :: es)) : t i = e :=
  h 0 (Nat.zero_lt_succ _)

lemma Table.Has.tail {e : PmpEntry} {es : List PmpEntry} (h : t.Has i (e :: es)) :
    t.Has (i + 1) es := by
  intro k hk
  have hnext := h (k + 1) (Nat.succ_lt_succ hk)
  rwa [← Nat.add_assoc, Nat.add_right_comm] at hnext

lemma Table.has_nil (t : Table) (i : ℕ) : t.Has i [] := fun _ hk => absurd hk (Nat.not_lt_zero _)

lemma Table.Has.cons {e : PmpEntry} {es : List PmpEntry} (he : t i = e) (h : t.Has (i + 1) es) :
    t.Has i (e :: es) := by
  intro k hk
  cases k with
  | zero => exact he
  | succ k =>
    have hnext := h k (Nat.lt_of_succ_lt_succ hk)
    rwa [Nat.add_right_comm, Nat.add_assoc] at hnext

/-- A NA4 entry answers for one word. -/
lemma answer_na4 {v : Word} (hentry : t i = ⟨pmpNa4 ||| r.perm, toPmpAddr v⟩)
    (hkeeps : r.Keeps pmpNa4) (hv : 4 ∣ v.toNat) :
    t.answer a i =
      if v.toNat ≤ a ∧ a < v.toNat + 4 then some (permBits r.perm) else none := by
  have hmode : matching (pmpNa4 ||| r.perm) = .na4 := hkeeps
  have hrange : t.range i = some (v.toNat, v.toNat + 4) := by
    rw [Table.range, hentry, covered, hmode]
    simp only [toNat_toPmpAddr, Nat.mul_div_cancel' hv]
  rw [t.answer_eq a i hrange, hentry, permBits_or rfl]

/-- The whole memory. -/
lemma answers_whole (hwhole : r.start = 0 ∧ r.size = 0) (h : t.Has i r.entries)
    (ha : a < 2 ^ 32) : firstSome (t.answer a) i r.entries.length = r.area.permission a := by
  have hmode : matching (pmpNapot ||| r.perm) = .napot := keeps_napot r
  have hones : trailingOnes 0x1FFFFFFF = 29 := trailingOnes_eq (by omega) (by decide) (by decide)
  rw [RiscvPmpRegion.entries, if_pos hwhole] at h ⊢
  have hrange : t.range i = some (0, 2 ^ 32) := by
    rw [Table.range, h.head, covered, hmode]
    simp only [hones]
    rfl
  rw [RiscvPmpRegion.area, if_pos hwhole, Area.permission, if_pos ⟨Nat.zero_le a, ha⟩,
    List.length_singleton, firstSome_succ, firstSome_zero, Option.or_none, t.answer_eq a i hrange,
    h.head, permBits_or rfl, if_pos ⟨Nat.zero_le a, ha⟩]

/-- The two entries of a TOR region: the word at its base, and the whole of it
unless its end does not fit the word. -/
lemma answers_tor (hwhole : ¬ (r.start = 0 ∧ r.size = 0)) (hempty : ¬ r.Empty)
    (hmode : r.mode = .tor) (hstart : 4 ∣ r.start.toNat) (hsize : 4 ∣ r.size.toNat)
    (hend : r.start.toNat + r.size.toNat < 2 ^ 32 ∨ r.size = 4) (hna4 : r.Keeps pmpNa4)
    (htor : r.Keeps pmpTor) (h : t.Has i r.entries) :
    firstSome (t.answer a) i r.entries.length = r.area.permission a := by
  have hmatch : matching (pmpTor ||| r.perm) = .tor := htor
  have hpos : 4 ≤ r.size.toNat := by
    have hne : r.size.toNat ≠ 0 := by
      intro h0
      have hz : r.size = 0 := BitVec.eq_of_toNat_eq h0
      by_cases hs : r.start = 0
      · exact hwhole ⟨hs, hz⟩
      · exact hempty ⟨hz, hs⟩
    omega
  rw [RiscvPmpRegion.entries, if_neg hwhole, if_pos hmode] at h ⊢
  have hbase := h.head
  have htop := h.tail.head
  have hrange : t.range (i + 1) =
      some (r.start.toNat, (r.start.toNat + r.size.toNat) % 2 ^ 32) := by
    have hprev : t.base (i + 1) = toPmpAddr r.start := by
      rw [Table.base, if_neg (Nat.succ_ne_zero i), Nat.add_sub_cancel, hbase]
    have hsum : 4 ∣ (r.start.toNat + r.size.toNat) % 2 ^ 32 := by omega
    rw [Table.range, hprev, htop, covered, hmatch]
    simp only [toNat_toPmpAddr, BitVec.toNat_add, Nat.mul_div_cancel' hstart,
      Nat.mul_div_cancel' hsum]
  rw [RiscvPmpRegion.area, if_neg hwhole, Area.permission]
  show firstSome (t.answer a) i 2 = _
  rw [firstSome_succ, firstSome_succ, firstSome_zero, Option.or_none,
    answer_na4 hbase hna4 hstart, t.answer_eq a (i + 1) hrange, htop, permBits_or rfl]
  have hsize4 : r.size = 4 → r.size.toNat = 4 := by
    intro h4
    rw [h4]
    rfl
  by_cases hin : r.start.toNat ≤ a ∧ a < r.start.toNat + r.size.toNat
  · rw [if_pos hin]
    by_cases hword : r.start.toNat ≤ a ∧ a < r.start.toNat + 4
    · rw [if_pos hword, Option.some_or]
    · have hfit : r.start.toNat + r.size.toNat < 2 ^ 32 := by
        rcases hend with hlt | h4
        · exact hlt
        · have hsz := hsize4 h4
          omega
      rw [if_neg hword, Option.none_or, Nat.mod_eq_of_lt hfit, if_pos hin]
  · have hmod := Nat.mod_le (r.start.toNat + r.size.toNat) (2 ^ 32)
    rw [if_neg hin, if_neg (by omega), if_neg (by omega), Option.none_or]

/-- The one entry of a word or of a block. -/
lemma answers_one (hwhole : ¬ (r.start = 0 ∧ r.size = 0)) (hmode : r.mode ≠ .tor)
    (hstart : 4 ∣ r.start.toNat)
    (hfit : if r.mode = .na4 ∨ r.size = 4 then r.size = 4 ∧ r.Keeps pmpNa4
      else ∃ k < 32, 3 ≤ k ∧ r.size.toNat = 2 ^ k ∧ 2 ^ k ∣ r.start.toNat)
    (h : t.Has i r.entries) :
    firstSome (t.answer a) i r.entries.length = r.area.permission a := by
  rw [RiscvPmpRegion.entries, if_neg hwhole, if_neg hmode] at h ⊢
  have hentry := h.head
  rw [RiscvPmpRegion.area, if_neg hwhole, Area.permission, List.length_singleton, firstSome_succ,
    firstSome_zero, Option.or_none]
  by_cases hword : r.mode = .na4 ∨ r.size = 4
  · rw [if_pos hword] at hfit
    obtain ⟨h4, hkeeps⟩ := hfit
    rw [RiscvPmpRegion.oneEntryMode, if_pos hword, h4, toPmpNapot_four] at hentry
    rw [answer_na4 hentry hkeeps hstart, h4]
    rfl
  · rw [if_neg hword] at hfit
    obtain ⟨k, hk32, hk, hsize, halign⟩ := hfit
    have hmatch : matching (pmpNapot ||| r.perm) = .napot := keeps_napot r
    rw [RiscvPmpRegion.oneEntryMode, if_neg hword] at hentry
    have hrange : t.range i = some (r.start.toNat, r.start.toNat + r.size.toNat) := by
      rw [Table.range, hentry]
      exact covered_toPmpNapot hk hk32 hsize halign hmatch _
    rw [t.answer_eq a i hrange, hentry, permBits_or rfl]

/-- The entries of a region that the encoding can express answer as its area. -/
theorem answers_entries (hencodable : r.Encodable) (hempty : ¬ r.Empty) (h : t.Has i r.entries)
    (ha : a < 2 ^ 32) : firstSome (t.answer a) i r.entries.length = r.area.permission a := by
  by_cases hwhole : r.start = 0 ∧ r.size = 0
  · exact answers_whole hwhole h ha
  obtain hw | he | ⟨hstart, hsize, hfit⟩ := hencodable
  · exact absurd hw hwhole
  · exact absurd he hempty
  by_cases hmode : r.mode = .tor
  · rw [if_pos hmode] at hfit
    exact answers_tor hwhole hempty hmode hstart hsize hfit.1 hfit.2.1 hfit.2.2 h
  · rw [if_neg hmode] at hfit
    exact answers_one hwhole hmode hstart hfit h

/-- An empty region asks for nothing. -/
lemma area_of_empty (hempty : r.Empty) (a : ℕ) : r.area.permission a = none := by
  have hsize : r.size.toNat = 0 := by
    rw [hempty.1]
    rfl
  rw [RiscvPmpRegion.area, if_neg (fun hw => hempty.2 hw.1), Area.permission, if_neg]
  simp only
  omega

end Answers

end Encoding

end WchIotSdk.Pmp
