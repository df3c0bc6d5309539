import WchIotSdk.PmpRefinement

/-!
# Which regions are encoded exactly

The check before a region is translated asks for multiples of four. The entries
of the region, in a table that is otherwise off, are to cover its bytes and no
others. For each encoding this is a condition on the bounds of the region, and on
the two bits of its permissions that fall on the matching mode.
-/
namespace WchIotSdk.Pmp
open FirstMatch

/-- The table gives each address the permissions of the area, if it holds it. -/
def Table.AnswersAs (t : Table) (n : ℕ) (area : Area) : Prop :=
  ∀ a < 2 ^ 32, t.permission n a = area.permission a

/-- The alignment check of a region. -/
def RiscvPmpRegion.Aligned (r : RiscvPmpRegion) : Prop :=
  r.start &&& 0x3 = 0 ∧ r.size &&& 0x3 = 0 ∧ r.size ≠ 0

instance (r : RiscvPmpRegion) : Decidable r.Aligned := inferInstanceAs (Decidable (_ ∧ _ ∧ _))

/-- The first address after the region. -/
def RiscvPmpRegion.stop (r : RiscvPmpRegion) : ℕ := r.start.toNat + r.size.toNat

/-- The regions that their entries cover exactly. Bits 3 and 4 of the
permissions are those of the matching mode. -/
def RiscvPmpRegion.Exact (r : RiscvPmpRegion) : Prop :=
  if r.mode = .tor then
    r.perm.getLsbD 4 = false ∧
      if r.perm.getLsbD 3 = true then
        8 ∣ r.start.toNat ∧ (r.size = 8 ∨ 8 ≤ r.size.toNat ∧ r.stop < 2 ^ 32)
      else r.size = 4 ∨ r.stop < 2 ^ 32
  else if (r.mode = .na4 ∨ r.size = 4) ∧ r.perm.getLsbD 3 = false then r.size = 4
  else ∃ k < 32, 3 ≤ k ∧ r.size.toNat = 2 ^ k ∧ 2 ^ k ∣ r.start.toNat

instance (r : RiscvPmpRegion) : Decidable r.Exact := by
  unfold RiscvPmpRegion.Exact
  infer_instance

section Modes

lemma matching_na4_or (perm : Byte) :
    matching (pmpNa4 ||| perm) = if perm.getLsbD 3 = true then .napot else .na4 := by
  have h3 : pmpNa4.getLsbD 3 = false := rfl
  have h4 : pmpNa4.getLsbD 4 = true := rfl
  rw [matching, BitVec.getLsbD_or, BitVec.getLsbD_or, h3, h4, Bool.true_or, Bool.false_or]
  cases perm.getLsbD 3 <;> rfl

lemma matching_tor_or (perm : Byte) :
    matching (pmpTor ||| perm) = if perm.getLsbD 4 = true then .napot else .tor := by
  have h3 : pmpTor.getLsbD 3 = true := rfl
  have h4 : pmpTor.getLsbD 4 = false := rfl
  rw [matching, BitVec.getLsbD_or, BitVec.getLsbD_or, h3, h4, Bool.true_or, Bool.false_or]
  cases perm.getLsbD 4 <;> rfl

lemma matching_napot_or (perm : Byte) : matching (pmpNapot ||| perm) = .napot := by
  have h3 : pmpNapot.getLsbD 3 = true := rfl
  have h4 : pmpNapot.getLsbD 4 = true := rfl
  rw [matching, BitVec.getLsbD_or, BitVec.getLsbD_or, h3, h4, Bool.true_or, Bool.true_or]

end Modes

section Ranges

variable {lo hi start stop : ℕ}

/-- Among the 32-bit addresses a range is an area if it starts where the area
does and ends there too, or both reach the last address. -/
lemma range_eq_iff (hne : start < stop) (hstop : stop ≤ 2 ^ 32) :
    (∀ a < 2 ^ 32, (lo ≤ a ∧ a < hi) ↔ (start ≤ a ∧ a < stop)) ↔
      lo = start ∧ (hi = stop ∨ stop = 2 ^ 32 ∧ 2 ^ 32 ≤ hi) := by
  constructor
  · intro h
    obtain ⟨hlo, hhi⟩ := (h start (by omega)).mpr ⟨le_rfl, hne⟩
    have hfirst := (h lo (by omega)).mp ⟨le_rfl, by omega⟩
    refine ⟨by omega, ?_⟩
    by_cases hshort : hi < stop
    · have hin := (h hi (by omega)).mpr ⟨by omega, hshort⟩
      omega
    · by_cases htop : stop < 2 ^ 32
      · by_cases hlong : stop < hi
        · have hout := (h stop htop).mp ⟨by omega, hlong⟩
          omega
        · omega
      · omega
  · intro h a ha
    omega

/-- The range of a NAPOT entry. -/
def napotRange (v : Word) : ℕ × ℕ :=
  (4 * (v.toNat / 2 ^ (trailingOnes v + 1) * 2 ^ (trailingOnes v + 1)),
    4 * (v.toNat / 2 ^ (trailingOnes v + 1) * 2 ^ (trailingOnes v + 1) + 2 ^ (trailingOnes v + 1)))

lemma covered_napot {c : Byte} (hm : matching c = .napot) (base v : Word) :
    covered base ⟨c, v⟩ = some (napotRange v) := by
  rw [covered, hm]
  rfl

lemma napotRange_mem (v : Word) :
    (napotRange v).1 ≤ 4 * v.toNat ∧ 4 * v.toNat < (napotRange v).2 := by
  have hpos : 0 < 2 ^ (trailingOnes v + 1) := Nat.two_pow_pos _
  have hle := Nat.div_mul_le_self v.toNat (2 ^ (trailingOnes v + 1))
  have hlt := Nat.lt_div_mul_add hpos (a := v.toNat)
  unfold napotRange
  omega

/-- A NAPOT range is a block of a power of two at a multiple of it. -/
lemma napotRange_block (v : Word) :
    ∃ k ≥ 3, (napotRange v).2 = (napotRange v).1 + 2 ^ k ∧ 2 ^ k ∣ (napotRange v).1 := by
  have hpow : 2 ^ (trailingOnes v + 3) = 4 * 2 ^ (trailingOnes v + 1) := by ring
  refine ⟨trailingOnes v + 3, by omega, ?_, ?_⟩
  · rw [napotRange, hpow]
    ring
  · rw [napotRange, hpow]
    exact Nat.mul_dvd_mul_left 4 (Dvd.intro_left _ rfl)

/-- An even address register stands for eight bytes. -/
lemma napotRange_even {v : Word} (hv : 2 ∣ v.toNat) :
    napotRange v = (4 * v.toNat, 4 * v.toNat + 8) := by
  have hbit : v.getLsbD 0 = false := by
    rw [← BitVec.testBit_toNat, Nat.testBit_zero, Nat.mod_eq_zero_of_dvd hv]
    rfl
  have hones : trailingOnes v = 0 := trailingOnes_eq (by omega) (fun i hi => by omega) hbit
  rw [napotRange, hones, Nat.zero_add, Nat.pow_one, Nat.div_mul_cancel hv]
  congr 1

/-- A block that reaches the last 32-bit address ends there. -/
lemma block_size {start size k : ℕ} (hsize : 0 < size) (hlt : size < 2 ^ 32)
    (hdvd : 2 ^ k ∣ start)
    (hend : start + 2 ^ k = start + size ∨ start + size = 2 ^ 32 ∧ 2 ^ 32 ≤ start + 2 ^ k) :
    k < 32 ∧ size = 2 ^ k := by
  rcases hend with heq | ⟨htop, hreach⟩
  · have hpow : size = 2 ^ k := by omega
    refine ⟨?_, hpow⟩
    rw [hpow] at hlt
    exact (Nat.pow_lt_pow_iff_right (by norm_num)).mp hlt
  · have hk : k < 32 := by
      by_contra hge
      have hbig : 2 ^ 32 ∣ start := dvd_trans (pow_dvd_pow 2 (by omega)) hdvd
      have hzero := Nat.eq_zero_of_dvd_of_lt hbig (by omega)
      omega
    have hrest : 2 ^ k ∣ size := by
      have htotal : 2 ^ k ∣ start + size := by
        rw [htop]
        exact pow_dvd_pow 2 (by omega)
      exact (Nat.dvd_add_right hdvd).mp htotal
    have hle := Nat.le_of_dvd hsize hrest
    exact ⟨hk, by omega⟩

/-- The first `w` addresses from a start on, and those up to an end that is
taken modulo the address space, make up the area between the two. -/
lemma union_eq_iff {start size w : ℕ} (hsize : 0 < size) (hlt : size < 2 ^ 32)
    (hw : start + w ≤ 2 ^ 32) (hstop : start + size ≤ 2 ^ 32) :
    (∀ a < 2 ^ 32, (start ≤ a ∧ a < start + w ∨ start ≤ a ∧ a < (start + size) % 2 ^ 32) ↔
        (start ≤ a ∧ a < start + size)) ↔
      size = w ∨ w ≤ size ∧ start + size < 2 ^ 32 := by
  constructor
  · intro h
    by_cases htop : start + size < 2 ^ 32
    · have hafter := h (start + size) htop
      omega
    · have hbehind := h (start + w)
      omega
  · intro h a ha
    omega

end Ranges

section Exactness

variable {t : Table} {i n : ℕ} {r : RiscvPmpRegion}

lemma RiscvPmpRegion.Aligned.bounds (h : r.Aligned) :
    4 ∣ r.start.toNat ∧ 4 ∣ r.size.toNat ∧ 0 < r.size.toNat := by
  refine ⟨(and_three_eq_zero_iff _).mp h.1, (and_three_eq_zero_iff _).mp h.2.1, ?_⟩
  apply Nat.pos_of_ne_zero
  intro h0
  exact h.2.2 (BitVec.eq_of_toNat_eq h0)

lemma RiscvPmpRegion.Aligned.area_permission (h : r.Aligned) (a : ℕ) :
    r.area.permission a =
      if r.start.toNat ≤ a ∧ a < r.stop then some (permBits r.perm) else none := by
  have hwhole : ¬ (r.start = 0 ∧ r.size = 0) := fun hw => h.2.2 hw.2
  rw [RiscvPmpRegion.area, if_neg hwhole, Area.permission]
  rfl

/-- With the rest of the table off, the entries of the region answer alone. -/
lemma permission_eq_block {len : ℕ} (hn : i + len ≤ n)
    (hoff : ∀ j < n, j < i ∨ i + len ≤ j → (t j).cfg = 0) (a : ℕ) :
    t.permission n a = firstSome (t.answer a) i len := by
  obtain ⟨rest, hrest⟩ := Nat.exists_eq_add_of_le hn
  have hlow : firstSome (t.answer a) 0 i = none :=
    Table.firstSome_answer_off (fun j _ hj => hoff j (by omega) (Or.inl (by omega))) a
  have hhigh : firstSome (t.answer a) (i + len) rest = none :=
    Table.firstSome_answer_off (fun j hj hlt => hoff j (by omega) (Or.inr hj)) a
  rw [Table.permission_eq, hrest, Nat.add_assoc, firstSome_add, firstSome_add, Nat.zero_add, hlow,
    hhigh, Option.none_or, Option.or_none]

lemma some_ite_eq_iff {α : Type} (p q : Prop) [Decidable p] [Decidable q] (x : α) :
    ((if p then some x else none) = if q then some x else none) ↔ (p ↔ q) := by
  by_cases hp : p
  · by_cases hq : q
    · simp [hp, hq]
    · simp [hp, hq]
  · by_cases hq : q
    · simp [hp, hq]
    · simp [hp, hq]

/-- One entry is exact if its range is the area. -/
lemma answersAs_one (h : r.Aligned) (hstop : r.stop ≤ 2 ^ 32) {mode : Byte} {v : Word}
    (hmode : permBits mode = 0) (hentry : t i = ⟨mode ||| r.perm, v⟩) {p : ℕ × ℕ}
    (hrange : t.range i = some p) :
    (∀ a < 2 ^ 32, firstSome (t.answer a) i 1 = r.area.permission a) ↔
      p.1 = r.start.toNat ∧ (p.2 = r.stop ∨ r.stop = 2 ^ 32 ∧ 2 ^ 32 ≤ p.2) := by
  have hsize := h.bounds.2.2
  rw [← range_eq_iff (show r.start.toNat < r.stop by unfold RiscvPmpRegion.stop; omega) hstop]
  apply forall₂_congr
  intro a _
  rw [firstSome_succ, firstSome_zero, Option.or_none, t.answer_eq a i hrange, hentry,
    permBits_or hmode, h.area_permission]
  exact some_ite_eq_iff _ _ _

/-- Two entries are exact if their ranges make up the area. -/
lemma answersAs_two (h : r.Aligned) {mode mode' : Byte} {v v' : Word} (hmode : permBits mode = 0)
    (hmode' : permBits mode' = 0) (hentry : t i = ⟨mode ||| r.perm, v⟩)
    (hentry' : t (i + 1) = ⟨mode' ||| r.perm, v'⟩) {p p' : ℕ × ℕ}
    (hrange : t.range i = some p) (hrange' : t.range (i + 1) = some p') :
    (∀ a < 2 ^ 32, firstSome (t.answer a) i 2 = r.area.permission a) ↔
      ∀ a < 2 ^ 32, (p.1 ≤ a ∧ a < p.2 ∨ p'.1 ≤ a ∧ a < p'.2) ↔
        (r.start.toNat ≤ a ∧ a < r.stop) := by
  apply forall₂_congr
  intro a _
  have hor : ((if p.1 ≤ a ∧ a < p.2 then some (permBits r.perm) else none).or
      (if p'.1 ≤ a ∧ a < p'.2 then some (permBits r.perm) else none)) =
      if p.1 ≤ a ∧ a < p.2 ∨ p'.1 ≤ a ∧ a < p'.2 then some (permBits r.perm) else none := by
    by_cases h1 : p.1 ≤ a ∧ a < p.2
    · rw [if_pos h1, if_pos (Or.inl h1), Option.some_or]
    · by_cases h2 : p'.1 ≤ a ∧ a < p'.2
      · rw [if_neg h1, if_pos h2, if_pos (Or.inr h2), Option.none_or]
      · rw [if_neg h1, if_neg h2, if_neg (fun hc => hc.elim h1 h2), Option.none_or]
  rw [firstSome_succ, firstSome_succ, firstSome_zero, Option.or_none, t.answer_eq a i hrange,
    t.answer_eq a (i + 1) hrange', hentry, hentry', permBits_or hmode, permBits_or hmode',
    h.area_permission, hor]
  exact some_ite_eq_iff _ _ _

/-- The block of a NAPOT entry is the area only if the area is such a block. -/
lemma napot_exact_iff (h : r.Aligned) (hstop : r.stop ≤ 2 ^ 32) {mode : Byte}
    (hmode : permBits mode = 0) (hmatch : matching (mode ||| r.perm) = .napot)
    (hentry : t i = ⟨mode ||| r.perm, toPmpNapot r.start r.size⟩) :
    (∀ a < 2 ^ 32, firstSome (t.answer a) i 1 = r.area.permission a) ↔
      ∃ k < 32, 3 ≤ k ∧ r.size.toNat = 2 ^ k ∧ 2 ^ k ∣ r.start.toNat := by
  have hrange : t.range i = some (napotRange (toPmpNapot r.start r.size)) := by
    rw [Table.range, hentry]
    exact covered_napot hmatch _ _
  rw [answersAs_one h hstop hmode hentry hrange]
  constructor
  · intro hexact
    obtain ⟨hlo, hhi⟩ := hexact
    obtain ⟨k, hk, hblock, hdvd⟩ := napotRange_block (toPmpNapot r.start r.size)
    rw [hlo] at hblock hdvd
    rw [hblock] at hhi
    obtain ⟨hk32, hpow⟩ := block_size h.bounds.2.2 r.size.isLt hdvd hhi
    exact ⟨k, hk32, hk, hpow, hdvd⟩
  · intro hblock
    obtain ⟨k, hk32, hk, hpow, hdvd⟩ := hblock
    have hcov := covered_toPmpNapot hk hk32 hpow hdvd hmatch (t.base i)
    rw [covered_napot hmatch] at hcov
    have heq := Option.some.inj hcov
    rw [heq]
    exact ⟨rfl, Or.inl rfl⟩

/-- The word of a NA4 entry is the area only if the area is that word. -/
lemma na4_exact_iff (h : r.Aligned) (hstop : r.stop ≤ 2 ^ 32) {mode : Byte}
    (hmode : permBits mode = 0) (hmatch : matching (mode ||| r.perm) = .na4)
    (hentry : t i = ⟨mode ||| r.perm, toPmpNapot r.start r.size⟩) :
    (∀ a < 2 ^ 32, firstSome (t.answer a) i 1 = r.area.permission a) ↔ r.size = 4 := by
  have hrange : t.range i = some (4 * (toPmpNapot r.start r.size).toNat,
      4 * (toPmpNapot r.start r.size).toNat + 4) := by
    rw [Table.range, hentry, covered, hmatch]
  obtain ⟨hstart, hsize, hpos⟩ := h.bounds
  have hfour : r.size = 4 ↔ r.size.toNat = 4 := BitVec.toNat_inj.symm
  rw [answersAs_one h hstop hmode hentry hrange, hfour]
  unfold RiscvPmpRegion.stop at *
  constructor
  · intro hexact
    omega
  · intro hsize4
    have haddr : toPmpNapot r.start r.size = toPmpAddr r.start := by
      rw [hfour.mpr hsize4, toPmpNapot_four]
    rw [haddr, toNat_toPmpAddr]
    simp only
    omega

/-- The first of the two entries of a TOR region. -/
lemma tor_base_range (hstart : 4 ∣ r.start.toNat)
    (hentry : t i = ⟨pmpNa4 ||| r.perm, toPmpAddr r.start⟩) :
    t.range i = some (if r.perm.getLsbD 3 = true then napotRange (toPmpAddr r.start)
      else (r.start.toNat, r.start.toNat + 4)) := by
  by_cases hbit3 : r.perm.getLsbD 3 = true
  · have hmatch : matching (pmpNa4 ||| r.perm) = .napot := by rw [matching_na4_or, if_pos hbit3]
    rw [if_pos hbit3, Table.range, hentry]
    exact covered_napot hmatch _ _
  · have hmatch : matching (pmpNa4 ||| r.perm) = .na4 := by rw [matching_na4_or, if_neg hbit3]
    rw [if_neg hbit3, Table.range, hentry, covered, hmatch]
    simp only [toNat_toPmpAddr, Nat.mul_div_cancel' hstart]

/-- A first entry with the bit set is a block, which has to start with the region. -/
lemma tor_block_iff (h : r.Aligned) (hstop : r.stop ≤ 2 ^ 32) :
    (∀ a < 2 ^ 32, ((napotRange (toPmpAddr r.start)).1 ≤ a ∧
          a < (napotRange (toPmpAddr r.start)).2 ∨
        r.start.toNat ≤ a ∧ a < r.stop % 2 ^ 32) ↔ (r.start.toNat ≤ a ∧ a < r.stop)) ↔
      8 ∣ r.start.toNat ∧ (r.size.toNat = 8 ∨ 8 ≤ r.size.toNat ∧ r.stop < 2 ^ 32) := by
  obtain ⟨hstart, hsize, hpos⟩ := h.bounds
  have hlt := r.size.isLt
  have hlow : 4 * (toPmpAddr r.start).toNat = r.start.toNat := by
    rw [toNat_toPmpAddr, Nat.mul_div_cancel' hstart]
  by_cases h8 : 8 ∣ r.start.toNat
  · have heven : napotRange (toPmpAddr r.start) = (r.start.toNat, r.start.toNat + 8) := by
      rw [napotRange_even (by omega), hlow]
    rw [heven, and_iff_right h8]
    unfold RiscvPmpRegion.stop at *
    exact union_eq_iff hpos hlt (by omega) hstop
  · apply iff_of_false _ (fun hc => h8 hc.1)
    intro hexact
    have hmem := napotRange_mem (toPmpAddr r.start)
    rw [hlow] at hmem
    obtain ⟨k, hk, -, hdvd⟩ := napotRange_block (toPmpAddr r.start)
    unfold RiscvPmpRegion.stop at *
    have hfirst := (hexact (napotRange (toPmpAddr r.start)).1 (by omega)).mp
      (Or.inl ⟨le_rfl, by omega⟩)
    have heq : (napotRange (toPmpAddr r.start)).1 = r.start.toNat := by omega
    rw [heq] at hdvd
    exact h8 (dvd_trans (pow_dvd_pow 2 hk) hdvd)

/-- The address register of a top, which is zero at the end of the address space. -/
lemma RiscvPmpRegion.Aligned.toPmpAddr_stop (h : r.Aligned) :
    4 * (toPmpAddr (r.start + r.size)).toNat = r.stop % 2 ^ 32 := by
  obtain ⟨hstart, hsize, -⟩ := h.bounds
  have hsum : (r.start + r.size).toNat = r.stop % 2 ^ 32 := BitVec.toNat_add _ _
  have hdvd : 4 ∣ r.stop % 2 ^ 32 := by
    unfold RiscvPmpRegion.stop
    omega
  rw [toNat_toPmpAddr, hsum, Nat.mul_div_cancel' hdvd]

/-- With the other bit set the second entry is a block with the first address after
the region. -/
lemma not_tor_exact (h : r.Aligned) (hbit4 : r.perm.getLsbD 4 = true)
    (hentry : t i = ⟨pmpNa4 ||| r.perm, toPmpAddr r.start⟩)
    (hentry' : t (i + 1) = ⟨pmpTor ||| r.perm, toPmpAddr (r.start + r.size)⟩) :
    ¬∀ a < 2 ^ 32, firstSome (t.answer a) i 2 = r.area.permission a := by
  obtain ⟨hstart, hsize, hpos⟩ := h.bounds
  have hlt := r.size.isLt
  have hmatch : matching (pmpTor ||| r.perm) = .napot := by rw [matching_tor_or, if_pos hbit4]
  have hrange : t.range (i + 1) = some (napotRange (toPmpAddr (r.start + r.size))) := by
    rw [Table.range, hentry']
    exact covered_napot hmatch _ _
  have hmem := napotRange_mem (toPmpAddr (r.start + r.size))
  rw [h.toPmpAddr_stop] at hmem
  rw [answersAs_two h rfl rfl hentry hentry' (tor_base_range hstart hentry) hrange]
  intro hexact
  have hafter := (hexact (r.stop % 2 ^ 32) (Nat.mod_lt _ (by norm_num))).mp (Or.inr hmem)
  unfold RiscvPmpRegion.stop at *
  omega

/-- The two entries of a TOR region. -/
lemma tor_exact_iff (h : r.Aligned) (hstop : r.stop ≤ 2 ^ 32)
    (hentry : t i = ⟨pmpNa4 ||| r.perm, toPmpAddr r.start⟩)
    (hentry' : t (i + 1) = ⟨pmpTor ||| r.perm, toPmpAddr (r.start + r.size)⟩) :
    (∀ a < 2 ^ 32, firstSome (t.answer a) i 2 = r.area.permission a) ↔
      r.perm.getLsbD 4 = false ∧
        if r.perm.getLsbD 3 = true then
          8 ∣ r.start.toNat ∧ (r.size = 8 ∨ 8 ≤ r.size.toNat ∧ r.stop < 2 ^ 32)
        else r.size = 4 ∨ r.stop < 2 ^ 32 := by
  by_cases hbit4 : r.perm.getLsbD 4 = true
  · refine iff_of_false (not_tor_exact h hbit4 hentry hentry') fun hc => ?_
    rw [hbit4] at hc
    exact Bool.noConfusion hc.1
  obtain ⟨hstart, hsize, hpos⟩ := h.bounds
  have hlt := r.size.isLt
  have hfour : r.size = 4 ↔ r.size.toNat = 4 := BitVec.toNat_inj.symm
  have height : r.size = 8 ↔ r.size.toNat = 8 := BitVec.toNat_inj.symm
  have hmatch' : matching (pmpTor ||| r.perm) = .tor := by rw [matching_tor_or, if_neg hbit4]
  have hbase : t.base (i + 1) = toPmpAddr r.start := by
    rw [Table.base, if_neg (Nat.succ_ne_zero i), Nat.add_sub_cancel, hentry]
  have hrange' : t.range (i + 1) = some (r.start.toNat, r.stop % 2 ^ 32) := by
    rw [Table.range, hbase, hentry', covered, hmatch']
    simp only [h.toPmpAddr_stop]
    rw [toNat_toPmpAddr, Nat.mul_div_cancel' hstart]
  rw [answersAs_two h rfl rfl hentry hentry' (tor_base_range hstart hentry) hrange',
    and_iff_right (Bool.eq_false_of_not_eq_true hbit4)]
  by_cases hbit3 : r.perm.getLsbD 3 = true
  · simp only [if_pos hbit3, height]
    exact tor_block_iff h hstop
  · simp only [if_neg hbit3, hfour]
    unfold RiscvPmpRegion.stop at *
    rw [union_eq_iff hpos hlt (by omega) hstop]
    omega

/-- The entries of a region in a table that is off otherwise. -/
theorem answersAs_iff (h : r.Aligned) (hstop : r.stop ≤ 2 ^ 32)
    (hn : i + r.entries.length ≤ n) (hhas : t.Has i r.entries)
    (hoff : ∀ j < n, j < i ∨ i + r.entries.length ≤ j → (t j).cfg = 0) :
    t.AnswersAs n r.area ↔ r.Exact := by
  have hwhole : ¬ (r.start = 0 ∧ r.size = 0) := fun hw => h.2.2 hw.2
  unfold Table.AnswersAs
  simp only [permission_eq_block hn hoff]
  unfold RiscvPmpRegion.entries RiscvPmpRegion.Exact at *
  by_cases hmode : r.mode = .tor
  · simp only [if_neg hwhole, if_pos hmode] at hhas ⊢
    exact tor_exact_iff h hstop hhas.head hhas.tail.head
  · simp only [if_neg hwhole, if_neg hmode] at hhas ⊢
    have hentry := hhas.head
    rw [List.length_singleton]
    by_cases hword : r.mode = .na4 ∨ r.size = 4
    · rw [RiscvPmpRegion.oneEntryMode, if_pos hword] at hentry
      by_cases hbit3 : r.perm.getLsbD 3 = true
      · have hmatch : matching (pmpNa4 ||| r.perm) = .napot := by
          rw [matching_na4_or, if_pos hbit3]
        rw [if_neg (by simp [hbit3])]
        exact napot_exact_iff h hstop rfl hmatch hentry
      · have hmatch : matching (pmpNa4 ||| r.perm) = .na4 := by
          rw [matching_na4_or, if_neg hbit3]
        rw [if_pos ⟨hword, Bool.eq_false_of_not_eq_true hbit3⟩]
        exact na4_exact_iff h hstop rfl hmatch hentry
    · rw [RiscvPmpRegion.oneEntryMode, if_neg hword] at hentry
      rw [if_neg (fun hc => hword hc.1)]
      exact napot_exact_iff h hstop rfl (matching_napot_or r.perm) hentry

end Exactness

section Translations

/-- Translated into a table that is off, a region that passes the check is
covered exactly, in the registers as in a context, under its condition only. -/
theorem translate_answersAs_iff (cfg : PmpConfig) (r : RiscvPmpRegion) (haligned : r.Aligned)
    (hstop : r.stop ≤ 2 ^ 32) (i : ℕ) (hroom : i + r.entries.length ≤ cfg.slots) (csrs : Csrs 32)
    (hcsrs : ∀ j < cfg.slots, cfgByte rv32 csrs j = 0) (pmp : KPmp)
    (hpmp : ∀ j < cfg.slots, pmp.uPmpcfg j = 0) :
    ((hwTable (riscvPmpRegionTranslate cfg (putCsr cfg) i r csrs).1).AnswersAs cfg.slots
        r.area ↔ r.Exact) ∧
      ((contextTable (riscvPmpRegionTranslate cfg putContext i r pmp).1).AnswersAs cfg.slots
        r.area ↔ r.Exact) := by
  constructor
  · obtain ⟨-, hhas, hkeep⟩ := riscvPmpRegionTranslate_spec (putsEntry_csr cfg) r hroom csrs
    apply answersAs_iff haligned hstop hroom hhas
    intro j hj hout
    rw [hkeep j hj hout]
    exact hcsrs j hj
  · obtain ⟨-, hhas, hkeep⟩ := riscvPmpRegionTranslate_spec (putsEntry_context cfg) r hroom pmp
    apply answersAs_iff haligned hstop hroom hhas
    intro j hj hout
    rw [hkeep j hj hout]
    exact hpmp j hj

/-- A region up to the last address, as a TOR range: its end is stored as zero,
and of its 16 bytes the first four are covered. -/
def lastBytes : RiscvPmpRegion := ⟨0xFFFFFFF0, 16, pmpR, .tor⟩

/-- A region of 12 bytes, as a block: the entry covers 16. -/
def twelveBytes : RiscvPmpRegion := ⟨0x20000000, 12, pmpR, .napot⟩

theorem encodings_not_exact :
    (lastBytes.Aligned ∧ lastBytes.stop ≤ 2 ^ 32 ∧
      ¬ (hwTable (riscvPmpRegionTranslate torConfig (putCsr torConfig) 0 lastBytes
        fun _ => 0).1).AnswersAs 8 lastBytes.area) ∧
    twelveBytes.Aligned ∧ twelveBytes.stop ≤ 2 ^ 32 ∧
      ¬ (hwTable (riscvPmpRegionTranslate torConfig (putCsr torConfig) 0 twelveBytes
        fun _ => 0).1).AnswersAs 8 twelveBytes.area := by
  refine ⟨⟨by decide, by decide, fun h => ?_⟩, by decide, by decide, fun h => ?_⟩
  · have hinside := h 0xFFFFFFF4 (by norm_num)
    revert hinside
    decide +kernel
  · have hbehind := h 0x2000000C (by norm_num)
    revert hbehind
    decide +kernel

/-- The program of 256 KiB is covered exactly. -/
theorem program_answersAs :
    (hwTable (riscvPmpRegionTranslate torConfig (putCsr torConfig) 6
      (romRegion torConfig 0 0x40000) fun _ => 0).1).AnswersAs 8
        (romRegion torConfig 0 0x40000).area :=
  (translate_answersAs_iff torConfig (romRegion torConfig 0 0x40000) (by decide) (by decide) 6
    (by decide) (fun _ => 0) (by decide +kernel) threadPmp (by decide +kernel)).1.mpr (by decide)

end Translations

end WchIotSdk.Pmp
