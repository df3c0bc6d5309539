import WchIotSdk.SimpleProfile

/-!
# The simple profile as a store of values

Over any interleaving of the four functions each characteristic holds the value of
the last write to it that is to be accepted. Which calls are is said by their
arguments alone. The one exception is an empty write by a client: it is accepted,
and a byte that was not supplied is taken.
-/
namespace WchIotSdk.SimpleProfile
open ByteDigits EventRuns LastWrite

/-- A call of one of the functions. -/
inductive Event
  | setParam (charc : Byte) (value : ℕ → Byte) (len : BitVec 32)
  | getParam (charc : Byte)
  | read (pAttr : GattAttribute) (offset maxLen : BitVec 16)
  | write (pAttr : GattAttribute) (pValue : ℕ → Byte) (len offset : BitVec 16) (processed : Byte)

def outcome (s : Sps) : Event → Outcome
  | .setParam charc value len => spsSetParam s charc value len
  | .getParam charc => spsGetParam s charc
  | .read pAttr offset maxLen => spsRead s pAttr offset maxLen
  | .write pAttr pValue len offset processed => spsWrite s pAttr pValue len offset processed

def step (s : Sps) (e : Event) : Sps := (outcome s e).sps

section Specification

/-- The characteristic of a parameter. -/
def Charc.ofParam (charc : Byte) : Option Charc :=
  [.char1, .char2, .char3, .char4, .char5].find? fun k => k.param = charc

/-- The characteristic whose value an attribute is. -/
def GattAttribute.charc (a : GattAttribute) : Option Charc :=
  if a.typeLen = attBtUuidSize then
    [.char1, .char2, .char3, .char4, .char5].find? fun k : Charc => k.uuid = a.uuid
  else none

/-- The characteristics that clients may read, and those that they may write, as
the table permits. The fourth is only ever notified by the table, and yet read. -/
def Charc.Readable (k : Charc) : Prop := k ≠ .char3

def Charc.Writable (k : Charc) : Prop := k = .char1 ∨ k = .char3

instance (k : Charc) : Decidable k.Readable := inferInstanceAs (Decidable (_ ≠ _))

instance (k : Charc) : Decidable k.Writable := inferInstanceAs (Decidable (_ ∨ _))

/-- The calls that are to be accepted: of a known parameter, with the whole of its
value to set it; or of an attribute without the authorization bit, from offset
zero, with no more bytes than fit. A configuration is left to the library. -/
def Event.Acceptable : Event → Prop
  | .setParam charc _ len => ∃ k ∈ Charc.ofParam charc, len.toNat = k.len
  | .getParam charc => (Charc.ofParam charc).isSome = true
  | .read pAttr offset _ =>
    pAttr.permissions &&& gattPermitAuthorRead = 0 ∧ offset = 0 ∧
      ∃ k ∈ pAttr.charc, k.Readable
  | .write pAttr _ len offset processed =>
    pAttr.permissions &&& gattPermitAuthorWrite = 0 ∧
      ((offset = 0 ∧ ∃ k ∈ pAttr.charc, k.Writable ∧ len.toNat ≤ k.len) ∨
        (pAttr.typeLen = attBtUuidSize ∧ pAttr.uuid = gattClientCharCfgUuid ∧
          processed = success))

instance (e : Event) : Decidable e.Acceptable :=
  match e with
  | .setParam _ _ _ => inferInstanceAs (Decidable (∃ _ ∈ _, _))
  | .getParam _ => inferInstanceAs (Decidable (_ = _))
  | .read _ _ _ => inferInstanceAs (Decidable (_ ∧ _ ∧ ∃ _ ∈ _, _))
  | .write _ _ _ _ _ =>
    inferInstanceAs (Decidable (_ ∧ ((_ ∧ ∃ _ ∈ _, _ ∧ _) ∨ (_ ∧ _ ∧ _))))

/-- The characteristic that a call writes, if it is accepted, and the bytes supplied. -/
def Event.target : Event → Option (Charc × List Byte)
  | .setParam charc value len => (Charc.ofParam charc).map (·, firstBytes value len.toNat)
  | .write pAttr pValue len _ _ => pAttr.charc.map (·, firstBytes pValue len.toNat)
  | _ => none

/-- The write that a call makes: the bytes supplied come in front of the others. -/
def accepted (s : Sps) (e : Event) : List (Charc × List Byte) :=
  if e.Acceptable then
    (e.target.map fun w => (w.1, w.2 ++ (s.value w.1).drop w.2.length)).toList
  else []

/-- The same call, with other bytes in memory behind the bytes supplied. -/
def Event.SameSupplied : Event → Event → Prop
  | .setParam charc value len, e =>
    ∃ value', (∀ i < len.toNat, value' i = value i) ∧ e = .setParam charc value' len
  | .write pAttr pValue len offset processed, e =>
    ∃ pValue', (∀ i < len.toNat, pValue' i = pValue i) ∧
      e = .write pAttr pValue' len offset processed
  | e, e' => e' = e

/-- What a call notifies the application of: a write by a client, if it is to be
accepted. -/
def notifies (s : Sps) (e : Event) : List (Byte × List Byte) :=
  match e with
  | .write pAttr pValue len _ _ =>
    if e.Acceptable ∧ s.spsCb.any SpsCb.spsValueChanged then
      (pAttr.charc.map fun k => (k.param, firstBytes pValue len.toNat)).toList
    else []
  | _ => []

/-- The calls that must be rejected. -/
def Event.Refused : Event → Prop
  | .setParam charc _ len => ∀ k, Charc.ofParam charc = some k → len.toNat ≠ k.len
  | .getParam charc => Charc.ofParam charc = none
  | .read pAttr offset _ =>
    pAttr.permissions &&& gattPermitAuthorRead ≠ 0 ∨ offset > 0 ∨ pAttr.charc = none
  | .write pAttr _ len offset _ =>
    pAttr.permissions &&& gattPermitAuthorWrite ≠ 0 ∨
      (∃ k, pAttr.charc = some k ∧ (offset > 0 ∨ len.toNat > k.len)) ∨
      (pAttr.charc = none ∧
        ¬(pAttr.typeLen = attBtUuidSize ∧ pAttr.uuid = gattClientCharCfgUuid))

/-- A call does what a store of values does. -/
structure Served (s : Sps) (e : Event) : Prop where
  /-- The characteristics hold the write of the call, if there is one. -/
  holds : (step s e).value = lastWritten s.value (accepted s e)
  /-- Only bytes supplied are taken. -/
  onlySupplied : ∀ e', e.SameSupplied e' → (step s e').value = (step s e).value
  notified : (outcome s e).valueChanged = notifies s e
  /-- A call that is rejected calls the application back in no way. -/
  silent : ¬e.Acceptable → (outcome s e).cccChanged = []
  status : (outcome s e).status = success ↔ e.Acceptable
  refused : e.Refused → (outcome s e).status ≠ success
  /-- The application gets the value. -/
  gets : ∀ charc k, e = .getParam charc → Charc.ofParam charc = some k →
    (outcome s e).value = s.value k
  /-- A read gives the first bytes of the value. -/
  reads : ∀ pAttr offset maxLen, e = .read pAttr offset maxLen → e.Acceptable →
    ∃ k, pAttr.charc = some k ∧
      (outcome s e).value = (s.value k).take (min maxLen.toNat k.len) ∧
      (outcome s e).pLen = some (BitVec.ofNat 16 (min maxLen.toNat k.len))

/-- A write by a client to one of the characteristics it may write, with no byte
supplied. -/
def EmptyWrite : Event → Prop
  | .write pAttr _ len offset _ =>
    pAttr.permissions &&& gattPermitAuthorWrite = 0 ∧ offset = 0 ∧
      (∃ k ∈ pAttr.charc, k.Writable) ∧ len = 0
  | _ => False

end Specification

section Values

variable {s : Sps} {k : Charc} {src : ℕ → Byte} {n : ℕ}

lemma firstBytes_congr {p q : ℕ → Byte} (h : ∀ i < n, p i = q i) :
    firstBytes p n = firstBytes q n :=
  List.map_congr_left fun i hi => h i (List.mem_range.mp hi)

lemma take_firstBytes (p : ℕ → Byte) (m : ℕ) :
    (firstBytes p n).take m = firstBytes p (min m n) := by
  rw [firstBytes, ← List.map_take, List.take_range, firstBytes]

/-- A copy of the whole of a characteristic. -/
lemma value_memcpy : (s.memcpy (.charc k) src k.len).value =
    Function.update s.value k (firstBytes src k.len) := by
  funext j
  by_cases hj : j = k
  · subst hj
    rw [Function.update_self, Sps.value]
    apply firstBytes_congr
    intro i hi
    simp [Sps.memcpy, hi]
  · rw [Function.update_of_ne hj, Sps.value, Sps.value]
    have hne : Storage.charc j ≠ .charc k := fun h => hj (Storage.charc.inj h)
    simp [Sps.memcpy, Function.update_of_ne hne]

@[simp] lemma length_value (s : Sps) (k : Charc) : (s.value k).length = k.len :=
  length_firstBytes _ _

end Values

section Cases

variable {s : Sps} {a : GattAttribute} {k : Charc}

lemma invalidparameter_ne : invalidparameter ≠ success := by decide
lemma invalidRange_ne : bleInvalidRange ≠ success := by decide
lemma invalidHandle_ne : attErrInvalidHandle ≠ success := by decide
lemma insufficientAuthor_ne : attErrInsufficientAuthor ≠ success := by decide
lemma attrNotFound_ne : attErrAttrNotFound ≠ success := by decide
lemma attrNotLong_ne : attErrAttrNotLong ≠ success := by decide
lemma invalidValueSize_ne : attErrInvalidValueSize ≠ success := by decide

/-- The cases over the parameter of a characteristic. -/
lemma param_cases (charc : Byte) (f : Charc → Outcome) (d : Outcome) :
    (if charc = Charc.char1.param then f .char1
      else if charc = Charc.char2.param then f .char2
      else if charc = Charc.char3.param then f .char3
      else if charc = Charc.char4.param then f .char4
      else if charc = Charc.char5.param then f .char5
      else d) = (Charc.ofParam charc).elim d f := by
  by_cases h1 : charc = Charc.char1.param
  · subst h1
    rfl
  by_cases h2 : charc = Charc.char2.param
  · subst h2
    rfl
  by_cases h3 : charc = Charc.char3.param
  · subst h3
    rfl
  by_cases h4 : charc = Charc.char4.param
  · subst h4
    rfl
  by_cases h5 : charc = Charc.char5.param
  · subst h5
    rfl
  simp [Charc.ofParam, h1, h2, h3, h4, h5, Ne.symm h1, Ne.symm h2, Ne.symm h3, Ne.symm h4,
    Ne.symm h5]

lemma spsSetParam_eq (s : Sps) (charc : Byte) (value : ℕ → Byte) (len : BitVec 32) :
    spsSetParam s charc value len =
      (Charc.ofParam charc).elim (.ofStatus s invalidparameter) fun k => setValue s k value len :=
  param_cases charc (fun k => setValue s k value len) _

lemma spsGetParam_eq (s : Sps) (charc : Byte) :
    spsGetParam s charc =
      (Charc.ofParam charc).elim (.ofStatus s invalidparameter) (getValue s) :=
  param_cases charc (getValue s) _

lemma charc_eq_some :
    a.charc = some k ↔ a.typeLen = attBtUuidSize ∧ a.uuid = k.uuid := by
  rw [GattAttribute.charc]
  by_cases hlen : a.typeLen = attBtUuidSize
  · rw [if_pos hlen, and_iff_right hlen]
    constructor
    · intro h
      have hfound := List.find?_some h
      exact (of_decide_eq_true hfound).symm
    · intro h
      rw [h]
      cases k <;> rfl
  · rw [if_neg hlen]
    exact iff_of_false (fun h => Option.some_ne_none k h.symm) fun h => hlen h.1

lemma pValue_of_charc (h : a.charc = some k) : a.pValue = .charc k :=
  a.own k (charc_eq_some.mp h).1 (charc_eq_some.mp h).2

/-- A read changes nothing and calls nothing back. -/
lemma spsRead_sps (s : Sps) (a : GattAttribute) (offset maxLen : BitVec 16) :
    (spsRead s a offset maxLen).sps = s ∧ (spsRead s a offset maxLen).valueChanged = [] ∧
      (spsRead s a offset maxLen).cccChanged = [] := by
  unfold spsRead readValue Outcome.ofStatus
  split_ifs <;> exact ⟨rfl, rfl, rfl⟩

/-- The reads that are accepted. -/
lemma spsRead_accepted {offset maxLen : BitVec 16}
    (h : (spsRead s a offset maxLen).status = success) :
    a.permissions &&& gattPermitAuthorRead = 0 ∧ ¬offset > 0 ∧
      ∃ k, a.charc = some k ∧ k.Readable ∧
        spsRead s a offset maxLen = readValue s a k.len maxLen := by
  unfold spsRead at h ⊢
  by_cases hauthor : a.permissions &&& gattPermitAuthorRead ≠ 0
  · rw [if_pos hauthor] at h
    exact absurd h insufficientAuthor_ne
  rw [if_neg hauthor] at h ⊢
  by_cases hoffset : offset > 0
  · rw [if_pos hoffset] at h
    exact absurd h attrNotLong_ne
  rw [if_neg hoffset] at h ⊢
  refine ⟨not_not.mp hauthor, hoffset, ?_⟩
  by_cases hlen : a.typeLen = attBtUuidSize
  · rw [if_pos hlen] at h ⊢
    split_ifs at h ⊢ with h1 h2 h4 h5
    · exact ⟨.char1, charc_eq_some.mpr ⟨hlen, h1⟩, by decide, rfl⟩
    · exact ⟨.char2, charc_eq_some.mpr ⟨hlen, h2⟩, by decide, rfl⟩
    · exact ⟨.char4, charc_eq_some.mpr ⟨hlen, h4⟩, by decide, rfl⟩
    · exact ⟨.char5, charc_eq_some.mpr ⟨hlen, h5⟩, by decide, rfl⟩
    · exact absurd h attrNotFound_ne
  · rw [if_neg hlen] at h
    exact absurd h invalidHandle_ne

/-- A characteristic that clients may read. -/
lemma spsRead_readable {offset maxLen : BitVec 16}
    (hauthor : a.permissions &&& gattPermitAuthorRead = 0) (hoffset : offset = 0)
    (hk : a.charc = some k) (hreadable : k.Readable) :
    spsRead s a offset maxLen = readValue s a k.len maxLen := by
  obtain ⟨hlen, huuid⟩ := charc_eq_some.mp hk
  have hzero : ¬offset > 0 := by
    rw [hoffset]
    decide
  unfold spsRead
  rw [if_neg (not_not_intro hauthor), if_neg hzero, if_pos hlen, huuid]
  cases k with
  | char1 => rfl
  | char2 => rfl
  | char3 => exact absurd rfl hreadable
  | char4 => rfl
  | char5 => rfl

/-- A characteristic that is written. -/
lemma writeValue_accepted {pValue : ℕ → Byte} {len offset : BitVec 16} (hoffset : offset = 0)
    (hlen : len.toNat ≤ k.len) :
    writeValue s a pValue len offset k = (s.memcpy a.pValue pValue k.len, success, k.param) := by
  rw [writeValue, if_pos hoffset, if_neg (Nat.not_lt.mpr hlen)]
  exact if_pos rfl

lemma writeValue_rejected {pValue : ℕ → Byte} {len offset : BitVec 16}
    (h : ¬(offset = 0 ∧ len.toNat ≤ k.len)) :
    ∃ status, status ≠ success ∧
      writeValue s a pValue len offset k = (s, status, notifyNone) := by
  rw [writeValue]
  by_cases hoffset : offset = 0
  · have hlen : len.toNat > k.len := by
      by_contra hle
      exact h ⟨hoffset, Nat.not_lt.mp hle⟩
    rw [if_pos hoffset, if_pos hlen]
    exact ⟨_, invalidValueSize_ne, if_neg invalidValueSize_ne⟩
  · rw [if_neg hoffset]
    exact ⟨_, attrNotLong_ne, if_neg attrNotLong_ne⟩

/-- The state, the status and `notifyApp` of a write that is authorized. -/
def written (s : Sps) (a : GattAttribute) (pValue : ℕ → Byte) (len offset : BitVec 16)
    (processed : Byte) : Sps × Byte × Byte :=
  if a.typeLen = attBtUuidSize then
    if a.uuid = Charc.char1.uuid then writeValue s a pValue len offset .char1
    else if a.uuid = Charc.char3.uuid then writeValue s a pValue len offset .char3
    else if a.uuid = gattClientCharCfgUuid then (s, processed, notifyNone)
    else (s, attErrAttrNotFound, notifyNone)
  else (s, attErrInvalidHandle, notifyNone)

/-- It is refused, or left to the library, or the whole of a characteristic is copied. -/
lemma written_cases (s : Sps) (a : GattAttribute) (pValue : ℕ → Byte) (len offset : BitVec 16)
    (processed : Byte) :
    (∃ status, status ≠ success ∧
        written s a pValue len offset processed = (s, status, notifyNone)) ∨
      (a.charc = none ∧ a.typeLen = attBtUuidSize ∧ a.uuid = gattClientCharCfgUuid ∧
        written s a pValue len offset processed = (s, processed, notifyNone)) ∨
      (∃ k, a.charc = some k ∧ k.Writable ∧ offset = 0 ∧ len.toNat ≤ k.len ∧
        written s a pValue len offset processed =
          (s.memcpy (.charc k) pValue k.len, success, k.param)) := by
  have hvalue (k : Charc) (hk : a.charc = some k) (hwritable : k.Writable)
      (heq : written s a pValue len offset processed = writeValue s a pValue len offset k) :
      (∃ status, status ≠ success ∧
        written s a pValue len offset processed = (s, status, notifyNone)) ∨
      (∃ k, a.charc = some k ∧ k.Writable ∧ offset = 0 ∧ len.toNat ≤ k.len ∧
        written s a pValue len offset processed =
          (s.memcpy (.charc k) pValue k.len, success, k.param)) := by
    by_cases hok : offset = 0 ∧ len.toNat ≤ k.len
    · refine Or.inr ⟨k, hk, hwritable, hok.1, hok.2, ?_⟩
      rw [heq, writeValue_accepted hok.1 hok.2, pValue_of_charc hk]
    · obtain ⟨status, hne, hrejected⟩ := @writeValue_rejected s a k pValue len offset hok
      exact Or.inl ⟨status, hne, heq.trans hrejected⟩
  by_cases hlen : a.typeLen = attBtUuidSize
  swap
  · exact Or.inl ⟨_, invalidHandle_ne, if_neg hlen⟩
  by_cases h1 : a.uuid = Charc.char1.uuid
  · have heq : written s a pValue len offset processed =
        writeValue s a pValue len offset .char1 := by rw [written, if_pos hlen, if_pos h1]
    exact (hvalue .char1 (charc_eq_some.mpr ⟨hlen, h1⟩) (Or.inl rfl) heq).imp_right Or.inr
  by_cases h3 : a.uuid = Charc.char3.uuid
  · have heq : written s a pValue len offset processed =
        writeValue s a pValue len offset .char3 := by
      rw [written, if_pos hlen, if_neg h1, if_pos h3]
    exact (hvalue .char3 (charc_eq_some.mpr ⟨hlen, h3⟩) (Or.inr rfl) heq).imp_right Or.inr
  by_cases hccc : a.uuid = gattClientCharCfgUuid
  · refine Or.inr (Or.inl ⟨?_, hlen, hccc, ?_⟩)
    · cases hcharc : a.charc with
      | none => rfl
      | some k =>
        have huuid := (charc_eq_some.mp hcharc).2
        rw [hccc] at huuid
        revert huuid
        cases k <;> decide
    · rw [written, if_pos hlen, if_neg h1, if_neg h3, if_pos hccc]
  · refine Or.inl ⟨_, attrNotFound_ne, ?_⟩
    rw [written, if_pos hlen, if_neg h1, if_neg h3, if_neg hccc]

lemma param_ne_notifyNone (k : Charc) : k.param ≠ notifyNone := by
  cases k <;> decide

/-- The same of the callback of a client's write. -/
lemma spsWrite_cases (s : Sps) (a : GattAttribute) (pValue : ℕ → Byte) (len offset : BitVec 16)
    (processed : Byte) :
    let o := spsWrite s a pValue len offset processed
    (o.status ≠ success ∧ o.sps = s ∧ o.valueChanged = [] ∧ o.cccChanged = []) ∨
      (a.charc = none ∧ (a.typeLen = attBtUuidSize ∧ a.uuid = gattClientCharCfgUuid ∧
          processed = success) ∧ a.permissions &&& gattPermitAuthorWrite = 0 ∧
        o.status = success ∧ o.sps = s ∧ o.valueChanged = []) ∨
      (∃ k, a.charc = some k ∧ k.Writable ∧ offset = 0 ∧ len.toNat ≤ k.len ∧
        a.permissions &&& gattPermitAuthorWrite = 0 ∧ o.status = success ∧
        o.sps = s.memcpy (.charc k) pValue k.len ∧
        o.valueChanged = if s.spsCb.any SpsCb.spsValueChanged then
          [(k.param, firstBytes pValue len.toNat)] else []) := by
  intro o
  by_cases hauthor : a.permissions &&& gattPermitAuthorWrite ≠ 0
  · have ho : o = .ofStatus s attErrInsufficientAuthor := if_pos hauthor
    rw [ho]
    exact Or.inl ⟨insufficientAuthor_ne, rfl, rfl, rfl⟩
  have ho : o =
      { sps := (written s a pValue len offset processed).1
        status := (written s a pValue len offset processed).2.1
        pLen := none
        value := []
        valueChanged :=
          if (written s a pValue len offset processed).2.2 ≠ notifyNone ∧
              s.spsCb.any SpsCb.spsValueChanged then
            [((written s a pValue len offset processed).2.2, firstBytes pValue len.toNat)]
          else []
        cccChanged :=
          if (a.typeLen = attBtUuidSize ∧ a.uuid = gattClientCharCfgUuid) ∧
              (written s a pValue len offset processed).2.1 = success ∧
              s.spsCb.any SpsCb.spsCccChanged then
            [BitVec.ofNat 16 (leValue (firstBytes pValue 2))]
          else [] } := if_neg hauthor
  rw [ho]
  have hpermitted := not_not.mp hauthor
  have hnone (p : Prop) : ¬(notifyNone ≠ notifyNone ∧ p) := fun h => h.1 rfl
  obtain ⟨status, hne, hw⟩ | ⟨hcharc, hlen, hccc, hw⟩ | ⟨k, hcharc, hone, hoffset, hle, hw⟩ :=
    written_cases s a pValue len offset processed
  · rw [hw]
    dsimp only
    exact Or.inl ⟨hne, rfl, if_neg (hnone _), if_neg fun h => hne h.2.1⟩
  · rw [hw]
    dsimp only
    by_cases hprocessed : processed = success
    · exact Or.inr (Or.inl ⟨hcharc, ⟨hlen, hccc, hprocessed⟩, hpermitted, hprocessed, rfl,
        if_neg (hnone _)⟩)
    · exact Or.inl ⟨hprocessed, rfl, if_neg (hnone _), if_neg fun h => hprocessed h.2.1⟩
  · rw [hw]
    refine Or.inr (Or.inr ⟨k, hcharc, hone, hoffset, hle, hpermitted, rfl, rfl, ?_⟩)
    simp only [ne_eq, param_ne_notifyNone k, not_false_eq_true, true_and]

lemma Charc.Writable.len_eq (h : k.Writable) : k.len = 1 := by
  rcases h with rfl | rfl <;> rfl

/-- A client's write is accepted by its arguments. -/
lemma spsWrite_status_iff (s : Sps) (a : GattAttribute) (pValue : ℕ → Byte)
    (len offset : BitVec 16) (processed : Byte) :
    (spsWrite s a pValue len offset processed).status = success ↔
      (Event.write a pValue len offset processed).Acceptable := by
  obtain ⟨hne, -⟩ | ⟨-, hccc, hauthor, hstatus, -⟩ |
      ⟨k, hk, hwritable, hoffset, hle, hauthor, hstatus, -⟩ :=
    spsWrite_cases s a pValue len offset processed
  · refine iff_of_false hne ?_
    rintro ⟨hauthor, hcase⟩
    apply hne
    rw [spsWrite, if_neg (not_not_intro hauthor)]
    show (written s a pValue len offset processed).2.1 = success
    obtain ⟨hoffset, k, hk, hwritable, hle⟩ | ⟨hlen, hccc, hprocessed⟩ := hcase
    · obtain ⟨hlen, huuid⟩ := charc_eq_some.mp hk
      have hwritten : written s a pValue len offset processed =
          writeValue s a pValue len offset k := by
        rw [written, if_pos hlen, huuid]
        rcases hwritable with rfl | rfl
        · rfl
        · rfl
      rw [hwritten, writeValue_accepted hoffset hle]
    · rw [written, if_pos hlen, hccc, hprocessed]
      rfl
  · exact iff_of_true hstatus ⟨hauthor, Or.inr hccc⟩
  · exact iff_of_true hstatus ⟨hauthor, Or.inl ⟨hoffset, k, hk, hwritable, hle⟩⟩

/-- A read is accepted by its arguments. -/
lemma spsRead_status_iff (s : Sps) (a : GattAttribute) (offset maxLen : BitVec 16) :
    (spsRead s a offset maxLen).status = success ↔ (Event.read a offset maxLen).Acceptable := by
  constructor
  · intro h
    obtain ⟨hauthor, hoffset, k, hk, hreadable, -⟩ := spsRead_accepted h
    have hzero : offset = 0 := BitVec.le_zero_iff.mp (BitVec.not_lt.mp hoffset)
    exact ⟨hauthor, hzero, k, hk, hreadable⟩
  · rintro ⟨hauthor, hoffset, k, hk, hreadable⟩
    rw [spsRead_readable hauthor hoffset hk hreadable]
    rfl

/-- Which calls are accepted does not depend on the state. -/
theorem outcome_status_iff (s : Sps) (e : Event) :
    (outcome s e).status = success ↔ e.Acceptable := by
  cases e with
  | setParam charc value len =>
    rw [outcome, spsSetParam_eq, Event.Acceptable]
    cases hparam : Charc.ofParam charc with
    | none => exact iff_of_false invalidparameter_ne (by simp)
    | some k =>
      by_cases hlen : len.toNat = k.len
      · refine iff_of_true ?_ ⟨k, rfl, hlen⟩
        exact congrArg Outcome.status (if_pos hlen)
      · refine iff_of_false ?_ (by simpa using hlen)
        have hrefused : setValue s k value len = .ofStatus s bleInvalidRange := if_neg hlen
        show (setValue s k value len).status ≠ success
        rw [hrefused]
        exact invalidRange_ne
  | getParam charc =>
    rw [outcome, spsGetParam_eq, Event.Acceptable]
    cases hparam : Charc.ofParam charc with
    | none => exact iff_of_false invalidparameter_ne (by simp)
    | some k => exact iff_of_true rfl rfl
  | read pAttr offset maxLen => exact spsRead_status_iff s pAttr offset maxLen
  | write pAttr pValue len offset processed =>
    exact spsWrite_status_iff s pAttr pValue len offset processed

end Cases

section Calls

variable {s : Sps}

lemma lastWritten_accepted {e : Event} {k : Charc} {v : List Byte}
    (hstatus : (outcome s e).status = success) (htarget : e.target = some (k, v))
    (hlen : v.length = k.len) :
    lastWritten s.value (accepted s e) = Function.update s.value k v := by
  have hdrop : (s.value k).drop v.length = [] := by
    rw [List.drop_eq_nil_iff, length_value, hlen]
  rw [accepted, if_pos ((outcome_status_iff s e).mp hstatus), htarget]
  show lastWritten s.value [(k, v ++ (s.value k).drop v.length)] = _
  rw [lastWritten_singleton, hdrop, List.append_nil]

lemma lastWritten_rejected {e : Event} (hstatus : (outcome s e).status ≠ success) :
    lastWritten s.value (accepted s e) = s.value := by
  rw [accepted, if_neg (mt (outcome_status_iff s e).mpr hstatus), lastWritten_nil]

lemma lastWritten_no_target {e : Event} (htarget : e.target = none) :
    lastWritten s.value (accepted s e) = s.value := by
  rw [accepted, htarget]
  split_ifs <;> rfl

lemma Event.sameSupplied_self (e : Event) : e.SameSupplied e := by
  cases e with
  | setParam charc value len => exact ⟨value, fun _ _ => rfl, rfl⟩
  | getParam charc => rfl
  | read pAttr offset maxLen => rfl
  | write pAttr pValue len offset processed => exact ⟨pValue, fun _ _ => rfl, rfl⟩

/-- A call that is rejected, whatever lies behind the bytes supplied. -/
lemma served_of_rejected {e : Event} (hsame : ∀ e', e.SameSupplied e' → step s e' = s)
    (hstatus : (outcome s e).status ≠ success) (hvalue : (outcome s e).valueChanged = [])
    (hccc : (outcome s e).cccChanged = []) : Served s e := by
  have hnot : ¬e.Acceptable := mt (outcome_status_iff s e).mpr hstatus
  refine ⟨?_, ?_, ?_, fun _ => hccc, outcome_status_iff s e, fun _ => hstatus, ?_, ?_⟩
  · rw [hsame e e.sameSupplied_self, lastWritten_rejected hstatus]
  · intro e' he'
    rw [hsame e' he', hsame e e.sameSupplied_self]
  · rw [hvalue]
    cases e with
    | write pAttr pValue len offset processed => exact (if_neg fun h => hnot h.1).symm
    | setParam charc value len => rfl
    | getParam charc => rfl
    | read pAttr offset maxLen => rfl
  · rintro charc k rfl hk
    exact absurd (by rw [Event.Acceptable, hk]; rfl) hnot
  · intro _ _ _ _ hacceptable
    exact absurd hacceptable hnot

/-- A value is taken only if it is as long as the characteristic. -/
lemma setParam_cases (s : Sps) (charc : Byte) (len : BitVec 32) :
    (∃ k, Charc.ofParam charc = some k ∧ len.toNat = k.len ∧ ∀ value,
        outcome s (.setParam charc value len) =
          .ofStatus (s.memcpy (.charc k) value k.len) success) ∨
      ∃ status, status ≠ success ∧ ∀ value,
        outcome s (.setParam charc value len) = .ofStatus s status := by
  cases hparam : Charc.ofParam charc with
  | none =>
    refine Or.inr ⟨_, invalidparameter_ne, fun value => ?_⟩
    rw [outcome, spsSetParam_eq, hparam]
    rfl
  | some k =>
    by_cases hlen : len.toNat = k.len
    · refine Or.inl ⟨k, rfl, hlen, fun value => ?_⟩
      rw [outcome, spsSetParam_eq, hparam]
      exact if_pos hlen
    · refine Or.inr ⟨_, invalidRange_ne, fun value => ?_⟩
      rw [outcome, spsSetParam_eq, hparam]
      exact if_neg hlen

lemma served_setParam (charc : Byte) (value : ℕ → Byte) (len : BitVec 32) :
    Served s (.setParam charc value len) := by
  obtain ⟨k, hk, hlen, ho⟩ | ⟨status, hne, ho⟩ := setParam_cases s charc len
  · have hvalue (value : ℕ → Byte) : (step s (.setParam charc value len)).value =
        Function.update s.value k (firstBytes value len.toNat) := by
      rw [step, ho, hlen]
      exact value_memcpy
    have htarget : (Event.setParam charc value len).target =
        some (k, firstBytes value len.toNat) := by
      rw [Event.target, hk]
      rfl
    have hlength : (firstBytes value len.toNat).length = k.len := by
      rw [length_firstBytes, hlen]
    have hstatus : (outcome s (.setParam charc value len)).status = success := by
      rw [ho]
      rfl
    refine ⟨?_, ?_, ?_, fun hne => absurd ((outcome_status_iff s _).mp hstatus) hne,
      outcome_status_iff s _, fun hrefused => ?_, ?_, ?_⟩
    · rw [hvalue, lastWritten_accepted hstatus htarget hlength]
    · rintro e' ⟨value', hsame, rfl⟩
      rw [hvalue, hvalue, firstBytes_congr hsame]
    · rw [ho]
      rfl
    · exact absurd hlen (hrefused k hk)
    · intro _ _ heq
      cases heq
    · intro _ _ _ heq
      cases heq
  · apply served_of_rejected
    · rintro e' ⟨value', -, rfl⟩
      rw [step, ho]
      rfl
    · rw [ho]
      exact hne
    · rw [ho]
      rfl
    · rw [ho]
      rfl

lemma served_getParam (charc : Byte) : Served s (.getParam charc) := by
  cases hparam : Charc.ofParam charc with
  | none =>
    have ho : outcome s (.getParam charc) = .ofStatus s invalidparameter := by
      rw [outcome, spsGetParam_eq, hparam]
      rfl
    apply served_of_rejected
    · rintro e' rfl
      rw [step, ho]
      rfl
    · rw [ho]
      exact invalidparameter_ne
    · rw [ho]
      rfl
    · rw [ho]
      rfl
  | some k =>
    have ho : outcome s (.getParam charc) = getValue s k := by
      rw [outcome, spsGetParam_eq, hparam]
      rfl
    have hstatus : (outcome s (.getParam charc)).status = success := by
      rw [ho]
      rfl
    refine ⟨?_, ?_, ?_, fun hne => absurd ((outcome_status_iff s _).mp hstatus) hne,
      outcome_status_iff s _, fun hnone => ?_, ?_, ?_⟩
    · rw [step, ho, lastWritten_no_target rfl]
      rfl
    · rintro e' rfl
      rfl
    · rw [ho]
      rfl
    · exact absurd (hparam.symm.trans hnone) (Option.some_ne_none k)
    · intro charc' k' heq hk'
      obtain rfl := Event.getParam.inj heq
      obtain rfl := Option.some.inj (hparam.symm.trans hk')
      rw [ho]
      rfl
    · intro _ _ _ heq
      cases heq

lemma served_read (a : GattAttribute) (offset maxLen : BitVec 16) :
    Served s (.read a offset maxLen) := by
  obtain ⟨hsps, hvalue, hccc⟩ := spsRead_sps s a offset maxLen
  have hsame : ∀ e', (Event.read a offset maxLen).SameSupplied e' → step s e' = s := by
    rintro e' rfl
    exact hsps
  by_cases hstatus : (spsRead s a offset maxLen).status = success
  swap
  · exact served_of_rejected hsame hstatus hvalue hccc
  obtain ⟨hauthor, hoffset, k, hk, -, ho⟩ := spsRead_accepted hstatus
  refine ⟨?_, ?_, hvalue, fun _ => hccc, outcome_status_iff s _, ?_, ?_, ?_⟩
  · rw [hsame _ rfl, lastWritten_no_target rfl]
  · intro e' he'
    rw [hsame e' he', hsame _ rfl]
  · rintro (hrefused | hrefused | hrefused)
    · exact absurd hauthor hrefused
    · exact absurd hrefused hoffset
    · exact absurd (hk.symm.trans hrefused) (Option.some_ne_none k)
  · intro _ _ heq
    cases heq
  · intro a' offset' maxLen' heq _
    obtain ⟨rfl, rfl, rfl⟩ := Event.read.inj heq
    refine ⟨k, hk, ?_⟩
    show (spsRead s a offset maxLen).value = _ ∧ (spsRead s a offset maxLen).pLen = _
    have hpLen : (if maxLen.toNat > k.len then BitVec.ofNat 16 k.len else maxLen) =
        BitVec.ofNat 16 (min maxLen.toNat k.len) := by
      by_cases hlong : maxLen.toNat > k.len
      · rw [if_pos hlong, min_eq_right hlong.le]
      · rw [if_neg hlong, min_eq_left (Nat.not_lt.mp hlong), BitVec.ofNat_toNat, BitVec.setWidth_eq]
    have hsmall : (BitVec.ofNat 16 (min maxLen.toNat k.len)).toNat = min maxLen.toNat k.len := by
      rw [BitVec.toNat_ofNat]
      exact Nat.mod_eq_of_lt (lt_of_le_of_lt (min_le_left _ _) maxLen.isLt)
    rw [ho, readValue, hpLen, hsmall, pValue_of_charc hk, Sps.value, take_firstBytes,
      min_eq_left (min_le_right _ _)]
    exact ⟨rfl, rfl⟩

/-- The bytes of a write do not matter for its status. -/
lemma writeValue_status (a : GattAttribute) (pValue pValue' : ℕ → Byte) (len offset : BitVec 16)
    (k : Charc) :
    (writeValue s a pValue' len offset k).2.1 = (writeValue s a pValue len offset k).2.1 := by
  by_cases hok : offset = 0 ∧ len.toNat ≤ k.len
  · rw [writeValue_accepted hok.1 hok.2, writeValue_accepted hok.1 hok.2]
  · rw [writeValue, writeValue]
    split_ifs <;> rfl

lemma spsWrite_status (s : Sps) (a : GattAttribute) (pValue pValue' : ℕ → Byte)
    (len offset : BitVec 16) (processed : Byte) :
    (spsWrite s a pValue' len offset processed).status =
      (spsWrite s a pValue len offset processed).status := by
  by_cases hauthor : a.permissions &&& gattPermitAuthorWrite ≠ 0
  · rw [spsWrite, spsWrite, if_pos hauthor, if_pos hauthor]
  rw [spsWrite, spsWrite, if_neg hauthor, if_neg hauthor]
  show (written s a pValue' len offset processed).2.1 =
    (written s a pValue len offset processed).2.1
  rw [written, written]
  split_ifs
  · exact writeValue_status a pValue pValue' len offset .char1
  · exact writeValue_status a pValue pValue' len offset .char3
  · rfl
  · rfl
  · rfl

lemma refused_write_status {a : GattAttribute} {pValue : ℕ → Byte} {len offset : BitVec 16}
    {processed : Byte} (h : (Event.write a pValue len offset processed).Refused) :
    (spsWrite s a pValue len offset processed).status ≠ success := by
  obtain ⟨hne, -⟩ | ⟨hcharc, ⟨hlen, hccc, -⟩, hauthor, -⟩ | ⟨k, hk, -, hoffset, hle, hauthor, -⟩ :=
    spsWrite_cases s a pValue len offset processed
  · exact hne
  · rcases h with hrefused | ⟨k, hk, -⟩ | ⟨-, hother⟩
    · exact absurd hauthor hrefused
    · exact absurd (hk.symm.trans hcharc) (Option.some_ne_none k)
    · exact absurd ⟨hlen, hccc⟩ hother
  · rcases h with hrefused | ⟨k', hk', hwrong⟩ | ⟨hnone, -⟩
    · exact absurd hauthor hrefused
    · obtain rfl := Option.some.inj (hk.symm.trans hk')
      rcases hwrong with hlong | hbig
      · rw [hoffset] at hlong
        exact absurd hlong (by decide)
      · exact absurd hbig (Nat.not_lt.mpr hle)
    · exact absurd (hk.symm.trans hnone) (Option.some_ne_none k)

section Write

variable {a : GattAttribute} {k : Charc} {pValue : ℕ → Byte} {len offset : BitVec 16}
  {processed : Byte}

lemma spsWrite_rejected (hne : (spsWrite s a pValue len offset processed).status ≠ success) :
    (spsWrite s a pValue len offset processed).sps = s ∧
      (spsWrite s a pValue len offset processed).valueChanged = [] ∧
      (spsWrite s a pValue len offset processed).cccChanged = [] := by
  obtain ⟨-, hrest⟩ | ⟨-, -, -, hstatus, -⟩ | ⟨-, -, -, -, -, -, hstatus, -⟩ :=
    spsWrite_cases s a pValue len offset processed
  · exact hrest
  · exact absurd hstatus hne
  · exact absurd hstatus hne

lemma spsWrite_no_charc (hcharc : a.charc = none) :
    (spsWrite s a pValue len offset processed).sps = s ∧
      (spsWrite s a pValue len offset processed).valueChanged = [] := by
  obtain ⟨-, hsps, hvalue, -⟩ | ⟨-, -, -, -, hrest⟩ | ⟨k, hk, -⟩ :=
    spsWrite_cases s a pValue len offset processed
  · exact ⟨hsps, hvalue⟩
  · exact hrest
  · exact absurd (hk.symm.trans hcharc) (Option.some_ne_none k)

lemma spsWrite_charc (hk : a.charc = some k)
    (hstatus : (spsWrite s a pValue len offset processed).status = success) :
    (k.Writable ∧ offset = 0 ∧ len.toNat ≤ k.len ∧
        a.permissions &&& gattPermitAuthorWrite = 0) ∧
      (spsWrite s a pValue len offset processed).sps = s.memcpy (.charc k) pValue k.len ∧
      (spsWrite s a pValue len offset processed).valueChanged =
        if s.spsCb.any SpsCb.spsValueChanged then [(k.param, firstBytes pValue len.toNat)]
        else [] := by
  obtain ⟨hne, -⟩ | ⟨hnone, -⟩ | ⟨k', hk', hwritable, hoffset, hle, hauthor, -, hrest⟩ :=
    spsWrite_cases s a pValue len offset processed
  · exact absurd hstatus hne
  · exact absurd (hk.symm.trans hnone) (Option.some_ne_none k)
  · obtain rfl := Option.some.inj (hk.symm.trans hk')
    exact ⟨⟨hwritable, hoffset, hle, hauthor⟩, hrest⟩

lemma served_write_rejected
    (hne : (spsWrite s a pValue len offset processed).status ≠ success) :
    Served s (.write a pValue len offset processed) := by
  obtain ⟨-, hvalue, hccc⟩ := spsWrite_rejected hne
  refine served_of_rejected ?_ hne hvalue hccc
  rintro e' ⟨pValue', -, rfl⟩
  exact (spsWrite_rejected (by rwa [spsWrite_status s a pValue pValue'])).1

/-- A write that the library processes. -/
lemma served_write_no_charc (hcharc : a.charc = none)
    (hstatus : (spsWrite s a pValue len offset processed).status = success) :
    Served s (.write a pValue len offset processed) := by
  have hstep (pValue' : ℕ → Byte) : step s (.write a pValue' len offset processed) = s :=
    (spsWrite_no_charc hcharc).1
  have htarget : (Event.write a pValue len offset processed).target = none := by
    rw [Event.target, hcharc]
    rfl
  refine ⟨?_, ?_, ?_, fun hne => absurd ((spsWrite_status_iff ..).mp hstatus) hne,
    outcome_status_iff s _, refused_write_status, ?_, ?_⟩
  · rw [hstep, lastWritten_no_target htarget]
  · rintro e' ⟨pValue', -, rfl⟩
    rw [hstep, hstep]
  · show (spsWrite s a pValue len offset processed).valueChanged = _
    rw [(spsWrite_no_charc hcharc).2, notifies, hcharc]
    split_ifs <;> rfl
  · intro _ _ heq
    cases heq
  · intro _ _ _ heq
    cases heq

/-- Whatever the bytes are, the whole of the characteristic is copied. -/
lemma value_write (hk : a.charc = some k)
    (hstatus : (spsWrite s a pValue len offset processed).status = success)
    (pValue' : ℕ → Byte) :
    (step s (.write a pValue' len offset processed)).value =
      Function.update s.value k (firstBytes pValue' k.len) := by
  have hstatus' := (spsWrite_status s a pValue pValue' len offset processed).trans hstatus
  rw [step, outcome, (spsWrite_charc hk hstatus').2.1, value_memcpy]

/-- A write of fewer bytes takes one that lies behind them. -/
lemma not_served_write_short (hk : a.charc = some k)
    (hstatus : (spsWrite s a pValue len offset processed).status = success)
    (hlt : len.toNat < k.len) : ¬Served s (.write a pValue len offset processed) := by
  intro hserved
  -- the same bytes supplied, with others behind them
  let other : ℕ → Byte := fun i => if i < len.toNat then pValue i else pValue i + 1
  have hsame := hserved.onlySupplied (.write a other len offset processed)
    ⟨other, fun i hi => if_pos hi, rfl⟩
  rw [value_write hk hstatus, value_write hk hstatus] at hsame
  have hbytes := congrFun hsame k
  rw [Function.update_self, Function.update_self] at hbytes
  have hbyte := List.map_inj_left.mp hbytes len.toNat (List.mem_range.mpr hlt)
  have hother : other len.toNat = pValue len.toNat + 1 := if_neg (lt_irrefl _)
  rw [hother] at hbyte
  revert hbyte
  generalize pValue len.toNat = b
  revert b
  decide

/-- A write of all bytes. -/
lemma served_write_full (hk : a.charc = some k)
    (hstatus : (spsWrite s a pValue len offset processed).status = success)
    (hlen : len.toNat = k.len) : Served s (.write a pValue len offset processed) := by
  have hstep := value_write hk hstatus
  have htarget : (Event.write a pValue len offset processed).target =
      some (k, firstBytes pValue len.toNat) := by
    rw [Event.target, hk]
    rfl
  have hlength : (firstBytes pValue len.toNat).length = k.len := by
    rw [length_firstBytes, hlen]
  have haccepted : (outcome s (.write a pValue len offset processed)).status = success := hstatus
  refine ⟨?_, ?_, ?_, fun hne => absurd ((spsWrite_status_iff ..).mp hstatus) hne,
    outcome_status_iff s _, refused_write_status, ?_, ?_⟩
  · rw [hstep, lastWritten_accepted haccepted htarget hlength, hlen]
  · rintro e' ⟨pValue', hsame, rfl⟩
    rw [hstep, hstep, ← hlen, firstBytes_congr hsame]
  · show (spsWrite s a pValue len offset processed).valueChanged = _
    rw [(spsWrite_charc hk hstatus).2.2, notifies, hk]
    by_cases hcb : s.spsCb.any SpsCb.spsValueChanged = true
    · rw [if_pos hcb]
      exact (if_pos ⟨(spsWrite_status_iff ..).mp hstatus, hcb⟩).symm
    · rw [if_neg hcb]
      exact (if_neg fun h => hcb h.2).symm
  · intro _ _ heq
    cases heq
  · intro _ _ _ heq
    cases heq

end Write

lemma served_write_iff (a : GattAttribute) (pValue : ℕ → Byte) (len offset : BitVec 16)
    (processed : Byte) :
    Served s (.write a pValue len offset processed) ↔
      ¬EmptyWrite (.write a pValue len offset processed) := by
  by_cases hstatus : (spsWrite s a pValue len offset processed).status = success
  swap
  · refine iff_of_true (served_write_rejected hstatus) ?_
    rintro ⟨hauthor, hoffset, ⟨k, hk, hwritable⟩, hzero⟩
    have hle : len.toNat ≤ k.len := by
      rw [hzero]
      exact Nat.zero_le _
    exact hstatus ((spsWrite_status_iff ..).mpr ⟨hauthor, Or.inl ⟨hoffset, k, hk, hwritable, hle⟩⟩)
  cases hcharc : a.charc with
  | none =>
    refine iff_of_true (served_write_no_charc hcharc hstatus) ?_
    rintro ⟨-, -, ⟨k, hk, -⟩, -⟩
    exact Option.some_ne_none k (hk.symm.trans hcharc)
  | some k =>
    obtain ⟨⟨hwritable, hoffset, hle, hauthor⟩, -⟩ := spsWrite_charc hcharc hstatus
    have hone := hwritable.len_eq
    by_cases hzero : len = 0
    · have hlt : len.toNat < k.len := by
        rw [hzero, hone]
        exact Nat.one_pos
      have hempty : EmptyWrite (.write a pValue len offset processed) :=
        ⟨hauthor, hoffset, ⟨k, hcharc, hwritable⟩, hzero⟩
      exact iff_of_false (not_served_write_short hcharc hstatus hlt) (not_not.mpr hempty)
    · have hnonzero : len.toNat ≠ 0 := fun h => hzero (BitVec.eq_of_toNat_eq h)
      have hlen : len.toNat = k.len := by omega
      exact iff_of_true (served_write_full hcharc hstatus hlen) fun hempty => hzero hempty.2.2.2

lemma served_iff (s : Sps) (e : Event) : Served s e ↔ ¬EmptyWrite e := by
  cases e with
  | setParam charc value len => exact iff_of_true (served_setParam charc value len) id
  | getParam charc => exact iff_of_true (served_getParam charc) id
  | read pAttr offset maxLen => exact iff_of_true (served_read pAttr offset maxLen) id
  | write pAttr pValue len offset processed =>
    exact served_write_iff pAttr pValue len offset processed

/-- Over a run it is a condition on the calls alone. -/
lemma along_served_iff (s : Sps) (es : List Event) :
    Along step Served s es ↔ ∀ e ∈ es, ¬EmptyWrite e :=
  along_iff_forall served_iff s es

end Calls

/-- In a run of calls every call is served, and the characteristics hold the values
last written, exactly where no write by a client is empty. -/
theorem run_served_iff (s : Sps) (es : List Event) :
    (Along step Served s es ∧
        (run step s es).value = lastWritten s.value (outputs step accepted s es)) ↔
      ∀ e ∈ es, ¬EmptyWrite e := by
  rw [along_served_iff s es]
  refine and_iff_left_of_imp fun hempty => ?_
  exact run_lastWritten (fun s e h => h.holds) ((along_served_iff s es).mpr hempty)

/-- An empty write to the first characteristic, with 0x77 behind the pointer, replaces
the value 5. -/
theorem empty_write_takes_a_byte :
    let s : Sps := ⟨fun _ _ => 5, none⟩
    let es : List Event :=
      [.write (bleGattChrcValue .char1 (gattPermitRead ||| gattPermitWrite)) (fun _ => 0x77) 0 0 0]
    ¬(Along step Served s es ∧
      (run step s es).value = lastWritten s.value (outputs step accepted s es)) := by
  rintro s es ⟨-, hvalue⟩
  have htaken : (run step s es).value .char1 = [0x77] := by decide +kernel
  have hheld : lastWritten s.value (outputs step accepted s es) .char1 = [5] := by
    decide +kernel
  rw [hvalue, hheld] at htaken
  exact absurd htaken (by decide)

end WchIotSdk.SimpleProfile
