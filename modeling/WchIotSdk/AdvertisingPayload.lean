import WchIotSdk.Advertising

/-!
# The payloads that advertising hands on

A list of entries that fits into 31 bytes is written as its encoding, which is
handed to the library and parses back to the list. A list that does not fit is
written beyond the storage, whatever the library answers, and what is handed on is
not its encoding.
-/
namespace WchIotSdk.Advertising
open ByteDigits ByteMemory ByteOrder Buf TypeLengthValue

/-- The entry of a `struct ble_data`, with the data read from memory. -/
def BleData.entry {storage : ℤ} (mem : Memory) (e : BleData storage) : Entry :=
  (e.type, readBytes mem e.data e.len.toNat)

/-- The bytes that the entries take. -/
def payloadLen {storage : ℤ} (es : List (BleData storage)) : ℕ :=
  (es.map fun e => e.len.toNat + 2).sum

section Adding

variable {storage : ℤ} {s s' s'' : Store} {n : ℕ} {bs cs : List Byte}

/-- The bytes have been added to the `n` bytes in the buffer, and nothing else has
been written. -/
structure Appends (storage : ℤ) (n : ℕ) (bs : List Byte) (s s' : Store) : Prop where
  placed : Placed s'.buf storage bMaxAdvLen 0 (n + bs.length)
  bytes : readBytes s'.mem storage (n + bs.length) = readBytes s.mem storage n ++ bs
  outside : ∀ a, a < storage ∨ storage + bMaxAdvLen ≤ a → s'.mem a = s.mem a

lemma Appends.trans (h : Appends storage n bs s s')
    (h' : Appends storage (n + bs.length) cs s' s'') : Appends storage n (bs ++ cs) s s'' := by
  refine ⟨?_, ?_, fun a ha => (h'.outside a ha).trans (h.outside a ha)⟩
  · rw [List.length_append, ← Nat.add_assoc]
    exact h'.placed
  · rw [List.length_append, ← Nat.add_assoc, h'.bytes, h.bytes, List.append_assoc]

lemma appends_of_write (hplaced : Placed s'.buf storage bMaxAdvLen 0 (n + bs.length))
    (hmem : s'.mem = writeBytes s.mem (storage + n) bs) : Appends storage n bs s s' := by
  refine ⟨hplaced, ?_, fun a ha => ?_⟩
  · rw [hmem, readBytes_add, readBytes_writeBytes,
      readBytes_writeBytes_disjoint _ _ _ (Or.inl le_rfl)]
  · have hfits := hplaced.fits
    rw [hmem]
    exact writeBytes_outside _ _ _ (by omega)

lemma appends_addU8 (h : Placed s.buf storage bMaxAdvLen 0 n) (v : Byte)
    (hroom : n + 1 ≤ bMaxAdvLen) : Appends storage n [v] s (bufSimpleAddU8 s v).1 := by
  have hplaced := h.add (s := s) (x := 1) (by omega)
  refine appends_of_write hplaced ?_
  show store8 s.mem (bufSimpleTail s.buf) v = _
  rw [writeBytes_byte, h.tail]
  norm_num

lemma appends_addMem (h : Placed s.buf storage bMaxAdvLen 0 n) (mem : ℤ) (len : ℕ)
    (hroom : n + len ≤ bMaxAdvLen) :
    Appends storage n (readBytes s.mem mem len) s (bufSimpleAddMem s mem len).1 := by
  have hplaced := h.add (s := s) (x := len) (by omega)
  refine appends_of_write ?_ ?_
  · rw [length_readBytes]
    exact hplaced
  · show writeBytes s.mem (bufSimpleTail s.buf) (readBytes s.mem mem len) = _
    rw [h.tail]
    norm_num

end Adding

section Entries

variable {storage : ℤ} {s : Store} {n : ℕ}

@[simp] lemma payloadLen_nil : payloadLen ([] : List (BleData storage)) = 0 := rfl

@[simp] lemma payloadLen_cons (e : BleData storage) (es : List (BleData storage)) :
    payloadLen (e :: es) = e.len.toNat + 2 + payloadLen es := List.sum_cons

/-- The state after the three calls for an entry. -/
def addEntry (s : Store) (e : BleData storage) : Store :=
  (bufSimpleAddMem (bufSimpleAddU8 (bufSimpleAddU8 s (e.len + 1)).1 e.type).1 e.data
    e.len.toNat).1

lemma addEntries_cons (s : Store) (e : BleData storage) (es : List (BleData storage)) :
    addEntries s (e :: es) =
      ((addEntries (addEntry s e) es).1,
        (bufSimpleTail s.buf, 1) ::
          (bufSimpleTail (bufSimpleAddU8 s (e.len + 1)).1.buf, 1) ::
          (bufSimpleTail (bufSimpleAddU8 (bufSimpleAddU8 s (e.len + 1)).1 e.type).1.buf,
            e.len.toNat) :: (addEntries (addEntry s e) es).2) := rfl

lemma widths_entries (mem : Memory) (es : List (BleData storage)) :
    widths (es.map (BleData.entry mem)) = payloadLen es := by
  induction es with
  | nil => rfl
  | cons e es ih =>
    rw [List.map_cons, widths_cons, ih, payloadLen_cons, Entry.width, BleData.entry,
      length_readBytes]

lemma width_entry (mem : Memory) (e : BleData storage) :
    (encodeEntry (e.entry mem)).length = e.len.toNat + 2 := by
  rw [length_encodeEntry, Entry.width, BleData.entry, length_readBytes]

/-- An entry is added as its encoding. -/
lemma appends_entry (h : Placed s.buf storage bMaxAdvLen 0 n) (e : BleData storage)
    (hroom : n + (e.len.toNat + 2) ≤ bMaxAdvLen) :
    Appends storage n (encodeEntry (e.entry s.mem)) s (addEntry s e) := by
  have hlen := appends_addU8 h (e.len + 1) (by omega)
  have htype := appends_addU8 hlen.placed e.type (by simp only [List.length_singleton]; omega)
  have hdata := appends_addMem htype.placed e.data e.len.toNat
    (by simp only [List.length_singleton]; omega)
  have hread : readBytes (bufSimpleAddU8 (bufSimpleAddU8 s (e.len + 1)).1 e.type).1.mem e.data
      e.len.toNat = readBytes s.mem e.data e.len.toNat := by
    have hapart := e.apart
    apply readBytes_congr
    intro a ha hlt
    rw [htype.outside a (by omega), hlen.outside a (by omega)]
  have hbyte : BitVec.ofNat 8 ((readBytes s.mem e.data e.len.toNat).length + 1) = e.len + 1 := by
    rw [length_readBytes, BitVec.ofNat_add, BitVec.ofNat_toNat, BitVec.setWidth_eq]
    rfl
  rw [hread] at hdata
  have hall := (hlen.trans htype).trans hdata
  rw [encodeEntry, BleData.entry, hbyte]
  exact hall

/-- Entries that fit are added as their encoding, read from a memory that differs at
most in the storage. -/
lemma appends_entries {mem : Memory} (es : List (BleData storage))
    (h : Placed s.buf storage bMaxAdvLen 0 n)
    (hmem : ∀ a, a < storage ∨ storage + bMaxAdvLen ≤ a → s.mem a = mem a)
    (hroom : n + payloadLen es ≤ bMaxAdvLen) :
    Appends storage n (encode (es.map (BleData.entry mem))) s (addEntries s es).1 := by
  induction es generalizing s n with
  | nil =>
    refine ⟨h, ?_, fun _ _ => rfl⟩
    rw [List.map_nil, encode, List.append_nil]
    rfl
  | cons e es ih =>
    rw [payloadLen_cons] at hroom
    have hentry : e.entry s.mem = e.entry mem := by
      have hapart := e.apart
      rw [BleData.entry, BleData.entry]
      congr 1
      apply readBytes_congr
      intro a ha hlt
      exact hmem a (by omega)
    have hfirst := appends_entry h e (by omega)
    have hwidth := width_entry s.mem e
    have hrest := ih hfirst.placed (fun a ha => (hfirst.outside a ha).trans (hmem a ha))
      (by omega)
    rw [addEntries_cons, List.map_cons, encode, ← hentry]
    exact hfirst.trans hrest

/-- Entries that do not fit are written beyond the storage. -/
lemma addEntries_overflows (es : List (BleData storage))
    (h : Placed s.buf storage bMaxAdvLen 0 n) (hroom : bMaxAdvLen < n + payloadLen es) :
    ∃ w ∈ (addEntries s es).2, 0 < w.2 ∧ storage + bMaxAdvLen < w.1 + w.2 := by
  induction es generalizing s n with
  | nil =>
    have hfits := h.fits
    rw [payloadLen_nil] at hroom
    omega
  | cons e es ih =>
    rw [payloadLen_cons] at hroom
    rw [addEntries_cons]
    -- the first of the three runs that ends beyond the storage
    by_cases hfirst : n + 1 ≤ bMaxAdvLen
    swap
    · refine ⟨_, List.mem_cons_self, one_pos, ?_⟩
      rw [h.tail]
      push_cast
      omega
    have hlen := (appends_addU8 h (e.len + 1) hfirst).placed
    by_cases hsecond : n + 2 ≤ bMaxAdvLen
    swap
    · refine ⟨_, List.mem_cons_of_mem _ List.mem_cons_self, one_pos, ?_⟩
      rw [hlen.tail, List.length_singleton]
      push_cast
      omega
    have htype := (appends_addU8 hlen e.type (by rw [List.length_singleton]; omega)).placed
    by_cases hthird : n + (e.len.toNat + 2) ≤ bMaxAdvLen
    swap
    · refine ⟨_, List.mem_cons_of_mem _ (List.mem_cons_of_mem _ List.mem_cons_self), ?_, ?_⟩
      · show 0 < e.len.toNat
        omega
      · rw [htype.tail, List.length_singleton, List.length_singleton]
        push_cast
        omega
    have hentry := appends_entry h e hthird
    have hwidth := width_entry s.mem e
    obtain ⟨w, hw, hpos, hbeyond⟩ := ih hentry.placed (by omega)
    refine ⟨w, ?_, hpos, hbeyond⟩
    exact List.mem_cons_of_mem _ (List.mem_cons_of_mem _ (List.mem_cons_of_mem _ hw))

end Entries

section Payload

variable {storage : ℤ} {mem : Memory} {data : ℤ} {len : ℕ}

/-- The values given for a parameter of the library, in order. -/
def GapCall.value (param : BitVec 16) : GapCall → Option (List Byte)
  | .setParameter p value => if p = param then some value else none
  | .setParamValue _ _ => none

def Enabling.given (r : Enabling) (param : BitVec 16) : List (List Byte) :=
  r.calls.filterMap (GapCall.value param)

/-- The list is handed on for the parameter, once, as at most 31 bytes that parse back
to it; a list that is NULL need not be. -/
def Handed (r : Enabling) (mem : Memory) (param : BitVec 16) :
    Option (List (BleData storage)) → Prop
  | none => True
  | some es => ∃ bs, r.given param = [bs] ∧ bs.length ≤ bMaxAdvLen ∧
      parse bs = some (es.map (BleData.entry mem))

/-- Every run written lies in the storage. -/
def WritesInside (storage : ℤ) (r : Enabling) : Prop :=
  ∀ w ∈ r.written, w.2 = 0 ∨ (storage ≤ w.1 ∧ w.1 + w.2 ≤ storage + bMaxAdvLen)

/-- The list fits. -/
def FitsAdv : Option (List (BleData storage)) → Prop
  | none => True
  | some es => payloadLen es ≤ bMaxAdvLen

instance : ∀ ad : Option (List (BleData storage)), Decidable (FitsAdv ad)
  | none => inferInstanceAs (Decidable True)
  | some es => inferInstanceAs (Decidable (payloadLen es ≤ bMaxAdvLen))

/-- A buffer object of `adv_data`, whatever its data and length. -/
structure AdvBuffer (storage : ℤ) (mem : Memory) (s : Store) : Prop where
  start : s.buf.bufStart = storage
  size : s.buf.size = bMaxAdvLen
  outside : ∀ a, a < storage ∨ storage + bMaxAdvLen ≤ a → s.mem a = mem a

lemma AdvBuffer.reset {s : Store} (h : AdvBuffer storage mem s) :
    Placed (bufSimpleReset s).buf storage bMaxAdvLen 0 0 :=
  ⟨h.start, h.size, by simp [bufSimpleReset, h.start], rfl, Nat.zero_le _, by decide⟩

/-- What is handed on of a list. -/
def payload (s : Store) (es : List (BleData storage)) : List Byte :=
  let s := (addEntries (bufSimpleReset s) es).1
  readBytes s.mem s.buf.data (s.buf.len % 256)

lemma payload_of_fits {s : Store} (h : AdvBuffer storage mem s) {es : List (BleData storage)}
    (hfits : payloadLen es ≤ bMaxAdvLen) :
    payload s es = encode (es.map (BleData.entry mem)) := by
  have happends := appends_entries es h.reset h.outside (by omega)
  have hlength : (encode (es.map (BleData.entry mem))).length = payloadLen es := by
    rw [length_encode, widths_entries]
  have hplaced := happends.placed
  have hbytes := happends.bytes
  rw [hlength, Nat.zero_add] at hplaced hbytes
  have hsmall : payloadLen es % 256 = payloadLen es :=
    Nat.mod_eq_of_lt (lt_of_le_of_lt hfits (by decide))
  rw [payload, hplaced.data, hplaced.len, hsmall]
  simpa [readBytes] using hbytes

/-- A list that does not fit is not what the handed bytes parse to. -/
lemma payload_of_overflow {s : Store} {es : List (BleData storage)}
    (hroom : ¬payloadLen es ≤ bMaxAdvLen) (hlen : (payload s es).length ≤ bMaxAdvLen) :
    parse (payload s es) ≠ some (es.map (BleData.entry mem)) := by
  intro hparse
  have hwidth := length_of_parse hparse
  rw [widths_entries] at hwidth
  omega

lemma given_call (gap : Gap) (r : Enabling) (param : BitVec 16) (c : GapCall) :
    (r.call gap c).given param = r.given param ++ (c.value param).toList := by
  rw [Enabling.given, Enabling.call, List.filterMap_append]
  cases hvalue : c.value param with
  | none => simp [Enabling.given, hvalue]
  | some bs => simp [Enabling.given, hvalue]

section SetPayload

variable {gap : Gap} {param other : BitVec 16} {r : Enabling}

lemma given_setPayload (es : List (BleData storage)) :
    (setPayload gap param r (some es)).given param =
      r.given param ++ [payload r.store es] := by
  show (Enabling.call gap _ _).given param = _
  rw [given_call]
  simp [GapCall.value, Enabling.given, payload]

lemma given_setPayload_of_ne (h : param ≠ other) (ad : Option (List (BleData storage))) :
    (setPayload gap param r ad).given other = r.given other := by
  cases ad with
  | none => rfl
  | some es =>
    show (Enabling.call gap _ _).given other = _
    rw [given_call]
    simp [GapCall.value, Enabling.given, h]

/-- A list is handed on exactly if it fits. -/
lemma handed_setPayload (hbuffer : AdvBuffer storage mem r.store) (hnew : r.given param = [])
    (ad : Option (List (BleData storage))) :
    Handed (setPayload gap param r ad) mem param ad ↔ FitsAdv ad := by
  cases ad with
  | none => exact Iff.rfl
  | some es =>
    have hgiven : (setPayload gap param r (some es)).given param = [payload r.store es] := by
      rw [given_setPayload, hnew, List.nil_append]
    rw [Handed, hgiven, FitsAdv]
    constructor
    · rintro ⟨bs, hbs, hlen, hparse⟩
      obtain rfl := (List.cons.inj hbs).1
      by_contra hroom
      exact payload_of_overflow hroom hlen hparse
    · intro hfits
      have hlength : (encode (es.map (BleData.entry mem))).length = payloadLen es := by
        rw [length_encode, widths_entries]
      refine ⟨_, rfl, ?_, ?_⟩
      · rw [payload_of_fits hbuffer hfits, hlength]
        exact hfits
      · rw [payload_of_fits hbuffer hfits]
        apply parse_encode
        intro e he
        obtain ⟨d, hd, rfl⟩ := List.mem_map.mp he
        have hle : d.len.toNat + 2 ≤ payloadLen es :=
          List.single_le_sum (fun _ _ => Nat.zero_le _) _ (List.mem_map_of_mem hd)
        have hsmall : bMaxAdvLen = 31 := rfl
        rw [BleData.entry, length_readBytes]
        omega

/-- A list that does not fit is written beyond the storage. -/
lemma not_writesInside (hbuffer : AdvBuffer storage mem r.store)
    {ad : Option (List (BleData storage))} (hroom : ¬FitsAdv ad) :
    ¬WritesInside storage (setPayload gap param r ad) := by
  cases ad with
  | none => exact absurd trivial hroom
  | some es =>
    intro hinside
    have hoverflow : bMaxAdvLen < 0 + payloadLen es := by
      rw [FitsAdv] at hroom
      omega
    obtain ⟨w, hw, hpos, hbeyond⟩ := addEntries_overflows es hbuffer.reset hoverflow
    have hw' := hinside w (List.mem_append_right _ hw)
    omega

/-- A list that fits leaves `adv_data` usable and the rest of memory as it is. -/
lemma AdvBuffer.setPayload (hbuffer : AdvBuffer storage mem r.store)
    {ad : Option (List (BleData storage))} (hfits : FitsAdv ad) :
    AdvBuffer storage mem (setPayload gap param r ad).store := by
  cases ad with
  | none => exact hbuffer
  | some es =>
    have happends := appends_entries es hbuffer.reset hbuffer.outside
      (show 0 + payloadLen es ≤ bMaxAdvLen by rwa [Nat.zero_add])
    refine ⟨happends.placed.start, happends.placed.bytes, fun a ha => ?_⟩
    exact (happends.outside a ha).trans (hbuffer.outside a ha)

lemma WritesInside.of_setPayload {ad : Option (List (BleData storage))}
    (h : WritesInside storage (setPayload gap param r ad)) : WritesInside storage r := by
  intro w hw
  apply h
  cases ad with
  | none => exact hw
  | some es => exact List.mem_append_left _ hw

lemma handed_congr {r' : Enabling} (h : r'.given param = r.given param)
    (ad : Option (List (BleData storage))) :
    Handed r' mem param ad ↔ Handed r mem param ad := by
  cases ad with
  | none => exact Iff.rfl
  | some es => rw [Handed, Handed, h]

end SetPayload

/-- The call up to the payloads. -/
def parameters (gap : Gap) (mem : Memory) (storage data : ℤ) (len : ℕ) (param : BleAdvParam) :
    Enabling :=
  bleAdvEnable gap mem data len param (none : Option (List (BleData storage))) none

lemma bleAdvEnable_eq (gap : Gap) (param : BleAdvParam)
    (ad sd : Option (List (BleData storage))) :
    bleAdvEnable gap mem data len param ad sd =
      setPayload gap gaproleScanRspData
        (setPayload gap gaproleAdvertData (parameters gap mem storage data len param) ad) sd := rfl

lemma parameters_spec (gap : Gap) (mem : Memory) (storage data : ℤ) (len : ℕ)
    (param : BleAdvParam) :
    (parameters gap mem storage data len param).store = advData mem storage data len ∧
      (parameters gap mem storage data len param).given gaproleAdvertData = [] ∧
      (parameters gap mem storage data len param).given gaproleScanRspData = [] := by
  obtain ⟨type, channel, filterPolicy, intervalMin, intervalMax, dirAddr⟩ := param
  cases dirAddr with
  | none => exact ⟨rfl, rfl, rfl⟩
  | some addr => exact ⟨rfl, rfl, rfl⟩

/-- The call reports an error and writes nothing beyond the storage, or it hands on
both lists. -/
def EncodesOrFails (gap : Gap) (mem : Memory) (data : ℤ) (len : ℕ) (param : BleAdvParam)
    (ad sd : Option (List (BleData storage))) : Prop :=
  let r := bleAdvEnable gap mem data len param ad sd
  (r.err ≠ 0 ∧ WritesInside storage r) ∨
    (Handed r mem gaproleAdvertData ad ∧ Handed r mem gaproleScanRspData sd)

/-- It does so exactly if both lists fit. -/
theorem bleAdvEnable_encodes_iff (gap : Gap) (mem : Memory) (data : ℤ) (len : ℕ)
    (param : BleAdvParam) (ad sd : Option (List (BleData storage))) :
    EncodesOrFails gap mem data len param ad sd ↔ FitsAdv ad ∧ FitsAdv sd := by
  obtain ⟨hstore, hnewAd, hnewSd⟩ := parameters_spec gap mem storage data len param
  let r₀ := parameters gap mem storage data len param
  let r₁ := setPayload gap gaproleAdvertData r₀ ad
  have hbuffer : AdvBuffer storage mem r₀.store := by
    rw [hstore]
    exact ⟨rfl, rfl, fun _ _ => rfl⟩
  have hdiffer : gaproleAdvertData ≠ gaproleScanRspData := by decide
  have hnewSd' : r₁.given gaproleScanRspData = [] := by
    rw [given_setPayload_of_ne hdiffer, hnewSd]
  have had : Handed (setPayload gap gaproleScanRspData r₁ sd) mem gaproleAdvertData ad ↔
      FitsAdv ad := by
    rw [handed_congr (given_setPayload_of_ne hdiffer.symm sd), handed_setPayload hbuffer hnewAd]
  rw [EncodesOrFails, bleAdvEnable_eq]
  constructor
  · rintro (⟨-, hinside⟩ | ⟨hhandedAd, hhandedSd⟩)
    · have hfitsAd : FitsAdv ad := by
        by_contra hroom
        exact not_writesInside hbuffer hroom hinside.of_setPayload
      refine ⟨hfitsAd, ?_⟩
      by_contra hroom
      exact not_writesInside (hbuffer.setPayload hfitsAd) hroom hinside
    · have hfitsAd := had.mp hhandedAd
      exact ⟨hfitsAd, (handed_setPayload (hbuffer.setPayload hfitsAd) hnewSd' sd).mp hhandedSd⟩
  · rintro ⟨hfitsAd, hfitsSd⟩
    refine Or.inr ⟨had.mpr hfitsAd, ?_⟩
    exact (handed_setPayload (hbuffer.setPayload hfitsAd) hnewSd' sd).mpr hfitsSd

/-- One entry of 30 bytes makes 32: it ends one byte beyond the storage and is handed
on all the same. -/
theorem thirty_bytes_overflow :
    ¬EncodesOrFails (fun _ _ => 0) (fun _ => 0) 0 0 ⟨0, 7, 0, 100, 150, none⟩
      (some [(⟨30, 0xff, 0x08000000, by decide⟩ : BleData 0x20000000)]) none := by
  rintro (⟨herr, -⟩ | ⟨⟨bs, hbs, hlen, -⟩, -⟩)
  · exact herr (by decide +kernel)
  · have hbs' := congrArg (List.map List.length) hbs
    have hlength : ((bleAdvEnable (fun _ _ => 0) (fun _ => 0) 0 0 ⟨0, 7, 0, 100, 150, none⟩
        (some [(⟨30, 0xff, 0x08000000, by decide⟩ : BleData 0x20000000)]) none).given
          gaproleAdvertData).map List.length = [32] := by decide +kernel
    rw [hlength] at hbs'
    have hbytes : 32 = bs.length := (List.cons.inj hbs').1
    have hsmall : bMaxAdvLen = 31 := rfl
    omega

end Payload

end WchIotSdk.Advertising
