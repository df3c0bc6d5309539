import WchIotSdk.ByteDigits

/-!
# Sequences of length-type-value structures

An entry is a type and its data. It is written as a length byte, which counts the
type and the data, the type, and the data. Entries whose length fits its byte are
read back as they were written, and whatever is read has used up all bytes.
-/
namespace WchIotSdk.TypeLengthValue
open ByteDigits

abbrev Entry := Byte × List Byte

/-- The bytes that an entry takes. -/
def Entry.width (e : Entry) : ℕ := e.2.length + 2

def widths (es : List Entry) : ℕ := (es.map Entry.width).sum

@[simp] theorem widths_nil : widths [] = 0 := rfl

@[simp] theorem widths_cons (e : Entry) (es : List Entry) :
    widths (e :: es) = e.width + widths es := List.sum_cons

/-- The length byte wraps. -/
def encodeEntry (e : Entry) : List Byte := BitVec.ofNat 8 (e.2.length + 1) :: e.1 :: e.2

def encode : List Entry → List Byte
  | [] => []
  | e :: es => encodeEntry e ++ encode es

/-- A length that does not count its type, or that goes beyond the end, is refused. -/
def parse : List Byte → Option (List Entry)
  | [] => some []
  | [_] => none
  | len :: type :: rest =>
    if len = 0 ∨ rest.length + 1 < len.toNat then none
    else (parse (rest.drop (len.toNat - 1))).map ((type, rest.take (len.toNat - 1)) :: ·)
termination_by bs => bs.length
decreasing_by simp only [List.length_drop, List.length_cons]; omega

@[simp] theorem length_encodeEntry (e : Entry) : (encodeEntry e).length = e.width := rfl

theorem length_encode (es : List Entry) : (encode es).length = widths es := by
  induction es with
  | nil => rfl
  | cons e es ih => rw [encode, List.length_append, length_encodeEntry, ih, widths_cons]

theorem parse_encode {es : List Entry} (h : ∀ e ∈ es, e.2.length + 1 < 256) :
    parse (encode es) = some es := by
  induction es with
  | nil => simp [encode, parse]
  | cons e es ih =>
    obtain ⟨type, data⟩ := e
    have hlen := h (type, data) List.mem_cons_self
    have hrest := ih fun e he => h e (List.mem_cons_of_mem _ he)
    have hbyte : (BitVec.ofNat 8 (data.length + 1)).toNat = data.length + 1 := by
      rw [BitVec.toNat_ofNat]
      exact Nat.mod_eq_of_lt hlen
    have hnonzero : ¬(BitVec.ofNat 8 (data.length + 1) = 0 ∨
        (data ++ encode es).length + 1 < (BitVec.ofNat 8 (data.length + 1)).toNat) := by
      rw [BitVec.toNat_eq, hbyte, List.length_append]
      simp only [BitVec.ofNat_eq_ofNat, BitVec.toNat_ofNat]
      omega
    show parse (BitVec.ofNat 8 (data.length + 1) :: type :: (data ++ encode es)) = _
    rw [parse, if_neg hnonzero, hbyte, Nat.add_sub_cancel, List.drop_left, List.take_left, hrest]
    rfl

/-- Entries that have been read use up all bytes. -/
theorem length_of_parse {bs : List Byte} {es : List Entry} (h : parse bs = some es) :
    bs.length = widths es := by
  induction bs using parse.induct generalizing es with
  | case1 =>
    rw [parse] at h
    obtain rfl := Option.some.inj h
    rfl
  | case2 b => simp [parse] at h
  | case3 len type rest hbad =>
    rw [parse, if_pos hbad] at h
    exact absurd h.symm (Option.some_ne_none es)
  | case4 len type rest hgood ih =>
    rw [parse, if_neg hgood] at h
    obtain ⟨tail, htail, rfl⟩ := Option.map_eq_some_iff.mp h
    have hrest := ih htail
    obtain ⟨hnonzero, hroom⟩ := not_or.mp hgood
    have hpos : len.toNat ≠ 0 := fun hzero => hnonzero (BitVec.eq_of_toNat_eq hzero)
    rw [List.length_drop] at hrest
    rw [widths_cons, ← hrest, Entry.width, List.length_take, List.length_cons, List.length_cons]
    omega

end WchIotSdk.TypeLengthValue
