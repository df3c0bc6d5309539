import WchIotSdk.ByteMemory
import Mathlib.Data.BitVec

/-!
# Reading from flash

`flash_read` copies whole words. The number of bytes is rounded up to the number of
words by an addition of 32 bits. Flash is read through its addresses and is not
written by a copy.
-/
namespace WchIotSdk.FlashRead
open ByteDigits ByteMemory

section Code

variable (flash : Memory)

/-- A word that is loaded and stored, the least significant byte first. -/
def load32 (p : ℤ) : BitVec 32 := BitVec.ofNat 32 (leValue (readBytes flash p 4))
def store32 (m : Memory) (p : ℤ) (word : BitVec 32) : Memory :=
  writeBytes m p (leBytes 4 word.toNat)

/-- The loop, with the words that are left. -/
def copyWords : ℕ → ℤ → ℤ → Memory → Memory
  | 0, _, _, m => m
  | n + 1, pCode, pBuf, m => copyWords n (pCode + 4) (pBuf + 4) (store32 m pBuf (load32 flash pCode))

def halFlashRomRead (m : Memory) (addr : BitVec 32) (buf : ℤ) (len : BitVec 32) : Memory :=
  let length := (len + 3) >>> 2
  copyWords flash length.toNat addr.toNat buf m

def flashWchRead (m : Memory) (offset : BitVec 32) (data : ℤ) (len : BitVec 32) : Memory × ℤ :=
  (halFlashRomRead flash m offset data len, 0)

def flashRead (m : Memory) (offset : BitVec 32) (data : ℤ) (len : BitVec 32) : Memory × ℤ :=
  flashWchRead flash m offset data len

end Code

/-- The bytes that are copied: the length rounded up, or none if the rounding wraps. -/
def copied (len : BitVec 32) : ℕ := 4 * ((len + 3) >>> 2).toNat

section Loop

variable (flash m : Memory)

lemma store32_load32 (pCode pBuf : ℤ) :
    store32 m pBuf (load32 flash pCode) = writeBytes m pBuf (readBytes flash pCode 4) := by
  have hlength : (readBytes flash pCode 4).length = 4 := length_readBytes flash pCode 4
  have hlt := leValue_lt (readBytes flash pCode 4)
  have hbytes := leBytes_leValue (readBytes flash pCode 4)
  rw [hlength] at hlt hbytes
  have hword : (256 : ℕ) ^ 4 = 2 ^ 32 := by norm_num
  rw [hword] at hlt
  rw [store32, load32, BitVec.toNat_ofNat, Nat.mod_eq_of_lt hlt, hbytes]

lemma copyWords_eq (n : ℕ) (pCode pBuf : ℤ) :
    copyWords flash n pCode pBuf m = writeBytes m pBuf (readBytes flash pCode (4 * n)) := by
  induction n generalizing pCode pBuf m with
  | zero => rfl
  | succ n ih =>
    have hsplit := readBytes_add flash pCode 4 (4 * n)
    rw [copyWords, ih, store32_load32, Nat.mul_succ, Nat.add_comm (4 * n) 4, hsplit,
      writeBytes_append, length_readBytes]
    rfl

theorem romRead_eq (addr : BitVec 32) (buf : ℤ) (len : BitVec 32) :
    halFlashRomRead flash m addr buf len =
      writeBytes m buf (readBytes flash addr.toNat (copied len)) :=
  copyWords_eq flash m _ _ _

end Loop

/-- What a read of `len` bytes promises. -/
structure Copies (flash m : Memory) (offset : BitVec 32) (data : ℤ) (len : BitVec 32)
    (m' : Memory) : Prop where
  inside : readBytes m' data len.toNat = readBytes flash offset.toNat len.toNat
  outside : ∀ a, a < data ∨ data + len.toNat ≤ a → m' a = m a

section Lengths

variable (len : BitVec 32)

lemma copied_of_lt (h : len.toNat + 3 < 2 ^ 32) : copied len = 4 * ((len.toNat + 3) / 4) := by
  rw [copied, BitVec.toNat_ushiftRight, BitVec.toNat_add, Nat.shiftRight_eq_div_pow]
  have hthree : (3 : BitVec 32).toNat = 3 := rfl
  rw [hthree, Nat.mod_eq_of_lt h]

lemma copied_of_wrap (h : 2 ^ 32 ≤ len.toNat + 3) : copied len = 0 := by
  have hlt := len.isLt
  rw [copied, BitVec.toNat_ushiftRight, BitVec.toNat_add, Nat.shiftRight_eq_div_pow]
  have hthree : (3 : BitVec 32).toNat = 3 := rfl
  rw [hthree]
  omega

end Lengths

/-- Lengths that are not a multiple of four are read as they should only if the bytes
that are copied besides, or the ones that are not copied, are there already. -/
structure Harmless (flash m : Memory) (offset : BitVec 32) (data : ℤ) (len : BitVec 32) :
    Prop where
  rounded : len.toNat + 3 < 2 ^ 32 →
    readBytes m (data + len.toNat) (4 * ((len.toNat + 3) / 4) - len.toNat) =
      readBytes flash (offset.toNat + len.toNat) (4 * ((len.toNat + 3) / 4) - len.toNat)
  wrapped : 2 ^ 32 ≤ len.toNat + 3 →
    readBytes m data len.toNat = readBytes flash offset.toNat len.toNat

section Reads

variable (flash m : Memory) (offset : BitVec 32) (data : ℤ) (len : BitVec 32)

/-- The bytes beyond the length are the ones that are there exactly if nothing outside
changes. -/
lemma copies_rounded_iff {n : ℕ} (hn : copied len = len.toNat + n) :
    Copies flash m offset data len (halFlashRomRead flash m offset data len) ↔
      readBytes m (data + len.toNat) n = readBytes flash (offset.toNat + len.toNat) n := by
  have hlength := length_readBytes flash offset.toNat len.toNat
  have hwritten : halFlashRomRead flash m offset data len =
      writeBytes (writeBytes m data (readBytes flash offset.toNat len.toNat)) (data + len.toNat)
        (readBytes flash (offset.toNat + len.toNat) n) := by
    rw [romRead_eq, hn, readBytes_add, writeBytes_append, hlength]
  constructor
  · intro h
    have hrest := readBytes_writeBytes
      (writeBytes m data (readBytes flash offset.toNat len.toNat)) (data + len.toNat)
      (readBytes flash (offset.toNat + len.toNat) n)
    rw [← hwritten, length_readBytes] at hrest
    rw [← hrest]
    apply readBytes_congr
    intro a ha _
    exact (h.outside a (Or.inr ha)).symm
  · intro h
    -- the second part of the write puts back what is there
    have hback : readBytes (writeBytes m data (readBytes flash offset.toNat len.toNat))
        (data + len.toNat) n = readBytes flash (offset.toNat + len.toNat) n := by
      rw [readBytes_writeBytes_disjoint _ _ _ (Or.inr (by rw [hlength])), h]
    rw [hwritten, ← hback, writeBytes_readBytes]
    constructor
    · have hread := readBytes_writeBytes m data (readBytes flash offset.toNat len.toNat)
      rwa [hlength] at hread
    · intro a ha
      exact writeBytes_outside m data _ (by rwa [hlength])

/-- Whole words are read as they should be. -/
theorem flashRead_words (hwords : 4 ∣ len.toNat) :
    Copies flash m offset data len (flashRead flash m offset data len).1 := by
  have hlt := len.isLt
  have hn : copied len = len.toNat + 0 := by
    rw [copied_of_lt len (by omega)]
    omega
  exact (copies_rounded_iff flash m offset data len hn).mpr rfl

lemma copies_none_iff (hn : copied len = 0) :
    Copies flash m offset data len (halFlashRomRead flash m offset data len) ↔
      readBytes m data len.toNat = readBytes flash offset.toNat len.toNat := by
  have hsame : halFlashRomRead flash m offset data len = m := by
    rw [romRead_eq, hn]
    rfl
  rw [hsame]
  exact ⟨fun h => h.inside, fun h => ⟨h, fun _ _ => rfl⟩⟩

theorem flashRead_copies_iff :
    (flashRead flash m offset data len).2 = 0 ∧
        Copies flash m offset data len (flashRead flash m offset data len).1 ↔
      Harmless flash m offset data len := by
  refine (and_iff_right rfl).trans ?_
  by_cases hlen : len.toNat + 3 < 2 ^ 32
  · have hn : copied len = len.toNat + (4 * ((len.toNat + 3) / 4) - len.toNat) := by
      rw [copied_of_lt len hlen]
      omega
    refine (copies_rounded_iff flash m offset data len hn).trans ?_
    exact ⟨fun h => ⟨fun _ => h, fun hwrap => absurd hlen (Nat.not_lt.mpr hwrap)⟩,
      fun h => h.rounded hlen⟩
  · have hwrap := Nat.le_of_not_lt hlen
    refine (copies_none_iff flash m offset data len (copied_of_wrap len hwrap)).trans ?_
    exact ⟨fun h => ⟨fun hlt => absurd hlt hlen, fun _ => h⟩, fun h => h.wrapped hwrap⟩

/-- A byte of flash is asked for, and the byte behind the buffer is overwritten too. -/
theorem read_one_byte_overwrites :
    let flash : Memory := fun a => BitVec.ofInt 8 (a + 1)
    let m : Memory := fun _ => 0
    (flashRead flash m 0 0x20000000 1).2 = 0 ∧
      (flashRead flash m 0 0x20000000 1).1 0x20000001 = 2 ∧
      ¬ ((flashRead flash m 0 0x20000000 1).2 = 0 ∧
        Copies flash m 0 0x20000000 1 (flashRead flash m 0 0x20000000 1).1) := by
  intro flash m
  have hbyte : (flashRead flash m 0 0x20000000 1).1 0x20000001 = 2 := by decide +kernel
  refine ⟨rfl, hbyte, fun h => ?_⟩
  have hsame := h.2.outside 0x20000001 (Or.inr (by decide))
  rw [hbyte] at hsame
  exact absurd hsame (by decide)

end Reads

end WchIotSdk.FlashRead
