import Mathlib.Tactic
import Mathlib.Data.Nat.Digits.Defs
import Mathlib.Data.BitVec

/-!
# Numbers and lists of bytes

A list of bytes is read as a number in base 256, from either end. A number is
written as a fixed count of bytes, which keeps it modulo a power of 256. Both
directions are mutually inverse, and both turn concatenation into the splitting
of a number into a low and a high part.

The last section evaluates the shift-and-mask expressions by which programs move
bytes around inside a word.
-/
namespace WchIotSdk.ByteDigits

abbrev Byte := BitVec 8

/-- The number with the given bytes, the least significant one first. -/
def leValue (bs : List Byte) : ℕ := Nat.ofDigits 256 (bs.map BitVec.toNat)

/-- The lowest `n` bytes of a number, the least significant one first. -/
def leBytes : ℕ → ℕ → List Byte
  | 0, _ => []
  | n + 1, v => BitVec.ofNat 8 v :: leBytes n (v / 256)

@[simp] theorem leValue_nil : leValue [] = 0 := Nat.ofDigits_nil

@[simp] theorem leValue_cons (b : Byte) (bs : List Byte) :
    leValue (b :: bs) = b.toNat + 256 * leValue bs := by
  simp [leValue, Nat.ofDigits_cons]

theorem leValue_append (l r : List Byte) :
    leValue (l ++ r) = leValue l + 256 ^ l.length * leValue r := by
  simp [leValue, Nat.ofDigits_append]

theorem leValue_lt (bs : List Byte) : leValue bs < 256 ^ bs.length := by
  have hlt := Nat.ofDigits_lt_base_pow_length (b := 256) (l := bs.map BitVec.toNat) (by norm_num)
    (by simp only [List.mem_map, forall_exists_index, and_imp]; rintro _ b _ rfl; exact b.isLt)
  simpa [leValue] using hlt

@[simp] theorem length_leBytes (n v : ℕ) : (leBytes n v).length = n := by
  induction n generalizing v with
  | zero => rfl
  | succ n ih => simp [leBytes, ih]

/-- Writing a number and reading it keeps it modulo the power of 256. -/
theorem leValue_leBytes (n v : ℕ) : leValue (leBytes n v) = v % 256 ^ n := by
  induction n generalizing v with
  | zero => simp [leBytes, Nat.mod_one]
  | succ n ih =>
    rw [leBytes, leValue_cons, ih, BitVec.toNat_ofNat, pow_succ' 256 n]
    exact Nat.mod_mul.symm

/-- Reading bytes and writing the number gives them back. -/
theorem leBytes_leValue (bs : List Byte) : leBytes bs.length (leValue bs) = bs := by
  induction bs with
  | nil => rfl
  | cons b bs ih =>
    have hb := b.isLt
    have hhead : BitVec.ofNat 8 (b.toNat + 256 * leValue bs) = b := by
      apply BitVec.eq_of_toNat_eq
      rw [BitVec.toNat_ofNat]
      omega
    have htail : (b.toNat + 256 * leValue bs) / 256 = leValue bs := by omega
    rw [List.length_cons, leBytes, leValue_cons, hhead, htail, ih]

/-- The low and the high bytes of a number are written one after the other. -/
theorem leBytes_add (m n v : ℕ) : leBytes (m + n) v = leBytes m v ++ leBytes n (v / 256 ^ m) := by
  induction m generalizing v with
  | zero => simp [leBytes]
  | succ m ih =>
    rw [Nat.succ_add, leBytes, leBytes, ih, List.cons_append, Nat.div_div_eq_div_mul, pow_succ']

/-- Only the lowest `n` bytes of a number matter. -/
theorem leBytes_mod {n k : ℕ} (h : n ≤ k) (v : ℕ) : leBytes n (v % 256 ^ k) = leBytes n v := by
  have hpow : 256 ^ n ∣ 256 ^ k := pow_dvd_pow 256 h
  have hsame : leValue (leBytes n (v % 256 ^ k)) = leValue (leBytes n v) := by
    rw [leValue_leBytes, leValue_leBytes, Nat.mod_mod_of_dvd _ hpow]
  have hbytes := congrArg (leBytes n) hsame
  have hl := leBytes_leValue (leBytes n (v % 256 ^ k))
  have hr := leBytes_leValue (leBytes n v)
  rw [length_leBytes] at hl hr
  rwa [hl, hr] at hbytes

/-- The end from which a number is read. -/
inductive Order where
  | le
  | be
  deriving DecidableEq, Repr

namespace Order

def flip : Order → Order
  | le => be
  | be => le

/-- Bytes as they lie in memory, put in the order of increasing significance. -/
def arrange : Order → List Byte → List Byte
  | le, bs => bs
  | be, bs => bs.reverse

def value (o : Order) (bs : List Byte) : ℕ := leValue (o.arrange bs)

def bytes (o : Order) (n v : ℕ) : List Byte := o.arrange (leBytes n v)

@[simp] theorem arrange_arrange (o : Order) (bs : List Byte) : o.arrange (o.arrange bs) = bs := by
  cases o <;> simp [arrange]

@[simp] theorem length_arrange (o : Order) (bs : List Byte) :
    (o.arrange bs).length = bs.length := by
  cases o <;> simp [arrange]

theorem arrange_flip (o : Order) (bs : List Byte) : o.flip.arrange (o.arrange bs) = bs.reverse := by
  cases o <;> simp [arrange, flip]

@[simp] theorem length_bytes (o : Order) (n v : ℕ) : (o.bytes n v).length = n := by
  simp [bytes]

theorem value_bytes (o : Order) (n v : ℕ) : o.value (o.bytes n v) = v % 256 ^ n := by
  rw [value, bytes, arrange_arrange, leValue_leBytes]

theorem bytes_value (o : Order) {n : ℕ} {bs : List Byte} (h : bs.length = n) :
    o.bytes n (o.value bs) = bs := by
  have harr := leBytes_leValue (o.arrange bs)
  rw [length_arrange, h] at harr
  rw [bytes, value, harr, arrange_arrange]

theorem value_lt (o : Order) (bs : List Byte) : o.value bs < 256 ^ bs.length := by
  have hlt := leValue_lt (o.arrange bs)
  rwa [length_arrange] at hlt

theorem bytes_mod (o : Order) {n k : ℕ} (h : n ≤ k) (v : ℕ) :
    o.bytes n (v % 256 ^ k) = o.bytes n v := by
  rw [bytes, bytes, leBytes_mod h]

/-- The bytes depend on the lowest part of the number only. -/
theorem bytes_congr (o : Order) {n x y : ℕ} (h : x % 256 ^ n = y % 256 ^ n) :
    o.bytes n x = o.bytes n y := by
  rw [← o.bytes_mod le_rfl x, h, o.bytes_mod le_rfl]

/-- Reading two runs of bytes, in the order in which they lie in memory. -/
theorem le_value_append (l r : List Byte) :
    le.value (l ++ r) = le.value l + 256 ^ l.length * le.value r := leValue_append l r

theorem be_value_append (l r : List Byte) :
    be.value (l ++ r) = 256 ^ r.length * be.value l + be.value r := by
  simp only [value, arrange, List.reverse_append, leValue_append, List.length_reverse]
  exact Nat.add_comm _ _

theorem le_bytes_add (m n v : ℕ) :
    le.bytes (m + n) v = le.bytes m v ++ le.bytes n (v / 256 ^ m) := leBytes_add m n v

theorem be_bytes_add (m n v : ℕ) :
    be.bytes (n + m) v = be.bytes n (v / 256 ^ m) ++ be.bytes m v := by
  simp only [bytes, arrange]
  rw [Nat.add_comm, leBytes_add, List.reverse_append]

end Order

/-- The number whose lowest `n` bytes are those of `v` in reverse. -/
def byteReverse (n v : ℕ) : ℕ := leValue (leBytes n v).reverse

/-- Reading from the wrong end reverses the bytes. -/
theorem Order.value_flip_bytes (o : Order) (n v : ℕ) :
    o.flip.value (o.bytes n v) = byteReverse n v := by
  rw [Order.value, Order.bytes, Order.arrange_flip, byteReverse]

/-- Reversing the bytes of a number read from one end is reading it from the other. -/
theorem byteReverse_le_value {n : ℕ} {bs : List Byte} (h : bs.length = n) :
    byteReverse n (Order.le.value bs) = Order.be.value bs := by
  have hbytes := Order.le.bytes_value h
  rw [← Order.value_flip_bytes .le, hbytes, Order.flip]

section ShiftAndMask

/-- Or-ing a shifted number onto a shorter one adds them. -/
theorem or_shiftLeft {a k : ℕ} (ha : a < 2 ^ k) (b : ℕ) : a ||| b <<< k = a + 2 ^ k * b := by
  rw [Nat.or_comm, ← Nat.shiftLeft_add_eq_or_of_lt ha, Nat.shiftLeft_eq]
  ring

/-- A byte mask picks one byte and leaves it in its place. -/
theorem and_shiftLeft_byte (v k : ℕ) : v &&& 255 <<< k = (v / 2 ^ k % 256) <<< k := by
  have hlow : (v >>> k <<< k) &&& 255 <<< k = v &&& 255 <<< k := by
    apply Nat.eq_of_testBit_eq
    intro i
    simp only [Nat.testBit_and, Nat.testBit_shiftLeft, Nat.testBit_shiftRight]
    by_cases hi : k ≤ i
    · rw [Nat.add_sub_cancel' hi]
      simp [hi]
    · simp [hi]
  have hmask : v >>> k &&& 255 = v / 2 ^ k % 256 := by
    rw [Nat.shiftRight_eq_div_pow]
    exact Nat.and_two_pow_sub_one_eq_mod (v / 2 ^ k) 8
  rw [← hlow, ← Nat.shiftLeft_and_distrib, hmask]

variable {w : ℕ}

/-- Shift right, then mask a byte. -/
theorem toNat_shr_and (x : BitVec w) (s k : ℕ) (h : k + 8 ≤ w) :
    ((x >>> s) &&& BitVec.ofNat w (255 <<< k)).toNat = (x.toNat / 2 ^ (s + k) % 256) <<< k := by
  have hlt : 255 <<< k < 2 ^ w := by
    rw [Nat.shiftLeft_eq]
    calc 255 * 2 ^ k < 2 ^ 8 * 2 ^ k := Nat.mul_lt_mul_of_pos_right (by norm_num) (by positivity)
      _ = 2 ^ (k + 8) := by ring
      _ ≤ 2 ^ w := Nat.pow_le_pow_right (by norm_num) h
  rw [BitVec.toNat_and, BitVec.toNat_ushiftRight, BitVec.toNat_ofNat, Nat.mod_eq_of_lt hlt,
    and_shiftLeft_byte, Nat.shiftRight_eq_div_pow, Nat.div_div_eq_div_mul, ← pow_add]

/-- Mask a byte, then shift it left. -/
theorem toNat_and_shl (x : BitVec w) (k s : ℕ) (h : k + s + 8 ≤ w) :
    ((x &&& BitVec.ofNat w (255 <<< k)) <<< s).toNat = (x.toNat / 2 ^ k % 256) <<< (k + s) := by
  have hmask := toNat_shr_and x 0 k (by omega)
  rw [BitVec.ushiftRight_zero, Nat.zero_add] at hmask
  rw [BitVec.toNat_shiftLeft, hmask, ← Nat.shiftLeft_add, Nat.mod_eq_of_lt]
  have hbyte : x.toNat / 2 ^ k % 256 < 2 ^ 8 := Nat.mod_lt _ (by norm_num)
  rw [Nat.shiftLeft_eq]
  calc x.toNat / 2 ^ k % 256 * 2 ^ (k + s) < 2 ^ 8 * 2 ^ (k + s) :=
        Nat.mul_lt_mul_of_pos_right hbyte (by positivity)
    _ = 2 ^ (k + s + 8) := by ring
    _ ≤ 2 ^ w := Nat.pow_le_pow_right (by norm_num) h

/-- Put a shifted number above a shorter one. -/
theorem toNat_shl_or {a b : ℕ} (hi : BitVec a) (lo : BitVec b) (k : ℕ) (hlo : lo.toNat < 2 ^ k)
    (hw : a + k ≤ w) :
    ((hi.setWidth w <<< k) ||| lo.setWidth w).toNat = 2 ^ k * hi.toNat + lo.toNat := by
  have ha := hi.isLt
  have hpow : 2 ^ (a + k) ≤ 2 ^ w := Nat.pow_le_pow_right (by norm_num) hw
  have hkw : 2 ^ k ≤ 2 ^ w := Nat.pow_le_pow_right (by norm_num) (by omega)
  have haw : 2 ^ a ≤ 2 ^ w := Nat.pow_le_pow_right (by norm_num) (by omega)
  have hshift : hi.toNat <<< k < 2 ^ w := by
    rw [Nat.shiftLeft_eq]
    calc hi.toNat * 2 ^ k < 2 ^ a * 2 ^ k := Nat.mul_lt_mul_of_pos_right ha (by positivity)
      _ = 2 ^ (a + k) := by ring
      _ ≤ 2 ^ w := hpow
  rw [BitVec.toNat_or, BitVec.toNat_shiftLeft, BitVec.toNat_setWidth, BitVec.toNat_setWidth,
    Nat.mod_eq_of_lt (lt_of_lt_of_le ha haw), Nat.mod_eq_of_lt (lt_of_lt_of_le hlo hkw),
    Nat.mod_eq_of_lt hshift, Nat.or_comm, or_shiftLeft hlo, Nat.add_comm]

/-- Or the shifted digits `ds` onto `acc`, from bit `k` upwards. -/
def assemble (acc k : ℕ) : List ℕ → ℕ
  | [] => acc
  | d :: ds => assemble (acc ||| d <<< k) (k + 8) ds

theorem assemble_eq {acc k : ℕ} (hacc : acc < 2 ^ k) {ds : List ℕ} (hds : ∀ d ∈ ds, d < 256) :
    assemble acc k ds = acc + 2 ^ k * Nat.ofDigits 256 ds := by
  induction ds generalizing acc k with
  | nil => simp [assemble]
  | cons d ds ih =>
    have hd : d < 256 := hds d List.mem_cons_self
    have hor := or_shiftLeft hacc d
    have hnext : acc ||| d <<< k < 2 ^ (k + 8) := by
      rw [hor]
      calc acc + 2 ^ k * d < 2 ^ k + 2 ^ k * d := Nat.add_lt_add_right hacc _
        _ = 2 ^ k * (d + 1) := by ring
        _ ≤ 2 ^ k * 2 ^ 8 := Nat.mul_le_mul_left _ hd
        _ = 2 ^ (k + 8) := by ring
    rw [assemble, ih hnext fun e he => hds e (List.mem_cons_of_mem _ he), hor, Nat.ofDigits_cons]
    ring

/-- The lowest `n` digits of `v`, the most significant one first. -/
def revDigits : ℕ → ℕ → List ℕ
  | 0, _ => []
  | n + 1, v => v / 2 ^ (8 * n) % 256 :: revDigits n v

lemma revDigits_lt {n v d : ℕ} (h : d ∈ revDigits n v) : d < 256 := by
  induction n with
  | zero => exact absurd h List.not_mem_nil
  | succ n ih =>
    rcases List.mem_cons.mp h with rfl | h
    · exact Nat.mod_lt _ (by norm_num)
    · exact ih h

lemma byteReverse_eq (n v : ℕ) : byteReverse n v = Nat.ofDigits 256 (revDigits n v) := by
  induction n with
  | zero => rfl
  | succ n ih =>
    have hdigit : (BitVec.ofNat 8 (v / 256 ^ n)).toNat = v / 2 ^ (8 * n) % 256 := by
      rw [BitVec.toNat_ofNat, pow_mul]
      norm_num
    rw [byteReverse, leBytes_add, List.reverse_append, revDigits, Nat.ofDigits_cons, ← ih, ← hdigit]
    exact leValue_cons _ _

/-- Or-ing the digits in reverse order together reverses the bytes. -/
theorem assemble_revDigits (n v : ℕ) :
    assemble (v / 2 ^ (8 * n) % 256) 8 (revDigits n v) = byteReverse (n + 1) v := by
  have hfirst : v / 2 ^ (8 * n) % 256 < 2 ^ 8 := Nat.mod_lt _ (by norm_num)
  rw [assemble_eq hfirst fun d hd => revDigits_lt hd, byteReverse_eq, revDigits, Nat.ofDigits_cons]
  norm_num

end ShiftAndMask

end WchIotSdk.ByteDigits
