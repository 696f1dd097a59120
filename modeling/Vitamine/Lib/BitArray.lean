import Mathlib.Data.Nat.Bits
import Vitamine.Lib.Endian

/-!
# Words as arrays of bits

A list of words of `w` bits is an array of bits, the lowest bit of the first word first. `number` is
the number with these bits: lists of words of different widths are the same array when they have the
same number.

* `testBit_number`: the bits of the number are those of the array.
* `readBits_of_number_eq`: entries of `v` bits are read back from words of any width.
* `number_wordsOf`: bytes taken together as words of eight, on a little-endian host.
-/

namespace Wire

variable {w v : Nat}

/-- Bit `i` of an array of words. -/
def bitAt (words : List (BitVec w)) (i : Nat) : Bool := (words.getD (i / w) 0).getLsbD (i % w)

/-- The number of the `n` bits from `i` on. -/
def readBits (words : List (BitVec w)) (n i : Nat) : Nat :=
  Nat.ofBits fun k : Fin n => bitAt words (i + k)

/-- The number whose bits are those of the array. -/
def number : List (BitVec w) → Nat
  | [] => 0
  | word :: words => word.toNat + 2 ^ w * number words

theorem number_append (a b : List (BitVec w)) :
    number (a ++ b) = number a + 2 ^ (w * a.length) * number b := by
  induction a with
  | nil => simp [number]
  | cons word a ih =>
    rw [List.cons_append, number, ih, number, List.length_cons, Nat.mul_succ, Nat.add_comm _ w,
      Nat.pow_add]
    ring

theorem testBit_number (hw : 0 < w) (words : List (BitVec w)) (i : Nat) :
    (number words).testBit i = bitAt words i := by
  induction words generalizing i with
  | nil => simp [number, bitAt]
  | cons word words ih =>
    rw [number, Nat.add_comm, Nat.testBit_two_pow_mul_add _ word.isLt]
    unfold bitAt
    split <;> rename_i hi
    · rw [Nat.div_eq_of_lt hi, Nat.mod_eq_of_lt hi, List.getD_cons_zero, BitVec.testBit_toNat]
    · obtain ⟨j, rfl⟩ := Nat.exists_eq_add_of_le (Nat.le_of_not_lt hi)
      rw [Nat.add_sub_cancel_left, ih, bitAt, Nat.add_div_left _ hw, List.getD_cons_succ,
        Nat.add_mod_left]

/-- Entries of `v` bits are read back from any words with the same number. -/
theorem readBits_of_number_eq {words : List (BitVec w)} {entries : List (BitVec v)} (hw : 0 < w)
    (h : number words = number entries) (i : Nat) :
    readBits words v (v * i) = (entries.getD i 0).toNat := by
  apply Nat.eq_of_testBit_eq
  intro k
  rw [readBits, Nat.testBit_ofBits, BitVec.testBit_toNat]
  split <;> rename_i hk
  · have hv : 0 < v := by omega
    rw [← testBit_number hw, h, testBit_number hv, bitAt, Nat.mul_add_div hv, Nat.mul_add_mod,
      Nat.div_eq_of_lt hk, Nat.mod_eq_of_lt hk, Nat.add_zero]
  · rw [BitVec.getLsbD_of_ge _ _ (Nat.le_of_not_lt hk)]

/-! ## Bytes as words -/

/-- The words of eight bytes each that a little-endian host reads at the bytes. -/
def wordsOf : Bytes → List (BitVec 64)
  | b₀ :: b₁ :: b₂ :: b₃ :: b₄ :: b₅ :: b₆ :: b₇ :: bs =>
    BitVec.ofNat 64 (ofLittleEndian [b₀, b₁, b₂, b₃, b₄, b₅, b₆, b₇]) :: wordsOf bs
  | _ => []

theorem ofLittleEndian_eq_number (bs : Bytes) : ofLittleEndian bs = number bs := by
  induction bs with
  | nil => rfl
  | cons b bs ih =>
    have hstep : ofLittleEndian (b :: bs) = ofLittleEndian bs * 256 + b.toNat := by
      simp [ofLittleEndian, ofBigEndian, List.foldl_append]
    rw [hstep, ih, number]
    ring

theorem number_toLittleEndian (k n : Nat) : number (toLittleEndian k n) = n % 256 ^ k := by
  rw [← ofLittleEndian_eq_number, ofLittleEndian_toLittleEndian]

theorem length_wordsOf (n : Nat) {bs : Bytes} (h : bs.length = 8 * n) :
    (wordsOf bs).length = n := by
  induction n generalizing bs with
  | zero =>
    obtain rfl := List.length_eq_zero_iff.mp h
    rfl
  | succ n ih =>
    match bs with
    | b₀ :: b₁ :: b₂ :: b₃ :: b₄ :: b₅ :: b₆ :: b₇ :: bs =>
      rw [wordsOf, List.length_cons, ih (by simp only [List.length_cons] at h; omega)]

theorem number_wordsOf (n : Nat) {bs : Bytes} (h : bs.length = 8 * n) :
    number (wordsOf bs) = number bs := by
  induction n generalizing bs with
  | zero =>
    obtain rfl := List.length_eq_zero_iff.mp h
    rfl
  | succ n ih =>
    match bs with
    | b₀ :: b₁ :: b₂ :: b₃ :: b₄ :: b₅ :: b₆ :: b₇ :: bs =>
      have hlt : ofLittleEndian [b₀, b₁, b₂, b₃, b₄, b₅, b₆, b₇] < 2 ^ 64 :=
        lt_of_lt_of_eq (ofLittleEndian_lt _) (by simp)
      have hsplit : number (b₀ :: b₁ :: b₂ :: b₃ :: b₄ :: b₅ :: b₆ :: b₇ :: bs) =
          number [b₀, b₁, b₂, b₃, b₄, b₅, b₆, b₇] + 2 ^ 64 * number bs :=
        number_append [b₀, b₁, b₂, b₃, b₄, b₅, b₆, b₇] bs
      rw [wordsOf, number, ih (by simp only [List.length_cons] at h; omega), hsplit,
        BitVec.toNat_ofNat, Nat.mod_eq_of_lt hlt, ofLittleEndian_eq_number]

/-! ## Fields of a word -/

/-- A field above the bits that are there. What does not fit is lost. -/
theorem toNat_or_shiftLeft {x z : BitVec w} {k : Nat} (hx : x.toNat < 2 ^ k) (hk : k ≤ w) :
    (x ||| z <<< k).toNat = x.toNat + z.toNat % 2 ^ (w - k) * 2 ^ k := by
  have hsplit : 2 ^ w = 2 ^ (w - k) * 2 ^ k := by
    rw [← Nat.pow_add]
    congr 1
    omega
  rw [BitVec.toNat_or, BitVec.toNat_shiftLeft, Nat.shiftLeft_eq, hsplit, Nat.mul_mod_mul_right,
    Nat.or_comm, Nat.mul_comm, ← Nat.two_pow_add_eq_or_of_lt hx, Nat.add_comm]

end Wire
