import Mathlib.Data.Rat.Floor
import Mathlib.Tactic.Linarith

/-!
# Rounding toward zero

`towardZero x` drops what is behind the point: it is the floor of a number that is not negative and
the ceiling of one that is not positive. So it is the floor exactly for the numbers that are not
negative and for the integers (`towardZero_eq_floor_iff`), and it is in a range around zero exactly
for the numbers less than one outside of it (`towardZero_mem_iff`).
-/

namespace Rounding

variable {x : ℚ}

/-- The integer part, of the sign of the number. -/
def towardZero (x : ℚ) : ℤ := x.num.tdiv x.den

theorem towardZero_of_nonneg (h : 0 ≤ x) : towardZero x = ⌊x⌋ := by
  rw [towardZero, Int.tdiv_eq_ediv_of_nonneg (Rat.num_nonneg.mpr h), Rat.floor_def']

theorem towardZero_neg (x : ℚ) : towardZero (-x) = -towardZero x := by
  rw [towardZero, towardZero, Rat.num_neg_eq_neg_num, Rat.den_neg_eq_den, Int.neg_tdiv]

theorem towardZero_of_nonpos (h : x ≤ 0) : towardZero x = ⌈x⌉ := by
  have hneg := towardZero_neg (-x)
  rw [neg_neg, towardZero_of_nonneg (neg_nonneg.mpr h), Int.floor_neg, neg_neg] at hneg
  exact hneg

/-- A negative number that is no integer is rounded up. -/
theorem towardZero_eq_floor_iff : towardZero x = ⌊x⌋ ↔ 0 ≤ x ∨ (⌊x⌋ : ℚ) = x := by
  rcases le_total 0 x with h | h
  · exact iff_of_true (towardZero_of_nonneg h) (.inl h)
  · rw [towardZero_of_nonpos h]
    constructor
    · intro he
      refine .inr (le_antisymm (Int.floor_le x) ?_)
      rw [← he]
      exact Int.le_ceil x
    · rintro (h0 | hint)
      · rw [le_antisymm h h0]
        rfl
      · rw [← hint, Int.ceil_intCast, Int.floor_intCast]

theorem towardZero_mem_iff {lo hi : ℤ} (hlo : lo ≤ 0) (hhi : 0 ≤ hi) :
    lo ≤ towardZero x ∧ towardZero x ≤ hi ↔ (lo : ℚ) - 1 < x ∧ x < hi + 1 := by
  have hlo' : (lo : ℚ) ≤ 0 := mod_cast hlo
  have hhi' : (0 : ℚ) ≤ hi := mod_cast hhi
  rcases le_total 0 x with h | h
  · have h0 : 0 ≤ ⌊x⌋ := Int.floor_nonneg.mpr h
    have hup : ⌊x⌋ ≤ hi ↔ x < hi + 1 := by
      rw [← Int.lt_add_one_iff, Int.floor_lt]
      push_cast
      rfl
    rw [towardZero_of_nonneg h, hup]
    exact and_congr_left fun _ => iff_of_true (by omega) (by linarith)
  · have h0 : ⌈x⌉ ≤ 0 := by
      rw [Int.ceil_le]
      simpa using h
    have hdown : lo ≤ ⌈x⌉ ↔ (lo : ℚ) - 1 < x := by
      rw [← Int.sub_one_lt_iff, Int.lt_ceil]
      push_cast
      rfl
    rw [towardZero_of_nonpos h, hdown]
    exact and_congr_right fun _ => iff_of_true (by omega) (by linarith)

end Rounding
