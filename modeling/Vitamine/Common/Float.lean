import Mathlib.Algebra.Order.Field.Rat
import Mathlib.Data.Rat.Floor
import Mathlib.Tactic.Ring

/-!
# Floating-point values (`Float32` and `Float64` of `common/types.hpp`)

On the wire a float is its bit pattern. What the server computes with is the value the pattern
stands for: a rational number, an infinity, or not a number. Differences and products are exact
here; the rounding of the machine is left out.

A conversion to an integer truncates. Outside the range of the target C++ leaves it undefined;
`toInt32` gives what the x86 instruction gives, its smallest number, and the conversions to
narrower types keep the low bits of that.
-/

namespace Vitamine

/-- The value of a `Float32` or of a `Float64`. -/
inductive FloatValue where
  | finite (value : ℚ)
  | infinite (negative : Bool)
  | nan
  deriving DecidableEq

namespace FloatValue

/-- The value of an IEEE 754 pattern with `e` exponent bits and `m` fraction bits. -/
def ofBits (e m : Nat) (bits : Nat) : FloatValue :=
  let fraction := bits % 2 ^ m
  let exponent := bits / 2 ^ m % 2 ^ e
  let negative := bits / 2 ^ (m + e) % 2 = 1
  if exponent = 2 ^ e - 1 then
    if fraction = 0 then .infinite negative else .nan
  else
    -- A subnormal has the exponent of the smallest normal and no hidden bit.
    let significand := if exponent = 0 then fraction else 2 ^ m + fraction
    let magnitude := mkRat (significand * 2 ^ max exponent 1) (2 ^ (2 ^ (e - 1) - 1 + m))
    .finite (if negative then -magnitude else magnitude)

def ofFloat32 (bits : BitVec 32) : FloatValue := ofBits 8 23 bits.toNat

def ofFloat64 (bits : BitVec 64) : FloatValue := ofBits 11 52 bits.toNat

def sub : FloatValue → FloatValue → FloatValue
  | .finite a, .finite b => .finite (a - b)
  | .infinite a, .infinite b => if a = b then .nan else .infinite a
  | .infinite a, .finite _ => .infinite a
  | .finite _, .infinite b => .infinite !b
  | .nan, _ => .nan
  | _, .nan => .nan

instance : Sub FloatValue := ⟨sub⟩

/-- The product with a positive number. -/
def scale : FloatValue → ℚ → FloatValue
  | .finite a, n => .finite (a * n)
  | .infinite a, _ => .infinite a
  | .nan, _ => .nan

/-- `<=`: false if one side is not a number. -/
def le : FloatValue → FloatValue → Bool
  | .finite a, .finite b => decide (a ≤ b)
  | .infinite a, .infinite b => a || !b
  | .infinite a, .finite _ => a
  | .finite _, .infinite b => !b
  | .nan, _ => false
  | _, .nan => false

/-- `(Int32)`. -/
def toInt32 : FloatValue → Int
  | .finite a =>
    let t := a.num.tdiv a.den
    if -2 ^ 31 ≤ t ∧ t < 2 ^ 31 then t else -2 ^ 31
  | _ => -2 ^ 31

/-- `(Int16)`. -/
def toInt16 (a : FloatValue) : BitVec 16 := BitVec.ofInt 16 a.toInt32

/-- `(UInt8)`. -/
def toUInt8 (a : FloatValue) : BitVec 8 := BitVec.ofInt 8 a.toInt32

/-- The pattern of 80.5, by hand: sign 0, exponent 1029, fraction 0x4200000000000. -/
example : ofFloat64 0x4054200000000000#64 = .finite (161 / 2) := by decide +kernel

end FloatValue

end Vitamine
