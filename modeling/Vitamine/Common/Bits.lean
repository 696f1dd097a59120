import Mathlib.Tactic.Ring

/-!
# Bit helpers (`common/bits.hpp`)

`clz` counts leading zeros through the 64-bit builtin, as the source does. The lemma that the
callers use is `clz_le_iff`: the count is at most `k` exactly when a bit above the lowest `31 - k`
is set.
-/

namespace Vitamine

/-- `__builtin_clzll` of a nonzero word. -/
def builtinClzll (n : BitVec 64) : Nat := 63 - n.toNat.log2

/-- `clz` at `Int32`. -/
def clz (n : BitVec 32) : Nat :=
  if n = 0 then 8 * 4 else builtinClzll (n.zeroExtend 64) - (64 - 8 * 4)

theorem clz_le_iff (n : BitVec 32) {k : Nat} (hk : k < 32) : clz n ≤ k ↔ 2 ^ (31 - k) ≤ n.toNat := by
  unfold clz builtinClzll
  by_cases h0 : n.toNat = 0
  · have hn : n = 0 := BitVec.eq_of_toNat_eq (by rw [h0]; rfl)
    have hpos := Nat.two_pow_pos (31 - k)
    rw [if_pos hn, h0]
    omega
  · have hn : n ≠ 0 := fun h => h0 (by rw [h]; rfl)
    have hz : (n.zeroExtend 64).toNat = n.toNat := by
      have := n.isLt
      simp only [BitVec.truncate_eq_setWidth, BitVec.toNat_setWidth]
      omega
    have h32 : n.toNat.log2 < 32 := (Nat.log2_lt h0).mpr n.isLt
    have hlt := Nat.log2_lt h0 (k := 31 - k)
    rw [if_neg hn, hz]
    omega

end Vitamine
