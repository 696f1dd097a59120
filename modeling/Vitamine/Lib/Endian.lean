import Mathlib.Data.List.Induction
import Mathlib.Tactic.Ring

/-!
# Integers as bytes

`toBigEndian k n`: the `k` low bytes of `n`, the most significant first. `ofBigEndian` reads them
back; on the encoding of a bit vector of `8 * k` bits it gives the vector back. The little-endian
forms are the same bytes in the other order.
-/

namespace Wire

/-- One byte. -/
abbrev Byte := BitVec 8

abbrev Bytes := List Byte

/-- The low `k` bytes of `n`, the most significant first. -/
def toBigEndian : Nat → Nat → Bytes
  | 0, _ => []
  | k + 1, n => toBigEndian k (n / 256) ++ [BitVec.ofNat 8 n]

/-- The number whose big-endian bytes are `bs`. -/
def ofBigEndian (bs : Bytes) : Nat := bs.foldl (fun n b => n * 256 + b.toNat) 0

/-- The low `k` bytes of `n`, the least significant first. -/
def toLittleEndian (k n : Nat) : Bytes := (toBigEndian k n).reverse

/-- The number whose little-endian bytes are `bs`. -/
def ofLittleEndian (bs : Bytes) : Nat := ofBigEndian bs.reverse

@[simp] theorem length_toBigEndian (k n : Nat) : (toBigEndian k n).length = k := by
  induction k generalizing n with
  | zero => rfl
  | succ k ih => simp [toBigEndian, ih]

theorem ofBigEndian_toBigEndian (k n : Nat) : ofBigEndian (toBigEndian k n) = n % 256 ^ k := by
  induction k generalizing n with
  | zero => simp [toBigEndian, ofBigEndian, Nat.mod_one]
  | succ k ih =>
    have hstep : ofBigEndian (toBigEndian (k + 1) n) =
        ofBigEndian (toBigEndian k (n / 256)) * 256 + n % 256 := by
      simp [ofBigEndian, toBigEndian, List.foldl_append]
    rw [hstep, ih, Nat.pow_succ, Nat.mul_comm (256 ^ k), Nat.mod_mul, Nat.mul_comm 256]
    omega

/-- As many bytes as there are come back. -/
theorem toBigEndian_ofBigEndian (bs : Bytes) : toBigEndian bs.length (ofBigEndian bs) = bs := by
  induction bs using List.reverseRecOn with
  | nil => rfl
  | append_singleton bs b ih =>
    have hstep : ofBigEndian (bs ++ [b]) = ofBigEndian bs * 256 + b.toNat := by
      simp [ofBigEndian, List.foldl_append]
    have hb := b.isLt
    rw [List.length_append, List.length_singleton, toBigEndian, hstep,
      show (ofBigEndian bs * 256 + b.toNat) / 256 = ofBigEndian bs by omega, ih]
    congr 2
    apply BitVec.eq_of_toNat_eq
    rw [BitVec.toNat_ofNat]
    omega

theorem ofLittleEndian_toLittleEndian (k n : Nat) :
    ofLittleEndian (toLittleEndian k n) = n % 256 ^ k := by
  rw [ofLittleEndian, toLittleEndian, List.reverse_reverse, ofBigEndian_toBigEndian]

theorem toLittleEndian_ofLittleEndian (bs : Bytes) :
    toLittleEndian bs.length (ofLittleEndian bs) = bs := by
  have h := toBigEndian_ofBigEndian bs.reverse
  rw [List.length_reverse] at h
  rw [toLittleEndian, ofLittleEndian, h, List.reverse_reverse]

theorem ofBigEndian_lt (bs : Bytes) : ofBigEndian bs < 256 ^ bs.length := by
  have h := ofBigEndian_toBigEndian bs.length (ofBigEndian bs)
  rw [toBigEndian_ofBigEndian] at h
  rw [h]
  exact Nat.mod_lt _ (Nat.pow_pos (by decide))

theorem ofLittleEndian_lt (bs : Bytes) : ofLittleEndian bs < 256 ^ bs.length := by
  have h := ofBigEndian_lt bs.reverse
  rwa [List.length_reverse] at h

/-- The bytes of a vector of whole bytes give the vector back. -/
theorem ofNat_ofBigEndian_toBigEndian {w k : Nat} (hw : w = 8 * k) (v : BitVec w) :
    BitVec.ofNat w (ofBigEndian (toBigEndian k v.toNat)) = v := by
  have hlt : v.toNat < 256 ^ k := by
    have hp : 2 ^ w = 256 ^ k := by rw [hw, Nat.pow_mul]
    exact hp ▸ v.isLt
  rw [ofBigEndian_toBigEndian, Nat.mod_eq_of_lt hlt]
  simp

end Wire
