import Vitamine.Lib.Rounding
import Vitamine.Proxyd.Types

/-!
# Locations, blocks and positions

A location of a packet packs a block coordinate into 64 bits; the server splits the block into its
chunk and the cell of the chunk, and takes the position of an entity to a chunk through the block
that it casts the position to.

* `locations_one_to_one`: the packing loses nothing in either direction, and the split loses
  nothing, so that no two locations are the same cell of the same chunk.
* `sameBlock_iff`: a position is in the chunk and the cell of the block that it is in exactly if no
  coordinate is negative and between two integers. The cast rounds such a coordinate up, which
  changes the chunk at the border of a chunk only (`chunk_eq_iff`).
-/

namespace Vitamine

open Rounding

/-! ## The chunk and the cell of a block -/

/-- The components of the cell, as those of a block. -/
def ChunkBlockCoord.offset (l : ChunkBlockCoord) : BlockCoord := ⟨l.x, l.y, l.z⟩

theorem chunk_of_block (b : BlockCoord) :
    (coordCast b : ChunkCoord) = ⟨b.x / 16, b.z / 16⟩ := by
  show Vector2XZ.mk (ashr b.x CHUNK_BLOCKS_XZ_BITS) (ashr b.z CHUNK_BLOCKS_XZ_BITS) = _
  rw [ashr_eq_ediv, ashr_eq_ediv]
  rfl

theorem cell_of_block (b : BlockCoord) :
    (coordCast b : ChunkBlockCoord) = ⟨b.x % 16, b.y, b.z % 16⟩ := rfl

theorem corner_of_chunk (c : ChunkCoord) :
    (coordCast c : BlockCoord) = ⟨c.x * 16, 0, c.z * 16⟩ := by
  show Vector3XYZ.mk (c.x <<< CHUNK_BLOCKS_XZ_BITS) 0 (c.z <<< CHUNK_BLOCKS_XZ_BITS) = _
  simp only [Int.shiftLeft_eq]
  rfl

/-- The corner of the chunk and the cell make up the block. -/
theorem corner_add_cell (b : BlockCoord) :
    (coordCast (coordCast b : ChunkCoord) : BlockCoord) +
      ChunkBlockCoord.offset (coordCast b) = b := by
  obtain ⟨x, y, z⟩ := b
  rw [chunk_of_block, cell_of_block, corner_of_chunk]
  show Vector3XYZ.mk (x / 16 * 16 + x % 16) (0 + y) (z / 16 * 16 + z % 16) = _
  congr 1 <;> omega

/-- The chunk and the cell determine the block. -/
theorem block_ext {a b : BlockCoord} (hc : (coordCast a : ChunkCoord) = coordCast b)
    (hl : (coordCast a : ChunkBlockCoord) = coordCast b) : a = b := by
  rw [← corner_add_cell a, hc, hl, corner_add_cell]

/-! ## The fields of a location -/

theorem toNat_and_mask (v : BitVec 64) {k : Nat} (hk : k < 64) :
    (v &&& BitVec.ofNat 64 (2 ^ k - 1)).toNat = v.toNat % 2 ^ k := by
  have hlt : 2 ^ k - 1 < 2 ^ 64 := by
    have := Nat.pow_lt_pow_right (a := 2) (by decide) hk
    omega
  rw [BitVec.toNat_and, BitVec.toNat_ofNat, Nat.mod_eq_of_lt hlt, Nat.and_two_pow_sub_one_eq_mod]

/-- The low bits of an `Int32`. -/
theorem toNat_zeroExtendInt32_and (n : Int) {k : Nat} (hk : k ≤ 32) :
    ((zeroExtendInt32 n &&& BitVec.ofNat 64 (2 ^ k - 1)).toNat : Int) = n % 2 ^ k := by
  have hext : (zeroExtendInt32 n).toNat = (BitVec.ofInt 32 n).toNat := by
    have := (BitVec.ofInt 32 n).isLt
    simp only [zeroExtendInt32, BitVec.truncate_eq_setWidth, BitVec.toNat_setWidth]
    omega
  have hpos : (0 : Int) ≤ n % (2 ^ 32 : Nat) := Int.emod_nonneg n (by decide)
  have hdvd : (2 ^ k : Int) ∣ 2 ^ 32 := pow_dvd_pow 2 hk
  rw [toNat_and_mask _ (by omega), hext, BitVec.toNat_ofInt, Int.natCast_mod,
    Int.toNat_of_nonneg hpos, Nat.cast_pow, Nat.cast_ofNat, Nat.cast_pow, Nat.cast_ofNat,
    Int.emod_emod_of_dvd n hdvd]

/-- Three fields side by side. -/
theorem toNat_fields {x z y : BitVec 64} (hx : x.toNat < 2 ^ 26) (hz : z.toNat < 2 ^ 26)
    (hy : y.toNat < 2 ^ 12) : ((x <<< 38) ||| (z <<< 12) ||| y).toNat =
      x.toNat * 2 ^ 38 + z.toNat * 2 ^ 12 + y.toNat := by
  have hxs : (x <<< 38).toNat = x.toNat <<< 38 := by
    rw [BitVec.toNat_shiftLeft, Nat.mod_eq_of_lt (by rw [Nat.shiftLeft_eq]; omega)]
  have hzs : (z <<< 12).toNat = z.toNat <<< 12 := by
    rw [BitVec.toNat_shiftLeft, Nat.mod_eq_of_lt (by rw [Nat.shiftLeft_eq]; omega)]
  have hxz : x.toNat <<< 38 + z.toNat <<< 12 = (x.toNat * 2 ^ 26 + z.toNat) <<< 12 := by
    simp only [Nat.shiftLeft_eq]
    ring
  rw [BitVec.toNat_or, BitVec.toNat_or, hxs, hzs,
    ← Nat.shiftLeft_add_eq_or_of_lt (by rw [Nat.shiftLeft_eq]; omega) x.toNat, hxz,
    ← Nat.shiftLeft_add_eq_or_of_lt hy, Nat.shiftLeft_eq]
  ring

theorem toNat_toPosition (b : BlockCoord) : ((toPosition b).toNat : Int) =
    b.x % 2 ^ 26 * 2 ^ 38 + b.z % 2 ^ 26 * 2 ^ 12 + b.y % 2 ^ 12 := by
  have hx : ((zeroExtendInt32 b.x &&& 0x3ffffff#64).toNat : Int) = b.x % 2 ^ 26 :=
    toNat_zeroExtendInt32_and b.x (k := 26) (by decide)
  have hz : ((zeroExtendInt32 b.z &&& 0x3ffffff#64).toNat : Int) = b.z % 2 ^ 26 :=
    toNat_zeroExtendInt32_and b.z (k := 26) (by decide)
  have hy : ((zeroExtendInt32 b.y &&& 0xfff#64).toNat : Int) = b.y % 2 ^ 12 :=
    toNat_zeroExtendInt32_and b.y (k := 12) (by decide)
  rw [toPosition, toNat_fields (by omega) (by omega) (by omega), ← hx, ← hz, ← hy]
  push_cast
  rfl

/-- The upper field, as a signed number of 26 bits. -/
theorem fromPosition_x (position : BitVec 64) :
    (fromPosition position).x = ((position.toNat / 2 ^ 38 : Nat) : Int).bmod (2 ^ 26) := by
  have hlt := position.isLt
  show ashr position.toInt 38 = _
  rw [ashr_eq_ediv, BitVec.toInt_eq_toNat_bmod]
  simp only [Int.bmod]
  omega

theorem fromPosition_y (position : BitVec 64) :
    (fromPosition position).y = (position.toNat % 4096 : Nat) :=
  congrArg Nat.cast (toNat_and_mask position (k := 12) (by decide))

/-- The field in the middle, shifted to the top and back with its sign. -/
theorem fromPosition_z (position : BitVec 64) : (fromPosition position).z =
    ((position.toNat / 2 ^ 12 % 2 ^ 26 : Nat) : Int).bmod (2 ^ 26) := by
  have hlt := position.isLt
  show ashr (position <<< 26).toInt 38 = _
  rw [ashr_eq_ediv, BitVec.toInt_eq_toNat_bmod, BitVec.toNat_shiftLeft, Nat.shiftLeft_eq]
  simp only [Int.bmod]
  omega

/-! ## One to one -/

theorem toPosition_fromPosition (position : BitVec 64) :
    toPosition (fromPosition position) = position := by
  have hlt := position.isLt
  have hfields := toNat_toPosition (fromPosition position)
  rw [fromPosition_x, fromPosition_y, fromPosition_z] at hfields
  simp only [Int.bmod] at hfields
  apply BitVec.eq_of_toNat_eq
  omega

/-- The blocks that a location can hold. -/
def BlockCoord.Packable (b : BlockCoord) : Prop :=
  (-2 ^ 25 ≤ b.x ∧ b.x < 2 ^ 25) ∧ (0 ≤ b.y ∧ b.y < 2 ^ 12) ∧ -2 ^ 25 ≤ b.z ∧ b.z < 2 ^ 25

theorem fromPosition_toPosition {b : BlockCoord} (h : b.Packable) :
    fromPosition (toPosition b) = b := by
  obtain ⟨x, y, z⟩ := b
  obtain ⟨hx, hy, hz⟩ := h
  have hfields := toNat_toPosition ⟨x, y, z⟩
  simp only at hx hy hz hfields
  have hpx := fromPosition_x (toPosition ⟨x, y, z⟩)
  have hpy := fromPosition_y (toPosition ⟨x, y, z⟩)
  have hpz := fromPosition_z (toPosition ⟨x, y, z⟩)
  have hfx : ((toPosition ⟨x, y, z⟩).toNat / 2 ^ 38 : Nat) = x % (2 ^ 26 : Nat) := by omega
  have hfy : ((toPosition ⟨x, y, z⟩).toNat % 4096 : Nat) = y := by omega
  have hfz : ((toPosition ⟨x, y, z⟩).toNat / 2 ^ 12 % 2 ^ 26 : Nat) = z % (2 ^ 26 : Nat) := by
    omega
  rw [hfx, Int.emod_bmod, Int.bmod_eq_of_le (by omega) (by omega)] at hpx
  rw [hfy] at hpy
  rw [hfz, Int.emod_bmod, Int.bmod_eq_of_le (by omega) (by omega)] at hpz
  generalize fromPosition (toPosition ⟨x, y, z⟩) = b at hpx hpy hpz ⊢
  rw [← hpx, ← hpy, ← hpz]

/-- Locations, blocks and cells correspond. -/
structure LocationsOneToOne : Prop where
  packs : ∀ w, toPosition (fromPosition w) = w
  cell : ∀ w, let l : ChunkBlockCoord := coordCast (fromPosition w)
    (0 ≤ l.x ∧ l.x ≤ 15) ∧ 0 ≤ l.z ∧ l.z ≤ 15
  rebuilds : ∀ w, let b := fromPosition w
    (coordCast (coordCast b : ChunkCoord) : BlockCoord) + ChunkBlockCoord.offset (coordCast b) = b
  unpacks : ∀ b : BlockCoord, b.Packable → fromPosition (toPosition b) = b
  distinct : ∀ v w : BitVec 64,
    (coordCast (fromPosition v) : ChunkCoord) = coordCast (fromPosition w) →
      (coordCast (fromPosition v) : ChunkBlockCoord) = coordCast (fromPosition w) → v = w

/-- **Locations address the blocks one to one.** -/
theorem locations_one_to_one : LocationsOneToOne where
  packs := toPosition_fromPosition
  cell w := by
    rw [cell_of_block]
    simp only
    omega
  rebuilds w := corner_add_cell (fromPosition w)
  unpacks b := fromPosition_toPosition
  distinct v w hc hl := by
    rw [← toPosition_fromPosition v, block_ext hc hl, toPosition_fromPosition]

/-! ## The block of a position -/

/-- `b <= p < b + 1` on each axis. -/
structure BlockCoord.Contains (b : BlockCoord) (x y z : ℚ) : Prop where
  x : (b.x : ℚ) ≤ x ∧ x < b.x + 1
  y : (b.y : ℚ) ≤ y ∧ y < b.y + 1
  z : (b.z : ℚ) ≤ z ∧ z < b.z + 1

/-- In the range of `Int32`. -/
def InInt32 (x : ℚ) : Prop := -2 ^ 31 ≤ x ∧ x < 2 ^ 31

/-- The position is in the chunk and in the cell of the block. -/
structure SameBlock (p : EntityCoord) (b : BlockCoord) : Prop where
  chunk : (coordCast p : ChunkCoord) = coordCast b
  cell : (coordCast p : ChunkBlockCoord) = coordCast b

/-- What rounding toward zero leaves as it is: a coordinate that is not between two integers below
zero. -/
def RoundsDown (x : ℚ) : Prop := 0 ≤ x ∨ (⌊x⌋ : ℚ) = x

theorem FloatValue.toInt32_finite {x : ℚ} (h : InInt32 x) : (finite x).toInt32 = towardZero x := by
  have hlo : (-2 ^ 31 : ℚ) ≤ x := h.1
  have hhi : x < 2 ^ 31 := h.2
  have hmem : -2 ^ 31 ≤ towardZero x ∧ towardZero x ≤ 2 ^ 31 - 1 := by
    rw [towardZero_mem_iff (by decide) (by decide)]
    push_cast
    exact ⟨by linarith, by linarith⟩
  exact if_pos ⟨hmem.1, Int.lt_of_le_sub_one hmem.2⟩

/-- Both casts go through the block that the position is cast to, so that they agree with those of
a block only if it is that one. -/
theorem sameBlock_iff_cast {p : EntityCoord} {b : BlockCoord} :
    SameBlock p b ↔ (coordCast p : BlockCoord) = b := by
  constructor
  · intro h
    exact block_ext h.chunk h.cell
  · rintro rfl
    exact ⟨rfl, rfl⟩

/-- The integer below a coordinate is the one that it is cast to exactly if it is rounded down. -/
theorem toInt32_eq_iff {x : ℚ} {n : Int} (hx : InInt32 x) (hn : (n : ℚ) ≤ x ∧ x < n + 1) :
    (FloatValue.finite x).toInt32 = n ↔ RoundsDown x := by
  rw [FloatValue.toInt32_finite hx, RoundsDown, ← towardZero_eq_floor_iff, Int.floor_eq_iff.mpr hn]

/-- **A position is in the chunk and the cell of its block if and only if every coordinate is an
integer or not negative.** -/
theorem sameBlock_iff {x y z : ℚ} {b : BlockCoord} (hx : InInt32 x) (hy : InInt32 y)
    (hz : InInt32 z) (hb : b.Contains x y z) :
    SameBlock ⟨.finite x, .finite y, .finite z⟩ b ↔
      RoundsDown x ∧ RoundsDown y ∧ RoundsDown z := by
  rw [sameBlock_iff_cast, ← toInt32_eq_iff hx hb.x, ← toInt32_eq_iff hy hb.y,
    ← toInt32_eq_iff hz hb.z]
  obtain ⟨i, j, k⟩ := b
  exact iff_of_eq (Vector3XYZ.mk.injEq ..)

/-- A player in the middle of the block above the origin. -/
theorem sameBlock_iff_origin :
    SameBlock ⟨.finite (1 / 2), .finite 64, .finite (1 / 2)⟩ ⟨0, 64, 0⟩ ↔
      RoundsDown (1 / 2) ∧ RoundsDown 64 ∧ RoundsDown (1 / 2) :=
  sameBlock_iff (by norm_num [InInt32]) (by norm_num [InInt32]) (by norm_num [InInt32])
    ⟨by norm_num, by norm_num, by norm_num⟩

/-- One block to the west of it the block is in the chunk -1, but the player is tracked in the
chunk 0. -/
theorem not_sameBlock_west :
    (InInt32 (-1 / 2) ∧ InInt32 64 ∧ InInt32 (1 / 2)) ∧
      BlockCoord.Contains ⟨-1, 64, 0⟩ (-1 / 2) 64 (1 / 2) ∧
      ¬ SameBlock ⟨.finite (-1 / 2), .finite 64, .finite (1 / 2)⟩ ⟨-1, 64, 0⟩ := by
  refine ⟨⟨by norm_num [InInt32], by norm_num [InInt32], by norm_num [InInt32]⟩,
    ⟨by norm_num, by norm_num, by norm_num⟩, fun h => ?_⟩
  have hchunk := h.chunk
  revert hchunk
  decide +kernel

/-- Off by one block on an axis is off by one chunk exactly at the border of a chunk. -/
theorem ediv_towardZero_eq_iff {x : ℚ} {n : Int} (hn : (n : ℚ) ≤ x ∧ x < n + 1) :
    towardZero x / 16 = n / 16 ↔ RoundsDown x ∨ ¬ 16 ∣ n + 1 := by
  have hfloor : ⌊x⌋ = n := Int.floor_eq_iff.mpr hn
  by_cases hd : RoundsDown x
  · have ht := towardZero_eq_floor_iff.mpr hd
    rw [hfloor] at ht
    simp [hd, ht]
  · have hneg : ¬ 0 ≤ x := fun h => hd (.inl h)
    have hint : (n : ℚ) ≠ x := fun h => hd (.inr (by rw [hfloor, h]))
    have hceil : ⌈x⌉ = n + 1 := by
      rw [Int.ceil_eq_iff]
      push_cast
      exact ⟨by linarith [lt_of_le_of_ne hn.1 hint], by linarith [hn.2]⟩
    rw [towardZero_of_nonpos (by linarith), hceil]
    simp only [hd, false_or]
    omega

/-- The chunk of a player is the one of its block unless a coordinate is rounded up into the next
chunk. -/
theorem chunk_eq_iff {x y z : ℚ} {b : BlockCoord} (hx : InInt32 x) (hz : InInt32 z)
    (hb : b.Contains x y z) :
    (coordCast (⟨.finite x, .finite y, .finite z⟩ : EntityCoord) : ChunkCoord) = coordCast b ↔
      (RoundsDown x ∨ ¬ 16 ∣ b.x + 1) ∧ (RoundsDown z ∨ ¬ 16 ∣ b.z + 1) := by
  have hcast : (coordCast (⟨.finite x, .finite y, .finite z⟩ : EntityCoord) : ChunkCoord) =
      ⟨towardZero x / 16, towardZero z / 16⟩ := by
    rw [← FloatValue.toInt32_finite hx, ← FloatValue.toInt32_finite hz]
    exact chunk_of_block _
  rw [hcast, chunk_of_block, Vector2XZ.mk.injEq, ediv_towardZero_eq_iff hb.x,
    ediv_towardZero_eq_iff hb.z]

end Vitamine
