import Mathlib.Algebra.Order.Group.Abs
import Mathlib.Algebra.Order.Group.Int
import Mathlib.Tactic.Ring
import Vitamine.Common.Float
import Vitamine.Lib.Grid

/-!
# Coordinates (`common/vector.hpp`, `common/coord.hpp`)

The four coordinate types and the conversions between them. Block and chunk coordinates are
integers: those the server meets come from a `Float64` converted to `Int32` or from a packed
position, and what it adds to them is at most a view distance, so nothing overflows an `Int32`
after the division by sixteen.

`ChunkCoord.Within` is what a view distance means: at most so many chunks away on both axes. The
loops over a square of chunks go through the chunks within (`mem_square`).
-/

namespace Vitamine

structure Vector2XZ (T Tag : Type) where
  x : T
  z : T
  deriving DecidableEq

structure Vector3XYZ (T Tag : Type) where
  x : T
  y : T
  z : T
  deriving DecidableEq

inductive BlockCoordTag deriving DecidableEq
inductive ChunkCoordTag deriving DecidableEq
inductive ChunkBlockCoordTag deriving DecidableEq
inductive EntityCoordTag deriving DecidableEq

abbrev BlockCoord := Vector3XYZ Int BlockCoordTag
abbrev ChunkCoord := Vector2XZ Int ChunkCoordTag
abbrev ChunkBlockCoord := Vector3XYZ Int ChunkBlockCoordTag
abbrev EntityCoord := Vector3XYZ FloatValue EntityCoordTag

section Vectors

variable {T Tag : Type}

instance [Add T] : Add (Vector2XZ T Tag) := ⟨fun a b => ⟨a.x + b.x, a.z + b.z⟩⟩

instance [Sub T] : Sub (Vector2XZ T Tag) := ⟨fun a b => ⟨a.x - b.x, a.z - b.z⟩⟩

instance [Add T] : Add (Vector3XYZ T Tag) := ⟨fun a b => ⟨a.x + b.x, a.y + b.y, a.z + b.z⟩⟩

instance [Sub T] : Sub (Vector3XYZ T Tag) := ⟨fun a b => ⟨a.x - b.x, a.y - b.y, a.z - b.z⟩⟩

/-- `operator*`. -/
def Vector3XYZ.scale (v : Vector3XYZ FloatValue Tag) (n : ℚ) : Vector3XYZ FloatValue Tag :=
  ⟨v.x.scale n, v.y.scale n, v.z.scale n⟩

def Vector2XZ.withinOrdered (v lower upper : Vector2XZ Int Tag) : Bool :=
  v.x ≥ lower.x && v.x ≤ upper.x && v.z ≥ lower.z && v.z ≤ upper.z

def Vector3XYZ.withinOrdered (v lower upper : Vector3XYZ FloatValue Tag) : Bool :=
  lower.x.le v.x && v.x.le upper.x && lower.y.le v.y && v.y.le upper.y && lower.z.le v.z &&
    v.z.le upper.z

end Vectors

@[simp] theorem chunk_add_x (a b : ChunkCoord) : (a + b).x = a.x + b.x := rfl
@[simp] theorem chunk_add_z (a b : ChunkCoord) : (a + b).z = a.z + b.z := rfl
@[simp] theorem chunk_sub_x (a b : ChunkCoord) : (a - b).x = a.x - b.x := rfl
@[simp] theorem chunk_sub_z (a b : ChunkCoord) : (a - b).z = a.z - b.z := rfl

/-! ## Conversions -/

def CHUNK_BLOCKS_XZ_BITS : Nat := 4

/-- `ashr` at a signed type: the shift rounds down. -/
def ashr (n : Int) (shift : Nat) : Int := n >>> shift

theorem ashr_eq_ediv (n : Int) (shift : Nat) : ashr n shift = n / (2 ^ shift : Nat) :=
  Int.shiftRight_eq_div_pow n shift

/-- `coord_cast<TargetType>`, one instance for each specialization of `CoordCaster`. -/
class CoordCaster (SourceType TargetType : Type) where
  cast : SourceType → TargetType

instance : CoordCaster BlockCoord ChunkCoord :=
  ⟨fun coord => ⟨ashr coord.x CHUNK_BLOCKS_XZ_BITS, ashr coord.z CHUNK_BLOCKS_XZ_BITS⟩⟩

instance : CoordCaster ChunkCoord BlockCoord :=
  ⟨fun coord => ⟨coord.x <<< CHUNK_BLOCKS_XZ_BITS, 0, coord.z <<< CHUNK_BLOCKS_XZ_BITS⟩⟩

/-- `& 0xF` of an `Int32` is the remainder that is not negative. -/
instance : CoordCaster BlockCoord ChunkBlockCoord :=
  ⟨fun coord => ⟨coord.x % 16, coord.y, coord.z % 16⟩⟩

instance : CoordCaster EntityCoord BlockCoord :=
  ⟨fun coord => ⟨coord.x.toInt32, coord.y.toInt32, coord.z.toInt32⟩⟩

instance : CoordCaster EntityCoord ChunkCoord :=
  ⟨fun coord => CoordCaster.cast (CoordCaster.cast coord : BlockCoord)⟩

instance : CoordCaster EntityCoord ChunkBlockCoord :=
  ⟨fun coord => CoordCaster.cast (CoordCaster.cast coord : BlockCoord)⟩

def coordCast {SourceType TargetType : Type} [CoordCaster SourceType TargetType]
    (value : SourceType) : TargetType :=
  CoordCaster.cast value

/-! ## Squares of chunks -/

namespace ChunkCoord

/-- At most `distance` chunks away from `center` on each axis. -/
def Within (center : ChunkCoord) (distance : Int) (c : ChunkCoord) : Prop :=
  |c.x - center.x| ≤ distance ∧ |c.z - center.z| ≤ distance

instance (center : ChunkCoord) (distance : Int) (c : ChunkCoord) :
    Decidable (Within center distance c) :=
  inferInstanceAs (Decidable (_ ∧ _))

theorem within_iff {center c : ChunkCoord} {distance : Int} :
    Within center distance c ↔ (center.x - distance ≤ c.x ∧ c.x ≤ center.x + distance) ∧
      center.z - distance ≤ c.z ∧ c.z ≤ center.z + distance := by
  simp only [Within, abs_le]
  omega

/-- The coordinates of the loops `for x in regionStart.x..regionEnd.x`, and the same for `z`. -/
def region (regionStart regionEnd : ChunkCoord) : List ChunkCoord :=
  Grid.box Vector2XZ.mk regionStart.x regionEnd.x regionStart.z regionEnd.z

/-- The offsets of the loops `for i in -distance..distance`, and the same for `j`. -/
def offsets (distance : Int) : List ChunkCoord :=
  Grid.box Vector2XZ.mk (-distance) distance (-distance) distance

theorem mem_region {regionStart regionEnd c : ChunkCoord} : c ∈ region regionStart regionEnd ↔
    (regionStart.x ≤ c.x ∧ c.x ≤ regionEnd.x) ∧ regionStart.z ≤ c.z ∧ c.z ≤ regionEnd.z := by
  simp only [region, Grid.mem_box]
  constructor
  · rintro ⟨x, z, hx, hz, rfl⟩
    exact ⟨hx, hz⟩
  · rintro ⟨hx, hz⟩
    exact ⟨c.x, c.z, hx, hz, rfl⟩

theorem mem_offsets {distance : Int} {c : ChunkCoord} : c ∈ offsets distance ↔
    (-distance ≤ c.x ∧ c.x ≤ distance) ∧ -distance ≤ c.z ∧ c.z ≤ distance :=
  @mem_region ⟨-distance, -distance⟩ ⟨distance, distance⟩ c

/-- The region from a view distance below the center to a view distance above it. -/
theorem mem_square {center c : ChunkCoord} {distance : Int} :
    c ∈ region (center - ⟨distance, distance⟩) (center + ⟨distance, distance⟩) ↔
      Within center distance c := by
  rw [mem_region, within_iff]
  simp only [chunk_sub_x, chunk_sub_z, chunk_add_x, chunk_add_z]

theorem eq_add_iff {center c d : ChunkCoord} : center + d = c ↔ d.x = c.x - center.x ∧
    d.z = c.z - center.z := by
  obtain ⟨cx, cz⟩ := c
  obtain ⟨dx, dz⟩ := d
  obtain ⟨x, z⟩ := center
  show Vector2XZ.mk _ _ = Vector2XZ.mk _ _ ↔ _
  simp only [Vector2XZ.mk.injEq]
  omega

/-- The offsets put at a center. -/
theorem exists_offset {center c : ChunkCoord} {p : ChunkCoord → Prop} :
    (∃ d, p d ∧ center + d = c) ↔ p ⟨c.x - center.x, c.z - center.z⟩ := by
  constructor
  · rintro ⟨d, hd, he⟩
    obtain ⟨hx, hz⟩ := eq_add_iff.mp he
    obtain ⟨dx, dz⟩ := d
    simp only at hx hz
    rwa [← hx, ← hz]
  · intro h
    exact ⟨_, h, eq_add_iff.mpr ⟨rfl, rfl⟩⟩

theorem mem_map_offsets {center c : ChunkCoord} {distance : Int} :
    c ∈ (offsets distance).map (center + ·) ↔ Within center distance c := by
  rw [List.mem_map, exists_offset (p := fun d => d ∈ offsets distance), mem_offsets, within_iff]
  simp only
  omega

end ChunkCoord

end Vitamine
