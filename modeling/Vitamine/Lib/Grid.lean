import Mathlib.Data.List.Nodup
import Mathlib.Data.List.OfFn
import Mathlib.Tactic.Ring

/-!
# Ranges of integers and boxes of points

The lists that counting loops go through: `range a b` is `a, a + 1, …, b`, and `box mk a b c d` the
points `mk x z` of two nested loops. A box is met only through `mem_box` and `nodup_box`.

`rows` is a table as it lies in memory, row after row; `getElem?_rows` finds an entry in it.
-/

namespace Grid

variable {P : Type}

/-- The integers from `a` to `b`, both included. -/
def range (a b : Int) : List Int := (List.range (b + 1 - a).toNat).map fun k : Nat => a + k

theorem mem_range {a b x : Int} : x ∈ range a b ↔ a ≤ x ∧ x ≤ b := by
  simp only [range, List.mem_map, List.mem_range]
  constructor
  · rintro ⟨k, hk, rfl⟩
    omega
  · rintro ⟨ha, hb⟩
    exact ⟨(x - a).toNat, by omega, by omega⟩

/-- The points of the loops `for x in a..b`, `for z in c..d`, in their order. -/
def box (mk : Int → Int → P) (a b c d : Int) : List P :=
  (range a b).flatMap fun x => (range c d).map (mk x)

theorem mem_box {mk : Int → Int → P} {a b c d : Int} {p : P} :
    p ∈ box mk a b c d ↔ ∃ x z, (a ≤ x ∧ x ≤ b) ∧ (c ≤ z ∧ z ≤ d) ∧ mk x z = p := by
  simp only [box, List.mem_flatMap, List.mem_map, mem_range]
  constructor
  · rintro ⟨x, hx, z, hz, rfl⟩
    exact ⟨x, z, hx, hz, rfl⟩
  · rintro ⟨x, z, hx, hz, rfl⟩
    exact ⟨x, hx, z, hz, rfl⟩

theorem nodup_range (a b : Int) : (range a b).Nodup :=
  List.nodup_range.map fun i j (h : a + (i : Int) = a + j) => by omega

/-- Every point of a box is met once. -/
theorem nodup_box {mk : Int → Int → P} (hmk : ∀ x z x' z', mk x z = mk x' z' → x = x' ∧ z = z')
    (a b c d : Int) : (box mk a b c d).Nodup := by
  refine List.nodup_flatMap.mpr ⟨fun x _ => (nodup_range c d).map fun z z' h => (hmk _ _ _ _ h).2,
    (nodup_range a b).imp fun {x x'} hne => ?_⟩
  show List.Disjoint _ _
  rintro p hp hp'
  obtain ⟨z, -, rfl⟩ := List.mem_map.mp hp
  obtain ⟨z', -, h⟩ := List.mem_map.mp hp'
  exact hne (hmk _ _ _ _ h).1.symm

/-! ## Tables -/

/-- The rows of a table, one after the other. -/
def rows {n : Nat} (row : Fin n → List P) : List P := (List.ofFn row).flatten

theorem length_rows {n m : Nat} {row : Fin n → List P} (h : ∀ i, (row i).length = m) :
    (rows row).length = m * n := by
  induction n with
  | zero => rfl
  | succ n ih =>
    rw [rows, List.ofFn_succ, List.flatten_cons, List.length_append, ← rows, ih fun i => h i.succ,
      h, Nat.mul_succ, Nat.add_comm]

/-- Entry `j` of row `i` of a table whose rows have `m` entries. -/
theorem getElem?_rows {n m j : Nat} {row : Fin n → List P} (h : ∀ i, (row i).length = m)
    (i : Fin n) (hj : j < m) : (rows row)[m * i + j]? = (row i)[j]? := by
  induction n with
  | zero => exact i.elim0
  | succ n ih =>
    rw [rows, List.ofFn_succ, List.flatten_cons, ← rows]
    cases i using Fin.cases with
    | zero =>
      rw [Fin.val_zero, Nat.mul_zero, Nat.zero_add,
        List.getElem?_append_left (by rw [h]; exact hj)]
    | succ i =>
      rw [Fin.val_succ, Nat.mul_succ, List.getElem?_append_right (by rw [h]; omega), h,
        show m * i + m + j - m = m * i + j by omega, ih fun i => h i.succ]

theorem mem_rows {n : Nat} {row : Fin n → List P} {p : P} : p ∈ rows row ↔ ∃ i, p ∈ row i := by
  simp [rows, List.mem_flatten, List.mem_ofFn]

end Grid
