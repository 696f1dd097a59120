import Mathlib.Data.Finset.Basic
import Mathlib.Data.Finset.Card
import Mathlib.Data.List.Sort
import Mathlib.Tactic.Common

/-!
# Sets by key

An `Index K V` gives every key a finite set, the empty one unless something was put there. Loops
that put a value at a list of keys, or take it away, are `insertAll` and `eraseAll`; what such a
loop does is one equivalence each, in which the order and repetitions of the keys play no part.

`ascending` lists a finite set of numbers, for loops over such a set. It sorts by insertion, which
computes by recursion on the list.
-/

/-- A finite set of values for every key. -/
abbrev Index (K V : Type) := K → Finset V

namespace Index

variable {K V : Type} [DecidableEq K] [DecidableEq V]

/-- `v` is put into the set at `k`. -/
def insertAt (m : Index K V) (k : K) (v : V) : Index K V := fun k' =>
  if k' = k then insert v (m k') else m k'

/-- `v` is taken out of the set at `k`. -/
def eraseAt (m : Index K V) (k : K) (v : V) : Index K V := fun k' =>
  if k' = k then (m k').erase v else m k'

def insertAll (m : Index K V) (keys : List K) (v : V) : Index K V :=
  keys.foldl (fun m k => m.insertAt k v) m

def eraseAll (m : Index K V) (keys : List K) (v : V) : Index K V :=
  keys.foldl (fun m k => m.eraseAt k v) m

variable {m : Index K V} {k : K} {keys : List K} {v w : V}

@[simp] theorem mem_insertAt {k' : K} : w ∈ m.insertAt k' v k ↔ w ∈ m k ∨ w = v ∧ k = k' := by
  unfold insertAt
  by_cases h : k = k'
  · subst h
    simp [or_comm]
  · simp [h]

@[simp] theorem mem_eraseAt {k' : K} : w ∈ m.eraseAt k' v k ↔ w ∈ m k ∧ ¬ (w = v ∧ k = k') := by
  unfold eraseAt
  by_cases h : k = k'
  · subst h
    simp [and_comm]
  · simp [h]

@[simp] theorem mem_insertAll : w ∈ m.insertAll keys v k ↔ w ∈ m k ∨ w = v ∧ k ∈ keys := by
  induction keys generalizing m with
  | nil => simp [insertAll]
  | cons k' keys ih =>
    rw [insertAll, List.foldl_cons, ← insertAll, ih, mem_insertAt, List.mem_cons]
    tauto

@[simp] theorem mem_eraseAll : w ∈ m.eraseAll keys v k ↔ w ∈ m k ∧ ¬ (w = v ∧ k ∈ keys) := by
  induction keys generalizing m with
  | nil => simp [eraseAll]
  | cons k' keys ih =>
    rw [eraseAll, List.foldl_cons, ← eraseAll, ih, mem_eraseAt, List.mem_cons]
    tauto

end Index

/-- The elements in ascending order. -/
def ascending (s : Finset Nat) : List Nat :=
  Quot.liftOn s.val (fun l => l.insertionSort (· ≤ ·)) fun a b h =>
    (((a.perm_insertionSort (· ≤ ·)).trans h).trans
      (b.perm_insertionSort (· ≤ ·)).symm).eq_of_pairwise'
        (List.pairwise_insertionSort _ a) (List.pairwise_insertionSort _ b)

@[simp] theorem mem_ascending {s : Finset Nat} {n : Nat} : n ∈ ascending s ↔ n ∈ s := by
  obtain ⟨l, hl⟩ := s
  induction l using Quot.inductionOn with
  | h l => exact List.mem_insertionSort (· ≤ ·)

theorem length_ascending (s : Finset Nat) : (ascending s).length = s.card := by
  obtain ⟨l, hl⟩ := s
  induction l using Quot.inductionOn with
  | h l => exact List.length_insertionSort (· ≤ ·) l

example : ascending {3, 1, 2} = [1, 2, 3] := by decide
