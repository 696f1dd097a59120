import Mathlib.Data.Set.Image
import Mathlib.Tactic.Common

/-!
# Members that hold copies of the set of their keys

The members of a roster have keys, and each holds a copy of the set of the keys of those who are
there. A registry lists the members; it is what a newcomer's copy is made from, and it may list
members who are not there any more.

* `Joins`, `Leaves`: the member is entered in, or taken off, the registry and all copies.
* `Vanishes`: the member is not there any more, and nobody is told.
* `Joins.agrees_iff`, `Leaves.agrees_iff`: when the copies are still right after it. Keys may be
  shared, so each is a condition on keys.
* `Vanishes.stays`: nothing changes if the member was not there.
-/

/-- Who is there, whom the registry lists, the keys, and the copies. -/
structure Roster (P K : Type) where
  present : Set P
  listed : Set P
  key : P → K
  copy : P → Set K

namespace Roster

variable {P K : Type}

/-- The keys of those who are there. -/
def keys (r : Roster P K) : Set K := r.key '' r.present

/-- Everybody who is there has the set of the keys of those who are there. -/
def Agrees (r : Roster P K) : Prop := ∀ p ∈ r.present, r.copy p = r.keys

/-- Nothing that matters is different. -/
structure Stays (r r' : Roster P K) : Prop where
  present : r'.present = r.present
  key : ∀ q ∈ r.present, r'.key q = r.key q
  copy : ∀ q ∈ r.present, r'.copy q = r.copy q

/-- `p` comes with the key `k`: it is given the keys of the registry and its own one, and the others
are told of it. -/
structure Joins (r r' : Roster P K) (p : P) (k : K) : Prop where
  absent : p ∉ r.present
  present : r'.present = insert p r.present
  key_self : r'.key p = k
  key_ne : ∀ q ∈ r.present, r'.key q = r.key q
  copy_self : r'.copy p = insert k (r.key '' r.listed)
  copy_ne : ∀ q ∈ r.present, r'.copy q = insert k (r.copy q)

/-- `p` goes, and the others are told. -/
structure Leaves (r r' : Roster P K) (p : P) : Prop where
  present : r'.present = r.present \ {p}
  key : r'.key = r.key
  copy : ∀ q ∈ r.present, q ≠ p → r'.copy q = r.copy q \ {r.key p}

/-- `p` is not there any more, and the others are told nothing. -/
structure Vanishes (r r' : Roster P K) (p : P) : Prop where
  present : r'.present = r.present \ {p}
  key : r'.key = r.key
  copy : ∀ q ∈ r.present, q ≠ p → r'.copy q = r.copy q

variable {r r' : Roster P K} {p : P} {k : K}

theorem Stays.agrees (h : r.Stays r') (ha : r.Agrees) : r'.Agrees := by
  intro q hq
  rw [h.present] at hq
  rw [h.copy q hq, ha q hq, keys, keys, h.present]
  exact (Set.image_congr h.key).symm

/-- The copies are right after `p` has come if the registry lists nobody with a key that nobody
has. -/
theorem Joins.agrees_iff (h : r.Joins r' p k) (hlisted : r.present ⊆ r.listed) (ha : r.Agrees) :
    r'.Agrees ↔ ∀ q ∈ r.listed, r.key q = k ∨ r.key q ∈ r.keys := by
  have hkeys : r'.keys = insert k r.keys := by
    rw [keys, h.present, Set.image_insert_eq, h.key_self, Set.image_congr h.key_ne, keys]
  constructor
  · intro ha' q hq
    have hp := ha' p (by rw [h.present]; exact Set.mem_insert _ _)
    rw [h.copy_self, hkeys] at hp
    have hmem : r.key q ∈ insert k (r.key '' r.listed) := .inr ⟨q, hq, rfl⟩
    rwa [hp] at hmem
  · intro hk q hq
    rw [h.present] at hq
    rw [hkeys]
    rcases hq with rfl | hq
    · rw [h.copy_self]
      ext k'
      constructor
      · rintro (rfl | ⟨q', hq', rfl⟩)
        · exact Set.mem_insert _ _
        · exact hk q' hq'
      · rintro (rfl | ⟨q', hq', rfl⟩)
        · exact Set.mem_insert _ _
        · exact .inr ⟨q', hlisted hq', rfl⟩
    · rw [h.copy_ne q hq, ha q hq]

/-- The copies are right after `p` has gone if nobody else has its key. -/
theorem Leaves.agrees_iff (h : r.Leaves r' p) (ha : r.Agrees) :
    r'.Agrees ↔ ∀ q ∈ r.present, q ≠ p → r.key q ≠ r.key p := by
  constructor
  · intro ha' q hq hne he
    have hq' : q ∈ r'.present := by
      rw [h.present]
      exact ⟨hq, hne⟩
    have hmem : r.key q ∈ r'.copy q := by
      rw [ha' q hq', ← h.key]
      exact ⟨q, hq', rfl⟩
    rw [h.copy q hq hne] at hmem
    exact hmem.2 he
  · intro hk q hq
    rw [h.present] at hq
    rw [h.copy q hq.1 hq.2, ha q hq.1, keys, keys, h.present, h.key]
    ext k'
    constructor
    · rintro ⟨⟨q', hq', rfl⟩, hne⟩
      exact ⟨q', ⟨hq', fun he => hne (congrArg r.key he)⟩, rfl⟩
    · rintro ⟨q', ⟨hq', hne⟩, rfl⟩
      exact ⟨⟨q', hq', rfl⟩, hk q' hq' hne⟩

/-- Who was not there leaves no gap. -/
theorem Vanishes.stays (h : r.Vanishes r' p) (hp : p ∉ r.present) : r.Stays r' where
  present := by rw [h.present, Set.sdiff_singleton_eq_self hp]
  key q _ := by rw [h.key]
  copy q hq := h.copy q hq fun he => hp (he ▸ hq)

end Roster
