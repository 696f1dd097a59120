import Mathlib.Algebra.Order.Group.Int
import Mathlib.Data.List.Chain
import Mathlib.Tactic.Common

/-!
# Throttles

A throttle lets a time through if the last one that it let through is at least `d` back. `latest`
is the last time that was let through, `last` before there is any.

* `pass_snoc`, `latest_snoc`: one more time.
* `isChain_pass`: what is let through is at least `d` apart.
* `isChain_pass_of_isChain`: if the times are at most `g` apart, what is let through is less than
  `d + g` apart.
-/

namespace Throttle

variable (d : Int)

/-- The times that are let through. -/
def pass (last : Int) : List Int → List Int
  | [] => []
  | t :: ts => if d ≤ t - last then t :: pass t ts else pass last ts

/-- The last of them. -/
def latest (last : Int) : List Int → Int
  | [] => last
  | t :: ts => if d ≤ t - last then latest t ts else latest last ts

variable {d} {last t g : Int} {ts : List Int}

theorem latest_append (us : List Int) :
    latest d last (ts ++ us) = latest d (latest d last ts) us := by
  induction ts generalizing last with
  | nil => rfl
  | cons t ts ih =>
    rw [List.cons_append, latest, latest]
    split_ifs
    · exact ih
    · exact ih

theorem pass_append (us : List Int) :
    pass d last (ts ++ us) = pass d last ts ++ pass d (latest d last ts) us := by
  induction ts generalizing last with
  | nil => rfl
  | cons t ts ih =>
    rw [List.cons_append, pass, pass, latest]
    split_ifs
    · rw [ih, List.cons_append]
    · exact ih

theorem pass_snoc : pass d last (ts ++ [t]) =
    pass d last ts ++ if d ≤ t - latest d last ts then [t] else [] := by
  rw [pass_append]
  rfl

theorem latest_snoc : latest d last (ts ++ [t]) =
    if d ≤ t - latest d last ts then t else latest d last ts := by
  rw [latest_append]
  rfl

/-- What is let through is at least `d` apart, and so is the first of it from `last`. -/
theorem isChain_pass : (last :: pass d last ts).IsChain fun s t => d ≤ t - s := by
  induction ts generalizing last with
  | nil => exact List.isChain_singleton _
  | cons t ts ih =>
    rw [pass]
    split_ifs with h
    · exact List.isChain_cons_cons.mpr ⟨h, ih⟩
    · exact ih

/-- After `s`, which is less than `d` after `last`. -/
theorem isChain_pass_of_near {s : Int} (hd : 0 < d) (hs : s - last < d)
    (h : (s :: ts).IsChain fun s t => t ≤ s + g) :
    (last :: pass d last ts).IsChain fun s t => t - s < d + g := by
  induction ts generalizing last s with
  | nil => exact List.isChain_singleton _
  | cons t ts ih =>
    obtain ⟨ht, hts⟩ := List.isChain_cons_cons.mp h
    rw [pass]
    split_ifs with hpass
    · refine List.isChain_cons_cons.mpr ⟨by omega, ih (s := t) ?_ hts⟩
      omega
    · refine ih (s := t) ?_ hts
      omega

/-- Times that are at most `g` apart. -/
theorem isChain_pass_of_isChain (hd : 0 < d) (h : ts.IsChain fun s t => t ≤ s + g) :
    (pass d last ts).IsChain fun s t => t - s < d + g := by
  induction ts with
  | nil => exact List.isChain_nil
  | cons t ts ih =>
    rw [pass]
    split_ifs
    · exact isChain_pass_of_near hd (by omega) h
    · exact ih h.tail

end Throttle
