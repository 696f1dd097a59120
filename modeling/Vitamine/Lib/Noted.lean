import Mathlib.Control.Monad.Writer

/-!
# Computations that note what they do

A computation that notes events on the way to its value is one of the writer monad over lists.
`value` is what it computes and `notes` what it noted, in order. `All P` says that `P` holds of
every event, and comes apart along the computation (`all_bind`), so that each step is looked at
once.
-/

namespace Noted

universe u

variable {ε α β : Type u}

/-- Computations that note events. -/
abbrev Noting (ε : Type u) : Type u → Type u := Writer (List ε)

def value (x : Noting ε α) : α := (Id.run (WriterT.run x)).1

def notes (x : Noting ε α) : List ε := (Id.run (WriterT.run x)).2

/-- Note one event. -/
def note (e : ε) : Noting ε PUnit := tell [e]

/-- Every event that is noted is as `P` says. -/
def All (P : ε → Prop) (x : Noting ε α) : Prop := ∀ e ∈ notes x, P e

@[simp] theorem value_pure (a : α) : value (pure a : Noting ε α) = a := rfl

@[simp] theorem notes_pure (a : α) : notes (pure a : Noting ε α) = [] := rfl

@[simp] theorem value_bind (x : Noting ε α) (f : α → Noting ε β) :
    value (x >>= f) = value (f (value x)) := rfl

@[simp] theorem notes_bind (x : Noting ε α) (f : α → Noting ε β) :
    notes (x >>= f) = notes x ++ notes (f (value x)) := rfl

@[simp] theorem notes_note (e : ε) : notes (note e) = [e] := rfl

@[simp] theorem value_ite (c : Prop) [Decidable c] (x y : Noting ε α) :
    value (if c then x else y) = if c then value x else value y := apply_ite value c x y

variable {P : ε → Prop}

@[simp] theorem all_pure (a : α) : All P (pure a : Noting ε α) ↔ True :=
  iff_true_intro (by simp [All])

@[simp] theorem all_bind (x : Noting ε α) (f : α → Noting ε β) :
    All P (x >>= f) ↔ All P x ∧ All P (f (value x)) := by
  simp only [All, notes_bind, List.mem_append, or_imp, forall_and]

@[simp] theorem all_note (e : ε) : All P (note e) ↔ P e := by
  simp [All]

@[simp] theorem all_ite (c : Prop) [Decidable c] (x y : Noting ε α) :
    All P (if c then x else y) ↔ if c then All P x else All P y := by
  split <;> rfl

end Noted
