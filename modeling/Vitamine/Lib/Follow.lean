import Mathlib.Algebra.Group.Basic
import Mathlib.Tactic.Abel

/-!
# Copies that follow a value by cut steps

A value moves, and a copy of it is told of each move: of one that is `far` by the new value, of any
other by a step, which `cut` brings into the form that can be told.

* `tell`: the copy after a move; `leave`: what the steps since the last far move have left out.
* `sub_tell`: the value is ahead of the copy by what was left out.
* `left`: what a sequence of moves leaves out.
-/

namespace Follow

variable {G : Type} [AddCommGroup G] (far : G → Prop) [DecidablePred far] (cut : G → G)

/-- The copy after the move from `old` to `new`. -/
def tell (old new copy : G) : G := if far (new - old) then new else copy + cut (new - old)

/-- What is left out after the move from `old` to `new`, if `rest` was before it. -/
def leave (old new rest : G) : G :=
  if far (new - old) then 0 else rest + (new - old - cut (new - old))

/-- The value is ahead of the copy by what was left out. -/
theorem sub_tell (old new copy : G) :
    new - tell far cut old new copy = leave far cut old new (old - copy) := by
  unfold tell leave
  split
  · exact sub_self new
  · abel

/-- The last of the values and what the moves to them leave out. -/
def walk (old rest : G) (news : List G) : G × G :=
  news.foldl (fun s new => (new, leave far cut s.1 new s.2)) (old, rest)

@[simp] theorem walk_nil (old rest : G) : walk far cut old rest [] = (old, rest) := rfl

@[simp] theorem walk_snoc (old rest : G) (news : List G) (new : G) :
    walk far cut old rest (news ++ [new]) =
      (new, leave far cut (walk far cut old rest news).1 new (walk far cut old rest news).2) := by
  simp [walk]

/-- What the moves from `old` to the values `news` in turn leave out. -/
def left (old : G) (news : List G) : G := (walk far cut old 0 news).2

end Follow
