import Mathlib.Data.List.Infix
import Mathlib.Logic.Function.Basic
import Vitamine.Lib.System

/-!
# Rooms

A room has a history of posts, oldest first. Who joins it sees the posts from then on, until it
leaves; nobody joins twice, unless the room has forgotten it in between. The inbox of a member is a
stretch of the history.

* `inbox_join`, `inbox_post`, `inbox_leave`, `inbox_forget`: what an event does to an inbox.
* `inbox_suffix`: the inbox of who is there is the end of the history, so of two members one has
  what the other has, and what was posted before the other came (`suffix_or_suffix`).
-/

/-- The numbers are those of the posts that came before. -/
structure Room (P M : Type) where
  history : List M
  joined : P → Option Nat
  left : P → Option Nat
  joined_le : ∀ p i, joined p = some i → i ≤ history.length
  left_le : ∀ p i, left p = some i → i ≤ history.length
  joined_of_left : ∀ p, joined p = none → left p = none

namespace Room

variable {P M : Type}

def empty : Room P M where
  history := []
  joined _ := none
  left _ := none
  joined_le _ _ h := by cases h
  left_le _ _ h := by cases h
  joined_of_left _ _ := rfl

/-- It has joined and not left. -/
def Present (r : Room P M) (p : P) : Prop := r.joined p ≠ none ∧ r.left p = none

instance (r : Room P M) (p : P) : Decidable (r.Present p) := inferInstanceAs (Decidable (_ ∧ _))

/-- The posts that a member has seen. -/
def inbox (r : Room P M) (p : P) : List M :=
  match r.joined p with
  | none => []
  | some i =>
    match r.left p with
    | none => r.history.drop i
    | some j => (r.history.take j).drop i

section Inbox

variable {r : Room P M} {p : P}

theorem inbox_of_joined {i : Nat} (h : r.joined p = some i) (hl : r.left p = none) :
    r.inbox p = r.history.drop i := by
  rw [inbox, h, hl]

theorem inbox_of_left {i j : Nat} (h : r.joined p = some i) (hl : r.left p = some j) :
    r.inbox p = (r.history.take j).drop i := by
  rw [inbox, h, hl]

theorem inbox_of_not_joined (h : r.joined p = none) : r.inbox p = [] := by
  rw [inbox, h]

end Inbox

section Events

variable [DecidableEq P] (r : Room P M) (p q : P) (m : M)

/-- A bound of the numbers stays one if the new number is within it. -/
theorem le_of_update {f : P → Option Nat} {n : Nat} (h : ∀ q i, f q = some i → i ≤ n)
    {v : Option Nat} (hv : ∀ i, v = some i → i ≤ n) (q : P) (i : Nat)
    (hi : Function.update f p v q = some i) : i ≤ n := by
  by_cases hq : q = p
  · subst hq
    rw [Function.update_self] at hi
    exact hv i hi
  · rw [Function.update_of_ne hq] at hi
    exact h q i hi

def join : Room P M where
  history := r.history
  joined := Function.update r.joined p (some r.history.length)
  left := r.left
  joined_le := le_of_update p r.joined_le fun _ h => (Option.some.inj h).ge
  left_le := r.left_le
  joined_of_left q h := by
    by_cases hq : q = p
    · subst hq
      rw [Function.update_self] at h
      cases h
    · rw [Function.update_of_ne hq] at h
      exact r.joined_of_left q h

def post : Room P M where
  history := r.history ++ [m]
  joined := r.joined
  left := r.left
  joined_le p i h := by
    have hle := r.joined_le p i h
    rw [List.length_append]
    omega
  left_le p i h := by
    have hle := r.left_le p i h
    rw [List.length_append]
    omega
  joined_of_left := r.joined_of_left

/-- Who has not joined cannot leave. -/
def leave : Room P M where
  history := r.history
  joined := r.joined
  left := if r.joined p = none then r.left else Function.update r.left p (some r.history.length)
  joined_le := r.joined_le
  left_le q i h := by
    split at h
    · exact r.left_le q i h
    · exact le_of_update p r.left_le (fun _ h => (Option.some.inj h).ge) q i h
  joined_of_left q h := by
    split <;> rename_i hp
    · exact r.joined_of_left q h
    · have hq : q ≠ p := fun he => hp (he ▸ h)
      rw [Function.update_of_ne hq]
      exact r.joined_of_left q h

/-- The name is that of a newcomer from now on. -/
def forget : Room P M where
  history := r.history
  joined := Function.update r.joined p none
  left := Function.update r.left p none
  joined_le := le_of_update p r.joined_le fun _ h => by cases h
  left_le := le_of_update p r.left_le fun _ h => by cases h
  joined_of_left q h := by
    by_cases hq : q = p
    · subst hq
      exact Function.update_self ..
    · rw [Function.update_of_ne hq] at h ⊢
      exact r.joined_of_left q h

variable {r p q m}

theorem present_join (h : r.joined p = none) : (r.join p).Present q ↔ q = p ∨ r.Present q := by
  unfold Present join
  by_cases hq : q = p
  · subst hq
    simp [r.joined_of_left q h]
  · simp [hq]

omit [DecidableEq P] in
@[simp] theorem present_post : (r.post m).Present q ↔ r.Present q := Iff.rfl

theorem left_leave (h : r.Present p) :
    (r.leave p).left = Function.update r.left p (some r.history.length) := if_neg h.1

theorem present_leave (h : r.Present p) : (r.leave p).Present q ↔ q ≠ p ∧ r.Present q := by
  have hj : (r.leave p).joined = r.joined := rfl
  unfold Present
  rw [left_leave h, hj]
  by_cases hq : q = p
  · subst hq
    simp
  · simp [hq]

/-- Who joins has seen nothing. -/
theorem inbox_join (h : r.joined p = none) : (r.join p).inbox q = r.inbox q := by
  by_cases hq : q = p
  · subst hq
    have hj : (r.join q).joined q = some r.history.length := Function.update_self ..
    rw [inbox_of_joined hj (r.joined_of_left q h), inbox_of_not_joined h]
    exact List.drop_length
  · have hj : (r.join p).joined q = r.joined q := Function.update_of_ne hq ..
    unfold inbox
    rw [hj]
    rfl

omit [DecidableEq P] in
/-- A post reaches those who are there. -/
theorem inbox_post : (r.post m).inbox q = r.inbox q ++ if r.Present q then [m] else [] := by
  have hh : (r.post m).history = r.history ++ [m] := rfl
  cases hj : r.joined q with
  | none =>
    have habsent : ¬ r.Present q := fun h => h.1 hj
    rw [inbox_of_not_joined hj, if_neg habsent]
    exact inbox_of_not_joined hj
  | some i =>
    have hle := r.joined_le q i hj
    cases hl : r.left q with
    | none =>
      have hpresent : r.Present q := ⟨by rw [hj]; simp, hl⟩
      rw [inbox_of_joined hj hl, if_pos hpresent, inbox_of_joined (r := r.post m) hj hl, hh,
        List.drop_append_of_le_length hle]
    | some j =>
      have habsent : ¬ r.Present q := fun h => by simp [h.2] at hl
      rw [inbox_of_left hj hl, if_neg habsent, inbox_of_left (r := r.post m) hj hl, hh,
        List.take_append_of_le_length (r.left_le q j hl), List.append_nil]

/-- Who leaves keeps what it has seen. -/
theorem inbox_leave (h : r.Present p) : (r.leave p).inbox q = r.inbox q := by
  by_cases hq : q = p
  · subst hq
    obtain ⟨i, hi⟩ := Option.ne_none_iff_exists'.mp h.1
    have hl : (r.leave q).left q = some r.history.length := by
      rw [left_leave h, Function.update_self]
    rw [inbox_of_left (r := r.leave q) hi hl, inbox_of_joined hi h.2]
    exact congrArg (List.drop i) List.take_length
  · have hl : (r.leave p).left q = r.left q := by
      rw [left_leave h, Function.update_of_ne hq]
    unfold inbox
    rw [hl]
    rfl

theorem present_forget : (r.forget p).Present q ↔ q ≠ p ∧ r.Present q := by
  unfold Present forget
  by_cases hq : q = p
  · subst hq
    simp
  · simp [hq]

theorem left_forget (hq : q ≠ p) : (r.forget p).left q = r.left q := Function.update_of_ne hq ..

theorem inbox_forget_self : (r.forget p).inbox p = [] :=
  inbox_of_not_joined (Function.update_self ..)

theorem inbox_forget (hq : q ≠ p) : (r.forget p).inbox q = r.inbox q := by
  have hj : (r.forget p).joined q = r.joined q := Function.update_of_ne hq ..
  unfold inbox
  rw [hj, left_forget hq]
  rfl

end Events

variable {r : Room P M} {p q : P}

/-- Who is there has seen everything from some post on. -/
theorem inbox_suffix (h : r.Present p) : r.inbox p <:+ r.history := by
  obtain ⟨i, hi⟩ := Option.ne_none_iff_exists'.mp h.1
  rw [inbox_of_joined hi h.2]
  exact List.drop_suffix _ _

/-- Of two members, one has seen the last of what the other has seen. -/
theorem suffix_or_suffix (hp : r.Present p) (hq : r.Present q) :
    r.inbox p <:+ r.inbox q ∨ r.inbox q <:+ r.inbox p :=
  List.suffix_or_suffix_of_suffix (inbox_suffix hp) (inbox_suffix hq)

/-! ## The events of a room -/

inductive Event (P M : Type) where
  | join (p : P)
  | post (m : M)
  | leave (p : P)
  | forget (p : P)

/-- Nobody joins twice, who leaves is there, and nobody is forgotten who is there. -/
def system [DecidableEq P] : System (Room P M) (Event P M) where
  enabled r
    | .join p => r.joined p = none
    | .post _ => True
    | .leave p => r.Present p
    | .forget p => ¬ r.Present p
  next r
    | .join p => r.join p
    | .post m => r.post m
    | .leave p => r.leave p
    | .forget p => r.forget p

end Room
