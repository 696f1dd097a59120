import Mathlib.Data.List.Basic
import Mathlib.Data.List.Infix
import Mathlib.Tactic.Common

/-!
# Decoding a stream that arrives in pieces

A `Decoder` looks at the elements so far and gives a `Verdict`: an item and how much of the input
it used, `incomplete`, or `invalid`. Items and `invalid` are final: more input does not change
them. `parse` applies the decoder until it stops.

`parse_append` and `parse_append_of_invalid` say how the parse of a whole stream follows from the
parse of a first piece: nothing of the first piece but its unparsed rest matters for what follows.
-/

namespace Wire

variable {α β : Type}

/-- What a decoder says of the input so far. -/
inductive Verdict (α : Type) where
  | item (a : α) (used : Nat)
  | incomplete
  | invalid

/-- A decoder whose items and rejections are final. -/
structure Decoder (α β : Type) where
  next : List β → Verdict α
  used_pos : ∀ {s a n}, next s = .item a n → 0 < n
  used_le : ∀ {s a n}, next s = .item a n → n ≤ s.length
  item_append : ∀ {s a n}, next s = .item a n → ∀ t, next (s ++ t) = .item a n
  invalid_append : ∀ {s}, next s = .invalid → ∀ t, next (s ++ t) = .invalid

/-- The items of a stream in order, what is left unparsed, and if the decoder rejected it. -/
structure Parse (α β : Type) where
  items : List α
  rest : List β
  invalid : Bool

namespace Decoder

variable (D : Decoder α β)

/-- Apply the decoder to `s` until it is out of items. -/
def parse (s : List β) : Parse α β :=
  match _h : D.next s with
  | .item a n =>
    let p := parse (s.drop n)
    { p with items := a :: p.items }
  | .incomplete => ⟨[], s, false⟩
  | .invalid => ⟨[], s, true⟩
termination_by s.length
decreasing_by
  have := D.used_pos _h
  have := D.used_le _h
  simp only [List.length_drop]; omega

variable {D}

theorem parse_of_item {s : List β} {a : α} {n : Nat} (h : D.next s = .item a n) :
    D.parse s = { D.parse (s.drop n) with items := a :: (D.parse (s.drop n)).items } := by
  rw [parse]
  split <;> rename_i h' <;> rw [h] at h'
  · obtain ⟨rfl, rfl⟩ := Verdict.item.inj h'; rfl
  · cases h'
  · cases h'

theorem parse_of_incomplete {s : List β} (h : D.next s = .incomplete) :
    D.parse s = ⟨[], s, false⟩ := by
  rw [parse]
  split <;> rename_i h' <;> rw [h] at h' <;> cases h'

theorem parse_of_invalid {s : List β} (h : D.next s = .invalid) : D.parse s = ⟨[], s, true⟩ := by
  rw [parse]
  split <;> rename_i h' <;> rw [h] at h' <;> cases h'

/-- Induction over the items of a parse. -/
theorem parse_induction {P : List β → Prop}
    (item : ∀ s a n, D.next s = .item a n → P (s.drop n) → P s)
    (incomplete : ∀ s, D.next s = .incomplete → P s)
    (invalid : ∀ s, D.next s = .invalid → P s) (s : List β) : P s := by
  induction hn : s.length using Nat.strongRecOn generalizing s with
  | ind n ih =>
    cases h : D.next s with
    | incomplete => exact incomplete s h
    | invalid => exact invalid s h
    | item a k =>
      have hpos := D.used_pos h
      have hle := D.used_le h
      exact item s a k h (ih _ (by simp only [List.length_drop]; omega) _ rfl)

/-- The rest is a suffix of the stream. -/
theorem parse_rest_suffix (s : List β) : (D.parse s).rest <:+ s := by
  induction s using parse_induction (D := D) with
  | item s a n h ih => rw [parse_of_item h]; exact ih.trans (List.drop_suffix n s)
  | incomplete s h => rw [parse_of_incomplete h]
  | invalid s h => rw [parse_of_invalid h]

/-- A parse has no items exactly when the decoder finds none at the start. -/
theorem parse_items_eq_nil_iff {s : List β} :
    (D.parse s).items = [] ↔ ∀ a n, D.next s ≠ .item a n := by
  cases h : D.next s with
  | item a n => rw [parse_of_item h]; simp
  | incomplete => rw [parse_of_incomplete h]; simp
  | invalid => rw [parse_of_invalid h]; simp

/-- A rejected stream stays rejected, after the same items. -/
theorem parse_append_of_invalid {s : List β} (hs : (D.parse s).invalid = true) (t : List β) :
    D.parse (s ++ t) = ⟨(D.parse s).items, (D.parse s).rest ++ t, true⟩ := by
  induction s using parse_induction (D := D) with
  | item s a n h ih =>
    rw [parse_of_item h] at hs ⊢
    rw [parse_of_item (D.item_append h t), List.drop_append_of_le_length (D.used_le h)]
    simp only [ih hs]
  | incomplete s h => rw [parse_of_incomplete h] at hs; cases hs
  | invalid s h => rw [parse_of_invalid h, parse_of_invalid (D.invalid_append h t)]

/-- The parse of a longer stream goes on from the rest of the shorter one. -/
theorem parse_append {s : List β} (hs : (D.parse s).invalid = false) (t : List β) :
    D.parse (s ++ t) =
      { D.parse ((D.parse s).rest ++ t) with
        items := (D.parse s).items ++ (D.parse ((D.parse s).rest ++ t)).items } := by
  induction s using parse_induction (D := D) with
  | item s a n h ih =>
    rw [parse_of_item h] at hs ⊢
    rw [parse_of_item (D.item_append h t), List.drop_append_of_le_length (D.used_le h)]
    simp only [ih hs, List.cons_append]
  | incomplete s h => rw [parse_of_incomplete h]; simp
  | invalid s h => rw [parse_of_invalid h] at hs; cases hs

/-- If the longer stream has no further items and is not rejected, its rest is everything. -/
theorem rest_of_items_eq_nil {s : List β} (hi : (D.parse s).items = []) : (D.parse s).rest = s := by
  cases h : D.next s with
  | item a n => exact absurd h (parse_items_eq_nil_iff.mp hi a n)
  | incomplete => rw [parse_of_incomplete h]
  | invalid => rw [parse_of_invalid h]

/-- A stream of items that were written one after the other. -/
theorem parse_flatMap {encode : α → List β} {as : List α} (hnil : D.next [] = .incomplete)
    (h : ∀ a ∈ as, ∀ t, D.next (encode a ++ t) = .item a (encode a).length) :
    D.parse (as.flatMap encode) = ⟨as, [], false⟩ := by
  induction as with
  | nil => exact parse_of_incomplete hnil
  | cons a as ih =>
    obtain ⟨ha, has⟩ := List.forall_mem_cons.mp h
    rw [List.flatMap_cons, parse_of_item (ha _), List.drop_left, ih has]

end Decoder

end Wire
