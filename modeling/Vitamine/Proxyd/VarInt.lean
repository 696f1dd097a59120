import Vitamine.Proxyd.Verdicts

/-!
# The varint codec (`encodeVarInt32`, `deserializeVarInt`)

What the readers of packets and frames rest on, for all values and all byte strings.

* `exists_varIntOf`: bytes of which one of the first five ends a varint begin with a varint.
* `varInt_ok_iff`, `varInt_incomplete_iff`, `varInt_invalid_iff`: the three verdicts.
* `varInt_codec`: the codec as a whole.
-/

namespace Vitamine

open Wire

/-- Bytes that do not all go on begin with those of a varint. -/
theorem exists_varIntBytes {bs : Bytes} (h : ¬ AllContinue bs) :
    ∃ l rest, bs = l ++ rest ∧ VarIntBytes l := by
  induction bs with
  | nil => exact absurd (fun b hb => (by cases hb)) h
  | cons b bs ih =>
    by_cases hb : 128 ≤ b.toNat
    · obtain ⟨l, rest, rfl, hl⟩ := ih fun hall => h (allContinue_cons.mpr ⟨hb, hall⟩)
      exact ⟨b :: l, rest, rfl, hl.cons hb⟩
    · exact ⟨[b], bs, rfl, Nat.lt_of_not_le hb⟩

theorem exists_varIntOf {bs : Bytes} (h : ¬ AllContinue (bs.take VARINT32_MAX_LENGTH)) :
    ∃ l rest v, bs = l ++ rest ∧ VarIntOf l v := by
  obtain ⟨l, rest, hl, hshape⟩ := exists_varIntBytes h
  have hlen := congrArg List.length hl
  rw [List.length_append, List.length_take] at hlen
  refine ⟨l, rest ++ bs.drop VARINT32_MAX_LENGTH, BitVec.ofNat 32 (varIntValue l), ?_, hshape,
    by omega, BitVec.toNat_ofNat ..⟩
  rw [← List.append_assoc, ← hl, List.take_append_drop]

/-- A varint is read if one of the first five bytes ends it. -/
theorem varInt_ok_iff {c : Cursor Byte} :
    (∃ v d, deserializeVarInt c = .ok v d) ↔ ¬ AllContinue (c.view.take VARINT32_MAX_LENGTH) := by
  constructor
  · rintro ⟨v, d, h⟩ hall
    obtain ⟨k, -, -, hk⟩ := reads_varInt c.size _ _ _ (le_refl _) h
    obtain ⟨b, hb, hlt⟩ := hk.shape.exists_lt
    have hmem : b ∈ c.view.take VARINT32_MAX_LENGTH :=
      (List.prefix_take_iff.mpr ⟨List.take_prefix k c.view, hk.length_le⟩).subset hb
    have := hall b hmem
    omega
  · intro h
    obtain ⟨l, rest, v, hview, hl⟩ := exists_varIntOf h
    exact ⟨v, _, hl.decodes c rest hview⟩

/-- A varint fails where it began. -/
theorem varInt_error {c d : Cursor Byte} {e : DeserializeError}
    (h : deserializeVarInt c = .error e d) : d = c ∧ Status e := by
  refine ⟨?_, throws_varInt c e d h⟩
  unfold deserializeVarInt at h
  split at h
  · cases h
  · exact (EStateM.Result.error.inj h).2.symm

theorem varInt_cases (c : Cursor Byte) : (∃ v d, deserializeVarInt c = .ok v d) ∨
    deserializeVarInt c = .error .errorDataIncomplete c ∨
      deserializeVarInt c = .error .errorDataInvalid c := by
  cases h : deserializeVarInt c with
  | ok v d => exact .inl ⟨v, d, rfl⟩
  | error e d =>
    obtain ⟨rfl, rfl | rfl⟩ := varInt_error h
    · exact .inr (.inl rfl)
    · exact .inr (.inr rfl)

/-- The codec of varints. -/
structure VarIntCodec : Prop where
  /-- What is written has the size of the value, and is read back from whatever follows it. -/
  roundTrip : ∀ (v : BitVec 32) (r : Bytes) (c : Cursor Byte), c.view = encodeVarInt32 v ++ r →
    (encodeVarInt32 v).length = wireSizeVarInt32 v ∧
      ∃ d, deserializeVarInt c = .ok v d ∧ d.view = r
  /-- What is read is part of the bytes that are there, and no shorter than what is written. -/
  consumes : ∀ (c d : Cursor Byte) (v : BitVec 32), deserializeVarInt c = .ok v d →
    ∃ k, wireSizeVarInt32 v ≤ k ∧ k ≤ c.size ∧ d = c.advance k
  ok_iff : ∀ c : Cursor Byte, (∃ v d, deserializeVarInt c = .ok v d) ↔
    ∃ b ∈ c.view.take 5, b.msb = false
  incomplete_iff : ∀ c : Cursor Byte, (∃ d, deserializeVarInt c = .error .errorDataIncomplete d) ↔
    c.view.length < 5 ∧ ∀ b ∈ c.view, b.msb = true
  /-- Otherwise. -/
  invalid_iff : ∀ c : Cursor Byte, (∃ d, deserializeVarInt c = .error .errorDataInvalid d) ↔
    (¬ ∃ b ∈ c.view.take 5, b.msb = false) ∧ ¬ (c.view.length < 5 ∧ ∀ b ∈ c.view, b.msb = true)
  /-- No other failure, and none that moves the pointer or changes the size. -/
  unchanged : ∀ (c d : Cursor Byte) (e : DeserializeError), deserializeVarInt c = .error e d →
    d = c ∧ Status e

theorem msb_iff : ∀ b : Byte, b.msb = true ↔ 128 ≤ b.toNat := by decide

theorem allContinue_iff {bs : Bytes} : AllContinue bs ↔ ∀ b ∈ bs, b.msb = true := by
  simp only [AllContinue, msb_iff]

theorem varInt_ok_msb_iff (c : Cursor Byte) : (∃ v d, deserializeVarInt c = .ok v d) ↔
    ∃ b ∈ c.view.take 5, b.msb = false := by
  rw [varInt_ok_iff, allContinue_iff]
  simp [VARINT32_MAX_LENGTH]

theorem varInt_incomplete_msb_iff (c : Cursor Byte) :
    (∃ d, deserializeVarInt c = .error .errorDataIncomplete d) ↔
      c.view.length < 5 ∧ ∀ b ∈ c.view, b.msb = true := by
  rw [varInt_incomplete_iff, allContinue_iff, and_comm, Cursor.length_view]
  rfl

/-- **The codec of varints is right** for all values and all bytes. -/
theorem varInt_codec : VarIntCodec where
  roundTrip v r c hc := by
    refine ⟨(wireSizeVarInt32_eq v).symm, _, decodes_varInt v c r hc, ?_⟩
    rw [Cursor.view_advance, hc]
    exact List.drop_left
  consumes c d v h := by
    obtain ⟨k, hk, hd, hl⟩ := reads_varInt c.size _ _ _ (le_refl _) h
    have hle := hl.length_encode_le
    rw [List.length_take, Cursor.length_view] at hle
    exact ⟨k, by rw [wireSizeVarInt32_eq]; omega, hk, hd⟩
  ok_iff := varInt_ok_msb_iff
  incomplete_iff := varInt_incomplete_msb_iff
  invalid_iff c := by
    rw [← varInt_ok_msb_iff, ← varInt_incomplete_msb_iff]
    constructor
    · rintro ⟨d, h⟩
      constructor
      · rintro ⟨v, d', h'⟩
        cases h.symm.trans h'
      · rintro ⟨d', h'⟩
        cases h.symm.trans h'
    · rintro ⟨hno, hno'⟩
      rcases varInt_cases c with h | h | h
      · exact absurd h hno
      · exact absurd ⟨c, h⟩ hno'
      · exact ⟨c, h⟩
  unchanged c d e h := varInt_error h

/-- An overlong zero. -/
example : deserializeVarInt (.ofList [0x80, 0x80, 0x00, 0x07]) = .ok 0 ⟨[0x07], 1, by decide⟩ := rfl

end Vitamine
