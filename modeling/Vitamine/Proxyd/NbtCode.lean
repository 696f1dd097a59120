import Vitamine.Proxyd.Codes
import Vitamine.Proxyd.Nbt

/-!
# Unique decoding of NBT (`proxyd/nbt.cpp`)

The source has no decoder for NBT. What it writes for a tree determines the tree and where it ends
(`nbt_unique`), if every value holds the alternative that its type names: the type is in front of a
value or of the list that it is in, lengths and counts are in front of what they count, and no type
is the end mark of a compound.
-/

namespace Vitamine

open Wire PrefixCode

mutual

/-- The value holds the alternative of the type, and its lengths fit their fields. -/
def NbtValue.WellTyped (type : NbtType) : NbtValue → Prop
  | .i8 _ => type = .byte
  | .i16 _ => type = .short
  | .i32 _ => type = .int
  | .i64 _ => type = .long
  | .f32 _ => type = .float
  | .f64 _ => type = .double
  | .str value => type = .string ∧ value.length < 2 ^ 16
  | .ai8 values => type = .byteArray ∧ values.length < 2 ^ 31
  | .ai32 values => type = .intArray ∧ values.length < 2 ^ 31
  | .ai64 values => type = .longArray ∧ values.length < 2 ^ 31
  | .list elementType values =>
    type = .list ∧ values.length < 2 ^ 31 ∧ WellTypedValues elementType values
  | .compound tags => type = .compound ∧ WellTypedTags tags

/-- All elements of a list are of its type. -/
def WellTypedValues (type : NbtType) : List NbtValue → Prop
  | [] => True
  | value :: values => value.WellTyped type ∧ WellTypedValues type values

def WellTypedTags : List Nbt → Prop
  | [] => True
  | tag :: tags => tag.WellTyped ∧ WellTypedTags tags

def Nbt.WellTyped : Nbt → Prop
  | .mk type name value => name.length < 2 ^ 16 ∧ value.WellTyped type

end

theorem wellTypedValues_iff {type : NbtType} {values : List NbtValue} :
    WellTypedValues type values ↔ ∀ value ∈ values, value.WellTyped type := by
  induction values with
  | nil => simp [WellTypedValues]
  | cons value values ih => simp [WellTypedValues, ih]

theorem wellTypedTags_iff {tags : List Nbt} :
    WellTypedTags tags ↔ ∀ tag ∈ tags, tag.WellTyped := by
  induction tags with
  | nil => simp [WellTypedTags]
  | cons tag tags ih => simp [WellTypedTags, ih]

theorem serializeNbtValues_eq (type : NbtType) (values : List NbtValue) :
    serializeNbtValues type values = values.flatMap (serializeNbtValue type) := by
  induction values with
  | nil => rfl
  | cons value values ih => rw [serializeNbtValues, ih, List.flatMap_cons]

theorem serializeNbts_eq (tags : List Nbt) : serializeNbts tags = tags.flatMap serializeNbt := by
  induction tags with
  | nil => rfl
  | cons tag tags ih => rw [serializeNbts, ih, List.flatMap_cons]

/-- The one alternative that the values of a type have. -/
theorem NbtValue.WellTyped.form {type : NbtType} {value : NbtValue} :
    value.WellTyped type → match type with
    | .byte => ∃ v, value = .i8 v
    | .short => ∃ v, value = .i16 v
    | .int => ∃ v, value = .i32 v
    | .long => ∃ v, value = .i64 v
    | .float => ∃ v, value = .f32 v
    | .double => ∃ v, value = .f64 v
    | .string => ∃ str : Bytes, str.length < 2 ^ 16 ∧ value = .str str
    | .byteArray => ∃ vs : Bytes, vs.length < 2 ^ 31 ∧ value = .ai8 vs
    | .intArray => ∃ vs : List (BitVec 32), vs.length < 2 ^ 31 ∧ value = .ai32 vs
    | .longArray => ∃ vs : List (BitVec 64), vs.length < 2 ^ 31 ∧ value = .ai64 vs
    | .list => ∃ elementType values, values.length < 2 ^ 31 ∧
      (∀ element ∈ values, element.WellTyped elementType) ∧ value = .list elementType values
    | .compound => ∃ tags, (∀ tag ∈ tags, tag.WellTyped) ∧ value = .compound tags := by
  intro h
  cases value with
  | list | compound | str | ai8 | ai32 | ai64 =>
    obtain ⟨rfl, h⟩ := h
    simpa [wellTypedValues_iff, wellTypedTags_iff] using h
  | _ =>
    cases h
    exact ⟨_, rfl⟩

/-! ## Tags -/

theorem NbtType.value_injective {t t' : NbtType} (h : t.value = t'.value) : t = t' := by
  revert h
  cases t <;> cases t' <;> decide

theorem NbtType.value_ne_zero (t : NbtType) : t.value ≠ 0#8 := by
  cases t <;> decide

theorem unique_nbtType (type : NbtType) :
    Unique Any (fun t : NbtType => serializeInt t.value) type :=
  (unique_int (by decide) _).comap (fun _ _ => trivial) fun _ _ h => NbtType.value_injective h

/-- A tag does not start like the end mark. -/
theorem serializeNbt_ne_end (tag : Nbt) (r s : Bytes) :
    serializeNbt tag ++ r ≠ serializeInt 0#8 ++ s := by
  obtain ⟨type, name, value⟩ := tag
  intro he
  rw [serializeNbt, List.append_assoc, List.append_assoc, List.append_assoc] at he
  exact type.value_ne_zero (unique_int (by decide) type.value 0#8 trivial _ _ he).1

/-! ## Values and trees -/

/-- A value that is an array of scalars. -/
theorem unique_array {w : Nat} {type : NbtType} {f : List (BitVec w) → NbtValue}
    (hw : w = 8 * (w / 8))
    (hS : ∀ b : NbtValue, b.WellTyped type → ∃ vs, vs.length < 2 ^ 31 ∧ b = f vs)
    (henc : ∀ vs, serializeNbtValue type (f vs) =
      serializeInt (spanSize vs) ++ vs.flatMap serializeInt)
    {vs : List (BitVec w)} (h : vs.length < 2 ^ 31) :
    Unique (NbtValue.WellTyped type) (serializeNbtValue type) (f vs) :=
  (Unique.counted (unique_count (by decide) (by decide) h) fun v _ => unique_int hw v).image
    (fun b hb => (hS b hb).imp fun _ h => ⟨⟨h.1, fun _ _ => trivial⟩, h.2⟩) henc

/-- A list: its type, the number of its elements, and the elements without their types. -/
theorem unique_nbtList {type : NbtType} {values : List NbtValue} (hlen : values.length < 2 ^ 31)
    (h : ∀ value ∈ values, Unique (NbtValue.WellTyped type) (serializeNbtValue type) value) :
    Unique (NbtValue.WellTyped .list) (serializeNbtValue .list) (.list type values) := by
  intro b hb r s he
  obtain ⟨type', values', hlen', hvalues', rfl⟩ := hb.form
  simp only [serializeNbtValue, if_true, List.append_assoc, serializeNbtValues_eq] at he
  obtain ⟨rfl, he'⟩ := unique_nbtType type type' trivial _ _ he
  obtain ⟨rfl, hrs⟩ := Unique.counted (unique_count (w := 32) (by decide) (by decide) hlen) h
    values' ⟨hlen', hvalues'⟩ r s (by simpa [spanSize] using he')
  exact ⟨rfl, hrs⟩

/-- A tag: its type, its name and its value. -/
theorem unique_nbtTag {type : NbtType} {name : Bytes} {value : NbtValue}
    (hname : name.length < 2 ^ 16)
    (h : Unique (NbtValue.WellTyped type) (serializeNbtValue type) value) :
    Unique Nbt.WellTyped serializeNbt (.mk type name value) := by
  rintro ⟨type', name', value'⟩ ⟨hname', hvalue'⟩ r s he
  simp only [serializeNbt, serializeBytes, List.append_assoc] at he
  obtain ⟨rfl, htype⟩ := unique_nbtType type type' trivial _ _ he
  obtain ⟨rfl, hrest⟩ := Unique.sized (unique_count (w := 16) (by decide) (by decide) hname) name'
    hname' _ _ (by simpa using htype)
  obtain ⟨rfl, hrs⟩ := h value' hvalue' r s hrest
  exact ⟨rfl, hrs⟩

mutual

theorem unique_nbtValue (type : NbtType) : (value : NbtValue) → value.WellTyped type →
    Unique (NbtValue.WellTyped type) (serializeNbtValue type) value
  | .i8 value, h => by
    cases h
    exact unique_alternative (unique_int (by decide) value) (fun _ hb => hb.form)
      fun _ => by simp [serializeNbtValue]
  | .i16 value, h => by
    cases h
    exact unique_alternative (unique_int (by decide) value) (fun _ hb => hb.form)
      fun _ => by simp [serializeNbtValue]
  | .i32 value, h => by
    cases h
    exact unique_alternative (unique_int (by decide) value) (fun _ hb => hb.form)
      fun _ => by simp [serializeNbtValue]
  | .i64 value, h => by
    cases h
    exact unique_alternative (unique_int (by decide) value) (fun _ hb => hb.form)
      fun _ => by simp [serializeNbtValue]
  | .f32 value, h => by
    cases h
    exact unique_alternative (unique_int (by decide) value) (fun _ hb => hb.form)
      fun _ => by simp [serializeNbtValue, serializeFloat]
  | .f64 value, h => by
    cases h
    exact unique_alternative (unique_int (by decide) value) (fun _ hb => hb.form)
      fun _ => by simp [serializeNbtValue, serializeFloat]
  | .str value, h => by
    obtain ⟨rfl, h⟩ := h
    exact (Unique.sized (unique_count (w := 16) (by decide) (by decide) h)).image
      (fun _ hb => hb.form) (fun _ => by simp [serializeNbtValue, serializeBytes])
  | .ai8 values, h => by
    obtain ⟨rfl, h⟩ := h
    exact (Unique.sized (unique_count (w := 32) (by decide) (by decide) h)).image
      (fun _ hb => hb.form) (fun _ => by simp [serializeNbtValue, serializeBytes, spanSize])
  | .ai32 values, h => by
    obtain ⟨rfl, h⟩ := h
    exact unique_array (by decide) (fun _ hb => hb.form) (fun _ => by simp [serializeNbtValue]) h
  | .ai64 values, h => by
    obtain ⟨rfl, h⟩ := h
    exact unique_array (by decide) (fun _ hb => hb.form) (fun _ => by simp [serializeNbtValue]) h
  | .list elementType values, h => by
    obtain ⟨rfl, hlen, hvalues⟩ := h
    have hunique := unique_nbtValues elementType values hvalues
    exact unique_nbtList hlen hunique
  | .compound tags, h => by
    obtain ⟨rfl, htags⟩ := h
    have hunique := unique_nbts tags htags
    exact (Unique.terminated hunique (wellTypedTags_iff.mp htags)
        fun tag _ r s => serializeNbt_ne_end tag r s).image
      (fun _ hb => hb.form) (fun _ => by simp [serializeNbtValue, serializeNbts_eq])

/-- Every element of a list, by itself. -/
theorem unique_nbtValues (type : NbtType) : (values : List NbtValue) → WellTypedValues type values →
    ∀ value ∈ values, Unique (NbtValue.WellTyped type) (serializeNbtValue type) value
  | [], _ => fun _ h => nomatch h
  | value :: values, h =>
    List.forall_mem_cons.mpr ⟨unique_nbtValue type value h.1, unique_nbtValues type values h.2⟩

/-- Every tag of a compound, by itself. -/
theorem unique_nbts : (tags : List Nbt) → WellTypedTags tags →
    ∀ tag ∈ tags, Unique Nbt.WellTyped serializeNbt tag
  | [], _ => fun _ h => nomatch h
  | tag :: tags, h => List.forall_mem_cons.mpr ⟨unique_nbt tag h.1, unique_nbts tags h.2⟩

theorem unique_nbt : (tag : Nbt) → tag.WellTyped → Unique Nbt.WellTyped serializeNbt tag
  | .mk type name value, h => by
    obtain ⟨hname, hvalue⟩ := h
    exact unique_nbtTag hname (unique_nbtValue type value hvalue)

end

/-- **NBT is uniquely decodable**, and tells where it ends. -/
theorem nbt_unique (t₁ t₂ : Nbt) (h₁ : t₁.WellTyped) (h₂ : t₂.WellTyped) (r₁ r₂ : Bytes)
    (h : serializeNbt t₁ ++ r₁ = serializeNbt t₂ ++ r₂) : t₁ = t₂ ∧ r₁ = r₂ :=
  unique_nbt t₁ h₁ t₂ h₂ r₁ r₂ h

/-- A compound with a list of two bytes and an empty compound. -/
def nestedNbt : Nbt :=
  .mk .compound [0x61] (.compound
    [.mk .list [0x62] (.list .byte [.i8 1, .i8 2]), .mk .compound [] (.compound [])])

theorem nbt_unique_nested : nestedNbt = nestedNbt ∧ [0x00#8] = [0x00#8] :=
  have h : nestedNbt.WellTyped := by
    simp [nestedNbt, Nbt.WellTyped, NbtValue.WellTyped, WellTypedTags, WellTypedValues]
  nbt_unique nestedNbt nestedNbt h h [0x00] [0x00] rfl

end Vitamine
