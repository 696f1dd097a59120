import Vitamine.Proxyd.NbtCode
import Vitamine.Proxyd.Packets

/-!
# Unique decoding of payloads (`proxyd/packets.hpp`, `proxyd/entitymetadata.hpp`)

What the expanded encoder of a packet writes determines the packet and where it ends, for fields
that end by themselves; NBT and entity metadata, which the source cannot decode, are two of them.

* `unique_metadata`: the list has no count. Between entries the next byte is an index or the end
  mark, and no index is the end mark; a byte `0xff` inside a value is not met there.
* `payload_unique`: a packet of delimited fields.
* `metadata_packets_unique`: the two packets with entity metadata.
-/

namespace Vitamine

open Wire PrefixCode

/-! ## Entity metadata -/

/-- A supported type, and the alternative that it names. -/
def EntityMetadataType.Holds : EntityMetadataType → EntityMetadataValue → Prop
  | .byte, .byte _ => True
  | .varint, .varint _ => True
  | .float, .float _ => True
  | .bool, .bool _ => True
  | .pose, .pose _ => True
  | _, _ => False

/-- The index is not the end mark, and the value is one of the type. -/
structure EntityMetadata.Supported (entry : EntityMetadata) : Prop where
  index : entry.index ≠ 0xff
  holds : entry.type.Holds entry.value

def MetadataSupported (metadata : List EntityMetadata) : Prop :=
  ∀ entry ∈ metadata, entry.Supported

theorem EntityMetadataType.value_injective {t t' : EntityMetadataType} (h : t.value = t'.value) :
    t = t' := by
  revert h
  cases t <;> cases t' <;> decide

theorem EntityMetadataPose.value_injective {p p' : EntityMetadataPose} (h : p.value = p'.value) :
    p = p' := by
  revert h
  cases p <;> cases p' <;> decide

theorem EntityMetadataType.Holds.form {type : EntityMetadataType}
    {value : EntityMetadataValue} : type.Holds value → match type with
    | .byte => ∃ v, value = .byte v
    | .varint => ∃ v, value = .varint v
    | .float => ∃ v, value = .float v
    | .bool => ∃ v, value = .bool v
    | .pose => ∃ v, value = .pose v
    | _ => False := by
  intro h
  cases type <;> cases value <;> first | exact ⟨_, rfl⟩ | exact h.elim

theorem isSome_serializeEntityMetadataValue {type : EntityMetadataType}
    {value : EntityMetadataValue} (h : type.Holds value) :
    (serializeEntityMetadataValue type value).isSome = true := by
  cases type <;> cases value <;> first | rfl | exact h.elim

theorem unique_pose (pose : EntityMetadataPose) :
    Unique Any (fun pose : EntityMetadataPose => serializeVarInt pose.value) pose :=
  (unique_varInt _).comap (fun _ _ => trivial) fun _ _ h => EntityMetadataPose.value_injective h

/-- For each type, the value is unique among those of the type. -/
theorem unique_metadataValue {type : EntityMetadataType} {value : EntityMetadataValue}
    (h : type.Holds value) :
    Unique type.Holds (written (serializeEntityMetadataValue type)) value := by
  have hform := h.form
  cases type with
  | byte =>
    obtain ⟨v, rfl⟩ := hform
    exact unique_alternative (unique_int (by decide) v) (fun _ hb => hb.form) fun _ => rfl
  | varint =>
    obtain ⟨v, rfl⟩ := hform
    exact unique_alternative (unique_varInt v) (fun _ hb => hb.form) fun _ => rfl
  | float =>
    obtain ⟨v, rfl⟩ := hform
    exact unique_alternative (unique_int (by decide) v) (fun _ hb => hb.form) fun _ => rfl
  | bool =>
    obtain ⟨v, rfl⟩ := hform
    exact unique_alternative (unique_bool v) (fun _ hb => hb.form) fun _ => rfl
  | pose =>
    obtain ⟨v, rfl⟩ := hform
    exact unique_alternative (unique_pose v) (fun _ hb => hb.form) fun _ => rfl
  | _ => exact hform.elim

/-- What is written for an entry. -/
def writtenEntry (entry : EntityMetadata) : Buffer :=
  serializeInt entry.index ++ serializeVarInt entry.type.value ++
    written (serializeEntityMetadataValue entry.type) entry.value

theorem unique_entityMetadata {entry : EntityMetadata} (h : entry.Supported) :
    Unique EntityMetadata.Supported writtenEntry entry := by
  obtain ⟨index, type, value⟩ := entry
  rintro ⟨index', type', value'⟩ h' r s he
  simp only [writtenEntry, List.append_assoc] at he
  obtain ⟨rfl, htype⟩ := unique_int (by decide) index index' trivial _ _ he
  obtain ⟨hvalue, hrest⟩ := unique_varInt type.value type'.value trivial _ _ htype
  cases EntityMetadataType.value_injective hvalue
  obtain ⟨rfl, hrs⟩ := unique_metadataValue h.holds value' h'.holds r s hrest
  exact ⟨rfl, hrs⟩

theorem writtenEntry_ne_end (entry : EntityMetadata) (h : entry.Supported) (r s : Bytes) :
    writtenEntry entry ++ r ≠ serializeInt 0xff#8 ++ s := by
  intro he
  rw [writtenEntry, List.append_assoc, List.append_assoc] at he
  exact h.index (unique_int (by decide) entry.index 0xff trivial _ _ he).1

/-- The entries of a supported list, and the end mark. -/
theorem serializeEntityMetadata_eq {metadata : List EntityMetadata} (h : MetadataSupported metadata) :
    serializeEntityMetadata metadata =
      some (metadata.flatMap writtenEntry ++ serializeInt 0xff#8) := by
  induction metadata with
  | nil => rfl
  | cons entry metadata ih =>
    have hvalue := eq_some_written
      (isSome_serializeEntityMetadataValue (h entry List.mem_cons_self).holds)
    rw [serializeEntityMetadata, hvalue, ih fun e he => h e (List.mem_cons_of_mem _ he)]
    simp [writtenEntry]

/-- The list ends at the first index that is the end mark. -/
theorem unique_metadata {metadata : List EntityMetadata} (h : MetadataSupported metadata) :
    Unique MetadataSupported (written serializeEntityMetadata) metadata := by
  have hlist : Unique MetadataSupported
      (fun metadata => metadata.flatMap writtenEntry ++ serializeInt 0xff#8) metadata :=
    .terminated (fun entry he => unique_entityMetadata (h entry he)) h writtenEntry_ne_end
  intro metadata' h' r s he
  rw [written, written, serializeEntityMetadata_eq h, serializeEntityMetadata_eq h'] at he
  exact hlist metadata' h' r s he

/-! ## Fields -/

/-- A list of values of `S`, with a count that fits a varint. -/
def Countable {α : Type} (S : α → Prop) (values : List α) : Prop :=
  values.length < 2 ^ 31 ∧ ∀ value ∈ values, S value

/-- A value whose lengths fit their fields and that the encoder does not throw at. -/
def FieldType.Sendable : (type : FieldType) → type.Val → Prop
  | .string, value => List.length value < 2 ^ 31
  | .varbytes, value => List.length value < 2 ^ 31
  | .nbt, value => Nbt.WellTyped value
  | .entityMetadata, value => MetadataSupported value
  | .array _ element, values => Countable element.Sendable values
  | _, _ => True

theorem isSome_serializeField_of_sendable {type : FieldType} {value : type.Val}
    (h : type.Sendable value) : (serializeField type value).isSome = true := by
  induction type with
  | entityMetadata =>
    show (serializeEntityMetadata value).isSome = true
    rw [serializeEntityMetadata_eq h]
    rfl
  | array name element ih =>
    show (((List.mapM (serializeField element) value).bind _)).isSome = true
    rw [mapM_eq_some fun v hv => ih (h.2 v hv)]
    rfl
  | _ => rfl

/-- Every delimited field is uniquely decodable. -/
theorem unique_field {type : FieldType} (hd : type.Delimited) {value : type.Val}
    (h : type.Sendable value) : Unique type.Sendable (written (serializeField type)) value := by
  induction type with
  | bool => exact unique_bool value
  | int bits => exact unique_int hd.1 value
  | uint bits => exact unique_int hd.1 value
  | float bits => exact unique_int hd.1 value
  | varint => exact unique_varInt value
  | string => exact unique_string h
  | implicitTailbytes => exact hd.elim
  | nbt => exact unique_nbt value h
  | uuid => exact unique_uuid value
  | varbytes => exact Unique.sized (unique_varCount h)
  | entityMetadata => exact unique_metadata h
  | array name element ih =>
    intro value' h' r s he
    have hwritten : ∀ values : List element.Val, Countable element.Sendable values →
        written (serializeField (.array name element)) values =
          serializeVarInt (BitVec.ofNat 32 values.length) ++
            values.flatMap (written (serializeField element)) := by
      intro values hv
      show Option.getD ((List.mapM (serializeField element) values).bind _) [] = _
      rw [mapM_eq_some fun v hm => isSome_serializeField_of_sendable (hv.2 v hm), List.flatMap_def]
      rfl
    rw [hwritten value h, hwritten value' h'] at he
    exact Unique.counted (unique_varCount h.1) (fun v hv => ih hd (h.2 v hv)) value' h' r s he

/-! ## Payloads -/

/-- All values of a packet are sendable. -/
def SendableValues : (fields : List Field) → Values fields → Prop
  | [], _ => True
  | field :: fields, (value, values) => field.2.Sendable value ∧ SendableValues fields values

theorem serializeFields_cons {field : Field} {fields : List Field}
    {values : Values (field :: fields)} (h : field.2.Sendable values.1)
    (hs : (serializeFields fields values.2).isSome = true) :
    serializeFields (field :: fields) values =
      some (written (serializeField field.2) values.1 ++
        written (serializeFields fields) values.2) := by
  obtain ⟨value, values⟩ := values
  show ((serializeField field.2 value).bind fun buffer =>
    (serializeFields fields values).bind fun rest => some (buffer ++ rest)) = _
  rw [eq_some_written (isSome_serializeField_of_sendable h), eq_some_written hs]
  rfl

theorem isSome_serializeFields_of_sendable {fields : List Field} {values : Values fields}
    (h : SendableValues fields values) : (serializeFields fields values).isSome = true := by
  induction fields with
  | nil => rfl
  | cons field fields ih =>
    rw [serializeFields_cons h.1 (ih h.2)]
    rfl

/-- Delimited fields, one after another. -/
theorem unique_fields {fields : List Field} (hd : ∀ field ∈ fields, field.2.Delimited)
    {values : Values fields} (h : SendableValues fields values) :
    Unique (SendableValues fields) (written (serializeFields fields)) values := by
  induction fields with
  | nil =>
    intro values' _ r s he
    exact ⟨rfl, he⟩
  | cons field fields ih =>
    have hpair := (unique_field (hd field List.mem_cons_self) h.1).append
      (ih (fun f hf => hd f (List.mem_cons_of_mem _ hf)) h.2)
    intro values' h' r s he
    rw [written, written, serializeFields_cons h.1 (isSome_serializeFields_of_sendable h.2),
      serializeFields_cons h'.1 (isSome_serializeFields_of_sendable h'.2)] at he
    exact hpair values' h' r s he

/-- The payloads of the two packets are written, and with anything after them they are the same only
if the packets and what follows are. -/
def PayloadsUnique (P : PacketDef) (p₁ p₂ : P.Packet) : Prop :=
  ∃ e₁ e₂, serializePacketPayload P p₁ = some e₁ ∧ serializePacketPayload P p₂ = some e₂ ∧
    ∀ r₁ r₂, e₁ ++ r₁ = e₂ ++ r₂ → p₁ = p₂ ∧ r₁ = r₂

/-- The payload of a packet of delimited fields is uniquely decodable. -/
theorem payload_unique {P : PacketDef} (hd : ∀ field ∈ P.fields, field.2.Delimited)
    {p₁ p₂ : P.Packet} (h₁ : SendableValues P.fields p₁) (h₂ : SendableValues P.fields p₂) :
    PayloadsUnique P p₁ p₂ :=
  ⟨_, _, eq_some_written (isSome_serializeFields_of_sendable h₁),
    eq_some_written (isSome_serializeFields_of_sendable h₂), unique_fields hd h₁ p₂ h₂⟩

/-- The last field of `SpawnPlayer`. -/
def spawnMetadata (packet : packetSpawnPlayer.Packet) : List EntityMetadata :=
  packet.2.2.2.2.2.2.2.1

/-- The second field of `EntityMetadata`. -/
def updateMetadata (packet : packetEntityMetadata.Packet) : List EntityMetadata := packet.2.1

/-- **The packets with entity metadata are uniquely decodable.** -/
theorem metadata_packets_unique :
    (∀ p₁ p₂ : packetSpawnPlayer.Packet, MetadataSupported (spawnMetadata p₁) →
      MetadataSupported (spawnMetadata p₂) → PayloadsUnique packetSpawnPlayer p₁ p₂) ∧
    ∀ p₁ p₂ : packetEntityMetadata.Packet, MetadataSupported (updateMetadata p₁) →
      MetadataSupported (updateMetadata p₂) → PayloadsUnique packetEntityMetadata p₁ p₂ := by
  have hspawn : ∀ packet : packetSpawnPlayer.Packet, MetadataSupported (spawnMetadata packet) →
      SendableValues packetSpawnPlayer.fields packet := fun _ h =>
    ⟨trivial, trivial, trivial, trivial, trivial, trivial, trivial, h, trivial⟩
  have hupdate : ∀ packet : packetEntityMetadata.Packet,
      MetadataSupported (updateMetadata packet) →
        SendableValues packetEntityMetadata.fields packet := fun _ h => ⟨trivial, h, trivial⟩
  exact ⟨fun p₁ p₂ h₁ h₂ => payload_unique (by decide) (hspawn p₁ h₁) (hspawn p₂ h₂),
    fun p₁ p₂ h₁ h₂ => payload_unique (by decide) (hupdate p₁ h₁) (hupdate p₂ h₂)⟩

/-- The flags and the pose of a player, as the state machine sends them. -/
def updateOf (flags : BitVec 8) (pose : EntityMetadataPose) : packetEntityMetadata.Packet :=
  (1#32, [⟨0, .byte, .byte flags⟩, ⟨6, .pose, .pose pose⟩], ())

theorem metadata_packets_unique_flags :
    PayloadsUnique packetEntityMetadata (updateOf 0x02 .crouching) (updateOf 0xff .standing) := by
  have hupdate : ∀ flags pose, MetadataSupported (updateMetadata (updateOf flags pose)) := by
    intro flags pose
    have hflags : (0 : BitVec 8) ≠ 0xff := by decide
    have hpose : (6 : BitVec 8) ≠ 0xff := by decide
    exact List.forall_mem_cons.mpr ⟨⟨hflags, trivial⟩,
      List.forall_mem_singleton.mpr ⟨hpose, trivial⟩⟩
  exact metadata_packets_unique.2 _ _ (hupdate 0x02 .crouching) (hupdate 0xff .standing)

end Vitamine
