import Vitamine.Proxyd.Outgoing

/-!
# How long the payloads get (`proxyd/packets.hpp`, `proxyd/serialize.hpp`)

The length of a frame is a varint of 32 bits, and nothing in the source keeps a payload from being
longer than that. Here is how long it is at most, for each kind of field and for each packet.

* `FieldType.maxLength`, `maxLengths`: the bound of a field and of a list of fields.
* `ClientboundPacket.length_payload_le`: the payload of a packet whose fields fit is within it.
* `deliverable_of_maxLength`: a packet whose fields fit is deliverable if the bound leaves room.
-/

namespace Vitamine

open Wire PrefixCode

/-! ## Fields -/

/-- The most that an entry of the metadata takes: index, type and value. -/
def METADATA_ENTRY_MAX_LENGTH : Nat := 1 + VARINT32_MAX_LENGTH + VARINT32_MAX_LENGTH

/-- The most bytes that the encoder of a field writes for a value. -/
def FieldType.maxLength : (type : FieldType) → type.Val → Nat
  | .bool, _ => 1
  | .int bits, _ => bits / 8
  | .uint bits, _ => bits / 8
  | .float bits, _ => bits / 8
  | .varint, _ => VARINT32_MAX_LENGTH
  | .string, value => VARINT32_MAX_LENGTH + List.length value
  | .implicitTailbytes, value => List.length value
  | .nbt, value => (serializeNbt value).length
  | .uuid, _ => 16
  | .varbytes, value => VARINT32_MAX_LENGTH + List.length value
  | .entityMetadata, value => METADATA_ENTRY_MAX_LENGTH * List.length value + 1
  | .array _ element, values => VARINT32_MAX_LENGTH + (List.map element.maxLength values).sum

/-- The most bytes that the fields of a packet take. -/
def maxLengths : (fields : List Field) → Values fields → Nat
  | [], _ => 0
  | field :: fields, (value, values) => field.2.maxLength value + maxLengths fields values

theorem length_serializeVarInt_le (v : BitVec 32) :
    (serializeVarInt v).length ≤ VARINT32_MAX_LENGTH := length_encodeVarInt32_le v

theorem length_serializeInt {w : Nat} (v : BitVec w) : (serializeInt v).length = w / 8 :=
  length_toBigEndian ..

theorem length_serializeBool (value : Bool) : (serializeBool value).length = 1 :=
  length_serializeInt _

theorem length_serializeUuid (uuid : Uuid) : (serializeUuid uuid).length = 16 := by
  rw [serializeUuid, List.length_append, length_serializeInt, length_serializeInt]

theorem length_serializeString_le (str : Bytes) :
    (serializeString str).length ≤ VARINT32_MAX_LENGTH + str.length := by
  rw [serializeString, List.length_append]
  exact Nat.add_le_add_right (length_serializeVarInt_le _) _

/-- Pieces that are each within their bound. -/
theorem length_flatMap_le {α : Type} {as : List α} {f : α → Bytes} {g : α → Nat}
    (h : ∀ a ∈ as, (f a).length ≤ g a) : (as.flatMap f).length ≤ (as.map g).sum := by
  rw [List.length_flatMap]
  exact List.sum_le_sum h

theorem length_metadataValue_le {type : EntityMetadataType} {value : EntityMetadataValue}
    (h : type.Holds value) :
    (written (serializeEntityMetadataValue type) value).length ≤ VARINT32_MAX_LENGTH := by
  have hform := h.form
  cases type with
  | byte =>
    obtain ⟨v, rfl⟩ := hform
    exact (length_serializeInt v).trans_le (by decide)
  | varint =>
    obtain ⟨v, rfl⟩ := hform
    exact length_serializeVarInt_le v
  | float =>
    obtain ⟨v, rfl⟩ := hform
    exact (length_serializeInt v).trans_le (by decide)
  | bool =>
    obtain ⟨v, rfl⟩ := hform
    exact (length_serializeBool v).trans_le (by decide)
  | pose =>
    obtain ⟨v, rfl⟩ := hform
    exact length_serializeVarInt_le v.value
  | _ => exact hform.elim

theorem length_metadata_le {metadata : List EntityMetadata} (h : MetadataSupported metadata) :
    (written serializeEntityMetadata metadata).length ≤
      METADATA_ENTRY_MAX_LENGTH * metadata.length + 1 := by
  have hentry : ∀ entry ∈ metadata, (writtenEntry entry).length ≤ METADATA_ENTRY_MAX_LENGTH := by
    intro entry he
    have hvalue := length_metadataValue_le (h entry he).holds
    have htype := length_serializeVarInt_le entry.type.value
    rw [writtenEntry, List.length_append, List.length_append, length_serializeInt,
      METADATA_ENTRY_MAX_LENGTH]
    omega
  have hentries := length_flatMap_le hentry
  rw [List.map_const', List.sum_replicate, smul_eq_mul, Nat.mul_comm] at hentries
  rw [written, serializeEntityMetadata_eq h, Option.getD_some, List.length_append,
    length_serializeInt]
  omega

theorem written_array {name : String} {element : FieldType} {values : List element.Val}
    (h : ∀ value ∈ values, element.Sendable value) :
    written (serializeField (.array name element)) values =
      serializeVarInt (spanSize values) ++ values.flatMap (written (serializeField element)) := by
  show Option.getD ((List.mapM (serializeField element) values).bind _) [] = _
  rw [mapM_eq_some fun v hm => isSome_serializeField_of_sendable (h v hm), List.flatMap_def]
  rfl

/-- A field that its encoder takes is within its bound. -/
theorem length_field_le {type : FieldType} {value : type.Val} (h : type.Sendable value) :
    (written (serializeField type) value).length ≤ type.maxLength value := by
  induction type with
  | bool => exact (length_serializeBool value).le
  | int bits => exact (length_serializeInt value).le
  | uint bits => exact (length_serializeInt value).le
  | float bits => exact (length_serializeInt value).le
  | varint => exact length_serializeVarInt_le value
  | string => exact length_serializeString_le value
  | implicitTailbytes => exact le_rfl
  | nbt => exact le_rfl
  | uuid => exact (length_serializeUuid value).le
  | varbytes => exact length_serializeString_le value
  | entityMetadata => exact length_metadata_le h
  | array name element ih =>
    have hcount := length_serializeVarInt_le (spanSize value)
    have hvalues := length_flatMap_le fun v hv => ih (h.2 v hv)
    rw [written_array h.2, List.length_append, FieldType.maxLength]
    exact Nat.add_le_add hcount hvalues

theorem length_fields_le {fields : List Field} {values : Values fields}
    (h : SendableValues fields values) :
    (written (serializeFields fields) values).length ≤ maxLengths fields values := by
  induction fields with
  | nil => exact le_rfl
  | cons field fields ih =>
    rw [written, serializeFields_cons h.1 (isSome_serializeFields_of_sendable h.2),
      Option.getD_some, List.length_append]
    exact Nat.add_le_add (length_field_le h.1) (ih h.2)

/-! ## The player list -/

def AddPlayer.Property.maxLength (prop : AddPlayer.Property) : Nat :=
  (VARINT32_MAX_LENGTH + prop.name.length) + (VARINT32_MAX_LENGTH + prop.value.length) +
    (1 + (VARINT32_MAX_LENGTH + prop.signature.length))

def AddPlayer.maxLength (update : AddPlayer) : Nat :=
  (VARINT32_MAX_LENGTH + update.name.length) + VARINT32_MAX_LENGTH +
    (update.properties.map AddPlayer.Property.maxLength).sum + VARINT32_MAX_LENGTH +
      VARINT32_MAX_LENGTH + (1 + (VARINT32_MAX_LENGTH + update.displayName.length))

theorem length_serializeFlagged_le (flag : Bool) (str : Bytes) :
    (serializeFlagged flag str).length ≤ 1 + (VARINT32_MAX_LENGTH + str.length) := by
  have hstr := length_serializeString_le str
  rw [serializeFlagged, List.length_append, length_serializeBool]
  split
  · exact Nat.add_le_add_left hstr 1
  · exact Nat.add_le_add_left (Nat.zero_le _) 1

theorem AddPlayer.Property.length_le (prop : AddPlayer.Property) :
    prop.serialize.length ≤ prop.maxLength := by
  have hname := length_serializeString_le prop.name
  have hvalue := length_serializeString_le prop.value
  have hsignature := length_serializeFlagged_le prop.isSigned prop.signature
  rw [AddPlayer.Property.serialize, AddPlayer.Property.maxLength, List.length_append,
    List.length_append]
  omega

theorem AddPlayer.length_le (update : AddPlayer) : update.serialize.length ≤ update.maxLength := by
  have hname := length_serializeString_le update.name
  have hcount := length_serializeVarInt_le (spanSize update.properties)
  have hproperties := length_flatMap_le fun prop (_ : prop ∈ update.properties) => prop.length_le
  have hgameMode := length_serializeVarInt_le update.gameMode
  have hping := length_serializeVarInt_le update.ping
  have hdisplayName := length_serializeFlagged_le update.hasDisplayName update.displayName
  simp only [AddPlayer.serialize, AddPlayer.maxLength, List.length_append]
  omega

namespace PacketPlayerInfo

def Update.maxLength : Update → Nat
  | .addPlayer update => update.maxLength
  | .updateGameMode _ => VARINT32_MAX_LENGTH
  | .updateLatency _ => VARINT32_MAX_LENGTH
  | .updateDisplayName _ displayName => 1 + (VARINT32_MAX_LENGTH + displayName.length)
  | .removePlayer => 0

def maxLength (packet : PacketPlayerInfo) : Nat :=
  VARINT32_MAX_LENGTH + (VARINT32_MAX_LENGTH +
    (packet.entries.map fun entry => 16 + entry.update.maxLength).sum)

theorem Update.length_le {action : Action} {update : Update} (h : update.Fits action) :
    (written (serializeUpdate action) update).length ≤ update.maxLength := by
  cases update with
  | addPlayer update =>
    obtain ⟨rfl, -⟩ := h
    exact update.length_le
  | updateGameMode gameMode =>
    obtain rfl : action = .updateGamemode := h
    exact length_serializeVarInt_le gameMode
  | updateLatency ping =>
    obtain rfl : action = .updateLatency := h
    exact length_serializeVarInt_le ping
  | updateDisplayName hasDisplayName displayName =>
    obtain ⟨rfl, -⟩ := h
    exact length_serializeFlagged_le hasDisplayName displayName
  | removePlayer =>
    obtain rfl : action = .removePlayer := h
    exact le_rfl

theorem length_payload_le {packet : PacketPlayerInfo} (h : packet.Fits)
    (hmeaning : packet.meaning = packet.entries) :
    (written serializePacketPayload packet).length ≤ packet.maxLength := by
  have hentries := @length_flatMap_le _ packet.entries
    (written (serializeEntry packet.action)) (fun entry => 16 + entry.update.maxLength)
    fun entry he => by
      rw [written_serializeEntry (h.update entry he), List.length_append, length_serializeUuid]
      exact Nat.add_le_add_left (Update.length_le (h.update entry he)) 16
  rw [written, serializePacketPayload_eq h, Option.getD_some, hmeaning, List.length_append,
    List.length_append]
  exact Nat.add_le_add (length_serializeVarInt_le _)
    (Nat.add_le_add (length_serializeVarInt_le _) hentries)

end PacketPlayerInfo

/-! ## Packets -/

def WirePacket.maxLength : WirePacket → Nat
  | .fields P packet => maxLengths P.fields packet
  | .playerInfo packet => packet.maxLength

namespace ClientboundPacket

/-- The payload of a packet whose fields fit is within the bound of its fields. -/
theorem length_payload_le {k : ClientboundPacket} (h : k.Fits) :
    k.payload.length ≤ k.wire.maxLength := by
  have hsendable := sendable_wire h
  rw [payload]
  generalize k.wire = packet at hsendable
  cases packet with
  | fields P packet => exact length_fields_le hsendable.2
  | playerInfo packet => exact PacketPlayerInfo.length_payload_le hsendable.1 hsendable.2

theorem deliverable_of_maxLength {k : ClientboundPacket} (h : k.Fits)
    (hlength : k.wire.maxLength + VARINT32_MAX_LENGTH < 2 ^ 31) : k.Deliverable :=
  ⟨h, (Nat.add_le_add_right (length_payload_le h) _).trans_lt hlength⟩

end ClientboundPacket

end Vitamine
