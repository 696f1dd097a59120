import Vitamine.Proxyd.EntityMetadata
import Vitamine.Proxyd.Framing
import Vitamine.Proxyd.Nbt

/-!
# Packets (`proxyd/packets.def`, `proxyd/packets.hpp`)

The source declares its packets once, as a list of fields each, and expands the list three times:
into structures, into decoders and into encoders. Here a packet is a `PacketDef`, its values are
tuples of its fields' values, and the two expansions are functions on the list of fields.

* `decodes_field`: on what the encoder writes for a field, the field's decoder gives the value
  back, whatever follows (for every kind of field but the implicit tail, NBT and entity metadata).
* `deserializePacketPayload_serialize`: the same for the payload of a packet.
* `packet_round_trip`: the same through the frame, with the rest of the stream after it.
-/

namespace Vitamine

open Wire

/-- The kinds of fields. Every `VARINT` and every array element of `packets.def` is one field; a
varint has 32 bits. -/
inductive FieldType where
  | bool
  | int (bits : Nat)
  | uint (bits : Nat)
  | float (bits : Nat)
  | varint
  | string
  | implicitTailbytes
  | nbt
  | uuid
  | varbytes
  | entityMetadata
  | array (name : String) (element : FieldType)
  deriving DecidableEq

/-- The type of the member that a field declares; a float is its bit pattern. -/
def FieldType.Val : FieldType → Type
  | .bool => Bool
  | .int bits => BitVec bits
  | .uint bits => BitVec bits
  | .float bits => BitVec bits
  | .varint => BitVec 32
  | .string => Bytes
  | .implicitTailbytes => Bytes
  | .nbt => Nbt
  | .uuid => Uuid
  | .varbytes => Bytes
  | .entityMetadata => List EntityMetadata
  | .array _ element => List element.Val

abbrev Field := String × FieldType

/-- The values of a list of fields, in order. -/
def Values : List Field → Type
  | [] => Unit
  | field :: fields => field.2.Val × Values fields

/-- A packet: its id and its fields. -/
structure PacketDef where
  id : BitVec 32
  fields : List Field
  deriving DecidableEq

/-- The structure that the first expansion declares. -/
abbrev PacketDef.Packet (P : PacketDef) : Type := Values P.fields

/-! ## Serverbound packets -/

def packetHandshake : PacketDef := ⟨0x00,
  [("version", .varint), ("address", .string), ("port", .int 16), ("nextState", .varint)]⟩

def packetLoginStart : PacketDef := ⟨0x00, [("name", .string)]⟩

def packetTeleportConfirm : PacketDef := ⟨0x00, [("teleportId", .varint)]⟩

def packetChatClient : PacketDef := ⟨0x03, [("message", .string)]⟩

def packetClientSettings : PacketDef := ⟨0x05,
  [("locale", .string), ("viewDistance", .int 8), ("chatMode", .varint), ("chatColors", .bool),
   ("displayedSkinParts", .uint 8), ("mainHand", .varint)]⟩

def packetCloseWindowClient : PacketDef := ⟨0x0a, [("windowId", .uint 8)]⟩

def packetPluginMessageClient : PacketDef := ⟨0x0b,
  [("channel", .string), ("data", .implicitTailbytes)]⟩

def packetInteractEntity : PacketDef := ⟨0x0e,
  [("entityId", .varint), ("type", .varint), ("tail", .implicitTailbytes)]⟩

def packetKeepAliveClient : PacketDef := ⟨0x0f, [("keepAliveId", .int 64)]⟩

def packetPlayerPosition : PacketDef := ⟨0x11,
  [("x", .float 64), ("y", .float 64), ("z", .float 64), ("onGround", .bool)]⟩

def packetPlayerPositionRotationClient : PacketDef := ⟨0x12,
  [("x", .float 64), ("y", .float 64), ("z", .float 64), ("yaw", .float 32), ("pitch", .float 32),
   ("onGround", .bool)]⟩

def packetPlayerRotation : PacketDef := ⟨0x13,
  [("yaw", .float 32), ("pitch", .float 32), ("onGround", .bool)]⟩

def packetPlayerMovement : PacketDef := ⟨0x14, [("onGround", .bool)]⟩

def packetPlayerAbilitiesClient : PacketDef := ⟨0x19,
  [("flags", .uint 8), ("flyingSpeed", .float 32), ("walkingSpeed", .float 32)]⟩

def packetPlayerDigging : PacketDef := ⟨0x1a,
  [("status", .varint), ("location", .uint 64), ("face", .int 8)]⟩

def packetEntityAction : PacketDef := ⟨0x1b,
  [("entityId", .varint), ("actionId", .varint), ("jumpBoost", .varint)]⟩

def packetHeldItemChangeClient : PacketDef := ⟨0x23, [("slot", .int 16)]⟩

def packetAnimationClient : PacketDef := ⟨0x2a, [("hand", .varint)]⟩

def packetUseItem : PacketDef := ⟨0x2d, [("hand", .varint)]⟩

/-! ## Clientbound packets -/

def packetDisconnectLogin : PacketDef := ⟨0x00, [("reason", .string)]⟩

def packetLoginSuccess : PacketDef := ⟨0x02, [("uuid", .string), ("username", .string)]⟩

def packetSpawnPlayer : PacketDef := ⟨0x05,
  [("entityId", .varint), ("uuid", .uuid), ("x", .float 64), ("y", .float 64), ("z", .float 64),
   ("yaw", .uint 8), ("pitch", .uint 8), ("metadata", .entityMetadata)]⟩

def packetEntityAnimation : PacketDef := ⟨0x06,
  [("entityId", .varint), ("animationId", .uint 8)]⟩

def packetBlockChange : PacketDef := ⟨0x0b, [("location", .uint 64), ("blockId", .varint)]⟩

def packetChatServer : PacketDef := ⟨0x0e, [("chat", .string), ("position", .int 8)]⟩

def packetPluginMessageServer : PacketDef := ⟨0x18,
  [("channel", .string), ("data", .implicitTailbytes)]⟩

def packetDisconnect : PacketDef := ⟨0x1a, [("reason", .string)]⟩

def packetUnloadChunk : PacketDef := ⟨0x1d, [("chunkX", .int 32), ("chunkZ", .int 32)]⟩

def packetKeepAliveServer : PacketDef := ⟨0x20, [("keepAliveId", .int 64)]⟩

def packetChunkData : PacketDef := ⟨0x21,
  [("x", .int 32), ("z", .int 32), ("fullChunk", .bool), ("primaryBitmask", .varint),
   ("heightmaps", .nbt), ("data", .varbytes), ("blockEntities", .array "entity" .nbt)]⟩

def packetJoinGame : PacketDef := ⟨0x25,
  [("entityId", .int 32), ("gameMode", .uint 8), ("dimension", .int 32), ("maxPlayers", .uint 8),
   ("levelType", .string), ("viewDistance", .varint), ("reducedDebugInfo", .bool)]⟩

def packetEntityMove : PacketDef := ⟨0x28,
  [("entityId", .varint), ("dx", .int 16), ("dy", .int 16), ("dz", .int 16),
   ("onGround", .bool)]⟩

def packetEntityMoveRotation : PacketDef := ⟨0x29,
  [("entityId", .varint), ("dx", .int 16), ("dy", .int 16), ("dz", .int 16), ("yaw", .uint 8),
   ("pitch", .uint 8), ("onGround", .bool)]⟩

def packetEntityRotation : PacketDef := ⟨0x2a,
  [("entityId", .varint), ("yaw", .uint 8), ("pitch", .uint 8), ("onGround", .bool)]⟩

def packetPlayerAbilitiesServer : PacketDef := ⟨0x31,
  [("flags", .uint 8), ("flyingSpeed", .float 32), ("walkingSpeed", .float 32)]⟩

def packetPlayerPositionLookServer : PacketDef := ⟨0x35,
  [("x", .float 64), ("y", .float 64), ("z", .float 64), ("yaw", .float 32), ("pitch", .float 32),
   ("flags", .int 8), ("teleportId", .varint)]⟩

def packetDestroyEntities : PacketDef := ⟨0x37, [("entityIds", .array "entityId" .varint)]⟩

def packetEntityHeadLook : PacketDef := ⟨0x3b, [("entityId", .varint), ("headYaw", .uint 8)]⟩

def packetHeldItemChangeServer : PacketDef := ⟨0x3f, [("slot", .int 8)]⟩

def packetUpdateViewPosition : PacketDef := ⟨0x40, [("chunkX", .varint), ("chunkZ", .varint)]⟩

def packetEntityMetadata : PacketDef := ⟨0x43,
  [("entityId", .varint), ("metadata", .entityMetadata)]⟩

def packetSpawnPosition : PacketDef := ⟨0x4d, [("location", .uint 64)]⟩

def packetEntityTeleport : PacketDef := ⟨0x56,
  [("entityId", .varint), ("x", .float 64), ("y", .float 64), ("z", .float 64), ("yaw", .uint 8),
   ("pitch", .uint 8), ("onGround", .bool)]⟩

/-- `packets.def`, in its order. -/
def packetDefs : List PacketDef :=
  [packetHandshake, packetLoginStart, packetTeleportConfirm, packetChatClient, packetClientSettings,
   packetCloseWindowClient, packetPluginMessageClient, packetInteractEntity, packetKeepAliveClient,
   packetPlayerPosition, packetPlayerPositionRotationClient, packetPlayerRotation,
   packetPlayerMovement, packetPlayerAbilitiesClient, packetPlayerDigging, packetEntityAction,
   packetHeldItemChangeClient, packetAnimationClient, packetUseItem, packetDisconnectLogin,
   packetLoginSuccess, packetSpawnPlayer, packetEntityAnimation, packetBlockChange,
   packetChatServer, packetPluginMessageServer, packetDisconnect, packetUnloadChunk,
   packetKeepAliveServer, packetChunkData, packetJoinGame, packetEntityMove,
   packetEntityMoveRotation, packetEntityRotation, packetPlayerAbilitiesServer,
   packetPlayerPositionLookServer, packetDestroyEntities, packetEntityHeadLook,
   packetHeldItemChangeServer, packetUpdateViewPosition, packetEntityMetadata, packetSpawnPosition,
   packetEntityTeleport]

/-! ## The two expansions -/

/-- The encoder of a field; `none` if it throws. -/
def serializeField : (type : FieldType) → type.Val → Option Buffer
  | .bool, value => some (serializeBool value)
  | .int _, value => some (serializeInt value)
  | .uint _, value => some (serializeInt value)
  | .float _, value => some (serializeFloat value)
  | .varint, value => some (serializeVarInt value)
  | .string, value => some (serializeString value)
  | .implicitTailbytes, value => some (serializeBytes value)
  | .nbt, value => some (serializeNbt value)
  | .uuid, value => some (serializeUuid value)
  | .varbytes, value => some (serializeVarInt (spanSize value) ++ serializeBytes value)
  | .entityMetadata, value => serializeEntityMetadata value
  | .array _ element, values => do
    let buffers ← values.mapM (serializeField element)
    some (serializeVarInt (spanSize values) ++ buffers.flatten)

def serializeFields : (fields : List Field) → Values fields → Option Buffer
  | [], () => some []
  | field :: fields, (value, values) => do
    let buffer ← serializeField field.2 value
    let rest ← serializeFields fields values
    some (buffer ++ rest)

def serializePacketPayload (P : PacketDef) (packet : P.Packet) : Option Buffer :=
  serializeFields P.fields packet

def serializePacket (P : PacketDef) (packet : P.Packet) : Option Buffer :=
  (serializePacketPayload P packet).map (serializeFrame P.id)

/-- The decoder of a field. A negative length of `varbytes` is a huge `UInt`, and a negative count
of an array goes down past zero until it wraps. -/
def deserializeField : (type : FieldType) → Deserializer type.Val
  | .bool => deserializeBool
  | .int bits => deserializeInt bits
  | .uint bits => deserializeInt bits
  | .float bits => deserializeFloat bits
  | .varint => deserializeVarInt
  | .string => deserializeString
  | .implicitTailbytes => deserializeImplicitTailBytes
  | .nbt => throw .runtimeError
  | .uuid => deserializeUuid
  | .varbytes => do
    let length ← deserializeVarInt
    deserializeBytes (length.signExtend 64).toNat
  | .entityMetadata => throw .runtimeError
  | .array _ element => do
    let length ← deserializeVarInt
    times (deserializeField element) length.toNat

def deserializeFields : (fields : List Field) → Deserializer (Values fields)
  | [] => pure ()
  | field :: fields => do
    let value ← deserializeField field.2
    let values ← deserializeFields fields
    pure (value, values)

/-- The packet if the decoder returns true, `none` if it returns false (or throws). -/
def deserializePacketPayload (P : PacketDef) (buffer : Bytes) : Option P.Packet :=
  match deserializeFields P.fields (Cursor.ofList buffer) with
  | .ok packet c => if c.size = 0 then some packet else none
  | .error _ _ => none

/-! ## Round trips -/

/-- A field whose decoder is implemented. -/
def FieldType.Implemented : FieldType → Prop
  | .nbt => False
  | .entityMetadata => False
  | .array _ element => element.Implemented
  | _ => True

/-- A field that ends by itself: integers are whole bytes, and only the implicit tail goes on to
the end of the payload. -/
def FieldType.Delimited : FieldType → Prop
  | .int bits => bits = 8 * (bits / 8) ∧ 0 < bits
  | .uint bits => bits = 8 * (bits / 8) ∧ 0 < bits
  | .float bits => bits = 8 * (bits / 8) ∧ 0 < bits
  | .implicitTailbytes => False
  | .array _ element => element.Delimited
  | _ => True

instance FieldType.decidableImplemented : (type : FieldType) → Decidable type.Implemented
  | .nbt => isFalse id
  | .entityMetadata => isFalse id
  | .array _ element => decidableImplemented element
  | .bool | .int _ | .uint _ | .float _ | .varint | .string | .implicitTailbytes | .uuid
  | .varbytes => isTrue trivial

instance FieldType.decidableDelimited : (type : FieldType) → Decidable type.Delimited
  | .int bits => inferInstanceAs (Decidable (bits = 8 * (bits / 8) ∧ 0 < bits))
  | .uint bits => inferInstanceAs (Decidable (bits = 8 * (bits / 8) ∧ 0 < bits))
  | .float bits => inferInstanceAs (Decidable (bits = 8 * (bits / 8) ∧ 0 < bits))
  | .implicitTailbytes => isFalse id
  | .array _ element => decidableDelimited element
  | .bool | .varint | .string | .nbt | .uuid | .varbytes | .entityMetadata => isTrue trivial

/-- Every field but the last is delimited, and the last is delimited or the implicit tail. -/
def WellDelimited : List Field → Prop
  | [] => True
  | [field] => field.2.Delimited ∨ field.2 = .implicitTailbytes
  | field :: fields => field.2.Delimited ∧ WellDelimited fields

instance decidableWellDelimited : (fields : List Field) → Decidable (WellDelimited fields)
  | [] => isTrue trivial
  | [field] => inferInstanceAs (Decidable (field.2.Delimited ∨ field.2 = .implicitTailbytes))
  | field :: f :: fields =>
    have := decidableWellDelimited (f :: fields)
    inferInstanceAs (Decidable (field.2.Delimited ∧ WellDelimited (f :: fields)))

/-- A packet with no NBT and no entity metadata. -/
def PacketDef.Implemented (P : PacketDef) : Prop := ∀ field ∈ P.fields, field.2.Implemented

instance (P : PacketDef) : Decidable P.Implemented :=
  inferInstanceAs (Decidable (∀ field ∈ P.fields, field.2.Implemented))

theorem wellDelimited_packetDefs : ∀ P ∈ packetDefs, WellDelimited P.fields := by decide

/-! ## Decoding what was written -/

/-- Every encoder of an implemented field succeeds. -/
theorem isSome_serializeField {type : FieldType} (h : type.Implemented) (value : type.Val) :
    ∃ e, serializeField type value = some e := by
  induction type with
  | array name element ih =>
    suffices hm : ∃ buffers, value.mapM (serializeField element) = some buffers by
      obtain ⟨buffers, hm⟩ := hm
      exact ⟨_, by simp only [serializeField, hm]; rfl⟩
    induction value with
    | nil => exact ⟨[], rfl⟩
    | cons v vs ihv =>
      obtain ⟨e, he⟩ := ih h v
      obtain ⟨buffers, hm⟩ := ihv
      exact ⟨e :: buffers, by simp [List.mapM_cons, he, hm]⟩
  | nbt => exact h.elim
  | entityMetadata => exact h.elim
  | _ => exact ⟨_, rfl⟩

/-- The buffers of an array are those of its elements. -/
theorem mapM_encode {α : Type} {encode : α → Option Buffer} {values : List α}
    {buffers : List Buffer} (h : values.mapM encode = some buffers) :
    buffers = values.map (fun v => (encode v).getD []) ∧
      ∀ v ∈ values, ∃ e, encode v = some e ∧ e ∈ buffers := by
  induction values generalizing buffers with
  | nil =>
    cases h
    exact ⟨rfl, by simp⟩
  | cons v vs ih =>
    rw [List.mapM_cons] at h
    cases he : encode v with
    | none => rw [he] at h; cases h
    | some e =>
      cases hm : vs.mapM encode with
      | none => rw [he, hm] at h; cases h
      | some bs =>
        rw [he, hm] at h
        cases h
        obtain ⟨rfl, hall⟩ := ih hm
        refine ⟨by simp [he], fun w hw => ?_⟩
        rcases List.mem_cons.mp hw with rfl | hw
        · exact ⟨e, he, List.mem_cons_self⟩
        · obtain ⟨e', he', hmem⟩ := hall w hw
          exact ⟨e', he', List.mem_cons_of_mem _ hmem⟩

/-- What starts with a varint takes at least a byte. -/
theorem length_varInt_append_pos (v : BitVec 32) (data : Bytes) :
    0 < (serializeVarInt v ++ data).length := by
  have := length_encodeVarInt32_pos v
  rw [List.length_append, serializeVarInt]
  omega

theorem length_le_length_append (a b : Bytes) : b.length ≤ (a ++ b).length := by
  rw [List.length_append]
  omega

/-- A delimited field takes at least a byte. -/
theorem length_serializeField_pos {type : FieldType} (hi : type.Implemented) (hd : type.Delimited)
    {value : type.Val} {e : Buffer} (he : serializeField type value = some e) : 0 < e.length := by
  have hint : ∀ {bits : Nat} (v : BitVec bits), bits = 8 * (bits / 8) ∧ 0 < bits →
      0 < (serializeInt v).length := by
    intro bits v hb
    rw [serializeInt, length_toBigEndian]
    omega
  cases type with
  | bool => cases he; exact hint _ (by decide)
  | int bits => cases he; exact hint _ hd
  | uint bits => cases he; exact hint _ hd
  | float bits => cases he; exact hint _ hd
  | varint => cases he; exact length_encodeVarInt32_pos _
  | string => cases he; exact length_varInt_append_pos _ _
  | implicitTailbytes => exact hd.elim
  | nbt => exact hi.elim
  | uuid =>
    cases he
    exact lt_of_lt_of_le (hint (Uuid.lo value) (by decide)) (length_le_length_append _ _)
  | varbytes => cases he; exact length_varInt_append_pos _ _
  | entityMetadata => exact hi.elim
  | array name element =>
    simp only [serializeField] at he
    cases hm : value.mapM (serializeField element) with
    | none => rw [hm] at he; cases he
    | some buffers => rw [hm] at he; cases he; exact length_varInt_append_pos _ _

/-- Nonempty buffers are at least as long together as they are many. -/
theorem length_le_length_flatten {buffers : List Buffer} (h : ∀ b ∈ buffers, 0 < b.length) :
    buffers.length ≤ buffers.flatten.length := by
  induction buffers with
  | nil => simp
  | cons b bs ih =>
    have hb := h b List.mem_cons_self
    have htail := ih fun b' hb' => h b' (List.mem_cons_of_mem _ hb')
    rw [List.flatten_cons, List.length_append, List.length_cons]
    omega

theorem decodes_varbytes {data : Bytes} (h : data.length < 2 ^ 31) :
    Decodes (deserializeField .varbytes) (serializeVarInt (spanSize data) ++ data) data := by
  obtain ⟨hn, hneg⟩ := toNat_spanSize h
  have hext : ((spanSize data).signExtend 64).toNat = data.length := by
    rw [BitVec.signExtend_eq_setWidth_of_msb_false, BitVec.toNat_setWidth, hn]
    · omega
    · rw [BitVec.msb_eq_decide, decide_eq_false_iff_not, hn]
      omega
  refine (decodes_varInt (spanSize data)).bind ?_
  rw [hext]
  exact decodes_bytes data

/-- An array is read back if its elements are: none of them is empty, so there are fewer than
`2 ^ 31` of them and the count is their number. -/
theorem decodes_array {α : Type} {encode : α → Option Buffer} {decode : Deserializer α}
    {values : List α} {buffers : List Buffer} (h : values.mapM encode = some buffers)
    (hpos : ∀ v e, encode v = some e → 0 < e.length)
    (hdecode : ∀ v e, encode v = some e → e.length < 2 ^ 31 → Decodes decode e v)
    (hlen : buffers.flatten.length < 2 ^ 31) :
    Decodes (deserializeVarInt >>= fun length => times decode length.toNat)
      (serializeVarInt (spanSize values) ++ buffers.flatten) values := by
  obtain ⟨hb, hall⟩ := mapM_encode h
  have hcount : buffers.length = values.length := by rw [hb, List.length_map]
  have hle : buffers.length ≤ buffers.flatten.length := by
    refine length_le_length_flatten fun b hmem => ?_
    rw [hb] at hmem
    obtain ⟨v, hv, rfl⟩ := List.mem_map.mp hmem
    obtain ⟨e, he, -⟩ := hall v hv
    rw [he]
    exact hpos v e he
  obtain ⟨hn, -⟩ := toNat_spanSize (s := values) (by omega)
  refine (decodes_varInt (spanSize values)).bind ?_
  rw [hn, hb]
  refine Decodes.times fun v hv => ?_
  obtain ⟨e, he, hmem⟩ := hall v hv
  have hsub := (List.sublist_flatten_of_mem hmem).length_le
  rw [he]
  exact hdecode v e he (by omega)

/-- **Every field but the implicit tail** is read back from what was written for it. Its encoding
is shorter than `2 ^ 31`: lengths and counts are read into an `Int32`. -/
theorem decodes_field {type : FieldType} (hi : type.Implemented) (hd : type.Delimited)
    {value : type.Val} {e : Buffer} (he : serializeField type value = some e)
    (hlen : e.length < 2 ^ 31) : Decodes (deserializeField type) e value := by
  induction type generalizing e with
  | bool => cases he; exact decodes_bool value
  | int bits => cases he; exact decodes_int hd.1 value
  | uint bits => cases he; exact decodes_int hd.1 value
  | float bits => cases he; exact decodes_float hd.1 value
  | varint => cases he; exact decodes_varInt value
  | string =>
    cases he
    exact decodes_string (lt_of_le_of_lt (length_le_length_append _ _) hlen)
  | implicitTailbytes => exact hd.elim
  | nbt => exact hi.elim
  | uuid => cases he; exact decodes_uuid value
  | varbytes =>
    cases he
    exact decodes_varbytes (lt_of_le_of_lt (length_le_length_append _ _) hlen)
  | entityMetadata => exact hi.elim
  | array name element ih =>
    simp only [serializeField] at he
    cases hm : value.mapM (serializeField element) with
    | none => rw [hm] at he; cases he
    | some buffers =>
      rw [hm] at he
      cases he
      have hi' : element.Implemented := hi
      have hd' : element.Delimited := hd
      exact decodes_array hm (fun v e he => length_serializeField_pos hi' hd' he)
        (fun v e he hlt => ih hi hd he hlt)
        (lt_of_le_of_lt (length_le_length_append _ _) hlen)

theorem WellDelimited.cons_cases {field : Field} {fields : List Field}
    (h : WellDelimited (field :: fields)) :
    (field.2.Delimited ∧ WellDelimited fields) ∨ (fields = [] ∧ field.2 = .implicitTailbytes) := by
  cases fields with
  | nil =>
    rcases h with h | h
    · exact .inl ⟨h, trivial⟩
    · exact .inr ⟨rfl, h⟩
  | cons f fields => exact .inl h

theorem deserializeField_tail {type : FieldType} (h : type = .implicitTailbytes) {value : type.Val}
    {e : Buffer} (he : serializeField type value = some e) {c : Cursor Byte} (hc : c.view = e) :
    deserializeField type c = .ok value (c.advance e.length) := by
  subst h
  cases he
  have h := deserializeImplicitTailBytes_eq c
  rw [hc] at h
  exact h

/-- The fields of a payload, on a view that is the payload and nothing more: an implicit tail takes
all that is left. -/
theorem deserializeFields_of_serialize {fields : List Field} (hw : WellDelimited fields)
    (hi : ∀ field ∈ fields, field.2.Implemented) {values : Values fields} {buffer : Buffer}
    (he : serializeFields fields values = some buffer) (hlen : buffer.length < 2 ^ 31)
    {c : Cursor Byte} (hc : c.view = buffer) :
    deserializeFields fields c = .ok values (c.advance buffer.length) := by
  induction fields generalizing buffer c with
  | nil =>
    cases he
    simp [deserializeFields]
    rfl
  | cons field fields ih =>
    obtain ⟨value, values⟩ := values
    obtain ⟨hif, hifs⟩ := List.forall_mem_cons.mp hi
    simp only [serializeFields] at he
    cases hf : serializeField field.2 value with
    | none => rw [hf] at he; cases he
    | some e =>
      cases hr : serializeFields fields values with
      | none => rw [hf, hr] at he; cases he
      | some rest =>
        rw [hf, hr] at he
        cases he
        rw [List.length_append] at hlen
        obtain ⟨hws, hhead⟩ : WellDelimited fields ∧
            deserializeField field.2 c = .ok value (c.advance e.length) := by
          rcases hw.cons_cases with ⟨hd, hws⟩ | ⟨rfl, htail⟩
          · exact ⟨hws, decodes_field hif hd hf (by omega) c rest hc⟩
          · cases hr
            exact ⟨trivial, deserializeField_tail htail hf (by rw [hc, List.append_nil])⟩
        have hrest := ih hws hifs hr (by omega) (c := c.advance e.length)
          (by rw [Cursor.view_advance, hc, List.drop_left])
        simp only [deserializeFields, bind_run, hhead, hrest, Cursor.advance_advance,
          List.length_append]
        rfl

/-- **A payload is read back**, if it is shorter than `2 ^ 31`. -/
theorem deserializePacketPayload_serialize {P : PacketDef} (hw : WellDelimited P.fields)
    (hi : P.Implemented) {packet : P.Packet} {payload : Buffer}
    (he : serializePacketPayload P packet = some payload) (hlen : payload.length < 2 ^ 31) :
    deserializePacketPayload P payload = some packet := by
  have h := deserializeFields_of_serialize hw hi he hlen (Cursor.view_ofList payload)
  unfold deserializePacketPayload
  rw [h]
  exact if_pos (Nat.sub_self _)

theorem isSome_serializeFields {fields : List Field} (hi : ∀ field ∈ fields, field.2.Implemented)
    (values : Values fields) : ∃ buffer, serializeFields fields values = some buffer := by
  induction fields with
  | nil => exact ⟨[], rfl⟩
  | cons field fields ih =>
    obtain ⟨hif, hifs⟩ := List.forall_mem_cons.mp hi
    obtain ⟨e, he⟩ := isSome_serializeField hif values.1
    obtain ⟨rest, hr⟩ := ih hifs values.2
    refine ⟨e ++ rest, ?_⟩
    show (serializeField field.2 values.1 >>= fun buffer =>
      serializeFields fields values.2 >>= fun rest => some (buffer ++ rest)) = _
    rw [he, hr]
    rfl

/-- **Every packet of `packets.def` without NBT and entity metadata comes back.** It is always
written, and when its id and payload fit into an incoming packet, the frame decoder gives its id
and payload with exactly the bytes after the frame left, and the payload decoder gives the
packet. -/
theorem packet_round_trip (P : PacketDef) (hP : P ∈ packetDefs) (hi : P.Implemented)
    (packet : P.Packet) :
    ∃ payload buffer, serializePacketPayload P packet = some payload ∧
      serializePacket P packet = some buffer ∧
      (payload.length + (encodeVarInt32 P.id).length ≤ INCOMING_PACKET_MAX_LENGTH_VALUE →
        ∀ rest : Bytes, ∃ c,
          deserializePacketFrame (Cursor.ofList (buffer ++ rest)) =
            .ok { id := P.id, data := payload } c ∧
          c.view = rest ∧ deserializePacketPayload P payload = some packet) := by
  obtain ⟨payload, hp⟩ := isSome_serializeFields hi packet
  refine ⟨payload, serializeFrame P.id payload, hp, ?_, fun hlen rest => ?_⟩
  · rw [serializePacket, serializePacketPayload, hp]
    rfl
  · have hframe := decodes_frame hlen (Cursor.ofList (serializeFrame P.id payload ++ rest)) rest
      (Cursor.view_ofList _)
    have hmax : INCOMING_PACKET_MAX_LENGTH_VALUE = 1019 := rfl
    refine ⟨_, hframe, ?_, ?_⟩
    · rw [Cursor.view_advance, Cursor.view_ofList, List.drop_left]
    · exact deserializePacketPayload_serialize (wellDelimited_packetDefs P hP) hi hp (by omega)

theorem packet_round_trip_teleportConfirm :
    ∃ payload buffer, serializePacketPayload packetTeleportConfirm (300#32, ()) = some payload ∧
      serializePacket packetTeleportConfirm (300#32, ()) = some buffer ∧
      (payload.length + (encodeVarInt32 packetTeleportConfirm.id).length ≤
          INCOMING_PACKET_MAX_LENGTH_VALUE →
        ∀ rest : Bytes, ∃ c,
          deserializePacketFrame (Cursor.ofList (buffer ++ rest)) =
            .ok { id := packetTeleportConfirm.id, data := payload } c ∧
          c.view = rest ∧
          deserializePacketPayload packetTeleportConfirm payload = some (300#32, ())) :=
  packet_round_trip packetTeleportConfirm (by decide) (by decide) (300#32, ())

end Vitamine
