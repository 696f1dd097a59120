import Vitamine.Proxyd.Chunk
import Vitamine.Proxyd.EntityMetadata

/-!
# The packets that the server sends

One constructor for each clientbound packet of `packets.def`, with the fields of that packet, and
one for `PacketPlayerInfo`, which `packets.hpp` declares by hand. Coordinates are the integers that
the fields hold and floats the values of their patterns. The three fields of `PacketChunkData` that
encode the chunk are the chunk itself, as it is at the moment of the call.
-/

namespace Vitamine

open Wire

/-- The bytes of a string literal (all of them are ASCII). -/
def spanFromCString (s : String) : Bytes := s.toList.map fun c => BitVec.ofNat 8 c.toNat

structure AddPlayer.Property where
  name : Bytes
  value : Bytes
  isSigned : Bool
  signature : Bytes
  deriving DecidableEq

structure AddPlayer where
  name : Bytes
  properties : List AddPlayer.Property := []
  gameMode : BitVec 32
  ping : BitVec 32
  hasDisplayName : Bool
  displayName : Bytes := []
  deriving DecidableEq

namespace PacketPlayerInfo

inductive Action where
  | addPlayer | updateGamemode | updateLatency | updateDisplayname | removePlayer
  deriving DecidableEq

/-- The alternatives of the variant of an entry. -/
inductive Update where
  | addPlayer (update : AddPlayer)
  | updateGameMode (gameMode : BitVec 32)
  | updateLatency (ping : BitVec 32)
  | updateDisplayName (hasDisplayName : Bool) (displayName : Bytes)
  | removePlayer
  deriving DecidableEq

structure Entry where
  uuid : Uuid
  update : Update
  deriving DecidableEq

end PacketPlayerInfo

structure PacketPlayerInfo where
  action : PacketPlayerInfo.Action
  entries : List PacketPlayerInfo.Entry
  deriving DecidableEq

inductive ClientboundPacket where
  | disconnectLogin (reason : Bytes)
  | loginSuccess (uuid username : Bytes)
  | spawnPlayer (entityId : EntityId) (uuid : Uuid) (x y z : FloatValue) (yaw pitch : BitVec 8)
      (metadata : List EntityMetadata)
  | entityAnimation (entityId : EntityId) (animationId : BitVec 8)
  | blockChange (location : BitVec 64) (blockId : BitVec 32)
  | chatServer (chat : Bytes) (position : BitVec 8)
  | pluginMessageServer (channel data : Bytes)
  | disconnect (reason : Bytes)
  | unloadChunk (chunkX chunkZ : Int)
  | keepAliveServer (keepAliveId : Int)
  | chunkData (x z : Int) (chunk : Chunk)
  | joinGame (entityId : EntityId) (gameMode : BitVec 8) (dimension : BitVec 32)
      (maxPlayers : BitVec 8) (levelType : Bytes) (viewDistance : BitVec 32)
      (reducedDebugInfo : Bool)
  | entityMove (entityId : EntityId) (dx dy dz : BitVec 16) (onGround : Bool)
  | entityMoveRotation (entityId : EntityId) (dx dy dz : BitVec 16) (yaw pitch : BitVec 8)
      (onGround : Bool)
  | entityRotation (entityId : EntityId) (yaw pitch : BitVec 8) (onGround : Bool)
  | playerAbilitiesServer (flags : BitVec 8) (flyingSpeed walkingSpeed : FloatValue)
  | playerPositionLookServer (x y z yaw pitch : FloatValue) (flags : BitVec 8)
      (teleportId : BitVec 32)
  | destroyEntities (entityIds : List EntityId)
  | entityHeadLook (entityId : EntityId) (headYaw : BitVec 8)
  | heldItemChangeServer (slot : BitVec 8)
  | updateViewPosition (chunkX chunkZ : Int)
  | entityMetadata (entityId : EntityId) (metadata : List EntityMetadata)
  | spawnPosition (location : BitVec 64)
  | entityTeleport (entityId : EntityId) (x y z : FloatValue) (yaw pitch : BitVec 8)
      (onGround : Bool)
  | playerInfo (packet : PacketPlayerInfo)

namespace ClientboundPacket

/-- The entity whose position, angles, animation or metadata a packet tells. -/
def updates : ClientboundPacket → Option EntityId
  | .entityAnimation entityId _ => some entityId
  | .entityMove entityId _ _ _ _ => some entityId
  | .entityMoveRotation entityId _ _ _ _ _ _ => some entityId
  | .entityRotation entityId _ _ _ => some entityId
  | .entityHeadLook entityId _ => some entityId
  | .entityMetadata entityId _ => some entityId
  | .entityTeleport entityId _ _ _ _ _ _ => some entityId
  | _ => none

/-- The unload of a chunk. -/
def unload (c : ChunkCoord) : ClientboundPacket := .unloadChunk c.x c.z

/-- The data of a chunk. -/
def load (c : ChunkCoord) (chunk : Chunk) : ClientboundPacket := .chunkData c.x c.z chunk

end ClientboundPacket

end Vitamine
