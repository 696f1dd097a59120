import Vitamine.Proxyd.GlobalState
import Vitamine.Proxyd.Packets

/-!
# The state machine of a connection (`proxyd/statemachine.cpp`)

One definition for each function of the source, from the bottom up, each from a world to a world.
The `switch` over the ids of a phase is a list of cases (`switchFrame`): a case decodes the payload
of its packet and goes on with the fields, and a payload that does not decode disconnects.

The loops over a set of players send to each of them once, in no particular order; an order matters
to a connection only where it is sent a packet for each of them, and there it is that of the chunks
and in a chunk that of the addresses.
-/

namespace Vitamine

open Wire

def PROTOCOL_VERSION : BitVec 32 := 498
def CLIENT_READ_TIMEOUT_NANOS : Int := 10000000000
def KEEP_ALIVE_INTERVAL_NANOS : Int := 5000000000
def PLUGIN_CHANNEL_MINECRAFT_BRAND : Bytes := spanFromCString "minecraft:brand"
def SERVER_BRAND_STRING : Bytes := spanFromCString "github.com/mgrech/vitamine"

/-! ## Packets about a player -/

/-- `yaw * 256 / 360`, stored into a `UInt8`. -/
def angleByte (angle : FloatValue) : BitVec 8 := ((angle.scale 256).scale (1 / 360)).toUInt8

/-- `flags` of the metadata: `0x02` crouching, `0x08` sprinting. -/
def metadataFlags (state : PlayerState) : BitVec 8 :=
  (if state.crouching then 0x02 else 0) ||| (if state.sprinting then 0x08 else 0)

def createSpawnPacket (state : PlayerState) : ClientboundPacket :=
  .spawnPlayer state.entityId state.uuid state.position.x state.position.y state.position.z
    (angleByte state.yaw) (angleByte state.pitch) [⟨0, .byte, .byte (metadataFlags state)⟩]

def createDespawnPacket (state : PlayerState) : ClientboundPacket :=
  .destroyEntities [state.entityId]

def createHeadLookPacket (state : PlayerState) : ClientboundPacket :=
  .entityHeadLook state.entityId (angleByte state.yaw)

def createMovePacket (state : PlayerState) (oldPosition : EntityCoord) (rotate : Bool) :
    ClientboundPacket :=
  let diff := (state.position - oldPosition).scale 4096
  let min := FloatValue.finite (-32768)
  let max := FloatValue.finite 32767
  if !diff.withinOrdered ⟨min, min, min⟩ ⟨max, max, max⟩ then
    .entityTeleport state.entityId state.position.x state.position.y state.position.z
      (angleByte state.yaw) (angleByte state.pitch) false
  else if rotate then
    .entityMoveRotation state.entityId diff.x.toInt16 diff.y.toInt16 diff.z.toInt16
      (angleByte state.yaw) (angleByte state.pitch) false
  else
    .entityMove state.entityId diff.x.toInt16 diff.y.toInt16 diff.z.toInt16 false

/-- The entry of a player in `PacketPlayerInfo` of the action `ADD_PLAYER`. -/
def addPlayerEntry (state : PlayerState) : PacketPlayerInfo.Entry where
  uuid := state.uuid
  update := .addPlayer
    { name := state.username
      gameMode := state.gameMode.value.zeroExtend 32
      ping := 0
      hasDisplayName := false }

/-! ## Locations of blocks -/

/-- `coord_cast<ChunkCoord>` of the location of a packet. -/
def chunkOf (location : BitVec 64) : ChunkCoord := coordCast (fromPosition location)

/-- The indices of the location in its chunk. -/
def indexOf (location : BitVec 64) : BlockIndex := blockIndex (coordCast (fromPosition location))

/-! ## `boost::uuids::to_string` -/

/-- A hexadecimal digit, in lower case. -/
def hexDigit (n : Nat) : Byte := if n < 10 then BitVec.ofNat 8 (48 + n) else BitVec.ofNat 8 (87 + n)

/-- The bytes of a UUID in order, two digits each, with hyphens after the fourth, the sixth, the
eighth and the tenth. -/
def Uuid.toString (uuid : Uuid) : Bytes :=
  (uuid.bytes.zipIdx).flatMap fun (b, i) =>
    (if i = 4 ∨ i = 6 ∨ i = 8 ∨ i = 10 then [45] else []) ++
      [hexDigit (b.toNat / 16), hexDigit (b.toNat % 16)]

/-! ## Chunks -/

namespace World

/-- The chunk that is stored at the coordinate, or a generated one, and the world in which it is
stored. -/
def getOrCreateChunk (w : World) (coord : ChunkCoord) : World × Chunk :=
  let chunk := (w.globalState.chunks coord).getD generateChunk
  (w.setChunk coord chunk, chunk)

def sendChunk (w : World) (this : StateMachinePtr) (coord : ChunkCoord) : World :=
  let r := w.getOrCreateChunk coord
  r.1.sendPacket this (.load coord r.2)

def sendChunks (w : World) (this : StateMachinePtr) (coords : List ChunkCoord) : World :=
  coords.foldl (fun w coord => w.sendChunk this coord) w

def sendUnloads (w : World) (this : StateMachinePtr) (coords : List ChunkCoord) : World :=
  w.sendAll this (coords.map .unload)

/-! ## Changes that other players see -/

def sendMetadataUpdate (w : World) (this : StateMachinePtr) : World :=
  let state := w.player this
  let pose : EntityMetadataPose := if state.crouching then .crouching else .standing
  w.broadcastLocallyUnsafe this
    (.entityMetadata state.entityId
      [⟨0, .byte, .byte (metadataFlags state)⟩, ⟨6, .pose, .pose pose⟩])
    false

end World

/-- The fields of `PacketClientSettings`. -/
structure ClientSettingsPacket where
  locale : Bytes
  viewDistance : BitVec 8
  chatMode : BitVec 32
  chatColors : Bool
  displayedSkinParts : BitVec 8
  mainHand : BitVec 32

/-- `std::max((Int8)2, std::min(viewDistance, maxViewDistance))`, stored into a `UInt8`. -/
def clampViewDistance (viewDistance maxViewDistance : BitVec 8) : BitVec 8 :=
  let smaller := if maxViewDistance.slt viewDistance then maxViewDistance else viewDistance
  if (2#8).slt smaller then smaller else 2

/-- The player with the settings of the packet. -/
def PlayerState.withSettings (s : PlayerState) (packet : ClientSettingsPacket)
    (maxViewDistance : BitVec 8) : PlayerState :=
  { s with
    clientSettings :=
      { locale := packet.locale
        viewDistance := clampViewDistance packet.viewDistance maxViewDistance
        chatMode := packet.chatMode
        chatColorsEnabled := packet.chatColors
        displayedSkinParts := packet.displayedSkinParts
        mainHand := packet.mainHand } }

/-- The chunks of the square around `center` that are not in the square around `other`. -/
def chunksOutside (center other : ChunkCoord) (vd : Int) : List ChunkCoord :=
  ((ChunkCoord.offsets vd).map (center + ·)).filter fun coord =>
    !coord.withinOrdered (other - ⟨vd, vd⟩) (other + ⟨vd, vd⟩)

namespace World

def onClientSettingsChange (w : World) (this : StateMachinePtr) (packet : ClientSettingsPacket) :
    World :=
  let oldVd := (w.player this).viewDistance
  let state := (w.player this).withSettings packet w.globalState.serverSettings.maxViewDistance
  let w := w.setPlayer this state
  -- in initial state, view distance is set to 0
  if oldVd ≠ 0 then
    let coord := state.chunk
    let vd := state.viewDistance
    let w := w.setTracker (w.tracker.updateViewDistance coord oldVd vd this)
    if vd < oldVd then w.sendUnloads this ((viewRing oldVd vd).map (coord + ·))
    else if oldVd < vd then w.sendChunks this ((viewRing vd oldVd).map (coord + ·))
    else w
  else w

def onChunkTransition (w : World) (this : StateMachinePtr) (start target : ChunkCoord)
    (oldPosition : EntityCoord) (rotate : Bool) : World :=
  let state := w.player this
  let vd := state.viewDistance
  let removedChunks := chunksOutside start target vd
  let addedChunks := chunksOutside target start vd
  let w := w.sendUnloads this removedChunks
  let w := w.sendChunks this addedChunks
  let w := w.sendPacket this (.updateViewPosition target.x target.z)
  let w := w.setTracker
    (((w.tracker.move start target this).unsubscribe removedChunks this).subscribe addedChunks this)
  let fromSubs := w.tracker.subscribers start
  let toSubs := w.tracker.subscribers target
  let both := (fromSubs ∩ toSubs).erase this
  let w := w.sendEach both (createMovePacket state oldPosition rotate)
  let w := if rotate then w.sendEach both (createHeadLookPacket state) else w
  let w := w.sendEach ((fromSubs \ toSubs).erase this) (createDespawnPacket state)
  w.sendEach ((toSubs \ fromSubs).erase this) (createSpawnPacket state)

def onMove (w : World) (this : StateMachinePtr) (oldPosition : EntityCoord) (rotate : Bool) :
    World :=
  let oldChunk : ChunkCoord := coordCast oldPosition
  let newChunk := (w.player this).chunk
  if newChunk ≠ oldChunk then w.onChunkTransition this oldChunk newChunk oldPosition rotate
  else
    let w := w.broadcastLocallyUnsafe this (createMovePacket (w.player this) oldPosition rotate)
      false
    if rotate then w.broadcastLocallyUnsafe this (createHeadLookPacket (w.player this)) false else w

end World

/-! ## The packets of a phase -/

/-- A `case` of the `switch` over the ids: the packet, and what to do with its fields. -/
structure Case (β : Type) where
  packetDef : PacketDef
  body : packetDef.Packet → β

/-- The `switch`: `malformed` is for a payload that does not decode, `other` for an id of no
case. -/
def switchFrame {β : Type} (cases : List (Case β)) (frame : PacketFrame) (malformed other : β) : β :=
  match cases.find? fun c => frame.id = c.packetDef.id with
  | none => other
  | some c =>
    match deserializePacketPayload c.packetDef frame.data with
    | none => malformed
    | some packet => c.body packet

namespace World

def onHandshake (w : World) (this : StateMachinePtr) (version nextState : BitVec 32) : World :=
  if version ≠ PROTOCOL_VERSION then w.disconnectWith this (spanFromCString "version mismatch")
  else if nextState = 1 then w.setPhase this .status
  else if nextState = 2 then w.setPhase this .login
  else w.disconnectWith this (spanFromCString "invalid next state")

/-- The player with its name, the UUID of the name and the next entity id. -/
def loggedIn (w : World) (this : StateMachinePtr) (name : Bytes) : PlayerState :=
  { w.player this with
    username := name
    uuid := w.globalState.uuidGenerator name
    entityId := w.globalState.nextEntityId }

def onLoginStart (w : World) (this : StateMachinePtr) (name : Bytes) : World :=
  let settings := w.globalState.serverSettings
  let state := w.loggedIn this name
  let w := (w.setPlayer this state).setNextEntityId (w.globalState.nextEntityId + 1)
  let w := w.sendPacket this (.loginSuccess state.uuid.toString name)
  let w := w.sendPacket this (.joinGame state.entityId state.gameMode.value settings.dimension.value
    0 (spanFromCString "default") (settings.maxViewDistance.signExtend 32)
    settings.reducedDebugInfo)
  let w := w.sendPacket this
    (.pluginMessageServer PLUGIN_CHANNEL_MINECRAFT_BRAND (serializeString SERVER_BRAND_STRING))
  let w := w.sendPacket this
    (.playerAbilitiesServer state.abilityFlags state.flyingSpeed state.walkingSpeed)
  let w := w.sendPacket this (.heldItemChangeServer state.heldItemSlot)
  -- The source goes through an `unordered_set`, in any order; nothing depends on which one it is.
  let entries := (ascending w.globalState.players).map fun player =>
    addPlayerEntry (w.player player)
  let w := w.sendPacket this (.playerInfo ⟨.addPlayer, entries⟩)
  let w := w.setPlayers (insert this w.globalState.players)
  let w := w.broadcastGloballyUnsafe this (.playerInfo ⟨.addPlayer, [addPlayerEntry state]⟩) true
  w.setPhase this .playInit

/-- The end of `TeleportConfirm`: the player is put into the tracker and spawned for those who see
it, and those it sees are spawned for it. -/
def enterPlay (w : World) (this : StateMachinePtr) : World :=
  let state := w.player this
  let coord := state.chunk
  let vd := state.viewDistance
  let w := w.setTracker (w.tracker.enter coord vd this)
  let w := w.broadcastLocallyUnsafe this (createSpawnPacket state) false
  -- In the source this is a set, with any order.
  let visiblePlayers := ((ChunkCoord.offsets vd).flatMap fun offset =>
    ascending (w.tracker.members (coord + offset))).dedup
  let w := w.sendAll this ((visiblePlayers.filter (· ≠ this)).map fun member =>
    createSpawnPacket (w.player member))
  w.setPhase this .play

def onTeleportConfirm (w : World) (this : StateMachinePtr) (teleportId : BitVec 32) : World :=
  let r := (w.player this).confirmTeleport teleportId
  let w := w.setPlayer this r.2
  let w := if !r.1 then
      w.disconnectWith this (spanFromCString "PacketTeleportConfirm: invalid teleport id")
    else w
  -- There is no `return` after the disconnect.
  w.enterPlay this

def onPluginMessage (w : World) (this : StateMachinePtr) (channel data : Bytes) : World :=
  if channel = PLUGIN_CHANNEL_MINECRAFT_BRAND then
    match deserializeString (Cursor.ofList data) with
    | .ok brand rest =>
      if rest.size ≠ 0 then w.disconnect this
      else w.setPlayer this { w.player this with clientBrand := brand }
    | .error _ _ => w.disconnect this
  else w

/-- `ClientSettings` in `PLAY_INIT`: after the change itself, every chunk in view and a teleport to
where the player is. The yaw and the pitch of the packet are those of the source, the one for the
other. -/
def onSettingsInPlayInit (w : World) (this : StateMachinePtr) (packet : ClientSettingsPacket) :
    World :=
  let w := w.onClientSettingsChange this packet
  let state := w.player this
  let vd := state.viewDistance
  let w := w.sendChunks this
    (ChunkCoord.region (state.chunk - ⟨vd, vd⟩) (state.chunk + ⟨vd, vd⟩))
  let w := w.sendPacket this (.spawnPosition (toPosition ⟨0, 0, 0⟩))
  let w := w.setPlayer this state.startTeleport
  w.sendPacket this (.playerPositionLookServer state.position.x state.position.y state.position.z
    state.pitch state.yaw 0 state.nextTeleportId)

def onChat (w : World) (this : StateMachinePtr) (message : Bytes) : World :=
  if 256 < message.length then w.disconnectWith this (spanFromCString "chat message too long")
  else
    let text := spanFromCString "<" ++ (w.player this).username ++ spanFromCString "> " ++ message
    w.broadcastGloballyUnsafe this (.chatServer (chat.plainText text) 0) true

def onCloseWindow (w : World) (this : StateMachinePtr) (windowId : BitVec 8) : World :=
  if windowId ≠ 0 then
    if (w.player this).openWindow ≠ windowId then
      w.disconnectWith this (spanFromCString "invalid window id")
    else w.setPlayer this { w.player this with openWindow := 0 }
  else w

def onPlayerPosition (w : World) (this : StateMachinePtr) (x y z : FloatValue) : World :=
  let oldPos := (w.player this).position
  (w.setPlayer this { w.player this with position := ⟨x, y, z⟩ }).onMove this oldPos false

def onPlayerPositionRotation (w : World) (this : StateMachinePtr) (x y z yaw pitch : FloatValue) :
    World :=
  let oldPos := (w.player this).position
  (w.setPlayer this { w.player this with position := ⟨x, y, z⟩, yaw, pitch }).onMove this oldPos
    true

def onPlayerRotation (w : World) (this : StateMachinePtr) (yaw pitch : FloatValue) : World :=
  let w := w.setPlayer this { w.player this with yaw, pitch }
  let state := w.player this
  let w := w.broadcastLocallyUnsafe this
    (.entityRotation state.entityId (angleByte state.yaw) (angleByte state.pitch) false) false
  w.broadcastLocallyUnsafe this (createHeadLookPacket state) false

def onPlayerAbilities (w : World) (this : StateMachinePtr) (flags : BitVec 8)
    (flyingSpeed walkingSpeed : FloatValue) : World :=
  w.setPlayer this { w.player this with abilityFlags := flags, flyingSpeed, walkingSpeed }

/-- Status 0 of `PlayerDigging`. The distance to the block is printed, if it is above six, and
nothing else. -/
def startDigging (w : World) (this : StateMachinePtr) (location : BitVec 64) : World :=
  match w.globalState.chunks (chunkOf location) with
  | none => w.disconnect this
  | some chunk =>
    match chunk.dig (indexOf location) with
    | none => { w with outOfBounds := w.outOfBounds ++ [(chunkOf location, indexOf location)] }
    | some (chunk, false) => w.setChunk (chunkOf location) chunk
    | some (chunk, true) =>
      (w.setChunk (chunkOf location) chunk).broadcastLocallyUnsafe this
        (.blockChange location (BLOCKID_MINECRAFT_AIR.zeroExtend 32)) false

def onPlayerDigging (w : World) (this : StateMachinePtr) (status : BitVec 32)
    (location : BitVec 64) (face : BitVec 8) : World :=
  if 6 < status.toInt then
    w.disconnectWith this (spanFromCString "PacketPlayerDigging: invalid status")
  else if 5 < face.toInt then
    w.disconnectWith this (spanFromCString "PacketPlayerDigging: invalid block face")
  else if status = 0 then w.startDigging this location
  else w

/-- The four actions that start or stop something: `done` says that it is as the action would make
it, `set` makes it so. -/
def switchAction (w : World) (this : StateMachinePtr) (entityId : BitVec 32)
    (invalid already : String) (done : Bool) (set : PlayerState → PlayerState) : World :=
  if entityId ≠ (w.player this).entityId then w.disconnectWith this (spanFromCString invalid)
  else if done then w.disconnectWith this (spanFromCString already)
  else (w.setPlayer this (set (w.player this))).sendMetadataUpdate this

def onEntityAction (w : World) (this : StateMachinePtr) (entityId actionId : BitVec 32) : World :=
  let state := w.player this
  if actionId = 0 then
    w.switchAction this entityId
      "EntityAction: invalid entity id for action 'start crouching'"
      "EntityAction: already crouching" state.crouching fun s => { s with crouching := true }
  else if actionId = 1 then
    w.switchAction this entityId
      "EntityAction: invalid entity id for action 'stop crouching'"
      "EntityAction: not crouching" (!state.crouching) fun s => { s with crouching := false }
  else if actionId = 2 then w
  else if actionId = 3 then
    w.switchAction this entityId
      "EntityAction: invalid entity id for action 'start sprinting'"
      "EntityAction: already sprinting" state.sprinting fun s => { s with sprinting := true }
  else if actionId = 4 then
    w.switchAction this entityId
      "EntityAction: invalid entity id for action 'stop sprinting'"
      "EntityAction: not sprinting" (!state.sprinting) fun s => { s with sprinting := false }
  else if actionId = 5 ∨ actionId = 6 ∨ actionId = 7 ∨ actionId = 8 then w
  else
    w.disconnectWith this
      (spanFromCString ("EntityAction: invalid action id: " ++ toString actionId.toInt))

def onHeldItemChange (w : World) (this : StateMachinePtr) (slot : BitVec 16) : World :=
  if slot.toInt < 0 ∨ 8 < slot.toInt then
    w.disconnectWith this (spanFromCString "HeldItemChange: invalid slot id")
  else w.setPlayer this { w.player this with heldItemSlot := slot.truncate 8 }

def onAnimation (w : World) (this : StateMachinePtr) (hand : BitVec 32) : World :=
  if hand ≠ 0 ∧ hand ≠ 1 then w.disconnectWith this (spanFromCString "Animation: invalid hand")
  else
    w.broadcastLocallyUnsafe this
      (.entityAnimation (w.player this).entityId (if hand = 0 then 0 else 3)) false

def onUseItem (w : World) (this : StateMachinePtr) (hand : BitVec 32) : World :=
  if hand ≠ 0 ∧ hand ≠ 1 then
    w.disconnectWith this (spanFromCString "PacketUseItem: invalid hand")
  else w

/-! ## The phases -/

def initialCases (w : World) (this : StateMachinePtr) : List (Case World) :=
  [⟨packetHandshake, fun (version, _, _, nextState, ()) => w.onHandshake this version nextState⟩]

def loginCases (w : World) (this : StateMachinePtr) : List (Case World) :=
  [⟨packetLoginStart, fun (name, ()) => w.onLoginStart this name⟩]

def playInitCases (w : World) (this : StateMachinePtr) : List (Case World) :=
  [⟨packetPlayerPositionRotationClient, fun _ => w⟩,
   ⟨packetTeleportConfirm, fun (teleportId, ()) => w.onTeleportConfirm this teleportId⟩,
   ⟨packetPluginMessageClient, fun (channel, data, ()) => w.onPluginMessage this channel data⟩,
   ⟨packetClientSettings,
    fun (locale, viewDistance, chatMode, chatColors, displayedSkinParts, mainHand, ()) =>
      w.onSettingsInPlayInit this
        ⟨locale, viewDistance, chatMode, chatColors, displayedSkinParts, mainHand⟩⟩]

def playCases (w : World) (this : StateMachinePtr) : List (Case World) :=
  [⟨packetChatClient, fun (message, ()) => w.onChat this message⟩,
   ⟨packetClientSettings,
    fun (locale, viewDistance, chatMode, chatColors, displayedSkinParts, mainHand, ()) =>
      w.onClientSettingsChange this
        ⟨locale, viewDistance, chatMode, chatColors, displayedSkinParts, mainHand⟩⟩,
   ⟨packetCloseWindowClient, fun (windowId, ()) => w.onCloseWindow this windowId⟩,
   ⟨packetInteractEntity, fun _ => w⟩,
   ⟨packetPlayerPosition, fun (x, y, z, _, ()) =>
      w.onPlayerPosition this (.ofFloat64 x) (.ofFloat64 y) (.ofFloat64 z)⟩,
   ⟨packetPlayerPositionRotationClient, fun (x, y, z, yaw, pitch, _, ()) =>
      w.onPlayerPositionRotation this (.ofFloat64 x) (.ofFloat64 y) (.ofFloat64 z) (.ofFloat32 yaw)
        (.ofFloat32 pitch)⟩,
   ⟨packetPlayerRotation, fun (yaw, pitch, _, ()) =>
      w.onPlayerRotation this (.ofFloat32 yaw) (.ofFloat32 pitch)⟩,
   ⟨packetPlayerMovement, fun _ => w⟩,
   ⟨packetKeepAliveClient, fun _ => w⟩,
   ⟨packetPlayerAbilitiesClient, fun (flags, flyingSpeed, walkingSpeed, ()) =>
      w.onPlayerAbilities this flags (.ofFloat32 flyingSpeed) (.ofFloat32 walkingSpeed)⟩,
   ⟨packetPlayerDigging, fun (status, location, face, ()) =>
      w.onPlayerDigging this status location face⟩,
   ⟨packetEntityAction, fun (entityId, actionId, _, ()) => w.onEntityAction this entityId actionId⟩,
   ⟨packetHeldItemChangeClient, fun (slot, ()) => w.onHeldItemChange this slot⟩,
   ⟨packetAnimationClient, fun (hand, ()) => w.onAnimation this hand⟩,
   ⟨packetUseItem, fun (hand, ()) => w.onUseItem this hand⟩]

/-- What `onPacket` does after it noted the time, in each phase. -/
def handle (w : World) (this : StateMachinePtr) (frame : PacketFrame) : World :=
  match w.phase this with
  | .initial => switchFrame (w.initialCases this) frame (w.disconnect this) (w.disconnect this)
  | .login => switchFrame (w.loginCases this) frame (w.disconnect this) (w.disconnect this)
  | .playInit => switchFrame (w.playInitCases this) frame (w.disconnect this) w
  | .play => switchFrame (w.playCases this) frame (w.disconnect this) w
  | .status => w.disconnect this

/-- `_lastPacketTime = now`, and the frame in the traffic. -/
def receive (w : World) (this : StateMachinePtr) (frame : PacketFrame) (now : Int) : World :=
  let w := { w with
    traffic := Function.update w.traffic this
      (w.traffic this ++ [Traffic.received (w.phase this) frame]) }
  w.setMachine this { w.machine this with lastPacketTime := now }

def onPacket (w : World) (this : StateMachinePtr) (frame : PacketFrame) (now : Int) : World :=
  (w.receive this frame now).handle this frame

def onTick (w : World) (this : StateMachinePtr) (currentTime : Int) : World :=
  if CLIENT_READ_TIMEOUT_NANOS ≤ currentTime - (w.machine this).lastPacketTime then
    w.disconnectWith this (spanFromCString "timeout")
  else if w.phase this = .play then
    if KEEP_ALIVE_INTERVAL_NANOS ≤ currentTime - (w.machine this).lastKeepAliveSentTime then
      (w.setMachine this { w.machine this with lastKeepAliveSentTime := currentTime }).sendPacket this
        (.keepAliveServer currentTime)
    else w
  else w

/-- The body of the destructor. -/
def leavePlay (w : World) (this : StateMachinePtr) : World :=
  let state := w.player this
  let w := w.setTracker (w.tracker.leave state.chunk state.viewDistance this)
  let w := w.broadcastLocallyUnsafe this (createDespawnPacket state) false
  let w := w.setPlayers (w.globalState.players.erase this)
  w.broadcastGloballyUnsafe this
    (.playerInfo ⟨.removePlayer, [⟨state.uuid, .removePlayer⟩]⟩) false

/-- `~StateMachine`, at the end of which the object is gone. -/
def destroy (w : World) (this : StateMachinePtr) : World :=
  let w := if w.phase this = .play then w.leavePlay this else w
  { w with life := Function.update w.life this .destroyed }

/-- `onClientConnected`: a state machine is constructed. -/
def connect (w : World) (this : StateMachinePtr) (clientSettings : ClientSettings)
    (entityId : EntityId) (now : Int) : World :=
  { w.setMachine this (.fresh clientSettings entityId now) with
    life := Function.update w.life this .live }

/-- The server at its start; nothing is known of what the addresses hold. -/
def initial (uuidGenerator : Bytes → Uuid) (machine : StateMachinePtr → StateMachine) : World where
  globalState := { uuidGenerator }
  machine := machine
  life _ := .unused
  traffic _ := []
  disconnecting _ := false
  outOfBounds := []

end World

/-! ## Runs -/

/-- What happens to the server, each step at once: a client connects, a frame of a connection
reaches `onPacket`, the reader of a connection rejects its bytes, a tick reaches a connection, a
connection drops. -/
inductive ServerStep where
  | connect (this : StateMachinePtr) (clientSettings : ClientSettings) (entityId : EntityId)
      (now : Int)
  | packet (this : StateMachinePtr) (frame : PacketFrame) (now : Int)
  | error (this : StateMachinePtr)
  | tick (this : StateMachinePtr) (now : Int)
  | disconnect (this : StateMachinePtr)

def World.next (w : World) : ServerStep → World
  | .connect this clientSettings entityId now => w.connect this clientSettings entityId now
  | .packet this frame now => w.onPacket this frame now
  -- `_onError` of the reader is the `disconnect` that the constructor gave it.
  | .error this => w.disconnect this
  | .tick this now => w.onTick this now
  | .disconnect this => w.destroy this

/-- The runs of the server, in which no address is used twice. -/
def server : System World ServerStep where
  enabled w
    | .connect this _ _ _ => w.life this = .unused
    | .packet this _ _ => w.life this = .live
    | .error this => w.life this = .live
    | .tick this _ => w.life this = .live
    | .disconnect this => w.life this = .live
  next := World.next

instance decidableEnabled (w : World) : (step : ServerStep) → Decidable (server.enabled w step)
  | .connect this _ _ _ => inferInstanceAs (Decidable (w.life this = .unused))
  | .packet this _ _ | .error this | .tick this _ | .disconnect this =>
    inferInstanceAs (Decidable (w.life this = .live))

/-! ## A client that joins -/

/-- The version of the server, and the way to `LOGIN`. -/
def handshakeFrame : PacketFrame := ⟨0x00, [0xf2, 0x03, 0, 0x63, 0xdd, 2]⟩

/-- The name `a`. -/
def loginStartFrame : PacketFrame := ⟨0x00, [1, 0x61]⟩

def clientSettingsFrame (viewDistance : BitVec 8) : PacketFrame :=
  ⟨0x05, [0, viewDistance, 0, 0, 0, 0]⟩

/-- The id as a `VarInt` of one byte. -/
def teleportConfirmFrame (id : BitVec 7) : PacketFrame := ⟨0x00, [id.zeroExtend 8]⟩

/-- A new player has a view distance of 0, as the comment in `onClientSettingsChange` says. -/
def defaultClientSettings : ClientSettings := ⟨[], 0, 0, false, 0, 0⟩

/-- From the connection to `PLAY_INIT`. -/
def loginSteps (this : StateMachinePtr) : List ServerStep :=
  [.connect this defaultClientSettings 0 0, .packet this handshakeFrame 0,
    .packet this loginStartFrame 0]

/-- From the connection to `PLAY`. -/
def joinSteps (this : StateMachinePtr) (viewDistance : BitVec 8) : List ServerStep :=
  loginSteps this ++
    [.packet this (clientSettingsFrame viewDistance) 0, .packet this (teleportConfirmFrame 0) 0]

/-- A server without clients. -/
def emptyServer : World :=
  .initial (fun _ => .zero) fun _ => .fresh defaultClientSettings 0 0

example : (server.after emptyServer (joinSteps 0 2)).phase 0 = .play := by decide +kernel

end Vitamine
