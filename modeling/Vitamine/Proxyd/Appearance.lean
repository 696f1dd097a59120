import Vitamine.Lib.Log
import Vitamine.Proxyd.Steps

/-!
# How players look to the clients (`createSpawnPacket`, `sendMetadataUpdate`)

A client keeps flags and a pose for each entity that it is shown. `SpawnPlayer` sets both to what a
standing player has and then to what its metadata lists; `EntityMetadata` sets what it lists.

* `flagsWrite`, `poseWrite`: what an event sets.
* `Plain`: nobody looks different, and nothing is said about how anybody looks.
* `handle_looks`: the cases of a frame. A frame is plain, or it starts or stops crouching or
  sprinting, or it enters `PLAY`, or it is a move to another chunk.
-/

namespace Vitamine

open Wire

/-! ## What a client keeps of an entity -/

/-- The flags that a list of metadata sets: those of its last entry 0. -/
def flagsIn (metadata : List EntityMetadata) : Option (BitVec 8) :=
  metadata.foldl (fun flags entry =>
    match entry.index, entry.value with
    | 0, .byte value => some value
    | _, _ => flags) none

/-- The pose that a list of metadata sets: that of its last entry 6. -/
def poseIn (metadata : List EntityMetadata) : Option EntityMetadataPose :=
  metadata.foldl (fun pose entry =>
    match entry.index, entry.value with
    | 6, .pose value => some value
    | _, _ => pose) none

/-- The flags that an event sets for the entity. -/
def flagsWrite (entityId : EntityId) : Traffic → Option (BitVec 8)
  | .sent (.spawnPlayer id _ _ _ _ _ _ metadata) =>
    if id = entityId then some ((flagsIn metadata).getD 0) else none
  | .sent (.entityMetadata id metadata) => if id = entityId then flagsIn metadata else none
  | _ => none

/-- The pose that an event sets for the entity. -/
def poseWrite (entityId : EntityId) : Traffic → Option EntityMetadataPose
  | .sent (.spawnPlayer id _ _ _ _ _ _ metadata) =>
    if id = entityId then some ((poseIn metadata).getD .standing) else none
  | .sent (.entityMetadata id metadata) => if id = entityId then poseIn metadata else none
  | _ => none

/-- The flags that the client has for the entity. -/
def flagsOf (log : List Traffic) (entityId : EntityId) : BitVec 8 :=
  Log.last (flagsWrite entityId) 0 log

/-- The pose that the client has for the entity. -/
def poseOf (log : List Traffic) (entityId : EntityId) : EntityMetadataPose :=
  Log.last (poseWrite entityId) .standing log

namespace ClientboundPacket

/-- The entity that a packet sets flags or a pose of. -/
def dresses : ClientboundPacket → Option EntityId
  | .spawnPlayer id _ _ _ _ _ _ _ => some id
  | .entityMetadata id _ => some id
  | _ => none

variable {packet : ClientboundPacket} {e : EntityId}

theorem flagsWrite_of_dresses (h : packet.dresses ≠ some e) : flagsWrite e (.sent packet) = none := by
  cases packet <;> first | rfl | exact if_neg fun he => h (congrArg some he)

theorem poseWrite_of_dresses (h : packet.dresses ≠ some e) : poseWrite e (.sent packet) = none := by
  cases packet <;> first | rfl | exact if_neg fun he => h (congrArg some he)

end ClientboundPacket

/-- What the flags and the pose say of a player. -/
structure Appearance where
  crouchFlag : Bool
  sprintFlag : Bool
  crouchPose : Bool
  deriving DecidableEq

/-- The appearance of these flags and this pose. -/
def Appearance.of (flags : BitVec 8) (pose : EntityMetadataPose) : Appearance :=
  ⟨flags.getLsbD 1, flags.getLsbD 3, decide (pose = .crouching)⟩

/-- The appearance that the player should have. -/
def PlayerState.appearance (s : PlayerState) : Appearance := ⟨s.crouching, s.sprinting, s.crouching⟩

/-- The pose that `sendMetadataUpdate` sends. -/
def PlayerState.pose (s : PlayerState) : EntityMetadataPose :=
  if s.crouching then .crouching else .standing

theorem appearance_of_update (s : PlayerState) :
    Appearance.of (metadataFlags s) s.pose = s.appearance := by
  cases hc : s.crouching <;> cases hs : s.sprinting <;>
    simp [Appearance.of, metadataFlags, PlayerState.pose, PlayerState.appearance, hc, hs]

/-- **What the spawn leaves out**: it shows the player standing. -/
theorem appearance_of_spawn (s : PlayerState) :
    Appearance.of (metadataFlags s) .standing = s.appearance ↔ s.crouching = false := by
  cases hc : s.crouching <;> cases hs : s.sprinting <;>
    simp [Appearance.of, metadataFlags, PlayerState.appearance, hc, hs]

/-- How the entity looks to the client. -/
def looksTo (log : List Traffic) (entityId : EntityId) : Appearance :=
  .of (flagsOf log entityId) (poseOf log entityId)

section Log

variable {log : List Traffic} {packets : List ClientboundPacket} {e : EntityId}

/-- Packets that are not about how the entity looks. -/
theorem looksTo_append (h : ∀ k ∈ packets, k.dresses ≠ some e) :
    looksTo (log ++ packets.map .sent) e = looksTo log e := by
  have hflags : flagsOf (log ++ packets.map .sent) e = flagsOf log e := by
    rw [flagsOf, Log.last_append]
    exact Log.last_of_silent
      (List.forall_mem_map.mpr fun k hk => ClientboundPacket.flagsWrite_of_dresses (h k hk))
  have hpose : poseOf (log ++ packets.map .sent) e = poseOf log e := by
    rw [poseOf, Log.last_append]
    exact Log.last_of_silent
      (List.forall_mem_map.mpr fun k hk => ClientboundPacket.poseWrite_of_dresses (h k hk))
  rw [looksTo, hflags, hpose, looksTo]

@[simp] theorem looksTo_received {phase : ClientPhase} {frame : PacketFrame} :
    looksTo (log ++ [.received phase frame]) e = looksTo log e := by
  simp [looksTo, flagsOf, poseOf, flagsWrite, poseWrite]

theorem looksTo_update (s : PlayerState) :
    looksTo (log ++ [.sent (.entityMetadata s.entityId
      [⟨0, .byte, .byte (metadataFlags s)⟩, ⟨6, .pose, .pose s.pose⟩])]) s.entityId =
        s.appearance := by
  rw [← appearance_of_update]
  simp [looksTo, flagsOf, poseOf, flagsWrite, poseWrite, flagsIn, poseIn]

end Log

/-! ## Plain steps -/

/-- Nobody looks different, no entity id is given out, and no packet says how anybody looks. -/
structure Plain (w w' : World) : Prop where
  nextEntityId : w'.globalState.nextEntityId = w.globalState.nextEntityId
  appearance : ∀ p, (w'.player p).appearance = (w.player p).appearance
  traffic : ∀ q, ∃ packets : List ClientboundPacket,
    w'.traffic q = w.traffic q ++ packets.map .sent ∧ ∀ k ∈ packets, k.dresses = none

section Plain

variable {w w' w'' : World} {this : StateMachinePtr}

theorem Plain.of_eq (hnext : w'.globalState.nextEntityId = w.globalState.nextEntityId)
    (hplayer : w'.player = w.player) (ht : w'.traffic = w.traffic) : Plain w w' where
  nextEntityId := hnext
  appearance p := by rw [hplayer]
  traffic q := ⟨[], by simp [ht], by simp⟩

theorem Plain.refl (w : World) : Plain w w := .of_eq rfl rfl rfl

theorem Plain.trans (h : Plain w w') (h' : Plain w' w'') : Plain w w'' where
  nextEntityId := h'.nextEntityId.trans h.nextEntityId
  appearance p := (h'.appearance p).trans (h.appearance p)
  traffic q := by
    obtain ⟨ks, ht, hk⟩ := h.traffic q
    obtain ⟨ks', ht', hk'⟩ := h'.traffic q
    refine ⟨ks ++ ks', by rw [ht', ht, List.map_append, List.append_assoc], fun k hmem => ?_⟩
    rcases List.mem_append.mp hmem with hmem | hmem
    · exact hk k hmem
    · exact hk' k hmem

/-- Packets for one connection. -/
theorem Plain.of_traffic_self
    (hnext : w'.globalState.nextEntityId = w.globalState.nextEntityId)
    (hplayer : ∀ p, (w'.player p).appearance = (w.player p).appearance)
    (packets : List ClientboundPacket)
    (ht : w'.traffic = Function.update w.traffic this (w.traffic this ++ packets.map .sent))
    (hk : ∀ k ∈ packets, k.dresses = none) : Plain w w' where
  nextEntityId := hnext
  appearance := hplayer
  traffic q := by
    rw [ht]
    by_cases hq : q = this
    · subst hq
      exact ⟨packets, Function.update_self .., hk⟩
    · exact ⟨[], by rw [Function.update_of_ne hq]; simp, by simp⟩

theorem plain_disconnect (w : World) : Plain w (w.disconnect this) := .of_eq rfl rfl rfl

theorem plain_sendPacket {packet : ClientboundPacket} (h : packet.dresses = none) :
    Plain w (w.sendPacket this packet) :=
  .of_traffic_self rfl (fun _ => rfl) [packet] rfl (by simpa using h)

theorem plain_sendEach {targets : Finset StateMachinePtr} {packet : ClientboundPacket}
    (h : packet.dresses = none) : Plain w (w.sendEach targets packet) where
  nextEntityId := rfl
  appearance _ := rfl
  traffic q := by
    refine ⟨_, World.sendEach_traffic_append w targets packet q, fun k hk => ?_⟩
    split at hk
    · obtain rfl := List.mem_singleton.mp hk
      exact h
    · cases hk

/-- Somebody else than `this` is as before. -/
theorem appearance_update {s : PlayerState} (hs : s.appearance = (w.player this).appearance)
    (p : StateMachinePtr) :
    (Function.update w.player this s p).appearance = (w.player p).appearance := by
  by_cases hp : p = this
  · subst hp
    rwa [Function.update_self]
  · rw [Function.update_of_ne hp]

theorem plain_setPlayer {s : PlayerState} (hs : s.appearance = (w.player this).appearance) :
    Plain w (w.setPlayer this s) where
  nextEntityId := rfl
  appearance p := by
    rw [World.setPlayer_player]
    exact appearance_update hs p
  traffic q := ⟨[], by simp, by simp⟩

theorem plain_disconnectWith (message : Bytes) : Plain w (w.disconnectWith this message) := by
  unfold World.disconnectWith
  simp only
  split
  · exact (plain_sendPacket rfl).trans (plain_disconnect _)
  · exact (plain_sendPacket rfl).trans (plain_disconnect _)

theorem plain_broadcastLocally {packet : ClientboundPacket} (h : packet.dresses = none)
    (includeSelf : Bool) : Plain w (w.broadcastLocallyUnsafe this packet includeSelf) :=
  plain_sendEach h

end Plain

/-! ## The plain handlers -/

section Handlers

variable {w : World} {this : StateMachinePtr}

theorem plain_onHandshake (version nextState : BitVec 32) :
    Plain w (w.onHandshake this version nextState) := by
  unfold World.onHandshake
  split_ifs
  · exact plain_disconnectWith _
  · exact .of_eq rfl (World.setPhase_player ..) rfl
  · exact .of_eq rfl (World.setPhase_player ..) rfl
  · exact plain_disconnectWith _

theorem plain_onPluginMessage (channel data : Bytes) :
    Plain w (w.onPluginMessage this channel data) := by
  unfold World.onPluginMessage
  split
  · split
    · split
      · exact plain_disconnect w
      · exact plain_setPlayer rfl
    · exact plain_disconnect w
  · exact .refl w

theorem dresses_streamPackets {unloads loads : List ChunkCoord} {k : ClientboundPacket}
    (hk : k ∈ w.streamPackets unloads loads) : k.dresses = none :=
  w.forall_streamPackets (P := fun k => k.dresses = none) (fun _ => rfl) (fun _ _ => rfl) k hk

theorem plain_onClientSettingsChange (packet : ClientSettingsPacket) :
    Plain w (w.onClientSettingsChange this packet) := by
  have hs : (w.withSettings this packet).appearance = (w.player this).appearance := rfl
  have hnext : (w.onClientSettingsChange this packet).globalState.nextEntityId =
      w.globalState.nextEntityId := by
    rw [World.onClientSettingsChange_eq, World.sendChunks_eq]
    rfl
  refine .of_traffic_self hnext (fun p => ?_) _ (World.onClientSettingsChange_traffic ..)
    fun k hk => dresses_streamPackets hk
  rw [World.onClientSettingsChange_player]
  exact appearance_update hs p

theorem plain_onSettingsInPlayInit (packet : ClientSettingsPacket) :
    Plain w (w.onSettingsInPlayInit this packet) := by
  have hs : (w.withSettings this packet).startTeleport.appearance = (w.player this).appearance := rfl
  have hnext : (w.onSettingsInPlayInit this packet).globalState.nextEntityId =
      w.globalState.nextEntityId := by
    refine Eq.trans ?_ (@plain_onClientSettingsChange w this packet).nextEntityId
    rw [World.onSettingsInPlayInit, World.sendChunks_eq]
    rfl
  refine .of_traffic_self hnext (fun p => ?_) _ (World.onSettingsInPlayInit_traffic ..)
    fun k hk => ?_
  · rw [World.onSettingsInPlayInit_player]
    exact appearance_update hs p
  · exact w.forall_settingsInPlayInitPackets this packet (P := fun k => k.dresses = none)
      (fun _ => rfl) (fun _ _ => rfl) (fun _ => rfl) (fun _ _ _ _ _ _ _ => rfl) k hk

theorem plain_onChat (message : Bytes) : Plain w (w.onChat this message) := by
  unfold World.onChat
  split
  · exact plain_disconnectWith _
  · exact plain_sendEach rfl

theorem plain_onCloseWindow (windowId : BitVec 8) : Plain w (w.onCloseWindow this windowId) := by
  unfold World.onCloseWindow
  split
  · split
    · exact plain_disconnectWith _
    · exact plain_setPlayer rfl
  · exact .refl w

theorem plain_onPlayerRotation (yaw pitch : FloatValue) :
    Plain w (w.onPlayerRotation this yaw pitch) := by
  have hs : { w.player this with yaw, pitch }.appearance = (w.player this).appearance := rfl
  exact (plain_setPlayer hs).trans
    ((plain_broadcastLocally rfl false).trans (plain_broadcastLocally rfl false))

theorem plain_onPlayerAbilities (flags : BitVec 8) (flyingSpeed walkingSpeed : FloatValue) :
    Plain w (w.onPlayerAbilities this flags flyingSpeed walkingSpeed) :=
  plain_setPlayer rfl

theorem plain_startDigging (location : BitVec 64) : Plain w (w.startDigging this location) where
  nextEntityId := by
    rcases w.startDigging_cases this location with
      ⟨-, h | ⟨_, h⟩⟩ | ⟨_, _, -, -, ⟨-, h⟩ | ⟨-, h⟩⟩ <;> rw [h] <;> rfl
  appearance p := by rw [World.startDigging_player]
  traffic q := by
    refine ⟨_, World.startDigging_traffic w this location, fun k hk => ?_⟩
    split at hk
    · obtain rfl := List.mem_singleton.mp hk
      rfl
    · cases hk

theorem plain_onPlayerDigging (status : BitVec 32) (location : BitVec 64) (face : BitVec 8) :
    Plain w (w.onPlayerDigging this status location face) := by
  unfold World.onPlayerDigging
  split_ifs
  · exact plain_disconnectWith _
  · exact plain_disconnectWith _
  · exact plain_startDigging location
  · exact .refl w

theorem plain_onHeldItemChange (slot : BitVec 16) : Plain w (w.onHeldItemChange this slot) := by
  unfold World.onHeldItemChange
  split
  · exact plain_disconnectWith _
  · exact plain_setPlayer rfl

theorem plain_onAnimation (hand : BitVec 32) : Plain w (w.onAnimation this hand) := by
  unfold World.onAnimation
  split
  · exact plain_disconnectWith _
  · exact plain_broadcastLocally rfl _

theorem plain_onUseItem (hand : BitVec 32) : Plain w (w.onUseItem this hand) := by
  unfold World.onUseItem
  split
  · exact plain_disconnectWith _
  · exact .refl w

theorem dresses_createMovePacket (state : PlayerState) (oldPosition : EntityCoord) (rotate : Bool) :
    (createMovePacket state oldPosition rotate).dresses = none := by
  unfold createMovePacket
  simp only
  split_ifs <;> rfl

/-- A move inside a chunk. -/
theorem plain_onMove {s : PlayerState} (hs : s.appearance = (w.player this).appearance)
    {oldPosition : EntityCoord} (hchunk : s.chunk = coordCast oldPosition) (rotate : Bool) :
    Plain w ((w.setPlayer this s).onMove this oldPosition rotate) := by
  have hmove := dresses_createMovePacket ((w.setPlayer this s).player this) oldPosition rotate
  unfold World.onMove
  rw [if_neg (by simp [hchunk])]
  simp only
  split
  · exact (plain_setPlayer hs).trans
      ((plain_broadcastLocally hmove false).trans (plain_broadcastLocally rfl false))
  · exact (plain_setPlayer hs).trans (plain_broadcastLocally hmove false)

end Handlers

/-! ## The cases of a frame -/

/-- What `handle` may do with a frame of `this` to how players look to the clients. -/
inductive Looks (w : World) (this : StateMachinePtr) (frame : PacketFrame) : World → Prop where
  /-- The frame is no confirmation in `PLAY_INIT` and no move to another chunk in `PLAY`. -/
  | plain {w' : World} (hinit : w.phase this = .playInit → teleportConfirmOf frame = none)
      (hplay : w.phase this = .play → ∀ position, positionOf frame = some position →
        coordCast position = (w.player this).chunk)
      (h : Plain w w') : Looks w this frame w'
  | login {name : Bytes} (hlogin : w.phase this = .login) (hframe : loginStartOf frame = some name) :
      Looks w this frame (w.onLoginStart this name)
  | action {s : PlayerState} (hplay : w.phase this = .play) (hmove : positionOf frame = none)
      (hs : (w.player this).Same s) :
      Looks w this frame ((w.setPlayer this s).sendMetadataUpdate this)
  | confirm {id : BitVec 32} (hinit : w.phase this = .playInit)
      (hframe : teleportConfirmOf frame = some id) :
      Looks w this frame (w.onTeleportConfirm this id)
  | transition {s : PlayerState} {rotate : Bool} (hplay : w.phase this = .play)
      (hs : (w.player this).Keeps s) (happearance : s.appearance = (w.player this).appearance)
      (hne : s.chunk ≠ (w.player this).chunk) (hmove : positionOf frame = some s.position) :
      Looks w this frame ((w.setPlayer this s).onChunkTransition this (w.player this).chunk s.chunk
        (w.player this).position rotate)

section Cases

variable {w : World} {this : StateMachinePtr} {frame : PacketFrame}

/-- A plain step in a phase where nothing is noted. -/
theorem Looks.of_plain {w' : World} (hinit : w.phase this ≠ .playInit) (hplay : w.phase this ≠ .play)
    (h : Plain w w') : Looks w this frame w' :=
  .plain (fun hp => absurd hp hinit) (fun hp => absurd hp hplay) h

theorem positionOf_none (hp : payloadOf packetPlayerPosition frame = none)
    (hr : payloadOf packetPlayerPositionRotationClient frame = none) : positionOf frame = none := by
  rw [positionOf, hp, hr]
  rfl

theorem handle_looks_playInit (h : w.phase this = .playInit) :
    Looks w this frame (w.handle this frame) := by
  have hplain : payloadOf packetTeleportConfirm frame = none → ∀ {w'}, Plain w w' →
      Looks w this frame w' := fun ht _ =>
    .plain (fun _ => teleportConfirmOf_none ht) (by rw [h]; simp)
  rcases @handle_playInit_cases w this frame h with ⟨hnone, he⟩ | ⟨c, hc, packet, hp, he⟩
  · have ht := hnone packetTeleportConfirm (by simp [World.playInitCases])
    rcases he with he | he <;> rw [he]
    · exact hplain ht (plain_disconnect w)
    · exact hplain ht (.refl w)
  · rw [he]
    simp only [World.playInitCases, List.mem_cons, List.not_mem_nil, or_false] at hc
    rcases hc with rfl | rfl | rfl | rfl <;> dsimp only at hp
    · exact hplain (payloadOf_none hp (by decide)) (.refl w)
    · refine .confirm h ?_
      rw [teleportConfirmOf, hp]
      rfl
    · exact hplain (payloadOf_none hp (by decide)) (plain_onPluginMessage packet.1 packet.2.1)
    · exact hplain (payloadOf_none hp (by decide)) (plain_onSettingsInPlayInit _)

/-- A move of `this`, to what `s` says. -/
theorem looks_onMove (h : w.phase this = .play) {s : PlayerState} (hs : (w.player this).Keeps s)
    (happearance : s.appearance = (w.player this).appearance)
    (hmove : positionOf frame = some s.position) (rotate : Bool) :
    Looks w this frame ((w.setPlayer this s).onMove this (w.player this).position rotate) := by
  by_cases hchunk : s.chunk = (w.player this).chunk
  · refine .plain (by rw [h]; simp) (fun _ position hp => ?_) (plain_onMove happearance hchunk rotate)
    rw [hmove] at hp
    rw [← Option.some.inj hp]
    exact hchunk
  · rw [onMove_of_chunk_ne hchunk]
    exact .transition h hs happearance hchunk hmove

theorem looks_onPlayerPosition (h : w.phase this = .play) {x y z : FloatValue}
    (hmove : positionOf frame = some ⟨x, y, z⟩) :
    Looks w this frame (w.onPlayerPosition this x y z) :=
  looks_onMove h (s := { w.player this with position := ⟨x, y, z⟩ })
    ⟨rfl, rfl, rfl, rfl, rfl, rfl⟩ rfl hmove false

theorem looks_onPlayerPositionRotation (h : w.phase this = .play) {x y z : FloatValue}
    (hmove : positionOf frame = some ⟨x, y, z⟩) (yaw pitch : FloatValue) :
    Looks w this frame (w.onPlayerPositionRotation this x y z yaw pitch) :=
  looks_onMove h (s := { w.player this with position := ⟨x, y, z⟩, yaw, pitch })
    ⟨rfl, rfl, rfl, rfl, rfl, rfl⟩ rfl hmove true

theorem looks_switchAction (h : w.phase this = .play) (hmove : positionOf frame = none)
    (entityId : BitVec 32) (invalid already : String) (done : Bool) {set : PlayerState → PlayerState}
    (hset : ∀ s : PlayerState, s.Same (set s)) :
    Looks w this frame (w.switchAction this entityId invalid already done set) := by
  have hplain : ∀ {w'}, Plain w w' → Looks w this frame w' :=
    .plain (by rw [h]; simp) fun _ position hp => by rw [hmove] at hp; cases hp
  unfold World.switchAction
  split
  · exact hplain (plain_disconnectWith _)
  split
  · exact hplain (plain_disconnectWith _)
  · exact .action h hmove (hset _)

theorem looks_onEntityAction (h : w.phase this = .play) (hmove : positionOf frame = none)
    (entityId actionId : BitVec 32) :
    Looks w this frame (w.onEntityAction this entityId actionId) := by
  have hplain : ∀ {w'}, Plain w w' → Looks w this frame w' :=
    .plain (by rw [h]; simp) fun _ position hp => by rw [hmove] at hp; cases hp
  exact onEntityAction_cases entityId actionId (hplain (.refl w))
    (fun _ => hplain (plain_disconnectWith _))
    fun invalid already done _ hset => looks_switchAction h hmove entityId invalid already done hset

theorem handle_looks_play (h : w.phase this = .play) :
    Looks w this frame (w.handle this frame) := by
  have hplain : positionOf frame = none → ∀ {w'}, Plain w w' → Looks w this frame w' :=
    fun hnone _ => .plain (by rw [h]; simp) fun _ position hp => by rw [hnone] at hp; cases hp
  rcases @handle_play_cases w this frame h with ⟨hnone, he⟩ | ⟨c, hc, packet, hp, he⟩
  · have hmove : positionOf frame = none :=
      positionOf_none (hnone packetPlayerPosition (by simp [World.playCases]))
        (hnone packetPlayerPositionRotationClient (by simp [World.playCases]))
    rcases he with he | he <;> rw [he]
    · exact hplain hmove (plain_disconnect w)
    · exact hplain hmove (.refl w)
  · rw [he]
    -- A packet that is not a move tells no position.
    have hmove : c.packetDef.id ≠ packetPlayerPosition.id →
        c.packetDef.id ≠ packetPlayerPositionRotationClient.id → positionOf frame = none :=
      fun hne hne' => positionOf_none (payloadOf_none hp hne) (payloadOf_none hp hne')
    simp only [World.playCases, List.mem_cons, List.not_mem_nil, or_false] at hc
    rcases hc with rfl | rfl | rfl | rfl | rfl | rfl | rfl | rfl | rfl | rfl | rfl | rfl | rfl |
      rfl | rfl <;> dsimp only at hp hmove
    · exact hplain (hmove (by decide) (by decide)) (plain_onChat packet.1)
    · exact hplain (hmove (by decide) (by decide)) (plain_onClientSettingsChange _)
    · exact hplain (hmove (by decide) (by decide)) (plain_onCloseWindow packet.1)
    · exact hplain (hmove (by decide) (by decide)) (.refl w)
    · refine looks_onPlayerPosition h ?_
      rw [positionOf, hp]
      rfl
    · refine looks_onPlayerPositionRotation h ?_ _ _
      rw [positionOf, hp, payloadOf_none hp (by decide)]
      rfl
    · exact hplain (hmove (by decide) (by decide)) (plain_onPlayerRotation _ _)
    · exact hplain (hmove (by decide) (by decide)) (.refl w)
    · exact hplain (hmove (by decide) (by decide)) (.refl w)
    · exact hplain (hmove (by decide) (by decide)) (plain_onPlayerAbilities _ _ _)
    · exact hplain (hmove (by decide) (by decide)) (plain_onPlayerDigging _ _ _)
    · exact looks_onEntityAction h (hmove (by decide) (by decide)) _ _
    · exact hplain (hmove (by decide) (by decide)) (plain_onHeldItemChange _)
    · exact hplain (hmove (by decide) (by decide)) (plain_onAnimation _)
    · exact hplain (hmove (by decide) (by decide)) (plain_onUseItem _)

theorem handle_looks_login (h : w.phase this = .login) :
    Looks w this frame (w.handle this frame) := by
  rcases @handle_login_cases w this frame h with he | ⟨name, hname, he⟩ <;> rw [he]
  · exact .of_plain (by simp [h]) (by simp [h]) (plain_disconnect w)
  · exact .login h hname

theorem handle_looks (w : World) (this : StateMachinePtr) (frame : PacketFrame) :
    Looks w this frame (w.handle this frame) := by
  have hdisconnect : Plain w (w.disconnect this) := plain_disconnect w
  cases h : w.phase this with
  | initial =>
    refine .of_plain (by simp [h]) (by simp [h]) ?_
    rcases @handle_initial_cases w this frame h with he | ⟨version, nextState, he⟩ <;> rw [he]
    · exact hdisconnect
    · exact plain_onHandshake version nextState
  | login => exact handle_looks_login h
  | playInit => exact handle_looks_playInit h
  | play => exact handle_looks_play h
  | status =>
    refine .of_plain (by simp [h]) (by simp [h]) ?_
    rw [World.handle, h]
    exact hdisconnect

end Cases

end Vitamine
