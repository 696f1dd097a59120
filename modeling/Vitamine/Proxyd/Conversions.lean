import Vitamine.Lib.Noted
import Vitamine.Lib.Rounding
import Vitamine.Proxyd.Steps

/-!
# Conversions of floats to integers

What a `PlayerPosition`, a `PlayerPositionRotation` or a `PlayerRotation` in `PLAY` converts. The
functions of `Converting` are those of the state machine once more, and note every conversion that
they perform.

* `value_onMovement`: they compute what the state machine does.
* `Conversion.Fits`: the value, cut to an integer, is in the range of the target. Outside of it the
  conversion is undefined.
* `conversionsFit_iff`: when all conversions of a packet fit. The guard of `createMovePacket` keeps
  the steps in the range of an `Int16`; the coordinates and the angles are not checked.
-/

namespace Vitamine

open Noted Rounding

/-! ## Conversions -/

inductive IntType where
  | int16 | int32 | uint8
  deriving DecidableEq

def IntType.min : IntType → Int
  | .int16 => -2 ^ 15
  | .int32 => -2 ^ 31
  | .uint8 => 0

def IntType.max : IntType → Int
  | .int16 => 2 ^ 15 - 1
  | .int32 => 2 ^ 31 - 1
  | .uint8 => 2 ^ 8 - 1

/-- A value that is converted to an integer type. -/
structure Conversion where
  target : IntType
  value : FloatValue

/-- The value without what is behind the point is one of the target. -/
def Conversion.Fits (c : Conversion) : Prop :=
  match c.value with
  | .finite a => c.target.min ≤ towardZero a ∧ towardZero a ≤ c.target.max
  | _ => False

abbrev Converting := Noting Conversion

namespace Converting

def convert (target : IntType) (value : FloatValue) : Converting FloatValue := do
  note ⟨target, value⟩
  pure value

/-- `coord_cast<BlockCoord>`. -/
def blockCoord (coord : EntityCoord) : Converting BlockCoord := do
  let x ← convert .int32 coord.x
  let y ← convert .int32 coord.y
  let z ← convert .int32 coord.z
  pure ⟨x.toInt32, y.toInt32, z.toInt32⟩

/-- `coord_cast<ChunkCoord>`. -/
def chunkCoord (coord : EntityCoord) : Converting ChunkCoord := do
  let block ← blockCoord coord
  pure (coordCast block)

def angleByte (angle : FloatValue) : Converting (BitVec 8) := do
  let value ← convert .uint8 ((angle.scale 256).scale (1 / 360))
  pure value.toUInt8

def createSpawnPacket (state : PlayerState) : Converting ClientboundPacket := do
  let yaw ← angleByte state.yaw
  let pitch ← angleByte state.pitch
  pure (.spawnPlayer state.entityId state.uuid state.position.x state.position.y state.position.z
    yaw pitch [⟨0, .byte, .byte (metadataFlags state)⟩])

def createHeadLookPacket (state : PlayerState) : Converting ClientboundPacket := do
  let headYaw ← angleByte state.yaw
  pure (.entityHeadLook state.entityId headYaw)

/-- The step in units of a move packet is in the range that the guard asks for. -/
def inUnits (diff : EntityCoord) : Bool :=
  let min := FloatValue.finite (-32768)
  let max := FloatValue.finite 32767
  diff.withinOrdered ⟨min, min, min⟩ ⟨max, max, max⟩

def createMovePacket (state : PlayerState) (oldPosition : EntityCoord) (rotate : Bool) :
    Converting ClientboundPacket :=
  let diff := (state.position - oldPosition).scale 4096
  if !inUnits diff then do
    let yaw ← angleByte state.yaw
    let pitch ← angleByte state.pitch
    pure (.entityTeleport state.entityId state.position.x state.position.y state.position.z yaw
      pitch false)
  else if rotate then do
    let dx ← convert .int16 diff.x
    let dy ← convert .int16 diff.y
    let dz ← convert .int16 diff.z
    let yaw ← angleByte state.yaw
    let pitch ← angleByte state.pitch
    pure (.entityMoveRotation state.entityId dx.toInt16 dy.toInt16 dz.toInt16 yaw pitch false)
  else do
    let dx ← convert .int16 diff.x
    let dy ← convert .int16 diff.y
    let dz ← convert .int16 diff.z
    pure (.entityMove state.entityId dx.toInt16 dy.toInt16 dz.toInt16 false)

/-- The broadcast casts the position to the chunk once more. -/
def broadcastLocallyUnsafe (w : World) (this : StateMachinePtr) (packet : ClientboundPacket)
    (includeSelf : Bool) : Converting World := do
  let coord ← chunkCoord (w.player this).position
  let subscribers := w.tracker.subscribers coord
  pure (w.sendEach (if includeSelf then subscribers else subscribers.erase this) packet)

/-- All three packets are built, whoever they go to. -/
def onChunkTransition (w : World) (this : StateMachinePtr) (start target : ChunkCoord)
    (oldPosition : EntityCoord) (rotate : Bool) : Converting World := do
  let state := w.player this
  let vd := state.viewDistance
  let removedChunks := chunksOutside start target vd
  let addedChunks := chunksOutside target start vd
  let w := w.sendUnloads this removedChunks
  let w := w.sendChunks this addedChunks
  let w := w.sendPacket this (.updateViewPosition target.x target.z)
  let w := w.setTracker
    (((w.tracker.move start target this).unsubscribe removedChunks this).subscribe addedChunks this)
  let fromSubs := w.tracker.subscribers start
  let toSubs := w.tracker.subscribers target
  let movePacket ← createMovePacket state oldPosition rotate
  let spawnPacket ← createSpawnPacket state
  let headLookPacket ← createHeadLookPacket state
  let both := (fromSubs ∩ toSubs).erase this
  let w := w.sendEach both movePacket
  let w := if rotate then w.sendEach both headLookPacket else w
  let w := w.sendEach ((fromSubs \ toSubs).erase this) (createDespawnPacket state)
  pure (w.sendEach ((toSubs \ fromSubs).erase this) spawnPacket)

/-- The other branch of `onMove`. The head look is built before it is asked for. -/
def moveInChunk (w : World) (this : StateMachinePtr) (oldPosition : EntityCoord) (rotate : Bool) :
    Converting World := do
  let packet ← createHeadLookPacket (w.player this)
  let movePacket ← createMovePacket (w.player this) oldPosition rotate
  let w ← broadcastLocallyUnsafe w this movePacket false
  if rotate then broadcastLocallyUnsafe w this packet false else pure w

def onMove (w : World) (this : StateMachinePtr) (oldPosition : EntityCoord) (rotate : Bool) :
    Converting World := do
  let oldChunk ← chunkCoord oldPosition
  let newChunk ← chunkCoord (w.player this).position
  if newChunk ≠ oldChunk then onChunkTransition w this oldChunk newChunk oldPosition rotate
  else moveInChunk w this oldPosition rotate

end Converting

/-! ## The three packets -/

/-- What a client says about where it is. -/
inductive Movement where
  | position (x y z : FloatValue)
  | positionRotation (x y z yaw pitch : FloatValue)
  | rotation (yaw pitch : FloatValue)
  deriving DecidableEq

/-- The player with what the packet says. -/
def PlayerState.withMovement (s : PlayerState) : Movement → PlayerState
  | .position x y z => { s with position := ⟨x, y, z⟩ }
  | .positionRotation x y z yaw pitch => { s with position := ⟨x, y, z⟩, yaw, pitch }
  | .rotation yaw pitch => { s with yaw, pitch }

/-- A `PlayerPosition`, a `PlayerPositionRotation` or a `PlayerRotation` that decodes. -/
def movementOf (frame : PacketFrame) : Option Movement :=
  ((payloadOf packetPlayerPosition frame).map fun (x, y, z, _, ()) =>
    Movement.position (.ofFloat64 x) (.ofFloat64 y) (.ofFloat64 z)).or <|
  ((payloadOf packetPlayerPositionRotationClient frame).map fun (x, y, z, yaw, pitch, _, ()) =>
    Movement.positionRotation (.ofFloat64 x) (.ofFloat64 y) (.ofFloat64 z) (.ofFloat32 yaw)
      (.ofFloat32 pitch)).or <|
  (payloadOf packetPlayerRotation frame).map fun (yaw, pitch, _, ()) =>
    Movement.rotation (.ofFloat32 yaw) (.ofFloat32 pitch)

/-- What the packet does, and what it converts. -/
def Converting.onMovement (w : World) (this : StateMachinePtr) (m : Movement) : Converting World :=
  let state := (w.player this).withMovement m
  match m with
  | .position _ _ _ => Converting.onMove (w.setPlayer this state) this (w.player this).position false
  | .positionRotation _ _ _ _ _ =>
    Converting.onMove (w.setPlayer this state) this (w.player this).position true
  | .rotation _ _ => do
    let w := w.setPlayer this state
    let yaw ← Converting.angleByte state.yaw
    let pitch ← Converting.angleByte state.pitch
    let look ← Converting.createHeadLookPacket state
    let w ← Converting.broadcastLocallyUnsafe w this
      (.entityRotation state.entityId yaw pitch false) false
    Converting.broadcastLocallyUnsafe w this look false

/-! ## What they compute -/

@[simp] theorem World.broadcastLocallyUnsafe_player (w : World) (this : StateMachinePtr)
    (packet : ClientboundPacket) (includeSelf : Bool) :
    (w.broadcastLocallyUnsafe this packet includeSelf).player = w.player := rfl

namespace Converting

@[simp] theorem value_chunkCoord (coord : EntityCoord) :
    value (chunkCoord coord) = coordCast coord := rfl

@[simp] theorem value_createSpawnPacket (state : PlayerState) :
    value (createSpawnPacket state) = Vitamine.createSpawnPacket state := rfl

@[simp] theorem value_createHeadLookPacket (state : PlayerState) :
    value (createHeadLookPacket state) = Vitamine.createHeadLookPacket state := rfl

@[simp] theorem value_createMovePacket (state : PlayerState) (oldPosition : EntityCoord)
    (rotate : Bool) : value (createMovePacket state oldPosition rotate) =
      Vitamine.createMovePacket state oldPosition rotate := by
  rw [createMovePacket, value_ite, value_ite]
  rfl

@[simp] theorem value_broadcastLocallyUnsafe (w : World) (this : StateMachinePtr)
    (packet : ClientboundPacket) (includeSelf : Bool) :
    value (broadcastLocallyUnsafe w this packet includeSelf) =
      w.broadcastLocallyUnsafe this packet includeSelf := rfl

@[simp] theorem value_onChunkTransition (w : World) (this : StateMachinePtr)
    (start target : ChunkCoord) (oldPosition : EntityCoord) (rotate : Bool) :
    value (onChunkTransition w this start target oldPosition rotate) =
      w.onChunkTransition this start target oldPosition rotate := by
  simp only [onChunkTransition, value_bind, value_pure, value_createMovePacket,
    value_createSpawnPacket, value_createHeadLookPacket]
  rfl

@[simp] theorem value_moveInChunk (w : World) (this : StateMachinePtr) (oldPosition : EntityCoord)
    (rotate : Bool) : value (moveInChunk w this oldPosition rotate) =
      let w := w.broadcastLocallyUnsafe this
        (Vitamine.createMovePacket (w.player this) oldPosition rotate) false
      if rotate then w.broadcastLocallyUnsafe this (Vitamine.createHeadLookPacket (w.player this))
        false
      else w := by
  cases rotate <;> simp [moveInChunk]

@[simp] theorem value_onMove (w : World) (this : StateMachinePtr) (oldPosition : EntityCoord)
    (rotate : Bool) :
    value (onMove w this oldPosition rotate) = w.onMove this oldPosition rotate := by
  rw [onMove, value_bind, value_bind, value_chunkCoord, value_chunkCoord, value_ite,
    value_onChunkTransition, value_moveInChunk]
  rfl

end Converting

theorem movementOf_cases {frame : PacketFrame} {m : Movement} (hm : movementOf frame = some m) :
    (∃ packet, payloadOf packetPlayerPosition frame = some packet ∧
      .position (.ofFloat64 packet.1) (.ofFloat64 packet.2.1) (.ofFloat64 packet.2.2.1) = m) ∨
    (∃ packet, payloadOf packetPlayerPositionRotationClient frame = some packet ∧
      .positionRotation (.ofFloat64 packet.1) (.ofFloat64 packet.2.1) (.ofFloat64 packet.2.2.1)
        (.ofFloat32 packet.2.2.2.1) (.ofFloat32 packet.2.2.2.2.1) = m) ∨
    ∃ packet, payloadOf packetPlayerRotation frame = some packet ∧
      .rotation (.ofFloat32 packet.1) (.ofFloat32 packet.2.1) = m := by
  rw [movementOf, Option.or_eq_some_iff, Option.or_eq_some_iff] at hm
  rcases hm with hm | ⟨-, hm | ⟨-, hm⟩⟩
  · exact .inl (Option.map_eq_some_iff.mp hm)
  · exact .inr (.inl (Option.map_eq_some_iff.mp hm))
  · exact .inr (.inr (Option.map_eq_some_iff.mp hm))

/-- The packet does what the state machine does with it. -/
theorem value_onMovement {w : World} {this : StateMachinePtr} {frame : PacketFrame} {now : Int}
    {m : Movement} (hplay : w.phase this = .play) (hm : movementOf frame = some m) :
    value (Converting.onMovement (w.receive this frame now) this m) = w.onPacket this frame now := by
  rcases movementOf_cases hm with ⟨packet, hp, rfl⟩ | ⟨packet, hp, rfl⟩ | ⟨packet, hp, rfl⟩
  · rw [onPacket_of_playCase w this frame now hplay (i := 4) rfl hp]
    exact Converting.value_onMove ..
  · rw [onPacket_of_playCase w this frame now hplay (i := 5) rfl hp]
    exact Converting.value_onMove ..
  · rw [onPacket_of_playCase w this frame now hplay (i := 6) rfl hp]
    show _ = World.onPlayerRotation _ _ _ _
    rw [Converting.onMovement]
    simp only [value_bind, Converting.value_broadcastLocallyUnsafe,
      Converting.value_createHeadLookPacket, PlayerState.withMovement]
    rw [World.onPlayerRotation, World.setPlayer_player, Function.update_self]
    rfl

/-! ## When they fit -/

/-- A finite value between two bounds. -/
def FloatValue.Between (lo hi : ℚ) : FloatValue → Prop
  | .finite a => lo < a ∧ a < hi
  | _ => False

theorem fits_iff (target : IntType) (value : FloatValue) :
    Conversion.Fits ⟨target, value⟩ ↔ value.Between (target.min - 1) (target.max + 1) := by
  cases value with
  | finite a =>
    have hmin : target.min ≤ 0 := by cases target <;> decide
    have hmax : 0 ≤ target.max := by cases target <;> decide
    exact towardZero_mem_iff hmin hmax
  | infinite negative => rfl
  | nan => rfl

/-- Every coordinate is less than one outside the range of `Int32`. -/
def EntityCoord.InRange (p : EntityCoord) : Prop :=
  p.x.Between (-2 ^ 31 - 1) (2 ^ 31) ∧ p.y.Between (-2 ^ 31 - 1) (2 ^ 31) ∧
    p.z.Between (-2 ^ 31 - 1) (2 ^ 31)

/-- In degrees, what is less than one outside the range of a `UInt8` of 256 to the turn. -/
def AngleInRange (angle : FloatValue) : Prop := angle.Between (-45 / 32) 360

theorem fits_angle_iff (angle : FloatValue) :
    Conversion.Fits ⟨.uint8, (angle.scale 256).scale (1 / 360)⟩ ↔ AngleInRange angle := by
  rw [fits_iff, AngleInRange]
  cases angle with
  | finite a =>
    show ((0 : Int) : ℚ) - 1 < a * 256 * (1 / 360) ∧ a * 256 * (1 / 360) < ((255 : Int) : ℚ) + 1 ↔
      -45 / 32 < a ∧ a < 360
    push_cast
    constructor
    · rintro ⟨hl, hu⟩
      constructor <;> linarith
    · rintro ⟨hl, hu⟩
      constructor <;> linarith
  | infinite negative => rfl
  | nan => rfl

/-- The guard of `createMovePacket` is inside the range of an `Int16`. -/
theorem fits_int16_of_inUnits {diff : EntityCoord} (h : Converting.inUnits diff = true) :
    Conversion.Fits ⟨.int16, diff.x⟩ ∧ Conversion.Fits ⟨.int16, diff.y⟩ ∧
      Conversion.Fits ⟨.int16, diff.z⟩ := by
  have hfit : ∀ v : FloatValue, (FloatValue.finite (-32768)).le v = true →
      v.le (.finite 32767) = true → Conversion.Fits ⟨.int16, v⟩ := by
    intro v hl hu
    rw [fits_iff]
    cases v with
    | finite a =>
      have hl' : -32768 ≤ a := of_decide_eq_true hl
      have hu' : a ≤ 32767 := of_decide_eq_true hu
      show ((-2 ^ 15 : Int) : ℚ) - 1 < a ∧ a < ((2 ^ 15 - 1 : Int) : ℚ) + 1
      push_cast
      constructor <;> linarith
    | infinite negative => cases negative <;> simp [FloatValue.le] at hl hu
    | nan => simp [FloatValue.le] at hl
  simp only [Converting.inUnits, Vector3XYZ.withinOrdered, Bool.and_eq_true] at h
  obtain ⟨⟨⟨⟨⟨hxl, hxu⟩, hyl⟩, hyu⟩, hzl⟩, hzu⟩ := h
  exact ⟨hfit _ hxl hxu, hfit _ hyl hyu, hfit _ hzl hzu⟩

namespace Converting

@[simp] theorem all_convert (target : IntType) (value : FloatValue) :
    All Conversion.Fits (convert target value) ↔ Conversion.Fits ⟨target, value⟩ := by
  simp [convert]

@[simp] theorem value_convert (target : IntType) (v : FloatValue) :
    value (convert target v) = v := rfl

@[simp] theorem all_angleByte (angle : FloatValue) :
    All Conversion.Fits (angleByte angle) ↔ AngleInRange angle := by
  simp only [angleByte, all_bind, all_convert, all_pure, and_true, fits_angle_iff]

@[simp] theorem all_chunkCoord (coord : EntityCoord) :
    All Conversion.Fits (chunkCoord coord) ↔ coord.InRange := by
  have hbound : ∀ v : FloatValue, Conversion.Fits ⟨.int32, v⟩ ↔
      v.Between (-2 ^ 31 - 1) (2 ^ 31) := by
    intro v
    rw [fits_iff, IntType.min, IntType.max]
    norm_num
  simp only [chunkCoord, blockCoord, all_bind, all_convert, all_pure, and_true, hbound,
    EntityCoord.InRange]

@[simp] theorem all_createSpawnPacket (state : PlayerState) :
    All Conversion.Fits (createSpawnPacket state) ↔
      AngleInRange state.yaw ∧ AngleInRange state.pitch := by
  simp only [createSpawnPacket, all_bind, all_angleByte, all_pure, and_true]

@[simp] theorem all_createHeadLookPacket (state : PlayerState) :
    All Conversion.Fits (createHeadLookPacket state) ↔ AngleInRange state.yaw := by
  simp only [createHeadLookPacket, all_bind, all_angleByte, all_pure, and_true]

/-- The angles are converted for a teleport and for a rotation, and the steps always fit. -/
@[simp] theorem all_createMovePacket (state : PlayerState) (oldPosition : EntityCoord)
    (rotate : Bool) : All Conversion.Fits (createMovePacket state oldPosition rotate) ↔
      (rotate = true ∨ inUnits ((state.position - oldPosition).scale 4096) = false →
        AngleInRange state.yaw ∧ AngleInRange state.pitch) := by
  rw [createMovePacket]
  cases hin : inUnits ((state.position - oldPosition).scale 4096) with
  | false => simp
  | true =>
    have hfit := fits_int16_of_inUnits hin
    cases rotate <;> simp [hfit]

@[simp] theorem all_broadcastLocallyUnsafe (w : World) (this : StateMachinePtr)
    (packet : ClientboundPacket) (includeSelf : Bool) :
    All Conversion.Fits (broadcastLocallyUnsafe w this packet includeSelf) ↔
      (w.player this).position.InRange := by
  simp only [broadcastLocallyUnsafe, all_bind, all_chunkCoord, all_pure, and_true]

@[simp] theorem all_onChunkTransition (w : World) (this : StateMachinePtr)
    (start target : ChunkCoord) (oldPosition : EntityCoord) (rotate : Bool) :
    All Conversion.Fits (onChunkTransition w this start target oldPosition rotate) ↔
      AngleInRange (w.player this).yaw ∧ AngleInRange (w.player this).pitch := by
  simp only [onChunkTransition, all_bind, all_createMovePacket, all_createSpawnPacket,
    all_createHeadLookPacket, all_pure, and_true]
  tauto

/-- The yaw is converted for the head look, and both angles for the move packet if it has them. -/
@[simp] theorem all_moveInChunk (w : World) (this : StateMachinePtr) (oldPosition : EntityCoord)
    (rotate : Bool) :
    All Conversion.Fits (moveInChunk w this oldPosition rotate) ↔
      (w.player this).position.InRange ∧ AngleInRange (w.player this).yaw ∧
        (rotate = true ∨ inUnits (((w.player this).position - oldPosition).scale 4096) = false →
          AngleInRange (w.player this).pitch) := by
  cases rotate <;>
    simp only [moveInChunk, all_bind, all_createHeadLookPacket, all_createMovePacket,
      all_broadcastLocallyUnsafe, value_broadcastLocallyUnsafe,
      World.broadcastLocallyUnsafe_player, all_pure, if_true,
      Bool.false_eq_true, if_false, false_or, true_or, forall_const] <;>
    tauto

@[simp] theorem all_onMove (w : World) (this : StateMachinePtr) (oldPosition : EntityCoord)
    (rotate : Bool) :
    All Conversion.Fits (onMove w this oldPosition rotate) ↔
      oldPosition.InRange ∧ (w.player this).position.InRange ∧
        AngleInRange (w.player this).yaw ∧
        (rotate = true ∨ (w.player this).chunk ≠ coordCast oldPosition ∨
            inUnits (((w.player this).position - oldPosition).scale 4096) = false →
          AngleInRange (w.player this).pitch) := by
  rw [onMove, all_bind, all_bind, value_chunkCoord, value_chunkCoord, all_chunkCoord,
    all_chunkCoord, all_ite, all_onChunkTransition, all_moveInChunk, PlayerState.chunk]
  split_ifs with hchunk
  · tauto
  · tauto

end Converting

/-! ## All conversions of a packet -/

/-- The packet has both angles. -/
def Movement.rotates : Movement → Bool
  | .position _ _ _ => false
  | _ => true

/-- The coordinates before and after the packet are in range, and the angles after it are: the
yaw always, the pitch if it goes into a packet. That is if the packet has angles, if the player
comes into another chunk, or if the step is too long for a move packet. -/
def World.MovementInRange (w : World) (this : StateMachinePtr) (m : Movement) : Prop :=
  let old := w.player this
  let new := old.withMovement m
  old.position.InRange ∧ new.position.InRange ∧ AngleInRange new.yaw ∧
    (m.rotates = true ∨ new.chunk ≠ old.chunk ∨
        Converting.inUnits ((new.position - old.position).scale 4096) = false →
      AngleInRange new.pitch)

theorem all_onMovement (w : World) (this : StateMachinePtr) (m : Movement) :
    All Conversion.Fits (Converting.onMovement w this m) ↔ w.MovementInRange this m := by
  cases m with
  | position x y z =>
    rw [Converting.onMovement, Converting.all_onMove]
    simp [World.MovementInRange, Movement.rotates, PlayerState.chunk, PlayerState.withMovement]
  | positionRotation x y z yaw pitch =>
    rw [Converting.onMovement, Converting.all_onMove]
    simp [World.MovementInRange, Movement.rotates, PlayerState.chunk, PlayerState.withMovement]
  | rotation yaw pitch =>
    rw [Converting.onMovement]
    simp [World.MovementInRange, Movement.rotates, PlayerState.withMovement]
    tauto

/-- **The conversions of a movement packet fit** if and only if the positions and the angles that
it converts are in range. -/
theorem conversionsFit_iff (w : World) (this : StateMachinePtr) (frame : PacketFrame) (now : Int)
    (m : Movement) (hplay : w.phase this = .play) (hm : movementOf frame = some m) :
    value (Converting.onMovement (w.receive this frame now) this m) = w.onPacket this frame now ∧
      ((∀ c ∈ notes (Converting.onMovement (w.receive this frame now) this m), c.Fits) ↔
        w.MovementInRange this m) := by
  refine ⟨value_onMovement hplay hm, ?_⟩
  have hall := all_onMovement (w.receive this frame now) this m
  rw [World.MovementInRange, receive_player] at hall
  exact hall

/-- A `PlayerRotation` with the yaw 0 and the pitch of the pattern. -/
def lookFrame (pitch : BitVec 32) : PacketFrame :=
  ⟨0x13, serializeFloat 0#32 ++ serializeFloat pitch ++ [1]⟩

/-- A player that has joined. -/
def joinedServer : World := server.after emptyServer (joinSteps 0 2)

/-- It looks 45 degrees down. -/
theorem conversionsFit_iff_down :
    value (Converting.onMovement (joinedServer.receive 0 (lookFrame 0x42340000) 0) 0
        (.rotation (.finite 0) (.finite 45))) =
      joinedServer.onPacket 0 (lookFrame 0x42340000) 0 ∧
    ((∀ c ∈ notes (Converting.onMovement (joinedServer.receive 0 (lookFrame 0x42340000) 0) 0
        (.rotation (.finite 0) (.finite 45))), c.Fits) ↔
      joinedServer.MovementInRange 0 (.rotation (.finite 0) (.finite 45))) :=
  conversionsFit_iff joinedServer 0 (lookFrame 0x42340000) 0 (.rotation (.finite 0) (.finite 45))
    (by decide +kernel) (by decide +kernel)

/-- It looks straight up, 90 degrees: the pitch is converted from -64. -/
theorem not_conversionsFit_up :
    joinedServer.phase 0 = .play ∧
      movementOf (lookFrame 0xc2b40000) = some (.rotation (.finite 0) (.finite (-90))) ∧
      ¬ ∀ c ∈ notes (Converting.onMovement (joinedServer.receive 0 (lookFrame 0xc2b40000) 0) 0
        (.rotation (.finite 0) (.finite (-90)))), c.Fits := by
  refine ⟨by decide +kernel, by decide +kernel, fun h => ?_⟩
  have hfits := (all_onMovement _ 0 (.rotation (.finite 0) (.finite (-90)))).mp h
  have hpitch : AngleInRange (.finite (-90)) := hfits.2.2.2 (.inl rfl)
  exact absurd hpitch.1 (by norm_num)

end Vitamine
