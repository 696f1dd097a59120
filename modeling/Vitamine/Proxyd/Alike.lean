import Vitamine.Proxyd.Finality

/-!
# Worlds that differ in their readers

Nothing that handles a frame or a tick looks at the reader of a connection, or asks whether
`disconnect()` was called on it. Two worlds that differ in these only are `Alike`, and every step of
the server leaves them so.

* `hide_…`: what does not call `disconnect()` does not touch what is hidden.
* `alike_…`: one lemma for each handler, put together by `switchFrame_rel`.
* `alike_next`: a step of the server.
-/

namespace Vitamine

open Wire

/-- The world with other readers, and with other connections that `disconnect()` was called on. -/
def World.hide (w : World) (readers : StateMachinePtr → PacketReader)
    (disconnecting : StateMachinePtr → Bool) : World :=
  { w with
    machine := fun p => { w.machine p with reader := readers p }
    disconnecting }

/-- The second world is the first but for what is hidden. -/
def Alike (w w' : World) : Prop := ∃ readers disconnecting, w' = w.hide readers disconnecting

section Writes

variable (w : World) (r : StateMachinePtr → PacketReader) (d : StateMachinePtr → Bool)
  (this : StateMachinePtr)

namespace World

theorem hide_self : w.hide (fun p => (w.machine p).reader) w.disconnecting = w := rfl

@[simp] theorem hide_globalState : (w.hide r d).globalState = w.globalState := rfl
@[simp] theorem hide_tracker : (w.hide r d).tracker = w.tracker := rfl
@[simp] theorem hide_player : (w.hide r d).player = w.player := rfl
@[simp] theorem hide_phase : (w.hide r d).phase = w.phase := rfl
@[simp] theorem hide_life : (w.hide r d).life = w.life := rfl
@[simp] theorem hide_traffic : (w.hide r d).traffic = w.traffic := rfl

theorem hide_setMachine_update (m : StateMachine) : (w.hide r d).setMachine this m =
    (w.setMachine this m).hide (Function.update r this m.reader) d := by
  unfold setMachine hide
  congr 1
  funext p
  by_cases h : p = this
  · subst h
    simp
  · simp [h]

/-- A write of other fields of a state machine than its reader. -/
theorem hide_setMachine (m : StateMachine) :
    (w.hide r d).setMachine this { m with reader := r this } = (w.setMachine this m).hide r d := by
  rw [hide_setMachine_update, Function.update_eq_self]
  unfold setMachine hide
  congr 1
  funext p
  by_cases h : p = this
  · subst h
    simp
  · simp [h]

@[simp] theorem hide_setPlayer (s : PlayerState) :
    (w.hide r d).setPlayer this s = (w.setPlayer this s).hide r d :=
  w.hide_setMachine r d this { w.machine this with playerState := s }

@[simp] theorem hide_setPhase (phase : ClientPhase) :
    (w.hide r d).setPhase this phase = (w.setPhase this phase).hide r d :=
  w.hide_setMachine r d this { w.machine this with phase }

@[simp] theorem hide_setTracker (t : PlayerTracker StateMachinePtr) :
    (w.hide r d).setTracker t = (w.setTracker t).hide r d := rfl

@[simp] theorem hide_setPlayers (players : Finset StateMachinePtr) :
    (w.hide r d).setPlayers players = (w.setPlayers players).hide r d := rfl

@[simp] theorem hide_setNextEntityId (id : EntityId) :
    (w.hide r d).setNextEntityId id = (w.setNextEntityId id).hide r d := rfl

@[simp] theorem hide_setChunk (c : ChunkCoord) (chunk : Chunk) :
    (w.hide r d).setChunk c chunk = (w.setChunk c chunk).hide r d := rfl

@[simp] theorem hide_sendEach (targets : Finset StateMachinePtr) (packet : ClientboundPacket) :
    (w.hide r d).sendEach targets packet = (w.sendEach targets packet).hide r d := rfl

@[simp] theorem hide_sendAll (packets : List ClientboundPacket) :
    (w.hide r d).sendAll this packets = (w.sendAll this packets).hide r d := rfl

@[simp] theorem hide_sendPacket (packet : ClientboundPacket) :
    (w.hide r d).sendPacket this packet = (w.sendPacket this packet).hide r d := rfl

@[simp] theorem hide_broadcastGloballyUnsafe (packet : ClientboundPacket) (includeSelf : Bool) :
    (w.hide r d).broadcastGloballyUnsafe this packet includeSelf =
      (w.broadcastGloballyUnsafe this packet includeSelf).hide r d := rfl

@[simp] theorem hide_broadcastLocallyUnsafe (packet : ClientboundPacket) (includeSelf : Bool) :
    (w.hide r d).broadcastLocallyUnsafe this packet includeSelf =
      (w.broadcastLocallyUnsafe this packet includeSelf).hide r d := rfl

@[simp] theorem hide_sendUnloads (coords : List ChunkCoord) :
    (w.hide r d).sendUnloads this coords = (w.sendUnloads this coords).hide r d := rfl

@[simp] theorem hide_sendChunks (coords : List ChunkCoord) :
    (w.hide r d).sendChunks this coords = (w.sendChunks this coords).hide r d := by
  rw [sendChunks_eq, sendChunks_eq]
  rfl

@[simp] theorem hide_onClientSettingsChange (packet : ClientSettingsPacket) :
    (w.hide r d).onClientSettingsChange this packet =
      (w.onClientSettingsChange this packet).hide r d := by
  unfold onClientSettingsChange
  simp only [hide_player, hide_globalState, hide_setPlayer, hide_tracker, hide_setTracker,
    hide_sendUnloads, hide_sendChunks]
  split_ifs <;> rfl

@[simp] theorem hide_onSettingsInPlayInit (packet : ClientSettingsPacket) :
    (w.hide r d).onSettingsInPlayInit this packet =
      (w.onSettingsInPlayInit this packet).hide r d := by
  unfold onSettingsInPlayInit
  simp only [hide_onClientSettingsChange, hide_player, hide_sendChunks, hide_sendPacket,
    hide_setPlayer]

@[simp] theorem hide_onChunkTransition (start target : ChunkCoord) (oldPosition : EntityCoord)
    (rotate : Bool) : (w.hide r d).onChunkTransition this start target oldPosition rotate =
      (w.onChunkTransition this start target oldPosition rotate).hide r d := by
  unfold onChunkTransition
  simp only [hide_player, hide_sendUnloads, hide_sendChunks, hide_sendPacket, hide_tracker,
    hide_setTracker, hide_sendEach]
  split_ifs <;> rfl

@[simp] theorem hide_onMove (oldPosition : EntityCoord) (rotate : Bool) :
    (w.hide r d).onMove this oldPosition rotate = (w.onMove this oldPosition rotate).hide r d := by
  unfold onMove
  simp only [hide_player, hide_onChunkTransition, hide_broadcastLocallyUnsafe]
  split_ifs <;> rfl

@[simp] theorem hide_onLoginStart (name : Bytes) :
    (w.hide r d).onLoginStart this name = (w.onLoginStart this name).hide r d := by
  unfold onLoginStart loggedIn
  simp only [hide_player, hide_globalState, hide_setPlayer, hide_setNextEntityId, hide_sendPacket,
    hide_setPlayers, hide_broadcastGloballyUnsafe, hide_setPhase]

@[simp] theorem hide_enterPlay :
    (w.hide r d).enterPlay this = (w.enterPlay this).hide r d := by
  unfold enterPlay
  simp only [hide_player, hide_tracker, hide_setTracker, hide_broadcastLocallyUnsafe,
    hide_sendAll, hide_setPhase]

@[simp] theorem hide_switchSet (set : PlayerState → PlayerState) :
    ((w.setPlayer this (set (w.player this))).sendMetadataUpdate this).hide r d =
      ((w.hide r d).setPlayer this (set (w.player this))).sendMetadataUpdate this := by
  rw [hide_setPlayer]
  rfl

@[simp] theorem hide_receive (frame : PacketFrame) (now : Int) :
    (w.hide r d).receive this frame now = (w.receive this frame now).hide r d := by
  let received : World := { w with
    traffic := Function.update w.traffic this
      (w.traffic this ++ [Traffic.received (w.phase this) frame]) }
  exact received.hide_setMachine r d this { w.machine this with lastPacketTime := now }

@[simp] theorem hide_leavePlay : (w.hide r d).leavePlay this = (w.leavePlay this).hide r d := rfl

@[simp] theorem hide_destroy : (w.hide r d).destroy this = (w.destroy this).hide r d := by
  have hleave : (if (w.hide r d).phase this = .play then (w.hide r d).leavePlay this
      else w.hide r d) = (if w.phase this = .play then w.leavePlay this else w).hide r d := by
    rw [hide_phase]
    split_ifs <;> rfl
  unfold destroy
  rw [hleave]
  rfl

end World

end Writes

/-! ## The handlers -/

theorem Alike.refl (w : World) : Alike w w := ⟨_, _, w.hide_self.symm⟩

theorem Alike.hide (w : World) (r : StateMachinePtr → PacketReader) (d : StateMachinePtr → Bool) :
    Alike w (w.hide r d) := ⟨r, d, rfl⟩

theorem Alike.trans {w w' w'' : World} (h : Alike w w') (h' : Alike w' w'') : Alike w w'' := by
  obtain ⟨r, d, rfl⟩ := h
  obtain ⟨r', d', rfl⟩ := h'
  exact ⟨r', d', rfl⟩

section Handlers

variable {w : World} {r : StateMachinePtr → PacketReader} {d : StateMachinePtr → Bool}
  {this : StateMachinePtr}

theorem alike_disconnect : Alike (w.disconnect this) ((w.hide r d).disconnect this) :=
  ⟨r, Function.update d this true, rfl⟩

theorem alike_disconnectWith (message : Bytes) :
    Alike (w.disconnectWith this message) ((w.hide r d).disconnectWith this message) := by
  unfold World.disconnectWith
  rw [World.hide_phase]
  split <;> exact alike_disconnect

theorem alike_onHandshake (version nextState : BitVec 32) :
    Alike (w.onHandshake this version nextState)
      ((w.hide r d).onHandshake this version nextState) := by
  unfold World.onHandshake
  simp only [World.hide_setPhase]
  split_ifs
  · exact alike_disconnectWith _
  · exact .hide ..
  · exact .hide ..
  · exact alike_disconnectWith _

/-- There is no `return` after the disconnect of a confirmation. -/
theorem alike_onTeleportConfirm (id : BitVec 32) :
    Alike (w.onTeleportConfirm this id) ((w.hide r d).onTeleportConfirm this id) := by
  have henter : ∀ {w₁ w₂ : World}, Alike w₁ w₂ → Alike (w₁.enterPlay this) (w₂.enterPlay this) := by
    rintro w₁ _ ⟨r', d', rfl⟩
    rw [World.hide_enterPlay]
    exact .hide ..
  unfold World.onTeleportConfirm
  simp only [World.hide_player, World.hide_setPlayer]
  apply henter
  split_ifs
  · exact alike_disconnectWith _
  · exact .hide ..

theorem alike_onPluginMessage (channel data : Bytes) :
    Alike (w.onPluginMessage this channel data) ((w.hide r d).onPluginMessage this channel data) := by
  unfold World.onPluginMessage
  simp only [World.hide_player, World.hide_setPlayer]
  split
  · split
    · split
      · exact alike_disconnect
      · exact .hide ..
    · exact alike_disconnect
  · exact .hide ..

theorem alike_onChat (message : Bytes) :
    Alike (w.onChat this message) ((w.hide r d).onChat this message) := by
  unfold World.onChat
  split
  · exact alike_disconnectWith _
  · exact .hide ..

theorem alike_onCloseWindow (windowId : BitVec 8) :
    Alike (w.onCloseWindow this windowId) ((w.hide r d).onCloseWindow this windowId) := by
  unfold World.onCloseWindow
  simp only [World.hide_player, World.hide_setPlayer]
  split_ifs
  · exact alike_disconnectWith _
  · exact .hide ..
  · exact .hide ..

theorem alike_onMove (s : PlayerState) (oldPosition : EntityCoord) (rotate : Bool) :
    Alike ((w.setPlayer this s).onMove this oldPosition rotate)
      (((w.hide r d).setPlayer this s).onMove this oldPosition rotate) := by
  rw [World.hide_setPlayer, World.hide_onMove]
  exact .hide ..

theorem alike_onPlayerRotation (yaw pitch : FloatValue) :
    Alike (w.onPlayerRotation this yaw pitch) ((w.hide r d).onPlayerRotation this yaw pitch) := by
  unfold World.onPlayerRotation
  simp only [World.hide_player, World.hide_setPlayer]
  exact .hide ..

theorem alike_onPlayerAbilities (flags : BitVec 8) (flyingSpeed walkingSpeed : FloatValue) :
    Alike (w.onPlayerAbilities this flags flyingSpeed walkingSpeed)
      ((w.hide r d).onPlayerAbilities this flags flyingSpeed walkingSpeed) := by
  unfold World.onPlayerAbilities
  rw [World.hide_player, World.hide_setPlayer]
  exact .hide ..

theorem alike_startDigging (location : BitVec 64) :
    Alike (w.startDigging this location) ((w.hide r d).startDigging this location) := by
  unfold World.startDigging
  rw [World.hide_globalState]
  split
  · exact alike_disconnect
  · split <;> exact .hide ..

theorem alike_onPlayerDigging (status : BitVec 32) (location : BitVec 64) (face : BitVec 8) :
    Alike (w.onPlayerDigging this status location face)
      ((w.hide r d).onPlayerDigging this status location face) := by
  unfold World.onPlayerDigging
  split_ifs
  · exact alike_disconnectWith _
  · exact alike_disconnectWith _
  · exact alike_startDigging location
  · exact .hide ..

theorem alike_switchAction (entityId : BitVec 32) (invalid already : String) (done : Bool)
    (set : PlayerState → PlayerState) :
    Alike (w.switchAction this entityId invalid already done set)
      ((w.hide r d).switchAction this entityId invalid already done set) := by
  unfold World.switchAction
  rw [World.hide_player]
  split_ifs
  · exact alike_disconnectWith _
  · exact alike_disconnectWith _
  · rw [← World.hide_switchSet]
    exact .hide ..

theorem alike_onEntityAction (entityId actionId : BitVec 32) :
    Alike (w.onEntityAction this entityId actionId)
      ((w.hide r d).onEntityAction this entityId actionId) := by
  unfold World.onEntityAction
  simp only [World.hide_player]
  split_ifs
  · exact alike_switchAction ..
  · exact alike_switchAction ..
  · exact .hide ..
  · exact alike_switchAction ..
  · exact alike_switchAction ..
  · exact .hide ..
  · exact alike_disconnectWith _

theorem alike_onHeldItemChange (slot : BitVec 16) :
    Alike (w.onHeldItemChange this slot) ((w.hide r d).onHeldItemChange this slot) := by
  unfold World.onHeldItemChange
  rw [World.hide_player, World.hide_setPlayer]
  split_ifs
  · exact alike_disconnectWith _
  · exact .hide ..

theorem alike_onAnimation (hand : BitVec 32) :
    Alike (w.onAnimation this hand) ((w.hide r d).onAnimation this hand) := by
  unfold World.onAnimation
  split
  · exact alike_disconnectWith _
  · exact .hide ..

theorem alike_onUseItem (hand : BitVec 32) :
    Alike (w.onUseItem this hand) ((w.hide r d).onUseItem this hand) := by
  unfold World.onUseItem
  split_ifs
  · exact alike_disconnectWith _
  · exact .hide ..

/-! ## The phases -/

theorem alike_playInitCases :
    CasesRel Alike (w.playInitCases this) ((w.hide r d).playInitCases this) :=
  .cons (fun _ => .hide ..) <|
  .cons (fun packet => alike_onTeleportConfirm packet.1) <|
  .cons (fun packet => alike_onPluginMessage packet.1 packet.2.1) <|
  .cons (fun _ => ⟨r, d, w.hide_onSettingsInPlayInit ..⟩) .nil

theorem alike_playCases : CasesRel Alike (w.playCases this) ((w.hide r d).playCases this) :=
  .cons (fun packet => alike_onChat packet.1) <|
  .cons (fun _ => ⟨r, d, w.hide_onClientSettingsChange ..⟩) <|
  .cons (fun packet => alike_onCloseWindow packet.1) <|
  .cons (fun _ => .hide ..) <|
  .cons (fun _ => alike_onMove _ _ false) <|
  .cons (fun _ => alike_onMove _ _ true) <|
  .cons (fun _ => alike_onPlayerRotation _ _) <|
  .cons (fun _ => .hide ..) <|
  .cons (fun _ => .hide ..) <|
  .cons (fun _ => alike_onPlayerAbilities _ _ _) <|
  .cons (fun _ => alike_onPlayerDigging _ _ _) <|
  .cons (fun _ => alike_onEntityAction _ _) <|
  .cons (fun _ => alike_onHeldItemChange _) <|
  .cons (fun _ => alike_onAnimation _) <|
  .cons (fun _ => alike_onUseItem _) .nil

theorem alike_handle (frame : PacketFrame) :
    Alike (w.handle this frame) ((w.hide r d).handle this frame) := by
  unfold World.handle
  rw [World.hide_phase]
  cases w.phase this with
  | initial =>
    exact switchFrame_rel (.cons (fun _ => alike_onHandshake _ _) .nil) alike_disconnect
      alike_disconnect
  | login =>
    exact switchFrame_rel (.cons (fun _ => ⟨r, d, w.hide_onLoginStart ..⟩) .nil) alike_disconnect
      alike_disconnect
  | playInit => exact switchFrame_rel alike_playInitCases alike_disconnect (.hide ..)
  | play => exact switchFrame_rel alike_playCases alike_disconnect (.hide ..)
  | status => exact alike_disconnect

theorem Alike.ite {w₁ w₂ w₁' w₂' : World} {c : Prop} [Decidable c] (h₁ : Alike w₁ w₁')
    (h₂ : Alike w₂ w₂') : Alike (if c then w₁ else w₂) (if c then w₁' else w₂') := by
  split
  · exact h₁
  · exact h₂

theorem alike_onTick (now : Int) : Alike (w.onTick this now) ((w.hide r d).onTick this now) := by
  have hkeep : (w.hide r d).setMachine this
      { (w.hide r d).machine this with lastKeepAliveSentTime := now } =
        (w.setMachine this { w.machine this with lastKeepAliveSentTime := now }).hide r d :=
    w.hide_setMachine r d this { w.machine this with lastKeepAliveSentTime := now }
  unfold World.onTick
  rw [hkeep]
  exact .ite (alike_disconnectWith _) (.ite (.ite (.hide ..) (.hide ..)) (.hide ..))

theorem alike_connect (clientSettings : ClientSettings) (entityId : EntityId) (now : Int) :
    Alike (w.connect this clientSettings entityId now)
      ((w.hide r d).connect this clientSettings entityId now) := by
  refine ⟨Function.update r this ⟨[]⟩, d, ?_⟩
  unfold World.connect
  rw [World.hide_setMachine_update]
  rfl

end Handlers

/-! ## The steps of the server -/

section Steps

variable {w w' : World}

/-- **A step of the server does not look at what is hidden.** -/
theorem alike_next (h : Alike w w') (step : ServerStep) :
    Alike (server.next w step) (server.next w' step) := by
  obtain ⟨r, d, rfl⟩ := h
  cases step with
  | connect this clientSettings entityId now => exact alike_connect clientSettings entityId now
  | packet this frame now =>
    rw [next_packet, next_packet, World.hide_receive]
    exact alike_handle frame
  | error => exact ⟨_, _, rfl⟩
  | tick this now => exact alike_onTick now
  | disconnect this =>
    rw [next_disconnect, next_disconnect, World.hide_destroy]
    exact .hide ..

theorem Alike.enabled (h : Alike w w') (step : ServerStep) :
    server.enabled w' step ↔ server.enabled w step := by
  obtain ⟨r, d, rfl⟩ := h
  cases step <;> rfl

end Steps

end Vitamine
