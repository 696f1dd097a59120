import Vitamine.Proxyd.Steps

/-!
# What no handler touches

The reader and the two clocks of a state machine: `onPacket` and `onTick` write a clock themselves,
`onBytesReceived` the reader, and no handler anything of them (`fixed_handle`).
-/

namespace Vitamine

open Wire

/-- The reader and the clocks are the same. -/
structure StateMachine.Fixed (m m' : StateMachine) : Prop where
  reader : m'.reader = m.reader
  lastPacketTime : m'.lastPacketTime = m.lastPacketTime
  lastKeepAliveSentTime : m'.lastKeepAliveSentTime = m.lastKeepAliveSentTime

theorem StateMachine.Fixed.refl (m : StateMachine) : m.Fixed m := ⟨rfl, rfl, rfl⟩

/-- The readers and the clocks of all state machines are the same. -/
def Fixed (w w' : World) : Prop := ∀ p, (w.machine p).Fixed (w'.machine p)

section Handlers

variable {w w' w'' : World} {this : StateMachinePtr} {frame : PacketFrame}

theorem fixed_of_machine (h : w'.machine = w.machine) : Fixed w w' :=
  fun p => by rw [h]; exact .refl _

theorem Fixed.trans (h : Fixed w w') (h' : Fixed w' w'') : Fixed w w'' := fun p =>
  ⟨(h' p).reader.trans (h p).reader, (h' p).lastPacketTime.trans (h p).lastPacketTime,
    (h' p).lastKeepAliveSentTime.trans (h p).lastKeepAliveSentTime⟩

theorem fixed_setMachine {m : StateMachine} (h : (w.machine this).Fixed m) :
    Fixed w (w.setMachine this m) := by
  intro p
  rw [World.setMachine_machine]
  by_cases hp : p = this
  · subst hp
    rwa [Function.update_self]
  · rw [Function.update_of_ne hp]
    exact .refl _

theorem fixed_setPlayer (s : PlayerState) : Fixed w (w.setPlayer this s) :=
  fixed_setMachine ⟨rfl, rfl, rfl⟩

theorem fixed_setPhase (phase : ClientPhase) : Fixed w (w.setPhase this phase) :=
  fixed_setMachine ⟨rfl, rfl, rfl⟩

theorem fixed_disconnectWith (message : Bytes) :
    Fixed w (w.disconnectWith this message) := by
  unfold World.disconnectWith
  by_cases h : w.phase this = .play
  · simp only [if_pos h]
    exact fixed_of_machine rfl
  · simp only [if_neg h]
    exact fixed_of_machine rfl

theorem fixed_onHandshake (version nextState : BitVec 32) :
    Fixed w (w.onHandshake this version nextState) := by
  unfold World.onHandshake
  split_ifs
  · exact fixed_disconnectWith _
  · exact fixed_setPhase _
  · exact fixed_setPhase _
  · exact fixed_disconnectWith _

theorem fixed_onLoginStart (name : Bytes) : Fixed w (w.onLoginStart this name) :=
  (fixed_setPlayer (w.loggedIn this name)).trans
    ((fixed_of_machine rfl).trans (fixed_setPhase .playInit))

theorem fixed_onTeleportConfirm (id : BitVec 32) :
    Fixed w (w.onTeleportConfirm this id) := by
  have hset : Fixed w (w.setPlayer this ((w.player this).confirmTeleport id).2) :=
    fixed_setPlayer _
  have hplay : ∀ w : World, Fixed w (w.enterPlay this) := fun w =>
    (fixed_of_machine rfl).trans (fixed_setPhase .play)
  unfold World.onTeleportConfirm
  simp only
  split_ifs
  · exact hset.trans ((fixed_disconnectWith _).trans (hplay _))
  · exact hset.trans (hplay _)

theorem fixed_onPluginMessage (channel data : Bytes) :
    Fixed w (w.onPluginMessage this channel data) := by
  unfold World.onPluginMessage
  split
  · split
    · split
      · exact fixed_of_machine rfl
      · exact fixed_setPlayer _
    · exact fixed_of_machine rfl
  · exact fixed_of_machine rfl

theorem sendChunks_machine (w : World) (coords : List ChunkCoord) :
    (w.sendChunks this coords).machine = w.machine := by
  rw [World.sendChunks_eq]

theorem fixed_onClientSettingsChange (packet : ClientSettingsPacket) :
    Fixed w (w.onClientSettingsChange this packet) := by
  rw [World.onClientSettingsChange_eq]
  exact (fixed_setPlayer _).trans (fixed_of_machine (sendChunks_machine _ _))

theorem fixed_onSettingsInPlayInit (packet : ClientSettingsPacket) :
    Fixed w (w.onSettingsInPlayInit this packet) :=
  (fixed_onClientSettingsChange packet).trans
    ((fixed_of_machine (sendChunks_machine _ _)).trans
      ((fixed_setPlayer _).trans (fixed_of_machine rfl)))

theorem fixed_onChat (message : Bytes) : Fixed w (w.onChat this message) := by
  unfold World.onChat
  split_ifs
  · exact fixed_disconnectWith _
  · exact fixed_of_machine rfl

theorem fixed_onCloseWindow (windowId : BitVec 8) :
    Fixed w (w.onCloseWindow this windowId) := by
  unfold World.onCloseWindow
  split_ifs
  · exact fixed_disconnectWith _
  · exact fixed_setPlayer _
  · exact fixed_of_machine rfl

theorem onChunkTransition_machine (w : World) (start target : ChunkCoord)
    (oldPosition : EntityCoord) (rotate : Bool) :
    (w.onChunkTransition this start target oldPosition rotate).machine = w.machine := by
  unfold World.onChunkTransition
  cases rotate <;> simp [World.sendPacket, World.sendUnloads, sendChunks_machine]

theorem fixed_onMove {s : PlayerState} (oldPosition : EntityCoord) (rotate : Bool) :
    Fixed w ((w.setPlayer this s).onMove this oldPosition rotate) := by
  have hset : Fixed w (w.setPlayer this s) := fixed_setPlayer s
  refine hset.trans ?_
  unfold World.onMove
  simp only
  split_ifs
  · exact fixed_of_machine (onChunkTransition_machine _ _ _ _ _)
  · exact fixed_of_machine rfl
  · exact fixed_of_machine rfl

theorem fixed_startDigging (location : BitVec 64) :
    Fixed w (w.startDigging this location) := by
  unfold World.startDigging
  split
  · exact fixed_of_machine rfl
  split
  · exact fixed_of_machine rfl
  · exact fixed_of_machine rfl
  · exact fixed_of_machine rfl

theorem fixed_onPlayerDigging (status : BitVec 32) (location : BitVec 64) (face : BitVec 8) :
    Fixed w (w.onPlayerDigging this status location face) := by
  unfold World.onPlayerDigging
  split_ifs
  · exact fixed_disconnectWith _
  · exact fixed_disconnectWith _
  · exact fixed_startDigging location
  · exact fixed_of_machine rfl

theorem fixed_onEntityAction (entityId actionId : BitVec 32) :
    Fixed w (w.onEntityAction this entityId actionId) := by
  refine onEntityAction_cases entityId actionId (fixed_of_machine rfl)
    (fun _ => fixed_disconnectWith _) fun invalid already done set _ => ?_
  unfold World.switchAction
  split_ifs
  · exact fixed_disconnectWith _
  · exact fixed_disconnectWith _
  · exact (fixed_setPlayer _).trans (fixed_of_machine rfl)

theorem fixed_onHeldItemChange (slot : BitVec 16) :
    Fixed w (w.onHeldItemChange this slot) := by
  unfold World.onHeldItemChange
  split_ifs
  · exact fixed_disconnectWith _
  · exact fixed_setPlayer _

theorem fixed_onAnimation (hand : BitVec 32) : Fixed w (w.onAnimation this hand) := by
  unfold World.onAnimation
  split_ifs
  · exact fixed_disconnectWith _
  all_goals exact fixed_of_machine rfl

theorem fixed_onUseItem (hand : BitVec 32) : Fixed w (w.onUseItem this hand) := by
  unfold World.onUseItem
  split_ifs
  · exact fixed_disconnectWith _
  · exact fixed_of_machine rfl

/-- **No handler touches a reader or a clock.** -/
theorem fixed_handle : Fixed w (w.handle this frame) := by
  cases hphase : w.phase this with
  | initial =>
    rcases @handle_initial_cases w this frame hphase with he | ⟨version, nextState, he⟩ <;> rw [he]
    · exact fixed_of_machine rfl
    · exact fixed_onHandshake version nextState
  | login =>
    rcases @handle_login_cases w this frame hphase with he | ⟨name, -, he⟩ <;> rw [he]
    · exact fixed_of_machine rfl
    · exact fixed_onLoginStart name
  | playInit =>
    rcases @handle_playInit_cases w this frame hphase with ⟨-, he | he⟩ | ⟨c, hc, packet, -, he⟩ <;>
      rw [he]
    · exact fixed_of_machine rfl
    · exact fixed_of_machine rfl
    · simp only [World.playInitCases, List.mem_cons, List.not_mem_nil, or_false] at hc
      rcases hc with rfl | rfl | rfl | rfl
      · exact fixed_of_machine rfl
      · exact fixed_onTeleportConfirm _
      · exact fixed_onPluginMessage _ _
      · exact fixed_onSettingsInPlayInit _
  | play =>
    rcases @handle_play_cases w this frame hphase with ⟨-, he | he⟩ | ⟨c, hc, packet, -, he⟩ <;>
      rw [he]
    · exact fixed_of_machine rfl
    · exact fixed_of_machine rfl
    · simp only [World.playCases, List.mem_cons, List.not_mem_nil, or_false] at hc
      rcases hc with rfl | rfl | rfl | rfl | rfl | rfl | rfl | rfl | rfl | rfl | rfl | rfl | rfl |
        rfl | rfl
      · exact fixed_onChat _
      · exact fixed_onClientSettingsChange _
      · exact fixed_onCloseWindow _
      · exact fixed_of_machine rfl
      · exact fixed_onMove _ _
      · exact fixed_onMove _ _
      · exact (fixed_setPlayer _).trans (fixed_of_machine rfl)
      · exact fixed_of_machine rfl
      · exact fixed_of_machine rfl
      · exact fixed_setPlayer _
      · exact fixed_onPlayerDigging _ _ _
      · exact fixed_onEntityAction _ _
      · exact fixed_onHeldItemChange _
      · exact fixed_onAnimation _
      · exact fixed_onUseItem _
  | status =>
    rw [World.handle, hphase]
    exact fixed_of_machine rfl

theorem fixed_destroy : Fixed w (w.destroy this) := by
  unfold World.destroy
  by_cases h : w.phase this = .play
  · simp only [if_pos h]
    exact fixed_of_machine rfl
  · simp only [if_neg h]
    exact fixed_of_machine rfl

theorem onTick_machine_ne (w : World) (now : Int) {p : StateMachinePtr} (h : p ≠ this) :
    (w.onTick this now).machine p = w.machine p := by
  unfold World.onTick
  split_ifs
  · unfold World.disconnectWith
    simp only
    split <;> rfl
  · simp [World.sendPacket, h]
  · rfl
  · rfl

end Handlers

end Vitamine
