import Vitamine.Proxyd.Fixed
import Vitamine.Proxyd.Session
import Vitamine.Proxyd.Stored

/-!
# What a client is refused, and why

* `Seated`: a state machine is where the session of its connection is.
* `Steady`: a handler that disconnects nobody and changes nothing that the rules look at, with one
  lemma for each handler.
* `handle_ruled`: a frame is handled as the rule book says.
* `rulings_of_run`: over whole runs, whatever the other connections do.
-/

namespace Vitamine

open Wire System

namespace ClientboundPacket

/-- The reason of a disconnect. -/
def reason? : ClientboundPacket → Option Bytes
  | .disconnect reason => some reason
  | .disconnectLogin reason => some reason
  | _ => none

/-- The session does not go on with the packet, and it gives no reason. -/
def Usual (k : ClientboundPacket) : Prop := k.reason? = none ∧ ∀ s : Session, s.onSent k = s

theorem usual_of_updates {k : ClientboundPacket} {id : EntityId} (h : k.updates = some id) :
    k.Usual := by
  cases k with
  | joinGame => cases h
  | playerPositionLookServer => cases h
  | disconnect => cases h
  | disconnectLogin => cases h
  | _ => exact ⟨rfl, fun _ => rfl⟩

end ClientboundPacket

open ClientboundPacket (Usual)

theorem usual_broadcast {k : ClientboundPacket} (h : Broadcast k) : k.Usual := by
  cases h with
  | update hid => exact ClientboundPacket.usual_of_updates hid
  | _ => exact ⟨rfl, fun _ => rfl⟩

/-- What the rules look at of a player. -/
structure PlayerState.Stays (s s' : PlayerState) : Prop where
  entityId : s'.entityId = s.entityId
  outstandingTeleportIds : s'.outstandingTeleportIds = s.outstandingTeleportIds
  crouching : s'.crouching = s.crouching
  sprinting : s'.sprinting = s.sprinting
  openWindow : s'.openWindow = s.openWindow

theorem PlayerState.Stays.refl (s : PlayerState) : s.Stays s := ⟨rfl, rfl, rfl, rfl, rfl⟩

/-- The state machine of a connection is where the session is; no window is open. -/
structure Seated (s : Session) (w : World) (p : StateMachinePtr) : Prop where
  phase : w.phase p = s.phase
  entityId : w.Joined p → (w.player p).entityId = s.entityId
  outstandingTeleportIds : (w.player p).outstandingTeleportIds = s.outstandingTeleportIds
  crouching : (w.player p).crouching = s.crouching
  sprinting : (w.player p).sprinting = s.sprinting
  openWindow : (w.player p).openWindow = 0

/-- Nobody is disconnected, and no other state machine is touched. -/
structure Still (this : StateMachinePtr) (w w' : World) : Prop where
  disconnecting : w'.disconnecting = w.disconnecting
  others : ∀ q, q ≠ this → w'.machine q = w.machine q

/-- Nobody is disconnected, and nothing is different that the rules look at. -/
structure Steady (this : StateMachinePtr) (w w' : World) : Prop extends Still this w w' where
  phase : w'.phase this = w.phase this
  player : (w.player this).Stays (w'.player this)
  sends : Sends Usual w w'

section Steady

variable {w w' w'' : World} {this : StateMachinePtr} {frame : PacketFrame}

theorem Still.trans (h : Still this w w') (h' : Still this w' w'') : Still this w w'' where
  disconnecting := h'.disconnecting.trans h.disconnecting
  others q hq := (h'.others q hq).trans (h.others q hq)

theorem still_of_machine (hd : w'.disconnecting = w.disconnecting) (hm : w'.machine = w.machine) :
    Still this w w' := ⟨hd, fun q _ => by rw [hm]⟩

theorem still_setMachine (m : StateMachine) : Still this w (w.setMachine this m) :=
  ⟨rfl, fun q hq => by rw [World.setMachine_machine, Function.update_of_ne hq]⟩

theorem still_setPlayer (s : PlayerState) : Still this w (w.setPlayer this s) :=
  still_setMachine _

theorem Steady.trans (h : Steady this w w') (h' : Steady this w' w'') : Steady this w w'' where
  toStill := h.toStill.trans h'.toStill
  phase := h'.phase.trans h.phase
  player := ⟨h'.player.entityId.trans h.player.entityId,
    h'.player.outstandingTeleportIds.trans h.player.outstandingTeleportIds,
    h'.player.crouching.trans h.player.crouching, h'.player.sprinting.trans h.player.sprinting,
    h'.player.openWindow.trans h.player.openWindow⟩
  sends := h.sends.trans h'.sends

/-- The state machines stay, and plain packets are sent. -/
theorem steady_of_machine (hd : w'.disconnecting = w.disconnecting) (hm : w'.machine = w.machine)
    (hs : Sends Usual w w') : Steady this w w' where
  toStill := still_of_machine hd hm
  phase := by rw [World.phase, hm, World.phase]
  player := by
    rw [World.player, World.player, hm]
    exact .refl _
  sends := hs

theorem Steady.refl (w : World) : Steady this w w := steady_of_machine rfl rfl (sends_of_eq rfl)

theorem steady_setPlayer {s : PlayerState} (hs : (w.player this).Stays s) :
    Steady this w (w.setPlayer this s) where
  toStill := still_setPlayer s
  phase := by rw [World.setPlayer_phase]
  player := by rwa [World.setPlayer_player, Function.update_self]
  sends := sends_of_eq rfl

theorem steady_sendEach (targets : Finset StateMachinePtr) {k : ClientboundPacket} (hk : k.Usual) :
    Steady this w (w.sendEach targets k) :=
  steady_of_machine rfl rfl (sends_sendEach hk)

/-! ## The handlers -/

theorem steady_sendChunks (coords : List ChunkCoord) : Steady this w (w.sendChunks this coords) := by
  refine steady_of_machine (by rw [World.sendChunks_eq]) (sendChunks_machine w coords)
    (sends_update (w.sendChunks_traffic this coords) ?_)
  intro k hk
  obtain ⟨c, -, rfl⟩ := List.mem_map.mp hk
  exact ⟨rfl, fun _ => rfl⟩

theorem steady_sendUnloads (coords : List ChunkCoord) :
    Steady this w (w.sendUnloads this coords) := by
  refine steady_of_machine rfl rfl (sends_update (w.sendUnloads_traffic this coords) ?_)
  intro k hk
  obtain ⟨c, -, rfl⟩ := List.mem_map.mp hk
  exact ⟨rfl, fun _ => rfl⟩

theorem steady_sendPacket {k : ClientboundPacket} (hk : k.Usual) :
    Steady this w (w.sendPacket this k) :=
  steady_of_machine rfl rfl (sends_update rfl (List.forall_mem_singleton.mpr hk))

theorem steady_setTracker (tracker : PlayerTracker StateMachinePtr) :
    Steady this w (w.setTracker tracker) := steady_of_machine rfl rfl (sends_of_eq rfl)

theorem steady_onClientSettingsChange (packet : ClientSettingsPacket) :
    Steady this w (w.onClientSettingsChange this packet) := by
  have hplayer : Steady this w (w.setPlayer this (w.withSettings this packet)) :=
    steady_setPlayer ⟨rfl, rfl, rfl, rfl, rfl⟩
  rw [World.onClientSettingsChange_eq]
  exact hplayer.trans
    ((steady_setTracker _).trans ((steady_sendUnloads _).trans (steady_sendChunks _)))

/-- A broadcast to some. -/
theorem steady_broadcast (targets : Finset StateMachinePtr) {k : ClientboundPacket}
    (hk : Broadcast k) : Steady this w (w.sendEach targets k) :=
  steady_sendEach targets (usual_broadcast hk)

theorem steady_onChunkTransition (start target : ChunkCoord) (oldPosition : EntityCoord)
    (rotate : Bool) :
    Steady this w (w.onChunkTransition this start target oldPosition rotate) := by
  refine steady_of_machine ?_ (onChunkTransition_machine w start target oldPosition rotate)
    (sends_onChunkTransition (fun _ => ⟨rfl, fun _ => rfl⟩) (fun _ _ => ⟨rfl, fun _ => rfl⟩)
      ⟨rfl, fun _ => rfl⟩ fun _ _ hk => usual_broadcast (broadcast_movePackets hk).1)
  unfold World.onChunkTransition
  cases rotate <;> simp [World.sendPacket, World.sendChunks_eq, World.sendUnloads, World.setTracker]

theorem steady_onMove {s : PlayerState} (hs : (w.player this).Stays s) (oldPosition : EntityCoord)
    (rotate : Bool) : Steady this w ((w.setPlayer this s).onMove this oldPosition rotate) := by
  have hmove : Broadcast
      (createMovePacket ((w.setPlayer this s).player this) oldPosition rotate) :=
    .update (updates_createMovePacket _ _ _)
  refine (steady_setPlayer hs).trans ?_
  unfold World.onMove
  simp only
  split_ifs
  · exact steady_onChunkTransition _ _ _ _
  · exact (steady_broadcast _ hmove).trans (steady_broadcast _ (.update rfl))
  · exact steady_broadcast _ hmove

theorem steady_onPlayerRotation (yaw pitch : FloatValue) :
    Steady this w (w.onPlayerRotation this yaw pitch) := by
  have hplayer : Steady this w (w.setPlayer this { w.player this with yaw, pitch }) :=
    steady_setPlayer ⟨rfl, rfl, rfl, rfl, rfl⟩
  exact hplayer.trans ((steady_broadcast _ (.update rfl)).trans (steady_broadcast _ (.update rfl)))

theorem steady_startDigging {location : BitVec 64}
    (h : (w.globalState.chunks (chunkOf location)).isSome = true) :
    Steady this w (w.startDigging this location) := by
  unfold World.startDigging
  split
  · rename_i hnone
    rw [hnone] at h
    cases h
  split
  · exact steady_of_machine rfl rfl (sends_of_eq rfl)
  · exact steady_of_machine rfl rfl (sends_of_eq rfl)
  · exact steady_of_machine rfl rfl (sends_sendEach ⟨rfl, fun _ => rfl⟩)

end Steady

/-! ## The cases of the rule book -/

/-- The reasons that a client is given. -/
def Ruling.reasons : Ruling → List Bytes
  | .taken | .dropped => []
  | .refused reason => [chat.plainText (spanFromCString reason)]

/-- A frame of `this` is handled as the rule says: no other state machine is touched and the others
are sent plain packets; the connection is closed unless the frame is taken, with the reasons of the
ruling; and the state machine is where the session is, with what the client is sent. -/
structure Ruled (w : World) (this : StateMachinePtr) (w' : World) (rule : Ruling × Session) :
    Prop where
  others : ∀ q, q ≠ this → w'.machine q = w.machine q
  plain : ∀ q, q ≠ this → ∃ packets : List ClientboundPacket,
    w'.traffic q = w.traffic q ++ packets.map .sent ∧ ∀ k ∈ packets, k.Usual
  disconnecting : w'.disconnecting =
    if rule.1 = .taken then w.disconnecting else Function.update w.disconnecting this true
  own : ∃ packets : List ClientboundPacket, w'.traffic this = w.traffic this ++ packets.map .sent ∧
    packets.filterMap ClientboundPacket.reason? = rule.1.reasons ∧
    Seated (packets.foldl Session.onSent rule.2) w' this

section Ruled

variable {w w' : World} {this : StateMachinePtr} {s : Session}

theorem foldl_onSent_of_usual {packets : List ClientboundPacket} (h : ∀ k ∈ packets, k.Usual)
    (s : Session) : packets.foldl Session.onSent s = s := by
  induction packets with
  | nil => rfl
  | cons k packets ih =>
    obtain ⟨hk, hpackets⟩ := List.forall_mem_cons.mp h
    rw [List.foldl_cons, hk.2, ih hpackets]

theorem reasons_of_usual {packets : List ClientboundPacket} (h : ∀ k ∈ packets, k.Usual) :
    packets.filterMap ClientboundPacket.reason? = [] :=
  List.filterMap_eq_nil_iff.mpr fun k hk => (h k hk).1

theorem Seated.of_stays (h : Seated s w this) (hphase : w'.phase this = w.phase this)
    (hplayer : (w.player this).Stays (w'.player this)) : Seated s w' this where
  phase := hphase.trans h.phase
  entityId hj := by
    rw [World.Joined, hphase] at hj
    exact hplayer.entityId.trans (h.entityId hj)
  outstandingTeleportIds := hplayer.outstandingTeleportIds.trans h.outstandingTeleportIds
  crouching := hplayer.crouching.trans h.crouching
  sprinting := hplayer.sprinting.trans h.sprinting
  openWindow := hplayer.openWindow.trans h.openWindow

/-- A frame that is taken and sends plain packets. -/
theorem ruled_of_sends (h : Still this w w') (hs : Sends Usual w w') (hseat : Seated s w' this) :
    Ruled w this w' (.taken, s) where
  others := h.others
  plain q _ := hs q
  disconnecting := h.disconnecting
  own := by
    obtain ⟨packets, ht, hpackets⟩ := hs this
    refine ⟨packets, ht, reasons_of_usual hpackets, ?_⟩
    rwa [foldl_onSent_of_usual hpackets]

theorem ruled_taken (hs : Seated s w this) (h : Steady this w w') : Ruled w this w' (.taken, s) :=
  ruled_of_sends h.toStill h.sends (hs.of_stays h.phase h.player)

theorem ruled_dropped (hs : Seated s w this) : Ruled w this (w.disconnect this) (.dropped, s) where
  others _ _ := rfl
  plain _ _ := ⟨[], (List.append_nil _).symm, fun _ hk => absurd hk List.not_mem_nil⟩
  disconnecting := rfl
  own := ⟨[], (List.append_nil _).symm, rfl, hs.of_stays rfl (.refl _)⟩

theorem disconnectWith_machine (message : Bytes) :
    (w.disconnectWith this message).machine = w.machine := by
  unfold World.disconnectWith
  split <;> rfl

theorem disconnectWith_disconnecting (message : Bytes) :
    (w.disconnectWith this message).disconnecting =
      Function.update w.disconnecting this true := by
  unfold World.disconnectWith
  split <;> rfl

/-- The reason is in the packet of the phase. -/
theorem disconnectWith_traffic_cases (message : Bytes) : ∃ k : ClientboundPacket,
    (w.disconnectWith this message).traffic =
      Function.update w.traffic this (w.traffic this ++ [k].map .sent) ∧
    k.reason? = some (chat.plainText message) ∧ ∀ s : Session, s.onSent k = s := by
  unfold World.disconnectWith
  by_cases h : w.phase this = .play
  · simp only [if_pos h]
    exact ⟨_, rfl, rfl, fun _ => rfl⟩
  · simp only [if_neg h]
    exact ⟨_, rfl, rfl, fun _ => rfl⟩

theorem ruled_refused (hs : Seated s w this) (reason : String) :
    Ruled w this (w.disconnectWith this (spanFromCString reason)) (.refused reason, s) := by
  obtain ⟨k, ht, hreason, hsession⟩ := @disconnectWith_traffic_cases w this (spanFromCString reason)
  refine ⟨fun q _ => by rw [disconnectWith_machine], fun q hq => ⟨[], ?_, by simp⟩,
    disconnectWith_disconnecting _, [k], by rw [ht, Function.update_self], ?_, ?_⟩
  · rw [ht, Function.update_of_ne hq]
    exact (List.append_nil _).symm
  · rw [List.filterMap_cons, hreason]
    rfl
  · rw [List.foldl_cons, hsession]
    exact hs.of_stays (by rw [World.disconnectWith_phase])
      (by rw [World.disconnectWith_player]; exact .refl _)

/-! ### The frames -/

variable (hs : Seated s w this)

include hs

theorem seated_setPhase {phase : ClientPhase} (hphase : phase ≠ .playInit ∧ phase ≠ .play) :
    Seated { s with phase } (w.setPhase this phase) this where
  phase := by rw [World.setPhase_phase, Function.update_self]
  entityId hj := by
    rw [World.Joined, World.setPhase_phase, Function.update_self] at hj
    exact absurd hj (not_or.mpr hphase)
  outstandingTeleportIds := by rw [World.setPhase_player, hs.outstandingTeleportIds]
  crouching := by rw [World.setPhase_player, hs.crouching]
  sprinting := by rw [World.setPhase_player, hs.sprinting]
  openWindow := by rw [World.setPhase_player, hs.openWindow]

theorem ruled_onHandshake (version nextState : BitVec 32) :
    Ruled w this (w.onHandshake this version nextState)
      (Session.handshakeRuling version nextState, s.onHandshake version nextState) := by
  have hphase : ∀ phase : ClientPhase, phase ≠ .playInit ∧ phase ≠ .play →
      Ruled w this (w.setPhase this phase) (.taken, { s with phase }) := fun phase h =>
    ruled_of_sends (still_setMachine _) (sends_of_eq rfl) (seated_setPhase hs h)
  unfold World.onHandshake Session.handshakeRuling Session.onHandshake
  by_cases hversion : version ≠ PROTOCOL_VERSION
  · simp only [if_pos hversion]
    exact ruled_refused hs _
  · simp only [if_neg hversion]
    by_cases hstatus : nextState = 1
    · simp only [if_pos hstatus, if_pos (Or.inl hstatus : nextState = 1 ∨ nextState = 2)]
      exact hphase .status (by decide)
    by_cases hlogin : nextState = 2
    · simp only [if_neg hstatus, if_pos hlogin,
        if_pos (Or.inr hlogin : nextState = 1 ∨ nextState = 2)]
      exact hphase .login (by decide)
    · simp only [if_neg hstatus, if_neg hlogin, if_neg (not_or.mpr ⟨hstatus, hlogin⟩)]
      exact ruled_refused hs _

theorem ruled_onLoginStart (name : Bytes) :
    Ruled w this (w.onLoginStart this name) (.taken, s) where
  others q hq := by
    have hplayer : ((w.setPlayer this (w.loggedIn this name)).machine q) = w.machine q :=
      (still_setPlayer _).others q hq
    exact ((still_setMachine _).others q hq).trans hplayer
  plain q hq := by
    refine ⟨_, World.onLoginStart_traffic_ne w this name hq, fun k hk => ?_⟩
    split at hk
    · obtain rfl := List.mem_singleton.mp hk
      exact ⟨rfl, fun _ => rfl⟩
    · cases hk
  disconnecting := rfl
  own := by
    refine ⟨w.loginPackets this name, World.onLoginStart_traffic_self .., rfl, ?_⟩
    have hfold : (w.loginPackets this name).foldl Session.onSent s =
        { s with phase := .playInit, entityId := w.globalState.nextEntityId } := rfl
    rw [hfold]
    refine ⟨?_, fun _ => ?_, ?_, ?_, ?_, ?_⟩
    · rw [World.onLoginStart_phase, Function.update_self]
    all_goals rw [World.onLoginStart_player, Function.update_self]
    · rfl
    · exact hs.outstandingTeleportIds
    · exact hs.crouching
    · exact hs.sprinting
    · exact hs.openWindow

/-- The player enters whether or not the id is outstanding; if it is not, with a reason. -/
theorem ruled_onTeleportConfirm (hinit : w.phase this = .playInit) (id : BitVec 32) :
    Ruled w this (w.onTeleportConfirm this id) (s.confirmRuling id, s.onTeleportConfirm id) := by
  have hids := hs.outstandingTeleportIds
  refine ⟨fun q hq => ?_, fun q hq => ?_, ?_, _, onTeleportConfirm_traffic_self hinit id, ?_, ?_⟩
  · have hconfirmed : (w.confirmed this id).machine q = w.machine q := by
      unfold World.confirmed
      split
      · exact (still_setPlayer _).others q hq
      · rw [disconnectWith_machine]
    rw [World.onTeleportConfirm_eq]
    exact ((still_setMachine _).others q hq).trans hconfirmed
  · refine ⟨_, onTeleportConfirm_traffic_ne hinit id hq, fun k hk => ?_⟩
    split at hk
    · obtain rfl := List.mem_singleton.mp hk
      exact usual_broadcast (.spawn _)
    · cases hk
  · have henter : (w.onTeleportConfirm this id).disconnecting =
        (w.confirmed this id).disconnecting := by
      rw [World.onTeleportConfirm_eq]
      rfl
    rw [henter, World.confirmed, Session.confirmRuling, hids]
    split_ifs <;> first | rfl | contradiction | exact disconnectWith_disconnecting _
  · have hspawns : ∀ k ∈ ((w.confirmed this id).visiblePlayers this).map fun m =>
        createSpawnPacket ((w.confirmed this id).player m), k.Usual := by
      intro k hk
      obtain ⟨m, -, rfl⟩ := List.mem_map.mp hk
      exact usual_broadcast (.spawn _)
    rw [List.filterMap_append, reasons_of_usual hspawns, List.append_nil, Session.confirmRuling,
      hids]
    split_ifs <;> rfl
  · have husual : ∀ (packets : List ClientboundPacket) (s : Session),
        (∀ k ∈ packets, ∀ s : Session, s.onSent k = s) → packets.foldl Session.onSent s = s := by
      intro packets s h
      induction packets with
      | nil => rfl
      | cons k packets ih =>
        rw [List.foldl_cons, h k (List.mem_cons_self ..),
          ih fun k hk => h k (List.mem_cons_of_mem _ hk)]
    rw [husual _ _ (forall_confirmPackets (fun _ _ => rfl)
        fun m _ => (usual_broadcast (.spawn _)).2),
      World.onTeleportConfirm_eq]
    refine ⟨?_, fun _ => ?_, ?_, ?_, ?_, ?_⟩
    · rw [World.enterPlay_phase, Function.update_self]
      rfl
    all_goals rw [World.enterPlay_player, World.confirmed_player, Function.update_self]
    · exact hs.entityId (.inl hinit)
    · exact congrArg (Finset.erase · id) hids
    · exact hs.crouching
    · exact hs.sprinting
    · exact hs.openWindow

theorem ruled_onPluginMessage (channel data : Bytes) :
    Ruled w this (w.onPluginMessage this channel data) (Session.brandRuling channel data, s) := by
  unfold World.onPluginMessage Session.brandRuling
  by_cases hchannel : channel = PLUGIN_CHANNEL_MINECRAFT_BRAND
  · simp only [if_pos hchannel]
    cases deserializeString (Cursor.ofList data) with
    | error => exact ruled_dropped hs
    | ok brand rest =>
      by_cases hrest : rest.size ≠ 0
      · simp only [if_pos hrest]
        exact ruled_dropped hs
      · simp only [if_neg hrest]
        exact ruled_taken hs (steady_setPlayer ⟨rfl, rfl, rfl, rfl, rfl⟩)
  · simp only [if_neg hchannel]
    exact ruled_taken hs (.refl w)

/-- The teleport that is started is one more that is outstanding, on both sides. -/
theorem ruled_onSettingsInPlayInit (packet : ClientSettingsPacket) :
    Ruled w this (w.onSettingsInPlayInit this packet) (.taken, s) := by
  have hchange := @steady_onClientSettingsChange w this packet
  have htraffic := w.onSettingsInPlayInit_traffic this packet
  have hstream : ∀ k ∈ w.streamPackets (w.settingsUnloads this packet)
      (w.settingsLoads this packet ++ ChunkCoord.region
        ((w.withSettings this packet).chunk -
          ⟨(w.withSettings this packet).viewDistance, (w.withSettings this packet).viewDistance⟩)
        ((w.withSettings this packet).chunk +
          ⟨(w.withSettings this packet).viewDistance, (w.withSettings this packet).viewDistance⟩)),
      k.Usual :=
    w.forall_streamPackets (fun _ => ⟨rfl, fun _ => rfl⟩) fun _ _ => ⟨rfl, fun _ => rfl⟩
  refine ⟨fun q hq => ?_, fun q hq => ⟨[], ?_, by simp⟩, ?_, w.settingsInPlayInitPackets this packet,
    by rw [htraffic, Function.update_self], ?_, ?_⟩
  · have hsend := fun (w : World) coords => (@steady_sendChunks w this coords).others q hq
    exact ((still_setPlayer _).others q hq).trans
      ((hsend (w.onClientSettingsChange this packet) _).trans (hchange.others q hq))
  · rw [htraffic, Function.update_of_ne hq]
    exact (List.append_nil _).symm
  · have hsend := fun (w : World) coords => (@steady_sendChunks w this coords).disconnecting
    exact (hsend (w.onClientSettingsChange this packet) _).trans hchange.disconnecting
  · rw [World.settingsInPlayInitPackets, List.filterMap_append, reasons_of_usual hstream]
    rfl
  · rw [World.settingsInPlayInitPackets, List.foldl_append, foldl_onSent_of_usual hstream]
    refine ⟨?_, fun hj => ?_, ?_, ?_, ?_, ?_⟩
    · rw [World.onSettingsInPlayInit_phase]
      exact hs.phase
    all_goals rw [World.onSettingsInPlayInit_player, Function.update_self]
    · rw [World.Joined, World.onSettingsInPlayInit_phase] at hj
      exact hs.entityId hj
    · exact congrArg (insert _) hs.outstandingTeleportIds
    · exact hs.crouching
    · exact hs.sprinting
    · exact hs.openWindow

theorem ruled_onChat (message : Bytes) :
    Ruled w this (w.onChat this message) (Session.chatRuling message, s) := by
  unfold World.onChat Session.chatRuling
  split_ifs
  · exact ruled_refused hs _
  · exact ruled_taken hs (steady_broadcast _ (.chat _ _))

theorem ruled_onCloseWindow (windowId : BitVec 8) :
    Ruled w this (w.onCloseWindow this windowId) (Session.windowRuling windowId, s) := by
  unfold World.onCloseWindow Session.windowRuling
  split_ifs with hzero hopen
  · exact ruled_refused hs _
  · exact absurd (hs.openWindow.symm.trans (not_not.mp hopen)) (Ne.symm hzero)
  · exact ruled_taken hs (.refl w)

theorem ruled_onPlayerDigging (status : BitVec 32) (location : BitVec 64) (face : BitVec 8) :
    Ruled w this (w.onPlayerDigging this status location face)
      (Session.diggingRuling (fun c => (w.globalState.chunks c).isSome) status location face, s) := by
  unfold World.onPlayerDigging Session.diggingRuling
  by_cases hstatus : 6 < status.toInt
  · simp only [if_pos hstatus]
    exact ruled_refused hs _
  by_cases hface : 5 < face.toInt
  · simp only [if_neg hstatus, if_pos hface]
    exact ruled_refused hs _
  by_cases hzero : status = 0
  · simp only [if_neg hface, hzero, true_and]
    cases hchunk : (w.globalState.chunks (chunkOf location)).isSome with
    | true => exact ruled_taken hs (steady_startDigging hchunk)
    | false =>
      have hnone := Option.not_isSome_iff_eq_none.mp (by rw [hchunk]; decide)
      rw [World.startDigging, hnone]
      exact ruled_dropped hs
  · simp only [if_neg hstatus, if_neg hface, hzero, false_and, if_false]
    exact ruled_taken hs (.refl w)

/-- One of the switches: `set` throws it on the side of the server, `s'` is the session after. -/
theorem ruled_switchAction (hplay : w.phase this = .play) (entityId : BitVec 32)
    (invalid already : String) {done : Bool} {set : PlayerState → PlayerState} {s' : Session}
    (hdone : done = true → s' = s)
    (hset : Seated s' (w.setPlayer this (set (w.player this))) this) :
    Ruled w this (w.switchAction this entityId invalid already done set)
      (s.switchRuling entityId invalid already done, if entityId = s.entityId then s' else s) := by
  unfold World.switchAction Session.switchRuling
  rw [hs.entityId (.inr hplay)]
  by_cases hid : entityId = s.entityId
  · rw [if_neg (not_not.mpr hid), if_neg (not_not.mpr hid), if_pos hid]
    cases done with
    | true =>
      rw [hdone rfl]
      exact ruled_refused hs _
    | false =>
      have hsend : Steady this (w.setPlayer this (set (w.player this)))
          ((w.setPlayer this (set (w.player this))).sendMetadataUpdate this) :=
        steady_broadcast _ (.update rfl)
      have hsends : Sends Usual w (w.setPlayer this (set (w.player this))) := sends_of_eq rfl
      exact ruled_of_sends ((still_setPlayer _).trans hsend.toStill) (hsends.trans hsend.sends)
        (hset.of_stays hsend.phase hsend.player)
  · rw [if_pos hid, if_pos hid, if_neg hid]
    exact ruled_refused hs _

theorem seated_setPlayer {s' : Session} {state : PlayerState} (hphase : s'.phase = s.phase)
    (hid : s'.entityId = s.entityId) (hentityId : state.entityId = (w.player this).entityId)
    (hids : state.outstandingTeleportIds = s'.outstandingTeleportIds)
    (hcrouching : state.crouching = s'.crouching) (hsprinting : state.sprinting = s'.sprinting)
    (hwindow : state.openWindow = 0) : Seated s' (w.setPlayer this state) this := by
  refine ⟨?_, fun hj => ?_, ?_, ?_, ?_, ?_⟩
  · rw [World.setPlayer_phase, hphase, hs.phase]
  all_goals rw [World.setPlayer_player, Function.update_self]
  · rw [World.Joined, World.setPlayer_phase] at hj
    rw [hentityId, hs.entityId hj, hid]
  · exact hids
  · exact hcrouching
  · exact hsprinting
  · exact hwindow

theorem ruled_onEntityAction (hplay : w.phase this = .play) (entityId actionId : BitVec 32) :
    Ruled w this (w.onEntityAction this entityId actionId)
      (s.actionRuling entityId actionId, s.onEntityAction entityId actionId) := by
  have hcrouch : ∀ crouching : Bool, Seated { s with crouching }
      (w.setPlayer this { w.player this with crouching }) this := fun crouching =>
    seated_setPlayer hs rfl rfl rfl hs.outstandingTeleportIds rfl hs.sprinting hs.openWindow
  have hsprint : ∀ sprinting : Bool, Seated { s with sprinting }
      (w.setPlayer this { w.player this with sprinting }) this := fun sprinting =>
    seated_setPlayer hs rfl rfl rfl hs.outstandingTeleportIds hs.crouching rfl hs.openWindow
  have hsame : s.act actionId = s → s.onEntityAction entityId actionId = s := by
    intro hact
    rw [Session.onEntityAction, hact, ite_self]
  unfold World.onEntityAction Session.actionRuling
  simp only
  rw [hs.crouching, hs.sprinting]
  split_ifs with h0 h1 h2 h3 h4 h5
  · rw [Session.onEntityAction, Session.act, if_pos h0]
    refine ruled_switchAction hs hplay _ _ _ (fun hdone => ?_) (hcrouch true)
    rw [← hdone]
  · rw [Session.onEntityAction, Session.act, if_neg h0, if_pos h1]
    refine ruled_switchAction hs hplay _ _ _ (fun hdone => ?_) (hcrouch false)
    rw [← (Bool.not_eq_true' _).mp hdone]
  · rw [hsame (by subst h2; rfl)]
    exact ruled_taken hs (.refl w)
  · rw [Session.onEntityAction, Session.act, if_neg h0, if_neg h1, if_pos h3]
    refine ruled_switchAction hs hplay _ _ _ (fun hdone => ?_) (hsprint true)
    rw [← hdone]
  · rw [Session.onEntityAction, Session.act, if_neg h0, if_neg h1, if_neg h3, if_pos h4]
    refine ruled_switchAction hs hplay _ _ _ (fun hdone => ?_) (hsprint false)
    rw [← (Bool.not_eq_true' _).mp hdone]
  · rw [hsame (by rw [Session.act, if_neg h0, if_neg h1, if_neg h3, if_neg h4])]
    exact ruled_taken hs (.refl w)
  · rw [hsame (by rw [Session.act, if_neg h0, if_neg h1, if_neg h3, if_neg h4])]
    exact ruled_refused hs _

theorem ruled_onHeldItemChange (slot : BitVec 16) :
    Ruled w this (w.onHeldItemChange this slot) (Session.slotRuling slot, s) := by
  unfold World.onHeldItemChange Session.slotRuling
  split_ifs
  · exact ruled_refused hs _
  · exact ruled_taken hs (steady_setPlayer ⟨rfl, rfl, rfl, rfl, rfl⟩)

theorem ruled_onAnimation (hand : BitVec 32) :
    Ruled w this (w.onAnimation this hand)
      (Session.handRuling "Animation: invalid hand" hand, s) := by
  unfold World.onAnimation Session.handRuling
  by_cases h : hand ≠ 0 ∧ hand ≠ 1
  · rw [if_pos h, if_pos h]
    exact ruled_refused hs _
  · rw [if_neg h, if_neg h]
    exact ruled_taken hs (steady_broadcast _ (.update rfl))

theorem ruled_onUseItem (hand : BitVec 32) :
    Ruled w this (w.onUseItem this hand)
      (Session.handRuling "PacketUseItem: invalid hand" hand, s) := by
  unfold World.onUseItem Session.handRuling
  split_ifs
  · exact ruled_refused hs _
  · exact ruled_taken hs (.refl w)

/-! ### The phases -/

theorem ruled_playInitCases (hinit : w.phase this = .playInit) :
    CasesRel (Ruled w this) (w.playInitCases this) s.playInitRules :=
  .cons (fun _ => ruled_taken hs (.refl w)) <|
  .cons (fun packet => ruled_onTeleportConfirm hs hinit packet.1) <|
  .cons (fun packet => ruled_onPluginMessage hs packet.1 packet.2.1) <|
  .cons (fun _ => ruled_onSettingsInPlayInit hs _) .nil

theorem ruled_playCases (hplay : w.phase this = .play) :
    CasesRel (Ruled w this) (w.playCases this)
      (s.playRules fun c => (w.globalState.chunks c).isSome) :=
  have hmoves : ∀ (s' : PlayerState) (oldPosition : EntityCoord) (rotate : Bool),
      (w.player this).Stays s' →
        Ruled w this ((w.setPlayer this s').onMove this oldPosition rotate) (.taken, s) :=
    fun _ _ _ hstays => ruled_taken hs (steady_onMove hstays _ _)
  .cons (fun packet => ruled_onChat hs packet.1) <|
  .cons (fun _ => ruled_taken hs (steady_onClientSettingsChange _)) <|
  .cons (fun packet => ruled_onCloseWindow hs packet.1) <|
  .cons (fun _ => ruled_taken hs (.refl w)) <|
  .cons (fun _ => hmoves _ _ false ⟨rfl, rfl, rfl, rfl, rfl⟩) <|
  .cons (fun _ => hmoves _ _ true ⟨rfl, rfl, rfl, rfl, rfl⟩) <|
  .cons (fun _ => ruled_taken hs (steady_onPlayerRotation _ _)) <|
  .cons (fun _ => ruled_taken hs (.refl w)) <|
  .cons (fun _ => ruled_taken hs (.refl w)) <|
  .cons (fun _ => ruled_taken hs (steady_setPlayer ⟨rfl, rfl, rfl, rfl, rfl⟩)) <|
  .cons (fun packet => ruled_onPlayerDigging hs packet.1 packet.2.1 packet.2.2.1) <|
  .cons (fun packet => ruled_onEntityAction hs hplay packet.1 packet.2.1) <|
  .cons (fun packet => ruled_onHeldItemChange hs packet.1) <|
  .cons (fun packet => ruled_onAnimation hs packet.1) <|
  .cons (fun packet => ruled_onUseItem hs packet.1) .nil

/-- **A frame is handled as the rule book says.** -/
theorem handle_ruled (frame : PacketFrame) : Ruled w this (w.handle this frame)
    (s.rule (fun c => (w.globalState.chunks c).isSome) frame) := by
  have hphase := hs.phase
  unfold World.handle Session.rule
  cases hw : w.phase this with
  | initial =>
    rw [← hphase, hw]
    have hcases : CasesRel (Ruled w this) (w.initialCases this) s.initialRules :=
      .cons (fun packet => ruled_onHandshake hs packet.1 packet.2.2.2.1) .nil
    exact switchFrame_rel hcases (ruled_dropped hs) (ruled_dropped hs)
  | login =>
    rw [← hphase, hw]
    have hcases : CasesRel (Ruled w this) (w.loginCases this) s.loginRules :=
      .cons (fun packet => ruled_onLoginStart hs packet.1) .nil
    exact switchFrame_rel hcases (ruled_dropped hs) (ruled_dropped hs)
  | playInit =>
    rw [← hphase, hw]
    exact switchFrame_rel (ruled_playInitCases hs hw) (ruled_dropped hs) (ruled_taken hs (.refl w))
  | play =>
    rw [← hphase, hw]
    exact switchFrame_rel (ruled_playCases hs hw) (ruled_dropped hs) (ruled_taken hs (.refl w))
  | status =>
    rw [← hphase, hw]
    exact ruled_dropped hs

end Ruled

/-! ## Steps -/

/-- What a step rules about a connection. -/
def World.ruling (w : World) (p : StateMachinePtr) : ServerStep → Ruling
  | .packet this frame _ =>
    if this = p then ((w.session p).rule (fun c => (w.globalState.chunks c).isSome) frame).1
    else .taken
  | .error this => if this = p then .dropped else .taken
  | .tick this now => if this = p ∧ TimedOut w p now then .refused "timeout" else .taken
  | _ => .taken

/-- What every run keeps of a connection. -/
structure Accounted (p : StateMachinePtr) (w : World) (rulings : List Ruling) : Prop where
  seated : w.life p = .live → Seated (w.session p) w p
  disconnecting : w.disconnecting p = true ↔ ∃ r ∈ rulings, r ≠ .taken
  reasons : w.told ClientboundPacket.reason? p = rulings.flatMap Ruling.reasons

section Steps

variable {w w' : World} {p q : StateMachinePtr} {rulings : List Ruling}

theorem session_of_traffic {packets : List ClientboundPacket}
    (ht : w'.traffic q = w.traffic q ++ packets.map .sent) :
    w'.session q = packets.foldl Session.onSent (w.session q) := by
  rw [World.session, ht, List.foldl_append, List.foldl_map]
  rfl

theorem session_receive (this : StateMachinePtr) (frame : PacketFrame) (now : Int) :
    (w.receive this frame now).session this =
      ((w.session this).rule (fun c => (w.globalState.chunks c).isSome) frame).2 := by
  rw [World.session, receive_traffic, Function.update_self, List.foldl_append]
  exact Session.rule_snd _ _ _ _

/-- Nothing is ruled. -/
theorem Accounted.of_taken (h : Accounted p w rulings)
    (hseated : w'.life p = .live → Seated (w'.session p) w' p)
    (hdisconnecting : w'.disconnecting p = w.disconnecting p)
    (hreasons : w'.told ClientboundPacket.reason? p = w.told ClientboundPacket.reason? p) :
    Accounted p w' (rulings ++ [.taken]) where
  seated := hseated
  disconnecting := by
    rw [hdisconnecting, h.disconnecting]
    simp
  reasons := by
    rw [hreasons, h.reasons, List.flatMap_append]
    exact (List.append_nil _).symm

/-- The step of another connection. -/
theorem Accounted.other (h : Accounted p w rulings) (hlife : w'.life p = w.life p)
    (hmachine : w'.machine p = w.machine p) (hdisconnecting : w'.disconnecting p = w.disconnecting p)
    (husual : ∃ packets : List ClientboundPacket,
      w'.traffic p = w.traffic p ++ packets.map .sent ∧ ∀ k ∈ packets, k.Usual) :
    Accounted p w' (rulings ++ [.taken]) := by
  obtain ⟨packets, ht, hpackets⟩ := husual
  refine h.of_taken (fun hlive => ?_) hdisconnecting ?_
  · rw [session_of_traffic ht, foldl_onSent_of_usual hpackets]
    refine (h.seated (hlife ▸ hlive)).of_stays ?_ ?_
    · rw [World.phase, hmachine, World.phase]
    · rw [World.player, World.player, hmachine]
      exact .refl _
  · rw [told_of_traffic ht, reasons_of_usual hpackets, List.append_nil]

/-- The step of the connection itself, from where its frame is in the traffic. -/
theorem Accounted.own {w₁ : World} {rule : Ruling × Session} (h : Accounted p w rulings)
    (hr : Ruled w₁ p w' rule) (hsession : w₁.session p = rule.2)
    (hdisconnecting : w₁.disconnecting = w.disconnecting)
    (htold : w₁.told ClientboundPacket.reason? p = w.told ClientboundPacket.reason? p) :
    Accounted p w' (rulings ++ [rule.1]) := by
  obtain ⟨packets, ht, hreasons, hseated⟩ := hr.own
  refine ⟨fun _ => ?_, ?_, ?_⟩
  · rwa [session_of_traffic ht, hsession]
  · rw [hr.disconnecting, hdisconnecting]
    by_cases htaken : rule.1 = .taken
    · rw [if_pos htaken, h.disconnecting, htaken]
      simp
    · rw [if_neg htaken, Function.update_self]
      exact iff_of_true rfl ⟨rule.1, by simp, htaken⟩
  · rw [told_of_traffic ht, htold, hreasons, h.reasons, List.flatMap_append, List.flatMap_singleton]

/-- A tick is a refusal if the client was silent for too long. -/
theorem onTick_ruled {s : Session} (hs : Seated s w p) (now : Int) : Ruled w p (w.onTick p now)
    (if TimedOut w p now then .refused "timeout" else .taken, s) := by
  by_cases htimeout : TimedOut w p now
  · rw [if_pos htimeout, show w.onTick p now = _ from if_pos htimeout]
    exact ruled_refused hs _
  · rw [if_neg htimeout]
    unfold TimedOut at htimeout
    rw [World.onTick, if_neg htimeout]
    split_ifs
    · have hclock : Seated s
          (w.setMachine p { w.machine p with lastKeepAliveSentTime := now }) p := by
        refine hs.of_stays ?_ ?_
        · simp [World.phase]
        · simpa [World.player] using PlayerState.Stays.refl _
      have hsend : Steady p (w.setMachine p { w.machine p with lastKeepAliveSentTime := now })
          ((w.setMachine p { w.machine p with lastKeepAliveSentTime := now }).sendPacket p
            (.keepAliveServer now)) := steady_sendPacket ⟨rfl, fun _ => rfl⟩
      have hsends : Sends Usual w
          (w.setMachine p { w.machine p with lastKeepAliveSentTime := now }) := sends_of_eq rfl
      exact ruled_of_sends ((still_setMachine _).trans hsend.toStill) (hsends.trans hsend.sends)
        (hclock.of_stays hsend.phase hsend.player)
    · exact ruled_taken hs (.refl w)
    · exact ruled_taken hs (.refl w)

theorem usual_leavePackets {this : StateMachinePtr} {k : ClientboundPacket}
    (hk : k ∈ w.leavePackets this q) : k.Usual := by
  rcases List.mem_append.mp hk with hk | hk <;> split at hk
  · obtain rfl := List.mem_singleton.mp hk
    exact ⟨rfl, fun _ => rfl⟩
  · cases hk
  · obtain rfl := List.mem_singleton.mp hk
    exact ⟨rfl, fun _ => rfl⟩
  · cases hk

theorem destroy_machine (this : StateMachinePtr) : (w.destroy this).machine = w.machine := by
  unfold World.destroy
  by_cases h : w.phase this = .play
  · simp only [if_pos h]
    rfl
  · simp only [if_neg h]

theorem destroy_disconnecting (this : StateMachinePtr) :
    (w.destroy this).disconnecting = w.disconnecting := by
  unfold World.destroy
  by_cases h : w.phase this = .play
  · simp only [if_pos h]
    rfl
  · simp only [if_neg h]

/-- The step of one connection disconnects no other. -/
theorem Ruled.disconnecting_ne {this : StateMachinePtr} {rule : Ruling × Session}
    (h : Ruled w this w' rule) (hq : q ≠ this) : w'.disconnecting q = w.disconnecting q := by
  rw [h.disconnecting]
  split
  · rfl
  · rw [Function.update_of_ne hq]

/-- A step of a connection that goes by the book is accounted for in all of them; `w₁` has its frame
in the traffic. -/
theorem Accounted.of_ruled {this : StateMachinePtr} {w₁ : World} {rule : Ruling × Session}
    (h : Accounted p w rulings) (hr : Ruled w₁ this w' rule) (hlife : w'.life p = w.life p)
    (hsession : w₁.session this = rule.2) (hdisconnecting : w₁.disconnecting = w.disconnecting)
    (htold : w₁.told ClientboundPacket.reason? p = w.told ClientboundPacket.reason? p)
    (hmachine : p ≠ this → w₁.machine p = w.machine p)
    (htraffic : p ≠ this → w₁.traffic p = w.traffic p) :
    Accounted p w' (rulings ++ [if this = p then rule.1 else .taken]) := by
  by_cases hp : this = p
  · subst hp
    rw [if_pos rfl]
    exact h.own hr hsession hdisconnecting htold
  · have hne : p ≠ this := Ne.symm hp
    obtain ⟨packets, ht, hpackets⟩ := hr.plain p hne
    rw [if_neg hp]
    refine h.other hlife ((hr.others p hne).trans (hmachine hne)) ?_ ⟨packets, ?_, hpackets⟩
    · rw [hr.disconnecting_ne hne, hdisconnecting]
    · rw [ht, htraffic hne]

theorem ruling_packet (this : StateMachinePtr) (frame : PacketFrame) (now : Int) :
    w.ruling p (.packet this frame now) = if this = p then
      ((w.session this).rule (fun c => (w.globalState.chunks c).isSome) frame).1 else .taken := by
  by_cases hp : this = p
  · rw [World.ruling, hp]
  · rw [World.ruling, if_neg hp, if_neg hp]

theorem ruling_tick (this : StateMachinePtr) (now : Int) :
    w.ruling p (.tick this now) = if this = p then
      if TimedOut w this now then .refused "timeout" else .taken else .taken := by
  by_cases hp : this = p
  · subst hp
    simp [World.ruling]
  · simp [World.ruling, hp]

/-- **The step lemma.** -/
theorem Accounted.next (h : Accounted p w rulings) (huntouched : Untouched w p)
    (hseated : ∀ q, w.life q = .live → Seated (w.session q) w q) {step : ServerStep}
    (he : server.enabled w step) :
    Accounted p (server.next w step) (rulings ++ [w.ruling p step]) := by
  cases step with
  | connect this clientSettings entityId now =>
    by_cases hp : p = this
    · subst hp
      have hnil : (w.connect p clientSettings entityId now).traffic p = [] := huntouched he
      refine h.of_taken (fun _ => ?_) rfl rfl
      rw [World.session, next_connect, hnil]
      refine ⟨?_, fun hj => ?_, ?_, ?_, ?_, ?_⟩
      · rw [connect_phase, Function.update_self]
        rfl
      · rw [World.Joined, connect_phase, Function.update_self] at hj
        rcases hj with hj | hj <;> cases hj
      all_goals rw [connect_player, Function.update_self] <;> rfl
    · refine h.other (next_unmoved hp).life ?_ rfl ⟨[], (List.append_nil _).symm, by simp⟩
      simp [World.connect, hp]
  | packet this frame now =>
    have hreceived : Seated (w.session this) (w.receive this frame now) this := by
      refine (hseated this he).of_stays (by rw [receive_phase]) ?_
      rw [receive_player]
      exact .refl _
    rw [ruling_packet]
    refine h.of_ruled (handle_ruled hreceived frame) (by simp) (session_receive this frame now) rfl
      (told_receive w p _ frame now) (fun hp => ?_) fun hp => ?_
    · simp [World.receive, hp]
    · rw [receive_traffic, Function.update_of_ne hp]
  | error this =>
    exact h.of_ruled (ruled_dropped (hseated this he)) rfl rfl rfl rfl (fun _ => rfl) fun _ => rfl
  | tick this now =>
    have hruled := onTick_ruled (hseated this he) now
    have haccounted := h.of_ruled hruled (unmoved_onTick now).life rfl rfl rfl (fun _ => rfl)
      fun _ => rfl
    rw [ruling_tick]
    by_cases htimeout : TimedOut w this now <;> simpa [htimeout] using haccounted
  | disconnect this =>
    have hmachine : (w.destroy this).machine p = w.machine p := by rw [destroy_machine]
    have hdisconnecting := congrFun (@destroy_disconnecting w this) p
    by_cases hp : p = this
    · subst hp
      have hself : (w.destroy p).traffic p = w.traffic p ++ [].map .sent := by
        rw [World.destroy_traffic_self]
        exact (List.append_nil _).symm
      refine h.of_taken (fun hlive => ?_) hdisconnecting ?_
      · rw [next_disconnect, World.destroy_life, Function.update_self] at hlive
        cases hlive
      · rw [next_disconnect, told_of_traffic hself]
        exact List.append_nil _
    · refine h.other ?_ hmachine hdisconnecting ⟨_, World.destroy_traffic_ne w this hp, ?_⟩
      · rw [next_disconnect, World.destroy_life, Function.update_of_ne hp]
      · intro k hk
        split at hk
        · exact usual_leavePackets hk
        · cases hk

end Steps

/-! ## Runs -/

section Runs

variable {uuidGenerator : Bytes → Uuid} {machine : StateMachinePtr → StateMachine}
  {steps : List ServerStep}

theorem accounted_of_run (h : server.Run (.initial uuidGenerator machine) steps) :
    ∀ p, Accounted p (server.after (.initial uuidGenerator machine) steps)
      (server.image (fun w step => [w.ruling p step]) (.initial uuidGenerator machine) steps) := by
  induction steps using List.reverseRecOn with
  | nil =>
    intro p
    refine ⟨fun hlive => ?_, ?_, rfl⟩
    · cases hlive
    · exact iff_of_false Bool.false_ne_true (by rintro ⟨r, hr, -⟩; cases hr)
  | append_singleton steps step ih =>
    intro p
    obtain ⟨hrun, he⟩ := steps_snoc.mp h
    have hbase : server.Along (.initial uuidGenerator machine) steps Base :=
      along_of_run (.initial uuidGenerator machine) (fun _ _ hb he => hb.next he) hrun
    rw [after_snoc, image_snoc]
    exact (ih hrun p).next (hbase.last.untouched p) (fun q => (ih hrun q).seated) he

/-- **What a client is refused, and why.** In every run, whatever the other connections do: a state
machine is where the session of its own traffic is; the connection was closed by the server if and
only if one of its own frames was not taken, by the rule book, or its reader rejected its bytes, or
it was silent for too long; and the reasons that the client was given are those of its rulings, in
their order. The rule book looks at the session and at which chunks are stored, and these are those
that some client was sent. -/
theorem rulings_of_run (p : StateMachinePtr)
    (h : server.Run (.initial uuidGenerator machine) steps) :
    let w := server.after (.initial uuidGenerator machine) steps
    let rulings := server.image (fun w step => [w.ruling p step]) (.initial uuidGenerator machine)
      steps
    (w.life p = .live → Seated (w.session p) w p) ∧
      (w.disconnecting p = true ↔ ∃ r ∈ rulings, r ≠ .taken) ∧
      w.told ClientboundPacket.reason? p = rulings.flatMap Ruling.reasons ∧
      ∀ c, (w.globalState.chunks c).isSome = true ↔
        ∃ q, c ∈ w.told ClientboundPacket.chunkCoord? q := by
  intro w rulings
  have haccounted := accounted_of_run h p
  exact ⟨haccounted.seated, haccounted.disconnecting, haccounted.reasons,
    stored_of_run uuidGenerator machine steps⟩

/-- A player that joins, crouches twice and is refused the second time; another one sends a chat
message of its own. -/
def crouchSteps : List ServerStep :=
  joinSteps 0 2 ++ joinSteps 1 2 ++
    [.packet 0 ⟨0x1b, [1, 0, 0]⟩ 0, .packet 1 ⟨0x03, [1, 0x61]⟩ 0, .packet 0 ⟨0x1b, [1, 0, 0]⟩ 0]

theorem rulings_of_run_crouch :
    (server.after emptyServer crouchSteps).disconnecting 0 = true ∧
      (server.after emptyServer crouchSteps).told ClientboundPacket.reason? 0 =
        [chat.plainText (spanFromCString "EntityAction: already crouching")] ∧
      (server.after emptyServer crouchSteps).disconnecting 1 = false := by
  have hrun : server.Run emptyServer crouchSteps := by decide +kernel
  have hrulings : server.image (fun w step => [w.ruling 0 step]) emptyServer crouchSteps =
      List.replicate 12 .taken ++ [.refused "EntityAction: already crouching"] := by
    decide +kernel
  have hother : server.image (fun w step => [w.ruling 1 step]) emptyServer crouchSteps =
      List.replicate 13 .taken := by
    decide +kernel
  obtain ⟨-, hdisconnecting, hreasons, -⟩ := rulings_of_run 0 hrun
  obtain ⟨-, hdisconnecting', -⟩ := rulings_of_run 1 hrun
  have hrefused : Ruling.refused "EntityAction: already crouching" ∈
      server.image (fun w step => [w.ruling 0 step]) emptyServer crouchSteps := by
    rw [hrulings]
    exact List.mem_append_right _ (List.mem_singleton_self _)
  refine ⟨hdisconnecting.mpr ⟨_, hrefused, by decide⟩, hreasons.trans ?_, ?_⟩
  · exact (congrArg (List.flatMap Ruling.reasons) hrulings).trans (by decide +kernel)
  · rw [← Bool.not_eq_true]
    intro hclosed
    obtain ⟨r, hr, hne⟩ := hdisconnecting'.mp hclosed
    have htaken : r ∈ List.replicate 13 Ruling.taken := hother ▸ hr
    exact hne (List.eq_of_mem_replicate htaken)

end Runs

end Vitamine
