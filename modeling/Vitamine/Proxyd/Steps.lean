import Vitamine.Proxyd.Handlers

/-!
# What a step can do

The inversion lemmas of the steps of the server. Most packets change nothing that the invariants
are about: `Quiet` says that the registries, the chunks, the phases and what matters of the players
are as they were, and which packets may have been sent. `handle_effect` gives the cases of a frame:
a quiet step, or one of the handlers that change more, with the frame it came from; `onTick_cases`
gives those of a tick.

What a frame asks for is read by `settingsOf`, `teleportConfirmOf` and `digOf`, as the handlers
read it.
-/

namespace Vitamine

open Wire

/-! ## What a frame asks for -/

/-- The packet of a frame, if the frame has its id and the payload decodes. -/
def payloadOf (P : PacketDef) (frame : PacketFrame) : Option P.Packet :=
  if frame.id = P.id then deserializePacketPayload P frame.data else none

/-- The settings of a `ClientSettings`. -/
def settingsOf (frame : PacketFrame) : Option ClientSettingsPacket :=
  (payloadOf packetClientSettings frame).map
    fun (locale, viewDistance, chatMode, chatColors, displayedSkinParts, mainHand, ()) =>
      ⟨locale, viewDistance, chatMode, chatColors, displayedSkinParts, mainHand⟩

/-- The id of a `TeleportConfirm`. -/
def teleportConfirmOf (frame : PacketFrame) : Option (BitVec 32) :=
  (payloadOf packetTeleportConfirm frame).map fun (teleportId, ()) => teleportId

/-- The name of a `LoginStart`. -/
def loginStartOf (frame : PacketFrame) : Option Bytes :=
  (payloadOf packetLoginStart frame).map fun (name, ()) => name

/-- The position of a `PlayerPosition` or a `PlayerPositionRotation`. -/
def positionOf (frame : PacketFrame) : Option EntityCoord :=
  ((payloadOf packetPlayerPosition frame).map fun (x, y, z, _, ()) =>
    ⟨.ofFloat64 x, .ofFloat64 y, .ofFloat64 z⟩).or
  ((payloadOf packetPlayerPositionRotationClient frame).map fun (x, y, z, _, _, _, ()) =>
    ⟨.ofFloat64 x, .ofFloat64 y, .ofFloat64 z⟩)

/-- The location, if the status and the face pass the checks and the status starts a dig. -/
def startedDig (status : BitVec 32) (location : BitVec 64) (face : BitVec 8) :
    Option (BitVec 64) :=
  if ¬ 6 < status.toInt ∧ ¬ 5 < face.toInt ∧ status = 0 then some location else none

/-- The location of a `PlayerDigging` that starts a dig. -/
def digOf (frame : PacketFrame) : Option (BitVec 64) :=
  (payloadOf packetPlayerDigging frame).bind fun (status, location, face, ()) =>
    startedDig status location face

theorem payloadOf_of_ne {P : PacketDef} {frame : PacketFrame} (h : frame.id ≠ P.id) :
    payloadOf P frame = none := if_neg h

theorem id_of_payloadOf {P : PacketDef} {frame : PacketFrame} {packet : P.Packet}
    (h : payloadOf P frame = some packet) : frame.id = P.id := by
  by_contra hne
  rw [payloadOf_of_ne hne] at h
  cases h

/-- The `switch` by what the payloads say. -/
theorem switchFrame_cases {β : Type} {cases : List (Case β)} {frame : PacketFrame}
    {malformed other : β} (hn : (cases.map fun c => c.packetDef.id).Nodup) :
    ((∀ P ∈ cases.map fun c => c.packetDef, payloadOf P frame = none) ∧
      (switchFrame cases frame malformed other = malformed ∨
        switchFrame cases frame malformed other = other)) ∨
    ∃ c ∈ cases, ∃ packet, payloadOf c.packetDef frame = some packet ∧
      switchFrame cases frame malformed other = c.body packet := by
  unfold switchFrame
  cases hf : cases.find? fun c => frame.id = c.packetDef.id with
  | none =>
    refine .inl ⟨List.forall_mem_map.mpr fun c hc => payloadOf_of_ne ?_, .inr rfl⟩
    simpa using List.find?_eq_none.mp hf c hc
  | some c =>
    have hmem := List.mem_of_find?_eq_some hf
    have hid : frame.id = c.packetDef.id := by simpa using List.find?_some hf
    cases hp : deserializePacketPayload c.packetDef frame.data with
    | some packet => exact .inr ⟨c, hmem, packet, by rw [payloadOf, if_pos hid, hp], by simp only [hp]⟩
    | none =>
      refine .inl ⟨List.forall_mem_map.mpr fun c' hc' => ?_, .inl (by simp only [hp])⟩
      by_cases hid' : frame.id = c'.packetDef.id
      · have : c' = c := List.inj_on_of_nodup_map hn hc' hmem (by rw [← hid', hid])
        subst this
        rw [payloadOf, if_pos hid, hp]
      · exact payloadOf_of_ne hid'

/-- A payload that decodes meets the case of its packet. -/
theorem switchFrame_of_payload {β : Type} {cases : List (Case β)} {frame : PacketFrame}
    {malformed other : β} (hn : (cases.map fun c => c.packetDef.id).Nodup) {c : Case β}
    (hc : c ∈ cases) {packet : c.packetDef.Packet} (hp : payloadOf c.packetDef frame = some packet) :
    switchFrame cases frame malformed other = c.body packet := by
  rcases @switchFrame_cases _ cases frame malformed other hn with
    ⟨hnone, -⟩ | ⟨c', hc', packet', hp', he⟩
  · rw [hnone _ (List.mem_map_of_mem hc)] at hp
    cases hp
  · have hid : c'.packetDef.id = c.packetDef.id :=
      (id_of_payloadOf hp').symm.trans (id_of_payloadOf hp)
    obtain rfl := List.inj_on_of_nodup_map hn hc' hc hid
    rw [he, Option.some.inj (hp'.symm.trans hp)]

section Phases

variable (w : World) (this : StateMachinePtr)

theorem World.nodup_initialCases : ((w.initialCases this).map fun c => c.packetDef.id).Nodup := by
  simp only [World.initialCases, List.map]
  decide

theorem World.nodup_loginCases : ((w.loginCases this).map fun c => c.packetDef.id).Nodup := by
  simp only [World.loginCases, List.map]
  decide

theorem World.nodup_playInitCases :
    ((w.playInitCases this).map fun c => c.packetDef.id).Nodup := by
  simp only [World.playInitCases, List.map]
  decide

theorem World.nodup_playCases : ((w.playCases this).map fun c => c.packetDef.id).Nodup := by
  simp only [World.playCases, List.map]
  decide

variable {w this} {frame : PacketFrame}

/-- In `INITIAL` there are handshakes only. -/
theorem handle_initial_cases (h : w.phase this = .initial) :
    w.handle this frame = w.disconnect this ∨
      ∃ version nextState, w.handle this frame = w.onHandshake this version nextState := by
  rw [World.handle, h]
  rcases @switchFrame_cases _ _ frame (w.disconnect this) (w.disconnect this)
    (w.nodup_initialCases this) with ⟨-, he | he⟩ | ⟨c, hc, packet, -, he⟩
  · exact .inl he
  · exact .inl he
  · obtain rfl := List.mem_singleton.mp hc
    exact .inr ⟨packet.1, packet.2.2.2.1, he⟩

/-- In `LOGIN` there are logins only. -/
theorem handle_login_cases (h : w.phase this = .login) :
    w.handle this frame = w.disconnect this ∨
      ∃ name, loginStartOf frame = some name ∧
        w.handle this frame = w.onLoginStart this name := by
  rw [World.handle, h]
  rcases @switchFrame_cases _ _ frame (w.disconnect this) (w.disconnect this)
    (w.nodup_loginCases this) with ⟨-, he | he⟩ | ⟨c, hc, packet, hp, he⟩
  · exact .inl he
  · exact .inl he
  · obtain rfl := List.mem_singleton.mp hc
    exact .inr ⟨packet.1, by rw [loginStartOf, hp]; rfl, he⟩

theorem handle_playInit_cases (h : w.phase this = .playInit) :
    ((∀ P ∈ (w.playInitCases this).map fun c => c.packetDef, payloadOf P frame = none) ∧
      (w.handle this frame = w.disconnect this ∨ w.handle this frame = w)) ∨
    ∃ c ∈ w.playInitCases this, ∃ packet, payloadOf c.packetDef frame = some packet ∧
      w.handle this frame = c.body packet := by
  rw [World.handle, h]
  exact switchFrame_cases (w.nodup_playInitCases this)

theorem handle_play_cases (h : w.phase this = .play) :
    ((∀ P ∈ (w.playCases this).map fun c => c.packetDef, payloadOf P frame = none) ∧
      (w.handle this frame = w.disconnect this ∨ w.handle this frame = w)) ∨
    ∃ c ∈ w.playCases this, ∃ packet, payloadOf c.packetDef frame = some packet ∧
      w.handle this frame = c.body packet := by
  rw [World.handle, h]
  exact switchFrame_cases (w.nodup_playCases this)

end Phases

/-! ## Quiet steps -/

/-- What matters of a player, but for where it is. -/
structure PlayerState.Keeps (s s' : PlayerState) : Prop where
  entityId : s'.entityId = s.entityId
  uuid : s'.uuid = s.uuid
  username : s'.username = s.username
  clientSettings : s'.clientSettings = s.clientSettings
  nextTeleportId : s'.nextTeleportId = s.nextTeleportId
  outstandingTeleportIds : s'.outstandingTeleportIds = s.outstandingTeleportIds

/-- What matters of a player, its chunk included. -/
structure PlayerState.Same (s s' : PlayerState) : Prop extends PlayerState.Keeps s s' where
  chunk : s'.chunk = s.chunk

theorem PlayerState.Keeps.viewDistance {s s' : PlayerState} (h : s.Keeps s') :
    s'.viewDistance = s.viewDistance := by
  rw [PlayerState.viewDistance, h.clientSettings, PlayerState.viewDistance]

theorem PlayerState.Same.refl (s : PlayerState) : s.Same s := ⟨⟨rfl, rfl, rfl, rfl, rfl, rfl⟩, rfl⟩

theorem PlayerState.Same.trans {s s' s'' : PlayerState} (h : s.Same s') (h' : s'.Same s'') :
    s.Same s'' where
  entityId := h'.entityId.trans h.entityId
  uuid := h'.uuid.trans h.uuid
  username := h'.username.trans h.username
  clientSettings := h'.clientSettings.trans h.clientSettings
  nextTeleportId := h'.nextTeleportId.trans h.nextTeleportId
  outstandingTeleportIds := h'.outstandingTeleportIds.trans h.outstandingTeleportIds
  chunk := h'.chunk.trans h.chunk

/-- Everything but the traffic is as it was, as far as it matters. -/
structure Skeleton (w w' : World) : Prop where
  tracker : w'.tracker = w.tracker
  players : w'.globalState.players = w.globalState.players
  chunks : w'.globalState.chunks = w.globalState.chunks
  serverSettings : w'.globalState.serverSettings = w.globalState.serverSettings
  life : w'.life = w.life
  phase : w'.phase = w.phase
  player : ∀ p, (w.player p).Same (w'.player p)

theorem Skeleton.refl (w : World) : Skeleton w w :=
  ⟨rfl, rfl, rfl, rfl, rfl, rfl, fun _ => .refl _⟩

theorem Skeleton.trans {w w' w'' : World} (h : Skeleton w w') (h' : Skeleton w' w'') :
    Skeleton w w'' where
  tracker := h'.tracker.trans h.tracker
  players := h'.players.trans h.players
  chunks := h'.chunks.trans h.chunks
  serverSettings := h'.serverSettings.trans h.serverSettings
  life := h'.life.trans h.life
  phase := h'.phase.trans h.phase
  player p := (h.player p).trans (h'.player p)

/-- The packets that `q` may be sent by a quiet step of `this`. -/
inductive QuietPacket (w : World) (this q : StateMachinePtr) : ClientboundPacket → Prop where
  | update {packet : ClientboundPacket} (hphase : w.phase this = .play) (hne : q ≠ this)
      (hsub : q ∈ w.tracker.subscriptions (w.player this).chunk)
      (hid : packet.updates = some (w.player this).entityId) : QuietPacket w this q packet
  | chat {text : Bytes} {position : BitVec 8} (hphase : w.phase this = .play)
      (hmem : q ∈ w.globalState.players) : QuietPacket w this q (.chatServer text position)
  | keepAlive {id : Int} (hphase : w.phase this = .play) (hq : q = this) :
      QuietPacket w this q (.keepAliveServer id)
  | disconnect {reason : Bytes} (hphase : w.phase this = .play) (hq : q = this) :
      QuietPacket w this q (.disconnect reason)
  | disconnectLogin {reason : Bytes} (hplay : w.phase this ≠ .play)
      (hinit : w.phase this ≠ .playInit) (hq : q = this) :
      QuietPacket w this q (.disconnectLogin reason)

theorem QuietPacket.of_skeleton {w w' : World} {this q : StateMachinePtr}
    {packet : ClientboundPacket} (h : Skeleton w w') (hk : QuietPacket w' this q packet) :
    QuietPacket w this q packet := by
  have hp := h.player this
  cases hk with
  | update hphase hne hsub hid =>
    exact .update (by rwa [← h.phase]) hne (by rwa [← hp.chunk, ← h.tracker])
      (by rwa [← hp.entityId])
  | chat hphase hmem => exact .chat (by rwa [← h.phase]) (by rwa [← h.players])
  | keepAlive hphase hq => exact .keepAlive (by rwa [← h.phase]) hq
  | disconnect hphase hq => exact .disconnect (by rwa [← h.phase]) hq
  | disconnectLogin hplay hinit hq =>
    exact .disconnectLogin (by rwa [← h.phase]) (by rwa [← h.phase]) hq

/-- A step of `this` that changes nothing that matters, and sends quiet packets only. -/
structure Quiet (this : StateMachinePtr) (w w' : World) : Prop extends Skeleton w w' where
  traffic : ∀ q, ∃ packets : List ClientboundPacket,
    w'.traffic q = w.traffic q ++ packets.map .sent ∧ ∀ k ∈ packets, QuietPacket w this q k

section Quiet

variable {w w' w'' : World} {this : StateMachinePtr}

theorem Quiet.of_skeleton (h : Skeleton w w') (ht : w'.traffic = w.traffic) : Quiet this w w' where
  toSkeleton := h
  traffic q := ⟨[], by simp [ht], by simp⟩

theorem Quiet.refl (w : World) : Quiet this w w := .of_skeleton (.refl w) rfl

theorem Quiet.trans (h : Quiet this w w') (h' : Quiet this w' w'') : Quiet this w w'' where
  toSkeleton := h.toSkeleton.trans h'.toSkeleton
  traffic q := by
    obtain ⟨ks, ht, hk⟩ := h.traffic q
    obtain ⟨ks', ht', hk'⟩ := h'.traffic q
    refine ⟨ks ++ ks', by rw [ht', ht, List.map_append, List.append_assoc], fun k hmem => ?_⟩
    rcases List.mem_append.mp hmem with hmem | hmem
    · exact hk k hmem
    · exact (hk' k hmem).of_skeleton h.toSkeleton

theorem quiet_disconnect (w : World) : Quiet this w (w.disconnect this) :=
  .of_skeleton ⟨rfl, rfl, rfl, rfl, rfl, rfl, fun _ => .refl _⟩ rfl

theorem quiet_setPlayer {s : PlayerState} (hs : (w.player this).Same s) :
    Quiet this w (w.setPlayer this s) := by
  refine .of_skeleton ⟨rfl, rfl, rfl, rfl, rfl, by simp, fun p => ?_⟩ rfl
  rw [World.setPlayer_player]
  by_cases h : p = this
  · subst h
    rwa [Function.update_self]
  · rw [Function.update_of_ne h]
    exact .refl _

/-- Other fields of the state machine, such as its clocks. -/
theorem quiet_setMachine {m : StateMachine} (hphase : m.phase = w.phase this)
    (hplayer : m.playerState = w.player this) : Quiet this w (w.setMachine this m) := by
  refine .of_skeleton ⟨rfl, rfl, rfl, rfl, rfl, ?_, fun p => ?_⟩ rfl
  · funext q
    by_cases h : q = this
    · subst h
      simpa [World.phase] using hphase
    · simp [World.phase, h]
  · by_cases h : p = this
    · subst h
      simpa [World.player, hplayer] using PlayerState.Same.refl _
    · simpa [World.player, h] using PlayerState.Same.refl _

theorem quiet_sendEach {targets : Finset StateMachinePtr} {packet : ClientboundPacket}
    (h : ∀ q ∈ targets, QuietPacket w this q packet) : Quiet this w (w.sendEach targets packet) where
  toSkeleton := ⟨rfl, rfl, rfl, rfl, rfl, rfl, fun _ => .refl _⟩
  traffic q := by
    refine ⟨_, World.sendEach_traffic_append w targets packet q, fun k hk => ?_⟩
    split at hk <;> rename_i hq
    · obtain rfl := List.mem_singleton.mp hk
      exact h q hq
    · cases hk

theorem quiet_sendPacket {packet : ClientboundPacket} (h : QuietPacket w this this packet) :
    Quiet this w (w.sendPacket this packet) where
  toSkeleton := ⟨rfl, rfl, rfl, rfl, rfl, rfl, fun _ => .refl _⟩
  traffic q := by
    by_cases hq : q = this
    · subst hq
      exact ⟨[packet], by simp [World.sendPacket], by simpa using h⟩
    · exact ⟨[], by simp [World.sendPacket, hq], by simp⟩

/-- A broadcast about the player itself to those who see it. -/
theorem quiet_broadcast {packet : ClientboundPacket} (hphase : w.phase this = .play)
    (hid : packet.updates = some (w.player this).entityId) :
    Quiet this w (w.broadcastLocallyUnsafe this packet false) := by
  refine quiet_sendEach fun q hq => ?_
  obtain ⟨hne, hsub⟩ := Finset.mem_erase.mp hq
  exact .update hphase hne hsub hid

theorem quiet_disconnectWith (w : World) (message : Bytes) (hinit : w.phase this ≠ .playInit) :
    Quiet this w (w.disconnectWith this message) := by
  unfold World.disconnectWith
  by_cases h : w.phase this = .play
  · simp only [if_pos h]
    exact (quiet_sendPacket (.disconnect h rfl)).trans (quiet_disconnect _)
  · simp only [if_neg h]
    exact (quiet_sendPacket (.disconnectLogin h hinit rfl)).trans (quiet_disconnect _)

end Quiet

/-! ## The quiet handlers -/

section Handlers

variable {w : World} {this : StateMachinePtr}

theorem quiet_onPluginMessage (channel data : Bytes) :
    Quiet this w (w.onPluginMessage this channel data) := by
  unfold World.onPluginMessage
  split
  · split
    · split
      · exact quiet_disconnect w
      · exact quiet_setPlayer ⟨⟨rfl, rfl, rfl, rfl, rfl, rfl⟩, rfl⟩
    · exact quiet_disconnect w
  · exact .refl w

theorem quiet_onPlayerAbilities (flags : BitVec 8) (flyingSpeed walkingSpeed : FloatValue) :
    Quiet this w (w.onPlayerAbilities this flags flyingSpeed walkingSpeed) :=
  quiet_setPlayer ⟨⟨rfl, rfl, rfl, rfl, rfl, rfl⟩, rfl⟩

theorem updates_createMovePacket (state : PlayerState) (oldPosition : EntityCoord) (rotate : Bool) :
    (createMovePacket state oldPosition rotate).updates = some state.entityId := by
  unfold createMovePacket
  simp only
  split_ifs <;> rfl

/-- An action is ignored, refused, or starts or stops something, which leaves what matters. -/
theorem onEntityAction_cases {P : World → Prop} (entityId actionId : BitVec 32) (hself : P w)
    (hrefused : ∀ message, P (w.disconnectWith this message))
    (hswitch : ∀ (invalid already : String) (done : Bool) (set : PlayerState → PlayerState),
      (∀ s : PlayerState, s.Same (set s)) →
        P (w.switchAction this entityId invalid already done set)) :
    P (w.onEntityAction this entityId actionId) := by
  unfold World.onEntityAction
  simp only
  split_ifs
  · exact hswitch _ _ _ _ fun s => ⟨⟨rfl, rfl, rfl, rfl, rfl, rfl⟩, rfl⟩
  · exact hswitch _ _ _ _ fun s => ⟨⟨rfl, rfl, rfl, rfl, rfl, rfl⟩, rfl⟩
  · exact hself
  · exact hswitch _ _ _ _ fun s => ⟨⟨rfl, rfl, rfl, rfl, rfl, rfl⟩, rfl⟩
  · exact hswitch _ _ _ _ fun s => ⟨⟨rfl, rfl, rfl, rfl, rfl, rfl⟩, rfl⟩
  · exact hself
  · exact hrefused _

variable (h : w.phase this = .play)

include h

theorem quiet_disconnectWith_play (message : Bytes) :
    Quiet this w (w.disconnectWith this message) :=
  quiet_disconnectWith w message (by rw [h]; decide)

theorem quiet_onChat (message : Bytes) : Quiet this w (w.onChat this message) := by
  unfold World.onChat
  split
  · exact quiet_disconnectWith_play h _
  · exact quiet_sendEach fun q hq => .chat h hq

theorem quiet_onCloseWindow (windowId : BitVec 8) :
    Quiet this w (w.onCloseWindow this windowId) := by
  unfold World.onCloseWindow
  split
  · split
    · exact quiet_disconnectWith_play h _
    · exact quiet_setPlayer ⟨⟨rfl, rfl, rfl, rfl, rfl, rfl⟩, rfl⟩
  · exact .refl w

theorem quiet_onPlayerRotation (yaw pitch : FloatValue) :
    Quiet this w (w.onPlayerRotation this yaw pitch) := by
  have hs : (w.player this).Same { w.player this with yaw, pitch } :=
    ⟨⟨rfl, rfl, rfl, rfl, rfl, rfl⟩, rfl⟩
  unfold World.onPlayerRotation
  refine (quiet_setPlayer hs).trans ((quiet_broadcast ?_ rfl).trans (quiet_broadcast ?_ ?_))
  · rwa [World.setPlayer_phase]
  · rwa [World.broadcastLocallyUnsafe, World.sendEach_phase, World.setPlayer_phase]
  · rfl

theorem quiet_switchAction (entityId : BitVec 32) (invalid already : String) (done : Bool)
    {set : PlayerState → PlayerState} (hset : ∀ s : PlayerState, s.Same (set s)) :
    Quiet this w (w.switchAction this entityId invalid already done set) := by
  unfold World.switchAction
  split
  · exact quiet_disconnectWith_play h _
  split
  · exact quiet_disconnectWith_play h _
  · exact (quiet_setPlayer (hset _)).trans
      (quiet_broadcast (by rwa [World.setPlayer_phase]) rfl)

theorem quiet_onEntityAction (entityId actionId : BitVec 32) :
    Quiet this w (w.onEntityAction this entityId actionId) :=
  onEntityAction_cases entityId actionId (.refl w) (fun _ => quiet_disconnectWith_play h _)
    fun invalid already done _ hset => quiet_switchAction h entityId invalid already done hset

theorem quiet_onHeldItemChange (slot : BitVec 16) :
    Quiet this w (w.onHeldItemChange this slot) := by
  unfold World.onHeldItemChange
  split
  · exact quiet_disconnectWith_play h _
  · exact quiet_setPlayer ⟨⟨rfl, rfl, rfl, rfl, rfl, rfl⟩, rfl⟩

theorem quiet_onAnimation (hand : BitVec 32) : Quiet this w (w.onAnimation this hand) := by
  unfold World.onAnimation
  split
  · exact quiet_disconnectWith_play h _
  · exact quiet_broadcast h rfl

theorem quiet_onUseItem (hand : BitVec 32) : Quiet this w (w.onUseItem this hand) := by
  unfold World.onUseItem
  split
  · exact quiet_disconnectWith_play h _
  · exact .refl w

/-- A move inside a chunk. -/
theorem quiet_onMove {s : PlayerState} (hs : (w.player this).Keeps s) {oldPosition : EntityCoord}
    (hold : coordCast oldPosition = (w.player this).chunk)
    (hchunk : s.chunk = (w.player this).chunk) (rotate : Bool) :
    Quiet this w ((w.setPlayer this s).onMove this oldPosition rotate) := by
  have hset : Quiet this w (w.setPlayer this s) := quiet_setPlayer ⟨hs, hchunk⟩
  have hplay : (w.setPlayer this s).phase this = .play := by rwa [World.setPlayer_phase]
  have hmove : (createMovePacket ((w.setPlayer this s).player this) oldPosition rotate).updates =
      some ((w.setPlayer this s).player this).entityId := updates_createMovePacket _ _ _
  unfold World.onMove
  rw [if_neg (by simp [hold, hchunk])]
  simp only
  split
  · exact hset.trans ((quiet_broadcast hplay hmove).trans (quiet_broadcast hplay rfl))
  · exact hset.trans (quiet_broadcast hplay hmove)

end Handlers

/-! ## The cases of a frame -/

/-- What `handle` may do with a frame of `this`. -/
inductive Effect (w : World) (this : StateMachinePtr) (frame : PacketFrame) : World → Prop where
  /-- The frame is neither settings nor a confirmation in `PLAY_INIT`, and neither settings nor a
  dig in `PLAY`. -/
  | quiet {w' : World}
      (hinit : w.phase this = .playInit → settingsOf frame = none ∧ teleportConfirmOf frame = none)
      (hplay : w.phase this = .play → settingsOf frame = none ∧ digOf frame = none)
      (h : Quiet this w w') : Effect w this frame w'
  | phase {phase : ClientPhase} (hinit : w.phase this = .initial)
      (hphase : phase = .status ∨ phase = .login) : Effect w this frame (w.setPhase this phase)
  | login {name : Bytes} (hlogin : w.phase this = .login)
      (hframe : loginStartOf frame = some name) :
      Effect w this frame (w.onLoginStart this name)
  | confirm {id : BitVec 32} (hinit : w.phase this = .playInit)
      (hframe : teleportConfirmOf frame = some id) (hother : settingsOf frame = none) :
      Effect w this frame (w.onTeleportConfirm this id)
  | settingsInit {packet : ClientSettingsPacket} (hinit : w.phase this = .playInit)
      (hframe : settingsOf frame = some packet) (hother : teleportConfirmOf frame = none) :
      Effect w this frame (w.onSettingsInPlayInit this packet)
  | settings {packet : ClientSettingsPacket} (hplay : w.phase this = .play)
      (hframe : settingsOf frame = some packet) (hother : digOf frame = none) :
      Effect w this frame (w.onClientSettingsChange this packet)
  | transition {s : PlayerState} {rotate : Bool} (hplay : w.phase this = .play)
      (hs : (w.player this).Keeps s) (hne : s.chunk ≠ (w.player this).chunk)
      (hmove : positionOf frame = some s.position)
      (hframe : settingsOf frame = none ∧ digOf frame = none) :
      Effect w this frame ((w.setPlayer this s).onChunkTransition this (w.player this).chunk s.chunk
        (w.player this).position rotate)
  | dig {location : BitVec 64} (hplay : w.phase this = .play)
      (hframe : digOf frame = some location) (hother : settingsOf frame = none) :
      Effect w this frame (w.startDigging this location)

section Cases

variable {w : World} {this : StateMachinePtr} {frame : PacketFrame}

/-- A quiet step in a phase where no frame is noted. -/
theorem Effect.of_quiet {w' : World} (hinit : w.phase this ≠ .playInit)
    (hplay : w.phase this ≠ .play) (h : Quiet this w w') : Effect w this frame w' :=
  .quiet (fun hp => absurd hp hinit) (fun hp => absurd hp hplay) h

theorem effect_onHandshake (h : w.phase this = .initial) (version nextState : BitVec 32) :
    Effect w this frame (w.onHandshake this version nextState) := by
  have hquiet : ∀ {w'}, Quiet this w w' → Effect w this frame w' :=
    .of_quiet (by rw [h]; decide) (by rw [h]; decide)
  unfold World.onHandshake
  split_ifs
  · exact hquiet (quiet_disconnectWith w _ (by rw [h]; decide))
  · exact .phase h (.inl rfl)
  · exact .phase h (.inr rfl)
  · exact hquiet (quiet_disconnectWith w _ (by rw [h]; decide))

theorem handle_effect_initial (h : w.phase this = .initial) :
    Effect w this frame (w.handle this frame) := by
  rcases @handle_initial_cases w this frame h with he | ⟨version, nextState, he⟩ <;> rw [he]
  · exact .of_quiet (by rw [h]; decide) (by rw [h]; decide) (quiet_disconnect w)
  · exact effect_onHandshake h version nextState

theorem handle_effect_login (h : w.phase this = .login) :
    Effect w this frame (w.handle this frame) := by
  rcases @handle_login_cases w this frame h with he | ⟨name, hname, he⟩ <;> rw [he]
  · exact .of_quiet (by rw [h]; decide) (by rw [h]; decide) (quiet_disconnect w)
  · exact .login h hname

/-- A `LoginStart` in `LOGIN` logs in. -/
theorem handle_loginStart (h : w.phase this = .login) {name : Bytes}
    (hframe : loginStartOf frame = some name) :
    w.handle this frame = w.onLoginStart this name := by
  obtain ⟨packet, hp, rfl⟩ := Option.map_eq_some_iff.mp hframe
  rw [World.handle, h]
  exact switchFrame_of_payload (w.nodup_loginCases this) (List.mem_singleton_self _) hp

theorem handle_effect_status (h : w.phase this = .status) :
    Effect w this frame (w.handle this frame) := by
  rw [World.handle, h]
  exact .of_quiet (by rw [h]; decide) (by rw [h]; decide) (quiet_disconnect w)

/-- A frame whose payload is that of one packet is that of no packet with another id. -/
theorem payloadOf_none {P P' : PacketDef} {packet : P.Packet} (h : payloadOf P frame = some packet)
    (hne : P.id ≠ P'.id) : payloadOf P' frame = none :=
  payloadOf_of_ne (by rwa [id_of_payloadOf h])

theorem settingsOf_none (h : payloadOf packetClientSettings frame = none) :
    settingsOf frame = none := by
  rw [settingsOf, h]
  rfl

theorem teleportConfirmOf_none (h : payloadOf packetTeleportConfirm frame = none) :
    teleportConfirmOf frame = none := by
  rw [teleportConfirmOf, h]
  rfl

theorem digOf_none (h : payloadOf packetPlayerDigging frame = none) : digOf frame = none := by
  rw [digOf, h]
  rfl

theorem handle_effect_playInit (h : w.phase this = .playInit) :
    Effect w this frame (w.handle this frame) := by
  have hquiet : payloadOf packetClientSettings frame = none →
      payloadOf packetTeleportConfirm frame = none → ∀ {w'}, Quiet this w w' →
        Effect w this frame w' := fun hs ht _ =>
    .quiet (fun _ => ⟨settingsOf_none hs, teleportConfirmOf_none ht⟩) (by rw [h]; simp)
  rcases @handle_playInit_cases w this frame h with ⟨hnone, he⟩ | ⟨c, hc, packet, hp, he⟩
  · have hs := hnone packetClientSettings (by simp [World.playInitCases])
    have ht := hnone packetTeleportConfirm (by simp [World.playInitCases])
    rcases he with he | he <;> rw [he]
    · exact hquiet hs ht (quiet_disconnect w)
    · exact hquiet hs ht (.refl w)
  · rw [he]
    simp only [World.playInitCases, List.mem_cons, List.not_mem_nil, or_false] at hc
    rcases hc with rfl | rfl | rfl | rfl <;> dsimp only at hp
    · exact hquiet (payloadOf_none hp (by decide)) (payloadOf_none hp (by decide)) (.refl w)
    · refine .confirm h ?_ (settingsOf_none (payloadOf_none hp (by decide)))
      rw [teleportConfirmOf, hp]
      rfl
    · exact hquiet (payloadOf_none hp (by decide)) (payloadOf_none hp (by decide))
        (quiet_onPluginMessage packet.1 packet.2.1)
    · refine .settingsInit h ?_ (teleportConfirmOf_none (payloadOf_none hp (by decide)))
      rw [settingsOf, hp]
      rfl

theorem onMove_of_chunk_ne {s : PlayerState} (hchunk : s.chunk ≠ (w.player this).chunk)
    (rotate : Bool) : (w.setPlayer this s).onMove this (w.player this).position rotate =
      (w.setPlayer this s).onChunkTransition this (w.player this).chunk s.chunk
        (w.player this).position rotate := by
  have hne : s.chunk ≠ coordCast (w.player this).position := hchunk
  rw [World.onMove, World.setPlayer_player, Function.update_self, if_pos hne]
  rfl

/-- A move of `this`, to what `s` says. -/
theorem effect_onMove (h : w.phase this = .play)
    (hd : settingsOf frame = none ∧ digOf frame = none) {s : PlayerState}
    (hs : (w.player this).Keeps s) (hmove : positionOf frame = some s.position) (rotate : Bool) :
    Effect w this frame ((w.setPlayer this s).onMove this (w.player this).position rotate) := by
  by_cases hchunk : s.chunk = (w.player this).chunk
  · exact .quiet (by rw [h]; simp) (fun _ => hd) (quiet_onMove h hs rfl hchunk rotate)
  · rw [onMove_of_chunk_ne hchunk]
    exact .transition h hs hchunk hmove hd

theorem effect_onPlayerPosition (h : w.phase this = .play)
    (hd : settingsOf frame = none ∧ digOf frame = none)
    {x y z : FloatValue} (hmove : positionOf frame = some ⟨x, y, z⟩) :
    Effect w this frame (w.onPlayerPosition this x y z) :=
  effect_onMove h hd (s := { w.player this with position := ⟨x, y, z⟩ })
    ⟨rfl, rfl, rfl, rfl, rfl, rfl⟩ hmove false

theorem effect_onPlayerPositionRotation (h : w.phase this = .play)
    (hd : settingsOf frame = none ∧ digOf frame = none)
    {x y z : FloatValue} (hmove : positionOf frame = some ⟨x, y, z⟩) (yaw pitch : FloatValue) :
    Effect w this frame (w.onPlayerPositionRotation this x y z yaw pitch) :=
  effect_onMove h hd (s := { w.player this with position := ⟨x, y, z⟩, yaw, pitch })
    ⟨rfl, rfl, rfl, rfl, rfl, rfl⟩ hmove true

theorem effect_onPlayerDigging (h : w.phase this = .play) {status : BitVec 32}
    {location : BitVec 64} {face : BitVec 8} (hd : digOf frame = startedDig status location face)
    (hs : settingsOf frame = none) :
    Effect w this frame (w.onPlayerDigging this status location face) := by
  have hquiet : ∀ {w'}, startedDig status location face = none → Quiet this w w' →
      Effect w this frame w' := fun hnone =>
    .quiet (by rw [h]; simp) (fun _ => ⟨hs, hd.trans hnone⟩)
  unfold World.onPlayerDigging
  split_ifs with hstatus hface hzero
  · exact hquiet (by simp [startedDig, hstatus]) (quiet_disconnectWith_play h _)
  · exact hquiet (by simp [startedDig, hface]) (quiet_disconnectWith_play h _)
  · exact .dig h (by rw [hd, startedDig, if_pos ⟨hstatus, hface, hzero⟩]) hs
  · exact hquiet (if_neg fun hall => hzero hall.2.2) (.refl w)

/-- A packet of `PLAY` that is neither settings nor a dig. -/
theorem unnoted {P : PacketDef} {packet : P.Packet} (h : payloadOf P frame = some packet)
    (hs : P.id ≠ packetClientSettings.id) (hd : P.id ≠ packetPlayerDigging.id) :
    settingsOf frame = none ∧ digOf frame = none :=
  ⟨settingsOf_none (payloadOf_none h hs), digOf_none (payloadOf_none h hd)⟩

theorem handle_effect_play (h : w.phase this = .play) :
    Effect w this frame (w.handle this frame) := by
  have hquiet : settingsOf frame = none ∧ digOf frame = none → ∀ {w'}, Quiet this w w' →
      Effect w this frame w' := fun hother _ => .quiet (by rw [h]; simp) fun _ => hother
  rcases @handle_play_cases w this frame h with ⟨hnone, he⟩ | ⟨c, hc, packet, hp, he⟩
  · have hother : settingsOf frame = none ∧ digOf frame = none :=
      ⟨settingsOf_none (hnone packetClientSettings (by simp [World.playCases])),
        digOf_none (hnone packetPlayerDigging (by simp [World.playCases]))⟩
    rcases he with he | he <;> rw [he]
    · exact hquiet hother (quiet_disconnect w)
    · exact hquiet hother (.refl w)
  · rw [he]
    simp only [World.playCases, List.mem_cons, List.not_mem_nil, or_false] at hc
    rcases hc with rfl | rfl | rfl | rfl | rfl | rfl | rfl | rfl | rfl | rfl | rfl | rfl | rfl |
      rfl | rfl <;> dsimp only at hp
    · exact hquiet (unnoted hp (by decide) (by decide)) (quiet_onChat h packet.1)
    · refine .settings h ?_ (digOf_none (payloadOf_none hp (by decide)))
      rw [settingsOf, hp]
      rfl
    · exact hquiet (unnoted hp (by decide) (by decide)) (quiet_onCloseWindow h packet.1)
    · exact hquiet (unnoted hp (by decide) (by decide)) (.refl w)
    · refine effect_onPlayerPosition h (unnoted hp (by decide) (by decide)) ?_
      rw [positionOf, hp]
      rfl
    · refine effect_onPlayerPositionRotation h (unnoted hp (by decide) (by decide)) ?_ _ _
      rw [positionOf, hp, payloadOf_none hp (by decide)]
      rfl
    · exact hquiet (unnoted hp (by decide) (by decide)) (quiet_onPlayerRotation h _ _)
    · exact hquiet (unnoted hp (by decide) (by decide)) (.refl w)
    · exact hquiet (unnoted hp (by decide) (by decide)) (.refl w)
    · exact hquiet (unnoted hp (by decide) (by decide)) (quiet_onPlayerAbilities _ _ _)
    · refine effect_onPlayerDigging h ?_ (settingsOf_none (payloadOf_none hp (by decide)))
      rw [digOf, hp]
      rfl
    · exact hquiet (unnoted hp (by decide) (by decide)) (quiet_onEntityAction h _ _)
    · exact hquiet (unnoted hp (by decide) (by decide)) (quiet_onHeldItemChange h _)
    · exact hquiet (unnoted hp (by decide) (by decide)) (quiet_onAnimation h _)
    · exact hquiet (unnoted hp (by decide) (by decide)) (quiet_onUseItem h _)

theorem handle_effect (w : World) (this : StateMachinePtr) (frame : PacketFrame) :
    Effect w this frame (w.handle this frame) := by
  cases h : w.phase this with
  | initial => exact handle_effect_initial h
  | login => exact handle_effect_login h
  | playInit => exact handle_effect_playInit h
  | play => exact handle_effect_play h
  | status => exact handle_effect_status h

/-- A dig in `PLAY` has the one effect. -/
theorem Effect.eq_startDigging {w' : World} (h : Effect w this frame w')
    (hplay : w.phase this = .play) {location : BitVec 64} (hframe : digOf frame = some location) :
    w' = w.startDigging this location := by
  cases h with
  | quiet _ hquiet => simp [hframe, hplay] at hquiet
  | phase hinit => simp [hplay] at hinit
  | login hlogin => simp [hplay] at hlogin
  | confirm hinit => simp [hplay] at hinit
  | settingsInit hinit => simp [hplay] at hinit
  | settings _ _ hother => simp [hframe] at hother
  | transition _ _ _ _ hother => simp [hframe] at hother
  | dig _ hother =>
    obtain rfl := Option.some.inj (hframe.symm.trans hother)
    rfl

end Cases

/-! ## The other steps -/

section Steps

variable (w : World) (this : StateMachinePtr) (frame : PacketFrame) (now : Int)

@[simp] theorem next_connect (clientSettings : ClientSettings) (entityId : EntityId) :
    server.next w (.connect this clientSettings entityId now) =
      w.connect this clientSettings entityId now := rfl

@[simp] theorem next_packet : server.next w (.packet this frame now) =
    (w.receive this frame now).handle this frame := rfl

@[simp] theorem next_error : server.next w (.error this) = w.disconnect this := rfl

@[simp] theorem next_tick : server.next w (.tick this now) = w.onTick this now := rfl

@[simp] theorem next_disconnect : server.next w (.disconnect this) = w.destroy this := rfl

theorem skeleton_receive : Skeleton w (w.receive this frame now) where
  tracker := rfl
  players := rfl
  chunks := rfl
  serverSettings := rfl
  life := rfl
  phase := by
    funext q
    unfold World.phase World.receive
    by_cases h : q = this
    · subst h
      simp
    · simp [h]
  player p := by
    unfold World.player World.receive
    by_cases h : p = this
    · subst h
      simpa using PlayerState.Same.refl _
    · simpa [h] using PlayerState.Same.refl _

@[simp] theorem receive_tracker : (w.receive this frame now).tracker = w.tracker := rfl

@[simp] theorem receive_globalState : (w.receive this frame now).globalState = w.globalState := rfl

@[simp] theorem receive_life : (w.receive this frame now).life = w.life := rfl

@[simp] theorem receive_phase : (w.receive this frame now).phase = w.phase :=
  (skeleton_receive w this frame now).phase

@[simp] theorem receive_player : (w.receive this frame now).player = w.player := by
  funext p
  unfold World.player World.receive
  by_cases h : p = this
  · subst h
    simp
  · simp [h]

/-- A packet of `PLAY` meets its case of the `switch`. -/
theorem onPacket_of_playCase (hplay : w.phase this = .play) {i : Nat} {c : Case World}
    (hc : ((w.receive this frame now).playCases this)[i]? = some c) {packet : c.packetDef.Packet}
    (hp : payloadOf c.packetDef frame = some packet) :
    w.onPacket this frame now = c.body packet := by
  rw [World.onPacket, World.handle, receive_phase, hplay]
  exact switchFrame_of_payload (World.nodup_playCases _ this) (List.mem_of_getElem? hc) hp

@[simp] theorem receive_withSettings (packet : ClientSettingsPacket) :
    (w.receive this frame now).withSettings this packet = w.withSettings this packet := by
  rw [World.withSettings, receive_player]
  rfl

@[simp] theorem receive_settingsUnloads (packet : ClientSettingsPacket) :
    (w.receive this frame now).settingsUnloads this packet = w.settingsUnloads this packet := by
  simp only [World.settingsUnloads, receive_player, receive_withSettings]

@[simp] theorem receive_settingsLoads (packet : ClientSettingsPacket) :
    (w.receive this frame now).settingsLoads this packet = w.settingsLoads this packet := by
  simp only [World.settingsLoads, receive_player, receive_withSettings]

@[simp] theorem receive_traffic : (w.receive this frame now).traffic =
    Function.update w.traffic this (w.traffic this ++ [.received (w.phase this) frame]) := rfl

/-- The client was silent for too long. -/
def TimedOut : Prop := CLIENT_READ_TIMEOUT_NANOS ≤ now - (w.machine this).lastPacketTime

/-- A tick is quiet, but for the timeout of a connection in `PLAY_INIT`. -/
theorem onTick_cases : (¬ (w.phase this = .playInit ∧ TimedOut w this now) ∧
      Quiet this w (w.onTick this now)) ∨
    (w.phase this = .playInit ∧ TimedOut w this now) ∧
      w.onTick this now = w.disconnectWith this (spanFromCString "timeout") := by
  unfold TimedOut World.onTick
  by_cases ht : CLIENT_READ_TIMEOUT_NANOS ≤ now - (w.machine this).lastPacketTime
  · rw [if_pos ht]
    by_cases h : w.phase this = .playInit
    · exact .inr ⟨⟨h, ht⟩, rfl⟩
    · exact .inl ⟨fun hand => h hand.1, quiet_disconnectWith w _ h⟩
  · rw [if_neg ht]
    refine .inl ⟨fun hand => ht hand.2, ?_⟩
    split_ifs with hplay hkeep
    · have hset : Quiet this w
          (w.setMachine this { w.machine this with lastKeepAliveSentTime := now }) :=
        quiet_setMachine rfl rfl
      refine hset.trans (quiet_sendPacket (.keepAlive ?_ rfl))
      simpa [World.phase] using hplay
    · exact .refl w
    · exact .refl w

theorem onTick_traffic_of_timeout (hinit : w.phase this = .playInit) (h : TimedOut w this now) :
    (w.onTick this now).traffic = Function.update w.traffic this (w.traffic this ++
      [.sent (.disconnectLogin (chat.plainText (spanFromCString "timeout")))]) := by
  have ht : w.onTick this now = w.disconnectWith this (spanFromCString "timeout") := if_pos h
  rw [ht, World.disconnectWith_traffic _ _ _ (by rw [hinit]; decide)]

theorem onTick_traffic_self_of_timeout (hinit : w.phase this = .playInit)
    (h : TimedOut w this now) : (w.onTick this now).traffic this = w.traffic this ++
      [ClientboundPacket.disconnectLogin (chat.plainText (spanFromCString "timeout"))].map
        .sent := by
  rw [onTick_traffic_of_timeout w this now hinit h, Function.update_self]
  rfl

variable (clientSettings : ClientSettings) (entityId : EntityId)

@[simp] theorem connect_globalState :
    (w.connect this clientSettings entityId now).globalState = w.globalState := rfl

@[simp] theorem connect_tracker :
    (w.connect this clientSettings entityId now).tracker = w.tracker := rfl

@[simp] theorem connect_traffic :
    (w.connect this clientSettings entityId now).traffic = w.traffic := rfl

@[simp] theorem connect_life : (w.connect this clientSettings entityId now).life =
    Function.update w.life this .live := rfl

@[simp] theorem connect_phase : (w.connect this clientSettings entityId now).phase =
    Function.update w.phase this .initial := by
  funext q
  unfold World.phase World.connect
  by_cases h : q = this
  · subst h
    simp [StateMachine.fresh]
  · simp [h]

@[simp] theorem connect_player : (w.connect this clientSettings entityId now).player =
    Function.update w.player this { entityId, clientSettings } := by
  funext q
  unfold World.player World.connect
  by_cases h : q = this
  · subst h
    simp [StateMachine.fresh]
  · simp [h]

end Steps

/-! ## What a step leaves of the others -/

/-- The connection of a step. -/
def ServerStep.subject : ServerStep → StateMachinePtr
  | .connect this _ _ _ | .packet this _ _ | .error this | .tick this _ | .disconnect this => this

/-- Nothing that matters of `p` is different, but for its traffic. -/
structure Unmoved (w w' : World) (p : StateMachinePtr) : Prop where
  life : w'.life p = w.life p
  phase : w'.phase p = w.phase p
  player : (w.player p).Same (w'.player p)
  players : p ∈ w'.globalState.players ↔ p ∈ w.globalState.players
  membership : ∀ c, p ∈ w'.tracker.membership c ↔ p ∈ w.tracker.membership c
  subscriptions : ∀ c, p ∈ w'.tracker.subscriptions c ↔ p ∈ w.tracker.subscriptions c
  serverSettings : w'.globalState.serverSettings = w.globalState.serverSettings

section Unmoved

variable {w w' w'' : World} {this p : StateMachinePtr} {frame : PacketFrame}

theorem Unmoved.trans (h : Unmoved w w' p) (h' : Unmoved w' w'' p) : Unmoved w w'' p where
  life := h'.life.trans h.life
  phase := h'.phase.trans h.phase
  player := h.player.trans h'.player
  players := h'.players.trans h.players
  membership c := (h'.membership c).trans (h.membership c)
  subscriptions c := (h'.subscriptions c).trans (h.subscriptions c)
  serverSettings := h'.serverSettings.trans h.serverSettings

theorem Skeleton.unmoved (h : Skeleton w w') : Unmoved w w' p where
  life := by rw [h.life]
  phase := by rw [h.phase]
  player := h.player p
  players := by rw [h.players]
  membership c := by rw [h.tracker]
  subscriptions c := by rw [h.tracker]
  serverSettings := h.serverSettings

theorem same_of_eq {s s' : PlayerState} (h : s' = s) : s.Same s' := h ▸ .refl s

theorem unmoved_enterPlay (hp : p ≠ this) : Unmoved w (w.enterPlay this) p where
  life := by simp
  phase := by simp [hp]
  player := same_of_eq (by simp)
  players := by simp
  membership c := by simp [hp]
  subscriptions c := by simp [hp]
  serverSettings := by simp

theorem unmoved_onClientSettingsChange (hp : p ≠ this) (packet : ClientSettingsPacket) :
    Unmoved w (w.onClientSettingsChange this packet) p where
  life := by simp
  phase := by simp
  player := same_of_eq (by simp [hp])
  players := by simp
  membership c := by simp
  subscriptions c := by simp [World.mem_subscriptions_onClientSettingsChange, hp]
  serverSettings := by simp

/-- A frame of one connection moves no other. -/
theorem Effect.unmoved (h : Effect w this frame w') (hp : p ≠ this) : Unmoved w w' p := by
  cases h with
  | quiet _ _ hq => exact hq.toSkeleton.unmoved
  | phase => exact ⟨by simp, by simp [hp], same_of_eq (by simp), by simp, by simp, by simp, by simp⟩
  | login =>
    exact ⟨by simp, by simp [hp], same_of_eq (by simp [hp]), by simp [hp], by simp, by simp, by simp⟩
  | confirm =>
    rw [World.onTeleportConfirm_eq]
    exact .trans ⟨by simp, by simp, same_of_eq (by simp [World.confirmed_player, hp]), by simp,
      by simp, by simp, by simp⟩ (unmoved_enterPlay hp)
  | @settingsInit packet =>
    exact .trans (unmoved_onClientSettingsChange hp packet)
      ⟨by simp, by simp, same_of_eq (by simp [hp]), by simp, by simp, by simp, by simp⟩
  | settings => exact unmoved_onClientSettingsChange hp _
  | transition =>
    exact ⟨by simp, by simp, same_of_eq (by simp [hp]), by simp,
      by simp [World.onChunkTransition_tracker, hp], by simp [World.onChunkTransition_tracker, hp],
      by simp⟩
  | dig => exact ⟨by simp, by simp, same_of_eq (by simp), by simp, by simp, by simp, by simp⟩

/-- A frame neither connects nor destroys. -/
theorem Effect.life (h : Effect w this frame w') : w'.life = w.life := by
  cases h with
  | quiet _ _ hq => exact hq.life
  | confirm => simp [World.onTeleportConfirm_eq]
  | _ => simp

theorem Effect.serverSettings (h : Effect w this frame w') :
    w'.globalState.serverSettings = w.globalState.serverSettings := by
  cases h with
  | quiet _ _ hq => exact hq.serverSettings
  | confirm => simp [World.onTeleportConfirm_eq]
  | _ => simp

/-- No step changes the settings of the server. -/
@[simp] theorem next_serverSettings (step : ServerStep) :
    (server.next w step).globalState.serverSettings = w.globalState.serverSettings := by
  cases step with
  | connect => rfl
  | packet this frame now => exact (handle_effect _ this frame).serverSettings
  | error => rfl
  | tick this now =>
    rcases onTick_cases w this now with ⟨-, hq⟩ | ⟨-, ht⟩
    · exact hq.serverSettings
    · rw [next_tick, ht, World.disconnectWith_globalState]
  | disconnect => exact World.destroy_serverSettings ..

@[simp] theorem handle_life : (w.handle this frame).life = w.life :=
  (handle_effect w this frame).life

theorem unmoved_receive (frame : PacketFrame) (now : Int) :
    Unmoved w (w.receive this frame now) p :=
  (skeleton_receive w this frame now).unmoved

/-- The error of a reader moves nobody. -/
theorem unmoved_disconnect : Unmoved w (w.disconnect this) p :=
  (quiet_disconnect w).toSkeleton.unmoved

/-- A tick moves nobody. -/
theorem unmoved_onTick (now : Int) : Unmoved w (w.onTick this now) p := by
  rcases onTick_cases w this now with ⟨-, hq⟩ | ⟨-, ht⟩
  · exact hq.toSkeleton.unmoved
  · rw [ht]
    exact ⟨by simp, by simp, same_of_eq (by simp), by simp, by simp, by simp, by simp⟩

/-- **A step of one connection moves no other.** -/
theorem next_unmoved {step : ServerStep} (hp : p ≠ step.subject) :
    Unmoved w (server.next w step) p := by
  cases step with
  | connect this =>
    have hne : p ≠ this := hp
    exact ⟨by simp [hne], by simp [hne], same_of_eq (by simp [hne]), .rfl, fun _ => .rfl,
      fun _ => .rfl, rfl⟩
  | packet this frame now =>
    exact (unmoved_receive frame now).trans ((handle_effect _ this frame).unmoved hp)
  | error this => exact unmoved_disconnect
  | tick this now => exact unmoved_onTick now
  | disconnect this =>
    have hne : p ≠ this := hp
    refine ⟨by simp [hne], by simp, same_of_eq (by simp), ?_, fun c => ?_, fun c => ?_, by simp⟩
    · rw [next_disconnect, World.destroy_players]
      split <;> simp [hne]
    · rw [next_disconnect, World.destroy_tracker]
      split <;> simp [hne]
    · rw [next_disconnect, World.destroy_tracker]
      split <;> simp [hne]

/-- **The frame rule.** A property of each connection that looks at what `Unmoved` keeps has to be
shown of the connection of the step only. -/
theorem forall_next_iff {P : World → StateMachinePtr → Prop} {step : ServerStep}
    (hP : ∀ {w w' p}, Unmoved w w' p → P w p → P w' p) (h : ∀ p, P w p) :
    (∀ p, P (server.next w step) p) ↔ P (server.next w step) step.subject := by
  refine ⟨fun h' => h' step.subject, fun h' p => ?_⟩
  rcases eq_or_ne p step.subject with rfl | hp
  · exact h'
  · exact hP (next_unmoved hp) (h p)

end Unmoved

end Vitamine
