import Vitamine.Proxyd.Steps

/-!
# What a connection does after `disconnect()`

`disconnect()` only posts the work of closing, and the loop of the reader goes on with the frames
that it has; nothing in `onPacket` asks whether `disconnect()` was called.

* `World.onBytesReceived`: a chunk of bytes, up to the last frame of it.
* `Inert`: nothing is changed and nothing is sent.
* `World.Ignored`: the frames that change nothing and send nothing, phase by phase.
* `inert_handle_iff`: these frames are inert, and no others.
* `inert_of_ignoresCalls`: frames that are ignored where the first of them comes are still ignored
  after those before them.
* `disconnectIsFinal_iff`: a disconnect is final in a chunk if and only if the frames that come
  after it are ignored.
* `login_after_disconnect`: a whole login after a disconnect.
-/

namespace Vitamine

open Wire System

/-! ## A chunk of bytes -/

/-- A call of the reader. -/
def World.onCall (w : World) (this : StateMachinePtr) (now : Int) : ReaderCall → World
  | .onPacket frame => w.onPacket this frame now
  | .onError => w.disconnect this

/-- The reader of a connection and the calls it makes, each with the time that it finds. -/
def handling (this : StateMachinePtr) : System World (ReaderCall × Int) where
  enabled _ _ := True
  next w call := w.onCall this call.2 call.1

/-- The calls that the reader makes for a chunk, with the times that they find. -/
def World.callsOf (w : World) (this : StateMachinePtr) (data : Bytes) (now : Nat → Int) :
    List (ReaderCall × Int) :=
  ((w.machine this).reader.onBytesReceived data).2.zipIdx.map fun (call, i) => (call, now i)

/-- `StateMachine::onBytesReceived`. -/
def World.onBytesReceived (w : World) (this : StateMachinePtr) (data : Bytes) (now : Nat → Int) :
    World :=
  let reader := ((w.machine this).reader.onBytesReceived data).1
  let w := (handling this).after w (w.callsOf this data now)
  w.setMachine this { w.machine this with reader }

/-! ## Nothing is changed and nothing is sent -/

/-- What a connection was sent. -/
def World.sentTo (w : World) (q : StateMachinePtr) : List ClientboundPacket :=
  (w.traffic q).filterMap fun
    | .sent packet => some packet
    | .received .. => none

/-- No phase, no player and nothing of the global state is different, no connection was sent
anything, and nothing outside of the sections was accessed. -/
structure Inert (w w' : World) : Prop where
  phase : w'.phase = w.phase
  player : w'.player = w.player
  globalState : w'.globalState = w.globalState
  sentTo : ∀ q, w'.sentTo q = w.sentTo q
  outOfBounds : w'.outOfBounds = w.outOfBounds

section Writes

variable {w w' : World} {this : StateMachinePtr}

theorem Inert.refl (w : World) : Inert w w := ⟨rfl, rfl, rfl, fun _ => rfl, rfl⟩

theorem Inert.symm (h : Inert w w') : Inert w' w :=
  ⟨h.phase.symm, h.player.symm, h.globalState.symm, fun q => (h.sentTo q).symm,
    h.outOfBounds.symm⟩

theorem Inert.trans {w'' : World} (h : Inert w w') (h' : Inert w' w'') : Inert w w'' where
  phase := h'.phase.trans h.phase
  player := h'.player.trans h.player
  globalState := h'.globalState.trans h.globalState
  sentTo q := (h'.sentTo q).trans (h.sentTo q)
  outOfBounds := h'.outOfBounds.trans h.outOfBounds

/-- `disconnect()` itself sends nothing. -/
theorem inert_disconnect : Inert w (w.disconnect this) := ⟨rfl, rfl, rfl, fun _ => rfl, rfl⟩

theorem sentTo_of_traffic {q : StateMachinePtr} {packets : List ClientboundPacket}
    (ht : w'.traffic q = w.traffic q ++ packets.map .sent) :
    w'.sentTo q = w.sentTo q ++ packets := by
  rw [World.sentTo, ht, List.filterMap_append, List.filterMap_map]
  exact congrArg (w.sentTo q ++ ·) (List.filterMap_some ..)

/-- Something is sent. -/
theorem not_inert_of_traffic {q : StateMachinePtr} {packets : List ClientboundPacket}
    (ht : w'.traffic q = w.traffic q ++ packets.map .sent) (hne : packets ≠ []) : ¬ Inert w w' := by
  intro h
  have hsent := sentTo_of_traffic ht
  rw [h.sentTo] at hsent
  exact hne (List.append_right_eq_self.mp hsent.symm)

/-- `disconnect(message)` sends the message. -/
theorem not_inert_disconnectWith (message : Bytes) : ¬ Inert w (w.disconnectWith this message) := by
  by_cases hplay : w.phase this = .play
  · refine @not_inert_of_traffic w _ this [.disconnect (chat.plainText message)] ?_ (by simp)
    unfold World.disconnectWith
    simp [hplay, World.sendPacket]
  · refine @not_inert_of_traffic w _ this [.disconnectLogin (chat.plainText message)] ?_ (by simp)
    rw [World.disconnectWith_traffic _ _ _ hplay, Function.update_self]
    rfl

theorem update_eq_self_iff {s : PlayerState} :
    Function.update w.player this s = w.player ↔ s = w.player this :=
  Function.update_eq_self_iff

/-- A write of the player, and packets for some. -/
theorem inert_iff_of_write {s : PlayerState} {targets : Finset StateMachinePtr}
    {packets : List ClientboundPacket} (hne : packets ≠ []) (hphase : w'.phase = w.phase)
    (hplayer : w'.player = Function.update w.player this s)
    (hglobal : w'.globalState = w.globalState)
    (ht : ∀ q, w'.traffic q =
      w.traffic q ++ (if q ∈ targets then packets else []).map .sent)
    (hbounds : w'.outOfBounds = w.outOfBounds) :
    Inert w w' ↔ s = w.player this ∧ targets = ∅ := by
  constructor
  · intro h
    refine ⟨update_eq_self_iff.mp (hplayer.symm.trans h.player), ?_⟩
    refine Finset.eq_empty_of_forall_notMem fun q hq => ?_
    exact @not_inert_of_traffic w w' q packets (by rw [ht, if_pos hq]) hne h
  · rintro ⟨rfl, rfl⟩
    refine ⟨hphase, by rw [hplayer, Function.update_eq_self], hglobal, fun q => ?_, hbounds⟩
    have hnobody := ht q
    rw [if_neg (Finset.notMem_empty q)] at hnobody
    rw [sentTo_of_traffic hnobody, List.append_nil]

theorem inert_setPlayer_iff {s : PlayerState} :
    Inert w (w.setPlayer this s) ↔ s = w.player this := by
  constructor
  · exact fun h => update_eq_self_iff.mp ((World.setPlayer_player ..).symm.trans h.player)
  · rintro rfl
    rw [World.setPlayer_self]
    exact .refl w

theorem inert_sendEach_iff {targets : Finset StateMachinePtr} {packet : ClientboundPacket} :
    Inert w (w.sendEach targets packet) ↔ targets = ∅ := by
  have h := @inert_iff_of_write w (w.sendEach targets packet) 0 (w.player 0) targets [packet]
    (by simp) rfl (Function.update_eq_self ..).symm rfl
    (fun q => World.sendEach_traffic_append ..) rfl
  exact h.trans (and_iff_right rfl)

end Writes

/-! ## The frames that are ignored -/

namespace World

variable (w : World) (this : StateMachinePtr)

/-- Nobody else sees the player. -/
def Unseen : Prop := (w.tracker.subscribers (w.player this).chunk).erase this = ∅

/-- The brand that a plugin message sets, if it sets one. -/
def brandOf (channel data : Bytes) : Option Bytes :=
  if channel = PLUGIN_CHANNEL_MINECRAFT_BRAND then
    match deserializeString (Cursor.ofList data) with
    | .ok brand rest => if rest.size ≠ 0 then none else some brand
    | .error _ _ => none
  else none

/-- The message is not too long, and there is nobody to send it to. -/
def IgnoresChat (message : Bytes) : Prop := message.length ≤ 256 ∧ w.globalState.players = ∅

/-- The player is where the packet says, and looks where it looks, and nobody else sees it. -/
def IgnoresMove (position : EntityCoord) (yaw pitch : FloatValue) : Prop :=
  ((w.player this).position = position ∧ (w.player this).yaw = yaw ∧
    (w.player this).pitch = pitch) ∧ w.Unseen this

def IgnoresPlayerAbilities (flags : BitVec 8) (flyingSpeed walkingSpeed : FloatValue) : Prop :=
  (w.player this).abilityFlags = flags ∧ (w.player this).flyingSpeed = flyingSpeed ∧
    (w.player this).walkingSpeed = walkingSpeed

/-- The status and the face are right, and a dig that is started finds no chunk, or air in a section
that is there. -/
def IgnoresPlayerDigging (status : BitVec 32) (location : BitVec 64) (face : BitVec 8) : Prop :=
  (status.toInt ≤ 6 ∧ face.toInt ≤ 5) ∧ (status = 0 →
    ∀ chunk, w.globalState.chunks (chunkOf location) = some chunk →
      chunk.dig (indexOf location) = some (chunk, false))

def IgnoresHeldItemChange (slot : BitVec 16) : Prop :=
  (0 ≤ slot.toInt ∧ slot.toInt ≤ 8) ∧ (w.player this).heldItemSlot = slot.truncate 8

end World

/-- The actions that do nothing. -/
def IgnoresEntityAction (actionId : BitVec 32) : Prop :=
  actionId = 2 ∨ actionId = 5 ∨ actionId = 6 ∨ actionId = 7 ∨ actionId = 8

instance (actionId : BitVec 32) : Decidable (IgnoresEntityAction actionId) :=
  inferInstanceAs (Decidable (_ ∨ _))

def IsHand (hand : BitVec 32) : Prop := hand = 0 ∨ hand = 1

namespace World

variable (w : World) (this : StateMachinePtr)

/-- When the packets of `PLAY_INIT` are ignored. -/
def playInitIgnored : List (Case Prop) :=
  [⟨packetPlayerPositionRotationClient, fun _ => True⟩,
   ⟨packetTeleportConfirm, fun _ => False⟩,
   ⟨packetPluginMessageClient, fun (channel, data, ()) =>
      ∀ brand ∈ brandOf channel data, brand = (w.player this).clientBrand⟩,
   ⟨packetClientSettings, fun _ => False⟩]

/-- When the packets of `PLAY` are ignored. -/
def playIgnored : List (Case Prop) :=
  [⟨packetChatClient, fun (message, ()) => w.IgnoresChat message⟩,
   ⟨packetClientSettings,
    fun (locale, viewDistance, chatMode, chatColors, displayedSkinParts, mainHand, ()) =>
      w.withSettings this
        ⟨locale, viewDistance, chatMode, chatColors, displayedSkinParts, mainHand⟩ =
          w.player this⟩,
   ⟨packetCloseWindowClient, fun (windowId, ()) => windowId = 0#8⟩,
   ⟨packetInteractEntity, fun _ => True⟩,
   ⟨packetPlayerPosition, fun (x, y, z, _, ()) =>
      w.IgnoresMove this ⟨.ofFloat64 x, .ofFloat64 y, .ofFloat64 z⟩ (w.player this).yaw
        (w.player this).pitch⟩,
   ⟨packetPlayerPositionRotationClient, fun (x, y, z, yaw, pitch, _, ()) =>
      w.IgnoresMove this ⟨.ofFloat64 x, .ofFloat64 y, .ofFloat64 z⟩ (.ofFloat32 yaw)
        (.ofFloat32 pitch)⟩,
   ⟨packetPlayerRotation, fun (yaw, pitch, _, ()) =>
      w.IgnoresMove this (w.player this).position (.ofFloat32 yaw) (.ofFloat32 pitch)⟩,
   ⟨packetPlayerMovement, fun _ => True⟩,
   ⟨packetKeepAliveClient, fun _ => True⟩,
   ⟨packetPlayerAbilitiesClient, fun (flags, flyingSpeed, walkingSpeed, ()) =>
      w.IgnoresPlayerAbilities this flags (.ofFloat32 flyingSpeed) (.ofFloat32 walkingSpeed)⟩,
   ⟨packetPlayerDigging, fun (status, location, face, ()) =>
      w.IgnoresPlayerDigging status location face⟩,
   ⟨packetEntityAction, fun (_, actionId, _, ()) => IgnoresEntityAction actionId⟩,
   ⟨packetHeldItemChangeClient, fun (slot, ()) => w.IgnoresHeldItemChange this slot⟩,
   ⟨packetAnimationClient, fun (hand, ()) => IsHand hand ∧ w.Unseen this⟩,
   ⟨packetUseItem, fun (hand, ()) => IsHand hand⟩]

/-- The frame asks for nothing, or for what is there already, or is refused without a message. -/
def Ignored (frame : PacketFrame) : Prop :=
  match w.phase this with
  | .initial => payloadOf packetHandshake frame = none
  | .login => payloadOf packetLoginStart frame = none
  | .playInit => switchFrame (w.playInitIgnored this) frame True True
  | .play => switchFrame (w.playIgnored this) frame True True
  | .status => True

end World

/-! ## Two `switch`es side by side -/

/-- The cases are those of the same packets, with bodies that are related. -/
inductive CasesRel {β γ : Type} (R : β → γ → Prop) : List (Case β) → List (Case γ) → Prop where
  | nil : CasesRel R [] []
  | cons {P : PacketDef} {f : P.Packet → β} {g : P.Packet → γ} {cases : List (Case β)}
      {cases' : List (Case γ)} (h : ∀ packet, R (f packet) (g packet))
      (hcases : CasesRel R cases cases') : CasesRel R (⟨P, f⟩ :: cases) (⟨P, g⟩ :: cases')

theorem switchFrame_cons {β : Type} {P : PacketDef} {f : P.Packet → β} {cases : List (Case β)}
    {frame : PacketFrame} {malformed other : β} :
    switchFrame (⟨P, f⟩ :: cases) frame malformed other =
      if frame.id = P.id then
        match deserializePacketPayload P frame.data with
        | none => malformed
        | some packet => f packet
      else switchFrame cases frame malformed other := by
  unfold switchFrame
  rw [List.find?_cons]
  by_cases h : frame.id = P.id
  · rw [if_pos h, decide_eq_true h]
    cases hd : deserializePacketPayload P frame.data <;> simp only [hd]
  · rw [if_neg h, decide_eq_false h]

theorem switchFrame_rel {β γ : Type} {R : β → γ → Prop} {cases : List (Case β)}
    {cases' : List (Case γ)} (h : CasesRel R cases cases') {frame : PacketFrame}
    {malformed other : β} {malformed' other' : γ} (hmalformed : R malformed malformed')
    (hother : R other other') :
    R (switchFrame cases frame malformed other) (switchFrame cases' frame malformed' other') := by
  induction h with
  | nil => exact hother
  | cons hbody _ ih =>
    rw [switchFrame_cons, switchFrame_cons]
    split
    · split
      · exact hmalformed
      · exact hbody _
    · exact ih

/-! ## The handlers -/

section Handlers

variable {w w' : World} {this : StateMachinePtr}

theorem inert_onHandshake (h : w.phase this = .initial) (version nextState : BitVec 32) :
    ¬ Inert w (w.onHandshake this version nextState) := by
  have hphase : ∀ phase ≠ .initial, ¬ Inert w (w.setPhase this phase) := by
    intro phase hne hinert
    have := congrFun hinert.phase this
    rw [World.setPhase_phase, Function.update_self, h] at this
    exact hne this
  unfold World.onHandshake
  split_ifs
  · exact not_inert_disconnectWith _
  · exact hphase _ (by simp)
  · exact hphase _ (by simp)
  · exact not_inert_disconnectWith _

theorem inert_onLoginStart (name : Bytes) : ¬ Inert w (w.onLoginStart this name) :=
  not_inert_of_traffic (World.onLoginStart_traffic_self ..) (by simp [World.loginPackets])

theorem inert_onTeleportConfirm (h : w.phase this = .playInit) (id : BitVec 32) :
    ¬ Inert w (w.onTeleportConfirm this id) := by
  intro hinert
  have := congrFun hinert.phase this
  rw [World.onTeleportConfirm_eq, World.enterPlay_phase, Function.update_self, h] at this
  cases this

theorem inert_onSettingsInPlayInit (packet : ClientSettingsPacket) :
    ¬ Inert w (w.onSettingsInPlayInit this packet) := by
  refine @not_inert_of_traffic w _ this (w.settingsInPlayInitPackets this packet) ?_ ?_
  · rw [World.onSettingsInPlayInit_traffic, Function.update_self]
  · simp [World.settingsInPlayInitPackets]

theorem inert_onPluginMessage_iff (channel data : Bytes) :
    Inert w (w.onPluginMessage this channel data) ↔
      ∀ brand ∈ World.brandOf channel data, brand = (w.player this).clientBrand := by
  unfold World.onPluginMessage World.brandOf
  by_cases hchannel : channel = PLUGIN_CHANNEL_MINECRAFT_BRAND
  · rw [if_pos hchannel, if_pos hchannel]
    cases deserializeString (Cursor.ofList data) with
    | ok brand rest =>
      by_cases hrest : rest.size = 0
      · simp only [hrest, ne_eq, not_true_eq_false, if_false, Option.mem_some_iff, forall_eq',
          inert_setPlayer_iff]
        constructor
        · exact fun h => congrArg PlayerState.clientBrand h
        · rintro rfl
          rfl
      · simp only [ne_eq, hrest, not_false_eq_true, if_true]
        exact iff_of_true inert_disconnect (by simp)
    | error => exact iff_of_true inert_disconnect (by simp)
  · rw [if_neg hchannel, if_neg hchannel]
    exact iff_of_true (.refl w) (by simp)

theorem inert_onChat_iff (message : Bytes) :
    Inert w (w.onChat this message) ↔ w.IgnoresChat message := by
  unfold World.onChat World.IgnoresChat
  split_ifs with hlength
  · exact iff_of_false (not_inert_disconnectWith _) fun h => by omega
  · rw [World.broadcastGloballyUnsafe, if_pos rfl, inert_sendEach_iff]
    exact (and_iff_right (by omega)).symm

/-- Settings that are there already stream nothing. -/
theorem inert_onClientSettingsChange_iff (packet : ClientSettingsPacket) :
    Inert w (w.onClientSettingsChange this packet) ↔
      w.withSettings this packet = w.player this := by
  constructor
  · intro h
    exact update_eq_self_iff.mp ((World.onClientSettingsChange_player ..).symm.trans h.player)
  · intro h
    have hunloads : w.settingsUnloads this packet = [] := by
      rw [World.settingsUnloads, h]
      exact if_neg (lt_irrefl _)
    have hloads : w.settingsLoads this packet = [] := by
      rw [World.settingsLoads, h]
      exact if_neg fun hlt => lt_irrefl _ hlt.2
    rw [World.onClientSettingsChange_eq, hunloads, hloads, h, World.setPlayer_self]
    refine ⟨rfl, rfl, rfl, fun q => ?_, rfl⟩
    simp [World.sentTo, World.sendChunks, World.sendUnloads, World.sendAll]

theorem inert_onCloseWindow_iff (windowId : BitVec 8) :
    Inert w (w.onCloseWindow this windowId) ↔ windowId = 0#8 := by
  unfold World.onCloseWindow
  split_ifs with hzero hopen
  · exact iff_of_false (not_inert_disconnectWith _) hzero
  · rw [inert_setPlayer_iff]
    refine iff_of_false (fun h => ?_) hzero
    have hwindow := congrArg PlayerState.openWindow h
    simp only at hwindow
    rw [not_not.mp hopen] at hwindow
    exact hzero hwindow.symm
  · exact iff_of_true (.refl w) (not_not.mp hzero)

/-- A write of the player, with one packet or two to those who see it. -/
theorem inert_broadcast_iff {s : PlayerState} {packet packet' : ClientboundPacket} {rotate : Bool}
    (hw' : w' = if rotate then
      ((w.setPlayer this s).broadcastLocallyUnsafe this packet false).broadcastLocallyUnsafe this
        packet' false
      else (w.setPlayer this s).broadcastLocallyUnsafe this packet false) :
    Inert w w' ↔ s = w.player this ∧ w.Unseen this := by
  have hstate : (w.setPlayer this s).player this = s := by
    rw [World.setPlayer_player, Function.update_self]
  have hsend : ∀ k, (w.setPlayer this s).broadcastLocallyUnsafe this k false =
      (w.setPlayer this s).sendEach ((w.tracker.subscribers s.chunk).erase this) k := fun k => by
    rw [World.broadcastLocallyUnsafe, hstate]
    rfl
  have htraffic : ∀ k q, ((w.setPlayer this s).sendEach
      ((w.tracker.subscribers s.chunk).erase this) k).traffic q = w.traffic q ++
        (if q ∈ (w.tracker.subscribers s.chunk).erase this then [k] else []).map .sent :=
    fun k q => World.sendEach_traffic_append ..
  have hiff : Inert w w' ↔
      s = w.player this ∧ (w.tracker.subscribers s.chunk).erase this = ∅ := by
    cases rotate with
    | true =>
      have htwice : w' = ((w.setPlayer this s).sendEach
          ((w.tracker.subscribers s.chunk).erase this) packet).sendEach
            ((w.tracker.subscribers s.chunk).erase this) packet' := by
        rw [hw', if_pos rfl, hsend, World.broadcastLocallyUnsafe, World.sendEach_player, hstate]
        rfl
      subst htwice
      refine @inert_iff_of_write w _ this s _ [packet, packet'] (by simp)
        (World.setPlayer_phase ..) (World.setPlayer_player ..) rfl (fun q => ?_) rfl
      rw [World.sendEach_traffic_append, htraffic, List.append_assoc, ← List.map_append]
      split <;> rfl
    | false =>
      have honce : w' = (w.setPlayer this s).sendEach
          ((w.tracker.subscribers s.chunk).erase this) packet := by
        rw [hw', ← hsend]
        rfl
      subst honce
      exact @inert_iff_of_write w _ this s _ [packet] (by simp) (World.setPlayer_phase ..)
        (World.setPlayer_player ..) rfl (htraffic packet) rfl
  rw [hiff]
  refine and_congr_right ?_
  rintro rfl
  exact .rfl

theorem moved_eq_iff {s : PlayerState} {position : EntityCoord} {yaw pitch : FloatValue} :
    { s with position, yaw, pitch } = s ↔
      s.position = position ∧ s.yaw = yaw ∧ s.pitch = pitch := by
  constructor
  · intro h
    exact ⟨(congrArg PlayerState.position h).symm, (congrArg PlayerState.yaw h).symm,
      (congrArg PlayerState.pitch h).symm⟩
  · rintro ⟨rfl, rfl, rfl⟩
    rfl

/-- A move to where the player is. -/
theorem inert_onMove_iff (position : EntityCoord) (yaw pitch : FloatValue) (rotate : Bool) :
    Inert w ((w.setPlayer this { w.player this with position, yaw, pitch }).onMove this
      (w.player this).position rotate) ↔ w.IgnoresMove this position yaw pitch := by
  rw [World.IgnoresMove, ← moved_eq_iff]
  by_cases hchunk : (coordCast position : ChunkCoord) = (w.player this).chunk
  · refine @inert_broadcast_iff w _ this _ (createMovePacket
      { w.player this with position, yaw, pitch } (w.player this).position rotate)
      (createHeadLookPacket { w.player this with position, yaw, pitch }) rotate ?_
    have hsame : ¬ ((w.setPlayer this { w.player this with position, yaw, pitch }).player
        this).chunk ≠ coordCast (w.player this).position := by
      rw [World.setPlayer_player, Function.update_self]
      exact not_not.mpr hchunk
    rw [World.onMove, if_neg hsame]
    simp [World.broadcastLocallyUnsafe]
  · -- The player is in another chunk after it.
    have hne : { w.player this with position, yaw, pitch } ≠ w.player this := by
      intro he
      exact hchunk (congrArg PlayerState.chunk he)
    have htransition : ((w.setPlayer this { w.player this with position, yaw, pitch }).player
        this).chunk ≠ coordCast (w.player this).position := by
      rw [World.setPlayer_player, Function.update_self]
      exact hchunk
    refine iff_of_false (fun h => hne ?_) fun h => hne h.1
    have hplayer := h.player
    rw [World.onMove, if_pos htransition, World.onChunkTransition_player,
      World.setPlayer_player] at hplayer
    exact update_eq_self_iff.mp hplayer

theorem inert_onPlayerRotation_iff (yaw pitch : FloatValue) :
    Inert w (w.onPlayerRotation this yaw pitch) ↔
      w.IgnoresMove this (w.player this).position yaw pitch := by
  rw [World.IgnoresMove, ← moved_eq_iff]
  exact @inert_broadcast_iff w _ this { w.player this with yaw, pitch } _ _ true rfl

theorem inert_onPlayerAbilities_iff (flags : BitVec 8) (flyingSpeed walkingSpeed : FloatValue) :
    Inert w (w.onPlayerAbilities this flags flyingSpeed walkingSpeed) ↔
      w.IgnoresPlayerAbilities this flags flyingSpeed walkingSpeed := by
  unfold World.onPlayerAbilities World.IgnoresPlayerAbilities
  rw [inert_setPlayer_iff]
  constructor
  · intro h
    exact ⟨(congrArg PlayerState.abilityFlags h).symm, (congrArg PlayerState.flyingSpeed h).symm,
      (congrArg PlayerState.walkingSpeed h).symm⟩
  · rintro ⟨rfl, rfl, rfl⟩
    rfl

/-- A dig that is started: it makes a section that is absent, even for a block that is air. -/
theorem inert_startDigging_iff (location : BitVec 64) :
    Inert w (w.startDigging this location) ↔
      ∀ chunk, w.globalState.chunks (chunkOf location) = some chunk →
        chunk.dig (indexOf location) = some (chunk, false) := by
  unfold World.startDigging
  cases hc : w.globalState.chunks (chunkOf location) with
  | none => exact iff_of_true inert_disconnect (by simp)
  | some chunk =>
    simp only [Option.some.injEq, forall_eq']
    -- The chunk that is stored is the one that was there.
    have hstored : ∀ w' chunk',
        w'.globalState = (w.setChunk (chunkOf location) chunk').globalState →
          Inert w w' → chunk' = chunk := by
      intro w' chunk' hglobal h
      have hchunks := congrFun (congrArg GlobalState.chunks (hglobal.symm.trans h.globalState))
        (chunkOf location)
      rw [World.setChunk_chunks, Function.update_self, hc] at hchunks
      exact Option.some.inj hchunks
    cases hd : chunk.dig (indexOf location) with
    | none =>
      refine iff_of_false (fun h => ?_) (by simp)
      have hlength := congrArg List.length h.outOfBounds
      simp at hlength
    | some r =>
      obtain ⟨chunk', changed⟩ := r
      cases changed with
      | false =>
        simp only [Option.some.injEq, Prod.mk.injEq, and_true]
        constructor
        · exact hstored _ _ rfl
        · rintro rfl
          refine ⟨rfl, rfl, ?_, fun _ => rfl, rfl⟩
          have hsame : Function.update w.globalState.chunks (chunkOf location) (some chunk') =
              w.globalState.chunks := by rw [← hc, Function.update_eq_self]
          unfold World.setChunk
          simp only [hsame]
      | true =>
        refine iff_of_false (fun h => ?_) (by simp)
        have hsame : chunk' = chunk := by
          refine hstored _ chunk' ?_ h
          rfl
        subst hsame
        obtain ⟨hblocks, hflag⟩ := Chunk.dig_some hd
        obtain ⟨block, hat, hne⟩ := hflag.mp rfl
        have hair := @Blocks.at?_put _ _ _ BLOCKID_MINECRAFT_AIR hat
        rw [← hblocks, hat] at hair
        exact hne (Option.some.inj hair)

theorem inert_onPlayerDigging_iff (status : BitVec 32) (location : BitVec 64) (face : BitVec 8) :
    Inert w (w.onPlayerDigging this status location face) ↔
      w.IgnoresPlayerDigging status location face := by
  unfold World.onPlayerDigging World.IgnoresPlayerDigging
  split_ifs with hstatus hface hzero
  · exact iff_of_false (not_inert_disconnectWith _) fun h => by omega
  · exact iff_of_false (not_inert_disconnectWith _) fun h => by omega
  · rw [inert_startDigging_iff]
    constructor
    · exact fun h => ⟨by omega, fun _ => h⟩
    · exact fun h => h.2 hzero
  · exact iff_of_true (.refl w) ⟨by omega, fun h => absurd h hzero⟩

/-- An action that starts or stops something changes it, or is refused with a message. -/
theorem inert_switchAction (entityId : BitVec 32) (invalid already : String) (done : Bool)
    {set : PlayerState → PlayerState} (hset : done = false → set (w.player this) ≠ w.player this) :
    ¬ Inert w (w.switchAction this entityId invalid already done set) := by
  unfold World.switchAction
  split_ifs with hid hdone
  · exact not_inert_disconnectWith _
  · exact not_inert_disconnectWith _
  · intro h
    refine hset (Bool.eq_false_iff.mpr hdone) (update_eq_self_iff.mp ?_)
    exact (World.setPlayer_player ..).symm.trans h.player

theorem inert_onEntityAction_iff (entityId actionId : BitVec 32) :
    Inert w (w.onEntityAction this entityId actionId) ↔ IgnoresEntityAction actionId := by
  unfold World.onEntityAction
  simp only
  split_ifs with h0 h1 h2 h3 h4 h5
  · subst h0
    refine iff_of_false (inert_switchAction _ _ _ _ fun hdone h => ?_) (by decide)
    exact absurd (hdone.symm.trans (congrArg PlayerState.crouching h).symm) (by simp)
  · subst h1
    refine iff_of_false (inert_switchAction _ _ _ _ fun hdone h => ?_) (by decide)
    have hcrouching := congrArg PlayerState.crouching h
    simp only at hcrouching
    simp [← hcrouching] at hdone
  · exact iff_of_true (.refl w) (.inl h2)
  · subst h3
    refine iff_of_false (inert_switchAction _ _ _ _ fun hdone h => ?_) (by decide)
    exact absurd (hdone.symm.trans (congrArg PlayerState.sprinting h).symm) (by simp)
  · subst h4
    refine iff_of_false (inert_switchAction _ _ _ _ fun hdone h => ?_) (by decide)
    have hsprinting := congrArg PlayerState.sprinting h
    simp only at hsprinting
    simp [← hsprinting] at hdone
  · exact iff_of_true (.refl w) (.inr h5)
  · refine iff_of_false (not_inert_disconnectWith _) fun h => ?_
    rcases h with h | h
    · exact h2 h
    · exact h5 h

theorem inert_onHeldItemChange_iff (slot : BitVec 16) :
    Inert w (w.onHeldItemChange this slot) ↔ w.IgnoresHeldItemChange this slot := by
  unfold World.onHeldItemChange World.IgnoresHeldItemChange
  split_ifs with hslot
  · exact iff_of_false (not_inert_disconnectWith _) fun h => by omega
  · rw [inert_setPlayer_iff]
    constructor
    · exact fun h => ⟨by omega, (congrArg PlayerState.heldItemSlot h).symm⟩
    · rintro ⟨-, h⟩
      rw [← h]

theorem inert_onAnimation_iff (hand : BitVec 32) :
    Inert w (w.onAnimation this hand) ↔ IsHand hand ∧ w.Unseen this := by
  unfold World.onAnimation
  split_ifs with hhand
  · refine iff_of_false (not_inert_disconnectWith _) fun h => ?_
    rcases h.1 with h | h
    · exact hhand.1 h
    · exact hhand.2 h
  all_goals
    simp only [World.broadcastLocallyUnsafe, Bool.false_eq_true, if_false, inert_sendEach_iff]
    exact (and_iff_right (by unfold IsHand; tauto)).symm

theorem inert_onUseItem_iff (hand : BitVec 32) :
    Inert w (w.onUseItem this hand) ↔ IsHand hand := by
  unfold World.onUseItem
  split_ifs with hhand
  · exact iff_of_false (not_inert_disconnectWith _) (by unfold IsHand; tauto)
  · exact iff_of_true (.refl w) (by unfold IsHand; tauto)

/-! ## A frame -/

/-- A phase that has one packet only, which is never inert. -/
theorem inert_single_iff {P : PacketDef} {body : P.Packet → World} {frame : PacketFrame}
    (hbody : ∀ packet, ¬ Inert w (body packet)) :
    Inert w (switchFrame [⟨P, body⟩] frame (w.disconnect this) (w.disconnect this)) ↔
      payloadOf P frame = none := by
  rw [switchFrame_cons]
  by_cases hid : frame.id = P.id
  · rw [if_pos hid, payloadOf, if_pos hid]
    cases deserializePacketPayload P frame.data with
    | none => exact iff_of_true inert_disconnect rfl
    | some packet => exact iff_of_false (hbody packet) (by simp)
  · rw [if_neg hid, payloadOf, if_neg hid]
    exact iff_of_true inert_disconnect rfl

theorem inert_playInit (h : w.phase this = .playInit) (frame : PacketFrame) :
    Inert w (switchFrame (w.playInitCases this) frame (w.disconnect this) w) ↔
      switchFrame (w.playInitIgnored this) frame True True := by
  refine @switchFrame_rel _ _ (fun w' ignored => Inert w w' ↔ ignored) _ _ ?_ _ _ _ _ _
    (iff_of_true inert_disconnect trivial) (iff_of_true (.refl w) trivial)
  refine .cons (fun _ => iff_of_true (.refl w) trivial) (.cons (fun packet => ?_)
    (.cons (fun packet => ?_) (.cons (fun packet => ?_) .nil)))
  · exact iff_of_false (inert_onTeleportConfirm h packet.1) id
  · exact inert_onPluginMessage_iff packet.1 packet.2.1
  · exact iff_of_false (inert_onSettingsInPlayInit _) id

theorem inert_play (frame : PacketFrame) :
    Inert w (switchFrame (w.playCases this) frame (w.disconnect this) w) ↔
      switchFrame (w.playIgnored this) frame True True := by
  refine @switchFrame_rel _ _ (fun w' ignored => Inert w w' ↔ ignored) _ _ ?_ _ _ _ _ _
    (iff_of_true inert_disconnect trivial) (iff_of_true (.refl w) trivial)
  have hnothing : Inert w w ↔ True := iff_of_true (.refl w) trivial
  exact
    .cons (fun packet => inert_onChat_iff packet.1) <|
    .cons (fun packet => inert_onClientSettingsChange_iff _) <|
    .cons (fun packet => inert_onCloseWindow_iff packet.1) <|
    .cons (fun _ => hnothing) <|
    .cons (fun packet => inert_onMove_iff _ _ _ false) <|
    .cons (fun packet => inert_onMove_iff _ _ _ true) <|
    .cons (fun packet => inert_onPlayerRotation_iff _ _) <|
    .cons (fun _ => hnothing) <|
    .cons (fun _ => hnothing) <|
    .cons (fun packet => inert_onPlayerAbilities_iff _ _ _) <|
    .cons (fun packet => inert_onPlayerDigging_iff _ _ _) <|
    .cons (fun packet => inert_onEntityAction_iff _ _) <|
    .cons (fun packet => inert_onHeldItemChange_iff _) <|
    .cons (fun packet => inert_onAnimation_iff _) <|
    .cons (fun packet => inert_onUseItem_iff _) .nil

/-- **The frames that are ignored are those that are inert**, in every state. -/
theorem inert_handle_iff (w : World) (this : StateMachinePtr) (frame : PacketFrame) :
    Inert w (w.handle this frame) ↔ w.Ignored this frame := by
  unfold World.handle World.Ignored
  cases h : w.phase this with
  | initial =>
    have hcases : w.initialCases this =
        [⟨packetHandshake, fun packet => w.onHandshake this packet.1 packet.2.2.2.1⟩] := rfl
    rw [hcases]
    exact inert_single_iff fun _ => inert_onHandshake h _ _
  | login =>
    have hcases : w.loginCases this =
        [⟨packetLoginStart, fun packet => w.onLoginStart this packet.1⟩] := rfl
    rw [hcases]
    exact inert_single_iff fun _ => inert_onLoginStart _
  | playInit => exact inert_playInit h frame
  | play => exact inert_play frame
  | status => exact iff_of_true inert_disconnect trivial

end Handlers

/-! ## The calls of a chunk -/

section Chunks

variable {w w' : World} {this : StateMachinePtr}

theorem inert_receive (frame : PacketFrame) (now : Int) :
    Inert w (w.receive this frame now) where
  phase := receive_phase ..
  player := receive_player ..
  globalState := rfl
  sentTo q := by
    rw [World.sentTo, receive_traffic, World.sentTo]
    by_cases h : q = this
    · subst h
      simp
    · rw [Function.update_of_ne h]
  outOfBounds := rfl

/-- What is ignored depends on nothing that an ignored frame could change. -/
theorem Inert.ignored_iff (h : Inert w w') (frame : PacketFrame) :
    w'.Ignored this frame ↔ w.Ignored this frame := by
  have hinit : w'.playInitIgnored this = w.playInitIgnored this := by
    simp only [World.playInitIgnored, h.player]
  have htracker : w'.tracker = w.tracker := congrArg GlobalState.playerTracker h.globalState
  have hplay : w'.playIgnored this = w.playIgnored this := by
    simp only [World.playIgnored, World.IgnoresChat, World.withSettings, World.IgnoresMove,
      World.Unseen, World.IgnoresPlayerAbilities, World.IgnoresPlayerDigging,
      World.IgnoresHeldItemChange, h.player, h.globalState, htracker]
  unfold World.Ignored
  rw [h.phase, hinit, hplay]

theorem inert_onPacket_iff (frame : PacketFrame) (now : Int) :
    Inert w (w.onPacket this frame now) ↔ w.Ignored this frame := by
  have hreceive : Inert w (w.receive this frame now) := inert_receive frame now
  rw [← hreceive.ignored_iff frame, ← inert_handle_iff]
  constructor
  · exact fun h => hreceive.symm.trans h
  · exact fun h => hreceive.trans h

/-- A call with a frame that is ignored, or with none. -/
def World.IgnoresCall (w : World) (this : StateMachinePtr) : ReaderCall → Prop
  | .onPacket frame => w.Ignored this frame
  | .onError => True

theorem Inert.ignoresCall_iff (h : Inert w w') (call : ReaderCall) :
    w'.IgnoresCall this call ↔ w.IgnoresCall this call := by
  cases call with
  | onPacket frame => exact h.ignored_iff frame
  | onError => exact .rfl

theorem inert_onCall_iff (call : ReaderCall) (now : Int) :
    Inert w (w.onCall this now call) ↔ w.IgnoresCall this call := by
  cases call with
  | onPacket frame => exact inert_onPacket_iff frame now
  | onError => exact iff_of_true inert_disconnect trivial

/-- Calls that are ignored where the first of them begins leave everything as it is there. -/
theorem inert_of_ignoresCalls {calls : List (ReaderCall × Int)}
    (h : ∀ call ∈ calls, w.IgnoresCall this call.1) :
    Inert w ((handling this).after w calls) := by
  induction calls generalizing w with
  | nil => exact .refl w
  | cons call calls ih =>
    have hcall : Inert w (w.onCall this call.2 call.1) :=
      (inert_onCall_iff call.1 call.2).mpr (h call List.mem_cons_self)
    refine hcall.trans (ih fun call' hmem => ?_)
    exact (hcall.ignoresCall_iff call'.1).mpr (h call' (List.mem_cons_of_mem _ hmem))

/-- A chunk of frames that are ignored. -/
theorem inert_onBytesReceived {data : Bytes} {now : Nat → Int}
    (h : ∀ call ∈ w.callsOf this data now, w.IgnoresCall this call.1) :
    Inert w (w.onBytesReceived this data now) := by
  have hcalls := inert_of_ignoresCalls h
  refine hcalls.trans ⟨?_, ?_, rfl, fun _ => rfl, rfl⟩
  · funext q
    unfold World.onBytesReceived World.phase
    by_cases hq : q = this
    · subst hq
      simp
    · simp [hq]
  · funext q
    unfold World.onBytesReceived World.player
    by_cases hq : q = this
    · subst hq
      simp
    · simp [hq]

end Chunks

/-! ## A chunk -/

/-- If `disconnect()` was called, the call of the reader changes nothing and sends nothing. -/
def World.KeepsStill (this : StateMachinePtr) (w : World) (call : ReaderCall × Int) : Prop :=
  w.disconnecting this = true → Inert w (w.onCall this call.2 call.1)

/-- If `disconnect()` was called, the frame is one that is ignored. -/
def World.HandsIgnored (this : StateMachinePtr) (w : World) (call : ReaderCall × Int) : Prop :=
  w.disconnecting this = true → w.IgnoresCall this call.1

/-- A chunk begins: nothing of it has called `disconnect()`. -/
def World.beginChunk (w : World) (this : StateMachinePtr) : World :=
  { w with disconnecting := Function.update w.disconnecting this false }

/-- Once the handling of a frame of the chunk has called `disconnect()`, no later frame of it
changes anything or sends anything. -/
def World.DisconnectIsFinal (w : World) (this : StateMachinePtr) (data : Bytes)
    (now : Nat → Int) : Prop :=
  (handling this).Steps (w.beginChunk this) (w.callsOf this data now) (World.KeepsStill this)

/-- The frames of the chunk that come after a call of `disconnect()` are ignored. -/
def World.IgnoredAfterDisconnect (w : World) (this : StateMachinePtr) (data : Bytes)
    (now : Nat → Int) : Prop :=
  (handling this).Steps (w.beginChunk this) (w.callsOf this data now) (World.HandsIgnored this)

/-- **A disconnect is final in a chunk if and only if the frames that come after it are ignored**,
whatever the connection and the server were before it. -/
theorem disconnectIsFinal_iff (w : World) (this : StateMachinePtr) (data : Bytes)
    (now : Nat → Int) :
    w.DisconnectIsFinal this data now ↔ w.IgnoredAfterDisconnect this data now := by
  have hstep : ∀ (w : World) call, w.KeepsStill this call ↔ w.HandsIgnored this call :=
    fun w call => imp_congr_right fun _ => inert_onCall_iff call.1 call.2
  constructor
  · exact fun h => h.mono fun w call => (hstep w call).mp
  · exact fun h => h.mono fun w call => (hstep w call).mpr

/-- A frame of an unknown id, the version of the server with the way to `LOGIN`, and a name. -/
def badThenLogin : Bytes := [1, 1, 7, 0, 0xf2, 3, 0, 0x63, 0xdd, 2, 3, 0, 1, 0x61]

/-- A new connection. -/
def justConnected : World := server.after emptyServer [.connect 0 defaultClientSettings 0 0]

/-- The first frame calls `disconnect()`; the two that follow it are a whole login, and all the
players are told of it. -/
theorem login_after_disconnect :
    ¬ justConnected.DisconnectIsFinal 0 badThenLogin (fun _ => 0) ∧
      ((justConnected.onBytesReceived 0 badThenLogin fun _ => 0).phase 0 = .playInit ∧
        0 ∈ (justConnected.onBytesReceived 0 badThenLogin fun _ => 0).globalState.players) := by
  refine ⟨fun h => ?_, by decide +kernel, by decide +kernel⟩
  have hstill := h [(.onPacket ⟨1, []⟩, 0)] (.onPacket handshakeFrame, 0) (by decide +kernel)
    (by decide +kernel)
  have hphase := congrFun hstill.phase 0
  revert hphase
  decide +kernel

end Vitamine
