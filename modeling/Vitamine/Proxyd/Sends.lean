import Vitamine.Proxyd.Delivery

/-!
# Packets that only one handler sends

Chat, changed blocks and keep-alives come from one place each: the `ChatClient` handler, the digging
handler and the tick. All other packets are `Routine`.

* `handle_sends_cases`: a frame is a message, a dig, or sends routine packets only.
* `told_next_chat`, `told_next_block`, `told_next_keepAlive`: what a step adds to the messages, the
  changed blocks and the keep-alives that a connection was told.
-/

namespace Vitamine

open Wire

namespace ClientboundPacket

/-- Neither chat, nor a changed block, nor a keep-alive. -/
def Routine : ClientboundPacket → Prop
  | .chatServer .. | .blockChange .. | .keepAliveServer .. => False
  | _ => True

/-- The text of a message. -/
def chatText? : ClientboundPacket → Option Bytes
  | .chatServer chat _ => some chat
  | _ => none

/-- The location and the id of a changed block. -/
def changedBlock? : ClientboundPacket → Option (BitVec 64 × BitVec 32)
  | .blockChange location blockId => some (location, blockId)
  | _ => none

def keepAliveId? : ClientboundPacket → Option Int
  | .keepAliveServer keepAliveId => some keepAliveId
  | _ => none

theorem routine_of_updates {k : ClientboundPacket} {id : EntityId} (h : k.updates = some id) :
    k.Routine := by
  cases k with
  | chatServer => cases h
  | blockChange => cases h
  | keepAliveServer => cases h
  | _ => trivial

theorem Routine.chatText? {k : ClientboundPacket} (h : k.Routine) : k.chatText? = none := by
  cases k with
  | chatServer => cases h
  | blockChange => cases h
  | keepAliveServer => cases h
  | _ => rfl

theorem Routine.changedBlock? {k : ClientboundPacket} (h : k.Routine) : k.changedBlock? = none := by
  cases k with
  | chatServer => cases h
  | blockChange => cases h
  | keepAliveServer => cases h
  | _ => rfl

theorem Routine.keepAliveId? {k : ClientboundPacket} (h : k.Routine) : k.keepAliveId? = none := by
  cases k with
  | chatServer => cases h
  | blockChange => cases h
  | keepAliveServer => cases h
  | _ => rfl

end ClientboundPacket

open ClientboundPacket (Routine)

/-- What `read` finds in the packets that a connection was sent. -/
def World.told {α : Type} (w : World) (read : ClientboundPacket → Option α) (q : StateMachinePtr) :
    List α :=
  (w.sentTo q).filterMap read

/-- Every connection is sent packets as `P` says, if any. -/
def Sends (P : ClientboundPacket → Prop) (w w' : World) : Prop :=
  ∀ q, ∃ packets : List ClientboundPacket,
    w'.traffic q = w.traffic q ++ packets.map .sent ∧ ∀ k ∈ packets, P k

section Sends

variable {w w' w'' : World} {this q : StateMachinePtr} {P : ClientboundPacket → Prop} {α : Type}
  {read : ClientboundPacket → Option α}

theorem sends_of_eq (h : w'.traffic = w.traffic) : Sends P w w' :=
  fun q => ⟨[], by simp [h], by simp⟩

theorem Sends.trans (h : Sends P w w') (h' : Sends P w' w'') : Sends P w w'' := by
  intro q
  obtain ⟨ks, ht, hk⟩ := h q
  obtain ⟨ks', ht', hk'⟩ := h' q
  exact ⟨ks ++ ks', by rw [ht', ht, List.map_append, List.append_assoc],
    List.forall_mem_append.mpr ⟨hk, hk'⟩⟩

theorem Sends.mono {Q : ClientboundPacket → Prop} (h : Sends P w w') (hPQ : ∀ k, P k → Q k) :
    Sends Q w w' := by
  intro q
  obtain ⟨ks, ht, hk⟩ := h q
  exact ⟨ks, ht, fun k hmem => hPQ k (hk k hmem)⟩

theorem sends_sendEach {targets : Finset StateMachinePtr} {k : ClientboundPacket} (hk : P k) :
    Sends P w (w.sendEach targets k) := by
  intro q
  refine ⟨_, World.sendEach_traffic_append w targets k q, fun k' hk' => ?_⟩
  split at hk'
  · obtain rfl := List.mem_singleton.mp hk'
    exact hk
  · cases hk'

/-- The packets of one connection. -/
theorem sends_update {ks : List ClientboundPacket}
    (h : w'.traffic = Function.update w.traffic this (w.traffic this ++ ks.map .sent))
    (hk : ∀ k ∈ ks, P k) : Sends P w w' := by
  intro q
  rw [h]
  by_cases hq : q = this
  · subst hq
    exact ⟨ks, Function.update_self .., hk⟩
  · exact ⟨[], by rw [Function.update_of_ne hq]; simp, by simp⟩

theorem told_of_traffic {packets : List ClientboundPacket}
    (ht : w'.traffic q = w.traffic q ++ packets.map .sent) :
    w'.told read q = w.told read q ++ packets.filterMap read := by
  rw [World.told, sentTo_of_traffic ht, List.filterMap_append]
  rfl

/-- Packets that are not read say nothing. -/
theorem Sends.told_eq (h : Sends P w w') (hP : ∀ k, P k → read k = none) :
    w'.told read q = w.told read q := by
  obtain ⟨ks, ht, hk⟩ := h q
  rw [told_of_traffic ht, List.filterMap_eq_nil_iff.mpr fun k hmem => hP k (hk k hmem),
    List.append_nil]

/-! ## The handlers -/

theorem sends_disconnectWith (message : Bytes) :
    Sends Routine w (w.disconnectWith this message) := by
  unfold World.disconnectWith
  by_cases h : w.phase this = .play
  · simp only [if_pos h]
    exact sends_update rfl (List.forall_mem_singleton.mpr trivial)
  · simp only [if_neg h]
    exact sends_update rfl (List.forall_mem_singleton.mpr trivial)

theorem Quiet.sends_routine (h : Quiet this w w')
    (hk : ∀ {q k}, QuietPacket w this q k → k.Routine) : Sends Routine w w' := by
  intro q
  obtain ⟨ks, ht, hks⟩ := h.traffic q
  exact ⟨ks, ht, fun k hmem => hk (hks k hmem)⟩

/-- Out of `PLAY` there are no messages and no keep-alives. -/
theorem Quiet.sends_of_ne_play (h : Quiet this w w') (hplay : w.phase this ≠ .play) :
    Sends Routine w w' :=
  h.sends_routine fun hk => by
    cases hk with
    | update hphase => exact absurd hphase hplay
    | chat hphase => exact absurd hphase hplay
    | keepAlive hphase => exact absurd hphase hplay
    | disconnect => trivial
    | disconnectLogin => trivial

theorem routine_createMovePacket (state : PlayerState) (oldPosition : EntityCoord) (rotate : Bool) :
    (createMovePacket state oldPosition rotate).Routine :=
  ClientboundPacket.routine_of_updates (updates_createMovePacket state oldPosition rotate)

theorem sends_onCloseWindow (windowId : BitVec 8) :
    Sends Routine w (w.onCloseWindow this windowId) := by
  unfold World.onCloseWindow
  split_ifs
  · exact sends_disconnectWith _
  · exact sends_of_eq rfl
  · exact sends_of_eq rfl

/-- The loads and unloads of a move are the player's own, the rest is for those who see it. -/
theorem sends_onChunkTransition {start target : ChunkCoord} {oldPosition : EntityCoord}
    {rotate : Bool} (hunload : ∀ c, P (.unload c)) (hload : ∀ c chunk, P (.load c chunk))
    (hview : P (.updateViewPosition target.x target.z))
    (hmove : ∀ q, ∀ k ∈ w.movePackets this start target oldPosition rotate q, P k) :
    Sends P w (w.onChunkTransition this start target oldPosition rotate) := by
  intro q
  by_cases hq : q = this
  · subst hq
    exact ⟨_, World.onChunkTransition_traffic_self .., List.forall_mem_append.mpr
      ⟨World.forall_streamPackets _ hunload hload, List.forall_mem_singleton.mpr hview⟩⟩
  · exact ⟨_, World.onChunkTransition_traffic_ne w this _ _ _ _ hq, hmove q⟩

theorem routine_movePackets {start target : ChunkCoord} {oldPosition : EntityCoord} {rotate : Bool}
    {k : ClientboundPacket} (hk : k ∈ w.movePackets this start target oldPosition rotate q) :
    k.Routine := by
  rcases World.mem_movePackets _ _ _ _ _ _ hk with ⟨-, rfl | rfl | rfl⟩ | ⟨-, rfl⟩
  · exact routine_createMovePacket _ _ _
  · trivial
  · trivial
  · trivial

theorem sends_onMove {s : PlayerState} (oldPosition : EntityCoord) (rotate : Bool) :
    Sends Routine w ((w.setPlayer this s).onMove this oldPosition rotate) := by
  have hset : Sends Routine w (w.setPlayer this s) := sends_of_eq rfl
  refine hset.trans ?_
  unfold World.onMove
  simp only
  split_ifs
  · exact sends_onChunkTransition (fun _ => trivial) (fun _ _ => trivial) trivial
      fun _ _ => routine_movePackets
  · exact (sends_sendEach (routine_createMovePacket _ _ _)).trans (sends_sendEach trivial)
  · exact sends_sendEach (routine_createMovePacket _ _ _)

theorem sends_onPlayerRotation (yaw pitch : FloatValue) :
    Sends Routine w (w.onPlayerRotation this yaw pitch) := by
  have hset : Sends Routine w (w.setPlayer this { w.player this with yaw, pitch }) :=
    sends_of_eq rfl
  exact hset.trans ((sends_sendEach trivial).trans (sends_sendEach trivial))

theorem sends_onEntityAction (entityId actionId : BitVec 32) :
    Sends Routine w (w.onEntityAction this entityId actionId) := by
  refine onEntityAction_cases entityId actionId (sends_of_eq rfl)
    (fun _ => sends_disconnectWith _) fun invalid already done set _ => ?_
  unfold World.switchAction
  split_ifs
  · exact sends_disconnectWith _
  · exact sends_disconnectWith _
  · have hset : Sends Routine w (w.setPlayer this (set (w.player this))) := sends_of_eq rfl
    exact hset.trans (sends_sendEach trivial)

theorem sends_onHeldItemChange (slot : BitVec 16) :
    Sends Routine w (w.onHeldItemChange this slot) := by
  unfold World.onHeldItemChange
  split_ifs
  · exact sends_disconnectWith _
  · exact sends_of_eq rfl

theorem sends_onAnimation (hand : BitVec 32) : Sends Routine w (w.onAnimation this hand) := by
  unfold World.onAnimation
  split_ifs
  · exact sends_disconnectWith _
  all_goals exact sends_sendEach trivial

theorem sends_onUseItem (hand : BitVec 32) : Sends Routine w (w.onUseItem this hand) := by
  unfold World.onUseItem
  split_ifs
  · exact sends_disconnectWith _
  · exact sends_of_eq rfl

theorem sends_onPlayerDigging {status : BitVec 32} {location : BitVec 64} {face : BitVec 8}
    (h : startedDig status location face = none) :
    Sends Routine w (w.onPlayerDigging this status location face) := by
  unfold World.onPlayerDigging
  split_ifs with hstatus hface hzero
  · exact sends_disconnectWith _
  · exact sends_disconnectWith _
  · rw [startedDig, if_pos ⟨hstatus, hface, hzero⟩] at h
    cases h
  · exact sends_of_eq rfl

theorem sends_onClientSettingsChange (packet : ClientSettingsPacket) :
    Sends Routine w (w.onClientSettingsChange this packet) :=
  sends_update (w.onClientSettingsChange_traffic this packet)
    (w.forall_streamPackets (fun _ => trivial) fun _ _ => trivial)

theorem routine_leavePackets {k : ClientboundPacket} (hk : k ∈ w.leavePackets this q) :
    k.Routine := by
  rcases List.mem_append.mp hk with hk | hk <;> split at hk
  · obtain rfl := List.mem_singleton.mp hk
    trivial
  · cases hk
  · obtain rfl := List.mem_singleton.mp hk
    trivial
  · cases hk

end Sends

/-! ## The cases of a frame -/

/-- The message of a `ChatClient`. -/
def chatOf (frame : PacketFrame) : Option Bytes :=
  (payloadOf packetChatClient frame).map fun (message, ()) => message

section Cases

variable {w : World} {this : StateMachinePtr} {frame : PacketFrame}

theorem chatOf_none (h : payloadOf packetChatClient frame = none) : chatOf frame = none := by
  rw [chatOf, h]
  rfl

/-- Out of `PLAY`. -/
theorem handle_sends_of_ne_play (hplay : w.phase this ≠ .play) :
    Sends Routine w (w.handle this frame) := by
  generalize hw : w.handle this frame = w'
  have he : Effect w this frame w' := hw ▸ handle_effect w this frame
  cases he with
  | quiet _ _ hquiet => exact hquiet.sends_of_ne_play hplay
  | phase => exact sends_of_eq rfl
  | @login name =>
    intro q
    by_cases hq : q = this
    · subst hq
      refine ⟨_, World.onLoginStart_traffic_self .., ?_⟩
      simp [World.loginPackets, ClientboundPacket.Routine]
    · refine ⟨_, World.onLoginStart_traffic_ne w this name hq, fun k hk => ?_⟩
      split at hk
      · obtain rfl := List.mem_singleton.mp hk
        trivial
      · cases hk
  | @confirm id hinit =>
    intro q
    by_cases hq : q = this
    · subst hq
      exact ⟨_, onTeleportConfirm_traffic_self hinit id,
        forall_confirmPackets (fun _ => trivial) fun _ _ => trivial⟩
    · refine ⟨_, onTeleportConfirm_traffic_ne hinit id hq, fun k hk => ?_⟩
      split at hk
      · obtain rfl := List.mem_singleton.mp hk
        trivial
      · cases hk
  | @settingsInit packet =>
    refine sends_update (w.onSettingsInPlayInit_traffic this packet) ?_
    exact w.forall_settingsInPlayInitPackets this packet (fun _ => trivial) (fun _ _ => trivial)
      (fun _ => trivial) fun _ _ _ _ _ _ _ => trivial
  | settings h => exact absurd h hplay
  | transition h => exact absurd h hplay
  | dig h => exact absurd h hplay

/-- In `PLAY`, by the cases of the `switch`. -/
theorem handle_sends_play (hplay : w.phase this = .play) :
    (∃ message, chatOf frame = some message ∧ digOf frame = none ∧
      w.handle this frame = w.onChat this message) ∨
    (∃ location, digOf frame = some location ∧ chatOf frame = none ∧
      w.handle this frame = w.startDigging this location) ∨
    ((chatOf frame = none ∧ digOf frame = none) ∧ Sends Routine w (w.handle this frame)) := by
  rcases @handle_play_cases w this frame hplay with ⟨hnone, he⟩ | ⟨c, hc, packet, hp, he⟩
  · have hchat := chatOf_none (hnone packetChatClient (by simp [World.playCases]))
    have hdig := digOf_none (hnone packetPlayerDigging (by simp [World.playCases]))
    refine .inr (.inr ⟨⟨hchat, hdig⟩, ?_⟩)
    rcases he with he | he <;> rw [he] <;> exact sends_of_eq rfl
  have hother : ∀ {P : PacketDef} {packet : P.Packet}, payloadOf P frame = some packet →
      P.id ≠ packetChatClient.id → P.id ≠ packetPlayerDigging.id → ∀ {w'},
        w.handle this frame = w' → Sends Routine w w' →
          ((chatOf frame = none ∧ digOf frame = none) ∧ Sends Routine w (w.handle this frame)) :=
    fun hp hchat hdig _ he hs =>
      ⟨⟨chatOf_none (payloadOf_none hp hchat), digOf_none (payloadOf_none hp hdig)⟩, he ▸ hs⟩
  simp only [World.playCases, List.mem_cons, List.not_mem_nil, or_false] at hc
  rcases hc with rfl | rfl | rfl | rfl | rfl | rfl | rfl | rfl | rfl | rfl | rfl | rfl | rfl |
    rfl | rfl <;> dsimp only at hp
  · refine .inl ⟨packet.1, ?_, digOf_none (payloadOf_none hp (by decide)), he⟩
    rw [chatOf, hp]
    rfl
  · exact .inr (.inr (hother hp (by decide) (by decide) he (sends_onClientSettingsChange _)))
  · exact .inr (.inr (hother hp (by decide) (by decide) he (sends_onCloseWindow _)))
  · exact .inr (.inr (hother hp (by decide) (by decide) he (sends_of_eq rfl)))
  · exact .inr (.inr (hother hp (by decide) (by decide) he (sends_onMove _ _)))
  · exact .inr (.inr (hother hp (by decide) (by decide) he (sends_onMove _ _)))
  · exact .inr (.inr (hother hp (by decide) (by decide) he (sends_onPlayerRotation _ _)))
  · exact .inr (.inr (hother hp (by decide) (by decide) he (sends_of_eq rfl)))
  · exact .inr (.inr (hother hp (by decide) (by decide) he (sends_of_eq rfl)))
  · exact .inr (.inr (hother hp (by decide) (by decide) he (sends_of_eq rfl)))
  · -- A dig, or another status, which is refused or ignored.
    have hchat := chatOf_none (@payloadOf_none _ _ packetChatClient _ hp (by decide))
    have hdig : digOf frame = startedDig packet.1 packet.2.1 packet.2.2.1 := by
      rw [digOf, hp]
      rfl
    cases hs : startedDig packet.1 packet.2.1 packet.2.2.1 with
    | none => exact .inr (.inr ⟨⟨hchat, hdig.trans hs⟩, he ▸ sends_onPlayerDigging hs⟩)
    | some location =>
      refine .inr (.inl ⟨location, hdig.trans hs, hchat, ?_⟩)
      exact (handle_effect w this frame).eq_startDigging hplay (hdig.trans hs)
  · exact .inr (.inr (hother hp (by decide) (by decide) he (sends_onEntityAction _ _)))
  · exact .inr (.inr (hother hp (by decide) (by decide) he (sends_onHeldItemChange _)))
  · exact .inr (.inr (hother hp (by decide) (by decide) he (sends_onAnimation _)))
  · exact .inr (.inr (hother hp (by decide) (by decide) he (sends_onUseItem _)))

end Cases

/-! ## What a step tells -/

/-- A keep-alive is due: the client is in `PLAY`, was not silent for too long, and the last one was
sent long enough ago. -/
def KeepAliveDue (w : World) (this : StateMachinePtr) (now : Int) : Prop :=
  ¬ TimedOut w this now ∧ w.phase this = .play ∧
    KEEP_ALIVE_INTERVAL_NANOS ≤ now - (w.machine this).lastKeepAliveSentTime

instance (w : World) (this : StateMachinePtr) (now : Int) : Decidable (TimedOut w this now) :=
  inferInstanceAs (Decidable (_ ≤ _))

instance (w : World) (this : StateMachinePtr) (now : Int) : Decidable (KeepAliveDue w this now) :=
  inferInstanceAs (Decidable (_ ∧ _))

namespace World

/-- The text that a client says with a message. -/
def chatText (w : World) (this : StateMachinePtr) (message : Bytes) : Bytes :=
  chat.plainText
    (spanFromCString "<" ++ (w.player this).username ++ spanFromCString "> " ++ message)

/-- The text of the message that a step brings, if it is not too long. -/
def postOf (w : World) : ServerStep → Option Bytes
  | .packet this frame _ =>
    if w.phase this = .play then
      (chatOf frame).bind fun message =>
        if 256 < message.length then none else some (w.chatText this message)
    else none
  | _ => none

/-- The location of the block that a step takes away. -/
def dugBy (w : World) : ServerStep → Option (BitVec 64)
  | .packet this frame _ =>
    if w.phase this = .play then
      (digOf frame).bind fun location => if w.Digs location then some location else none
    else none
  | _ => none

/-- The id of the keep-alive that a step sends. -/
def keepAliveOf (w : World) : ServerStep → Option Int
  | .tick this now => if KeepAliveDue w this now then some now else none
  | _ => none

end World

section Steps

variable (w : World) {α : Type} {read : ClientboundPacket → Option α} (q : StateMachinePtr)

theorem told_receive (this : StateMachinePtr) (frame : PacketFrame) (now : Int) :
    (w.receive this frame now).told read q = w.told read q := by
  rw [World.told, sentTo_receive, World.told]

/-- A step is a message, a dig, a keep-alive, or tells nothing of these. -/
theorem next_told_cases (step : ServerStep) (hread : ∀ k, k.Routine → read k = none) :
    (∃ this frame now message, step = .packet this frame now ∧ w.phase this = .play ∧
      chatOf frame = some message ∧ digOf frame = none ∧
        server.next w step = (w.receive this frame now).onChat this message) ∨
    (∃ this frame now location, step = .packet this frame now ∧ w.phase this = .play ∧
      chatOf frame = none ∧ digOf frame = some location ∧
        server.next w step = (w.receive this frame now).startDigging this location) ∨
    (∃ this now, step = .tick this now ∧ KeepAliveDue w this now) ∨
    (w.postOf step = none ∧ w.dugBy step = none ∧ w.keepAliveOf step = none) ∧
      ∀ q, (server.next w step).told read q = w.told read q := by
  cases step with
  | connect => exact .inr (.inr (.inr ⟨⟨rfl, rfl, rfl⟩, fun _ => rfl⟩))
  | packet this frame now =>
    by_cases hplay : w.phase this = .play
    · rcases @handle_sends_play (w.receive this frame now) this frame (by rwa [receive_phase]) with
        ⟨message, hchat, hdig, he⟩ | ⟨location, hdig, hchat, he⟩ | ⟨⟨hchat, hdig⟩, hs⟩
      · exact .inl ⟨this, frame, now, message, rfl, hplay, hchat, hdig, he⟩
      · exact .inr (.inl ⟨this, frame, now, location, rfl, hplay, hchat, hdig, he⟩)
      · refine .inr (.inr (.inr ⟨⟨?_, ?_, rfl⟩, fun q => ?_⟩))
        · rw [World.postOf, if_pos hplay, hchat]
          rfl
        · rw [World.dugBy, if_pos hplay, hdig]
          rfl
        · rw [next_packet, hs.told_eq hread, told_receive]
    · have hs := @handle_sends_of_ne_play (w.receive this frame now) this frame
        (by rwa [receive_phase])
      refine .inr (.inr (.inr ⟨⟨if_neg hplay, if_neg hplay, rfl⟩, fun q => ?_⟩))
      rw [next_packet, hs.told_eq hread, told_receive]
  | error => exact .inr (.inr (.inr ⟨⟨rfl, rfl, rfl⟩, fun _ => rfl⟩))
  | tick this now =>
    by_cases hdue : KeepAliveDue w this now
    · exact .inr (.inr (.inl ⟨this, now, rfl, hdue⟩))
    · refine .inr (.inr (.inr ⟨⟨rfl, rfl, if_neg hdue⟩, fun q => ?_⟩))
      have hs : Sends Routine w (w.onTick this now) := by
        unfold World.onTick
        split_ifs with htimeout hplay hkeep
        · exact sends_disconnectWith _
        · exact absurd ⟨htimeout, hplay, hkeep⟩ hdue
        · exact sends_of_eq rfl
        · exact sends_of_eq rfl
      exact hs.told_eq hread
  | disconnect this =>
    refine .inr (.inr (.inr ⟨⟨rfl, rfl, rfl⟩, fun q => ?_⟩))
    have hs : Sends Routine w (w.destroy this) := by
      intro q
      by_cases hq : q = this
      · subst hq
        exact ⟨[], by rw [World.destroy_traffic_self]; simp, by simp⟩
      · refine ⟨_, World.destroy_traffic_ne w this hq, fun k hk => ?_⟩
        split at hk
        · exact routine_leavePackets hk
        · cases hk
    exact hs.told_eq hread

theorem onTick_of_due {this : StateMachinePtr} {now : Int} (h : KeepAliveDue w this now) :
    w.onTick this now = (w.setMachine this
      { w.machine this with lastKeepAliveSentTime := now }).sendPacket this
        (.keepAliveServer now) := by
  obtain ⟨htimeout, hplay, hkeep⟩ := h
  unfold TimedOut at htimeout
  rw [World.onTick, if_neg htimeout, if_pos hplay, if_pos hkeep]

theorem told_onTick_of_due {this : StateMachinePtr} {now : Int} (h : KeepAliveDue w this now) :
    (w.onTick this now).told read q =
      w.told read q ++ if q = this then (read (.keepAliveServer now)).toList else [] := by
  rw [onTick_of_due w h]
  by_cases hq : q = this
  · subst hq
    have ht : ((w.setMachine q { w.machine q with lastKeepAliveSentTime := now }).sendPacket q
        (.keepAliveServer now)).traffic q =
          w.traffic q ++ [ClientboundPacket.keepAliveServer now].map .sent := by
      simp [World.sendPacket]
    rw [told_of_traffic ht, if_pos rfl]
    cases hk : read (.keepAliveServer now) <;> simp [hk]
  · have ht : ((w.setMachine this { w.machine this with
        lastKeepAliveSentTime := now }).sendPacket this (.keepAliveServer now)).traffic q =
          w.traffic q ++ [].map .sent := by
      simp [World.sendPacket, hq]
    rw [told_of_traffic ht, if_neg hq]
    rfl

theorem told_sendEach (targets : Finset StateMachinePtr) (k : ClientboundPacket) :
    (w.sendEach targets k).told read q =
      w.told read q ++ if q ∈ targets then (read k).toList else [] := by
  rw [told_of_traffic (World.sendEach_traffic_append w targets k q)]
  split_ifs
  · cases hk : read k <;> simp [hk]
  · rfl

theorem told_startDigging (this : StateMachinePtr) (location : BitVec 64) :
    (w.startDigging this location).told read q = w.told read q ++
      if w.Digs location ∧ q ∈ (w.tracker.subscriptions (w.player this).chunk).erase this then
        (read (.blockChange location (BLOCKID_MINECRAFT_AIR.zeroExtend 32))).toList else [] := by
  rw [told_of_traffic (w.startDigging_traffic this location)]
  split_ifs
  · cases hk : read (.blockChange location (BLOCKID_MINECRAFT_AIR.zeroExtend 32)) <;> simp [hk]
  · rfl

theorem told_onChat (this : StateMachinePtr) (message : Bytes)
    (hread : ∀ k, k.Routine → read k = none) : (w.onChat this message).told read q =
      w.told read q ++ if 256 < message.length then [] else if q ∈ w.globalState.players then
        (read (.chatServer (w.chatText this message) 0)).toList else [] := by
  unfold World.onChat
  split_ifs with hlong hmem
  · rw [(sends_disconnectWith _).told_eq hread, List.append_nil]
  · exact (told_sendEach w q _ _).trans (by rw [if_pos rfl, if_pos hmem]; rfl)
  · exact (told_sendEach w q _ _).trans (by rw [if_pos rfl, if_neg hmem])

variable (step : ServerStep)

/-- **A message is told to all on the player list**, and nothing else is chat. -/
theorem told_next_chat : (server.next w step).told ClientboundPacket.chatText? q =
    w.told ClientboundPacket.chatText? q ++
      if q ∈ w.globalState.players then (w.postOf step).toList else [] := by
  rcases next_told_cases w step fun _ => ClientboundPacket.Routine.chatText? with
    ⟨this, frame, now, message, rfl, hplay, hchat, hdig, he⟩ |
      ⟨this, frame, now, location, rfl, hplay, hchat, hdig, he⟩ | ⟨this, now, rfl, hdue⟩ |
      ⟨⟨hpost, -, -⟩, he⟩
  · have hpost : w.postOf (.packet this frame now) =
        if 256 < message.length then none else some (w.chatText this message) := by
      rw [World.postOf, if_pos hplay, hchat]
      rfl
    have htext : (w.receive this frame now).chatText this message = w.chatText this message := by
      rw [World.chatText, receive_player, World.chatText]
    rw [he, told_onChat _ _ _ _ fun _ => ClientboundPacket.Routine.chatText?, told_receive, hpost,
      htext, receive_globalState]
    split_ifs <;> rfl
  · have hpost : w.postOf (.packet this frame now) = none := by
      rw [World.postOf, if_pos hplay, hchat]
      rfl
    rw [he, told_startDigging, told_receive, hpost]
    simp [ClientboundPacket.chatText?]
  · rw [next_tick, told_onTick_of_due w q hdue]
    simp [World.postOf, ClientboundPacket.chatText?]
  · simp [he, hpost]

/-- **A dig is told to those who see the digger**, and nothing else changes a block. -/
theorem told_next_block : (server.next w step).told ClientboundPacket.changedBlock? q =
    w.told ClientboundPacket.changedBlock? q ++
      if q ∈ (w.tracker.subscriptions (w.player step.subject).chunk).erase step.subject then
        (w.dugBy step).toList.map fun location => (location, BLOCKID_MINECRAFT_AIR.zeroExtend 32)
      else [] := by
  rcases next_told_cases w step fun _ => ClientboundPacket.Routine.changedBlock? with
    ⟨this, frame, now, message, rfl, hplay, hchat, hdig, he⟩ |
      ⟨this, frame, now, location, rfl, hplay, hchat, hdig, he⟩ | ⟨this, now, rfl, hdue⟩ |
      ⟨⟨-, hdug, -⟩, he⟩
  · have hdug : w.dugBy (.packet this frame now) = none := by
      rw [World.dugBy, if_pos hplay, hdig]
      rfl
    rw [he, told_onChat _ _ _ _ fun _ => ClientboundPacket.Routine.changedBlock?, told_receive, hdug]
    split_ifs <;> rfl
  · have hdug : w.dugBy (.packet this frame now) =
        if w.Digs location then some location else none := by
      rw [World.dugBy, if_pos hplay, hdig]
      rfl
    have hdigs : (w.receive this frame now).Digs location ↔ w.Digs location := Iff.rfl
    rw [he, told_startDigging, told_receive, hdug, receive_tracker, receive_player]
    simp only [hdigs, ServerStep.subject]
    by_cases hd : w.Digs location <;> simp [hd, ClientboundPacket.changedBlock?]
  · rw [next_tick, told_onTick_of_due w q hdue]
    simp [World.dugBy, ClientboundPacket.changedBlock?]
  · simp [he, hdug]

/-- **A keep-alive is told by a tick** to its own connection, and by nothing else. -/
theorem told_next_keepAlive : (server.next w step).told ClientboundPacket.keepAliveId? q =
    w.told ClientboundPacket.keepAliveId? q ++
      if q = step.subject then (w.keepAliveOf step).toList else [] := by
  rcases next_told_cases w step fun _ => ClientboundPacket.Routine.keepAliveId? with
    ⟨this, frame, now, message, rfl, hplay, hchat, hdig, he⟩ |
      ⟨this, frame, now, location, rfl, hplay, hchat, hdig, he⟩ | ⟨this, now, rfl, hdue⟩ |
      ⟨⟨-, -, hkeep⟩, he⟩
  · rw [he, told_onChat _ _ _ _ fun _ => ClientboundPacket.Routine.keepAliveId?, told_receive]
    split_ifs <;> rfl
  · rw [he, told_startDigging, told_receive]
    simp [World.keepAliveOf, ClientboundPacket.keepAliveId?]
  · rw [next_tick, told_onTick_of_due w q hdue, World.keepAliveOf, if_pos hdue]
    rfl
  · simp [he, hkeep]

end Steps

end Vitamine
