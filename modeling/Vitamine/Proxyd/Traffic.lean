import Vitamine.Proxyd.Registries

/-!
# What the connections are sent

The packets of a step, for the connection of the step (`Effect.traffic_self`) and for all others
(`next_traffic_ne`): the others are sent broadcasts only, and only if they have logged in.
-/

namespace Vitamine

open Wire System

/-- The packets that tell a connection about the others. -/
inductive Broadcast : ClientboundPacket → Prop where
  | update {packet : ClientboundPacket} {id : EntityId} (h : packet.updates = some id) :
      Broadcast packet
  | chat (text : Bytes) (position : BitVec 8) : Broadcast (.chatServer text position)
  | playerInfo (packet : PacketPlayerInfo) : Broadcast (.playerInfo packet)
  | spawn (state : PlayerState) : Broadcast (createSpawnPacket state)
  | despawn (state : PlayerState) : Broadcast (createDespawnPacket state)
  | blockChange (location : BitVec 64) (blockId : BitVec 32) :
      Broadcast (.blockChange location blockId)

section

variable {w w' : World} {this q : StateMachinePtr} {frame : PacketFrame}

/-- Some broadcasts to `q`, which has logged in if there are any. -/
def Broadcasts (w w' : World) (q : StateMachinePtr) : Prop :=
  ∃ packets : List ClientboundPacket, w'.traffic q = w.traffic q ++ packets.map .sent ∧
    ∀ k ∈ packets, Broadcast k ∧ w.life q ≠ .unused ∧ w.Joined q

theorem Broadcasts.of_eq (h : w'.traffic q = w.traffic q) : Broadcasts w w' q :=
  ⟨[], by simp [h], by simp⟩

theorem Broadcasts.of_append {packets : List ClientboundPacket}
    (h : w'.traffic q = w.traffic q ++ packets.map .sent)
    (hk : ∀ k ∈ packets, Broadcast k ∧ w.life q ≠ .unused ∧ w.Joined q) : Broadcasts w w' q :=
  ⟨packets, h, hk⟩

theorem broadcast_movePackets {start target : ChunkCoord} {oldPosition : EntityCoord}
    {rotate : Bool} {k : ClientboundPacket}
    (hk : k ∈ w.movePackets this start target oldPosition rotate q) :
    Broadcast k ∧ (q ∈ w.tracker.subscriptions start ∨ q ∈ w.tracker.subscriptions target) := by
  rcases World.mem_movePackets _ _ _ _ _ _ hk with ⟨hstart, rfl | rfl | rfl⟩ | ⟨⟨-, htarget⟩, rfl⟩
  · exact ⟨.update (updates_createMovePacket _ _ _), .inl hstart⟩
  · exact ⟨.update rfl, .inl hstart⟩
  · exact ⟨.despawn _, .inl hstart⟩
  · exact ⟨.spawn _, .inr htarget⟩

theorem Quiet.traffic_ne (h : Quiet this w w') (hr : Registry w q) (hq : q ≠ this) :
    Broadcasts w w' q := by
  obtain ⟨ks, ht, hks⟩ := h.traffic q
  refine .of_append ht fun k hk => ?_
  cases hks k hk with
  | update _ _ hsub hid => exact ⟨.update hid, hr.subscriptions hsub⟩
  | chat _ hmem => exact ⟨.chat _ _, hr.players hmem⟩
  | keepAlive _ he => exact absurd he hq
  | disconnect _ he => exact absurd he hq
  | disconnectLogin _ _ he => exact absurd he hq

/-- A frame of another connection. -/
theorem Effect.traffic_ne (h : Effect w this frame w') (hr : Registry w q) (hq : q ≠ this) :
    Broadcasts w w' q := by
  cases h with
  | quiet _ _ hquiet => exact hquiet.traffic_ne hr hq
  | phase => exact .of_eq rfl
  | login hlogin =>
    refine .of_append (World.onLoginStart_traffic_ne w this _ hq) fun k hk => ?_
    split at hk <;> rename_i hmem
    · obtain rfl := List.mem_singleton.mp hk
      exact ⟨.playerInfo _, hr.players hmem⟩
    · cases hk
  | @confirm id hinit =>
    have ht : (w.confirmed this id).traffic q = w.traffic q := by
      rw [World.confirmed_traffic w this id (by rw [hinit]; decide), Function.update_of_ne hq]
    rw [World.onTeleportConfirm_eq]
    refine .of_append (by rw [World.enterPlay_traffic_ne _ this hq, ht]) fun k hk => ?_
    split at hk <;> rename_i hmem
    · obtain rfl := List.mem_singleton.mp hk
      exact ⟨.spawn _, hr.subscriptions (by simpa using hmem)⟩
    · cases hk
  | settingsInit =>
    exact .of_eq (by rw [World.onSettingsInPlayInit_traffic, Function.update_of_ne hq])
  | settings =>
    exact .of_eq (by rw [World.onClientSettingsChange_traffic, Function.update_of_ne hq])
  | transition =>
    refine .of_append (World.onChunkTransition_traffic_ne _ this _ _ _ _ hq) fun k hk => ?_
    obtain ⟨hb, hsub | hsub⟩ := broadcast_movePackets hk
    · exact ⟨hb, hr.subscriptions hsub⟩
    · exact ⟨hb, hr.subscriptions hsub⟩
  | @dig location =>
    refine .of_append (World.startDigging_traffic w this location) fun k hk => ?_
    split at hk <;> rename_i hmem
    · obtain rfl := List.mem_singleton.mp hk
      exact ⟨.blockChange _ _, hr.subscriptions (Finset.mem_erase.mp hmem.2).2⟩
    · cases hk

/-- What is sent to the connection of a confirmation. -/
theorem onTeleportConfirm_traffic_self (hinit : w.phase this = .playInit) (id : BitVec 32) :
    (w.onTeleportConfirm this id).traffic this = w.traffic this ++
      ((if id ∈ (w.player this).outstandingTeleportIds then []
        else [ClientboundPacket.disconnectLogin (chat.plainText
          (spanFromCString "PacketTeleportConfirm: invalid teleport id"))]) ++
        ((w.confirmed this id).visiblePlayers this).map fun m =>
          createSpawnPacket ((w.confirmed this id).player m)).map .sent := by
  rw [World.onTeleportConfirm_eq, World.enterPlay_traffic_self,
    World.confirmed_traffic _ _ _ (by rw [hinit]; decide), Function.update_self,
    List.append_assoc, ← List.map_append]

/-- Those who are spawned are in `PLAY` and in the square of the player. -/
theorem mem_visiblePlayers_confirmed (hr : ∀ p, Registry w p) {id : BitVec 32}
    {b : StateMachinePtr} : b ∈ (w.confirmed this id).visiblePlayers this ↔
      b ≠ this ∧ w.life b = .live ∧ w.phase b = .play ∧
        ChunkCoord.Within (w.player this).chunk (w.player this).viewDistance
          (w.player b).chunk := by
  rw [World.mem_visiblePlayers]
  simp only [World.confirmed_tracker, World.confirmed_chunk, World.confirmed_viewDistance,
    (hr b).membership]
  constructor
  · rintro ⟨hne, c, hw, hl, hp, rfl⟩
    exact ⟨hne, hl, hp, hw⟩
  · rintro ⟨hne, hl, hp, hw⟩
    exact ⟨hne, _, hw, hl, hp, rfl⟩

/-- Its packets are a refusal and spawns. -/
theorem forall_confirmPackets {P : ClientboundPacket → Prop} {id : BitVec 32}
    (hrefusal : ∀ reason, P (.disconnectLogin reason))
    (hspawn : ∀ m ∈ (w.confirmed this id).visiblePlayers this,
      P (createSpawnPacket ((w.confirmed this id).player m))) :
    ∀ k ∈ (if id ∈ (w.player this).outstandingTeleportIds then []
        else [ClientboundPacket.disconnectLogin (chat.plainText
          (spanFromCString "PacketTeleportConfirm: invalid teleport id"))]) ++
        ((w.confirmed this id).visiblePlayers this).map fun m =>
          createSpawnPacket ((w.confirmed this id).player m), P k := by
  intro k hk
  rcases List.mem_append.mp hk with hk | hk
  · split at hk
    · cases hk
    · obtain rfl := List.mem_singleton.mp hk
      exact hrefusal _
  · obtain ⟨m, hm, rfl⟩ := List.mem_map.mp hk
    exact hspawn m hm

/-- What is sent to the others by a confirmation. -/
theorem onTeleportConfirm_traffic_ne (hinit : w.phase this = .playInit) (id : BitVec 32)
    (hq : q ≠ this) : (w.onTeleportConfirm this id).traffic q = w.traffic q ++
      (if q ∈ w.tracker.subscriptions (w.player this).chunk then
        [createSpawnPacket (w.player this)] else []).map .sent := by
  have hspawn : createSpawnPacket ((w.confirmed this id).player this) =
      createSpawnPacket (w.player this) := by
    rw [World.confirmed_player, Function.update_self]
    rfl
  rw [World.onTeleportConfirm_eq, World.enterPlay_traffic_ne _ this hq,
    World.confirmed_traffic _ _ _ (by rw [hinit]; decide), Function.update_of_ne hq,
    World.confirmed_tracker, World.confirmed_chunk, hspawn]

/-- A frame only adds to what its connection was sent. -/
theorem Effect.traffic_self (h : Effect w this frame w') :
    ∃ packets : List ClientboundPacket, w'.traffic this = w.traffic this ++ packets.map .sent := by
  cases h with
  | quiet _ _ hquiet =>
    obtain ⟨ks, ht, -⟩ := hquiet.traffic this
    exact ⟨ks, ht⟩
  | phase => exact ⟨[], by simp⟩
  | login => exact ⟨_, World.onLoginStart_traffic_self _ _ _⟩
  | confirm hinit => exact ⟨_, onTeleportConfirm_traffic_self hinit _⟩
  | settingsInit => exact ⟨_, by rw [World.onSettingsInPlayInit_traffic, Function.update_self]⟩
  | settings => exact ⟨_, by rw [World.onClientSettingsChange_traffic, Function.update_self]⟩
  | transition => exact ⟨_, World.onChunkTransition_traffic_self _ _ _ _ _ _⟩
  | dig => exact ⟨_, World.startDigging_traffic _ _ _⟩

/-- **A step of one connection sends broadcasts to the others**, and to those only who have logged
in. -/
theorem next_traffic_ne {step : ServerStep} (hr : Registry w q) (hq : q ≠ step.subject) :
    Broadcasts w (server.next w step) q := by
  cases step with
  | connect this => exact .of_eq rfl
  | packet this frame now =>
    have hne : q ≠ this := hq
    obtain ⟨ks, ht, hks⟩ := (handle_effect (w.receive this frame now) this frame).traffic_ne
      (hr.of_unmoved (unmoved_receive frame now)) hne
    refine ⟨ks, by simpa [hne] using ht, fun k hk => ?_⟩
    simpa [World.Joined] using hks k hk
  | error => exact .of_eq rfl
  | tick this now =>
    have hne : q ≠ this := hq
    rcases onTick_cases w this now with ⟨-, hquiet⟩ | ⟨⟨hinit, ht⟩, -⟩
    · exact hquiet.traffic_ne hr hne
    · refine .of_eq ?_
      rw [next_tick, onTick_traffic_of_timeout w this now hinit ht, Function.update_of_ne hne]
  | disconnect this =>
    have hne : q ≠ this := hq
    refine .of_append (World.destroy_traffic_ne w this hne) fun k hk => ?_
    split at hk
    · rcases List.mem_append.mp hk with hk | hk <;> split at hk <;> rename_i hmem
      · obtain rfl := List.mem_singleton.mp hk
        exact ⟨.despawn _, hr.subscriptions hmem⟩
      · cases hk
      · obtain rfl := List.mem_singleton.mp hk
        exact ⟨.playerInfo _, hr.players hmem⟩
      · cases hk
    · cases hk

/-- **The frame rule for what is sent.** A property of each connection that looks at what `Unmoved`
keeps and at the traffic, and that broadcasts keep, has to be shown of the connection of the step
only. -/
theorem forall_next_iff_of_broadcasts {P : World → StateMachinePtr → Prop} {step : ServerStep}
    (hP : ∀ {w w' p}, Unmoved w w' p → Broadcasts w w' p → P w p → P w' p)
    (hr : ∀ p, Registry w p) (h : ∀ p, P w p) :
    (∀ p, P (server.next w step) p) ↔ P (server.next w step) step.subject := by
  refine ⟨fun h' => h' step.subject, fun h' p => ?_⟩
  rcases eq_or_ne p step.subject with rfl | hp
  · exact h'
  · exact hP (next_unmoved hp) (next_traffic_ne (hr p) hp) (h p)

/-- Nothing happens at an address before its use. -/
def Untouched (w : World) (p : StateMachinePtr) : Prop := w.life p = .unused → w.traffic p = []

theorem Untouched.next {step : ServerStep} (hr : ∀ p, Registry w p) (h : ∀ p, Untouched w p)
    (he : server.enabled w step) : ∀ p, Untouched (server.next w step) p := by
  refine (forall_next_iff_of_broadcasts (P := Untouched) (fun hu hb h hlife => ?_) hr h).mpr ?_
  · rw [hu.life] at hlife
    obtain ⟨ks, ht, hks⟩ := hb
    obtain rfl : ks = [] := List.eq_nil_iff_forall_not_mem.mpr fun k hk => (hks k hk).2.1 hlife
    simpa [h hlife] using ht
  · intro hlife
    cases step with
    | connect => simp [ServerStep.subject] at hlife
    | packet this | error this =>
      have hlive : w.life this = .live := he
      simp [ServerStep.subject, hlive] at hlife
    | tick this now =>
      have hlive : w.life this = .live := he
      rw [ServerStep.subject, next_tick, (unmoved_onTick now).life, hlive] at hlife
      cases hlife
    | disconnect => simp [ServerStep.subject] at hlife

/-- What every run keeps, whatever its steps are. -/
structure Base (w : World) : Prop where
  registry : ∀ p, Registry w p
  untouched : ∀ p, Untouched w p

theorem Base.initial (uuidGenerator : Bytes → Uuid) (machine : StateMachinePtr → StateMachine) :
    Base (.initial uuidGenerator machine) where
  registry _ := .initial uuidGenerator machine
  untouched _ _ := rfl

theorem Base.next {step : ServerStep} (h : Base w) (he : server.enabled w step) :
    Base (server.next w step) where
  registry := Registry.next h.registry he
  untouched := Untouched.next h.registry h.untouched he

theorem Base.registry_receive (h : Base w) (this : StateMachinePtr) (frame : PacketFrame)
    (now : Int) (p : StateMachinePtr) : Registry (w.receive this frame now) p :=
  (h.registry p).of_unmoved (unmoved_receive frame now)

end

end Vitamine
