import Vitamine.Proxyd.Sends

/-!
# Which chunks are stored

A chunk is stored when it is first sent, and is never forgotten (`stored_of_run`): the chunks of the
server are those that some client was sent.
-/

namespace Vitamine

open Wire System

/-- The coordinate of a chunk that is sent. -/
def ClientboundPacket.chunkCoord? : ClientboundPacket → Option ChunkCoord
  | .chunkData x z _ => some ⟨x, z⟩
  | _ => none

open ClientboundPacket (chunkCoord?)

/-- The chunks that are stored are those that some client was sent. -/
def Stored (w : World) : Prop :=
  ∀ c, (w.globalState.chunks c).isSome = true ↔ ∃ q, c ∈ w.told chunkCoord? q

/-- `this` is sent the chunks `loads`, nobody else is sent any, and these are stored now. -/
structure Loads (this : StateMachinePtr) (loads : List ChunkCoord) (w w' : World) : Prop where
  chunks : ∀ c, (w'.globalState.chunks c).isSome = true ↔
    (w.globalState.chunks c).isSome = true ∨ c ∈ loads
  told : ∀ q, w'.told chunkCoord? q = w.told chunkCoord? q ++ if q = this then loads else []

section Loads

variable {w w' : World} {this : StateMachinePtr} {frame : PacketFrame} {loads : List ChunkCoord}

theorem Stored.of_loads (h : Stored w) (hl : Loads this loads w w') : Stored w' := by
  intro c
  rw [hl.chunks, h c]
  simp only [hl.told, List.mem_append]
  constructor
  · rintro (⟨q, hq⟩ | hc)
    · exact ⟨q, .inl hq⟩
    · exact ⟨this, .inr (by rwa [if_pos rfl])⟩
  · rintro ⟨q, hq | hq⟩
    · exact .inl ⟨q, hq⟩
    · split at hq
      · exact .inr hq
      · cases hq

/-- No chunk is sent, and none is stored. -/
theorem loads_nil (hchunks : ∀ c, (w'.globalState.chunks c).isSome = (w.globalState.chunks c).isSome)
    (hs : Sends (fun k => chunkCoord? k = none) w w') : Loads this [] w w' where
  chunks c := by
    rw [hchunks]
    exact (or_iff_left List.not_mem_nil).symm
  told q := by
    rw [hs.told_eq fun _ => id, ite_self, List.append_nil]

theorem chunkCoord_streamPackets (w : World) (unloads loads : List ChunkCoord) :
    (w.streamPackets unloads loads).filterMap chunkCoord? = loads := by
  have hunloads : (unloads.map ClientboundPacket.unload).filterMap chunkCoord? = [] :=
    List.filterMap_eq_nil_iff.mpr (List.forall_mem_map.mpr fun _ _ => rfl)
  rw [World.streamPackets, List.filterMap_append, hunloads, List.nil_append, List.filterMap_map]
  exact List.filterMap_some

/-- The packets of one connection, of which these are the chunks. -/
theorem loads_of_update {packets : List ClientboundPacket}
    (hchunks : ∀ c, (w'.globalState.chunks c).isSome = true ↔
      (w.globalState.chunks c).isSome = true ∨ c ∈ loads)
    (ht : w'.traffic = Function.update w.traffic this (w.traffic this ++ packets.map .sent))
    (hpackets : packets.filterMap chunkCoord? = loads) : Loads this loads w w' where
  chunks := hchunks
  told q := by
    by_cases hq : q = this
    · subst hq
      have hself : w'.traffic q = w.traffic q ++ packets.map .sent := by
        rw [ht, Function.update_self]
      rw [told_of_traffic hself, hpackets, if_pos rfl]
    · have hother : w'.traffic q = w.traffic q ++ [].map .sent := by
        rw [ht, Function.update_of_ne hq]
        exact (List.append_nil _).symm
      rw [told_of_traffic hother, if_neg hq]
      rfl

theorem isSome_ite {c : ChunkCoord} {P : Prop} [Decidable P] {chunk : Chunk}
    {o : Option Chunk} (hP : P ↔ c ∈ loads) :
    (if P then some chunk else o).isSome = true ↔ o.isSome = true ∨ c ∈ loads := by
  by_cases h : P
  · simp [h, hP.mp h]
  · simp [h, mt hP.mpr h]

theorem chunkCoord_of_updates {k : ClientboundPacket} {id : EntityId} (h : k.updates = some id) :
    chunkCoord? k = none := by
  cases k with
  | chunkData => cases h
  | _ => rfl

theorem chunkCoord_quiet {q : StateMachinePtr} {k : ClientboundPacket}
    (h : QuietPacket w this q k) : chunkCoord? k = none := by
  cases h with
  | update _ _ _ hid => exact chunkCoord_of_updates hid
  | _ => rfl

theorem chunkCoord_broadcast {k : ClientboundPacket} (h : Broadcast k) : chunkCoord? k = none := by
  cases h with
  | update hid => exact chunkCoord_of_updates hid
  | _ => rfl

theorem loads_of_quiet (h : Quiet this w w') : Loads this [] w w' := by
  refine loads_nil (fun c => by rw [h.chunks]) fun q => ?_
  obtain ⟨packets, ht, hpackets⟩ := h.traffic q
  exact ⟨packets, ht, fun k hk => chunkCoord_quiet (hpackets k hk)⟩

/-- A dig stores a chunk where there was one. -/
theorem startDigging_isSome (location : BitVec 64) (c : ChunkCoord) :
    ((w.startDigging this location).globalState.chunks c).isSome =
      (w.globalState.chunks c).isSome := by
  rcases w.startDigging_cases this location with
    ⟨-, h | ⟨_, h⟩⟩ | ⟨chunk, chunk', hc, -, ⟨-, h⟩ | ⟨-, h⟩⟩ <;> rw [h]
  · rfl
  all_goals
    show (Function.update w.globalState.chunks (chunkOf location) (some chunk') c).isSome = _
    by_cases he : c = chunkOf location
    · subst he
      rw [Function.update_self, hc]
      rfl
    · rw [Function.update_of_ne he]

/-- **What a frame loads.** -/
theorem Effect.exists_loads (h : Effect w this frame w') : ∃ loads, Loads this loads w w' := by
  cases h with
  | quiet _ _ hquiet => exact ⟨[], loads_of_quiet hquiet⟩
  | phase => exact ⟨[], loads_nil (fun _ => rfl) (sends_of_eq rfl)⟩
  | @login name =>
    refine ⟨[], loads_nil (fun c => by rw [World.onLoginStart_chunks]) fun q => ?_⟩
    by_cases hq : q = this
    · subst hq
      refine ⟨_, World.onLoginStart_traffic_self .., ?_⟩
      simp [World.loginPackets, chunkCoord?]
    · refine ⟨_, World.onLoginStart_traffic_ne w this name hq, fun k hk => ?_⟩
      split at hk
      · obtain rfl := List.mem_singleton.mp hk
        rfl
      · cases hk
  | @confirm id hinit =>
    have hchunks : (w.onTeleportConfirm this id).globalState.chunks = w.globalState.chunks := by
      rw [World.onTeleportConfirm_eq, World.enterPlay_chunks, World.confirmed_globalState]
    refine ⟨[], loads_nil (fun c => by rw [hchunks]) fun q => ?_⟩
    by_cases hq : q = this
    · subst hq
      exact ⟨_, onTeleportConfirm_traffic_self hinit id,
        forall_confirmPackets (fun _ => rfl) fun _ _ => rfl⟩
    · refine ⟨_, onTeleportConfirm_traffic_ne hinit id hq, fun k hk => ?_⟩
      split at hk
      · obtain rfl := List.mem_singleton.mp hk
        rfl
      · cases hk
  | @settingsInit packet =>
    refine ⟨_, loads_of_update (fun c => ?_) (w.onSettingsInPlayInit_traffic this packet) rfl⟩
    rw [World.onSettingsInPlayInit_chunks, World.settingsInPlayInitPackets, List.filterMap_append,
      chunkCoord_streamPackets]
    refine isSome_ite ?_
    have hrest : c ∉ List.filterMap chunkCoord?
        [.spawnPosition (toPosition ⟨0, 0, 0⟩),
          .playerPositionLookServer (w.withSettings this packet).position.x
            (w.withSettings this packet).position.y (w.withSettings this packet).position.z
            (w.withSettings this packet).pitch (w.withSettings this packet).yaw 0
            (w.withSettings this packet).nextTeleportId] := List.not_mem_nil
    rw [List.mem_append, List.mem_append, ChunkCoord.mem_square, World.withSettings_chunk]
    exact (or_iff_left hrest).symm
  | @settings packet =>
    refine ⟨_, loads_of_update (fun c => ?_) (w.onClientSettingsChange_traffic this packet)
      (chunkCoord_streamPackets _ _ _)⟩
    rw [World.onClientSettingsChange_chunks]
    exact isSome_ite Iff.rfl
  | @transition s rotate =>
    refine ⟨chunksOutside s.chunk (w.player this).chunk s.viewDistance, fun c => ?_, fun q => ?_⟩
    · rw [World.onChunkTransition_chunks, World.setPlayer_player, Function.update_self]
      exact isSome_ite Iff.rfl
    · by_cases hq : q = this
      · subst hq
        rw [told_of_traffic (World.onChunkTransition_traffic_self ..), if_pos rfl,
          List.filterMap_append, chunkCoord_streamPackets, World.setPlayer_player,
          Function.update_self]
        exact congrArg _ (List.append_nil _)
      · have hmove : ∀ k ∈ (w.setPlayer this s).movePackets this (w.player this).chunk s.chunk
            (w.player this).position rotate q, chunkCoord? k = none :=
          fun k hk => chunkCoord_broadcast (broadcast_movePackets hk).1
        rw [told_of_traffic (World.onChunkTransition_traffic_ne _ this _ _ _ _ hq), if_neg hq,
          List.filterMap_eq_nil_iff.mpr hmove]
        rfl
  | @dig location =>
    refine ⟨[], loads_nil (fun c => ?_) fun q => ?_⟩
    · exact startDigging_isSome location c
    · refine ⟨_, w.startDigging_traffic this location, fun k hk => ?_⟩
      split at hk
      · obtain rfl := List.mem_singleton.mp hk
        rfl
      · cases hk

theorem Stored.next (h : Stored w) (step : ServerStep) : Stored (server.next w step) := by
  cases step with
  | connect => exact h
  | packet this frame now =>
    have hreceive : Stored (w.receive this frame now) := by
      intro c
      simp only [told_receive]
      exact h c
    obtain ⟨loads, hloads⟩ :=
      (handle_effect (w.receive this frame now) this frame).exists_loads
    exact hreceive.of_loads hloads
  | error => exact h
  | tick this now =>
    rcases onTick_cases w this now with ⟨-, hquiet⟩ | ⟨⟨hinit, htimeout⟩, htick⟩
    · exact h.of_loads (loads_of_quiet hquiet)
    · refine h.of_loads (@loads_nil _ _ this (fun c => ?_) (@sends_update _ _ this _
        [.disconnectLogin (chat.plainText (spanFromCString "timeout"))]
        (onTick_traffic_of_timeout w this now hinit htimeout)
        (List.forall_mem_singleton.mpr rfl)))
      rw [next_tick, htick, World.disconnectWith_globalState]
  | disconnect this =>
    refine h.of_loads (@loads_nil _ _ this (fun c => by rw [next_disconnect, World.destroy_chunks])
      fun q => ?_)
    by_cases hq : q = this
    · subst hq
      exact ⟨[], by rw [next_disconnect, World.destroy_traffic_self]; simp, by simp⟩
    · refine ⟨_, World.destroy_traffic_ne w this hq, fun k hk => ?_⟩
      split at hk
      · rcases List.mem_append.mp hk with hk | hk <;> split at hk
        · obtain rfl := List.mem_singleton.mp hk
          rfl
        · cases hk
        · obtain rfl := List.mem_singleton.mp hk
          rfl
        · cases hk
      · cases hk

end Loads

/-- **The store.** In every run, whatever its steps are. -/
theorem stored_of_run (uuidGenerator : Bytes → Uuid) (machine : StateMachinePtr → StateMachine)
    (steps : List ServerStep) : Stored (server.after (.initial uuidGenerator machine) steps) := by
  induction steps using List.reverseRecOn with
  | nil =>
    refine fun c => iff_of_false Bool.false_ne_true ?_
    rintro ⟨q, hq⟩
    cases hq
  | append_singleton steps step ih =>
    rw [after_snoc]
    exact ih.next step

end Vitamine
