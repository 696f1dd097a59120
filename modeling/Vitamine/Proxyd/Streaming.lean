import Vitamine.Lib.Log
import Vitamine.Proxyd.Tracker
import Vitamine.Proxyd.Traffic

/-!
# The chunks that a client holds

* `holds`: what a client has, from the loads and the unloads that it was sent.
* `Streamed`: what it has in `PLAY_INIT`, where no settings unload what larger ones before them
  loaded around the spawn.
* `StreamingExact`: a client in `PLAY` has the square of its view distance, and nothing else.
* `KeepsHeld`: the confirmation of a teleport comes after settings of which the last have the
  largest view distance.
* `streamingExact_iff`: the streaming is exact in the runs whose steps keep it, and in no others.
-/

namespace Vitamine

open Wire System

/-- What an event says about whether the client holds the chunk. -/
def holdWrite (c : ChunkCoord) : Traffic → Option Bool
  | .sent (.chunkData x z _) => if x = c.x ∧ z = c.z then some true else none
  | .sent (.unloadChunk x z) => if x = c.x ∧ z = c.z then some false else none
  | _ => none

/-- The last of the loads and unloads of the chunk is a load. -/
def holds (log : List Traffic) (c : ChunkCoord) : Prop := Log.last (holdWrite c) false log = true

instance (log : List Traffic) (c : ChunkCoord) : Decidable (holds log c) :=
  inferInstanceAs (Decidable (_ = true))

/-- The view distance that is granted by an event, which is one of the settings of `PLAY_INIT`. -/
def grantOf (maxViewDistance : BitVec 8) : Traffic → Option Int
  | .received .playInit frame => (settingsOf frame).map fun packet =>
      ((clampViewDistance packet.viewDistance maxViewDistance).toNat : Int)
  | _ => none

/-- The view distances that the settings of `PLAY_INIT` were granted, in their order. -/
def grants (maxViewDistance : BitVec 8) (log : List Traffic) : List Int :=
  log.filterMap (grantOf maxViewDistance)

/-- What is held in `PLAY_INIT`, after settings that were granted the view distances `granted`, the
last of which is `vd`. -/
structure Held (center : ChunkCoord) (vd : Int) (granted : List Int) (held : ChunkCoord → Prop) :
    Prop where
  square : granted ≠ [] → ∀ c, ChunkCoord.Within center vd c → held c
  inside : ∀ c, held c → ∃ d ∈ granted, ChunkCoord.Within center d c
  /-- The ring loops unload nothing straight to the west. -/
  west : ∀ d ∈ granted, held ⟨center.x - d, center.z⟩

namespace Held

variable {center c : ChunkCoord} {vd vd' d : Int} {granted : List Int}
  {held held' : ChunkCoord → Prop}

theorem within_west (hd : 0 ≤ d) :
    ChunkCoord.Within center vd ⟨center.x - d, center.z⟩ ↔ d ≤ vd := by
  rw [ChunkCoord.within_iff]
  simp only
  omega

/-- The square is held exactly if there were settings and none of them was granted more than the
last. -/
theorem exact_iff (h : Held center vd granted held) (hvd : 0 ≤ vd) (hg : ∀ d ∈ granted, 0 ≤ d) :
    (∀ c, held c ↔ ChunkCoord.Within center vd c) ↔ granted ≠ [] ∧ ∀ d ∈ granted, d ≤ vd := by
  constructor
  · intro hexact
    have hcenter : held center := (hexact center).mpr (by rw [ChunkCoord.within_iff]; omega)
    obtain ⟨d, hd, -⟩ := h.inside center hcenter
    exact ⟨List.ne_nil_of_mem hd, fun d hd =>
      (within_west (hg d hd)).mp ((hexact _).mp (h.west d hd))⟩
  · rintro ⟨hne, hle⟩ c
    refine ⟨fun hc => ?_, h.square hne c⟩
    obtain ⟨d, hd, hc⟩ := h.inside c hc
    have := hle d hd
    rw [ChunkCoord.within_iff] at hc ⊢
    omega

/-- More settings: the ring loops run, and the whole square is sent. -/
theorem settings (h : Held center vd granted held) (hvd' : 0 ≤ vd') (unloads loads : List ChunkCoord)
    (hloads : ∀ c ∈ loads, ChunkCoord.Within center vd' c)
    (hunloads : ∀ d, 0 ≤ d → (⟨center.x - d, center.z⟩ : ChunkCoord) ∉ unloads)
    (hg : ∀ d ∈ granted, 0 ≤ d)
    (hheld : ∀ c, held' c ↔ ChunkCoord.Within center vd' c ∨ c ∈ loads ∨ c ∉ unloads ∧ held c) :
    Held center vd' (granted ++ [vd']) held' where
  square _ c hc := (hheld c).mpr (.inl hc)
  inside c hc := by
    rcases (hheld c).mp hc with hc | hc | ⟨-, hc⟩
    · exact ⟨vd', by simp, hc⟩
    · exact ⟨vd', by simp, hloads c hc⟩
    · obtain ⟨d, hd, hc⟩ := h.inside c hc
      exact ⟨d, by simp [hd], hc⟩
  west d hd := by
    rw [hheld]
    rcases List.mem_append.mp hd with hd | hd
    · exact .inr (.inr ⟨hunloads d (hg d hd), h.west d hd⟩)
    · obtain rfl := List.mem_singleton.mp hd
      exact .inl ((within_west hvd').mpr le_rfl)

end Held

section Log

variable {log log' : List Traffic} {c : ChunkCoord}

theorem holds_append_of_silent (h : ∀ e ∈ log', holdWrite c e = none) :
    holds (log ++ log') c ↔ holds log c := by
  rw [holds, Log.last_append, Log.last_of_silent h, holds]

theorem coord_eq_iff {d : ChunkCoord} : d.x = c.x ∧ d.z = c.z ↔ d = c := by
  obtain ⟨dx, dz⟩ := d
  obtain ⟨x, z⟩ := c
  simp

/-- **Streaming**: the chunks of the loads are held, those of the unloads are not. -/
theorem holds_append_streamPackets (w : World) (unloads loads : List ChunkCoord) :
    holds (log ++ (w.streamPackets unloads loads).map .sent) c ↔
      c ∈ loads ∨ c ∉ unloads ∧ holds log c := by
  have hload : ∀ d, holdWrite c ((Traffic.sent ∘ fun d => .load d (w.chunkAt d)) d) =
      if d = c then some true else none := fun d => by
    simp only [Function.comp_apply, ClientboundPacket.load, holdWrite, coord_eq_iff]
  have hunload : ∀ d, holdWrite c ((Traffic.sent ∘ .unload) d) =
      if d = c then some false else none := fun d => by
    simp only [Function.comp_apply, ClientboundPacket.unload, holdWrite, coord_eq_iff]
  rw [World.streamPackets, List.map_append, List.map_map, List.map_map, holds, Log.last_append,
    Log.last_append, Log.last_map loads hload, Log.last_map unloads hunload, holds]
  split_ifs with hl hu
  · simp [hl]
  · simp [hl, hu]
  · simp [hl, hu]

theorem grants_append_sent (maxViewDistance : BitVec 8) (packets : List ClientboundPacket) :
    grants maxViewDistance (log ++ packets.map .sent) = grants maxViewDistance log := by
  have h : (packets.map Traffic.sent).filterMap (grantOf maxViewDistance) = [] :=
    List.filterMap_eq_nil_iff.mpr (List.forall_mem_map.mpr fun _ _ => rfl)
  rw [grants, List.filterMap_append, h, List.append_nil, grants]

theorem grants_nonneg {maxViewDistance : BitVec 8} {d : Int} (h : d ∈ grants maxViewDistance log) :
    0 ≤ d := by
  obtain ⟨e, -, he⟩ := List.mem_filterMap.mp h
  unfold grantOf at he
  split at he
  · obtain ⟨packet, -, rfl⟩ := Option.map_eq_some_iff.mp he
    exact Int.natCast_nonneg _
  · cases he

/-- Broadcasts load and unload nothing. -/
theorem holdWrite_broadcast {packet : ClientboundPacket} (h : Broadcast packet) :
    holdWrite c (.sent packet) = none := by
  cases h with
  | update hid => cases packet <;> first | rfl | cases hid
  | _ => rfl

theorem holdWrite_quiet {w : World} {this q : StateMachinePtr} {packet : ClientboundPacket}
    (h : QuietPacket w this q packet) : holdWrite c (.sent packet) = none := by
  cases h with
  | update _ _ _ hid => cases packet <;> first | rfl | cases hid
  | _ => rfl

end Log

/-! ## Before `PLAY` -/

/-- The view distances that a connection was granted in `PLAY_INIT`. -/
def World.grants (w : World) (p : StateMachinePtr) : List Int :=
  Vitamine.grants w.globalState.serverSettings.maxViewDistance (w.traffic p)

/-- What every run keeps before `PLAY`. -/
structure Streamed (w : World) (p : StateMachinePtr) : Prop where
  before : w.life p = .live → ¬ w.Joined p → w.grants p = [] ∧ ∀ c, ¬ holds (w.traffic p) c
  init : w.life p = .live → w.phase p = .playInit →
    Held (w.player p).chunk (w.player p).viewDistance (w.grants p) (holds (w.traffic p))

section Streamed

variable {w w' : World} {this p : StateMachinePtr} {frame : PacketFrame}

/-- Packets that neither load nor unload. -/
theorem Streamed.of_silent (h : Streamed w p) (hu : Unmoved w w' p)
    {packets : List ClientboundPacket} (ht : w'.traffic p = w.traffic p ++ packets.map .sent)
    (hs : ∀ k ∈ packets, ∀ c, holdWrite c (.sent k) = none) : Streamed w' p := by
  have hg : w'.grants p = w.grants p := by
    rw [World.grants, hu.serverSettings, ht, grants_append_sent, World.grants]
  have hh : holds (w'.traffic p) = holds (w.traffic p) := by
    funext c
    rw [ht, holds_append_of_silent (List.forall_mem_map.mpr fun k hk => hs k hk c)]
  constructor
  · rw [hu.life, World.Joined, hu.phase, hg, hh]
    exact h.before
  · rw [hu.life, hu.phase, hg, hh, hu.player.chunk, hu.player.toKeeps.viewDistance]
    exact h.init

theorem Streamed.of_broadcasts (h : Streamed w p) (hu : Unmoved w w' p) (hb : Broadcasts w w' p) :
    Streamed w' p := by
  obtain ⟨ks, ht, hks⟩ := hb
  exact h.of_silent hu ht fun k hk c => holdWrite_broadcast (hks k hk).1

theorem Streamed.of_quiet (h : Streamed w p) (hq : Quiet this w w') : Streamed w' p := by
  obtain ⟨ks, ht, hks⟩ := hq.traffic p
  exact h.of_silent hq.toSkeleton.unmoved ht fun k hk c => holdWrite_quiet (hks k hk)

/-- A frame in the log is silent, and it is a grant if it is one of the settings of `PLAY_INIT`. -/
theorem holds_receive (now : Int) (c : ChunkCoord) :
    holds ((w.receive this frame now).traffic this) c ↔ holds (w.traffic this) c := by
  rw [receive_traffic, Function.update_self]
  exact holds_append_of_silent (by simp [holdWrite])

theorem grants_receive (now : Int) : (w.receive this frame now).grants this = w.grants this ++
    if w.phase this = .playInit then
      ((settingsOf frame).map fun packet => ((grantedViewDistance w packet).toNat : Int)).toList
    else [] := by
  have hg : grantOf w.globalState.serverSettings.maxViewDistance (.received (w.phase this) frame) =
      if w.phase this = .playInit then
        (settingsOf frame).map fun packet => ((grantedViewDistance w packet).toNat : Int)
      else none := by
    cases w.phase this <;> rfl
  rw [World.grants, receive_traffic, Function.update_self, Vitamine.grants, List.filterMap_append,
    World.grants, Vitamine.grants, receive_globalState, List.filterMap_cons, hg]
  by_cases hphase : w.phase this = .playInit
  · cases settingsOf frame <;> simp [hphase]
  · simp [hphase]

theorem Streamed.receive (h : Streamed w this)
    (hn : w.phase this = .playInit → settingsOf frame = none) (now : Int) :
    Streamed (w.receive this frame now) this := by
  have hg : (w.receive this frame now).grants this = w.grants this := by
    rw [grants_receive]
    split <;> rename_i hphase
    · simp [hn hphase]
    · simp
  have hh : holds ((w.receive this frame now).traffic this) = holds (w.traffic this) :=
    funext fun c => propext (holds_receive now c)
  constructor
  · rw [hg, hh]
    simpa [World.Joined] using h.before
  · rw [hg, hh]
    simpa using h.init

theorem Streamed.of_play (h : w.phase p = .play) : Streamed w p where
  before _ hj := absurd (.inr h) hj
  init _ hp := by rw [h] at hp; cases hp

theorem Streamed.initial (uuidGenerator : Bytes → Uuid) (machine : StateMachinePtr → StateMachine) :
    Streamed (.initial uuidGenerator machine) p where
  before hl := nomatch hl
  init hl := nomatch hl

theorem holds_onSettingsInPlayInit (packet : ClientSettingsPacket) (c : ChunkCoord) :
    holds ((w.onSettingsInPlayInit this packet).traffic this) c ↔
      ChunkCoord.Within (w.player this).chunk (w.withSettings this packet).viewDistance c ∨
        c ∈ w.settingsLoads this packet ∨
          c ∉ w.settingsUnloads this packet ∧ holds (w.traffic this) c := by
  rw [World.onSettingsInPlayInit_traffic, Function.update_self, World.settingsInPlayInitPackets,
    List.map_append, ← List.append_assoc, holds_append_of_silent (by simp [holdWrite]),
    holds_append_streamPackets, List.mem_append, ChunkCoord.mem_square, World.withSettings_chunk]
  tauto

/-- Settings in `PLAY_INIT`: one more grant, and the chunks of it. -/
theorem Streamed.onSettingsInPlayInit (h : Streamed w this) (hlive : w.life this = .live)
    (hinit : w.phase this = .playInit) {packet : ClientSettingsPacket}
    (hframe : settingsOf frame = some packet) (now : Int) :
    Streamed ((w.receive this frame now).onSettingsInPlayInit this packet) this where
  before _ hj := by simp [World.Joined, hinit] at hj
  init _ _ := by
    have hvd : ((w.receive this frame now).withSettings this packet).viewDistance =
        ((grantedViewDistance w packet).toNat : Int) := by
      simp only [World.withSettings, receive_player, receive_globalState]
      rfl
    have hgrants : ((w.receive this frame now).onSettingsInPlayInit this packet).grants this =
        w.grants this ++ [((grantedViewDistance w packet).toNat : Int)] := by
      rw [World.grants, World.onSettingsInPlayInit_traffic, Function.update_self,
        grants_append_sent, World.onSettingsInPlayInit_serverSettings]
      refine (grants_receive now).trans ?_
      simp [hinit, hframe]
    have hplayer : (((w.receive this frame now).onSettingsInPlayInit this packet).player
        this).viewDistance = ((grantedViewDistance w packet).toNat : Int) := by
      rw [World.onSettingsInPlayInit_player, Function.update_self]
      exact hvd
    rw [hgrants, hplayer, World.onSettingsInPlayInit_chunk, receive_player]
    refine (h.init hlive hinit).settings (Int.natCast_nonneg _)
      ((w.receive this frame now).settingsUnloads this packet)
      ((w.receive this frame now).settingsLoads this packet) (fun c hc => ?_) (fun d hd hc => ?_)
      (fun d hd => grants_nonneg hd) fun c => ?_
    · have := ((World.mem_settingsLoads _ this packet).mp hc).2.1
      rwa [hvd, receive_player] at this
    · have := ((World.mem_settingsUnloads _ this packet).mp hc).2.2
      rw [hvd, receive_player] at this
      simp only at this
      omega
    · rw [holds_onSettingsInPlayInit, hvd, receive_player, holds_receive]

theorem holdWrite_loginPackets {k : ClientboundPacket} {name : Bytes}
    (hk : k ∈ w.loginPackets this name) (c : ChunkCoord) : holdWrite c (.sent k) = none := by
  simp only [World.loginPackets, List.mem_cons, List.not_mem_nil, or_false] at hk
  rcases hk with rfl | rfl | rfl | rfl | rfl | rfl | rfl <;> rfl

theorem Streamed.effect (h : Streamed w this) (hlive : w.life this = .live) {now : Int}
    (he : Effect (w.receive this frame now) this frame w') : Streamed w' this := by
  cases he with
  | quiet hinit _ hq =>
    exact (h.receive (fun hp => (hinit (by simpa using hp)).1) now).of_quiet hq
  | phase hinit hnew =>
    rw [receive_phase] at hinit
    have hs : Streamed (w.receive this frame now) this :=
      h.receive (fun hp => by simp [hinit] at hp) now
    constructor
    · intro _ _
      exact hs.before (by simpa using hlive) (by simp [World.Joined, hinit])
    · intro _ hp
      rcases hnew with rfl | rfl <;> simp at hp
  | @login name hlogin =>
    have hphase : w.phase this = .login := by simpa using hlogin
    have hs : Streamed (w.receive this frame now) this :=
      h.receive (fun hp => by simp [hphase] at hp) now
    obtain ⟨hg, hh⟩ := hs.before (by simpa using hlive) (by simp [World.Joined, hphase])
    constructor
    · intro _ hj
      simp [World.Joined] at hj
    · intro _ _
      have hgrants : ((w.receive this frame now).onLoginStart this name).grants this = [] := by
        rw [World.grants, World.onLoginStart_traffic_self, grants_append_sent,
          World.onLoginStart_serverSettings]
        exact hg
      have hholds : ∀ c, ¬ holds (((w.receive this frame now).onLoginStart this name).traffic
          this) c := fun c => by
        rw [World.onLoginStart_traffic_self, holds_append_of_silent
          (List.forall_mem_map.mpr fun k hk => holdWrite_loginPackets hk c)]
        exact hh c
      rw [hgrants]
      exact ⟨fun hne => absurd rfl hne, fun c hc => absurd hc (hholds c), fun d hd => by cases hd⟩
  | confirm => exact .of_play (by simp [World.onTeleportConfirm_eq])
  | settingsInit hinit hframe =>
    exact h.onSettingsInPlayInit hlive (by simpa using hinit) hframe now
  | settings hplay => exact .of_play (by simpa using hplay)
  | transition hplay => exact .of_play (by simpa using hplay)
  | dig hplay => exact .of_play (by simpa using hplay)

theorem Streamed.next {step : ServerStep} (hb : Base w) (h : ∀ p, Streamed w p)
    (he : server.enabled w step) : ∀ p, Streamed (server.next w step) p := by
  refine (forall_next_iff_of_broadcasts (fun hu hb h => h.of_broadcasts hu hb) hb.registry h).mpr ?_
  cases step with
  | connect this clientSettings entityId now =>
    have ht : w.traffic this = [] := hb.untouched this he
    constructor
    · intro _ _
      rw [World.grants, next_connect, connect_traffic]
      simp [ServerStep.subject, ht, Vitamine.grants, holds]
    · intro _ hp
      simp [ServerStep.subject] at hp
  | packet this frame now => exact (h this).effect he (handle_effect _ this frame)
  | error this => exact (h this).of_quiet (quiet_disconnect w)
  | tick this now =>
    rcases onTick_cases w this now with ⟨-, hq⟩ | ⟨⟨hinit, ht⟩, -⟩
    · exact (h this).of_quiet hq
    · exact (h this).of_silent (unmoved_onTick now)
        (onTick_traffic_self_of_timeout w this now hinit ht) (by simp [holdWrite])
  | disconnect this =>
    constructor
    · intro hl
      simp [ServerStep.subject] at hl
    · intro hl
      simp [ServerStep.subject] at hl

end Streamed

/-! ## In `PLAY` -/

/-- The client of every player in `PLAY` holds the square of its view distance. -/
def StreamingExact (w : World) : Prop := ∀ p, w.life p = .live → w.phase p = .play → ∀ c,
  holds (w.traffic p) c ↔ |c.x - (w.player p).chunk.x| ≤ (w.player p).viewDistance ∧
    |c.z - (w.player p).chunk.z| ≤ (w.player p).viewDistance

/-- Settings in `PLAY` ask for the view distance that the player has, and a player confirms a
teleport in `PLAY_INIT` only after settings, the last of which were granted the largest of its view
distances. -/
def KeepsHeld (w : World) : ServerStep → Prop
  | .packet this frame _ =>
    (w.phase this = .play → ∀ packet, settingsOf frame = some packet →
      grantedViewDistance w packet = (w.player this).clientSettings.viewDistance) ∧
    (w.phase this = .playInit → teleportConfirmOf frame ≠ none →
      w.grants this ≠ [] ∧ ∀ d ∈ w.grants this, d ≤ (w.player this).viewDistance)
  | _ => True

section

variable {w w' : World} {this p : StateMachinePtr} {frame : PacketFrame}

/-- The client holds the square of its view distance. -/
def World.HoldsSquare (w : World) (p : StateMachinePtr) : Prop := ∀ c,
  holds (w.traffic p) c ↔ ChunkCoord.Within (w.player p).chunk (w.player p).viewDistance c

theorem World.HoldsSquare.of_silent (h : w.HoldsSquare p) (hu : Unmoved w w' p)
    {packets : List ClientboundPacket} (ht : w'.traffic p = w.traffic p ++ packets.map .sent)
    (hs : ∀ k ∈ packets, ∀ c, holdWrite c (.sent k) = none) : w'.HoldsSquare p := fun c => by
  rw [ht, holds_append_of_silent (List.forall_mem_map.mpr fun k hk => hs k hk c), hu.player.chunk,
    hu.player.toKeeps.viewDistance]
  exact h c

theorem holds_onClientSettingsChange (packet : ClientSettingsPacket) (c : ChunkCoord) :
    holds ((w.onClientSettingsChange this packet).traffic this) c ↔
      holds (w.traffic this) c ∧ c ∉ w.settingsUnloads this packet ∨
        c ∈ w.settingsLoads this packet := by
  rw [World.onClientSettingsChange_traffic, Function.update_self, holds_append_streamPackets]
  tauto

theorem holdsSquare_onClientSettingsChange (h : w.HoldsSquare this) (packet : ClientSettingsPacket) :
    (w.onClientSettingsChange this packet).HoldsSquare this ↔
      grantedViewDistance w packet = (w.player this).clientSettings.viewDistance := by
  rw [← viewDistance_withSettings_iff,
    ← square_settings_iff packet h (holds_onClientSettingsChange packet)]
  simp only [World.HoldsSquare, World.onClientSettingsChange_player, Function.update_self,
    World.withSettings_chunk]

theorem holdsSquare_onChunkTransition (h : w.HoldsSquare this) {s : PlayerState}
    (hs : (w.player this).Keeps s) (rotate : Bool) :
    ((w.setPlayer this s).onChunkTransition this (w.player this).chunk s.chunk
      (w.player this).position rotate).HoldsSquare this := by
  simp only [World.HoldsSquare, World.onChunkTransition_player, World.setPlayer_player,
    Function.update_self, hs.viewDistance]
  refine square_transition h fun c => ?_
  rw [World.onChunkTransition_traffic_self, List.map_append, ← List.append_assoc,
    holds_append_of_silent (by simp [holdWrite]), holds_append_streamPackets]
  simp only [World.setPlayer_player, Function.update_self, hs.viewDistance, World.setPlayer_traffic]
  tauto

/-- What a `TeleportConfirm` sends is not about chunks. -/
theorem holds_onTeleportConfirm (hinit : w.phase this = .playInit) (id : BitVec 32)
    (c : ChunkCoord) : holds ((w.onTeleportConfirm this id).traffic this) c ↔
      holds (w.traffic this) c := by
  rw [World.onTeleportConfirm_eq, World.enterPlay_traffic_self,
    World.confirmed_traffic _ _ _ (by rw [hinit]; decide), Function.update_self,
    holds_append_of_silent, holds_append_of_silent]
  · split <;> simp [holdWrite]
  · simp [holdWrite, createSpawnPacket]

/-- A frame of a player in `PLAY` or on the way into it. -/
theorem holdsSquare_effect (hs : Streamed w this) (hlive : w.life this = .live)
    (h : w.phase this = .play → w.HoldsSquare this) {now : Int}
    (he : Effect (w.receive this frame now) this frame w') :
    (w'.phase this = .play → w'.HoldsSquare this) ↔ KeepsHeld w (.packet this frame now) := by
  have hreceive : w.phase this = .play → (w.receive this frame now).HoldsSquare this := fun hp c => by
    rw [holds_receive, receive_player]
    exact h hp c
  have hg : ∀ d ∈ w.grants this, 0 ≤ d := fun d hd => grants_nonneg hd
  cases he with
  | quiet hinit hplay hq =>
    rw [receive_phase] at hinit hplay
    obtain ⟨ks, ht, hks⟩ := hq.traffic this
    refine iff_of_true (fun hp => ?_) ⟨fun hp packet hf => by simp [(hplay hp).1] at hf,
      fun hp hf => absurd (hinit hp).2 hf⟩
    rw [hq.phase, receive_phase] at hp
    exact (hreceive hp).of_silent hq.toSkeleton.unmoved ht fun k hk c => holdWrite_quiet (hks k hk)
  | phase hinit hnew =>
    rw [receive_phase] at hinit
    rcases hnew with rfl | rfl <;> simp [hinit, KeepsHeld]
  | login hlogin =>
    rw [receive_phase] at hlogin
    simp [hlogin, KeepsHeld]
  | @confirm id hinit hframe =>
    have hphase : w.phase this = .playInit := by simpa using hinit
    have hsquare : ((w.receive this frame now).onTeleportConfirm this id).HoldsSquare this ↔
        ∀ c, holds (w.traffic this) c ↔
          ChunkCoord.Within (w.player this).chunk (w.player this).viewDistance c := by
      refine forall_congr' fun c => ?_
      rw [holds_onTeleportConfirm hinit, holds_receive, World.onTeleportConfirm_eq,
        World.enterPlay_player, World.confirmed_chunk, World.confirmed_viewDistance,
        receive_player]
    rw [hsquare, (hs.init hlive hphase).exact_iff (w.player this).viewDistance_nonneg hg]
    simp [KeepsHeld, hphase, hframe, World.onTeleportConfirm_eq]
  | settingsInit hinit hframe hother =>
    rw [receive_phase] at hinit
    simp [KeepsHeld, hinit, hother]
  | @settings packet hplay hframe =>
    rw [receive_phase] at hplay
    rw [holdsSquare_onClientSettingsChange (hreceive hplay)]
    simp [KeepsHeld, hplay, hframe, grantedViewDistance]
  | transition hplay hsame _ _ hframe =>
    rw [receive_phase] at hplay
    exact iff_of_true (fun _ => holdsSquare_onChunkTransition (hreceive hplay) hsame _)
      ⟨by simp [hframe.1], by simp [hplay]⟩
  | @dig location hplay _ hother =>
    rw [receive_phase] at hplay
    have hu : Unmoved (w.receive this frame now)
        ((w.receive this frame now).startDigging this location) this :=
      ⟨by simp, by simp, same_of_eq (by simp), by simp, by simp, by simp, by simp⟩
    refine iff_of_true (fun _ => (hreceive hplay).of_silent hu
      (World.startDigging_traffic _ this location) ?_) ⟨by simp [hother], by simp [hplay]⟩
    simp

theorem streamingExact_next {step : ServerStep} (hb : Base w) (hs : ∀ p, Streamed w p)
    (ht : StreamingExact w) (he : server.enabled w step) :
    StreamingExact (server.next w step) ↔ KeepsHeld w step := by
  have hframe := @forall_next_iff_of_broadcasts w
    (fun w p => w.life p = .live → w.phase p = .play → w.HoldsSquare p) step
    (fun {_ _ _} hu hbc h hl hp => by
      obtain ⟨ks, hks, hbk⟩ := hbc
      exact (h (hu.life ▸ hl) (hu.phase ▸ hp)).of_silent hu hks fun k hk c =>
        holdWrite_broadcast (hbk k hk).1) hb.registry ht
  refine hframe.trans ?_
  cases step with
  | connect this clientSettings entityId now => simp [ServerStep.subject, KeepsHeld]
  | packet this frame now =>
    have hlive : w.life this = .live := he
    have hstep := holdsSquare_effect (hs this) hlive (ht this hlive)
      (handle_effect (w.receive this frame now) this frame)
    simpa [ServerStep.subject, hlive] using hstep
  | error this => exact iff_of_true (ht this) trivial
  | tick this now =>
    refine iff_of_true (fun hl hp => ?_) trivial
    have hu : Unmoved w (w.onTick this now) this := unmoved_onTick now
    have hlive : w.life this = .live := he
    have hplay : w.phase this = .play := hu.phase ▸ hp
    rcases onTick_cases w this now with ⟨-, hq⟩ | ⟨⟨hinit, -⟩, -⟩
    · obtain ⟨ks, hks, hkq⟩ := hq.traffic this
      exact World.HoldsSquare.of_silent (ht this hlive hplay) hu hks fun k hk c =>
        holdWrite_quiet (hkq k hk)
    · rw [hplay] at hinit
      cases hinit
  | disconnect this => simp [ServerStep.subject, KeepsHeld]

end

variable {uuidGenerator : Bytes → Uuid} {machine : StateMachinePtr → StateMachine}
  {steps : List ServerStep}

/-- **The clients of a run hold the squares of their view distances, if and only if the settings of
`PLAY` keep the view distance and every client enters `PLAY` after settings, with the largest view
distance that it was granted.** -/
theorem streamingExact_iff (h : server.Run (.initial uuidGenerator machine) steps) :
    server.Along (.initial uuidGenerator machine) steps StreamingExact ↔
      server.Steps (.initial uuidGenerator machine) steps KeepsHeld := by
  refine along_iff_steps (I := fun w => Base w ∧ (∀ p, Streamed w p) ∧ StreamingExact w)
    ⟨.initial uuidGenerator machine, fun p => .initial uuidGenerator machine,
      fun p hl => nomatch hl⟩ (fun _ hw => hw.2.2) ?_ ?_ h
  · exact fun w step hw he hok => ⟨hw.1.next he, Streamed.next hw.1 hw.2.1 he,
      (streamingExact_next hw.1 hw.2.1 hw.2.2 he).mpr hok⟩
  · exact fun w step hw he ht => (streamingExact_next hw.1 hw.2.1 hw.2.2 he).mp ht

/-- A client that joins with the second of two settings. -/
theorem streamingExact_iff_join :
    server.Run emptyServer (loginSteps 0 ++ [.packet 0 (clientSettingsFrame 2) 0,
        .packet 0 (clientSettingsFrame 3) 0, .packet 0 (teleportConfirmFrame 1) 0]) ∧
      (server.Along emptyServer (loginSteps 0 ++ [.packet 0 (clientSettingsFrame 2) 0,
          .packet 0 (clientSettingsFrame 3) 0, .packet 0 (teleportConfirmFrame 1) 0])
          StreamingExact ↔
        server.Steps emptyServer (loginSteps 0 ++ [.packet 0 (clientSettingsFrame 2) 0,
          .packet 0 (clientSettingsFrame 3) 0, .packet 0 (teleportConfirmFrame 1) 0]) KeepsHeld) :=
  have h : server.Run emptyServer (loginSteps 0 ++ [.packet 0 (clientSettingsFrame 2) 0,
      .packet 0 (clientSettingsFrame 3) 0, .packet 0 (teleportConfirmFrame 1) 0]) := by
    decide +kernel
  ⟨h, streamingExact_iff h⟩

/-- A client with a view distance of 3 that asks for 2 still holds the chunk three to the west. -/
theorem held_after_settings :
    server.Run emptyServer (joinSteps 0 3 ++ [.packet 0 (clientSettingsFrame 2) 0]) ∧
      ¬ server.Along emptyServer (joinSteps 0 3 ++ [.packet 0 (clientSettingsFrame 2) 0])
        StreamingExact := by
  refine ⟨by decide +kernel, fun h => ?_⟩
  have hexact := (h.last 0 (by decide +kernel) (by decide +kernel) ⟨-3, 0⟩).mp
    (by decide +kernel)
  exact absurd hexact (by decide +kernel)

end Vitamine
