import Vitamine.Proxyd.StateMachine

/-!
# What the handlers do

The handlers that change more than a few fields of their own player, each by what it does to the
parts of the world: the chunks, the tracker, the players, and the traffic of its own connection and
of the others. Later modules use these lemmas and unfold no handler.

* `sendChunks_chunks`, `sendChunks_traffic`: streaming a list of chunks.
* `onClientSettingsChange_*`, `onSettingsInPlayInit_*`: new settings.
* `enterPlay_*`, `onTeleportConfirm_*`: the way into `PLAY`.
* `onChunkTransition_*`: a move to another chunk.
* `onLoginStart_*`, `leavePlay_*`: the player list.
-/

namespace Vitamine

open Wire

namespace World

variable (w : World) (this : StateMachinePtr) {q : StateMachinePtr}

/-! ## Streaming chunks -/

/-- The chunk that is sent for a coordinate. -/
def chunkAt (coord : ChunkCoord) : Chunk := (w.globalState.chunks coord).getD generateChunk

section SendChunks

variable (coords : List ChunkCoord)

theorem chunkAt_sendChunk (c d : ChunkCoord) : (w.sendChunk this c).chunkAt d = w.chunkAt d := by
  unfold chunkAt sendChunk getOrCreateChunk sendPacket
  by_cases h : d = c
  · subst h
    simp
  · simp [h]

/-- **The loop over a list of chunks**: every chunk of the list is stored afterwards, and is sent as
it is stored; no sending changes a chunk. -/
theorem sendChunks_eq : w.sendChunks this coords =
    { w with
      globalState := { w.globalState with
        chunks := fun c =>
          if c ∈ coords then some (w.chunkAt c) else w.globalState.chunks c }
      traffic := Function.update w.traffic this
        (w.traffic this ++ (coords.map fun c => .load c (w.chunkAt c)).map .sent) } := by
  induction coords generalizing w with
  | nil => simp [sendChunks]
  | cons d coords ih =>
    rw [show w.sendChunks this (d :: coords) = (w.sendChunk this d).sendChunks this coords from rfl,
      ih]
    simp only [chunkAt_sendChunk]
    have hd : w.sendChunk this d =
        { w with
          globalState := { w.globalState with
            chunks := Function.update w.globalState.chunks d (some (w.chunkAt d)) }
          traffic := Function.update w.traffic this
            (w.traffic this ++ [.sent (.load d (w.chunkAt d))]) } := rfl
    rw [hd]
    congr 1
    · congr 1
      funext c
      by_cases hmem : c ∈ coords
      · simp [hmem]
      · by_cases hc : c = d
        · subst hc
          simp [hmem]
        · simp [hmem, hc]
    · simp

@[simp] theorem sendChunks_player : (w.sendChunks this coords).player = w.player := by
  rw [sendChunks_eq]
  rfl

@[simp] theorem sendChunks_phase : (w.sendChunks this coords).phase = w.phase := by
  rw [sendChunks_eq]
  rfl

@[simp] theorem sendChunks_life : (w.sendChunks this coords).life = w.life := by
  rw [sendChunks_eq]

@[simp] theorem sendChunks_tracker : (w.sendChunks this coords).tracker = w.tracker := by
  rw [sendChunks_eq]
  rfl

@[simp] theorem sendChunks_players :
    (w.sendChunks this coords).globalState.players = w.globalState.players := by
  rw [sendChunks_eq]

@[simp] theorem sendChunks_serverSettings :
    (w.sendChunks this coords).globalState.serverSettings = w.globalState.serverSettings := by
  rw [sendChunks_eq]

theorem sendChunks_chunks (c : ChunkCoord) : (w.sendChunks this coords).globalState.chunks c =
    if c ∈ coords then some (w.chunkAt c) else w.globalState.chunks c := by
  rw [sendChunks_eq]

theorem sendChunks_traffic : (w.sendChunks this coords).traffic =
    Function.update w.traffic this
      (w.traffic this ++ (coords.map fun c => .load c (w.chunkAt c)).map .sent) := by
  rw [sendChunks_eq]

end SendChunks

@[simp] theorem sendUnloads_globalState (coords : List ChunkCoord) :
    (w.sendUnloads this coords).globalState = w.globalState := rfl

@[simp] theorem sendUnloads_player (coords : List ChunkCoord) :
    (w.sendUnloads this coords).player = w.player := rfl

@[simp] theorem sendUnloads_phase (coords : List ChunkCoord) :
    (w.sendUnloads this coords).phase = w.phase := rfl

@[simp] theorem sendUnloads_life (coords : List ChunkCoord) :
    (w.sendUnloads this coords).life = w.life := rfl

@[simp] theorem sendUnloads_tracker (coords : List ChunkCoord) :
    (w.sendUnloads this coords).tracker = w.tracker := rfl

@[simp] theorem sendUnloads_traffic (coords : List ChunkCoord) :
    (w.sendUnloads this coords).traffic =
      Function.update w.traffic this (w.traffic this ++ (coords.map .unload).map .sent) := rfl

/-- What one connection is sent by a broadcast. -/
theorem sendEach_traffic_append (targets : Finset StateMachinePtr) (packet : ClientboundPacket)
    (q : StateMachinePtr) : (w.sendEach targets packet).traffic q =
      w.traffic q ++ (if q ∈ targets then [packet] else []).map .sent := by
  rw [sendEach_traffic]
  split <;> simp

/-- Unloads, and then chunks as they are. -/
def streamPackets (unloads loads : List ChunkCoord) : List ClientboundPacket :=
  unloads.map .unload ++ loads.map fun c => .load c (w.chunkAt c)

/-- What is true of all unloads and of all chunks. -/
theorem forall_streamPackets {P : ClientboundPacket → Prop} (hunload : ∀ c, P (.unload c))
    (hload : ∀ c chunk, P (.load c chunk)) {unloads loads : List ChunkCoord} :
    ∀ k ∈ w.streamPackets unloads loads, P k := by
  intro k hk
  rcases List.mem_append.mp hk with hk | hk
  · obtain ⟨c, -, rfl⟩ := List.mem_map.mp hk
    exact hunload c
  · obtain ⟨c, -, rfl⟩ := List.mem_map.mp hk
    exact hload c _

/-! ## New settings -/

section Settings

variable (packet : ClientSettingsPacket)

/-- The player as `onClientSettingsChange` leaves it. -/
def withSettings : PlayerState :=
  (w.player this).withSettings packet w.globalState.serverSettings.maxViewDistance

@[simp] theorem withSettings_chunk : (w.withSettings this packet).chunk = (w.player this).chunk :=
  rfl

/-- The chunks that a smaller view distance takes away. -/
def settingsUnloads : List ChunkCoord :=
  let oldVd := (w.player this).viewDistance
  let vd := (w.withSettings this packet).viewDistance
  if vd < oldVd then (viewRing oldVd vd).map ((w.player this).chunk + ·) else []

/-- The chunks that a larger view distance adds, unless the old one is zero. -/
def settingsLoads : List ChunkCoord :=
  let oldVd := (w.player this).viewDistance
  let vd := (w.withSettings this packet).viewDistance
  if oldVd ≠ 0 ∧ oldVd < vd then (viewRing vd oldVd).map ((w.player this).chunk + ·) else []

theorem mem_settingsUnloads {c : ChunkCoord} : c ∈ w.settingsUnloads this packet ↔
    (w.withSettings this packet).viewDistance < (w.player this).viewDistance ∧
      ChunkCoord.Within (w.player this).chunk (w.player this).viewDistance c ∧
      ¬ (c.x - (w.player this).chunk.x ≤ (w.withSettings this packet).viewDistance ∧
        c.z - (w.player this).chunk.z ≤ (w.withSettings this packet).viewDistance) := by
  unfold settingsUnloads
  exact mem_viewRing_ite

theorem mem_settingsLoads {c : ChunkCoord} : c ∈ w.settingsLoads this packet ↔
    ((w.player this).viewDistance ≠ 0 ∧
      (w.player this).viewDistance < (w.withSettings this packet).viewDistance) ∧
      ChunkCoord.Within (w.player this).chunk (w.withSettings this packet).viewDistance c ∧
      ¬ (c.x - (w.player this).chunk.x ≤ (w.player this).viewDistance ∧
        c.z - (w.player this).chunk.z ≤ (w.player this).viewDistance) := by
  unfold settingsLoads
  exact mem_viewRing_ite

/-- `onClientSettingsChange` as one write of each part. -/
theorem onClientSettingsChange_eq : w.onClientSettingsChange this packet =
    (((w.setPlayer this (w.withSettings this packet)).setTracker
      ((w.tracker.unsubscribe (w.settingsUnloads this packet) this).subscribe
        (w.settingsLoads this packet) this)).sendUnloads this
          (w.settingsUnloads this packet)).sendChunks this (w.settingsLoads this packet) := by
  have h0 := (w.withSettings this packet).viewDistance_nonneg
  have h1 := (w.player this).viewDistance_nonneg
  have hnil : ∀ w : World, w.sendUnloads this [] = w := fun w => by simp [sendUnloads, sendAll]
  have hset : (w.player this).withSettings packet w.globalState.serverSettings.maxViewDistance =
    w.withSettings this packet := rfl
  unfold onClientSettingsChange settingsUnloads settingsLoads
  simp only [hset, withSettings_chunk]
  by_cases hzero : (w.player this).viewDistance = 0
  · rw [if_neg (not_not.mpr hzero), if_neg (by omega), if_neg (by omega), hnil]
    rfl
  rw [if_pos hzero]
  rcases lt_trichotomy (w.withSettings this packet).viewDistance (w.player this).viewDistance
    with hlt | heq | hgt
  · rw [if_pos hlt, if_pos hlt, if_neg (by omega), PlayerTracker.updateViewDistance,
      if_neg (by omega), if_pos hlt]
    rfl
  · rw [if_neg (by omega), if_neg (by omega), if_neg (by omega), if_neg (by omega), hnil,
      PlayerTracker.updateViewDistance, if_pos heq.symm]
    rfl
  · rw [if_neg (by omega), if_pos hgt, if_neg (by omega), if_pos ⟨hzero, hgt⟩, hnil,
      PlayerTracker.updateViewDistance, if_neg (by omega), if_neg (by omega)]
    rfl

@[simp] theorem onClientSettingsChange_player : (w.onClientSettingsChange this packet).player =
    Function.update w.player this (w.withSettings this packet) := by
  rw [onClientSettingsChange_eq]
  simp

@[simp] theorem onClientSettingsChange_chunk (p : StateMachinePtr) :
    ((w.onClientSettingsChange this packet).player p).chunk = (w.player p).chunk := by
  rw [onClientSettingsChange_player]
  by_cases hp : p = this
  · subst hp
    rw [Function.update_self, withSettings_chunk]
  · rw [Function.update_of_ne hp]

@[simp] theorem onClientSettingsChange_phase :
    (w.onClientSettingsChange this packet).phase = w.phase := by
  rw [onClientSettingsChange_eq]
  simp

@[simp] theorem onClientSettingsChange_life :
    (w.onClientSettingsChange this packet).life = w.life := by
  rw [onClientSettingsChange_eq]
  simp

@[simp] theorem onClientSettingsChange_players :
    (w.onClientSettingsChange this packet).globalState.players = w.globalState.players := by
  rw [onClientSettingsChange_eq]
  simp

@[simp] theorem onClientSettingsChange_serverSettings :
    (w.onClientSettingsChange this packet).globalState.serverSettings =
      w.globalState.serverSettings := by
  rw [onClientSettingsChange_eq]
  simp

@[simp] theorem onClientSettingsChange_membership :
    (w.onClientSettingsChange this packet).tracker.membership = w.tracker.membership := by
  rw [onClientSettingsChange_eq]
  simp

theorem mem_subscriptions_onClientSettingsChange {c : ChunkCoord} :
    q ∈ (w.onClientSettingsChange this packet).tracker.subscriptions c ↔
      q ∈ w.tracker.subscriptions c ∧ ¬ (q = this ∧ c ∈ w.settingsUnloads this packet) ∨
        q = this ∧ c ∈ w.settingsLoads this packet := by
  rw [onClientSettingsChange_eq]
  simp

theorem onClientSettingsChange_chunks (c : ChunkCoord) :
    (w.onClientSettingsChange this packet).globalState.chunks c =
      if c ∈ w.settingsLoads this packet then some (w.chunkAt c) else w.globalState.chunks c := by
  rw [onClientSettingsChange_eq, sendChunks_chunks]
  rfl

theorem onClientSettingsChange_traffic : (w.onClientSettingsChange this packet).traffic =
    Function.update w.traffic this (w.traffic this ++
      (w.streamPackets (w.settingsUnloads this packet) (w.settingsLoads this packet)).map .sent) := by
  rw [onClientSettingsChange_eq, sendChunks_traffic]
  simp [streamPackets, chunkAt]

/-- The packets of `ClientSettings` in `PLAY_INIT`. -/
def settingsInPlayInitPackets : List ClientboundPacket :=
  let state := w.withSettings this packet
  let vd := state.viewDistance
  w.streamPackets (w.settingsUnloads this packet) (w.settingsLoads this packet ++
      ChunkCoord.region (state.chunk - ⟨vd, vd⟩) (state.chunk + ⟨vd, vd⟩)) ++
    [.spawnPosition (toPosition ⟨0, 0, 0⟩),
      .playerPositionLookServer state.position.x state.position.y state.position.z state.pitch
        state.yaw 0 state.nextTeleportId]

theorem forall_settingsInPlayInitPackets {P : ClientboundPacket → Prop}
    (hunload : ∀ c, P (.unload c)) (hload : ∀ c chunk, P (.load c chunk))
    (hspawn : ∀ position, P (.spawnPosition position))
    (hlook : ∀ x y z pitch yaw flags id, P (.playerPositionLookServer x y z pitch yaw flags id)) :
    ∀ k ∈ w.settingsInPlayInitPackets this packet, P k := by
  intro k hk
  rcases List.mem_append.mp hk with hk | hk
  · exact w.forall_streamPackets hunload hload k hk
  · simp only [List.mem_cons, List.not_mem_nil, or_false] at hk
    rcases hk with rfl | rfl
    · exact hspawn _
    · exact hlook ..

@[simp] theorem onSettingsInPlayInit_player : (w.onSettingsInPlayInit this packet).player =
    Function.update w.player this (w.withSettings this packet).startTeleport := by
  simp [onSettingsInPlayInit, sendPacket]

@[simp] theorem onSettingsInPlayInit_chunk (p : StateMachinePtr) :
    ((w.onSettingsInPlayInit this packet).player p).chunk = (w.player p).chunk := by
  rw [onSettingsInPlayInit_player]
  by_cases hp : p = this
  · subst hp
    rw [Function.update_self]
    rfl
  · rw [Function.update_of_ne hp]

@[simp] theorem onSettingsInPlayInit_phase :
    (w.onSettingsInPlayInit this packet).phase = w.phase := by
  simp [onSettingsInPlayInit, sendPacket]

@[simp] theorem onSettingsInPlayInit_life : (w.onSettingsInPlayInit this packet).life = w.life := by
  simp [onSettingsInPlayInit, sendPacket]

@[simp] theorem onSettingsInPlayInit_players :
    (w.onSettingsInPlayInit this packet).globalState.players = w.globalState.players := by
  simp [onSettingsInPlayInit, sendPacket]

@[simp] theorem onSettingsInPlayInit_serverSettings :
    (w.onSettingsInPlayInit this packet).globalState.serverSettings =
      w.globalState.serverSettings := by
  simp [onSettingsInPlayInit, sendPacket]

@[simp] theorem onSettingsInPlayInit_tracker : (w.onSettingsInPlayInit this packet).tracker =
    (w.onClientSettingsChange this packet).tracker := by
  simp [onSettingsInPlayInit, sendPacket]

theorem chunkAt_onClientSettingsChange (c : ChunkCoord) :
    (w.onClientSettingsChange this packet).chunkAt c = w.chunkAt c := by
  rw [chunkAt, onClientSettingsChange_chunks]
  split <;> rfl

theorem onSettingsInPlayInit_chunks (c : ChunkCoord) :
    (w.onSettingsInPlayInit this packet).globalState.chunks c =
      if c ∈ w.settingsLoads this packet ∨
          ChunkCoord.Within (w.player this).chunk (w.withSettings this packet).viewDistance c then
        some (w.chunkAt c)
      else w.globalState.chunks c := by
  have h := chunkAt_onClientSettingsChange w this packet c
  simp only [onSettingsInPlayInit, sendPacket, sendAll_globalState, setPlayer_globalState,
    sendChunks_chunks, onClientSettingsChange_player, Function.update_self, h,
    onClientSettingsChange_chunks, ChunkCoord.mem_square, withSettings_chunk]
  split_ifs <;> simp_all

theorem onSettingsInPlayInit_traffic : (w.onSettingsInPlayInit this packet).traffic =
    Function.update w.traffic this
      (w.traffic this ++ (w.settingsInPlayInitPackets this packet).map .sent) := by
  simp [onSettingsInPlayInit, sendPacket, sendChunks_traffic, onClientSettingsChange_traffic,
    chunkAt_onClientSettingsChange, settingsInPlayInitPackets, streamPackets]

end Settings

/-! ## Entering -/

section Enter

/-- The other players that are members of a chunk in view. What is proved of the list is who is in
it. -/
def visiblePlayers : List StateMachinePtr :=
  let coord := (w.player this).chunk
  let vd := (w.player this).viewDistance
  (((ChunkCoord.offsets vd).flatMap fun offset =>
    ascending ((w.tracker.enter coord vd this).members (coord + offset))).dedup).filter (· ≠ this)

theorem mem_visiblePlayers {m : StateMachinePtr} : m ∈ w.visiblePlayers this ↔ m ≠ this ∧
    ∃ c, ChunkCoord.Within (w.player this).chunk (w.player this).viewDistance c ∧
      m ∈ w.tracker.membership c := by
  have h : ∀ c, m ∈ (w.tracker.enter (w.player this).chunk (w.player this).viewDistance
      this).members c ↔ m ∈ w.tracker.membership c ∨ m = this ∧ c = (w.player this).chunk :=
    fun c => PlayerTracker.mem_membership_enter
  simp only [visiblePlayers, List.mem_filter, List.mem_dedup, List.mem_flatMap, mem_ascending, h,
    decide_eq_true_eq]
  constructor
  · rintro ⟨⟨d, hd, hm⟩, hne⟩
    refine ⟨hne, (w.player this).chunk + d, ?_, hm.resolve_right fun h => hne h.1⟩
    rw [ChunkCoord.within_iff]
    rw [ChunkCoord.mem_offsets] at hd
    simp only [chunk_add_x, chunk_add_z]
    omega
  · rintro ⟨hne, c, hc, hm⟩
    rw [ChunkCoord.within_iff] at hc
    refine ⟨⟨⟨c.x - (w.player this).chunk.x, c.z - (w.player this).chunk.z⟩, ?_, ?_⟩, hne⟩
    · rw [ChunkCoord.mem_offsets]
      simp only
      omega
    · rw [ChunkCoord.eq_add_iff.mpr ⟨rfl, rfl⟩]
      exact .inl hm

@[simp] theorem enterPlay_player : (w.enterPlay this).player = w.player := by
  simp [enterPlay, broadcastLocallyUnsafe]

@[simp] theorem enterPlay_phase : (w.enterPlay this).phase = Function.update w.phase this .play := by
  simp [enterPlay, broadcastLocallyUnsafe]

@[simp] theorem enterPlay_life : (w.enterPlay this).life = w.life := by
  simp [enterPlay, broadcastLocallyUnsafe]

@[simp] theorem enterPlay_players :
    (w.enterPlay this).globalState.players = w.globalState.players := by
  simp [enterPlay, broadcastLocallyUnsafe]

@[simp] theorem enterPlay_serverSettings :
    (w.enterPlay this).globalState.serverSettings = w.globalState.serverSettings := by
  simp [enterPlay, broadcastLocallyUnsafe]

@[simp] theorem enterPlay_chunks :
    (w.enterPlay this).globalState.chunks = w.globalState.chunks := by
  simp [enterPlay, broadcastLocallyUnsafe]

@[simp] theorem enterPlay_tracker : (w.enterPlay this).tracker =
    w.tracker.enter (w.player this).chunk (w.player this).viewDistance this := by
  simp [enterPlay, broadcastLocallyUnsafe]

theorem enterPlay_traffic_self : (w.enterPlay this).traffic this = w.traffic this ++
    ((w.visiblePlayers this).map fun m => createSpawnPacket (w.player m)).map .sent := by
  simp [enterPlay, broadcastLocallyUnsafe, sendEach_traffic, visiblePlayers]

theorem enterPlay_traffic_ne (h : q ≠ this) : (w.enterPlay this).traffic q = w.traffic q ++
    (if q ∈ w.tracker.subscriptions (w.player this).chunk then
      [createSpawnPacket (w.player this)] else []).map .sent := by
  have hsub : q ∈ (w.tracker.enter (w.player this).chunk (w.player this).viewDistance
      this).subscribers (w.player this).chunk ↔ q ∈ w.tracker.subscriptions (w.player this).chunk :=
    PlayerTracker.mem_subscriptions_enter.trans (by simp [h])
  simp [enterPlay, broadcastLocallyUnsafe, sendEach_traffic_append, h, hsub]

end Enter

@[simp] theorem setPlayer_self : w.setPlayer this (w.player this) = w := by
  unfold setPlayer setMachine player
  simp

/-! ## Confirming a teleport -/

section Confirm

variable (message : Bytes)

@[simp] theorem disconnectWith_globalState :
    (w.disconnectWith this message).globalState = w.globalState := by
  unfold disconnectWith
  split <;> rfl

@[simp] theorem disconnectWith_tracker :
    (w.disconnectWith this message).tracker = w.tracker := by
  unfold disconnectWith
  split <;> rfl

@[simp] theorem disconnectWith_life :
    (w.disconnectWith this message).life = w.life := by
  unfold disconnectWith
  split <;> rfl

@[simp] theorem disconnectWith_phase :
    (w.disconnectWith this message).phase = w.phase := by
  unfold disconnectWith
  split <;> rfl

@[simp] theorem disconnectWith_player :
    (w.disconnectWith this message).player = w.player := by
  unfold disconnectWith
  split <;> rfl

theorem disconnectWith_traffic (h : w.phase this ≠ .play) :
    (w.disconnectWith this message).traffic = Function.update w.traffic this
      (w.traffic this ++ [.sent (.disconnectLogin (chat.plainText message))]) := by
  unfold disconnectWith
  simp only [if_neg h]
  rfl

variable (id : BitVec 32)

/-- The world in which `TeleportConfirm` enters: an outstanding id is taken away, any other id is
refused with a packet. -/
def confirmed : World :=
  if id ∈ (w.player this).outstandingTeleportIds then
    w.setPlayer this { w.player this with
      outstandingTeleportIds := (w.player this).outstandingTeleportIds.erase id }
  else w.disconnectWith this (spanFromCString "PacketTeleportConfirm: invalid teleport id")

/-- **The missing `return`**: the player enters in both cases. -/
theorem onTeleportConfirm_eq :
    w.onTeleportConfirm this id = (w.confirmed this id).enterPlay this := by
  by_cases h : id ∈ (w.player this).outstandingTeleportIds <;>
    simp [onTeleportConfirm, PlayerState.confirmTeleport, confirmed, h]

@[simp] theorem confirmed_globalState : (w.confirmed this id).globalState = w.globalState := by
  unfold confirmed
  split <;> simp

@[simp] theorem confirmed_tracker : (w.confirmed this id).tracker = w.tracker := by
  unfold confirmed
  split <;> simp

@[simp] theorem confirmed_life : (w.confirmed this id).life = w.life := by
  unfold confirmed
  split <;> simp

@[simp] theorem confirmed_phase : (w.confirmed this id).phase = w.phase := by
  unfold confirmed
  split <;> simp

theorem confirmed_player : (w.confirmed this id).player = Function.update w.player this
    { w.player this with
      outstandingTeleportIds := (w.player this).outstandingTeleportIds.erase id } := by
  unfold confirmed
  split <;> rename_i h
  · exact setPlayer_player ..
  · rw [disconnectWith_player, Finset.erase_eq_of_notMem h, Function.update_eq_self]

theorem confirmed_traffic (h : w.phase this ≠ .play) : (w.confirmed this id).traffic =
    Function.update w.traffic this (w.traffic this ++
      (if id ∈ (w.player this).outstandingTeleportIds then []
      else [ClientboundPacket.disconnectLogin (chat.plainText
        (spanFromCString "PacketTeleportConfirm: invalid teleport id"))]).map .sent) := by
  unfold confirmed
  split
  · simp
  · rw [disconnectWith_traffic w this _ h]
    rfl

@[simp] theorem confirmed_chunk (p : StateMachinePtr) :
    ((w.confirmed this id).player p).chunk = (w.player p).chunk := by
  rw [confirmed_player]
  by_cases hp : p = this
  · subst hp
    rw [Function.update_self]
    rfl
  · rw [Function.update_of_ne hp]

@[simp] theorem confirmed_viewDistance (p : StateMachinePtr) :
    ((w.confirmed this id).player p).viewDistance = (w.player p).viewDistance := by
  rw [confirmed_player]
  by_cases hp : p = this
  · subst hp
    rw [Function.update_self]
    rfl
  · rw [Function.update_of_ne hp]

end Confirm

/-! ## Moving to another chunk -/

section Transition

variable (start target : ChunkCoord) (oldPosition : EntityCoord) (rotate : Bool)

theorem mem_chunksOutside {center other c : ChunkCoord} {vd : Int} :
    c ∈ chunksOutside center other vd ↔
      ChunkCoord.Within center vd c ∧ ¬ ChunkCoord.Within other vd c := by
  have hsq : c.withinOrdered (other - ⟨vd, vd⟩) (other + ⟨vd, vd⟩) = true ↔
      ChunkCoord.Within other vd c := by
    rw [ChunkCoord.within_iff]
    simp only [Vector2XZ.withinOrdered, chunk_sub_x, chunk_sub_z, chunk_add_x, chunk_add_z, ge_iff_le,
      Bool.and_eq_true, decide_eq_true_eq]
    omega
  rw [chunksOutside, List.mem_filter, ChunkCoord.mem_map_offsets, Bool.not_eq_true',
    ← Bool.not_eq_true, hsq]

/-- The packets of a move for those who see the player before and after it, or at one of the two
only. -/
def movePackets (q : StateMachinePtr) : List ClientboundPacket :=
  let state := w.player this
  if q ∈ w.tracker.subscriptions start then
    if q ∈ w.tracker.subscriptions target then
      createMovePacket state oldPosition rotate ::
        if rotate then [createHeadLookPacket state] else []
    else [createDespawnPacket state]
  else if q ∈ w.tracker.subscriptions target then [createSpawnPacket state]
  else []

theorem mem_movePackets {q : StateMachinePtr} {k : ClientboundPacket}
    (hk : k ∈ w.movePackets this start target oldPosition rotate q) :
    (q ∈ w.tracker.subscriptions start ∧
      (k = createMovePacket (w.player this) oldPosition rotate ∨
        k = createHeadLookPacket (w.player this) ∨ k = createDespawnPacket (w.player this))) ∨
    (q ∉ w.tracker.subscriptions start ∧ q ∈ w.tracker.subscriptions target) ∧
      k = createSpawnPacket (w.player this) := by
  unfold movePackets at hk
  simp only at hk
  split_ifs at hk with hstart htarget hrotate htarget
  · rcases List.mem_cons.mp hk with hk | hk
    · exact .inl ⟨hstart, .inl hk⟩
    · exact .inl ⟨hstart, .inr (.inl (List.mem_singleton.mp hk))⟩
  · exact .inl ⟨hstart, .inl (List.mem_singleton.mp hk)⟩
  · exact .inl ⟨hstart, .inr (.inr (List.mem_singleton.mp hk))⟩
  · exact .inr ⟨⟨hstart, htarget⟩, List.mem_singleton.mp hk⟩
  · cases hk

@[simp] theorem onChunkTransition_player :
    (w.onChunkTransition this start target oldPosition rotate).player = w.player := by
  unfold onChunkTransition
  cases rotate <;> simp [sendPacket]

@[simp] theorem onChunkTransition_phase :
    (w.onChunkTransition this start target oldPosition rotate).phase = w.phase := by
  unfold onChunkTransition
  cases rotate <;> simp [sendPacket]

@[simp] theorem onChunkTransition_life :
    (w.onChunkTransition this start target oldPosition rotate).life = w.life := by
  unfold onChunkTransition
  cases rotate <;> simp [sendPacket]

@[simp] theorem onChunkTransition_players :
    (w.onChunkTransition this start target oldPosition rotate).globalState.players =
      w.globalState.players := by
  unfold onChunkTransition
  cases rotate <;> simp [sendPacket]

@[simp] theorem onChunkTransition_serverSettings :
    (w.onChunkTransition this start target oldPosition rotate).globalState.serverSettings =
      w.globalState.serverSettings := by
  unfold onChunkTransition
  cases rotate <;> simp [sendPacket]

theorem onChunkTransition_chunks (c : ChunkCoord) :
    (w.onChunkTransition this start target oldPosition rotate).globalState.chunks c =
      if c ∈ chunksOutside target start (w.player this).viewDistance then some (w.chunkAt c)
      else w.globalState.chunks c := by
  unfold onChunkTransition
  cases rotate <;> simp [sendPacket, sendChunks_chunks, chunkAt]

theorem onChunkTransition_tracker :
    (w.onChunkTransition this start target oldPosition rotate).tracker =
      ((w.tracker.move start target this).unsubscribe
        (chunksOutside start target (w.player this).viewDistance) this).subscribe
          (chunksOutside target start (w.player this).viewDistance) this := by
  unfold onChunkTransition
  cases rotate <;> simp [sendPacket]

theorem onChunkTransition_traffic_self :
    (w.onChunkTransition this start target oldPosition rotate).traffic this = w.traffic this ++
      (w.streamPackets (chunksOutside start target (w.player this).viewDistance)
        (chunksOutside target start (w.player this).viewDistance) ++
          [ClientboundPacket.updateViewPosition target.x target.z]).map .sent := by
  unfold onChunkTransition
  cases rotate <;> simp [sendPacket, sendEach_traffic, sendChunks_traffic, streamPackets, chunkAt]

theorem onChunkTransition_traffic_ne (h : q ≠ this) :
    (w.onChunkTransition this start target oldPosition rotate).traffic q = w.traffic q ++
      (w.movePackets this start target oldPosition rotate q).map .sent := by
  unfold onChunkTransition movePackets
  cases rotate <;>
    simp [sendPacket, sendEach_traffic_append, sendChunks_traffic, h, PlayerTracker.subscribers] <;>
    split_ifs <;> simp_all

end Transition

/-! ## The player list -/

section PlayerList

variable (name : Bytes)

def loginPackets : List ClientboundPacket :=
  let settings := w.globalState.serverSettings
  let state := w.loggedIn this name
  [.loginSuccess state.uuid.toString name,
    .joinGame state.entityId state.gameMode.value settings.dimension.value 0
      (spanFromCString "default") (settings.maxViewDistance.signExtend 32)
      settings.reducedDebugInfo,
    .pluginMessageServer PLUGIN_CHANNEL_MINECRAFT_BRAND (serializeString SERVER_BRAND_STRING),
    .playerAbilitiesServer state.abilityFlags state.flyingSpeed state.walkingSpeed,
    .heldItemChangeServer state.heldItemSlot,
    .playerInfo ⟨.addPlayer, (ascending w.globalState.players).map fun player =>
      addPlayerEntry (Function.update w.player this state player)⟩,
    .playerInfo ⟨.addPlayer, [addPlayerEntry state]⟩]

@[simp] theorem onLoginStart_player : (w.onLoginStart this name).player =
    Function.update w.player this (w.loggedIn this name) := by
  simp [onLoginStart, sendPacket, broadcastGloballyUnsafe]

@[simp] theorem onLoginStart_phase : (w.onLoginStart this name).phase =
    Function.update w.phase this .playInit := by
  simp [onLoginStart, sendPacket, broadcastGloballyUnsafe]

@[simp] theorem onLoginStart_life : (w.onLoginStart this name).life = w.life := by
  simp [onLoginStart, sendPacket, broadcastGloballyUnsafe]

@[simp] theorem onLoginStart_tracker : (w.onLoginStart this name).tracker = w.tracker := by
  simp [onLoginStart, sendPacket, broadcastGloballyUnsafe]

@[simp] theorem onLoginStart_players : (w.onLoginStart this name).globalState.players =
    insert this w.globalState.players := by
  simp [onLoginStart, sendPacket, broadcastGloballyUnsafe]

@[simp] theorem onLoginStart_serverSettings :
    (w.onLoginStart this name).globalState.serverSettings = w.globalState.serverSettings := by
  simp [onLoginStart, sendPacket, broadcastGloballyUnsafe]

@[simp] theorem onLoginStart_chunks : (w.onLoginStart this name).globalState.chunks =
    w.globalState.chunks := by
  simp [onLoginStart, sendPacket, broadcastGloballyUnsafe]

theorem onLoginStart_traffic_self : (w.onLoginStart this name).traffic this =
    w.traffic this ++ (w.loginPackets this name).map .sent := by
  simp [onLoginStart, sendPacket, broadcastGloballyUnsafe, sendEach_traffic, loginPackets]

theorem onLoginStart_traffic_ne (h : q ≠ this) : (w.onLoginStart this name).traffic q =
    w.traffic q ++ (if q ∈ w.globalState.players then
      [ClientboundPacket.playerInfo ⟨.addPlayer, [addPlayerEntry (w.loggedIn this name)]⟩]
      else []).map .sent := by
  simp [onLoginStart, sendPacket, broadcastGloballyUnsafe, sendEach_traffic_append, h]

/-- What the others are sent when a player leaves: the despawn if they see it, and that it is off
the player list. -/
def leavePackets (q : StateMachinePtr) : List ClientboundPacket :=
  let state := w.player this
  (if q ∈ w.tracker.subscriptions state.chunk then [createDespawnPacket state] else []) ++
    if q ∈ w.globalState.players then
      [.playerInfo ⟨.removePlayer, [⟨state.uuid, .removePlayer⟩]⟩]
    else []

@[simp] theorem destroy_player : (w.destroy this).player = w.player := by
  unfold destroy
  by_cases h : w.phase this = .play
  · simp only [if_pos h]
    rfl
  · simp only [if_neg h]
    rfl

@[simp] theorem destroy_phase : (w.destroy this).phase = w.phase := by
  unfold destroy
  by_cases h : w.phase this = .play
  · simp only [if_pos h]
    rfl
  · simp only [if_neg h]
    rfl

@[simp] theorem destroy_life :
    (w.destroy this).life = Function.update w.life this .destroyed := by
  unfold destroy
  split <;> rfl

@[simp] theorem destroy_serverSettings :
    (w.destroy this).globalState.serverSettings = w.globalState.serverSettings := by
  unfold destroy
  split <;> rfl

@[simp] theorem destroy_chunks : (w.destroy this).globalState.chunks = w.globalState.chunks := by
  unfold destroy
  split <;> rfl

theorem destroy_tracker : (w.destroy this).tracker = if w.phase this = .play then
    w.tracker.leave (w.player this).chunk (w.player this).viewDistance this else w.tracker := by
  unfold destroy
  split <;> rfl

theorem destroy_players : (w.destroy this).globalState.players = if w.phase this = .play then
    w.globalState.players.erase this else w.globalState.players := by
  unfold destroy
  split <;> rfl

@[simp] theorem destroy_traffic_self : (w.destroy this).traffic this = w.traffic this := by
  unfold destroy
  split
  · simp [leavePlay, broadcastLocallyUnsafe, broadcastGloballyUnsafe, sendEach_traffic]
  · rfl

theorem destroy_traffic_ne (h : q ≠ this) : (w.destroy this).traffic q = w.traffic q ++
    (if w.phase this = .play then w.leavePackets this q else []).map .sent := by
  have hsub : q ∈ (w.tracker.leave (w.player this).chunk (w.player this).viewDistance
      this).subscribers (w.player this).chunk ↔ q ∈ w.tracker.subscriptions (w.player this).chunk :=
    PlayerTracker.mem_subscriptions_leave.trans (by simp [h])
  unfold destroy
  split
  · simp [leavePlay, leavePackets, broadcastLocallyUnsafe, broadcastGloballyUnsafe,
      sendEach_traffic_append, h, hsub]
  · simp

end PlayerList

/-! ## Digging -/

section Digging

variable (location : BitVec 64)

/-- The dig changes a block: the chunk is there and the block in it is something else than air. -/
def Digs : Prop := ∃ chunk block, w.globalState.chunks (chunkOf location) = some chunk ∧
  chunk.blocks.at? (indexOf location) = some block ∧ block ≠ BLOCKID_MINECRAFT_AIR

instance : Decidable (w.Digs location) :=
  decidable_of_iff (((w.globalState.chunks (chunkOf location)).bind fun chunk =>
      chunk.blocks.at? (indexOf location)).any (· ≠ BLOCKID_MINECRAFT_AIR)) <| by
    simp only [Digs, Option.any_eq_true, Option.bind_eq_some_iff, decide_eq_true_eq]
    exact ⟨fun ⟨block, ⟨chunk, hc, hat⟩, hne⟩ => ⟨chunk, block, hc, hat, hne⟩,
      fun ⟨chunk, block, hc, hat, hne⟩ => ⟨block, ⟨chunk, hc, hat⟩, hne⟩⟩

/-- Where no dig changes a block, air in its place changes nothing. -/
theorem put_of_not_digs {chunk : Chunk} (h : ¬ w.Digs location)
    (hc : w.globalState.chunks (chunkOf location) = some chunk) :
    chunk.blocks.put (indexOf location) BLOCKID_MINECRAFT_AIR = chunk.blocks := by
  cases hat : chunk.blocks.at? (indexOf location) with
  | none => exact Blocks.put_of_at?_none hat
  | some block =>
    by_cases hair : block = BLOCKID_MINECRAFT_AIR
    · subst hair
      exact Blocks.put_of_at? hat
    · exact absurd ⟨chunk, block, hc, hat, hair⟩ h

/-- The two ends of a dig: nothing is stored (there is no chunk, or no section), or the chunk is
stored with the block taken away, and those who see the digger are told if it was not air. -/
theorem startDigging_cases :
    (¬ w.Digs location ∧
      (w.startDigging this location = w.disconnect this ∨
        ∃ outOfBounds, w.startDigging this location = { w with outOfBounds })) ∨
    ∃ chunk chunk', w.globalState.chunks (chunkOf location) = some chunk ∧
      chunk'.blocks = chunk.blocks.put (indexOf location) BLOCKID_MINECRAFT_AIR ∧
      (¬ w.Digs location ∧ w.startDigging this location = w.setChunk (chunkOf location) chunk' ∨
        w.Digs location ∧ w.startDigging this location =
          (w.setChunk (chunkOf location) chunk').sendEach
            ((w.tracker.subscriptions (w.player this).chunk).erase this)
            (.blockChange location (BLOCKID_MINECRAFT_AIR.zeroExtend 32))) := by
  unfold startDigging
  cases hc : w.globalState.chunks (chunkOf location) with
  | none =>
    refine .inl ⟨?_, .inl rfl⟩
    rintro ⟨chunk, block, h, -⟩
    rw [hc] at h
    cases h
  | some chunk =>
    have hdigs : w.Digs location ↔ ∃ block, chunk.blocks.at? (indexOf location) = some block ∧
        block ≠ BLOCKID_MINECRAFT_AIR := by
      simp [Digs, hc]
    rw [hdigs]
    simp only
    cases hd : chunk.dig (indexOf location) with
    | none =>
      exact .inl ⟨by simp [Chunk.dig_none hd], .inr ⟨_, rfl⟩⟩
    | some r =>
      obtain ⟨chunk', changed⟩ := r
      obtain ⟨hblocks, hflag⟩ := Chunk.dig_some hd
      refine .inr ⟨chunk, chunk', rfl, hblocks, ?_⟩
      cases changed with
      | false => exact .inl ⟨fun h => by simpa using hflag.mpr h, rfl⟩
      | true => exact .inr ⟨hflag.mp rfl, rfl⟩

/-- A chunk that is there stays there, with air in the place of the dig. -/
theorem startDigging_blocks {c : ChunkCoord} {chunk : Chunk}
    (hc : w.globalState.chunks c = some chunk) :
    ∃ chunk', (w.startDigging this location).globalState.chunks c = some chunk' ∧
      chunk'.blocks = if chunkOf location = c then
        chunk.blocks.put (indexOf location) BLOCKID_MINECRAFT_AIR else chunk.blocks := by
  rcases w.startDigging_cases this location with ⟨hd, h⟩ | ⟨chunk₀, chunk', hc₀, hblocks, h⟩
  · refine ⟨chunk, by rcases h with h | ⟨_, h⟩ <;> rw [h] <;> exact hc, ?_⟩
    split <;> rename_i he
    · subst he
      exact (w.put_of_not_digs location hd hc).symm
    · rfl
  · have hchunks : (w.startDigging this location).globalState.chunks =
        Function.update w.globalState.chunks (chunkOf location) (some chunk') := by
      rcases h with ⟨-, h⟩ | ⟨-, h⟩ <;> rw [h] <;> rfl
    rw [hchunks]
    by_cases he : chunkOf location = c
    · subst he
      obtain rfl := Option.some.inj (hc₀.symm.trans hc)
      exact ⟨chunk', Function.update_self .., by rw [if_pos rfl, hblocks]⟩
    · exact ⟨chunk, by rw [Function.update_of_ne (Ne.symm he), hc], by rw [if_neg he]⟩

@[simp] theorem startDigging_player : (w.startDigging this location).player = w.player := by
  rcases w.startDigging_cases this location with
    ⟨-, h | ⟨_, h⟩⟩ | ⟨_, _, -, -, ⟨-, h⟩ | ⟨-, h⟩⟩ <;> rw [h] <;> rfl

@[simp] theorem startDigging_phase : (w.startDigging this location).phase = w.phase := by
  rcases w.startDigging_cases this location with
    ⟨-, h | ⟨_, h⟩⟩ | ⟨_, _, -, -, ⟨-, h⟩ | ⟨-, h⟩⟩ <;> rw [h] <;> rfl

@[simp] theorem startDigging_life : (w.startDigging this location).life = w.life := by
  rcases w.startDigging_cases this location with
    ⟨-, h | ⟨_, h⟩⟩ | ⟨_, _, -, -, ⟨-, h⟩ | ⟨-, h⟩⟩ <;> rw [h] <;> rfl

@[simp] theorem startDigging_tracker : (w.startDigging this location).tracker = w.tracker := by
  rcases w.startDigging_cases this location with
    ⟨-, h | ⟨_, h⟩⟩ | ⟨_, _, -, -, ⟨-, h⟩ | ⟨-, h⟩⟩ <;> rw [h] <;> rfl

@[simp] theorem startDigging_players :
    (w.startDigging this location).globalState.players = w.globalState.players := by
  rcases w.startDigging_cases this location with
    ⟨-, h | ⟨_, h⟩⟩ | ⟨_, _, -, -, ⟨-, h⟩ | ⟨-, h⟩⟩ <;> rw [h] <;> rfl

@[simp] theorem startDigging_serverSettings :
    (w.startDigging this location).globalState.serverSettings = w.globalState.serverSettings := by
  rcases w.startDigging_cases this location with
    ⟨-, h | ⟨_, h⟩⟩ | ⟨_, _, -, -, ⟨-, h⟩ | ⟨-, h⟩⟩ <;> rw [h] <;> rfl

/-- Those who see the digger are told of a dig that changes a block, and nobody else. -/
theorem startDigging_traffic : (w.startDigging this location).traffic q = w.traffic q ++
    (if w.Digs location ∧ q ∈ (w.tracker.subscriptions (w.player this).chunk).erase this then
      [ClientboundPacket.blockChange location (BLOCKID_MINECRAFT_AIR.zeroExtend 32)]
      else []).map .sent := by
  rcases w.startDigging_cases this location with
    ⟨hd, h | ⟨_, h⟩⟩ | ⟨_, _, -, -, ⟨hd, h⟩ | ⟨hd, h⟩⟩ <;> rw [h]
  · simp [hd]
  · simp [hd]
  · simp [hd]
  · rw [sendEach_traffic_append]
    simp [hd]

end Digging

end World

end Vitamine
