import Vitamine.Proxyd.Streaming

/-!
# What the clients know of the world

A client keeps a copy of every chunk that it holds: it is sent the chunk, and from then on the
blocks that change. A player's own digs are applied by its client at once.

* `Agrees`: the copies that count are those of the server.
* `agreement_of_reachesHolders`: they are in every run in which each dig is told to all who hold the
  chunk of the block.
* `ghost_block`: a dig that is seen from one side only.
-/

namespace Vitamine

open Wire System

/-- An event, for the copy of the chunk that the client has. -/
def copyStep (c : ChunkCoord) (copy : Option Blocks) : Traffic → Option Blocks
  | .sent (.chunkData x z chunk) => if x = c.x ∧ z = c.z then some chunk.blocks else copy
  | .sent (.unloadChunk x z) => if x = c.x ∧ z = c.z then none else copy
  | .sent (.blockChange location blockId) =>
    if chunkOf location = c then
      copy.map fun blocks => blocks.put (indexOf location) (blockId.truncate 16)
    else copy
  | .received .play frame =>
    match digOf frame with
    | some location =>
      if chunkOf location = c then
        copy.map fun blocks => blocks.put (indexOf location) BLOCKID_MINECRAFT_AIR
      else copy
    | none => copy
  | _ => copy

/-- The client's copy of the chunk: the last `ChunkData`, with every `BlockChange` and every dig of
the player itself applied. -/
def copyOf (log : List Traffic) (c : ChunkCoord) : Option Blocks := log.foldl (copyStep c) none

section Log

variable {log : List Traffic} {packets : List ClientboundPacket} {c : ChunkCoord}

/-- The packet says nothing about the blocks of any chunk. -/
def ChangesNothing (packet : ClientboundPacket) : Prop :=
  ∀ c copy, copyStep c copy (.sent packet) = copy

theorem copyOf_snoc (e : Traffic) : copyOf (log ++ [e]) c = copyStep c (copyOf log c) e := by
  simp [copyOf]

theorem copyOf_append (h : ∀ k ∈ packets, ChangesNothing k) :
    copyOf (log ++ packets.map .sent) c = copyOf log c := by
  induction packets using List.reverseRecOn with
  | nil => simp
  | append_singleton packets k ih =>
    rw [List.map_append, ← List.append_assoc, List.map_singleton, copyOf_snoc, h k (by simp),
      ih fun k' hk' => h k' (by simp [hk'])]

theorem copyOf_received {phase : ClientPhase} {frame : PacketFrame}
    (h : phase = .play → digOf frame = none) :
    copyOf (log ++ [.received phase frame]) c = copyOf log c := by
  rw [copyOf_snoc]
  cases phase with
  | play => simp only [copyStep, h rfl]
  | _ => rfl

theorem copyOf_dig {frame : PacketFrame} {location : BitVec 64} (h : digOf frame = some location) :
    copyOf (log ++ [.received .play frame]) c = if chunkOf location = c then
      (copyOf log c).map fun blocks => blocks.put (indexOf location) BLOCKID_MINECRAFT_AIR
    else copyOf log c := by
  rw [copyOf_snoc, copyStep, h]

/-- One packet for each of some chunks, which makes the copy of its chunk what `new` is. -/
theorem copyOf_each {packet : ChunkCoord → ClientboundPacket} {new : Option Blocks}
    (h : ∀ d copy, copyStep c copy (.sent (packet d)) = if d = c then new else copy)
    (coords : List ChunkCoord) : copyOf (log ++ (coords.map packet).map .sent) c =
      if c ∈ coords then new else copyOf log c := by
  induction coords using List.reverseRecOn with
  | nil => simp
  | append_singleton coords d ih =>
    rw [List.map_append, List.map_append, ← List.append_assoc, List.map_singleton,
      List.map_singleton, copyOf_snoc, h, ih]
    by_cases hd : d = c
    · simp [hd]
    · simp [hd, Ne.symm hd]

theorem copyOf_unloads (unloads : List ChunkCoord) :
    copyOf (log ++ (unloads.map ClientboundPacket.unload).map .sent) c =
      if c ∈ unloads then none else copyOf log c :=
  copyOf_each (fun d copy => by simp only [ClientboundPacket.unload, copyStep, coord_eq_iff]) unloads

theorem copyOf_loads (w : World) (loads : List ChunkCoord) :
    copyOf (log ++ (loads.map fun d => ClientboundPacket.load d (w.chunkAt d)).map .sent) c =
      if c ∈ loads then some (w.chunkAt c).blocks else copyOf log c := by
  refine copyOf_each (fun d copy => ?_) loads
  simp only [ClientboundPacket.load, copyStep, coord_eq_iff]
  split <;> rename_i hd
  · rw [hd]
  · rfl

/-- **Streaming** refreshes the copies of the loads, and drops those of the unloads. -/
theorem copyOf_streamPackets (w : World) (unloads loads : List ChunkCoord) :
    copyOf (log ++ (w.streamPackets unloads loads).map .sent) c =
      if c ∈ loads then some (w.chunkAt c).blocks
      else if c ∈ unloads then none else copyOf log c := by
  rw [World.streamPackets, List.map_append, ← List.append_assoc, copyOf_loads, copyOf_unloads]

/-- The chunks of which there is a copy are those that the client holds. -/
theorem copyOf_isSome : (copyOf log c).isSome = Log.last (holdWrite c) false log := by
  have hstep : ∀ copy e, (copyStep c copy e).isSome = (holdWrite c e).getD copy.isSome := by
    intro copy e
    cases e with
    | received phase frame =>
      cases phase <;> simp only [copyStep, holdWrite, Option.getD_none]
      split
      · split <;> simp
      · rfl
    | sent packet =>
      cases packet <;> simp only [copyStep, holdWrite, Option.getD_none] <;> split <;> simp
  induction log using List.reverseRecOn with
  | nil => rfl
  | append_singleton log e ih =>
    rw [copyOf_snoc, hstep, ih, Log.last_append]
    rfl

theorem holds_of_copyOf {blocks : Blocks} (h : copyOf log c = some blocks) : holds log c := by
  rw [holds, ← copyOf_isSome, h]
  rfl

theorem changesNothing_quiet {w : World} {this q : StateMachinePtr} {k : ClientboundPacket}
    (h : QuietPacket w this q k) : ChangesNothing k := by
  cases h with
  | update _ _ _ hid => cases k <;> first | exact fun _ _ => rfl | cases hid
  | _ => exact fun _ _ => rfl

end Log

/-! ## The copies that count -/

/-- The copy of the chunk is one that the player has, or will have when it enters. -/
def World.Counts (w : World) (p : StateMachinePtr) (c : ChunkCoord) : Prop :=
  p ∈ w.tracker.subscriptions c ∨ w.phase p = .playInit

/-- The copies that count are those of the server. -/
def Agrees (w : World) (p : StateMachinePtr) : Prop := w.life p = .live → ∀ c, w.Counts p c →
  ∀ blocks, copyOf (w.traffic p) c = some blocks →
    ∃ chunk, w.globalState.chunks c = some chunk ∧ chunk.blocks = blocks

/-- The chunks that are there stay as they are. -/
def Extends (w w' : World) : Prop := ∀ c chunk, w.globalState.chunks c = some chunk →
  w'.globalState.chunks c = some chunk

section

variable {w w' : World} {this p q : StateMachinePtr} {frame : PacketFrame}

theorem Extends.of_eq (h : w'.globalState.chunks = w.globalState.chunks) : Extends w w' :=
  fun _ _ hc => by rw [h, hc]

/-- Chunks are sent as they are. -/
theorem Extends.of_ite {P : ChunkCoord → Prop} [DecidablePred P]
    (h : ∀ c, w'.globalState.chunks c = if P c then some (w.chunkAt c) else w.globalState.chunks c) :
    Extends w w' := by
  intro c chunk hc
  have hat : w.chunkAt c = chunk := by rw [World.chunkAt, hc, Option.getD_some]
  rw [h, hat, hc, ite_self]

theorem Agrees.of_silent (h : Agrees w p) (hlife : w'.life p = .live → w.life p = .live)
    (hchunks : Extends w w')
    (hcounts : ∀ c, holds (w.traffic p) c → w'.Counts p c → w.Counts p c)
    (packets : List ClientboundPacket) (ht : w'.traffic p = w.traffic p ++ packets.map .sent)
    (hs : ∀ k ∈ packets, ChangesNothing k) : Agrees w' p := by
  intro hl c hc blocks hcopy
  rw [ht, copyOf_append hs] at hcopy
  obtain ⟨chunk, hchunk, hb⟩ := h (hlife hl) c (hcounts c (holds_of_copyOf hcopy) hc) blocks hcopy
  exact ⟨chunk, hchunks c chunk hchunk, hb⟩

theorem Unmoved.counts (hu : Unmoved w w' p) {c : ChunkCoord} : w'.Counts p c ↔ w.Counts p c := by
  rw [World.Counts, World.Counts, hu.subscriptions, hu.phase]

theorem Agrees.of_unmoved (h : Agrees w p) (hu : Unmoved w w' p) (hchunks : Extends w w')
    (packets : List ClientboundPacket) (ht : w'.traffic p = w.traffic p ++ packets.map .sent)
    (hs : ∀ k ∈ packets, ChangesNothing k) : Agrees w' p :=
  h.of_silent (fun hl => hu.life ▸ hl) hchunks (fun _ _ hc => hu.counts.mp hc) packets ht hs

theorem Agrees.of_quiet (h : Agrees w p) (hq : Quiet this w w') : Agrees w' p := by
  obtain ⟨ks, ht, hks⟩ := hq.traffic p
  exact h.of_unmoved hq.toSkeleton.unmoved (.of_eq hq.chunks) ks ht
    fun k hk => changesNothing_quiet (hks k hk)

/-- Chunks are sent as the server has them. -/
theorem Agrees.of_stream (h : Agrees w p) (hlife : w'.life p = .live → w.life p = .live)
    (hchunks : Extends w w') (unloads loads : List ChunkCoord)
    (hloads : ∀ c ∈ loads, w'.globalState.chunks c = some (w.chunkAt c))
    (hcounts : ∀ c, w'.Counts p c → c ∉ unloads → c ∉ loads → w.Counts p c)
    (packets : List ClientboundPacket)
    (ht : w'.traffic p = w.traffic p ++ (w.streamPackets unloads loads ++ packets).map .sent)
    (hs : ∀ k ∈ packets, ChangesNothing k) : Agrees w' p := by
  intro hl c hc blocks hcopy
  rw [ht, List.map_append, ← List.append_assoc, copyOf_append hs, copyOf_streamPackets] at hcopy
  split at hcopy <;> rename_i hload
  · exact ⟨_, hloads c hload, Option.some.inj hcopy⟩
  · split at hcopy <;> rename_i hunload
    · cases hcopy
    · obtain ⟨chunk, hchunk, hb⟩ := h (hlife hl) c (hcounts c hc hunload hload) blocks hcopy
      exact ⟨chunk, hchunks c chunk hchunk, hb⟩

/-- A frame that is no dig. -/
theorem Agrees.receive (h : Agrees w p) (hn : p = this → w.phase this = .play → digOf frame = none)
    (now : Int) : Agrees (w.receive this frame now) p := by
  intro hl c hc blocks hcopy
  have hcounts : w.Counts p c := (unmoved_receive frame now).counts.mp hc
  refine h hl c hcounts blocks ?_
  rw [receive_traffic] at hcopy
  by_cases hp : p = this
  · subst hp
    rwa [Function.update_self, copyOf_received (hn rfl)] at hcopy
  · rwa [Function.update_of_ne hp] at hcopy

theorem changesNothing_movePackets {start target : ChunkCoord} {oldPosition : EntityCoord}
    {rotate : Bool} {k : ClientboundPacket}
    (hk : k ∈ w.movePackets this start target oldPosition rotate q) : ChangesNothing k := by
  have hmove : ChangesNothing (createMovePacket (w.player this) oldPosition rotate) := by
    unfold createMovePacket
    simp only
    split_ifs <;> exact fun _ _ => rfl
  rcases World.mem_movePackets _ _ _ _ _ _ hk with ⟨-, rfl | rfl | rfl⟩ | ⟨-, rfl⟩
  · exact hmove
  all_goals exact fun _ _ => rfl

/-- A frame of another player that is no dig. -/
theorem Agrees.effect_ne (h : Agrees w p) (hp : p ≠ this)
    (hdig : w.phase this = .play → digOf frame = none) (he : Effect w this frame w') :
    Agrees w' p := by
  have hu : Unmoved w w' p := he.unmoved hp
  cases he with
  | quiet _ _ hq => exact h.of_quiet hq
  | phase => exact h.of_unmoved hu (.of_eq rfl) [] (by simp) (by simp)
  | login =>
    refine h.of_unmoved hu (.of_eq (by simp)) _ (World.onLoginStart_traffic_ne w this _ hp) ?_
    split <;> simp [ChangesNothing, copyStep]
  | @confirm id hinit =>
    have ht : (w.confirmed this id).traffic p = w.traffic p := by
      rw [World.confirmed_traffic w this id (by rw [hinit]; decide), Function.update_of_ne hp]
    refine h.of_unmoved hu (.of_eq (by simp [World.onTeleportConfirm_eq])) _
      (by rw [World.onTeleportConfirm_eq, World.enterPlay_traffic_ne _ this hp, ht]) ?_
    split <;> simp [ChangesNothing, copyStep, createSpawnPacket]
  | settingsInit =>
    exact h.of_unmoved hu (.of_ite (World.onSettingsInPlayInit_chunks w this _)) []
      (by simp [World.onSettingsInPlayInit_traffic, hp]) (by simp)
  | settings =>
    exact h.of_unmoved hu (.of_ite (World.onClientSettingsChange_chunks w this _)) []
      (by simp [World.onClientSettingsChange_traffic, hp]) (by simp)
  | transition =>
    exact h.of_unmoved hu (.of_ite (World.onChunkTransition_chunks _ this _ _ _ _)) _
      (World.onChunkTransition_traffic_ne _ this _ _ _ _ hp) fun k hk =>
        changesNothing_movePackets hk
  | dig hplay hframe =>
    rw [hdig hplay] at hframe
    cases hframe

/-- A frame of the player itself that is no dig. -/
theorem Agrees.effect_self (h : Agrees w this) (hlive : w.life this = .live)
    (hlogin : w.phase this = .login → ∀ c, ¬ holds (w.traffic this) c)
    (hdig : w.phase this = .play → digOf frame = none) (he : Effect w this frame w') :
    Agrees w' this := by
  have hl : w'.life this = .live → w.life this = .live := fun _ => hlive
  cases he with
  | quiet _ _ hq => exact h.of_quiet hq
  | phase _ hnew =>
    refine h.of_silent hl (.of_eq rfl) (fun c _ hc => ?_) [] (by simp) (by simp)
    rcases hnew with rfl | rfl <;> exact .inl (by simpa [World.Counts] using hc)
  | @login name hphase =>
    refine h.of_silent hl (.of_eq (by simp)) (fun c hc => absurd hc (hlogin hphase c)) _
      (World.onLoginStart_traffic_self w this name) fun k hk => ?_
    simp only [World.loginPackets, List.mem_cons, List.not_mem_nil, or_false] at hk
    rcases hk with rfl | rfl | rfl | rfl | rfl | rfl | rfl <;> exact fun _ _ => rfl
  | @confirm id hinit =>
    refine h.of_silent hl (.of_eq (by simp [World.onTeleportConfirm_eq]))
      (fun c _ _ => .inr hinit) _ (onTeleportConfirm_traffic_self hinit id) ?_
    exact forall_confirmPackets (fun _ _ _ => rfl) fun _ _ _ _ => rfl
  | @settingsInit packet hinit =>
    have hchunks := World.onSettingsInPlayInit_chunks w this packet
    refine h.of_stream hl (.of_ite hchunks) _ _ (fun c hc => ?_) (fun c _ _ _ => .inr hinit) _
      (by rw [World.onSettingsInPlayInit_traffic, Function.update_self]; rfl) ?_
    · rw [hchunks, if_pos]
      rwa [List.mem_append, ChunkCoord.mem_square, World.withSettings_chunk] at hc
    · simp [ChangesNothing, copyStep]
  | @settings packet =>
    have hchunks := World.onClientSettingsChange_chunks w this packet
    refine h.of_stream hl (.of_ite hchunks) (w.settingsUnloads this packet)
      (w.settingsLoads this packet) (fun c hc => by rw [hchunks, if_pos hc])
      (fun c hc hu hload => ?_) []
      (by rw [World.onClientSettingsChange_traffic, Function.update_self]; simp) (by simp)
    simpa [World.Counts, World.mem_subscriptions_onClientSettingsChange, hu, hload] using hc
  | @transition s rotate _ hs =>
    have hchunks := World.onChunkTransition_chunks (w.setPlayer this s) this (w.player this).chunk
      s.chunk (w.player this).position rotate
    have hset : Agrees (w.setPlayer this s) this :=
      h.of_silent id (.of_eq rfl) (fun c _ hc => by simpa [World.Counts] using hc) [] (by simp)
        (by simp)
    refine hset.of_stream hl (.of_ite hchunks) _ _ (fun c hc => by rw [hchunks, if_pos hc])
      (fun c hc hu hload => ?_) _ (World.onChunkTransition_traffic_self _ _ _ _ _ _) ?_
    · simp only [World.setPlayer_player, Function.update_self] at hu hload
      simpa [World.Counts, World.onChunkTransition_tracker, hu, hload] using hc
    · simp [ChangesNothing, copyStep]
  | dig hplay hframe =>
    rw [hdig hplay] at hframe
    cases hframe

/-! ## Digs -/

/-- Air in the place of the dig, for the client as for the server. -/
theorem Agrees.of_told (h : Agrees w p) {location : BitVec 64}
    (hlife : w'.life p = .live → w.life p = .live) (hcounts : ∀ c, w'.Counts p c → w.Counts p c)
    (hblocks : ∀ c chunk, w.globalState.chunks c = some chunk →
      ∃ chunk', w'.globalState.chunks c = some chunk' ∧ chunk'.blocks =
        if chunkOf location = c then chunk.blocks.put (indexOf location) BLOCKID_MINECRAFT_AIR
        else chunk.blocks)
    (ht : ∀ c, copyOf (w'.traffic p) c = if chunkOf location = c then
        (copyOf (w.traffic p) c).map fun blocks => blocks.put (indexOf location) BLOCKID_MINECRAFT_AIR
      else copyOf (w.traffic p) c) : Agrees w' p := by
  intro hl c hc blocks hcopy
  have hagree := h (hlife hl) c (hcounts c hc)
  rw [ht] at hcopy
  split at hcopy <;> rename_i he
  · obtain ⟨old, hold, rfl⟩ := Option.map_eq_some_iff.mp hcopy
    obtain ⟨chunk, hchunk, rfl⟩ := hagree old hold
    obtain ⟨chunk', hchunk', hb⟩ := hblocks c chunk hchunk
    exact ⟨chunk', hchunk', by rw [hb, if_pos he]⟩
  · obtain ⟨chunk, hchunk, rfl⟩ := hagree blocks hcopy
    obtain ⟨chunk', hchunk', hb⟩ := hblocks c chunk hchunk
    exact ⟨chunk', hchunk', by rw [hb, if_neg he]⟩

/-- The player's own dig. -/
theorem Agrees.dig_self (h : Agrees w this) (hplay : w.phase this = .play) {location : BitVec 64}
    (hframe : digOf frame = some location) (now : Int) :
    Agrees ((w.receive this frame now).startDigging this location) this := by
  have ht : ((w.receive this frame now).startDigging this location).traffic this =
      w.traffic this ++ [.received .play frame] := by
    rw [World.startDigging_traffic]
    simp [hplay]
  refine h.of_told (fun hl => by simpa using hl) (fun c hc => ?_)
    (fun c chunk hc => (w.receive this frame now).startDigging_blocks this location hc) fun c => ?_
  · simpa [World.Counts] using hc
  · rw [ht, copyOf_dig hframe]

/-- A dig of another player, which is told to those whose copies count and have the block. -/
theorem Agrees.dig_ne (h : Agrees w p) (hp : p ≠ this) {location : BitVec 64}
    (hreach : w.Digs location → w.life p = .live → w.Counts p (chunkOf location) →
      holds (w.traffic p) (chunkOf location) → p ∈ w.tracker.subscriptions (w.player this).chunk) :
    Agrees (w.startDigging this location) p := by
  have ht := w.startDigging_traffic this location (q := p)
  have hlife : (w.startDigging this location).life p = .live → w.life p = .live :=
    fun hl => by simpa using hl
  have hcounts : ∀ c, (w.startDigging this location).Counts p c → w.Counts p c :=
    fun c hc => by simpa [World.Counts] using hc
  by_cases htold : w.Digs location ∧
      p ∈ (w.tracker.subscriptions (w.player this).chunk).erase this
  · rw [if_pos htold, List.map_singleton] at ht
    exact h.of_told hlife hcounts (fun c chunk hc => w.startDigging_blocks this location hc)
      fun c => by rw [ht, copyOf_snoc]; rfl
  · rw [if_neg htold, List.map_nil, List.append_nil] at ht
    intro hl c hc blocks hcopy
    rw [ht] at hcopy
    obtain ⟨chunk, hchunk, rfl⟩ := h (hlife hl) c (hcounts c hc) blocks hcopy
    obtain ⟨chunk', hchunk', hb⟩ := w.startDigging_blocks this location hchunk
    refine ⟨chunk', hchunk', hb.trans ?_⟩
    split <;> rename_i he
    · subst he
      refine w.put_of_not_digs location (fun hd => htold ⟨hd, Finset.mem_erase.mpr ⟨hp, ?_⟩⟩) hchunk
      exact hreach hd (hlife hl) (hcounts _ hc) (holds_of_copyOf hcopy)
    · rfl

theorem Agrees.initial (uuidGenerator : Bytes → Uuid) (machine : StateMachinePtr → StateMachine) :
    Agrees (.initial uuidGenerator machine) p := fun hl => nomatch hl

/-- A dig of the player at the location would be told to all who hold the chunk of the block, those
included who are about to enter. -/
def ReachedBy (w : World) (this : StateMachinePtr) (location : BitVec 64) : Prop :=
  ∀ q ∈ w.globalState.players, q ≠ this → w.life q = .live →
    q ∈ w.tracker.subscriptions (chunkOf location) ∨
      w.phase q = .playInit ∧ holds (w.traffic q) (chunkOf location) →
    q ∈ w.tracker.subscriptions (w.player this).chunk

instance (w : World) (this : StateMachinePtr) (location : BitVec 64) :
    Decidable (ReachedBy w this location) :=
  inferInstanceAs (Decidable (∀ q ∈ w.globalState.players, _))

/-- The dig of the frame, if it changes a block, reaches all who hold the chunk of the block. -/
def ReachesHolders (w : World) : ServerStep → Prop
  | .packet this frame _ => w.phase this = .play → ∀ location ∈ digOf frame, w.Digs location →
    ReachedBy w this location
  | _ => True

instance (w : World) : (step : ServerStep) → Decidable (ReachesHolders w step)
  | .packet this frame _ => inferInstanceAs (Decidable (w.phase this = .play →
      ∀ location ∈ digOf frame, w.Digs location → ReachedBy w this location))
  | .connect _ _ _ _ | .error _ | .tick _ _ | .disconnect _ => isTrue trivial

/-- A frame of any player. -/
theorem agrees_packet (hr : ∀ p, Registry w p) (hs : ∀ p, Streamed w p) (h : ∀ p, Agrees w p)
    (hlive : w.life this = .live) {now : Int} (hok : ReachesHolders w (.packet this frame now))
    (he : Effect (w.receive this frame now) this frame w') (p : StateMachinePtr) :
    Agrees w' p := by
  by_cases hdig : w.phase this = .play → digOf frame = none
  · have hreceive : Agrees (w.receive this frame now) p := (h p).receive (fun _ => hdig) now
    by_cases hp : p = this
    · subst hp
      refine hreceive.effect_self hlive (fun hlogin c => ?_) (by simpa using hdig) he
      rw [receive_phase] at hlogin
      rw [holds_receive]
      exact ((hs p).before hlive (by simp [World.Joined, hlogin])).2 c
    · exact hreceive.effect_ne hp (by simpa using hdig) he
  · obtain ⟨hplay, hsome⟩ := Classical.not_imp.mp hdig
    obtain ⟨location, hframe⟩ := Option.ne_none_iff_exists'.mp hsome
    obtain rfl := he.eq_startDigging (by simpa using hplay) hframe
    by_cases hp : p = this
    · subst hp
      exact (h p).dig_self hplay hframe now
    · have hreceive : Agrees (w.receive this frame now) p :=
        (h p).receive (fun he => absurd he hp) now
      refine hreceive.dig_ne hp fun hd hl hcounts hholds => ?_
      have ht : (w.receive this frame now).traffic p = w.traffic p := by
        rw [receive_traffic, Function.update_of_ne hp]
      rw [ht] at hholds
      have hcounts : w.Counts p (chunkOf location) :=
        (unmoved_receive frame now).counts.mp hcounts
      have hj : w.Joined p := hcounts.elim (fun hsub => ((hr p).subscriptions hsub).2) .inl
      rw [receive_player]
      exact hok hplay location hframe hd p ((hr p).joined hl hj) hp hl
        (hcounts.imp_right fun hinit => ⟨hinit, hholds⟩)

/-- A tick changes no chunk and says nothing of any. -/
theorem Agrees.onTick (h : Agrees w p) (now : Int) : Agrees (w.onTick this now) p := by
  rcases onTick_cases w this now with ⟨-, hq⟩ | ⟨⟨hinit, ht⟩, he⟩
  · exact h.of_quiet hq
  · have hchunks : Extends w (w.onTick this now) := .of_eq (by rw [he]; simp)
    have htraffic := onTick_traffic_of_timeout w this now hinit ht
    by_cases hp : p = this
    · subst hp
      exact h.of_unmoved (unmoved_onTick now) hchunks [_]
        (by rw [htraffic, Function.update_self]; rfl) (by simp [ChangesNothing, copyStep])
    · exact h.of_unmoved (unmoved_onTick now) hchunks []
        (by rw [htraffic, Function.update_of_ne hp]; simp) (by simp)

/-- A connection that drops takes no chunk with it. -/
theorem Agrees.destroy (h : Agrees w p) : Agrees (w.destroy this) p := by
  by_cases hp : p = this
  · subst hp
    exact fun hl => by simp at hl
  · have hu : Unmoved w (server.next w (.disconnect this)) p := next_unmoved hp
    refine h.of_unmoved hu (.of_eq (w.destroy_chunks this)) _ (w.destroy_traffic_ne this hp)
      fun k hk => ?_
    split at hk
    · rcases List.mem_append.mp hk with hk | hk <;> split at hk
      · obtain rfl := List.mem_singleton.mp hk
        exact fun _ _ => rfl
      · cases hk
      · obtain rfl := List.mem_singleton.mp hk
        exact fun _ _ => rfl
      · cases hk
    · cases hk

theorem Agrees.next {step : ServerStep} (hb : Base w) (hs : ∀ p, Streamed w p)
    (h : ∀ p, Agrees w p) (he : server.enabled w step) (hok : ReachesHolders w step) :
    ∀ p, Agrees (server.next w step) p := by
  intro p
  cases step with
  | connect this clientSettings entityId now =>
    by_cases hp : p = this
    · subst hp
      intro _ c _ blocks hcopy
      rw [next_connect, connect_traffic, hb.untouched p he] at hcopy
      cases hcopy
    · exact (h p).of_unmoved (next_unmoved hp) (.of_eq rfl) [] (by simp) (by simp)
  | packet this frame now =>
    exact agrees_packet hb.registry hs h he hok (handle_effect _ this frame) p
  | error => exact (h p).of_unmoved unmoved_disconnect (.of_eq rfl) [] (by simp) (by simp)
  | tick this now => exact (h p).onTick now
  | disconnect this => exact (h p).destroy

end

/-! ## Runs -/

/-- The client of every player in `PLAY` has the blocks of the server in each chunk that it is
subscribed to and holds. -/
def WorldAgreement (w : World) : Prop := ∀ p, w.life p = .live → w.phase p = .play → ∀ c,
  p ∈ w.tracker.subscribers c → holds (w.traffic p) c →
    ∃ chunk, w.globalState.chunks c = some chunk ∧ copyOf (w.traffic p) c = some chunk.blocks

/-- The blocks of the chunk are other than before. -/
def BlocksChange (w w' : World) (c : ChunkCoord) : Prop := ∃ chunk chunk',
  w.globalState.chunks c = some chunk ∧ w'.globalState.chunks c = some chunk' ∧
    chunk'.blocks ≠ chunk.blocks

/-- A dig that changes a block is told to every other player that is subscribed to the chunk of the
block. -/
def TellsSubscribers (w : World) : ServerStep → Prop
  | .packet this frame now => w.phase this = .play → ∀ location ∈ digOf frame,
    BlocksChange w (server.next w (.packet this frame now)) (chunkOf location) →
    ∀ q ≠ this, w.life q = .live → q ∈ w.tracker.subscribers (chunkOf location) →
      (server.next w (.packet this frame now)).traffic q =
        w.traffic q ++ [.sent (.blockChange location (BLOCKID_MINECRAFT_AIR.zeroExtend 32))]
  | _ => True

section

variable {w : World} {this : StateMachinePtr}

theorem worldAgreement_of_agrees (h : ∀ p, Agrees w p) : WorldAgreement w := by
  intro p hl _ c hsub hholds
  rw [holds, ← copyOf_isSome] at hholds
  obtain ⟨blocks, hcopy⟩ := Option.isSome_iff_exists.mp hholds
  obtain ⟨chunk, hchunk, rfl⟩ := h p hl c (.inl hsub) blocks hcopy
  exact ⟨chunk, hchunk, hcopy⟩

theorem digs_of_blocksChange {location : BitVec 64}
    (h : BlocksChange w (w.startDigging this location) (chunkOf location)) : w.Digs location := by
  by_contra hd
  obtain ⟨chunk, chunk', hc, hc', hne⟩ := h
  obtain ⟨chunk'', hc'', hb⟩ := w.startDigging_blocks this location hc
  obtain rfl := Option.some.inj (hc'.symm.trans hc'')
  exact hne (by rw [hb, if_pos rfl, w.put_of_not_digs location hd hc])

theorem tellsSubscribers_of_reachesHolders {step : ServerStep} (hr : ∀ p, Registry w p)
    (h : ReachesHolders w step) : TellsSubscribers w step := by
  cases step with
  | packet this frame now =>
    intro hplay location hframe hchange q hq hl hsub
    have he := (handle_effect (w.receive this frame now) this frame).eq_startDigging
      (by simpa using hplay) hframe
    rw [next_packet, he] at hchange ⊢
    have hd : w.Digs location :=
      digs_of_blocksChange (w := w.receive this frame now) hchange
    have hj := ((hr q).subscriptions hsub).2
    have hreach := h hplay location hframe hd q ((hr q).joined hl hj) hq hl (.inl hsub)
    rw [World.startDigging_traffic, if_pos, receive_traffic, Function.update_of_ne hq]
    · rfl
    · refine ⟨hd, Finset.mem_erase.mpr ⟨hq, ?_⟩⟩
      rwa [receive_player]
  | _ => trivial

end

variable {uuidGenerator : Bytes → Uuid} {machine : StateMachinePtr → StateMachine}
  {steps : List ServerStep}

/-- **The clients of a run agree with the server on the world**, and digs are told to all who are
subscribed, if every dig is told to all who hold the chunk of the block. -/
theorem agreement_of_reachesHolders (h : server.Run (.initial uuidGenerator machine) steps)
    (hok : server.Steps (.initial uuidGenerator machine) steps ReachesHolders) :
    server.Along (.initial uuidGenerator machine) steps WorldAgreement ∧
      server.Steps (.initial uuidGenerator machine) steps TellsSubscribers := by
  have hinv : server.Along (.initial uuidGenerator machine) steps fun w =>
      Base w ∧ (∀ p, Streamed w p) ∧ ∀ p, Agrees w p := by
    refine along_of_steps ⟨.initial uuidGenerator machine, fun p => .initial uuidGenerator machine,
      fun p => .initial uuidGenerator machine⟩ ?_ (h.and hok)
    exact fun w step hw hs => ⟨hw.1.next hs.1, Streamed.next hw.1 hw.2.1 hs.1,
      Agrees.next hw.1 hw.2.1 hw.2.2 hs.1 hs.2⟩
  exact ⟨hinv.mono fun w hw => worldAgreement_of_agrees hw.2.2,
    (hinv.steps.and hok).mono fun w step hs => tellsSubscribers_of_reachesHolders hs.1.1.registry hs.2⟩

/-- The start of a dig at the block (32, 15, 0), in the chunk two to the east. -/
def digFrame : PacketFrame := ⟨0x1a, [0, 0, 0, 8, 0, 0, 0, 0, 15, 0]⟩

theorem digOf_digFrame : digOf digFrame = some 0x8000000000f := by decide +kernel

/-- A position in the chunk four to the east. -/
def fourEastFrame : PacketFrame :=
  ⟨0x11, [0x40, 0x52, 0, 0, 0, 0, 0, 0] ++ List.replicate 16 0 ++ [1]⟩

/-- Two players at one place, one of which digs. -/
theorem agreement_of_reachesHolders_join :
    server.Along emptyServer (joinSteps 0 2 ++ joinSteps 1 2 ++ [.packet 0 digFrame 0])
        WorldAgreement ∧
      server.Steps emptyServer (joinSteps 0 2 ++ joinSteps 1 2 ++ [.packet 0 digFrame 0])
        TellsSubscribers :=
  agreement_of_reachesHolders (by decide +kernel) <| steps_snoc.mpr ⟨by decide +kernel,
    fun _ location hl _ => by
      obtain rfl := Option.some.inj (digOf_digFrame.symm.trans hl)
      decide +kernel⟩

/-- A player digs in a chunk that another one sees, who does not see the chunk of the digger. -/
theorem ghost_block :
    server.Run emptyServer (joinSteps 0 2 ++ joinSteps 1 2 ++
        [.packet 1 fourEastFrame 0, .packet 0 digFrame 0]) ∧
      ¬ server.Along emptyServer (joinSteps 0 2 ++ joinSteps 1 2 ++
        [.packet 1 fourEastFrame 0, .packet 0 digFrame 0]) WorldAgreement := by
  refine ⟨by decide +kernel, fun h => ?_⟩
  obtain ⟨chunk, hchunk, hcopy⟩ := h.last 1 (by decide +kernel) (by decide +kernel) ⟨2, 0⟩
    (by decide +kernel) (by decide +kernel)
  have hblock : (copyOf ((server.after emptyServer (joinSteps 0 2 ++ joinSteps 1 2 ++
        [.packet 1 fourEastFrame 0, .packet 0 digFrame 0])).traffic 1) ⟨2, 0⟩).map
          (fun blocks => blocks 0 15 0 0) =
      ((server.after emptyServer (joinSteps 0 2 ++ joinSteps 1 2 ++
        [.packet 1 fourEastFrame 0, .packet 0 digFrame 0])).globalState.chunks ⟨2, 0⟩).map
          fun chunk => chunk.blocks 0 15 0 0 := by
    rw [hchunk, hcopy]
    rfl
  exact absurd hblock (by decide +kernel)

end Vitamine
