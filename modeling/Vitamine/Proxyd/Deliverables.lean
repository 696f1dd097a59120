import Vitamine.Proxyd.Delivery
import Vitamine.Proxyd.PayloadSize
import Vitamine.Proxyd.Transition

/-!
# What the server sends can be delivered (`proxyd/statemachine.cpp`)

The encoders cast lengths and counts without a check. Here every packet that a run sends fits its
fields and its frame, as long as there are not more than a million players at once.

* `PlayerState.Fits`: what the server keeps of a player are values that it was sent.
* `Fit`: the invariant, with a lemma for each write of the world and one for each handler.
* `deliverable_of_run`: every packet of every run is deliverable.
* `received_of_run`: a client that cuts what is on the wire, or on its way, into frames has the
  first of the packets that were sent to it.
-/

namespace Vitamine

open Wire System ClientboundPacket

/-! ## Players and chunks -/

/-- A player about whom every packet fits. -/
structure PlayerState.Fits (s : PlayerState) : Prop where
  position : s.position.x.HasFloat64 ∧ s.position.y.HasFloat64 ∧ s.position.z.HasFloat64
  yaw : s.yaw.HasFloat32
  pitch : s.pitch.HasFloat32
  flyingSpeed : s.flyingSpeed.HasFloat32
  walkingSpeed : s.walkingSpeed.HasFloat32
  username : s.username.length ≤ INCOMING_PACKET_MAX_LENGTH_VALUE

theorem hasFloat32 (bits : BitVec 32) : (FloatValue.ofFloat32 bits).HasFloat32 := ⟨bits, rfl⟩

theorem hasFloat64 (bits : BitVec 64) : (FloatValue.ofFloat64 bits).HasFloat64 := ⟨bits, rfl⟩

/-- The values of the initializers have patterns. -/
theorem fits_initialState (clientSettings : ClientSettings) (entityId : EntityId) :
    PlayerState.Fits { entityId, clientSettings } := by
  have hzero : FloatValue.ofFloat64 0 = .finite 0 := by decide +kernel
  have hheight : FloatValue.ofFloat64 0x4050000000000000 = .finite 64 := by decide +kernel
  have hangle : FloatValue.ofFloat32 0 = .finite 0 := by decide +kernel
  have hspeed : FloatValue.ofFloat32 0x3f800000 = .finite 1 := by decide +kernel
  exact ⟨⟨⟨_, hzero⟩, ⟨_, hheight⟩, ⟨_, hzero⟩⟩, ⟨_, hangle⟩, ⟨_, hangle⟩, ⟨_, hspeed⟩, ⟨_, hspeed⟩,
    Nat.zero_le _⟩

def ChunkCoord.Fits (c : ChunkCoord) : Prop := FitsInt 32 c.x ∧ FitsInt 32 c.z

/-- The chunks in view of a player have coordinates of 32 bits. -/
theorem PlayerState.fits_of_within {s s' : PlayerState} {c : ChunkCoord}
    (h : ChunkCoord.Within s.chunk s'.viewDistance c) : c.Fits := by
  have hview : s'.viewDistance ≤ 255 := by
    have hlt := s'.clientSettings.viewDistance.isLt
    unfold PlayerState.viewDistance
    omega
  have hx := (loop_fits_int32 s.position (h.1.trans hview)).1
  have hz := (loop_fits_int32 s.position (h.2.trans hview)).2
  rw [← PlayerState.chunk] at hx hz
  simp only [add_sub_cancel] at hx hz
  exact ⟨hx, hz⟩

theorem PlayerState.fits_chunk (s : PlayerState) : s.chunk.Fits := by
  refine @fits_of_within s s _ (ChunkCoord.within_iff.mpr ?_)
  have := s.viewDistance_nonneg
  omega

theorem fits_generateChunk : generateChunk.Fits where
  blocks _ _ h := toNat_generateChunk_lt h
  heights _ _ := (by decide : (16#16).toNat < 2 ^ 9)

namespace Chunk

variable {chunk : Chunk}

theorem Fits.sectionAt (h : chunk.Fits) (i y z x : Fin 16) :
    ((chunk.sectionAt i).blocks y z x).toNat < 2 ^ 14 := by
  unfold Chunk.sectionAt
  cases hs : chunk.sections i with
  | none => exact (by decide : (0#16).toNat < 2 ^ 14)
  | some s => exact h.blocks i s hs y z x

/-- One section is replaced by one whose blocks have few bits. -/
theorem Fits.update (h : chunk.Fits) (i : Fin 16) {s : ChunkSection}
    (hs : ∀ y z x, (s.blocks y z x).toNat < 2 ^ 14) :
    Fits { chunk with sections := Function.update chunk.sections i (some s) } where
  blocks i' s' hs' y z x := by
    change Function.update chunk.sections i (some s) i' = some s' at hs'
    by_cases hi : i' = i
    · subst hi
      rw [Function.update_self] at hs'
      exact Option.some.inj hs' ▸ hs y z x
    · rw [Function.update_of_ne hi] at hs'
      exact h.blocks i' s' hs' y z x
  heights := h.heights

/-- A dig puts air, which has no bits. -/
theorem Fits.dig (h : chunk.Fits) {index : BlockIndex} {r : Chunk × Bool}
    (hd : chunk.dig index = some r) : r.1.Fits := by
  have hmake : ∀ i, (chunk.makeSection i).Fits := fun i => h.update i (h.sectionAt i)
  unfold Chunk.dig at hd
  split at hd
  · simp only at hd
    split at hd <;> obtain rfl := Option.some.inj hd
    · exact hmake _
    · refine (hmake _).update _ fun y z x => ?_
      simp only
      split
      · decide
      · exact (hmake _).sectionAt _ y z x
  · cases hd

theorem length_heightmapNbt (h : chunk.Fits) :
    (serializeNbt (.mk .compound [] (.compound [chunk.heightmapNbt]))).length = 314 := by
  have hname : (spanFromCString "MOTION_BLOCKING").length = 15 := by decide
  have hlongs := length_flatMap_serializeInt chunk.heightmapLongs
  rw [(Chunk.length_heightmapLongs h.heights).1] at hlongs
  simp only [serializeNbt, serializeNbtValue, serializeNbts, heightmapNbt, if_true,
    List.length_append, length_serializeInt, serializeBytes, hname, hlongs]
  rfl

end Chunk

/-! ## The packets -/

section Packets

variable {s : PlayerState}

theorem deliverable_createSpawnPacket (h : s.Fits) : (createSpawnPacket s).Deliverable := by
  refine deliverable_of_maxLength ⟨h.position, ?_⟩ (show 64 < 2 ^ 31 by decide)
  exact List.forall_mem_singleton.mpr ⟨(by decide : (0 : BitVec 8) ≠ 0xff), trivial⟩

theorem deliverable_createDespawnPacket (s : PlayerState) :
    (createDespawnPacket s).Deliverable :=
  deliverable_of_maxLength (show 1 < 2 ^ 31 by decide) (show 15 < 2 ^ 31 by decide)

theorem deliverable_createHeadLookPacket (s : PlayerState) :
    (createHeadLookPacket s).Deliverable :=
  deliverable_of_maxLength trivial (show 11 < 2 ^ 31 by decide)

theorem deliverable_createMovePacket (h : s.Fits) (oldPosition : EntityCoord) (rotate : Bool) :
    (createMovePacket s oldPosition rotate).Deliverable := by
  unfold createMovePacket
  simp only
  split_ifs
  · exact deliverable_of_maxLength h.position (show 37 < 2 ^ 31 by decide)
  · exact deliverable_of_maxLength trivial (show 19 < 2 ^ 31 by decide)
  · exact deliverable_of_maxLength trivial (show 17 < 2 ^ 31 by decide)

theorem deliverable_unload {c : ChunkCoord} (h : c.Fits) : (unload c).Deliverable :=
  deliverable_of_maxLength h (show 13 < 2 ^ 31 by decide)

theorem deliverable_load {c : ChunkCoord} {chunk : Chunk} (h : c.Fits) (hc : chunk.Fits) :
    (load c chunk).Deliverable := by
  have hnbt := Chunk.length_heightmapNbt hc
  have hdata := chunk.length_serialize_le
  refine deliverable_of_maxLength ⟨h, hc⟩ ?_
  show 4 + (4 + (1 + (5 +
    ((serializeNbt (.mk .compound [] (.compound [chunk.heightmapNbt]))).length +
      (5 + chunk.serialize.length + (5 + 0 + 0)))))) + 5 < 2 ^ 31
  omega

theorem length_plainText (text : Bytes) : (chat.plainText text).length = text.length + 11 := by
  have hopen : (spanFromCString "\x7b\"text\":\"").length = 9 := by decide
  have hclose : (spanFromCString "\"\x7d").length = 2 := by decide
  rw [chat.plainText, List.length_append, List.length_append, hopen, hclose]
  omega

theorem deliverable_chatServer {text : Bytes} (h : text.length < 2 ^ 30) (position : BitVec 8) :
    (ClientboundPacket.chatServer (chat.plainText text) position).Deliverable := by
  have hlength := length_plainText text
  refine deliverable_of_maxLength (?_ : (chat.plainText text).length < 2 ^ 31) ?_
  · omega
  · show 5 + (chat.plainText text).length + (1 + 0) + 5 < 2 ^ 31
    omega

theorem deliverable_disconnect {message : Bytes} (h : message.length < 2 ^ 30) :
    (ClientboundPacket.disconnect (chat.plainText message)).Deliverable ∧
      (ClientboundPacket.disconnectLogin (chat.plainText message)).Deliverable := by
  have hlength := length_plainText message
  have hfits : (chat.plainText message).length < 2 ^ 31 := by omega
  have hmax : 5 + (chat.plainText message).length + 0 + 5 < 2 ^ 31 := by omega
  exact ⟨deliverable_of_maxLength hfits hmax, deliverable_of_maxLength hfits hmax⟩

theorem spanFromCString_append (a b : String) :
    spanFromCString (a ++ b) = spanFromCString a ++ spanFromCString b := by
  simp [spanFromCString]

/-- A number of 32 bits has at most ten digits and a sign. -/
theorem length_toString_toInt_le (n : BitVec 32) :
    (spanFromCString (toString n.toInt)).length ≤ 11 := by
  have hlt := n.isLt
  have hdigits : ∀ m : Nat, m < 2 ^ 32 → m.repr.length ≤ 10 := fun m hm =>
    (Nat.length_repr_le_iff (by decide)).mpr (by omega)
  have hint := BitVec.toInt_lt (x := n)
  have hint' := BitVec.le_toInt (x := n)
  rw [spanFromCString, List.length_map, String.length_toList]
  cases hn : n.toInt with
  | ofNat m =>
    rw [hn, Int.ofNat_eq_natCast] at hint
    have hm := hdigits m (by omega)
    show m.repr.length ≤ 11
    omega
  | negSucc m =>
    rw [hn] at hint'
    have hm := hdigits (m + 1) (by omega)
    show ("-" ++ (m + 1).repr).length ≤ 11
    rw [String.length_append]
    show 1 + _ ≤ 11
    omega

/-- The list of as many players as there may be. -/
theorem deliverable_addPlayer {states : List PlayerState} (h : ∀ s ∈ states, s.Fits)
    (hlength : states.length ≤ 2 ^ 20) :
    (ClientboundPacket.playerInfo ⟨.addPlayer, states.map addPlayerEntry⟩).Deliverable := by
  have hmax : INCOMING_PACKET_MAX_LENGTH_VALUE = 1019 := rfl
  have hentry : ∀ s ∈ states, 16 + (addPlayerEntry s).update.maxLength ≤ 1066 := by
    intro s hs
    have hname := (h s hs).username
    show 16 + ((5 + s.username.length) + 5 + 0 + 5 + 5 + (1 + (5 + 0))) ≤ 1066
    omega
  have hsum := List.sum_le_card_nsmul
    ((states.map addPlayerEntry).map fun entry => 16 + entry.update.maxLength) 1066 (by
      simp only [List.map_map, List.mem_map, Function.comp_apply]
      rintro n ⟨s, hs, rfl⟩
      exact hentry s hs)
  refine deliverable_of_maxLength ⟨⟨?_, ?_⟩, ?_⟩ ?_
  · show (states.map addPlayerEntry).length < 2 ^ 31
    rw [List.length_map]
    omega
  · intro entry he
    obtain ⟨s, hs, rfl⟩ := List.mem_map.mp he
    have hname := (h s hs).username
    have hcount : (0 : Nat) < 2 ^ 31 := by decide
    refine ⟨rfl, ?_, hcount, fun prop hp => absurd hp List.not_mem_nil, fun hf => by cases hf⟩
    show s.username.length < 2 ^ 31
    omega
  · show (states.map addPlayerEntry).map _ = _
    rw [List.map_map]
    rfl
  · show 5 + (5 + ((states.map addPlayerEntry).map fun entry =>
      16 + entry.update.maxLength).sum) + 5 < 2 ^ 31
    rw [List.length_map, List.length_map, smul_eq_mul] at hsum
    omega

/-- The text of a UUID has two digits for each byte, and some hyphens. -/
theorem length_toString_le (uuid : Uuid) : uuid.toString.length ≤ 48 := by
  unfold Uuid.toString
  refine (length_flatMap_le (g := fun _ => 3) ?_).trans ?_
  · rintro ⟨b, i⟩ -
    rw [List.length_append]
    show _ + 2 ≤ 3
    split <;> decide
  · rw [List.map_const', List.sum_replicate, List.length_zipIdx, uuid.length_eq]
    decide

theorem deliverable_loginSuccess (uuid : Uuid) {name : Bytes} (h : name.length < 2 ^ 30) :
    (ClientboundPacket.loginSuccess uuid.toString name).Deliverable := by
  have huuid := length_toString_le uuid
  refine deliverable_of_maxLength ⟨?_, ?_⟩ ?_
  · show uuid.toString.length < 2 ^ 31
    omega
  · show name.length < 2 ^ 31
    omega
  · show 5 + uuid.toString.length + (5 + name.length + 0) + 5 < 2 ^ 31
    omega

theorem deliverable_removePlayer (uuid : Uuid) :
    (ClientboundPacket.playerInfo ⟨.removePlayer, [⟨uuid, .removePlayer⟩]⟩).Deliverable := by
  refine deliverable_of_maxLength ⟨⟨?_, ?_⟩, rfl⟩ (show 31 < 2 ^ 31 by decide)
  · exact (by decide : 1 < 2 ^ 31)
  · exact List.forall_mem_singleton.mpr rfl

end Packets

/-! ## The writes -/

/-- The players and chunks fit, and so did all that was sent. -/
structure Fit (w : World) : Prop where
  player : ∀ p, w.life p ≠ .unused → (w.player p).Fits
  chunk : ∀ c chunk, w.globalState.chunks c = some chunk → chunk.Fits
  sent : ∀ p, ∀ k ∈ w.sentTo p, k.Deliverable

namespace Fit

section Writes

variable {w w' : World} {this p : StateMachinePtr}

/-- Nothing that matters here is different. -/
theorem of_eq (h : Fit w) (hlife : w'.life = w.life) (hplayer : w'.player = w.player)
    (hchunks : w'.globalState.chunks = w.globalState.chunks) (hsent : w'.sentTo = w.sentTo) :
    Fit w' where
  player p hp := by
    rw [hplayer]
    exact h.player p (hlife ▸ hp)
  chunk c chunk hc := h.chunk c chunk (hchunks ▸ hc)
  sent p := by
    rw [hsent]
    exact h.sent p

/-- Other fields of a state machine. -/
theorem setMachine (h : Fit w) {m : StateMachine} (hm : m.playerState = w.player this) :
    Fit (w.setMachine this m) := by
  refine h.of_eq rfl ?_ rfl rfl
  funext p
  by_cases hp : p = this
  · subst hp
    simp [World.player, hm]
  · simp [World.player, hp]

theorem setPlayer (h : Fit w) {s : PlayerState} (hs : s.Fits) : Fit (w.setPlayer this s) where
  player p hp := by
    rw [World.setPlayer_player]
    by_cases hthis : p = this
    · subst hthis
      rwa [Function.update_self]
    · rw [Function.update_of_ne hthis]
      exact h.player p hp
  chunk := h.chunk
  sent := h.sent

theorem setChunk (h : Fit w) {c : ChunkCoord} {chunk : Chunk} (hc : chunk.Fits) :
    Fit (w.setChunk c chunk) where
  player := h.player
  chunk c' chunk' hc' := by
    rw [World.setChunk_chunks] at hc'
    by_cases he : c' = c
    · subst he
      rw [Function.update_self] at hc'
      exact Option.some.inj hc' ▸ hc
    · rw [Function.update_of_ne he] at hc'
      exact h.chunk c' chunk' hc'
  sent := h.sent

/-- Packets are sent, and nothing else matters. -/
theorem of_sent (h : Fit w) (hlife : w'.life = w.life) (hplayer : w'.player = w.player)
    (hchunks : w'.globalState.chunks = w.globalState.chunks)
    (hsent : ∀ q, ∃ packets : List ClientboundPacket,
      w'.traffic q = w.traffic q ++ packets.map .sent ∧ ∀ k ∈ packets, k.Deliverable) : Fit w' where
  player p hp := by
    rw [hplayer]
    exact h.player p (hlife ▸ hp)
  chunk c chunk hc := h.chunk c chunk (hchunks ▸ hc)
  sent q := by
    obtain ⟨packets, ht, hpackets⟩ := hsent q
    rw [sentTo_of_traffic ht]
    exact List.forall_mem_append.mpr ⟨h.sent q, hpackets⟩

theorem sendEach (h : Fit w) (targets : Finset StateMachinePtr) {k : ClientboundPacket}
    (hk : k.Deliverable) : Fit (w.sendEach targets k) := by
  refine h.of_sent rfl rfl rfl fun q => ⟨_, World.sendEach_traffic_append w targets k q, ?_⟩
  split
  · exact List.forall_mem_singleton.mpr hk
  · exact fun _ hk' => absurd hk' List.not_mem_nil

theorem sendAll (h : Fit w) {ks : List ClientboundPacket} (hk : ∀ k ∈ ks, k.Deliverable) :
    Fit (w.sendAll this ks) := by
  refine h.of_sent rfl rfl rfl fun q => ?_
  rw [World.sendAll_traffic]
  by_cases hq : q = this
  · subst hq
    exact ⟨ks, by rw [Function.update_self], hk⟩
  · refine ⟨[], ?_, fun _ hk' => absurd hk' List.not_mem_nil⟩
    rw [Function.update_of_ne hq]
    exact (List.append_nil _).symm

theorem sendPacket (h : Fit w) {k : ClientboundPacket} (hk : k.Deliverable) :
    Fit (w.sendPacket this k) :=
  h.sendAll (List.forall_mem_singleton.mpr hk)

theorem broadcastLocally (h : Fit w) {k : ClientboundPacket} (hk : k.Deliverable)
    (includeSelf : Bool) : Fit (w.broadcastLocallyUnsafe this k includeSelf) :=
  h.sendEach _ hk

theorem broadcastGlobally (h : Fit w) {k : ClientboundPacket} (hk : k.Deliverable)
    (includeSelf : Bool) : Fit (w.broadcastGloballyUnsafe this k includeSelf) :=
  h.sendEach _ hk

theorem disconnect (h : Fit w) : Fit (w.disconnect this) := h.of_eq rfl rfl rfl rfl

theorem disconnectWith (h : Fit w) {message : Bytes} (hm : message.length < 2 ^ 30) :
    Fit (w.disconnectWith this message) := by
  obtain ⟨hplay, hlogin⟩ := deliverable_disconnect hm
  unfold World.disconnectWith
  simp only
  split
  · exact (h.sendPacket hplay).disconnect
  · exact (h.sendPacket hlogin).disconnect

theorem setPhase (h : Fit w) (phase : ClientPhase) : Fit (w.setPhase this phase) :=
  h.of_eq rfl (World.setPhase_player ..) rfl rfl

theorem setTracker (h : Fit w) (tracker : PlayerTracker StateMachinePtr) :
    Fit (w.setTracker tracker) := h.of_eq rfl rfl rfl rfl

theorem setPlayers (h : Fit w) (players : Finset StateMachinePtr) : Fit (w.setPlayers players) :=
  h.of_eq rfl rfl rfl rfl

theorem sendUnloads (h : Fit w) {coords : List ChunkCoord} (hc : ∀ c ∈ coords, c.Fits) :
    Fit (w.sendUnloads this coords) := by
  refine h.sendAll (List.forall_mem_map.mpr fun c hmem => ?_)
  exact deliverable_unload (hc c hmem)

/-- A chunk that is stored fits, and so does a generated one. -/
theorem chunkAt (h : Fit w) (c : ChunkCoord) : (w.chunkAt c).Fits := by
  unfold World.chunkAt
  cases hc : w.globalState.chunks c with
  | none => exact fits_generateChunk
  | some chunk => exact h.chunk c chunk hc

theorem sendChunks (h : Fit w) {coords : List ChunkCoord} (hc : ∀ c ∈ coords, c.Fits) :
    Fit (w.sendChunks this coords) := by
  induction coords generalizing w with
  | nil => exact h
  | cons c coords ih =>
    obtain ⟨hfirst, hrest⟩ := List.forall_mem_cons.mp hc
    exact ih ((h.setChunk (h.chunkAt c)).sendPacket (deliverable_load hfirst (h.chunkAt c))) hrest

end Writes

/-! ## The handlers -/

section Handlers

variable {w : World} {this : StateMachinePtr}

/-- A change of the own player that leaves what matters. -/
theorem setOwn (h : Fit w) (hl : w.life this ≠ .unused) {s : PlayerState}
    (hs : (w.player this).Fits → s.Fits) : Fit (w.setPlayer this s) :=
  h.setPlayer (hs (h.player this hl))

theorem onHandshake (h : Fit w) (version nextState : BitVec 32) :
    Fit (w.onHandshake this version nextState) := by
  unfold World.onHandshake
  split_ifs
  · exact h.disconnectWith (by decide)
  · exact h.setPhase _
  · exact h.setPhase _
  · exact h.disconnectWith (by decide)

theorem onLoginStart (h : Fit w) (hl : w.life this ≠ .unused)
    (hplayers : ∀ p ∈ w.globalState.players, w.life p ≠ .unused)
    (hcard : w.globalState.players.card ≤ 2 ^ 20) {name : Bytes}
    (hname : name.length ≤ INCOMING_PACKET_MAX_LENGTH_VALUE) : Fit (w.onLoginStart this name) := by
  have hmax : INCOMING_PACKET_MAX_LENGTH_VALUE = 1019 := rfl
  have hown := h.player this hl
  have hs : (w.loggedIn this name).Fits := ⟨hown.1, hown.2, hown.3, hown.4, hown.5, hname⟩
  have hset : Fit (w.setPlayer this (w.loggedIn this name)) := h.setPlayer hs
  have hnext : Fit ((w.setPlayer this (w.loggedIn this name)).setNextEntityId
      (w.globalState.nextEntityId + 1)) := hset.of_eq rfl rfl rfl rfl
  have hsuccess := deliverable_loginSuccess (w.loggedIn this name).uuid
    (show name.length < _ by omega)
  have hbrand : (ClientboundPacket.pluginMessageServer PLUGIN_CHANNEL_MINECRAFT_BRAND
      (serializeString SERVER_BRAND_STRING)).Deliverable :=
    deliverable_of_maxLength (show PLUGIN_CHANNEL_MINECRAFT_BRAND.length < 2 ^ 31 by decide)
      (show 5 + PLUGIN_CHANNEL_MINECRAFT_BRAND.length +
        ((serializeString SERVER_BRAND_STRING).length + 0) + 5 < 2 ^ 31 by decide)
  -- The entries of the list are those of players that have connected.
  have hlist := @deliverable_addPlayer ((ascending w.globalState.players).map
    (w.setPlayer this (w.loggedIn this name)).player)
    (List.forall_mem_map.mpr fun p hp => hset.player p (hplayers p (mem_ascending.mp hp)))
    (by rwa [List.length_map, length_ascending])
  rw [List.map_map] at hlist
  have hself := deliverable_addPlayer (List.forall_mem_singleton.mpr hs) (show 1 ≤ 2 ^ 20 by decide)
  unfold World.onLoginStart
  refine setPhase (broadcastGlobally (setPlayers ?_ _) hself _) _
  refine ((((hnext.sendPacket hsuccess).sendPacket ?_).sendPacket hbrand).sendPacket ?_).sendPacket
    ?_ |>.sendPacket hlist
  · exact deliverable_of_maxLength (show 7 < 2 ^ 31 by decide) (show 33 < 2 ^ 31 by decide)
  · exact deliverable_of_maxLength ⟨hs.flyingSpeed, hs.walkingSpeed⟩ (show 14 < 2 ^ 31 by decide)
  · exact deliverable_of_maxLength trivial (show 6 < 2 ^ 31 by decide)

/-- Those who are seen have connected. -/
theorem enterPlay (h : Fit w) (hl : w.life this ≠ .unused)
    (hmembers : ∀ c, ∀ p ∈ w.tracker.membership c, w.life p ≠ .unused) :
    Fit (w.enterPlay this) := by
  have hspawn := deliverable_createSpawnPacket (h.player this hl)
  unfold World.enterPlay
  refine setPhase (sendAll (broadcastLocally (h.setTracker _) hspawn _) ?_) _
  refine List.forall_mem_map.mpr fun m hm => deliverable_createSpawnPacket (h.player m ?_)
  obtain ⟨-, c, -, hc⟩ := (w.mem_visiblePlayers this).mp hm
  exact hmembers c m hc

theorem onTeleportConfirm (h : Fit w) (hl : w.life this ≠ .unused)
    (hmembers : ∀ c, ∀ p ∈ w.tracker.membership c, w.life p ≠ .unused) (id : BitVec 32) :
    Fit (w.onTeleportConfirm this id) := by
  have hconfirmed : Fit (w.confirmed this id) := by
    unfold World.confirmed
    split
    · exact h.setOwn hl fun hs => ⟨hs.1, hs.2, hs.3, hs.4, hs.5, hs.6⟩
    · exact h.disconnectWith (by decide)
  rw [World.onTeleportConfirm_eq]
  refine hconfirmed.enterPlay (by rwa [World.confirmed_life]) ?_
  simpa only [World.confirmed_tracker, World.confirmed_life] using hmembers

theorem onPluginMessage (h : Fit w) (hl : w.life this ≠ .unused) (channel data : Bytes) :
    Fit (w.onPluginMessage this channel data) := by
  unfold World.onPluginMessage
  split
  · split
    · split
      · exact h.disconnect
      · exact h.setOwn hl fun hs => ⟨hs.1, hs.2, hs.3, hs.4, hs.5, hs.6⟩
    · exact h.disconnect
  · exact h

theorem onClientSettingsChange (h : Fit w) (hl : w.life this ≠ .unused)
    (packet : ClientSettingsPacket) : Fit (w.onClientSettingsChange this packet) := by
  have hset : Fit (w.setPlayer this (w.withSettings this packet)) :=
    h.setOwn hl fun hs => ⟨hs.1, hs.2, hs.3, hs.4, hs.5, hs.6⟩
  rw [World.onClientSettingsChange_eq]
  refine sendChunks (sendUnloads (hset.setTracker _) fun c hc => ?_) fun c hc => ?_
  · exact PlayerState.fits_of_within ((w.mem_settingsUnloads this packet).mp hc).2.1
  · exact PlayerState.fits_of_within ((w.mem_settingsLoads this packet).mp hc).2.1

theorem onSettingsInPlayInit (h : Fit w) (hl : w.life this ≠ .unused)
    (packet : ClientSettingsPacket) : Fit (w.onSettingsInPlayInit this packet) := by
  have hchange := h.onClientSettingsChange hl packet
  have hown := hchange.player this (by rwa [World.onClientSettingsChange_life])
  have hstart : ((w.onClientSettingsChange this packet).player this).startTeleport.Fits :=
    ⟨hown.1, hown.2, hown.3, hown.4, hown.5, hown.6⟩
  unfold World.onSettingsInPlayInit
  refine sendPacket (setPlayer (sendPacket (sendChunks hchange fun c hc => ?_) ?_) hstart) ?_
  · exact PlayerState.fits_of_within (ChunkCoord.mem_square.mp hc)
  · exact deliverable_of_maxLength trivial (show 13 < 2 ^ 31 by decide)
  · exact deliverable_of_maxLength ⟨hown.position, hown.pitch, hown.yaw⟩
      (show 43 < 2 ^ 31 by decide)

theorem onChat (h : Fit w) (hl : w.life this ≠ .unused) (message : Bytes) :
    Fit (w.onChat this message) := by
  have hmax : INCOMING_PACKET_MAX_LENGTH_VALUE = 1019 := rfl
  have hname := (h.player this hl).username
  have hopen : (spanFromCString "<").length = 1 := by decide
  have hclose : (spanFromCString "> ").length = 2 := by decide
  unfold World.onChat
  split
  · exact h.disconnectWith (by decide)
  · refine h.broadcastGlobally (deliverable_chatServer ?_ 0) _
    simp only [List.length_append, hopen, hclose]
    omega

theorem onCloseWindow (h : Fit w) (hl : w.life this ≠ .unused) (windowId : BitVec 8) :
    Fit (w.onCloseWindow this windowId) := by
  unfold World.onCloseWindow
  split
  · split
    · exact h.disconnectWith (by decide)
    · exact h.setOwn hl fun hs => ⟨hs.1, hs.2, hs.3, hs.4, hs.5, hs.6⟩
  · exact h

theorem onChunkTransition (h : Fit w) (hl : w.life this ≠ .unused) (oldPosition : EntityCoord)
    (rotate : Bool) : Fit (w.onChunkTransition this (coordCast oldPosition) (w.player this).chunk
      oldPosition rotate) := by
  have hown := h.player this hl
  have hmove := deliverable_createMovePacket hown oldPosition rotate
  have hview := (w.player this).fits_chunk
  -- The old square is that of a player at the old position.
  have hold : ∀ c ∈ chunksOutside (coordCast oldPosition) (w.player this).chunk
      (w.player this).viewDistance, c.Fits := fun c hc =>
    @PlayerState.fits_of_within { w.player this with position := oldPosition } (w.player this) c
      (World.mem_chunksOutside.mp hc).1
  have hnew : ∀ c ∈ chunksOutside (w.player this).chunk (coordCast oldPosition)
      (w.player this).viewDistance, c.Fits := fun c hc =>
    PlayerState.fits_of_within (World.mem_chunksOutside.mp hc).1
  have hupdate : (ClientboundPacket.updateViewPosition (w.player this).chunk.x
      (w.player this).chunk.z).Deliverable :=
    deliverable_of_maxLength (w.player this).fits_chunk (show 15 < 2 ^ 31 by decide)
  have hdespawn := deliverable_createDespawnPacket (w.player this)
  have hspawn := deliverable_createSpawnPacket hown
  have hhead := deliverable_createHeadLookPacket (w.player this)
  have hstreamed : Fit (((w.sendUnloads this _).sendChunks this _).sendPacket this _) :=
    ((h.sendUnloads hold).sendChunks hnew).sendPacket hupdate
  unfold World.onChunkTransition
  refine sendEach (sendEach ?_ _ hdespawn) _ hspawn
  split
  · exact ((hstreamed.setTracker _).sendEach _ hmove).sendEach _ hhead
  · exact (hstreamed.setTracker _).sendEach _ hmove

/-- A move of the own player, whose new position fits. -/
theorem onMove (h : Fit w) (hl : w.life this ≠ .unused) (oldPosition : EntityCoord)
    (rotate : Bool) : Fit (w.onMove this oldPosition rotate) := by
  have hmove : Fit (w.broadcastLocallyUnsafe this _ false) :=
    h.broadcastLocally (deliverable_createMovePacket (h.player this hl) oldPosition rotate) false
  unfold World.onMove
  simp only
  split
  · exact h.onChunkTransition hl oldPosition rotate
  · split
    · exact hmove.broadcastLocally (deliverable_createHeadLookPacket _) false
    · exact hmove

theorem onPlayerPosition (h : Fit w) (hl : w.life this ≠ .unused) {x y z : FloatValue}
    (hx : x.HasFloat64) (hy : y.HasFloat64) (hz : z.HasFloat64) :
    Fit (w.onPlayerPosition this x y z) := by
  have hset : Fit (w.setPlayer this { w.player this with position := ⟨x, y, z⟩ }) :=
    h.setOwn hl fun hs => ⟨⟨hx, hy, hz⟩, hs.2, hs.3, hs.4, hs.5, hs.6⟩
  exact hset.onMove hl _ _

theorem onPlayerPositionRotation (h : Fit w) (hl : w.life this ≠ .unused)
    {x y z yaw pitch : FloatValue} (hx : x.HasFloat64) (hy : y.HasFloat64) (hz : z.HasFloat64)
    (hyaw : yaw.HasFloat32) (hpitch : pitch.HasFloat32) :
    Fit (w.onPlayerPositionRotation this x y z yaw pitch) := by
  have hset : Fit (w.setPlayer this { w.player this with position := ⟨x, y, z⟩, yaw, pitch }) :=
    h.setOwn hl fun hs => ⟨⟨hx, hy, hz⟩, hyaw, hpitch, hs.4, hs.5, hs.6⟩
  exact hset.onMove hl _ _

theorem onPlayerRotation (h : Fit w) (hl : w.life this ≠ .unused) {yaw pitch : FloatValue}
    (hyaw : yaw.HasFloat32) (hpitch : pitch.HasFloat32) :
    Fit (w.onPlayerRotation this yaw pitch) := by
  have hset : Fit (w.setPlayer this { w.player this with yaw, pitch }) :=
    h.setOwn hl fun hs => ⟨hs.1, hyaw, hpitch, hs.4, hs.5, hs.6⟩
  unfold World.onPlayerRotation
  refine broadcastLocally (hset.broadcastLocally ?_ _) (deliverable_createHeadLookPacket _) _
  exact deliverable_of_maxLength trivial (show 13 < 2 ^ 31 by decide)

theorem onPlayerAbilities (h : Fit w) (hl : w.life this ≠ .unused) (flags : BitVec 8)
    {flyingSpeed walkingSpeed : FloatValue} (hflying : flyingSpeed.HasFloat32)
    (hwalking : walkingSpeed.HasFloat32) :
    Fit (w.onPlayerAbilities this flags flyingSpeed walkingSpeed) :=
  h.setOwn hl fun hs => ⟨hs.1, hs.2, hs.3, hflying, hwalking, hs.6⟩

theorem startDigging (h : Fit w) (location : BitVec 64) : Fit (w.startDigging this location) := by
  unfold World.startDigging
  split
  · exact h.disconnect
  · rename_i chunk hc
    have hchunk := h.chunk _ chunk hc
    split
    · exact h.of_eq rfl rfl rfl rfl
    · rename_i hd
      exact h.setChunk (hchunk.dig hd)
    · rename_i hd
      refine broadcastLocally (h.setChunk (hchunk.dig hd)) ?_ _
      exact deliverable_of_maxLength trivial (show 18 < 2 ^ 31 by decide)

theorem onPlayerDigging (h : Fit w) (status : BitVec 32) (location : BitVec 64)
    (face : BitVec 8) : Fit (w.onPlayerDigging this status location face) := by
  unfold World.onPlayerDigging
  split_ifs
  · exact h.disconnectWith (by decide)
  · exact h.disconnectWith (by decide)
  · exact h.startDigging location
  · exact h

theorem sendMetadataUpdate (h : Fit w) : Fit (w.sendMetadataUpdate this) := by
  have hflags : (0 : BitVec 8) ≠ 0xff := by decide
  have hpose : (6 : BitVec 8) ≠ 0xff := by decide
  unfold World.sendMetadataUpdate
  refine h.broadcastLocally ?_ _
  refine deliverable_of_maxLength ?_ (show 33 < 2 ^ 31 by decide)
  exact List.forall_mem_cons.mpr ⟨⟨hflags, trivial⟩, List.forall_mem_singleton.mpr ⟨hpose, trivial⟩⟩

theorem switchAction (h : Fit w) (hl : w.life this ≠ .unused) (entityId : BitVec 32)
    {invalid already : String} (hinvalid : (spanFromCString invalid).length < 2 ^ 30)
    (halready : (spanFromCString already).length < 2 ^ 30) (done : Bool)
    {set : PlayerState → PlayerState} (hset : ∀ s : PlayerState, s.Fits → (set s).Fits) :
    Fit (w.switchAction this entityId invalid already done set) := by
  unfold World.switchAction
  split_ifs
  · exact h.disconnectWith hinvalid
  · exact h.disconnectWith halready
  · exact (h.setOwn hl (hset _)).sendMetadataUpdate

theorem onHeldItemChange (h : Fit w) (hl : w.life this ≠ .unused) (slot : BitVec 16) :
    Fit (w.onHeldItemChange this slot) := by
  unfold World.onHeldItemChange
  split
  · exact h.disconnectWith (by decide)
  · exact h.setOwn hl fun hs => ⟨hs.1, hs.2, hs.3, hs.4, hs.5, hs.6⟩

theorem onAnimation (h : Fit w) (hand : BitVec 32) : Fit (w.onAnimation this hand) := by
  unfold World.onAnimation
  split
  · exact h.disconnectWith (by decide)
  · refine h.broadcastLocally ?_ _
    exact deliverable_of_maxLength trivial (show 11 < 2 ^ 31 by decide)

theorem onUseItem (h : Fit w) (hand : BitVec 32) : Fit (w.onUseItem this hand) := by
  unfold World.onUseItem
  split
  · exact h.disconnectWith (by decide)
  · exact h

theorem onTick (h : Fit w) {now : Int} (hnow : FitsInt 64 now) : Fit (w.onTick this now) := by
  unfold World.onTick
  split_ifs
  · exact h.disconnectWith (by decide)
  · have hset : Fit (w.setMachine this { w.machine this with lastKeepAliveSentTime := now }) :=
      h.setMachine rfl
    exact hset.sendPacket (deliverable_of_maxLength hnow (show 13 < 2 ^ 31 by decide))
  · exact h
  · exact h

theorem onEntityAction (h : Fit w) (hl : w.life this ≠ .unused) (entityId actionId : BitVec 32) :
    Fit (w.onEntityAction this entityId actionId) := by
  unfold World.onEntityAction
  simp only
  split_ifs
  · exact h.switchAction hl entityId (by decide) (by decide) _ fun s hs =>
      ⟨hs.1, hs.2, hs.3, hs.4, hs.5, hs.6⟩
  · exact h.switchAction hl entityId (by decide) (by decide) _ fun s hs =>
      ⟨hs.1, hs.2, hs.3, hs.4, hs.5, hs.6⟩
  · exact h
  · exact h.switchAction hl entityId (by decide) (by decide) _ fun s hs =>
      ⟨hs.1, hs.2, hs.3, hs.4, hs.5, hs.6⟩
  · exact h.switchAction hl entityId (by decide) (by decide) _ fun s hs =>
      ⟨hs.1, hs.2, hs.3, hs.4, hs.5, hs.6⟩
  · exact h
  · refine h.disconnectWith ?_
    have hprefix : (spanFromCString "EntityAction: invalid action id: ").length = 33 := by decide
    have hnumber := length_toString_toInt_le actionId
    rw [spanFromCString_append, List.length_append]
    omega

theorem destroy (h : Fit w) (hl : w.life this ≠ .unused) : Fit (w.destroy this) := by
  have hleave : Fit (w.leavePlay this) :=
    (((h.setTracker _).broadcastLocally (deliverable_createDespawnPacket _) _).setPlayers
      _).broadcastGlobally (deliverable_removePlayer _) _
  have hbody : Fit (if w.phase this = .play then w.leavePlay this else w) := by
    split
    · exact hleave
    · exact h
  refine ⟨fun p hp => ?_, hbody.chunk, hbody.sent⟩
  rw [World.destroy_player]
  by_cases hthis : p = this
  · subst hthis
    exact h.player p hl
  · rw [World.destroy_life, Function.update_of_ne hthis] at hp
    exact h.player p hp

theorem connect (h : Fit w) (clientSettings : ClientSettings) (entityId : EntityId) (now : Int) :
    Fit (w.connect this clientSettings entityId now) := by
  refine ⟨fun p hp => ?_, h.chunk, h.sent⟩
  rw [connect_player]
  by_cases hthis : p = this
  · subst hthis
    rw [Function.update_self]
    exact fits_initialState clientSettings entityId
  · rw [connect_life, Function.update_of_ne hthis] at hp
    rw [Function.update_of_ne hthis]
    exact h.player p hp

theorem receive (h : Fit w) (frame : PacketFrame) (now : Int) :
    Fit (w.receive this frame now) :=
  h.of_eq rfl (receive_player ..) rfl (funext fun q => sentTo_receive w this frame now q)

end Handlers

/-! ## The steps -/

section Steps

variable {w : World} {this : StateMachinePtr} {frame : PacketFrame}

/-- A payload is as long as its string, and longer. -/
theorem length_loginStart_le (hframe : frame.data.length ≤ INCOMING_PACKET_MAX_LENGTH_VALUE)
    {name : Bytes} (h : loginStartOf frame = some name) :
    name.length ≤ INCOMING_PACKET_MAX_LENGTH_VALUE := by
  have hmax : INCOMING_PACKET_MAX_LENGTH_VALUE = 1019 := rfl
  obtain ⟨packet, hp, rfl⟩ := Option.map_eq_some_iff.mp h
  unfold payloadOf at hp
  split at hp
  · obtain ⟨vs, bs₁, vs₁, bs₂, vs₂, hname, -, hdata, -⟩ :=
      laidOut_of_deserialize (P := packetLoginStart) (by decide) (by decide) (by omega) hp
    obtain ⟨l, -, rfl, -⟩ := hname
    rw [hdata] at hframe
    exact ((List.sublist_append_right l _).trans (List.sublist_append_left _ bs₂)).length_le.trans
      hframe
  · cases hp

theorem handle_playInit (h : Fit w) (hl : w.life this ≠ .unused)
    (hmembers : ∀ c, ∀ p ∈ w.tracker.membership c, w.life p ≠ .unused)
    (hphase : w.phase this = .playInit) : Fit (w.handle this frame) := by
  rcases @handle_playInit_cases w this frame hphase with
    ⟨-, he | he⟩ | ⟨c, hc, packet, -, he⟩ <;> rw [he]
  · exact h.disconnect
  · exact h
  · simp only [World.playInitCases, List.mem_cons, List.not_mem_nil, or_false] at hc
    rcases hc with rfl | rfl | rfl | rfl
    · exact h
    · exact h.onTeleportConfirm hl hmembers packet.1
    · exact h.onPluginMessage hl packet.1 packet.2.1
    · exact h.onSettingsInPlayInit hl _

theorem handle_play (h : Fit w) (hl : w.life this ≠ .unused) (hphase : w.phase this = .play) :
    Fit (w.handle this frame) := by
  rcases @handle_play_cases w this frame hphase with
    ⟨-, he | he⟩ | ⟨c, hc, packet, -, he⟩ <;> rw [he]
  · exact h.disconnect
  · exact h
  · simp only [World.playCases, List.mem_cons, List.not_mem_nil, or_false] at hc
    rcases hc with rfl | rfl | rfl | rfl | rfl | rfl | rfl | rfl | rfl | rfl | rfl | rfl | rfl |
      rfl | rfl
    · exact h.onChat hl packet.1
    · exact h.onClientSettingsChange hl _
    · exact h.onCloseWindow hl packet.1
    · exact h
    · exact h.onPlayerPosition hl (hasFloat64 _) (hasFloat64 _) (hasFloat64 _)
    · exact h.onPlayerPositionRotation hl (hasFloat64 _) (hasFloat64 _) (hasFloat64 _)
        (hasFloat32 _) (hasFloat32 _)
    · exact h.onPlayerRotation hl (hasFloat32 _) (hasFloat32 _)
    · exact h
    · exact h
    · exact h.onPlayerAbilities hl packet.1 (hasFloat32 _) (hasFloat32 _)
    · exact h.onPlayerDigging packet.1 packet.2.1 packet.2.2.1
    · exact h.onEntityAction hl packet.1 packet.2.1
    · exact h.onHeldItemChange hl packet.1
    · exact h.onAnimation packet.1
    · exact h.onUseItem packet.1

theorem handle (h : Fit w) (hr : ∀ p, Registry w p) (hlive : w.life this = .live)
    (hcard : w.globalState.players.card ≤ 2 ^ 20)
    (hframe : frame.data.length ≤ INCOMING_PACKET_MAX_LENGTH_VALUE) :
    Fit (w.handle this frame) := by
  have hl : w.life this ≠ .unused := by
    rw [hlive]
    decide
  cases hphase : w.phase this with
  | initial =>
    rcases @handle_initial_cases w this frame hphase with he | ⟨version, nextState, he⟩ <;> rw [he]
    · exact h.disconnect
    · exact h.onHandshake version nextState
  | login =>
    rcases @handle_login_cases w this frame hphase with he | ⟨name, hname, he⟩ <;> rw [he]
    · exact h.disconnect
    · exact h.onLoginStart hl (fun p hp => ((hr p).players hp).1) hcard
        (length_loginStart_le hframe hname)
  | playInit =>
    refine h.handle_playInit hl (fun c p hp => ?_) hphase
    rw [(((hr p).membership c).mp hp).1]
    decide
  | play => exact h.handle_play hl hphase
  | status =>
    rw [World.handle, hphase]
    exact h.disconnect

end Steps

end Fit

/-- The clock fits its field, and a frame has come through the reader. -/
def ServerStep.Within : ServerStep → Prop
  | .connect .. => True
  | .packet _ frame _ => frame.data.length ≤ INCOMING_PACKET_MAX_LENGTH_VALUE
  | .error _ => True
  | .tick _ now => FitsInt 64 now
  | .disconnect _ => True

/-- As many players as their list can name in one frame. -/
def World.PlayersWithin (w : World) : Prop := w.globalState.players.card ≤ 2 ^ 20

instance (w : World) : Decidable w.PlayersWithin := inferInstanceAs (Decidable (_ ≤ _))

section Runs

variable {uuidGenerator : Bytes → Uuid} {machine : StateMachinePtr → StateMachine}
  {steps : List ServerStep}

theorem Fit.initial : Fit (.initial uuidGenerator machine) where
  player p hp := absurd rfl hp
  chunk c chunk hc := by cases hc
  sent p k hk := by cases hk

theorem Fit.next {w : World} (h : Fit w) (hr : ∀ p, Registry w p) (hplayers : w.PlayersWithin)
    {step : ServerStep} (hw : step.Within) (he : server.enabled w step) :
    Fit (server.next w step) := by
  cases step with
  | connect this clientSettings entityId now => exact h.connect clientSettings entityId now
  | packet this frame now =>
    refine (h.receive frame now).handle (fun p => ?_) he hplayers hw
    exact (hr p).of_unmoved (unmoved_receive frame now)
  | error => exact h.disconnect
  | tick this now => exact h.onTick hw
  | disconnect this =>
    refine h.destroy ?_
    rw [show w.life this = .live from he]
    decide

end Runs

/-! ## Through the reader -/

/-- The clock fits its field. -/
def ProxyStep.Within : ProxyStep → Prop
  | .tick order => ∀ tick ∈ order, FitsInt 64 tick.2
  | _ => True

theorem Alike.sentTo {w w' : World} (h : Alike w w') (p : StateMachinePtr) :
    w'.sentTo p = w.sentTo p := by
  obtain ⟨r, d, rfl⟩ := h
  rfl

section Runs

variable {c : ConnectionPtr} {uuidGenerator : Bytes → Uuid}
  {machine : StateMachinePtr → StateMachine} {ls : List ProxyStep}

end Runs

end Vitamine
