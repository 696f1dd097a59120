import Vitamine.Lib.Log
import Vitamine.Proxyd.Reuse

/-!
# Who sees whom

A client should be shown the players whose chunk it is subscribed to.

* `World.Sees`: who should see whom, by the registries.
* `Seen`: the client is shown exactly those it should see, and is told of the moves of those only.
* `visible_of_keepsVisible`: it is so in every state of a run with clean drops in which nobody
  changes, by new settings or by a move of its own, whether it is subscribed to the chunk of
  another player.
* `not_shown_after_settings`: a player whose settings bring the chunk of another into view.
-/

namespace Vitamine

open Wire System

/-! ## What a client is shown -/

/-- What an event says about whether the client is shown the entity. -/
def shownWrite (entityId : EntityId) : Traffic → Option Bool
  | .sent (.spawnPlayer id _ _ _ _ _ _ _) => if id = entityId then some true else none
  | .sent (.destroyEntities ids) => if entityId ∈ ids then some false else none
  | _ => none

/-- The last of the spawns and despawns of the entity is a spawn. -/
def shown (log : List Traffic) (entityId : EntityId) : Prop :=
  Log.last (shownWrite entityId) false log = true

instance (log : List Traffic) (entityId : EntityId) : Decidable (shown log entityId) :=
  inferInstanceAs (Decidable (_ = true))

/-- The packet moves, turns or changes an entity that the client is shown. -/
def UpdatesShown (pre : List Traffic) : Traffic → Prop
  | .sent packet => ∀ id, packet.updates = some id → shown pre id
  | .received _ _ => True

/-- The packet shows and hides nobody. -/
def HidesNothing (packet : ClientboundPacket) : Prop := ∀ e, shownWrite e (.sent packet) = none

section Log

variable {log : List Traffic} {packets : List ClientboundPacket} {e : EntityId}

theorem shown_append (h : ∀ k ∈ packets, shownWrite e (.sent k) = none) :
    shown (log ++ packets.map .sent) e ↔ shown log e := by
  rw [shown, Log.last_append, Log.last_of_silent (List.forall_mem_map.mpr h), shown]

theorem shown_received {phase : ClientPhase} {frame : PacketFrame} :
    shown (log ++ [.received phase frame]) e ↔ shown log e := by
  simp [shown, shownWrite]

theorem updatesShown_received {phase : ClientPhase} {frame : PacketFrame} :
    Log.Always UpdatesShown (log ++ [.received phase frame]) ↔ Log.Always UpdatesShown log := by
  rw [Log.always_snoc]
  exact and_iff_left trivial

/-- Packets that show and hide nobody, about entities that are shown. -/
theorem updatesShown_append (h : Log.Always UpdatesShown log) (hs : ∀ k ∈ packets, HidesNothing k)
    (hk : ∀ k ∈ packets, ∀ id, k.updates = some id → shown log id) :
    Log.Always UpdatesShown (log ++ packets.map .sent) := by
  refine (Log.always_append_map fun pre k hp id hid => ?_).mpr h
  rw [shown_append fun k' hk' => hs k' (hp.subset (List.mem_append_left _ hk')) id]
  exact hk k (hp.subset (by simp)) id hid

/-- Packets that are about no entity that moves. -/
theorem updatesShown_append_of_none (h : Log.Always UpdatesShown log)
    (hk : ∀ k ∈ packets, k.updates = none) :
    Log.Always UpdatesShown (log ++ packets.map .sent) := by
  refine (Log.always_append_map fun pre k hp id hid => ?_).mpr h
  rw [hk k (hp.subset (by simp))] at hid
  cases hid

/-- A list of spawns. -/
theorem shown_append_spawns (players : List StateMachinePtr) (state : StateMachinePtr → PlayerState) :
    shown (log ++ (players.map fun m => createSpawnPacket (state m)).map .sent) e ↔
      (∃ m ∈ players, (state m).entityId = e) ∨ shown log e := by
  have hw : ∀ m, shownWrite e (.sent (createSpawnPacket (state m))) =
      if (state m).entityId = e then some true else none := fun _ => rfl
  by_cases hm : ∃ m ∈ players, (state m).entityId = e
  · refine iff_of_true ?_ (.inl hm)
    obtain ⟨m, hmem, he⟩ := hm
    rw [shown, Log.last_append, List.map_map]
    refine Log.last_of_writes (List.forall_mem_map.mpr fun m _ => ?_)
      ⟨_, List.mem_map_of_mem hmem, (hw m).trans (if_pos he)⟩
    rw [Function.comp_apply, hw]
    split <;> simp
  · rw [or_iff_right hm, shown_append]
    refine List.forall_mem_map.mpr fun m hmem => (hw m).trans (if_neg fun he => hm ⟨m, hmem, he⟩)

theorem hidesNothing_of_updates {packet : ClientboundPacket} {id : EntityId}
    (h : packet.updates = some id) : HidesNothing packet := by
  cases packet <;> first | exact fun _ => rfl | cases h

end Log

/-! ## Who should see whom -/

/-- The client of `a` is subscribed to the chunk of the player `b`. -/
def World.Sees (w : World) (a b : StateMachinePtr) : Prop :=
  a ≠ b ∧ w.life b = .live ∧ w.phase b = .play ∧ a ∈ w.tracker.subscriptions (w.player b).chunk

/-- The client is shown those whom it should see, and is told of the moves of those only. -/
structure Seen (w : World) (a : StateMachinePtr) : Prop where
  shown_iff : w.life a = .live → ∀ e, shown (w.traffic a) e ↔
    ∃ b, w.Sees a b ∧ (w.player b).entityId = e
  updates : w.life a = .live → Log.Always UpdatesShown (w.traffic a)

/-- The entity ids of those who have logged in and are still there. -/
def DistinctIds (w : World) : Prop := ∀ p q, w.life p = .live → w.life q = .live → w.Joined p →
  w.Joined q → (w.player p).entityId = (w.player q).entityId → p = q

section

variable {w w' : World} {this a b p : StateMachinePtr} {frame : PacketFrame}

theorem World.Sees.live (h : w.Sees a b) : w.life b = .live := h.2.1

theorem World.Sees.joined (h : w.Sees a b) : w.Joined b := .inr h.2.2.1

theorem sees_iff_of_unmoved (ha : Unmoved w w' a) (hb : Unmoved w w' b) :
    w'.Sees a b ↔ w.Sees a b := by
  simp only [World.Sees, hb.life, hb.phase, hb.player.chunk, ha.subscriptions]

/-- A step after which the client should see the same players as before it, and in which it is told
of the moves of those only. -/
theorem Seen.of_same (h : Seen w a) (hlife : w'.life a = .live → w.life a = .live)
    (hsees : ∀ b, w'.Sees a b ↔ w.Sees a b)
    (hid : ∀ b, w.Sees a b → (w'.player b).entityId = (w.player b).entityId)
    (packets : List ClientboundPacket) (ht : w'.traffic a = w.traffic a ++ packets.map .sent)
    (hs : ∀ k ∈ packets, HidesNothing k)
    (hk : ∀ k ∈ packets, ∀ id, k.updates = some id →
      ∃ b, w.Sees a b ∧ (w.player b).entityId = id) : Seen w' a where
  shown_iff hl e := by
    rw [ht, shown_append fun k hk => hs k hk e, h.shown_iff (hlife hl)]
    constructor
    · rintro ⟨b, hb, rfl⟩
      exact ⟨b, (hsees b).mpr hb, hid b hb⟩
    · rintro ⟨b, hb, rfl⟩
      exact ⟨b, (hsees b).mp hb, (hid b ((hsees b).mp hb)).symm⟩
  updates hl := by
    rw [ht]
    refine updatesShown_append (h.updates (hlife hl)) hs fun k hmem id hupd => ?_
    exact (h.shown_iff (hlife hl) id).mpr (hk k hmem id hupd)

/-- A step of another player: it says something about the entity of that player only, and says it
right. -/
theorem Seen.of_other (h : Seen w a) (hd : DistinctIds w) (ha : a ≠ this)
    (hlife : w.life this = .live) (hj : w.Joined this) (hu : ∀ p ≠ this, Unmoved w w' p)
    (hid : (w'.player this).entityId = (w.player this).entityId)
    (packets : List ClientboundPacket) (ht : w'.traffic a = w.traffic a ++ packets.map .sent)
    (hs : ∀ k ∈ packets, ∀ e ≠ (w.player this).entityId, shownWrite e (.sent k) = none)
    (hshown : (shown (w.traffic a) (w.player this).entityId ↔ w.Sees a this) →
      (shown (w'.traffic a) (w.player this).entityId ↔ w'.Sees a this))
    (hupdates : (shown (w.traffic a) (w.player this).entityId ↔ w.Sees a this) →
      Log.Always UpdatesShown (w.traffic a) → Log.Always UpdatesShown (w'.traffic a)) :
    Seen w' a := by
  have hlive : w'.life a = .live → w.life a = .live := fun hl => (hu a ha).life ▸ hl
  -- No other player has the entity id of this one.
  have hother : ∀ b, w.Sees a b → (w.player b).entityId = (w.player this).entityId → b = this :=
    fun b hb he => hd b this hb.live hlife hb.joined hj he
  have hthis : w.life a = .live →
      (shown (w.traffic a) (w.player this).entityId ↔ w.Sees a this) := fun hl => by
    rw [h.shown_iff hl]
    constructor
    · rintro ⟨b, hb, he⟩
      rwa [← hother b hb he]
    · exact fun hb => ⟨this, hb, rfl⟩
  have hsees : ∀ b ≠ this, (w'.Sees a b ↔ w.Sees a b) ∧
      (w'.player b).entityId = (w.player b).entityId := fun b hb =>
    ⟨sees_iff_of_unmoved (hu a ha) (hu b hb), (hu b hb).player.entityId⟩
  constructor
  · intro hl e
    by_cases he : e = (w.player this).entityId
    · subst he
      rw [hshown (hthis (hlive hl))]
      constructor
      · exact fun hb => ⟨this, hb, hid⟩
      · rintro ⟨b, hb, he⟩
        by_cases hbt : b = this
        · rwa [← hbt]
        · rw [(hsees b hbt).2] at he
          exact absurd (hother b ((hsees b hbt).1.mp hb) he) hbt
    · rw [ht, shown_append fun k hk => hs k hk e he, h.shown_iff (hlive hl)]
      constructor
      · rintro ⟨b, hb, rfl⟩
        have hbt : b ≠ this := fun hbt => he (by rw [hbt])
        exact ⟨b, (hsees b hbt).1.mpr hb, (hsees b hbt).2⟩
      · rintro ⟨b, hb, rfl⟩
        have hbt : b ≠ this := fun hbt => he (by rw [hbt, hid])
        exact ⟨b, (hsees b hbt).1.mp hb, (hsees b hbt).2.symm⟩
  · exact fun hl => hupdates (hthis (hlive hl)) (h.updates (hlive hl))

/-- The subscriptions of the player to the chunks of the others are as they were. -/
theorem sees_self_iff (hu : ∀ p ≠ this, Unmoved w w' p)
    (hsub : ∀ q ≠ this, w.life q = .live → w.phase q = .play →
      (this ∈ w'.tracker.subscriptions (w.player q).chunk ↔
        this ∈ w.tracker.subscriptions (w.player q).chunk)) (b : StateMachinePtr) :
    w'.Sees this b ↔ w.Sees this b := by
  unfold World.Sees
  refine and_congr_right fun hne => ?_
  have hb := hu b (Ne.symm hne)
  rw [hb.life, hb.phase, hb.player.chunk]
  exact and_congr_right fun hl => and_congr_right fun hp => hsub b (Ne.symm hne) hl hp

/-- The player is in `PLAY` neither before nor after the step. -/
theorem sees_iff_of_not_play (hu : ∀ p ≠ this, Unmoved w w' p) (ha : a ≠ this)
    (hp : w.phase this ≠ .play) (hp' : w'.phase this ≠ .play) (b : StateMachinePtr) :
    w'.Sees a b ↔ w.Sees a b := by
  by_cases hb : b = this
  · subst hb
    exact iff_of_false (fun h => hp' h.2.2.1) fun h => hp h.2.2.1
  · exact sees_iff_of_unmoved (hu a ha) (hu b hb)

/-- The player stays where it is. -/
theorem sees_iff_of_stays (hu : ∀ p ≠ this, Unmoved w w' p) (ha : a ≠ this)
    (hlife : w'.life this = w.life this) (hphase : w'.phase this = w.phase this)
    (hchunk : (w'.player this).chunk = (w.player this).chunk) (b : StateMachinePtr) :
    w'.Sees a b ↔ w.Sees a b := by
  by_cases hb : b = this
  · subst hb
    simp only [World.Sees, hlife, hphase, hchunk, (hu a ha).subscriptions]
  · exact sees_iff_of_unmoved (hu a ha) (hu b hb)

theorem hidesNothing_quiet {q : StateMachinePtr} {k : ClientboundPacket}
    (h : QuietPacket w this q k) : HidesNothing k := by
  cases h with
  | update _ _ _ hid => exact hidesNothing_of_updates hid
  | _ => exact fun _ => rfl

theorem Seen.of_quiet (h : Seen w a) (hlive : w.life this = .live) (hq : Quiet this w w') :
    Seen w' a := by
  obtain ⟨ks, ht, hks⟩ := hq.traffic a
  refine h.of_same (fun hl => hq.life ▸ hl)
    (fun b => sees_iff_of_unmoved hq.toSkeleton.unmoved hq.toSkeleton.unmoved)
    (fun b _ => (hq.player b).entityId) ks ht (fun k hk => hidesNothing_quiet (hks k hk))
    fun k hk id hid => ?_
  cases hks k hk with
  | update hplay hne hsub hupd =>
    rw [hupd] at hid
    exact ⟨this, ⟨hne, hlive, hplay, hsub⟩, Option.some.inj hid⟩
  | _ => cases hid

/-- The player that enters is shown to those who are subscribed to its chunk. -/
theorem Seen.onTeleportConfirm_ne (h : Seen w a) (hd : DistinctIds w) (ha : a ≠ this)
    (hlive : w.life this = .live) (hinit : w.phase this = .playInit)
    {id : BitVec 32} (hu : ∀ p ≠ this, Unmoved w (w.onTeleportConfirm this id) p) :
    Seen (w.onTeleportConfirm this id) a := by
  have hplayer : ((w.onTeleportConfirm this id).player this).entityId =
      (w.player this).entityId := by
    rw [World.onTeleportConfirm_eq, World.enterPlay_player, World.confirmed_player,
      Function.update_self]
  have ht := onTeleportConfirm_traffic_ne hinit id ha
  have hsees : (w.onTeleportConfirm this id).Sees a this ↔
      a ∈ w.tracker.subscriptions (w.player this).chunk := by
    simp [World.Sees, World.onTeleportConfirm_eq, ha, hlive]
  refine h.of_other hd ha hlive (.inl hinit) hu hplayer _ ht ?_ (fun hs => ?_)
    fun _ hupd => ?_
  · intro k hk e he
    split at hk
    · obtain rfl := List.mem_singleton.mp hk
      exact if_neg (Ne.symm he)
    · cases hk
  · have hno : ¬ w.Sees a this := fun hsee => by
      rw [World.Sees, hinit] at hsee
      cases hsee.2.2.1
    rw [ht, hsees]
    split <;> rename_i hsub
    · exact iff_of_true (by simp [shown, shownWrite, createSpawnPacket]) hsub
    · exact iff_of_false (by simpa [hno] using hs) hsub
  · rw [ht]
    refine updatesShown_append_of_none hupd fun k hk => ?_
    split at hk
    · obtain rfl := List.mem_singleton.mp hk
      rfl
    · cases hk

/-- The player that enters is shown the members of the chunks in its view. -/
theorem Seen.onTeleportConfirm_self (h : Seen w this) (hr : ∀ p, Registry w p)
    (hlive : w.life this = .live) (hinit : w.phase this = .playInit) {id : BitVec 32}
    (hu : ∀ p ≠ this, Unmoved w (w.onTeleportConfirm this id) p) :
    Seen (w.onTeleportConfirm this id) this := by
  have ht := onTeleportConfirm_traffic_self hinit id
  have hhides : ∀ k ∈ (if id ∈ (w.player this).outstandingTeleportIds then []
      else [ClientboundPacket.disconnectLogin (chat.plainText
        (spanFromCString "PacketTeleportConfirm: invalid teleport id"))]),
      HidesNothing k ∧ k.updates = none := by
    split
    · simp
    · simp [HidesNothing, shownWrite, ClientboundPacket.updates]
  rw [List.map_append, ← List.append_assoc] at ht
  have hsees : ∀ b, (w.onTeleportConfirm this id).Sees this b ↔ w.Sees this b ∨
      b ∈ (w.confirmed this id).visiblePlayers this := by
    intro b
    rw [mem_visiblePlayers_confirmed hr]
    unfold World.Sees
    by_cases hb : b = this
    · subst hb
      simp
    · have hub := hu b hb
      rw [hub.life, hub.phase, hub.player.chunk, World.onTeleportConfirm_eq, World.enterPlay_tracker,
        PlayerTracker.mem_subscriptions_enter, World.confirmed_tracker, World.confirmed_chunk,
        World.confirmed_viewDistance]
      constructor
      · rintro ⟨hne, hl, hp, hsub | ⟨-, hw⟩⟩
        · exact .inl ⟨hne, hl, hp, hsub⟩
        · exact .inr ⟨hb, hl, hp, hw⟩
      · rintro (⟨hne, hl, hp, hsub⟩ | ⟨-, hl, hp, hw⟩)
        · exact ⟨hne, hl, hp, .inl hsub⟩
        · exact ⟨Ne.symm hb, hl, hp, .inr ⟨rfl, hw⟩⟩
  have hid : ∀ b, ((w.onTeleportConfirm this id).player b).entityId =
      ((w.confirmed this id).player b).entityId := fun b => by
    rw [World.onTeleportConfirm_eq, World.enterPlay_player]
  have hid' : ∀ b, ((w.confirmed this id).player b).entityId = (w.player b).entityId := fun b => by
    rw [World.confirmed_player]
    by_cases hb : b = this
    · subst hb
      rw [Function.update_self]
    · rw [Function.update_of_ne hb]
  constructor
  · intro _ e
    rw [ht, shown_append_spawns, shown_append fun k hk => (hhides k hk).1 e, h.shown_iff hlive]
    simp only [hsees, hid, hid', or_and_right, exists_or]
    exact or_comm
  · intro _
    rw [ht]
    refine updatesShown_append_of_none (updatesShown_append_of_none (h.updates hlive)
      fun k hk => (hhides k hk).2) (List.forall_mem_map.mpr fun _ _ => rfl)

/-- What those who see the player before and after a move are sent is about the player. -/
theorem updates_of_move {s : PlayerState} {oldPosition : EntityCoord} {rotate : Bool}
    {k : ClientboundPacket} (hk : k ∈ createMovePacket s oldPosition rotate ::
      (if rotate then [createHeadLookPacket s] else [])) : k.updates = some s.entityId := by
  rcases List.mem_cons.mp hk with rfl | hk
  · exact updates_createMovePacket _ _ _
  · split at hk
    · obtain rfl := List.mem_singleton.mp hk
      rfl
    · cases hk

/-- The two ends of a move for somebody else. -/
theorem Seen.onChunkTransition_ne (h : Seen w a) (hd : DistinctIds w) (ha : a ≠ this)
    (hlive : w.life this = .live) (hplay : w.phase this = .play) {s : PlayerState}
    (hs : (w.player this).Keeps s) {rotate : Bool}
    (hu : ∀ p ≠ this, Unmoved w ((w.setPlayer this s).onChunkTransition this (w.player this).chunk
      s.chunk (w.player this).position rotate) p) :
    Seen ((w.setPlayer this s).onChunkTransition this (w.player this).chunk s.chunk
      (w.player this).position rotate) a := by
  have ht := World.onChunkTransition_traffic_ne (w.setPlayer this s) this (w.player this).chunk
    s.chunk (w.player this).position rotate ha
  have hstate : (w.setPlayer this s).player this = s := by
    rw [World.setPlayer_player, Function.update_self]
  have hsees : w.Sees a this ↔ a ∈ w.tracker.subscriptions (w.player this).chunk := by
    simp [World.Sees, ha, hlive, hplay]
  have hsees' : ((w.setPlayer this s).onChunkTransition this (w.player this).chunk s.chunk
      (w.player this).position rotate).Sees a this ↔ a ∈ w.tracker.subscriptions s.chunk := by
    simp [World.Sees, ha, hlive, hplay, World.onChunkTransition_tracker]
  have hmove : ∀ k ∈ createMovePacket s (w.player this).position rotate ::
      (if rotate then [createHeadLookPacket s] else []),
      k.updates = some (w.player this).entityId := fun k hk => hs.entityId ▸ updates_of_move hk
  have hid : (((w.setPlayer this s).onChunkTransition this (w.player this).chunk s.chunk
      (w.player this).position rotate).player this).entityId = (w.player this).entityId := by
    simp [hs.entityId]
  rw [World.setPlayer_traffic] at ht
  unfold World.movePackets at ht
  simp only [World.setPlayer_tracker, hstate] at ht
  by_cases hstart : a ∈ w.tracker.subscriptions (w.player this).chunk <;>
    by_cases htarget : a ∈ w.tracker.subscriptions s.chunk
  · rw [if_pos hstart, if_pos htarget] at ht
    refine h.of_other hd ha hlive (.inr hplay) hu hid _ ht
      (fun k hk e _ => hidesNothing_of_updates (hmove k hk) e) (fun hsh => ?_) fun hsh hupd => ?_
    · rw [ht, shown_append fun k hk => hidesNothing_of_updates (hmove k hk) _, hsh, hsees, hsees']
      exact iff_of_true hstart htarget
    · rw [ht]
      refine updatesShown_append hupd (fun k hk => hidesNothing_of_updates (hmove k hk))
        fun k hk id hk' => ?_
      rw [hmove k hk] at hk'
      rw [← Option.some.inj hk', hsh, hsees]
      exact hstart
  · rw [if_pos hstart, if_neg htarget] at ht
    refine h.of_other hd ha hlive (.inr hplay) hu hid _ ht ?_ (fun _ => ?_) fun _ hupd => ?_
    · simp only [List.mem_singleton, forall_eq, createDespawnPacket, shownWrite, hs.entityId]
      exact fun e he => if_neg he
    · rw [ht, hsees']
      simp [shown, shownWrite, createDespawnPacket, hs.entityId, htarget]
    · rw [ht]
      exact updatesShown_append_of_none hupd (by simp [createDespawnPacket,
        ClientboundPacket.updates])
  · rw [if_neg hstart, if_pos htarget] at ht
    refine h.of_other hd ha hlive (.inr hplay) hu hid _ ht ?_ (fun _ => ?_) fun _ hupd => ?_
    · simp only [List.mem_singleton, forall_eq, createSpawnPacket, shownWrite, hs.entityId]
      exact fun e he => if_neg (Ne.symm he)
    · rw [ht, hsees']
      simp [shown, shownWrite, createSpawnPacket, hs.entityId, htarget]
    · rw [ht]
      exact updatesShown_append_of_none hupd (by simp [createSpawnPacket,
        ClientboundPacket.updates])
  · rw [if_neg hstart, if_neg htarget] at ht
    refine h.of_other hd ha hlive (.inr hplay) hu hid _ ht (by simp) (fun hsh => ?_)
      fun _ hupd => ?_
    · rw [ht, shown_append (by simp), hsh, hsees, hsees']
      exact iff_of_false hstart htarget
    · rw [ht]
      exact updatesShown_append_of_none hupd (by simp)

/-! ## Steps that keep it -/

/-- Streaming these chunks changes nothing about whether the player is subscribed to the chunk. -/
def KeepsSubscription (w : World) (this : StateMachinePtr) (unloads loads : List ChunkCoord)
    (c : ChunkCoord) : Prop :=
  (c ∈ unloads → this ∉ w.tracker.subscriptions c) ∧ (c ∈ loads → this ∈ w.tracker.subscriptions c)

instance (w : World) (this : StateMachinePtr) (unloads loads : List ChunkCoord) (c : ChunkCoord) :
    Decidable (KeepsSubscription w this unloads loads c) :=
  inferInstanceAs (Decidable (_ ∧ _))

/-- The same of the chunk of every other player in `PLAY`. -/
def KeepsSeen (w : World) (this : StateMachinePtr) (unloads loads : List ChunkCoord) : Prop :=
  ∀ q ∈ w.globalState.players, q ≠ this → w.life q = .live → w.phase q = .play →
    KeepsSubscription w this unloads loads (w.player q).chunk

instance (w : World) (this : StateMachinePtr) (unloads loads : List ChunkCoord) :
    Decidable (KeepsSeen w this unloads loads) :=
  inferInstanceAs (Decidable (∀ q ∈ w.globalState.players, _))

/-- A login gets an entity id that nobody has, and neither new settings nor a move of a player
change whether it is subscribed to the chunk of another player in `PLAY`. -/
def KeepsVisible (w : World) : ServerStep → Prop
  | .packet this frame _ =>
    (w.phase this = .login → loginStartOf frame ≠ none → ∀ q ∈ w.globalState.players,
      w.life q = .live → (w.player q).entityId ≠ w.globalState.nextEntityId) ∧
    (w.Joined this → ∀ packet ∈ settingsOf frame,
      KeepsSeen w this (w.settingsUnloads this packet) (w.settingsLoads this packet)) ∧
    (w.phase this = .play → ∀ position ∈ positionOf frame,
      KeepsSeen w this
        (chunksOutside (w.player this).chunk (coordCast position) (w.player this).viewDistance)
        (chunksOutside (coordCast position) (w.player this).chunk (w.player this).viewDistance))
  | _ => True

instance (w : World) : (step : ServerStep) → Decidable (KeepsVisible w step)
  | .packet _ _ _ => inferInstanceAs (Decidable (_ ∧ _ ∧ _))
  | .connect _ _ _ _ | .error _ | .tick _ _ | .disconnect _ => isTrue trivial

theorem hidesNothing_streamPackets {unloads loads : List ChunkCoord} {k : ClientboundPacket}
    (hk : k ∈ w.streamPackets unloads loads) : HidesNothing k ∧ k.updates = none :=
  w.forall_streamPackets (P := fun k => HidesNothing k ∧ k.updates = none)
    (fun _ => ⟨fun _ => rfl, rfl⟩) (fun _ _ => ⟨fun _ => rfl, rfl⟩) k hk

theorem hidesNothing_loginPackets {name : Bytes} {k : ClientboundPacket}
    (hk : k ∈ w.loginPackets this name) : HidesNothing k ∧ k.updates = none := by
  simp only [World.loginPackets, List.mem_cons, List.not_mem_nil, or_false] at hk
  rcases hk with rfl | rfl | rfl | rfl | rfl | rfl | rfl <;> exact ⟨fun _ => rfl, rfl⟩

/-- Packets about no entity, after which the client should see the same players. -/
theorem Seen.of_unrelated (h : Seen w a) (hlife : w'.life a = .live → w.life a = .live)
    (hsees : ∀ b, w'.Sees a b ↔ w.Sees a b)
    (hid : ∀ b, w.Sees a b → (w'.player b).entityId = (w.player b).entityId)
    (packets : List ClientboundPacket) (ht : w'.traffic a = w.traffic a ++ packets.map .sent)
    (hk : ∀ k ∈ packets, HidesNothing k ∧ k.updates = none) : Seen w' a :=
  h.of_same hlife hsees hid packets ht (fun k hmem => (hk k hmem).1) fun k hmem id hupd => by
    rw [(hk k hmem).2] at hupd
    cases hupd

/-- A frame of somebody else. -/
theorem Seen.effect_ne (h : Seen w a) (hd : DistinctIds w) (ha : a ≠ this)
    (hlive : w.life this = .live) (he : Effect w this frame w') : Seen w' a := by
  have hu : ∀ p ≠ this, Unmoved w w' p := fun p hp => he.unmoved hp
  have hlife : w'.life a = .live → w.life a = .live := fun hl => he.life ▸ hl
  have hid : w.phase this ≠ .play → ∀ b, w.Sees a b →
      (w'.player b).entityId = (w.player b).entityId := fun hp b hb =>
    (hu b fun hbt => hp (hbt ▸ hb.2.2.1)).player.entityId
  cases he with
  | quiet _ _ hq => exact h.of_quiet hlive hq
  | phase hinit hnew =>
    have hp : w.phase this ≠ .play := by rw [hinit]; decide
    refine h.of_unrelated hlife (sees_iff_of_not_play hu ha hp ?_) (hid hp) [] (by simp) (by simp)
    rcases hnew with rfl | rfl <;> simp
  | login hlogin =>
    have hp : w.phase this ≠ .play := by rw [hlogin]; decide
    refine h.of_unrelated hlife (sees_iff_of_not_play hu ha hp (by simp)) (hid hp) _
      (World.onLoginStart_traffic_ne w this _ ha) fun k hk => ?_
    split at hk
    · obtain rfl := List.mem_singleton.mp hk
      exact ⟨fun _ => rfl, rfl⟩
    · cases hk
  | confirm hinit => exact h.onTeleportConfirm_ne hd ha hlive hinit hu
  | settingsInit hinit =>
    have hp : w.phase this ≠ .play := by rw [hinit]; decide
    exact h.of_unrelated hlife (sees_iff_of_not_play hu ha hp (by simpa using hp)) (hid hp) []
      (by rw [World.onSettingsInPlayInit_traffic, Function.update_of_ne ha]; simp) (by simp)
  | @settings packet hplay =>
    refine h.of_unrelated hlife (sees_iff_of_stays hu ha (by simp) (by simp)
      (World.onClientSettingsChange_chunk _ _ _ _)) (fun b _ => ?_) []
      (by rw [World.onClientSettingsChange_traffic, Function.update_of_ne ha]; simp) (by simp)
    by_cases hb : b = this
    · subst hb
      rw [World.onClientSettingsChange_player, Function.update_self]
      rfl
    · exact (hu b hb).player.entityId
  | transition hplay hs => exact h.onChunkTransition_ne hd ha hlive hplay hs hu
  | @dig location hplay =>
    refine h.of_unrelated hlife (sees_iff_of_stays hu ha (by simp) (by simp) (by simp))
      (fun b _ => by simp) _ (World.startDigging_traffic w this location) fun k hk => ?_
    split at hk
    · obtain rfl := List.mem_singleton.mp hk
      exact ⟨fun _ => rfl, rfl⟩
    · cases hk

theorem mem_subscriptions_of_keepsSeen (hr : ∀ p, Registry w p) {unloads loads : List ChunkCoord}
    (hk : KeepsSeen w this unloads loads)
    (hsub : ∀ c, this ∈ w'.tracker.subscriptions c ↔
      this ∈ w.tracker.subscriptions c ∧ c ∉ unloads ∨ c ∈ loads) :
    ∀ q ≠ this, w.life q = .live → w.phase q = .play →
      (this ∈ w'.tracker.subscriptions (w.player q).chunk ↔
        this ∈ w.tracker.subscriptions (w.player q).chunk) := by
  intro q hq hl hp
  obtain ⟨hunload, hload⟩ := hk q ((hr q).joined hl (.inr hp)) hq hl hp
  rw [hsub]
  constructor
  · rintro (⟨hs, -⟩ | hl)
    · exact hs
    · exact hload hl
  · exact fun hs => .inl ⟨hs, fun hu => hunload hu hs⟩

/-- A frame of the client itself. -/
theorem Seen.effect_self (h : Seen w this) (hr : ∀ p, Registry w p) (hlive : w.life this = .live)
    {now : Int} (hok : KeepsVisible w (.packet this frame now)) (he : Effect w this frame w') :
    Seen w' this := by
  have hu : ∀ p ≠ this, Unmoved w w' p := fun p hp => he.unmoved hp
  have hlife : w'.life this = .live → w.life this = .live := fun hl => he.life ▸ hl
  have hid : ∀ b, w.Sees this b → (w'.player b).entityId = (w.player b).entityId := fun b hb =>
    (hu b (Ne.symm hb.1)).player.entityId
  -- The tracker is as it was.
  have hsees : w'.tracker = w.tracker → ∀ b, w'.Sees this b ↔ w.Sees this b := fun ht =>
    sees_self_iff hu fun q _ _ _ => by rw [ht]
  cases he with
  | quiet _ _ hq => exact h.of_quiet hlive hq
  | phase => exact h.of_unrelated hlife (hsees rfl) hid [] (by simp) (by simp)
  | login =>
    exact h.of_unrelated hlife (hsees (by simp)) hid _ (World.onLoginStart_traffic_self _ _ _)
      fun k hk => hidesNothing_loginPackets hk
  | confirm hinit => exact h.onTeleportConfirm_self hr hlive hinit hu
  | @settingsInit packet hinit hframe =>
    have hk := hok.2.1 (.inl hinit) packet hframe
    refine h.of_unrelated hlife (sees_self_iff hu (mem_subscriptions_of_keepsSeen hr hk fun c => ?_))
      hid _ (by rw [World.onSettingsInPlayInit_traffic, Function.update_self]) fun k hk => ?_
    · rw [World.onSettingsInPlayInit_tracker, World.mem_subscriptions_onClientSettingsChange]
      simp
    · exact w.forall_settingsInPlayInitPackets this packet
        (P := fun k => HidesNothing k ∧ k.updates = none) (fun _ => ⟨fun _ => rfl, rfl⟩)
        (fun _ _ => ⟨fun _ => rfl, rfl⟩) (fun _ => ⟨fun _ => rfl, rfl⟩)
        (fun _ _ _ _ _ _ _ => ⟨fun _ => rfl, rfl⟩) k hk
  | @settings packet hplay hframe =>
    have hk := hok.2.1 (.inr hplay) packet hframe
    refine h.of_unrelated hlife (sees_self_iff hu (mem_subscriptions_of_keepsSeen hr hk fun c => ?_))
      hid _ (by rw [World.onClientSettingsChange_traffic, Function.update_self])
      fun k hk => hidesNothing_streamPackets hk
    rw [World.mem_subscriptions_onClientSettingsChange]
    simp
  | @transition s rotate hplay hs _ hmove =>
    have hk := hok.2.2 hplay s.position hmove
    refine h.of_unrelated hlife (sees_self_iff hu (mem_subscriptions_of_keepsSeen hr hk fun c => ?_))
      hid _ (World.onChunkTransition_traffic_self _ _ _ _ _ _) fun k hk => ?_
    · have hchunk : (coordCast s.position : ChunkCoord) = s.chunk := rfl
      simp [World.onChunkTransition_tracker, hs.viewDistance, hchunk]
    · rcases List.mem_append.mp hk with hk | hk
      · exact hidesNothing_streamPackets hk
      · obtain rfl := List.mem_singleton.mp hk
        exact ⟨fun _ => rfl, rfl⟩
  | dig =>
    exact h.of_unrelated hlife (hsees (by simp)) hid [] (by rw [World.startDigging_traffic]; simp)
      (by simp)

/-- Only the entity id of the player of the step has to be compared. -/
theorem DistinctIds.of_unmoved (h : DistinctIds w) (hu : ∀ p ≠ this, Unmoved w w' p)
    (hthis : w'.life this = .live → w'.Joined this → ∀ q ≠ this, w.life q = .live → w.Joined q →
      (w.player q).entityId ≠ (w'.player this).entityId) : DistinctIds w' := by
  have hother : ∀ q ≠ this, w'.life q = .live → w'.Joined q →
      w.life q = .live ∧ w.Joined q ∧ (w'.player q).entityId = (w.player q).entityId :=
    fun q hq hl hj => by
      have huq := hu q hq
      rw [huq.life] at hl
      rw [World.Joined, huq.phase] at hj
      exact ⟨hl, hj, huq.player.entityId⟩
  intro p q hlp hlq hjp hjq he
  by_cases hp : p = this <;> by_cases hq : q = this
  · rw [hp, hq]
  · subst hp
    obtain ⟨hl, hj, hid⟩ := hother q hq hlq hjq
    exact absurd (hid ▸ he.symm) (hthis hlp hjp q hq hl hj)
  · subst hq
    obtain ⟨hl, hj, hid⟩ := hother p hp hlp hjp
    exact absurd (hid ▸ he) (hthis hlq hjq p hp hl hj)
  · obtain ⟨hl, hj, hid⟩ := hother p hp hlp hjp
    obtain ⟨hl', hj', hid'⟩ := hother q hq hlq hjq
    exact h p q hl hl' hj hj' (by rw [← hid, ← hid', he])

/-- The player has the entity id that it had when it logged in. -/
theorem DistinctIds.of_same (h : DistinctIds w) (hu : ∀ p ≠ this, Unmoved w w' p)
    (hlive : w.life this = .live) (hj : w'.Joined this → w.Joined this)
    (hid : (w'.player this).entityId = (w.player this).entityId) : DistinctIds w' :=
  h.of_unmoved hu fun _ hj' q hq hl hjq he =>
    hq (h q this hl hlive hjq (hj hj') (he.trans hid))

theorem DistinctIds.effect (h : DistinctIds w) (hr : ∀ p, Registry w p)
    (hlive : w.life this = .live) {now : Int}
    (hok : KeepsVisible w (.packet this frame now)) (he : Effect w this frame w') :
    DistinctIds w' := by
  have hu : ∀ p ≠ this, Unmoved w w' p := fun p hp => he.unmoved hp
  cases he with
  | quiet _ _ hq =>
    exact h.of_same hu hlive (by rw [World.Joined, hq.phase]; exact id) (hq.player this).entityId
  | phase hinit hnew =>
    refine h.of_same hu hlive (fun hj => ?_) (by simp)
    rcases hnew with rfl | rfl <;> simp [World.Joined] at hj
  | login hlogin hframe =>
    refine h.of_unmoved hu fun _ _ q _ hl hj => ?_
    rw [World.onLoginStart_player, Function.update_self]
    exact hok.1 hlogin (by simp [hframe]) q ((hr q).joined hl hj) hl
  | confirm hinit =>
    refine h.of_same hu hlive (fun _ => .inl hinit) ?_
    rw [World.onTeleportConfirm_eq, World.enterPlay_player, World.confirmed_player,
      Function.update_self]
  | settingsInit hinit =>
    refine h.of_same hu hlive (fun _ => .inl hinit) ?_
    rw [World.onSettingsInPlayInit_player, Function.update_self]
    rfl
  | settings hplay =>
    refine h.of_same hu hlive (fun _ => .inr hplay) ?_
    rw [World.onClientSettingsChange_player, Function.update_self]
    rfl
  | transition hplay hs => exact h.of_same hu hlive (fun _ => .inr hplay) (by simp [hs.entityId])
  | dig hplay => exact h.of_same hu hlive (fun _ => .inr hplay) (by simp)

theorem distinctIds_receive (h : DistinctIds w) (frame : PacketFrame) (now : Int) :
    DistinctIds (w.receive this frame now) := by
  simpa [DistinctIds, World.Joined] using h

theorem Seen.receive (h : Seen w a) (frame : PacketFrame) (now : Int) :
    Seen (w.receive this frame now) a := by
  have hsees : ∀ b, (w.receive this frame now).Sees a b ↔ w.Sees a b := fun b => by
    simp [World.Sees]
  have htraffic : (∀ e, shown ((w.receive this frame now).traffic a) e ↔ shown (w.traffic a) e) ∧
      (Log.Always UpdatesShown ((w.receive this frame now).traffic a) ↔
        Log.Always UpdatesShown (w.traffic a)) := by
    rw [receive_traffic]
    by_cases ha : a = this
    · subst ha
      rw [Function.update_self]
      exact ⟨fun e => shown_received, updatesShown_received⟩
    · rw [Function.update_of_ne ha]
      exact ⟨fun e => .rfl, .rfl⟩
  constructor
  · simpa only [htraffic.1, hsees, receive_player, receive_life] using h.shown_iff
  · simpa only [htraffic.2, receive_life] using h.updates

theorem keepsVisible_receive {now : Int} (hok : KeepsVisible w (.packet this frame now)) :
    KeepsVisible (w.receive this frame now) (.packet this frame now) := by
  simpa [KeepsVisible, KeepsSeen, KeepsSubscription, World.Joined] using hok

/-- The player that drops is taken from those who see it. -/
theorem Seen.destroy (h : Seen w a) (hd : DistinctIds w) (hlive : w.life this = .live)
    (hu : ∀ p ≠ this, Unmoved w (w.destroy this) p) : Seen (w.destroy this) a := by
  by_cases ha : a = this
  · subst ha
    constructor <;> simp
  have hsees' : ¬ (w.destroy this).Sees a this := fun hs => by
    have := hs.live
    simp at this
  have ht := World.destroy_traffic_ne w this ha
  by_cases hplay : w.phase this = .play
  · rw [if_pos hplay, World.leavePackets] at ht
    have hplayers : ∀ k ∈ (if a ∈ w.globalState.players then
        [ClientboundPacket.playerInfo ⟨.removePlayer, [⟨(w.player this).uuid, .removePlayer⟩]⟩]
        else []), HidesNothing k ∧ k.updates = none := by
      intro k hk
      split at hk
      · obtain rfl := List.mem_singleton.mp hk
        exact ⟨fun _ => rfl, rfl⟩
      · cases hk
    have hdespawn : ∀ k ∈ (if a ∈ w.tracker.subscriptions (w.player this).chunk then
        [createDespawnPacket (w.player this)] else []),
        (∀ e ≠ (w.player this).entityId, shownWrite e (.sent k) = none) ∧ k.updates = none := by
      intro k hk
      split at hk
      · obtain rfl := List.mem_singleton.mp hk
        exact ⟨fun e he => by simp [shownWrite, createDespawnPacket, he], rfl⟩
      · cases hk
    refine h.of_other hd ha hlive (.inr hplay) hu (by simp) _ ht (fun k hk e he => ?_)
      (fun hsh => ?_) fun _ hupd => ?_
    · rcases List.mem_append.mp hk with hk | hk
      · exact (hdespawn k hk).1 e he
      · exact (hplayers k hk).1 e
    · rw [ht, List.map_append, ← List.append_assoc, shown_append fun k hk => (hplayers k hk).1 _]
      refine iff_of_false ?_ hsees'
      split <;> rename_i hsub
      · simp [shown, shownWrite, createDespawnPacket]
      · rw [List.map_nil, List.append_nil, hsh]
        exact fun hs => hsub hs.2.2.2
    · rw [ht]
      refine updatesShown_append_of_none hupd fun k hk => ?_
      rcases List.mem_append.mp hk with hk | hk
      · exact (hdespawn k hk).2
      · exact (hplayers k hk).2
  · rw [if_neg hplay] at ht
    exact h.of_unrelated (fun hl => (hu a ha).life ▸ hl)
      (sees_iff_of_not_play hu ha hplay (by simpa using hplay)) (fun b _ => by simp) [] ht (by simp)

/-- A new connection sees nobody and is seen by nobody. -/
theorem Seen.connect (h : Seen w a) (hb : Base w) (hunused : w.life this = .unused)
    (clientSettings : ClientSettings) (entityId : EntityId) (now : Int)
    (hu : ∀ p ≠ this, Unmoved w (w.connect this clientSettings entityId now) p) :
    Seen (w.connect this clientSettings entityId now) a := by
  have hthis : ¬ (w.connect this clientSettings entityId now).Sees a this := fun hs => by
    have := hs.2.2.1
    simp at this
  by_cases ha : a = this
  · subst ha
    have ht : w.traffic a = [] := hb.untouched a hunused
    have hno : ∀ b, ¬ (w.connect a clientSettings entityId now).Sees a b := fun b hs =>
      absurd hunused ((hb.registry a).subscriptions hs.2.2.2).1
    constructor
    · intro _ e
      simp [ht, shown, hno]
    · intro _
      rw [connect_traffic, ht]
      exact Log.always_nil
  · refine h.of_unrelated (fun hl => (hu a ha).life ▸ hl) (fun b => ?_) (fun b hs => ?_) []
      (by simp) (by simp)
    · by_cases hbt : b = this
      · subst hbt
        exact iff_of_false hthis fun hs => by
          have := hs.live
          rw [hunused] at this
          cases this
      · exact sees_iff_of_unmoved (hu a ha) (hu b hbt)
    · refine (hu b fun hbt => ?_).player.entityId
      have := hs.live
      rw [hbt, hunused] at this
      cases this

theorem Seen.onTick (h : Seen w a) (hlive : w.life this = .live) (now : Int) :
    Seen (w.onTick this now) a := by
  have hu : ∀ p, Unmoved w (w.onTick this now) p := fun p => unmoved_onTick now
  rcases onTick_cases w this now with ⟨-, hq⟩ | ⟨⟨hinit, ht⟩, -⟩
  · exact h.of_quiet hlive hq
  · obtain ⟨ks, hks, hk⟩ : ∃ ks : List ClientboundPacket,
        (w.onTick this now).traffic a = w.traffic a ++ ks.map .sent ∧
          ∀ k ∈ ks, HidesNothing k ∧ k.updates = none := by
      rw [onTick_traffic_of_timeout w this now hinit ht]
      by_cases ha : a = this
      · subst ha
        exact ⟨[_], Function.update_self _ _ _, by
          simp [HidesNothing, shownWrite, ClientboundPacket.updates]⟩
      · exact ⟨[], by rw [Function.update_of_ne ha]; simp, by simp⟩
    exact h.of_unrelated (fun hl => (hu a).life ▸ hl) (fun b => sees_iff_of_unmoved (hu a) (hu b))
      (fun b _ => (hu b).player.entityId) ks hks hk

/-- Where nobody is, nobody sees, and nobody is seen. -/
theorem sees_free (hfree : w.life this ≠ .live) : (w.free this).Sees a b ↔ w.Sees a b := by
  simp only [World.Sees, free_live_iff hfree, free_phase, free_tracker, free_player]

theorem Seen.free (h : Seen w a) (hfree : w.life this ≠ .live) : Seen (w.free this) a where
  shown_iff hl e := by
    have hlive : w.life a = .live := (free_live_iff hfree).mp hl
    rw [free_traffic_of_live hfree hlive, h.shown_iff hlive]
    exact exists_congr fun b => and_congr_left fun _ => (sees_free hfree).symm
  updates hl := by
    have hlive : w.life a = .live := (free_live_iff hfree).mp hl
    rw [free_traffic_of_live hfree hlive]
    exact h.updates hlive

theorem DistinctIds.free (h : DistinctIds w) (hfree : w.life this ≠ .live) :
    DistinctIds (w.free this) := by
  intro p q hp hq
  exact h p q ((free_live_iff hfree).mp hp) ((free_live_iff hfree).mp hq)

theorem visible_next {step : ServerStep} (hb : Base w) (hd : DistinctIds w) (h : ∀ a, Seen w a)
    (he : server.enabled w step) (hok : KeepsVisible w step) :
    DistinctIds (server.next w step) ∧ ∀ a, Seen (server.next w step) a := by
  have hu : ∀ p ≠ step.subject, Unmoved w (server.next w step) p := fun p hp => next_unmoved hp
  cases step with
  | connect this clientSettings entityId now =>
    refine ⟨hd.of_unmoved hu fun _ hj => ?_,
      fun a => (h a).connect hb he clientSettings entityId now hu⟩
    simp [World.Joined, ServerStep.subject] at hj
  | packet this frame now =>
    have heff := handle_effect (w.receive this frame now) this frame
    have hd' : DistinctIds (w.receive this frame now) := distinctIds_receive hd frame now
    have hok' := keepsVisible_receive hok
    have hr := hb.registry_receive this frame now
    refine ⟨hd'.effect hr he hok' heff, fun a => ?_⟩
    by_cases ha : a = this
    · subst ha
      exact ((h a).receive frame now).effect_self hr he hok' heff
    · exact ((h a).receive frame now).effect_ne hd' ha he heff
  | error =>
    exact ⟨hd, fun a => (h a).of_unrelated id (fun _ => .rfl) (fun _ _ => rfl) [] (by simp) (by simp)⟩
  | tick this now =>
    have hut : Unmoved w (w.onTick this now) this := unmoved_onTick now
    refine ⟨hd.of_same hu he (fun hj => ?_) hut.player.entityId, fun a => (h a).onTick he now⟩
    rwa [World.Joined, ServerStep.subject, next_tick, hut.phase] at hj
  | disconnect this =>
    refine ⟨hd.of_unmoved hu fun hl => ?_, fun a => (h a).destroy hd he hu⟩
    simp [ServerStep.subject] at hl

end

/-! ## Runs -/

/-- A client in `PLAY` is shown another player in `PLAY` if and only if it is a subscriber of the
chunk of that player, and every client is told of the moves of those only that it is shown. -/
def Visible (w : World) : Prop :=
  (∀ a b, a ≠ b → w.life a = .live → w.life b = .live → w.phase a = .play → w.phase b = .play →
    (shown (w.traffic a) (w.player b).entityId ↔
      a ∈ w.tracker.subscribers (coordCast (w.player b).position))) ∧
  ∀ a, w.life a = .live → Log.Always UpdatesShown (w.traffic a)

theorem visible_of_seen {w : World} (hd : DistinctIds w) (h : ∀ a, Seen w a) : Visible w := by
  refine ⟨fun a b hne hla hlb hpa hpb => ?_, fun a hl => (h a).updates hl⟩
  rw [(h a).shown_iff hla]
  constructor
  · rintro ⟨b', hs, he⟩
    obtain rfl := hd b' b hs.live hlb hs.joined (.inr hpb) he
    exact hs.2.2.2
  · exact fun hsub => ⟨b, ⟨hne, hlb, hpb, hsub⟩, rfl⟩

variable {uuidGenerator : Bytes → Uuid} {machine : StateMachinePtr → StateMachine}
  {steps : List ServerStep}

theorem DistinctIds.initial : DistinctIds (.initial uuidGenerator machine) :=
  fun _ _ hl => nomatch hl

theorem Seen.initial (a : StateMachinePtr) : Seen (.initial uuidGenerator machine) a where
  shown_iff hl := nomatch hl
  updates hl := nomatch hl

/-- **The clients of a run are shown the players of the chunks that they are subscribed to**, if
nobody's settings and nobody's own moves change whether it is subscribed to the chunk of another
player, and every drop is clean. -/
theorem visible_of_keepsVisible (h : reusing.Run (.initial uuidGenerator machine) steps)
    (hd : reusing.Steps (.initial uuidGenerator machine) steps DropsClean)
    (hok : reusing.Steps (.initial uuidGenerator machine) steps KeepsVisible) :
    reusing.Along (.initial uuidGenerator machine) steps Visible :=
  along_reusing (I := fun w => DistinctIds w ∧ ∀ a, Seen w a) ⟨.initial, .initial⟩
    (fun _ hw => visible_of_seen hw.1 hw.2) (fun _ _ _ _ _ => trivial)
    (fun _ _ _ hw hfree => ⟨hw.1.free hfree, fun a => (hw.2 a).free hfree⟩)
    (fun _ _ htidy hw he hk => visible_next htidy.toBase hw.1 hw.2 he hk) h hd hok

/-- A position in the chunk five to the east. -/
def eastPositionFrame : PacketFrame :=
  ⟨0x11, [0x40, 0x54, 0, 0, 0, 0, 0, 0] ++ List.replicate 16 0 ++ [1]⟩

/-- Two players next to each other, one of them at the address of a client that left. -/
theorem visible_of_keepsVisible_join :
    reusing.Along emptyServer (joinSteps 0 2 ++ leaveSteps 1 ++ joinSteps 1 2) Visible := by
  have hearly : reusing.Steps emptyServer (joinSteps 0 2 ++ leaveSteps 1 ++ joinSteps 1 2)
      DropsEarly := by decide +kernel
  exact visible_of_keepsVisible (by decide +kernel) (hearly.mono fun _ _ h => h.clean)
    (by decide +kernel)

/-- The other player goes out of view, and comes into it again with a larger view distance. -/
theorem not_shown_after_settings :
    reusing.Run emptyServer (joinSteps 0 2 ++ joinSteps 1 2 ++
        [.packet 1 eastPositionFrame 0, .packet 0 (clientSettingsFrame 5) 0]) ∧
      ¬ reusing.Along emptyServer (joinSteps 0 2 ++ joinSteps 1 2 ++
        [.packet 1 eastPositionFrame 0, .packet 0 (clientSettingsFrame 5) 0]) Visible := by
  refine ⟨by decide +kernel, fun h => ?_⟩
  have hiff := h.last.1 0 1 (by decide) (by decide +kernel) (by decide +kernel) (by decide +kernel)
    (by decide +kernel)
  exact absurd (hiff.mpr (by decide +kernel)) (by decide +kernel)

end Vitamine
