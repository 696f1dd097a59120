import Vitamine.Lib.Watch
import Vitamine.Proxyd.Appearance
import Vitamine.Proxyd.Visibility

/-!
# Whether players look as they are

The clients that see a player should have its flags and its pose.

* `EntityIds`: an entity id is that of one player, as long as the counter has not come around.
* `watch a b`: the client of `a` as a watcher of the appearance of `b`.
* `introduced`: what the steps do in which a client is sent the spawn of a player.
* `watch_moves`: what a step may do to what a client has of a player.
* `posesAgree_iff`: the clients have it right in the runs in which no crouching player is spawned
  and players look the same when they are seen again, and in no others.
* `spawned_crouching`: a player joins next to one that is crouching.
-/

namespace Vitamine

open Wire System

/-! ## Entity ids -/

/-- More than any entity id that was given out. -/
def World.idBound (w : World) : Nat :=
  if w.globalState.nextEntityId = 0 then 2 ^ 32 else w.globalState.nextEntityId.toNat

/-- The connection has logged in, whether it is still there or not. -/
def World.Known (w : World) (p : StateMachinePtr) : Prop := w.life p ≠ .unused ∧ w.Joined p

/-- The connection has entered `PLAY`, whether it is still there or not. -/
def World.Entered (w : World) (p : StateMachinePtr) : Prop := w.life p ≠ .unused ∧ w.phase p = .play

/-- The entity ids of those who have ever logged in, and what the clients were shown. -/
structure EntityIds (w : World) : Prop where
  bound : ∀ p, w.Known p → (w.player p).entityId.toNat < w.idBound
  distinct : ∀ p q, w.Known p → w.Known q → (w.player p).entityId = (w.player q).entityId → p = q
  shown : ∀ a e, shown (w.traffic a) e → ∃ b, w.Entered b ∧ (w.player b).entityId = e

/-- The counter of the entity ids has not come around when a player logs in. -/
def GivesNewId (w : World) : ServerStep → Prop
  | .packet this frame _ =>
    w.phase this = .login → loginStartOf frame ≠ none → w.globalState.nextEntityId ≠ 0
  | _ => True

instance (w : World) : (step : ServerStep) → Decidable (GivesNewId w step)
  | .packet _ _ _ => inferInstanceAs (Decidable (_ → _ → _))
  | .connect _ _ _ _ | .error _ | .tick _ _ | .disconnect _ => isTrue trivial

/-! ## What the clients have of the players -/

/-- The frame of `this` brings the player `b` into the view of `a`: `a` enters, or `b` enters, or
`b` moves to another chunk. -/
def Spawns (w : World) (this : StateMachinePtr) (frame : PacketFrame) (a b : StateMachinePtr) :
    Prop :=
  a ≠ b ∧ ((this = a ∧ w.phase a = .playInit ∧ teleportConfirmOf frame ≠ none ∧ w.life b = .live ∧
      w.phase b = .play ∧
      ChunkCoord.Within (w.player a).chunk (w.player a).viewDistance (w.player b).chunk) ∨
    (this = b ∧ w.phase b = .playInit ∧ teleportConfirmOf frame ≠ none ∧
      a ∈ w.tracker.subscriptions (w.player b).chunk) ∨
    (this = b ∧ w.phase b = .play ∧ a ∉ w.tracker.subscriptions (w.player b).chunk ∧
      ∃ position, positionOf frame = some position ∧
        a ∈ w.tracker.subscriptions (coordCast position)))

/-- The step sends the client of `a` the spawn of `b`. -/
def Introduces (a b : StateMachinePtr) (w : World) : ServerStep → Prop
  | .packet this frame _ => w.life a = .live ∧ Spawns w this frame a b
  | _ => False

/-- The client of `a` as a watcher of how `b` looks. -/
def watch (a b : StateMachinePtr) : Watch World Appearance where
  value w := (w.player b).appearance
  copy w := looksTo (w.traffic a) (w.player b).entityId
  sees w := w.life a = .live ∧ w.Sees a b
  shown w := w.life a = .live ∧ w.Entered b ∧ shown (w.traffic a) (w.player b).entityId

/-- **Observers agree**: a client that was sent the `SpawnPlayer` of a player and is subscribed to
its chunk has the flags and the pose of the player. -/
def PosesAgree (w : World) : Prop :=
  ∀ a b, a ≠ b → w.life a = .live → w.life b = .live → w.phase b = .play →
    a ∈ w.tracker.subscribers (coordCast (w.player b).position) →
    shown (w.traffic a) (w.player b).entityId →
      (flagsOf (w.traffic a) (w.player b).entityId &&& 0x02 ≠ 0 ↔ (w.player b).crouching = true) ∧
      (flagsOf (w.traffic a) (w.player b).entityId &&& 0x08 ≠ 0 ↔ (w.player b).sprinting = true) ∧
      (poseOf (w.traffic a) (w.player b).entityId = .crouching ↔ (w.player b).crouching = true)

/-- No crouching player is spawned for a client. -/
def SpawnsStanding (w : World) (step : ServerStep) : Prop :=
  ∀ a b, Introduces a b w step → (w.player b).crouching = false

theorem looksTo_eq_iff (log : List Traffic) (e : EntityId) (s : PlayerState) :
    looksTo log e = s.appearance ↔
      (flagsOf log e &&& 0x02 ≠ 0 ↔ s.crouching = true) ∧
      (flagsOf log e &&& 0x08 ≠ 0 ↔ s.sprinting = true) ∧
      (poseOf log e = .crouching ↔ s.crouching = true) := by
  have hbits : ∀ flags : BitVec 8, (flags &&& 0x02 ≠ 0 ↔ flags.getLsbD 1 = true) ∧
      (flags &&& 0x08 ≠ 0 ↔ flags.getLsbD 3 = true) := by decide
  obtain ⟨h2, h8⟩ := hbits (flagsOf log e)
  have hb : ∀ x y : Bool, x = y ↔ (x = true ↔ y = true) := by decide
  rw [h2, h8, looksTo, Appearance.of, PlayerState.appearance, Appearance.mk.injEq,
    hb (BitVec.getLsbD _ 1), hb (BitVec.getLsbD _ 3), hb (decide _), decide_eq_true_iff]

theorem posesAgree_iff_agrees (w : World) :
    PosesAgree w ↔ ∀ a b, a ≠ b → (watch a b).Agrees w := by
  refine forall_congr' fun a => forall_congr' fun b => forall_congr' fun hne => ?_
  constructor
  · rintro h ⟨hla, -, hlb, hp, hsub⟩ ⟨-, -, hs⟩
    exact (looksTo_eq_iff ..).mpr (h hla hlb hp hsub hs)
  · intro h hla hlb hp hsub hs
    refine (looksTo_eq_iff ..).mp (h ⟨hla, hne, hlb, hp, hsub⟩ ⟨hla, ⟨?_, hp⟩, hs⟩)
    rw [hlb]
    decide

/-! ## What a step says of the players -/

section Log

variable {log : List Traffic} {packets : List ClientboundPacket} {e : EntityId}

theorem shownWrite_of_dresses {packet : ClientboundPacket} (h : packet.dresses ≠ some e) :
    shownWrite e (.sent packet) ≠ some true := by
  cases packet with
  | spawnPlayer id =>
    rw [shownWrite, if_neg fun he => h (congrArg some he)]
    simp
  | destroyEntities ids =>
    rw [shownWrite]
    split <;> simp
  | _ => simp [shownWrite]

/-- What is shown after packets that do not dress it was shown before. -/
theorem shown_of_append (h : ∀ k ∈ packets, k.dresses ≠ some e)
    (hs : shown (log ++ packets.map .sent) e) : shown log e := by
  induction packets using List.reverseRecOn with
  | nil => simpa using hs
  | append_singleton packets k ih =>
    have hk := shownWrite_of_dresses (h k (by simp))
    refine ih (fun k' hk' => h k' (by simp [hk'])) ?_
    rw [List.map_append, ← List.append_assoc] at hs
    cases hw : shownWrite e (.sent k) with
    | none => simpa [shown, hw] using hs
    | some b =>
      cases b
      · simp [shown, hw] at hs
      · exact absurd hw hk

/-- What the spawn writes stays, if no other packet dresses the entity. -/
theorem last_append_spawn {V : Type} {write : Traffic → Option V} {init v : V} {s : PlayerState}
    (hmem : createSpawnPacket s ∈ packets)
    (h : ∀ k ∈ packets, k.dresses = some s.entityId → k = createSpawnPacket s)
    (hother : ∀ k : ClientboundPacket, k.dresses ≠ some s.entityId → write (.sent k) = none)
    (hspawn : write (.sent (createSpawnPacket s)) = some v) :
    Log.last write init (log ++ packets.map .sent) = v := by
  rw [Log.last_append]
  refine Log.last_of_writes (List.forall_mem_map.mpr fun k hk => ?_)
    ⟨_, List.mem_map_of_mem hmem, hspawn⟩
  by_cases hd : k.dresses = some s.entityId
  · rw [h k hk hd]
    exact .inr hspawn
  · exact .inl (hother k hd)

/-- Packets that dress the entity only by the spawn of one state of its player. -/
theorem looksTo_append_spawn {s : PlayerState} (hmem : createSpawnPacket s ∈ packets)
    (h : ∀ k ∈ packets, k.dresses = some s.entityId → k = createSpawnPacket s) :
    looksTo (log ++ packets.map .sent) s.entityId = .of (metadataFlags s) .standing := by
  have hflags : flagsOf (log ++ packets.map .sent) s.entityId = metadataFlags s :=
    last_append_spawn hmem h (fun _ => ClientboundPacket.flagsWrite_of_dresses) (if_pos rfl)
  have hpose : poseOf (log ++ packets.map .sent) s.entityId = .standing :=
    last_append_spawn hmem h (fun _ => ClientboundPacket.poseWrite_of_dresses) (if_pos rfl)
  rw [looksTo, hflags, hpose]

end Log

section

variable {w w' : World} {this a b p : StateMachinePtr} {frame : PacketFrame}

/-- Who has logged in after a frame had logged in before it, with the same entity id, or logs in. -/
theorem effect_known (he : Effect w this frame w') (hj : w'.Joined this) :
    w.Joined this ∧ (w'.player this).entityId = (w.player this).entityId ∨
      ∃ name, w.phase this = .login ∧ loginStartOf frame = some name ∧
        w' = w.onLoginStart this name := by
  cases he with
  | quiet _ _ hq =>
    rw [World.Joined, hq.phase] at hj
    exact .inl ⟨hj, (hq.player this).entityId⟩
  | phase hinit hnew =>
    rcases hnew with rfl | rfl <;> simp [World.Joined] at hj
  | login hlogin hframe => exact .inr ⟨_, hlogin, hframe, rfl⟩
  | confirm hinit =>
    refine .inl ⟨.inl hinit, ?_⟩
    rw [World.onTeleportConfirm_eq, World.enterPlay_player, World.confirmed_player,
      Function.update_self]
  | settingsInit hinit =>
    refine .inl ⟨.inl hinit, ?_⟩
    rw [World.onSettingsInPlayInit_player, Function.update_self]
    rfl
  | settings hplay =>
    refine .inl ⟨.inr hplay, ?_⟩
    rw [World.onClientSettingsChange_player, Function.update_self]
    rfl
  | transition hplay hs => exact .inl ⟨.inr hplay, by simp [hs.entityId]⟩
  | dig hplay => exact .inl ⟨.inr hplay, by simp⟩

theorem World.sendMetadataUpdate_traffic (w : World) (this q : StateMachinePtr) :
    (w.sendMetadataUpdate this).traffic q = w.traffic q ++
      (if q ∈ (w.tracker.subscriptions (w.player this).chunk).erase this then
        [ClientboundPacket.entityMetadata (w.player this).entityId
          [⟨0, .byte, .byte (metadataFlags (w.player this))⟩,
            ⟨6, .pose, .pose (w.player this).pose⟩]] else []).map .sent :=
  World.sendEach_traffic_append ..

/-- Nobody leaves `PLAY`. -/
theorem effect_entered (he : Effect w this frame w') (h : w.Entered p) :
    w'.Entered p ∧ (w'.player p).entityId = (w.player p).entityId := by
  by_cases hp : p = this
  · subst hp
    have hlife : w'.life p ≠ .unused := by rw [he.life]; exact h.1
    obtain ⟨-, hplay⟩ := h
    cases he with
    | quiet _ _ hq => exact ⟨⟨hlife, by rw [hq.phase, hplay]⟩, (hq.player p).entityId⟩
    | phase hinit => simp [hplay] at hinit
    | login hlogin => simp [hplay] at hlogin
    | confirm hinit => simp [hplay] at hinit
    | settingsInit hinit => simp [hplay] at hinit
    | settings =>
      refine ⟨⟨hlife, by simpa using hplay⟩, ?_⟩
      rw [World.onClientSettingsChange_player, Function.update_self]
      rfl
    | transition _ hs => exact ⟨⟨hlife, by simpa using hplay⟩, by simp [hs.entityId]⟩
    | dig => exact ⟨⟨hlife, by simpa using hplay⟩, by simp⟩
  · have hu := he.unmoved hp
    rw [World.Entered, hu.life, hu.phase]
    exact ⟨h, hu.player.entityId⟩

theorem World.Entered.known (h : w.Entered p) : w.Known p := ⟨h.1, .inr h.2⟩

/-- Entity ids are given out at a login only. -/
theorem Looks.nextEntityId (h : Looks w this frame w') :
    w'.globalState.nextEntityId = w.globalState.nextEntityId ∨
      ∃ name, w.phase this = .login ∧ loginStartOf frame = some name ∧
        w' = w.onLoginStart this name := by
  cases h with
  | plain _ _ hp => exact .inl hp.nextEntityId
  | login hlogin hframe => exact .inr ⟨_, hlogin, hframe, rfl⟩
  | action => exact .inl rfl
  | @confirm id =>
    have henter : ((w.confirmed this id).enterPlay this).globalState.nextEntityId =
        (w.confirmed this id).globalState.nextEntityId := rfl
    rw [World.onTeleportConfirm_eq, henter, World.confirmed_globalState]
    exact .inl rfl
  | @transition s rotate =>
    left
    unfold World.onChunkTransition
    cases rotate <;> simp only [World.sendChunks_eq] <;> rfl

theorem dresses_movePackets {start target : ChunkCoord} {oldPosition : EntityCoord}
    {rotate : Bool} {k : ClientboundPacket}
    (hk : k ∈ w.movePackets this start target oldPosition rotate a) : k.dresses = none ∨
      (a ∉ w.tracker.subscriptions start ∧ a ∈ w.tracker.subscriptions target) ∧
        k = createSpawnPacket (w.player this) := by
  rcases World.mem_movePackets _ _ _ _ _ _ hk with ⟨-, rfl | rfl | rfl⟩ | hspawn
  · exact .inl (dresses_createMovePacket ..)
  · exact .inl rfl
  · exact .inl rfl
  · exact .inr hspawn

theorem dresses_loginPackets {name : Bytes} {k : ClientboundPacket}
    (hk : k ∈ w.loginPackets this name) : k.dresses = none := by
  simp only [World.loginPackets, List.mem_cons, List.not_mem_nil, or_false] at hk
  rcases hk with rfl | rfl | rfl | rfl | rfl | rfl | rfl <;> rfl

/-! ## What a client is sent of the others -/

/-- The packets of a frame for the client of `a`: the spawns of those that the frame brings into its
view, and packets that dress nobody. -/
structure Dressed (w : World) (this : StateMachinePtr) (frame : PacketFrame) (w' : World)
    (a : StateMachinePtr) (packets : List ClientboundPacket) : Prop where
  traffic : w'.traffic a = w.traffic a ++ packets.map .sent
  only : ∀ k ∈ packets, k.dresses = none ∨
    ∃ b, Spawns w this frame a b ∧ k = createSpawnPacket (w'.player b)
  spawns : ∀ b, Spawns w this frame a b → createSpawnPacket (w'.player b) ∈ packets
  shows : ∀ b, Spawns w this frame a b → shown (w'.traffic a) (w'.player b).entityId
  sees : ∀ b, Spawns w this frame a b → w'.Sees a b

/-- Nobody is brought into view. -/
theorem Dressed.of_plain {packets : List ClientboundPacket}
    (ht : w'.traffic a = w.traffic a ++ packets.map .sent) (hk : ∀ k ∈ packets, k.dresses = none)
    (hno : ∀ b, ¬ Spawns w this frame a b) : Dressed w this frame w' a packets where
  traffic := ht
  only k hmem := .inl (hk k hmem)
  spawns b hb := absurd hb (hno b)
  shows b hb := absurd hb (hno b)
  sees b hb := absurd hb (hno b)

/-- The client that enters is sent the spawns of those it sees then. -/
theorem dressed_confirm_self (hr : ∀ p, Registry w p) (hinit : w.phase this = .playInit)
    {id : BitVec 32} (hframe : teleportConfirmOf frame = some id) : ∃ packets,
      Dressed w this frame (w.onTeleportConfirm this id) this packets := by
  have hplayer : (w.onTeleportConfirm this id).player = (w.confirmed this id).player := by
    rw [World.onTeleportConfirm_eq, World.enterPlay_player]
  -- Those who are spawned are those whom the frame brings into view.
  have hspawns : ∀ b, Spawns w this frame this b ↔
      b ∈ (w.confirmed this id).visiblePlayers this := by
    intro b
    rw [mem_visiblePlayers_confirmed hr]
    constructor
    · rintro ⟨hne, ⟨-, -, -, hl, hp, hw⟩ | ⟨he, -⟩ | ⟨he, -⟩⟩
      · exact ⟨Ne.symm hne, hl, hp, hw⟩
      · exact absurd he hne
      · exact absurd he hne
    · rintro ⟨hne, hl, hp, hw⟩
      exact ⟨Ne.symm hne, .inl ⟨rfl, hinit, by simp [hframe], hl, hp, hw⟩⟩
  have ht := onTeleportConfirm_traffic_self hinit id
  refine ⟨_, ht, ?_, fun b hb => ?_, fun b hb => ?_, fun b hb => ?_⟩
  · exact forall_confirmPackets (fun _ => .inl rfl) fun b hb =>
      .inr ⟨b, (hspawns b).mpr hb, by rw [hplayer]⟩
  · rw [hplayer]
    exact List.mem_append_right _ (List.mem_map_of_mem ((hspawns b).mp hb))
  · rw [ht, List.map_append, ← List.append_assoc, shown_append_spawns, hplayer]
    exact .inl ⟨b, (hspawns b).mp hb, rfl⟩
  · obtain ⟨hne, ⟨-, -, -, hl, hp, hw⟩ | ⟨he, -⟩ | ⟨he, -⟩⟩ := hb
    · rw [World.onTeleportConfirm_eq]
      simp [World.Sees, hne, Ne.symm hne, hl, hp, hw]
    · exact absurd he hne
    · exact absurd he hne

/-- The player that enters is spawned for those who see it then. -/
theorem dressed_confirm_ne (hlive : w.life this = .live) (hinit : w.phase this = .playInit)
    {id : BitVec 32} (hframe : teleportConfirmOf frame = some id) (ha : a ≠ this) : ∃ packets,
      Dressed w this frame (w.onTeleportConfirm this id) a packets := by
  have hspawn : createSpawnPacket ((w.onTeleportConfirm this id).player this) =
      createSpawnPacket (w.player this) := by
    rw [World.onTeleportConfirm_eq, World.enterPlay_player, World.confirmed_player,
      Function.update_self]
    rfl
  have hspawns : ∀ b, Spawns w this frame a b ↔
      b = this ∧ a ∈ w.tracker.subscriptions (w.player this).chunk := by
    intro b
    constructor
    · rintro ⟨-, ⟨he, -⟩ | ⟨rfl, -, -, hsub⟩ | ⟨rfl, hp, -⟩⟩
      · exact absurd he.symm ha
      · exact ⟨rfl, hsub⟩
      · rw [hinit] at hp
        cases hp
    · rintro ⟨rfl, hsub⟩
      exact ⟨ha, .inr (.inl ⟨rfl, hinit, by simp [hframe], hsub⟩)⟩
  have ht := onTeleportConfirm_traffic_ne hinit id ha
  refine ⟨_, ht, fun k hk => ?_, fun b hb => ?_, fun b hb => ?_, fun b hb => ?_⟩
  · split at hk <;> rename_i hsub
    · obtain rfl := List.mem_singleton.mp hk
      exact .inr ⟨this, (hspawns this).mpr ⟨rfl, hsub⟩, hspawn.symm⟩
    · cases hk
  · obtain ⟨rfl, hsub⟩ := (hspawns b).mp hb
    rw [if_pos hsub, hspawn]
    exact List.mem_singleton_self _
  · obtain ⟨rfl, hsub⟩ := (hspawns b).mp hb
    rw [ht, if_pos hsub, ← hspawn]
    simp [shown, shownWrite, createSpawnPacket]
  · obtain ⟨rfl, hsub⟩ := (hspawns b).mp hb
    rw [World.onTeleportConfirm_eq]
    simpa [World.Sees, ha, hlive] using hsub

/-- The player that moves is spawned for those into whose view it comes. -/
theorem dressed_transition_ne (hlive : w.life this = .live) (hplay : w.phase this = .play)
    {s : PlayerState} {rotate : Bool} (hmove : positionOf frame = some s.position) (ha : a ≠ this) :
    ∃ packets, Dressed w this frame ((w.setPlayer this s).onChunkTransition this
      (w.player this).chunk s.chunk (w.player this).position rotate) a packets := by
  have hstate : (w.setPlayer this s).player this = s := by
    rw [World.setPlayer_player, Function.update_self]
  have hspawns : ∀ b, Spawns w this frame a b ↔
      b = this ∧ a ∉ w.tracker.subscriptions (w.player this).chunk ∧
        a ∈ w.tracker.subscriptions s.chunk := by
    intro b
    constructor
    · rintro ⟨-, ⟨he, -⟩ | ⟨rfl, hp, -⟩ | ⟨rfl, -, hold, position, hposition, hnew⟩⟩
      · exact absurd he.symm ha
      · rw [hplay] at hp
        cases hp
      · rw [hmove] at hposition
        rw [← Option.some.inj hposition] at hnew
        exact ⟨rfl, hold, hnew⟩
    · rintro ⟨rfl, hold, hnew⟩
      exact ⟨ha, .inr (.inr ⟨rfl, hplay, hold, _, hmove, hnew⟩)⟩
  have ht := World.onChunkTransition_traffic_ne (w.setPlayer this s) this (w.player this).chunk
    s.chunk (w.player this).position rotate ha
  refine ⟨_, ht, fun k hk => ?_, fun b hb => ?_, fun b hb => ?_, fun b hb => ?_⟩
  · rcases dresses_movePackets hk with hk | ⟨⟨hold, hnew⟩, rfl⟩
    · exact .inl hk
    · exact .inr ⟨this, (hspawns this).mpr ⟨rfl, hold, hnew⟩, by simp⟩
  · obtain ⟨rfl, hold, hnew⟩ := (hspawns b).mp hb
    simp [World.movePackets, hold, hnew]
  · obtain ⟨rfl, hold, hnew⟩ := (hspawns b).mp hb
    rw [ht]
    simp [World.movePackets, hold, hnew, shown, shownWrite, createSpawnPacket]
  · obtain ⟨rfl, hold, hnew⟩ := (hspawns b).mp hb
    simp [World.Sees, ha, hlive, hplay, World.onChunkTransition_tracker, hnew]

/-- **The cases of a frame.** A player starts or stops crouching or sprinting, or nobody looks
different and every client is sent the spawns of those that come into its view. -/
theorem Looks.dressed (hr : ∀ p, Registry w p) (hlive : w.life this = .live)
    (h : Looks w this frame w') :
    (∃ s, w.phase this = .play ∧ positionOf frame = none ∧ (w.player this).Same s ∧
        w' = (w.setPlayer this s).sendMetadataUpdate this) ∨
      (∀ p, (w'.player p).appearance = (w.player p).appearance) ∧
        ∀ a, ∃ packets, Dressed w this frame w' a packets := by
  -- A frame of the phase `phase` that is neither a confirmation nor a move brings nobody into view.
  have hno : (w.phase this = .playInit → teleportConfirmOf frame = none) →
      (w.phase this = .play → ∀ position, positionOf frame = some position →
        coordCast position = (w.player this).chunk) → ∀ a b, ¬ Spawns w this frame a b := by
    rintro hinit hplay a b
      ⟨-, ⟨rfl, hp, ht, -⟩ | ⟨rfl, hp, ht, -⟩ | ⟨rfl, hp, hold, position, hm, hnew⟩⟩
    · exact ht (hinit hp)
    · exact ht (hinit hp)
    · rw [hplay hp position hm] at hnew
      exact hold hnew
  cases h with
  | plain hinit hplay hp =>
    refine .inr ⟨hp.appearance, fun a => ?_⟩
    obtain ⟨packets, ht, hk⟩ := hp.traffic a
    exact ⟨packets, .of_plain ht hk (hno hinit hplay a)⟩
  | @login name hlogin hframe =>
    refine .inr ⟨fun p => ?_, fun a => ?_⟩
    · have hs : (w.loggedIn this name).appearance = (w.player this).appearance := rfl
      rw [World.onLoginStart_player]
      exact appearance_update hs p
    · have hn := hno (by rw [hlogin]; simp) (by rw [hlogin]; simp) a
      by_cases ha : a = this
      · subst ha
        exact ⟨_, .of_plain (World.onLoginStart_traffic_self ..)
          (fun k hk => dresses_loginPackets hk) hn⟩
      · refine ⟨_, .of_plain (World.onLoginStart_traffic_ne _ _ _ ha) (fun k hk => ?_) hn⟩
        split at hk
        · obtain rfl := List.mem_singleton.mp hk
          rfl
        · cases hk
  | action hplay hmove hs => exact .inl ⟨_, hplay, hmove, hs, rfl⟩
  | confirm hinit hframe =>
    refine .inr ⟨fun p => ?_, fun a => ?_⟩
    · rw [World.onTeleportConfirm_eq, World.enterPlay_player, World.confirmed_player]
      refine appearance_update ?_ p
      rfl
    · by_cases ha : a = this
      · subst ha
        exact dressed_confirm_self hr hinit hframe
      · exact dressed_confirm_ne hlive hinit hframe ha
  | @transition s rotate hplay hs happearance hne hmove =>
    refine .inr ⟨fun p => ?_, fun a => ?_⟩
    · rw [World.onChunkTransition_player, World.setPlayer_player]
      exact appearance_update happearance p
    · by_cases ha : a = this
      · subst ha
        refine ⟨_, .of_plain (World.onChunkTransition_traffic_self ..) (fun k hk => ?_) ?_⟩
        · rcases List.mem_append.mp hk with hk | hk
          · exact dresses_streamPackets hk
          · obtain rfl := List.mem_singleton.mp hk
            rfl
        · rintro b ⟨hne, ⟨-, hp, -⟩ | ⟨he, -⟩ | ⟨he, -⟩⟩
          · rw [hplay] at hp
            cases hp
          · exact absurd he hne
          · exact absurd he hne
      · exact dressed_transition_ne hlive hplay hmove ha

/-! ## Entity ids over a run -/

/-- A player is shown to a client after a frame if it was before it, or if it has entered. -/
theorem Looks.shown (hr : ∀ p, Registry w p) (hlive : w.life this = .live)
    (h : Looks w this frame w') {e : EntityId} (hs : shown (w'.traffic a) e) :
    shown (w.traffic a) e ∨ ∃ b, w'.Entered b ∧ (w'.player b).entityId = e := by
  rcases h.dressed hr hlive with ⟨s, -, -, -, rfl⟩ | ⟨-, hdressed⟩
  · left
    rw [World.sendMetadataUpdate_traffic, shown_append fun k hk => ?_] at hs
    · exact hs
    · split at hk
      · obtain rfl := List.mem_singleton.mp hk
        rfl
      · cases hk
  · obtain ⟨packets, hd⟩ := hdressed a
    by_cases hall : ∀ k ∈ packets, k.dresses ≠ some e
    · rw [hd.traffic] at hs
      exact .inl (shown_of_append hall hs)
    · push Not at hall
      obtain ⟨k, hk, he⟩ := hall
      rcases hd.only k hk with hnone | ⟨b, hb, rfl⟩
      · rw [hnone] at he
        cases he
      · have hsees := hd.sees b hb
        exact .inr ⟨b, ⟨by rw [hsees.live]; decide, hsees.2.2.1⟩, Option.some.inj he⟩

/-- No login. -/
theorem EntityIds.of_known (h : EntityIds w)
    (hnext : w'.globalState.nextEntityId = w.globalState.nextEntityId)
    (hknown : ∀ p, w'.Known p → w.Known p ∧ (w'.player p).entityId = (w.player p).entityId)
    (hentered : ∀ p, w.Entered p → w'.Entered p ∧ (w'.player p).entityId = (w.player p).entityId)
    (hshown : ∀ a e, Vitamine.shown (w'.traffic a) e → Vitamine.shown (w.traffic a) e ∨
      ∃ b, w'.Entered b ∧ (w'.player b).entityId = e) : EntityIds w' where
  bound p hp := by
    obtain ⟨hold, hid⟩ := hknown p hp
    rw [hid, World.idBound, hnext]
    exact h.bound p hold
  distinct p q hp hq he := by
    obtain ⟨hp, hid⟩ := hknown p hp
    obtain ⟨hq, hid'⟩ := hknown q hq
    exact h.distinct p q hp hq (by rw [← hid, ← hid', he])
  shown a e hs := by
    rcases hshown a e hs with hold | hnew
    · obtain ⟨b, hb, rfl⟩ := h.shown a e hold
      obtain ⟨hb', hid⟩ := hentered b hb
      exact ⟨b, hb', hid⟩
    · exact hnew

theorem idBound_onLoginStart (name : Bytes) :
    (w.onLoginStart this name).idBound = w.globalState.nextEntityId.toNat + 1 := by
  have hcounter : (w.onLoginStart this name).globalState.nextEntityId =
      w.globalState.nextEntityId + 1 := rfl
  rw [World.idBound, hcounter]
  split_ifs with hzero <;> bv_omega

/-- A login shows nobody. -/
theorem shown_of_onLoginStart {name : Bytes} {e : EntityId}
    (hs : Vitamine.shown ((w.onLoginStart this name).traffic a) e) :
    Vitamine.shown (w.traffic a) e := by
  by_cases ha : a = this
  · subst ha
    rw [World.onLoginStart_traffic_self] at hs
    exact shown_of_append (fun k hk => by rw [dresses_loginPackets hk]; simp) hs
  · rw [World.onLoginStart_traffic_ne _ _ _ ha] at hs
    refine shown_of_append (fun k hk => ?_) hs
    split at hk
    · obtain rfl := List.mem_singleton.mp hk
      simp [ClientboundPacket.dresses]
    · cases hk

/-- A login, with the entity id that the counter is at. -/
theorem EntityIds.onLoginStart (h : EntityIds w) (hlogin : w.phase this = .login) {name : Bytes}
    (hnext : w.globalState.nextEntityId ≠ 0) : EntityIds (w.onLoginStart this name) := by
  have hother : ∀ p ≠ this, (w.onLoginStart this name).Known p → w.Known p ∧
      ((w.onLoginStart this name).player p).entityId = (w.player p).entityId := by
    intro p hp hk
    simpa [World.Known, World.Joined, hp] using hk
  have hnew : ((w.onLoginStart this name).player this).entityId = w.globalState.nextEntityId := by
    rw [World.onLoginStart_player, Function.update_self]
    rfl
  have hold : w.idBound = w.globalState.nextEntityId.toNat := if_neg hnext
  constructor
  · intro p hk
    rw [idBound_onLoginStart]
    by_cases hp : p = this
    · subst hp
      rw [hnew]
      omega
    · obtain ⟨hk, hid⟩ := hother p hp hk
      have := h.bound p hk
      rw [hid]
      omega
  · -- The new entity id is not below the bound of the old ones.
    have hfresh : ∀ p ≠ this, (w.onLoginStart this name).Known p →
        ((w.onLoginStart this name).player p).entityId ≠
          ((w.onLoginStart this name).player this).entityId := by
      intro p hp hk he
      obtain ⟨hk, hid⟩ := hother p hp hk
      have hlt := h.bound p hk
      rw [← hid, he, hnew] at hlt
      omega
    intro p q hp hq he
    by_cases hpt : p = this <;> by_cases hqt : q = this
    · rw [hpt, hqt]
    · subst hpt
      exact absurd he.symm (hfresh q hqt hq)
    · subst hqt
      exact absurd he (hfresh p hpt hp)
    · obtain ⟨hp, hid⟩ := hother p hpt hp
      obtain ⟨hq, hid'⟩ := hother q hqt hq
      exact h.distinct p q hp hq (by rw [← hid, ← hid', he])
  · intro a e hs
    obtain ⟨b, hb, rfl⟩ := h.shown a e (shown_of_onLoginStart hs)
    have hne : b ≠ this := by
      rintro rfl
      rw [World.Entered, hlogin] at hb
      cases hb.2
    exact ⟨b, by simpa [World.Entered, hne] using hb, by simp [hne]⟩

theorem EntityIds.handle (h : EntityIds w) (hr : ∀ p, Registry w p) (hlive : w.life this = .live)
    (hid : w.phase this = .login → loginStartOf frame ≠ none → w.globalState.nextEntityId ≠ 0) :
    EntityIds (w.handle this frame) := by
  have he := handle_effect w this frame
  have hl := handle_looks w this frame
  rcases hl.nextEntityId with hnext | ⟨name, hlogin, hframe, hname⟩
  · refine h.of_known hnext (fun p hp => ?_) (fun p hp => effect_entered he hp)
      fun a e hs => hl.shown hr hlive hs
    by_cases hpt : p = this
    · subst hpt
      rcases effect_known he hp.2 with ⟨hj, hid⟩ | ⟨name, hlogin, hframe, hname⟩
      · exact ⟨⟨by rw [hlive]; decide, hj⟩, hid⟩
      · -- A login gives out an entity id.
        have hcounter : (w.handle p frame).globalState.nextEntityId =
            w.globalState.nextEntityId + 1 := by
          rw [hname]
          rfl
        rw [hnext] at hcounter
        bv_omega
    · have hu := he.unmoved hpt
      rw [World.Known, World.Joined, hu.life, hu.phase] at hp
      exact ⟨hp, hu.player.entityId⟩
  · rw [hname]
    exact h.onLoginStart hlogin (hid hlogin (by simp [hframe]))

theorem looksTo_receive {e : EntityId} (frame : PacketFrame) (now : Int) :
    looksTo ((w.receive this frame now).traffic a) e = looksTo (w.traffic a) e ∧
      (shown ((w.receive this frame now).traffic a) e ↔ shown (w.traffic a) e) := by
  rw [receive_traffic]
  by_cases ha : a = this
  · subst ha
    rw [Function.update_self]
    exact ⟨looksTo_received, shown_received⟩
  · rw [Function.update_of_ne ha]
    exact ⟨rfl, .rfl⟩

theorem EntityIds.receive (h : EntityIds w) (frame : PacketFrame) (now : Int) :
    EntityIds (w.receive this frame now) where
  bound p hp := by
    rw [receive_player]
    exact h.bound p (by simpa [World.Known, World.Joined] using hp)
  distinct := by simpa [World.Known, World.Joined] using h.distinct
  shown a e := by
    rw [(looksTo_receive frame now).2]
    simpa [World.Entered] using h.shown a e

theorem plain_onTick (now : Int) : Plain w (w.onTick this now) := by
  unfold World.onTick
  split
  · exact plain_disconnectWith _
  · split_ifs
    · have hset : Plain w
          (w.setMachine this { w.machine this with lastKeepAliveSentTime := now }) := by
        refine .of_eq rfl (funext fun p => ?_) rfl
        by_cases hp : p = this
        · subst hp
          simp [World.player]
        · simp [World.player, hp]
      exact hset.trans (plain_sendPacket rfl)
    · exact .refl w
    · exact .refl w

theorem dresses_leavePackets {k : ClientboundPacket} (hk : k ∈ w.leavePackets this a) :
    k.dresses = none := by
  rcases List.mem_append.mp hk with hk | hk
  · split at hk
    · obtain rfl := List.mem_singleton.mp hk
      rfl
    · cases hk
  · split at hk
    · obtain rfl := List.mem_singleton.mp hk
      rfl
    · cases hk

/-- A drop is plain. -/
theorem plain_destroy : Plain w (w.destroy this) where
  nextEntityId := by
    unfold World.destroy
    split <;> rfl
  appearance p := by rw [World.destroy_player]
  traffic q := by
    by_cases hq : q = this
    · subst hq
      exact ⟨[], by simp, by simp⟩
    · refine ⟨_, World.destroy_traffic_ne w this hq, fun k hk => ?_⟩
      split at hk
      · exact dresses_leavePackets hk
      · cases hk

/-- A plain step shows nobody. -/
theorem Plain.shown (h : Plain w w') {e : EntityId} (hs : Vitamine.shown (w'.traffic a) e) :
    Vitamine.shown (w.traffic a) e := by
  obtain ⟨packets, ht, hk⟩ := h.traffic a
  rw [ht] at hs
  exact shown_of_append (fun k hmem => by rw [hk k hmem]; simp) hs

theorem Plain.looksTo (h : Plain w w') {e : EntityId} :
    Vitamine.looksTo (w'.traffic a) e = Vitamine.looksTo (w.traffic a) e := by
  obtain ⟨packets, ht, hk⟩ := h.traffic a
  rw [ht]
  exact looksTo_append fun k hmem => by rw [hk k hmem]; simp

/-- Nobody leaves `PLAY`. -/
theorem next_entered {step : ServerStep} (he : server.enabled w step) (h : w.Entered p) :
    (server.next w step).Entered p ∧
      ((server.next w step).player p).entityId = (w.player p).entityId := by
  cases step with
  | connect this =>
    have hne : p ≠ this := by
      rintro rfl
      exact h.1 he
    exact ⟨by simpa [World.Entered, hne] using h, by simp [hne]⟩
  | packet this frame now =>
    have hr : (w.receive this frame now).Entered p := by simpa [World.Entered] using h
    simpa using effect_entered (handle_effect _ this frame) hr
  | error => exact ⟨h, rfl⟩
  | tick this now =>
    have hu : Unmoved w (w.onTick this now) p := unmoved_onTick now
    rw [World.Entered, next_tick, hu.life, hu.phase]
    exact ⟨h, hu.player.entityId⟩
  | disconnect this =>
    refine ⟨⟨?_, by simpa using h.2⟩, by simp⟩
    by_cases hp : p = this
    · subst hp
      simp
    · simpa [hp] using h.1

theorem EntityIds.next {step : ServerStep} (h : EntityIds w) (hb : Base w)
    (he : server.enabled w step) (hid : GivesNewId w step) : EntityIds (server.next w step) := by
  cases step with
  | connect this clientSettings entityId now =>
    refine h.of_known rfl (fun p hp => ?_) (fun p hp => next_entered he hp) fun a e hs => .inl hs
    have hpt : p ≠ this := by
      rintro rfl
      simp [World.Known, World.Joined] at hp
    exact ⟨by simpa [World.Known, World.Joined, hpt] using hp, by simp [hpt]⟩
  | packet this frame now =>
    have hr := hb.registry_receive this frame now
    refine (h.receive frame now).handle hr he ?_
    simpa [GivesNewId] using hid
  | error this =>
    exact h.of_known rfl (fun p hk => ⟨hk, rfl⟩) (fun p hk => next_entered he hk)
      fun a e hs => .inl hs
  | tick this now =>
    have hp := @plain_onTick w this now
    refine h.of_known hp.nextEntityId (fun p hk => ?_) (fun p hk => next_entered he hk)
      fun a e hs => .inl (hp.shown hs)
    have hu : Unmoved w (w.onTick this now) p := unmoved_onTick now
    rw [World.Known, World.Joined, next_tick, hu.life, hu.phase] at hk
    exact ⟨hk, hu.player.entityId⟩
  | disconnect this =>
    have hlive : w.life this = .live := he
    have hp := @plain_destroy w this
    refine h.of_known hp.nextEntityId (fun p hk => ?_) (fun p hk => next_entered he hk)
      fun a e hs => .inl (hp.shown hs)
    refine ⟨⟨?_, by simpa [World.Joined] using hk.2⟩, by simp⟩
    by_cases hpt : p = this
    · subst hpt
      rw [hlive]
      decide
    · simpa [hpt] using hk.1

theorem EntityIds.initial {uuidGenerator : Bytes → Uuid} {machine : StateMachinePtr → StateMachine} :
    EntityIds (.initial uuidGenerator machine) where
  bound p hp := absurd rfl hp.1
  distinct p q hp := absurd rfl hp.1
  shown a e hs := by simp [World.initial, Vitamine.shown] at hs

/-! ## The steps of a watcher -/

/-- A shown entity id is that of the one who has it. -/
theorem EntityIds.entered_of_shown (h : EntityIds w) (h' : EntityIds w')
    (hentered : ∀ p, w.Entered p → w'.Entered p ∧ (w'.player p).entityId = (w.player p).entityId)
    (hb : w'.Entered b) (hs : Vitamine.shown (w.traffic a) (w'.player b).entityId) :
    w.Entered b ∧ (w'.player b).entityId = (w.player b).entityId := by
  obtain ⟨b', hold, he⟩ := h.shown a _ hs
  obtain ⟨hnew, hid⟩ := hentered b' hold
  obtain rfl := h'.distinct b' b hnew.known hb.known (hid.trans he)
  exact ⟨hold, he.symm⟩

/-- Packets that do not dress the player leave the copy as it was. -/
theorem watch_keeps {packets : List ClientboundPacket}
    (hlife : w'.life a = .live → w.life a = .live)
    (ht : w'.traffic a = w.traffic a ++ packets.map .sent)
    (hk : w'.Entered b → ∀ k ∈ packets, k.dresses ≠ some (w'.player b).entityId)
    (hentered : w'.Entered b → shown (w.traffic a) (w'.player b).entityId →
      w.Entered b ∧ (w'.player b).entityId = (w.player b).entityId) :
    (watch a b).Keeps w w' := by
  rintro ⟨hl, hb, hs⟩
  rw [ht] at hs
  have hold := shown_of_append (hk hb) hs
  obtain ⟨hb', hid⟩ := hentered hb hold
  refine ⟨⟨hlife hl, hb', hid ▸ hold⟩, ?_⟩
  show looksTo (w'.traffic a) _ = looksTo (w.traffic a) _
  rw [ht, looksTo_append (hk hb), hid]

/-- A player starts or stops crouching or sprinting: those who see it are told, and nobody else. -/
theorem watch_action_self (hlive : w.life b = .live) (hplay : w.phase b = .play)
    {s : PlayerState} (hs : (w.player b).Same s) (hne : a ≠ b) (introduces : Prop) :
    (watch a b).Moves introduces w ((w.setPlayer b s).sendMetadataUpdate b) := by
  have hplayer : ((w.setPlayer b s).sendMetadataUpdate b).player b = s := by
    show (w.setPlayer b s).player b = s
    rw [World.setPlayer_player, Function.update_self]
  have hphase : ((w.setPlayer b s).sendMetadataUpdate b).phase = w.phase :=
    World.setPlayer_phase ..
  have ht := World.sendMetadataUpdate_traffic (w.setPlayer b s) b a
  have hstate : (w.setPlayer b s).player b = s := hplayer
  rw [hstate, World.setPlayer_tracker, World.setPlayer_traffic, hs.chunk] at ht
  have hid : (((w.setPlayer b s).sendMetadataUpdate b).player b).entityId =
      (w.player b).entityId := by
    rw [hplayer, hs.entityId]
  have hsees : (watch a b).sees ((w.setPlayer b s).sendMetadataUpdate b) ↔
      (watch a b).sees w := by
    show (_ ∧ _ ≠ _ ∧ _ ∧ _ ∧ _) ↔ _
    rw [hphase, hplayer, hs.chunk]
    exact .rfl
  have hentered : ((w.setPlayer b s).sendMetadataUpdate b).Entered b → w.Entered b := by
    rw [World.Entered, hphase]
    exact id
  by_cases hsub : (watch a b).sees w
  · rw [if_pos (Finset.mem_erase.mpr ⟨hne, hsub.2.2.2.2⟩)] at ht
    refine .told hsub (hsees.mpr hsub) ?_ ?_
    · rintro ⟨hl, hb, hshown⟩
      rw [ht, hid, shown_append (by simp [shownWrite])] at hshown
      exact ⟨hl, hentered hb, hshown⟩
    · show looksTo (((w.setPlayer b s).sendMetadataUpdate b).traffic a) _ =
        (((w.setPlayer b s).sendMetadataUpdate b).player b).appearance
      rw [ht, hplayer]
      exact looksTo_update s
  · refine .missed hsub (fun h' => hsub (hsees.mp h')) ?_
    by_cases hl : w.life a = .live
    · have hno : a ∉ (w.tracker.subscriptions (w.player b).chunk).erase b := fun hmem =>
        hsub ⟨hl, hne, hlive, hplay, Finset.mem_of_mem_erase hmem⟩
      rw [if_neg hno] at ht
      exact watch_keeps id ht (by simp) fun hb _ => ⟨hentered hb, hid⟩
    · exact fun hsh => absurd hsh.1 hl

/-- Another player does: its entity id is another one. -/
theorem watch_action_ne (h : EntityIds w) (hlive : w.life this = .live)
    (hplay : w.phase this = .play) {s : PlayerState} (hs : (w.player this).Same s) (hb : b ≠ this)
    (introduces : Prop) :
    (watch a b).Moves introduces w ((w.setPlayer this s).sendMetadataUpdate this) := by
  have hphase : ((w.setPlayer this s).sendMetadataUpdate this).phase = w.phase :=
    World.setPlayer_phase ..
  have hstate : (w.setPlayer this s).player this = s := by
    rw [World.setPlayer_player, Function.update_self]
  have ht := World.sendMetadataUpdate_traffic (w.setPlayer this s) this a
  rw [hstate, World.setPlayer_tracker, World.setPlayer_traffic, hs.chunk] at ht
  have hunmoved : ((w.setPlayer this s).sendMetadataUpdate this).player b = w.player b := by
    show (w.setPlayer this s).player b = w.player b
    rw [World.setPlayer_player, Function.update_of_ne hb]
  have hentered : ((w.setPlayer this s).sendMetadataUpdate this).Entered b → w.Entered b := by
    rw [World.Entered, hphase]
    exact id
  refine .silent (congrArg PlayerState.appearance hunmoved)
    (watch_keeps id ht (fun hb' k hk hd => ?_) fun hb' _ => ⟨hentered hb', by rw [hunmoved]⟩)
  split at hk
  · obtain rfl := List.mem_singleton.mp hk
    have he : (w.player this).entityId = (w.player b).entityId := by
      rw [← hs.entityId, Option.some.inj hd, hunmoved]
    exact hb (h.distinct this b ⟨by rw [hlive]; decide, .inr hplay⟩ (hentered hb').known he).symm
  · cases hk

theorem watch_action (h : EntityIds w) (hlive : w.life this = .live) (hplay : w.phase this = .play)
    {s : PlayerState} (hs : (w.player this).Same s) (hne : a ≠ b) (introduces : Prop) :
    (watch a b).Moves introduces w ((w.setPlayer this s).sendMetadataUpdate this) := by
  by_cases hb : b = this
  · subst hb
    exact watch_action_self hlive hplay hs hne introduces
  · exact watch_action_ne h hlive hplay hs hb introduces

/-- A packet of a frame that dresses the player is its spawn, and brings it into view. -/
theorem Dressed.spawn_of_dresses {packets : List ClientboundPacket} {k : ClientboundPacket}
    (hd : Dressed w this frame w' a packets) (h' : EntityIds w') (hb : w'.Known b)
    (hk : k ∈ packets) (hdress : k.dresses = some (w'.player b).entityId) :
    Spawns w this frame a b ∧ k = createSpawnPacket (w'.player b) := by
  rcases hd.only k hk with hnone | ⟨c, hc, rfl⟩
  · rw [hnone] at hdress
    cases hdress
  · have hsees := hd.sees c hc
    obtain rfl := h'.distinct c b ⟨by rw [hsees.live]; decide, hsees.joined⟩ hb
      (Option.some.inj hdress)
    exact ⟨hc, rfl⟩

theorem watch_handle (h : EntityIds w) (h' : EntityIds (w.handle this frame))
    (hr : ∀ p, Registry w p) (hlive : w.life this = .live) (hne : a ≠ b) :
    (watch a b).Moves (w.life a = .live ∧ Spawns w this frame a b) w (w.handle this frame) := by
  have he := handle_effect w this frame
  rcases (handle_looks w this frame).dressed hr hlive with
    ⟨s, hplay, -, hs, haction⟩ | ⟨happearance, hdressed⟩
  · rw [haction]
    exact watch_action h hlive hplay hs hne _
  · obtain ⟨packets, hd⟩ := hdressed a
    by_cases hi : w.life a = .live ∧ Spawns w this frame a b
    · exact .introduced hi
    · refine .silent (happearance b) fun hshown => ?_
      have hla : w.life a = .live := by
        rw [← he.life]
        exact hshown.1
      refine watch_keeps (fun _ => hla) hd.traffic (fun hb k hk hdress => ?_)
        (h.entered_of_shown h' fun p hp => effect_entered he hp) hshown
      exact hi ⟨hla, (hd.spawn_of_dresses h' hb.known hk hdress).1⟩

/-- Where a frame comes in, nothing is different for the watcher. -/
theorem watch_receive {introduces : Prop} {now : Int}
    (h : (watch a b).Moves introduces (w.receive this frame now) w') :
    (watch a b).Moves introduces w w' := by
  refine Watch.Moves.of_same _ h ?_ ?_ ?_ ?_
  · simp [watch]
  · show looksTo _ ((w.receive this frame now).player b).entityId = _
    rw [(looksTo_receive frame now).1, receive_player]
    rfl
  · simp [watch, World.Sees]
  · show (_ ∧ _ ∧ shown _ ((w.receive this frame now).player b).entityId) ↔ _
    rw [(looksTo_receive frame now).2, World.Entered, receive_life, receive_phase, receive_player]
    exact .rfl

/-- Nobody looks different, and nothing is said of how anybody looks. -/
theorem watch_plain (hp : Plain w w') (hlife : w'.life a = .live → w.life a = .live)
    (hentered : w'.Entered b → shown (w.traffic a) (w'.player b).entityId →
      w.Entered b ∧ (w'.player b).entityId = (w.player b).entityId) (introduces : Prop) :
    (watch a b).Moves introduces w w' := by
  obtain ⟨packets, ht, hk⟩ := hp.traffic a
  refine .silent (hp.appearance b) (watch_keeps hlife ht (fun _ k hmem => ?_) hentered)
  rw [hk k hmem]
  simp

/-- The new connection has no player, and was sent nothing. -/
theorem watch_connect (hb : Base w) (hunused : w.life this = .unused)
    (clientSettings : ClientSettings) (entityId : EntityId) (now : Int) (introduces : Prop) :
    (watch a b).Moves introduces w
      (server.next w (.connect this clientSettings entityId now)) := by
  by_cases hbt : b = this
  · subst hbt
    refine .missed (fun hs => ?_) (fun hs => ?_) fun hs => ?_
    · have hlive := hs.2.live
      rw [hunused] at hlive
      cases hlive
    · have hplay := hs.2.2.2.1
      simp at hplay
    · have hplay := hs.2.1.2
      simp at hplay
  · refine .silent (by simp [watch, hbt]) fun hs => ?_
    have hat : a ≠ this := by
      rintro rfl
      have ht : w.traffic a = [] := hb.untouched a hunused
      have hshown := hs.2.2
      rw [next_connect, connect_traffic, ht] at hshown
      simp [shown] at hshown
    refine @watch_keeps w _ a b [] (fun hl => by simpa [hat] using hl) (by simp) (by simp)
      (fun hentered _ => ⟨?_, by simp [hbt]⟩) hs
    simpa [World.Entered, hbt] using hentered

theorem watch_moves {step : ServerStep} (h : EntityIds w) (hb : Base w)
    (he : server.enabled w step) (hid : GivesNewId w step) (hne : a ≠ b) :
    (watch a b).Moves (Introduces a b w step) w (server.next w step) := by
  have h' := h.next hb he hid
  have hentered := @EntityIds.entered_of_shown w (server.next w step) a b h h'
    fun p hp => next_entered he hp
  cases step with
  | connect this clientSettings entityId now =>
    exact watch_connect hb he clientSettings entityId now _
  | packet this frame now =>
    have hmoves := watch_handle (h.receive frame now) h' (hb.registry_receive this frame now) he hne
    have hspawns : Spawns (w.receive this frame now) this frame a b ↔ Spawns w this frame a b := by
      simp [Spawns]
    rw [receive_life, hspawns] at hmoves
    exact watch_receive hmoves
  | error this =>
    have hp : Plain w (w.disconnect this) := .of_eq rfl rfl rfl
    exact watch_plain hp (fun hl => hl) hentered _
  | tick this now =>
    have hu : Unmoved w (w.onTick this now) a := unmoved_onTick now
    exact watch_plain (plain_onTick now) (fun hl => hu.life ▸ hl) hentered _
  | disconnect this =>
    refine watch_plain plain_destroy (fun hl => ?_) hentered _
    have hat : a ≠ this := by
      rintro rfl
      simp at hl
    simpa [hat] using hl

/-- Who brings a player into view does not start or stop anything. -/
theorem Spawns.dressed (h : Spawns w this frame a b) (hr : ∀ p, Registry w p)
    (hlive : w.life this = .live) (hl : Looks w this frame w') :
    (∀ p, (w'.player p).appearance = (w.player p).appearance) ∧
      ∃ packets, Dressed w this frame w' a packets := by
  rcases hl.dressed hr hlive with ⟨s, hplay, hmove, -, -⟩ | ⟨happearance, hdressed⟩
  · rcases h.2 with ⟨rfl, hp, -⟩ | ⟨rfl, hp, -⟩ | ⟨-, -, -, position, hp, -⟩
    · rw [hplay] at hp
      cases hp
    · rw [hplay] at hp
      cases hp
    · rw [hmove] at hp
      cases hp
  · exact ⟨happearance, hdressed a⟩

/-- **What an introduction shows**: the player as it is, but standing. -/
theorem watch_introduced {step : ServerStep} (h : EntityIds w) (hb : Base w)
    (he : server.enabled w step) (hid : GivesNewId w step) (hi : Introduces a b w step) :
    (watch a b).sees (server.next w step) ∧ (watch a b).shown (server.next w step) ∧
      ((watch a b).copy (server.next w step) = (watch a b).value (server.next w step) ↔
        (w.player b).crouching = false) := by
  have h' := h.next hb he hid
  cases step with
  | packet this frame now =>
    obtain ⟨hla, hspawns⟩ := hi
    have hspawns' : Spawns (w.receive this frame now) this frame a b := by
      simpa [Spawns] using hspawns
    obtain ⟨happearance, packets, hd⟩ := hspawns'.dressed (hb.registry_receive this frame now) he
      (handle_looks (w.receive this frame now) this frame)
    have hsees := hd.sees b hspawns'
    have hentered : (server.next w (.packet this frame now)).Entered b :=
      ⟨by rw [next_packet, hsees.live]; decide, hsees.2.2.1⟩
    have hlive : (server.next w (.packet this frame now)).life a = .live := by simpa using hla
    refine ⟨⟨hlive, hsees⟩, ⟨hlive, hentered, hd.shows b hspawns'⟩, ?_⟩
    have hcopy : (watch a b).copy (server.next w (.packet this frame now)) =
        .of (metadataFlags ((server.next w (.packet this frame now)).player b)) .standing := by
      show looksTo ((server.next w (.packet this frame now)).traffic a) _ = _
      rw [next_packet, hd.traffic]
      exact looksTo_append_spawn (hd.spawns b hspawns') fun k hk hdress =>
        (hd.spawn_of_dresses h' hentered.known hk hdress).2
    have hcrouching : ((server.next w (.packet this frame now)).player b).crouching =
        (w.player b).crouching := by
      have hsame := congrArg Appearance.crouchFlag (happearance b)
      rwa [receive_player] at hsame
    rw [hcopy, ← hcrouching]
    exact appearance_of_spawn _
  | _ => cases hi

end

/-! ## Runs -/

variable {uuidGenerator : Bytes → Uuid} {machine : StateMachinePtr → StateMachine}
  {steps : List ServerStep}

/-- **The clients of a run have the flags and the pose of the players they see if and only if no
crouching player is spawned and whoever comes back into view, without being spawned again, looks as
it did when it went out of it**, as long as the counter of the entity ids does not come around. -/
theorem posesAgree_iff (h : server.Run (.initial uuidGenerator machine) steps)
    (hids : server.Steps (.initial uuidGenerator machine) steps GivesNewId) :
    server.Along (.initial uuidGenerator machine) steps PosesAgree ↔
      server.Steps (.initial uuidGenerator machine) steps SpawnsStanding ∧
        ∀ a b, a ≠ b → (watch a b).ReturnsUnchanged server (.initial uuidGenerator machine)
          (Introduces a b) steps := by
  have hinv : server.Along (.initial uuidGenerator machine) steps fun w => Base w ∧ EntityIds w :=
    along_of_steps ⟨.initial uuidGenerator machine, .initial⟩
      (fun w step hw hs => ⟨hw.1.next hs.1, hw.2.next hw.1 hs.1 hs.2⟩) (h.and hids)
  have hpair : ∀ a b, a ≠ b → (server.Along (.initial uuidGenerator machine) steps
      (watch a b).Agrees ↔ server.Steps (.initial uuidGenerator machine) steps
          (fun w step => Introduces a b w step → (w.player b).crouching = false) ∧
        (watch a b).ReturnsUnchanged server (.initial uuidGenerator machine) (Introduces a b)
          steps) := by
    intro a b hne
    have hintroduced : ∀ pre step, pre ++ [step] <+: steps → _ → _ := fun pre step hpre hi =>
      @watch_introduced _ a b step (hinv.steps pre step hpre).2 (hinv.steps pre step hpre).1
        (h pre step hpre) (hids pre step hpre) hi
    rw [@Watch.along_agrees_iff _ _ _ (watch a b) server _ (Introduces a b) steps]
    · refine and_congr_left fun _ => forall_congr' fun pre => forall_congr' fun step =>
        forall_congr' fun hpre => forall_congr' fun hi => ?_
      rw [after_snoc]
      exact (hintroduced pre step hpre hi).2.2
    · exact fun hs => hs.2.1.1 rfl
    · intro pre step hpre
      rw [after_snoc]
      exact watch_moves (hinv.steps pre step hpre).2 (hinv.steps pre step hpre).1 (h pre step hpre)
        (hids pre step hpre) hne
    · intro pre step hpre hi
      rw [after_snoc]
      exact ⟨(hintroduced pre step hpre hi).1, (hintroduced pre step hpre hi).2.1⟩
  have hall : server.Along (.initial uuidGenerator machine) steps PosesAgree ↔
      ∀ a b, a ≠ b → server.Along (.initial uuidGenerator machine) steps (watch a b).Agrees := by
    simp only [System.Along, posesAgree_iff_agrees]
    exact ⟨fun h a b hne pre hpre => h pre hpre a b hne,
      fun h pre hpre a b hne => h a b hne pre hpre⟩
  rw [hall]
  constructor
  · intro hagrees
    refine ⟨fun pre step hpre a b hi => ?_, fun a b hne => ((hpair a b hne).mp (hagrees a b hne)).2⟩
    have hne : a ≠ b := by
      cases step with
      | packet => exact hi.2.1
      | _ => cases hi
    exact ((hpair a b hne).mp (hagrees a b hne)).1 pre step hpre hi
  · rintro ⟨hstanding, hreturns⟩ a b hne
    exact (hpair a b hne).mpr ⟨hstanding.mono fun w step hs => hs a b, hreturns a b hne⟩

/-- Starts crouching. -/
def crouchFrame (entityId : Byte) : PacketFrame := ⟨0x1b, [entityId, 0, 0]⟩

/-- Two players next to each other, one of which starts crouching. -/
theorem posesAgree_iff_crouch :
    server.Run emptyServer (joinSteps 0 2 ++ joinSteps 1 2 ++ [.packet 0 (crouchFrame 1) 0]) ∧
      (server.Along emptyServer (joinSteps 0 2 ++ joinSteps 1 2 ++ [.packet 0 (crouchFrame 1) 0])
          PosesAgree ↔
        server.Steps emptyServer (joinSteps 0 2 ++ joinSteps 1 2 ++ [.packet 0 (crouchFrame 1) 0])
          SpawnsStanding ∧
        ∀ a b, a ≠ b → (watch a b).ReturnsUnchanged server emptyServer (Introduces a b)
          (joinSteps 0 2 ++ joinSteps 1 2 ++ [.packet 0 (crouchFrame 1) 0])) :=
  have h : server.Run emptyServer
    (joinSteps 0 2 ++ joinSteps 1 2 ++ [.packet 0 (crouchFrame 1) 0]) := by decide +kernel
  ⟨h, posesAgree_iff h (by decide +kernel)⟩

/-- A player joins next to one that is crouching. -/
theorem spawned_crouching :
    server.Run emptyServer (joinSteps 0 2 ++ [.packet 0 (crouchFrame 1) 0] ++ joinSteps 1 2) ∧
      ¬ server.Along emptyServer (joinSteps 0 2 ++ [.packet 0 (crouchFrame 1) 0] ++ joinSteps 1 2)
        PosesAgree := by
  refine ⟨by decide +kernel, fun h => ?_⟩
  have hagree := h.last 1 0 (by decide) (by decide +kernel) (by decide +kernel) (by decide +kernel)
    (by decide +kernel) (by decide +kernel)
  exact absurd (hagree.2.2.mpr (by decide +kernel)) (by decide +kernel)

end Vitamine
