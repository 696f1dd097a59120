import Vitamine.Lib.Roster
import Vitamine.Proxyd.Reuse

/-!
# The player lists of the clients

A client keeps the UUIDs that `PlayerInfo` packets add and remove. They should be those of the
clients that have logged in and are still there.

* `playerList`: the list of a client, from what it was sent.
* `World.roster`: the clients as members that hold copies of the list.
* `roster_onLoginStart`, `roster_destroy_play`, `roster_destroy`, `Effect.unlisted`: a login joins,
  a drop in `PLAY` leaves, any other drop vanishes, and all else changes nothing.
* `playerListAgrees_iff`: the lists of a run with clean drops are right if and only if nobody drops
  in `PLAY` whose UUID somebody else has.
* `playerList_after_drops`: a client that drops in `PLAY_INIT`, and two clients with one name.
-/

namespace Vitamine

open Wire System

/-! ## The list of a client -/

/-- The list after a packet: `ADD_PLAYER` inserts the UUIDs of the entries, `REMOVE_PLAYER` deletes
them. -/
def PacketPlayerInfo.apply (packet : PacketPlayerInfo) (list : Finset Uuid) : Finset Uuid :=
  let uuids := (packet.entries.map fun entry => entry.uuid).toFinset
  match packet.action with
  | .addPlayer => list ∪ uuids
  | .removePlayer => list \ uuids
  | _ => list

/-- The list after an event. -/
def listAfter (list : Finset Uuid) : Traffic → Finset Uuid
  | .sent (.playerInfo packet) => packet.apply list
  | _ => list

/-- The player list of a client that has seen these events. -/
def playerList (log : List Traffic) : Finset Uuid := log.foldl listAfter ∅

/-- The packet is about the player list. -/
def ClientboundPacket.lists : ClientboundPacket → Option PacketPlayerInfo
  | .playerInfo packet => some packet
  | _ => none

section Log

variable {log : List Traffic} {packets : List ClientboundPacket}

@[simp] theorem playerList_snoc (event : Traffic) :
    playerList (log ++ [event]) = listAfter (playerList log) event := by
  simp [playerList]

theorem listAfter_of_lists {packet : ClientboundPacket} (h : packet.lists = none)
    (list : Finset Uuid) : listAfter list (.sent packet) = list := by
  cases packet <;> first | rfl | cases h

/-- Packets about something else. -/
theorem playerList_append (h : ∀ k ∈ packets, k.lists = none) :
    playerList (log ++ packets.map .sent) = playerList log := by
  induction packets using List.reverseRecOn with
  | nil => simp
  | append_singleton packets k ih =>
    rw [List.map_append, ← List.append_assoc, List.map_singleton, playerList_snoc,
      listAfter_of_lists (h k (by simp)), ih fun k' hk' => h k' (by simp [hk'])]

end Log

/-! ## The roster -/

/-- The clients that have logged in and are still there, the registry, and the lists. -/
def World.roster (w : World) : Roster StateMachinePtr Uuid where
  present := {p | w.life p = .live ∧ w.Joined p}
  listed := w.globalState.players
  key p := (w.player p).uuid
  copy p := playerList (w.traffic p)

/-- **Player list agreement**: the list of every client that has logged in is that of the UUIDs of
those that have logged in and are still there. -/
def PlayerListAgrees (w : World) : Prop :=
  ∀ a, w.life a = .live → w.Joined a → ∀ uuid, uuid ∈ playerList (w.traffic a) ↔
    ∃ b, w.life b = .live ∧ w.Joined b ∧ (w.player b).uuid = uuid

theorem playerListAgrees_iff_roster (w : World) : PlayerListAgrees w ↔ w.roster.Agrees := by
  have hmem : ∀ uuid, uuid ∈ w.roster.keys ↔
      ∃ b, w.life b = .live ∧ w.Joined b ∧ (w.player b).uuid = uuid := fun uuid =>
    exists_congr fun b => and_assoc
  constructor
  · rintro h a ⟨hl, hj⟩
    ext uuid
    rw [hmem]
    exact h a hl hj uuid
  · intro h a hl hj uuid
    rw [← hmem, ← h a ⟨hl, hj⟩]
    exact .rfl

/-- Who has logged in should be on its own list. -/
theorem not_playerListAgrees_of_notMem {w : World} {a : StateMachinePtr} (hl : w.life a = .live)
    (hj : w.Joined a) (h : (w.player a).uuid ∉ playerList (w.traffic a)) : ¬ PlayerListAgrees w :=
  fun hagree => h ((hagree a hl hj _).mpr ⟨a, hl, hj, rfl⟩)

/-- Somebody else than `this` is on the registry, is still there, and has the UUID. -/
def World.HasOther (w : World) (this : StateMachinePtr) (uuid : Uuid) : Prop :=
  ∃ q ∈ w.globalState.players, q ≠ this ∧ w.life q = .live ∧ (w.player q).uuid = uuid

instance (w : World) (this : StateMachinePtr) (uuid : Uuid) : Decidable (w.HasOther this uuid) :=
  inferInstanceAs (Decidable (∃ q ∈ w.globalState.players, _))

/-- A drop in `PLAY` leaves nobody with the same UUID. -/
def KeepsPlayerList (w : World) : ServerStep → Prop
  | .disconnect this => w.phase this = .play → ¬ w.HasOther this (w.player this).uuid
  | _ => True

instance (w : World) : (step : ServerStep) → Decidable (KeepsPlayerList w step)
  | .disconnect _ => inferInstanceAs (Decidable (_ → _))
  | .connect _ _ _ _ | .packet _ _ _ | .error _ | .tick _ _ => isTrue trivial

/-! ## The steps -/

/-- Nobody logs in, and no packet is about the player list. -/
structure Unlisted (w w' : World) : Prop where
  life : w'.life = w.life
  joined : ∀ p, w'.Joined p ↔ w.Joined p
  uuid : ∀ p, (w'.player p).uuid = (w.player p).uuid
  traffic : ∀ q, ∃ packets : List ClientboundPacket,
    w'.traffic q = w.traffic q ++ packets.map .sent ∧ ∀ k ∈ packets, k.lists = none

section

variable {w w' : World} {this p q : StateMachinePtr} {frame : PacketFrame}

theorem Unlisted.stays (h : Unlisted w w') : w.roster.Stays w'.roster where
  present := by
    ext p
    show _ ∧ _ ↔ _ ∧ _
    rw [h.life, h.joined]
  key q _ := h.uuid q
  copy q _ := by
    obtain ⟨packets, ht, hk⟩ := h.traffic q
    show (playerList (w'.traffic q) : Set Uuid) = playerList (w.traffic q)
    rw [ht, playerList_append hk]

theorem lists_quiet {k : ClientboundPacket} (h : QuietPacket w this q k) : k.lists = none := by
  cases h with
  | update _ _ _ hid => cases k <;> first | rfl | cases hid
  | _ => rfl

theorem Quiet.unlisted (h : Quiet this w w') : Unlisted w w' where
  life := h.life
  joined p := by rw [World.Joined, h.phase, World.Joined]
  uuid p := (h.player p).uuid
  traffic q := by
    obtain ⟨ks, ht, hk⟩ := h.traffic q
    exact ⟨ks, ht, fun k hmem => lists_quiet (hk k hmem)⟩

theorem lists_streamPackets {unloads loads : List ChunkCoord} {k : ClientboundPacket}
    (hk : k ∈ w.streamPackets unloads loads) : k.lists = none :=
  w.forall_streamPackets (P := fun k => k.lists = none) (fun _ => rfl) (fun _ _ => rfl) k hk

/-- Packets for the connection itself, and one phase and one player. -/
theorem Unlisted.of_self (hlife : w'.life = w.life) (hj : ∀ p, w'.Joined p ↔ w.Joined p)
    (huuid : ∀ p, (w'.player p).uuid = (w.player p).uuid) (packets : List ClientboundPacket)
    (ht : w'.traffic = Function.update w.traffic this (w.traffic this ++ packets.map .sent))
    (hk : ∀ k ∈ packets, k.lists = none) : Unlisted w w' where
  life := hlife
  joined := hj
  uuid := huuid
  traffic q := by
    rw [ht]
    by_cases hq : q = this
    · subst hq
      exact ⟨packets, Function.update_self .., hk⟩
    · exact ⟨[], by rw [Function.update_of_ne hq]; simp, by simp⟩

theorem uuid_update {s : PlayerState} (hs : s.uuid = (w.player this).uuid) (p : StateMachinePtr) :
    (Function.update w.player this s p).uuid = (w.player p).uuid := by
  by_cases hp : p = this
  · subst hp
    rwa [Function.update_self]
  · rw [Function.update_of_ne hp]

theorem unlisted_onTeleportConfirm (hinit : w.phase this = .playInit) (id : BitVec 32) :
    Unlisted w (w.onTeleportConfirm this id) where
  life := by simp [World.onTeleportConfirm_eq]
  joined p := by
    rw [World.onTeleportConfirm_eq]
    by_cases hp : p = this
    · subst hp
      simp [World.Joined, hinit]
    · simp [World.Joined, hp]
  uuid p := by
    rw [World.onTeleportConfirm_eq, World.enterPlay_player, World.confirmed_player]
    refine uuid_update ?_ p
    rfl
  traffic q := by
    by_cases hq : q = this
    · subst hq
      exact ⟨_, onTeleportConfirm_traffic_self hinit id,
        forall_confirmPackets (fun _ => rfl) fun _ _ => rfl⟩
    · refine ⟨_, onTeleportConfirm_traffic_ne hinit id hq, fun k hk => ?_⟩
      split at hk
      · obtain rfl := List.mem_singleton.mp hk
        rfl
      · cases hk

theorem lists_movePackets {start target : ChunkCoord} {oldPosition : EntityCoord} {rotate : Bool}
    {k : ClientboundPacket} (hk : k ∈ w.movePackets this start target oldPosition rotate q) :
    k.lists = none := by
  have hmove : (createMovePacket (w.player this) oldPosition rotate).lists = none := by
    unfold createMovePacket
    simp only
    split_ifs <;> rfl
  rcases World.mem_movePackets _ _ _ _ _ _ hk with ⟨-, rfl | rfl | rfl⟩ | ⟨-, rfl⟩
  · exact hmove
  all_goals rfl

/-- A frame that is no login. -/
theorem Effect.unlisted (h : Effect w this frame w') :
    Unlisted w w' ∨ ∃ name, w.phase this = .login ∧ loginStartOf frame = some name ∧
      w' = w.onLoginStart this name := by
  cases h with
  | quiet _ _ hq => exact .inl hq.unlisted
  | @phase phase hinit hnew =>
    refine .inl (@Unlisted.of_self w _ this rfl (fun p => ?_) (fun p => by simp) [] ?_ (by simp))
    · by_cases hp : p = this
      · subst hp
        rcases hnew with rfl | rfl <;> simp [World.Joined, hinit]
      · simp [World.Joined, hp]
    · simp
  | login hlogin hframe => exact .inr ⟨_, hlogin, hframe, rfl⟩
  | confirm hinit => exact .inl (unlisted_onTeleportConfirm hinit _)
  | settingsInit =>
    refine .inl (.of_self (by simp) (fun p => by simp [World.Joined]) (fun p => ?_) _
      (World.onSettingsInPlayInit_traffic ..) fun k hk => ?_)
    · rw [World.onSettingsInPlayInit_player]
      refine uuid_update ?_ p
      rfl
    · exact w.forall_settingsInPlayInitPackets this _ (P := fun k => k.lists = none)
        (fun _ => rfl) (fun _ _ => rfl) (fun _ => rfl) (fun _ _ _ _ _ _ _ => rfl) k hk
  | settings =>
    refine .inl (.of_self (by simp) (fun p => by simp [World.Joined]) (fun p => ?_) _
      (World.onClientSettingsChange_traffic ..) fun k hk => lists_streamPackets hk)
    rw [World.onClientSettingsChange_player]
    refine uuid_update ?_ p
    rfl
  | transition _ hs =>
    left
    constructor
    · simp
    · simp [World.Joined]
    · intro p
      rw [World.onChunkTransition_player, World.setPlayer_player]
      exact uuid_update hs.uuid p
    · intro q
      by_cases hq : q = this
      · subst hq
        refine ⟨_, World.onChunkTransition_traffic_self .., fun k hk => ?_⟩
        rcases List.mem_append.mp hk with hk | hk
        · exact lists_streamPackets hk
        · obtain rfl := List.mem_singleton.mp hk
          rfl
      · exact ⟨_, World.onChunkTransition_traffic_ne _ _ _ _ _ _ hq, fun k hk =>
          lists_movePackets hk⟩
  | dig =>
    refine .inl ⟨by simp, by simp [World.Joined], by simp, fun q => ?_⟩
    refine ⟨_, World.startDigging_traffic .., fun k hk => ?_⟩
    split at hk
    · obtain rfl := List.mem_singleton.mp hk
      rfl
    · cases hk

/-- The list of who has not logged in is empty. -/
def Unlogged (w : World) (p : StateMachinePtr) : Prop :=
  w.life p ≠ .unused → ¬ w.Joined p → playerList (w.traffic p) = ∅

theorem Registry.present (h : Registry w p) :
    p ∈ w.roster.present ↔ p ∈ w.globalState.players ∧ w.life p = .live :=
  ⟨fun hp => ⟨h.joined hp.1 hp.2, hp.1⟩, fun hp => ⟨hp.2, (h.players hp.1).2⟩⟩

/-- The list after the packets of a login. -/
theorem playerList_loginPackets (hthis : this ∉ w.globalState.players) (name : Bytes)
    (hempty : playerList (w.traffic this) = ∅) :
    (playerList ((w.onLoginStart this name).traffic this) : Set Uuid) =
      insert (w.globalState.uuidGenerator name)
        ((fun p => (w.player p).uuid) '' (w.globalState.players : Set StateMachinePtr)) := by
  have hother : ∀ p ∈ w.globalState.players,
      Function.update w.player this (w.loggedIn this name) p = w.player p := by
    intro p hp
    have hne : p ≠ this := fun he => hthis (he ▸ hp)
    rw [Function.update_of_ne hne]
  rw [World.onLoginStart_traffic_self]
  ext uuid
  simp only [playerList] at hempty
  simp only [playerList, List.foldl_append, hempty, World.loginPackets, List.map_cons, List.map_nil,
    List.foldl_cons, List.foldl_nil, listAfter, PacketPlayerInfo.apply, Finset.coe_union,
    List.coe_toFinset, Set.mem_union, Set.mem_ofPred_eq, List.mem_map, List.mem_singleton,
    mem_ascending, Set.mem_insert_iff, Set.mem_image, Finset.mem_coe]
  constructor
  · rintro ((hno | ⟨entry, ⟨p, hp, rfl⟩, rfl⟩) | rfl)
    · simp at hno
    · exact .inr ⟨p, hp, by rw [hother p hp]; rfl⟩
    · exact .inl rfl
  · rintro (rfl | ⟨p, hp, rfl⟩)
    · exact .inr rfl
    · exact .inl (.inr ⟨_, ⟨p, hp, rfl⟩, by rw [hother p hp]; rfl⟩)

/-- **A login joins.** -/
theorem roster_onLoginStart (hr : ∀ p, Registry w p) (hlive : w.life this = .live)
    (hlogin : w.phase this = .login) (hempty : playerList (w.traffic this) = ∅) (name : Bytes) :
    w.roster.Joins (w.onLoginStart this name).roster this (w.globalState.uuidGenerator name) := by
  have hj : ¬ w.Joined this := by simp [World.Joined, hlogin]
  have hthis : this ∉ w.globalState.players := fun hp => hj ((hr this).players hp).2
  have hne : ∀ q ∈ w.roster.present, q ≠ this := by
    rintro q ⟨-, hq⟩ rfl
    exact hj hq
  constructor
  · exact fun hp => hj hp.2
  · ext q
    show _ ∧ _ ↔ _ ∨ _ ∧ _
    by_cases hq : q = this
    · subst hq
      simp [World.Joined, hlive]
    · simp [World.Joined, hq]
  · show ((w.onLoginStart this name).player this).uuid = _
    rw [World.onLoginStart_player, Function.update_self]
    rfl
  · intro q hq
    show ((w.onLoginStart this name).player q).uuid = (w.player q).uuid
    rw [World.onLoginStart_player, Function.update_of_ne (hne q hq)]
  · exact playerList_loginPackets hthis name hempty
  · intro q hq
    have hplayers := ((hr q).present.mp hq).1
    show (playerList ((w.onLoginStart this name).traffic q) : Set Uuid) =
      insert _ (playerList (w.traffic q) : Set Uuid)
    rw [World.onLoginStart_traffic_ne _ _ _ (hne q hq), if_pos hplayers]
    ext uuid
    simp [listAfter, PacketPlayerInfo.apply, addPlayerEntry, World.loggedIn]

/-- **A drop in `PLAY` leaves.** -/
theorem roster_destroy_play (hr : ∀ p, Registry w p) (hplay : w.phase this = .play) :
    w.roster.Leaves (w.destroy this).roster this where
  present := by
    ext q
    show _ ∧ _ ↔ (_ ∧ _) ∧ _ ≠ _
    by_cases hq : q = this
    · subst hq
      simp
    · simp [World.Joined, hq]
  key := by
    funext q
    show ((w.destroy this).player q).uuid = _
    rw [World.destroy_player]
    rfl
  copy q hq hne := by
    have hplayers := ((hr q).present.mp hq).1
    have hdespawn : playerList (w.traffic q ++
        (if q ∈ w.tracker.subscriptions (w.player this).chunk then
          [createDespawnPacket (w.player this)] else []).map .sent) = playerList (w.traffic q) := by
      refine playerList_append fun k hk => ?_
      split at hk
      · obtain rfl := List.mem_singleton.mp hk
        rfl
      · cases hk
    show (playerList ((w.destroy this).traffic q) : Set Uuid) =
      (playerList (w.traffic q) : Set Uuid) \ {(w.player this).uuid}
    rw [World.destroy_traffic_ne w this hne, if_pos hplay, World.leavePackets, if_pos hplayers,
      List.map_append, ← List.append_assoc, List.map_singleton, playerList_snoc, hdespawn]
    simp [listAfter, PacketPlayerInfo.apply]

/-- A drop that is not in `PLAY` vanishes: the destructor tells of players in `PLAY` only. -/
theorem roster_destroy (hplay : w.phase this ≠ .play) :
    w.roster.Vanishes (w.destroy this).roster this where
  present := by
    ext q
    show _ ∧ _ ↔ (_ ∧ _) ∧ _ ≠ _
    by_cases hq : q = this
    · subst hq
      simp
    · simp [World.Joined, hq]
  key := by
    funext q
    show ((w.destroy this).player q).uuid = _
    rw [World.destroy_player]
    rfl
  copy q _ hne := by
    show (playerList ((w.destroy this).traffic q) : Set Uuid) = playerList (w.traffic q)
    rw [World.destroy_traffic_ne w this hne, if_neg hplay, List.map_nil, List.append_nil]

theorem hasOther_iff (hr : ∀ p, Registry w p) {uuid : Uuid} : w.HasOther this uuid ↔
    ∃ q ∈ w.roster.present, q ≠ this ∧ w.roster.key q = uuid := by
  refine exists_congr fun q => ?_
  rw [(hr q).present]
  constructor
  · rintro ⟨hp, hne, hl, he⟩
    exact ⟨⟨hp, hl⟩, hne, he⟩
  · rintro ⟨⟨hp, hl⟩, hne, he⟩
    exact ⟨hp, hne, hl, he⟩

theorem roster_receive (frame : PacketFrame) (now : Int) :
    (w.receive this frame now).roster = w.roster := by
  have hlist : ∀ q, playerList ((w.receive this frame now).traffic q) =
      playerList (w.traffic q) := by
    intro q
    rw [receive_traffic]
    by_cases hq : q = this
    · subst hq
      rw [Function.update_self, playerList_snoc]
      rfl
    · rw [Function.update_of_ne hq]
  unfold World.roster
  simp only [hlist, World.Joined, receive_life, receive_phase, receive_player, receive_globalState]

/-- A connection that comes has not logged in. -/
theorem roster_connect (hunused : w.life this = .unused) (clientSettings : ClientSettings)
    (entityId : EntityId) (now : Int) :
    w.roster.Stays (w.connect this clientSettings entityId now).roster := by
  have hne : ∀ q ∈ w.roster.present, q ≠ this := by
    rintro q ⟨hl, -⟩ rfl
    rw [hunused] at hl
    cases hl
  constructor
  · ext q
    show _ ∧ _ ↔ _ ∧ _
    by_cases hq : q = this
    · subst hq
      simp [World.Joined, hunused]
    · simp [World.Joined, hq]
  · intro q hq
    show ((w.connect this clientSettings entityId now).player q).uuid = _
    rw [connect_player, Function.update_of_ne (hne q hq)]
    rfl
  · exact fun q _ => rfl

theorem unlisted_onTick (now : Int) : Unlisted w (w.onTick this now) := by
  rcases onTick_cases w this now with ⟨-, hq⟩ | ⟨⟨hinit, ht⟩, heq⟩
  · exact hq.unlisted
  · refine .of_self ?_ (fun p => ?_) (fun p => ?_) [_]
      (onTick_traffic_of_timeout w this now hinit ht) (by simp [ClientboundPacket.lists])
    · rw [heq, World.disconnectWith_life]
    · rw [heq, World.Joined, World.disconnectWith_phase, World.Joined]
    · rw [heq, World.disconnectWith_player]

/-- A login: those who are on the registry are in its packets, and these are still there. -/
theorem agrees_login (hw : Tidy w) (hu : Unlogged w this) (ha : w.roster.Agrees)
    (hlive : w.life this = .live) (hphase : w.phase this = .login) {name : Bytes}
    (hframe : loginStartOf frame = some name) (now : Int) :
    (w.onPacket this frame now).roster.Agrees := by
  have hr := hw.registry_receive this frame now
  have hlogin : (w.receive this frame now).phase this = .login := by rwa [receive_phase]
  have hne : w.life this ≠ .unused := by
    rw [hlive]
    decide
  have hempty : playerList ((w.receive this frame now).traffic this) = ∅ := by
    rw [receive_traffic, Function.update_self, playerList_snoc]
    exact hu hne (by simp [World.Joined, hphase])
  have hjoins := roster_onLoginStart hr hlive hlogin hempty name
  have hlisted : (w.receive this frame now).roster.present ⊆
      (w.receive this frame now).roster.listed := fun q hq => ((hr q).present.mp hq).1
  have ha' : (w.receive this frame now).roster.Agrees := by rwa [roster_receive]
  rw [World.onPacket, handle_loginStart hlogin hframe, hjoins.agrees_iff hlisted ha', roster_receive]
  intro p hp
  have hpresent : p ∈ w.roster.present :=
    (hw.registry p).present.mpr ⟨hp, hw.live_of_players hp⟩
  exact .inr ⟨p, hpresent, rfl⟩

/-- A frame that is no login leaves the lists and those who should be on them. -/
theorem agrees_onPacket_of_no_login (ha : w.roster.Agrees)
    (hno : ∀ name, w.phase this = .login → loginStartOf frame ≠ some name) (now : Int) :
    (w.onPacket this frame now).roster.Agrees := by
  have ha' : (w.receive this frame now).roster.Agrees := by rwa [roster_receive]
  rcases (handle_effect (w.receive this frame now) this frame).unlisted with
    hun | ⟨name, hlogin, hframe, -⟩
  · exact hun.stays.agrees ha'
  · rw [receive_phase] at hlogin
    exact absurd hframe (hno name hlogin)

/-- A drop: it is announced in `PLAY` only, and in `PLAY_INIT` it is not clean. -/
theorem agrees_destroy_iff (hb : Base w) (ha : w.roster.Agrees)
    (hd : DropsClean w (.disconnect this)) :
    (w.destroy this).roster.Agrees ↔ KeepsPlayerList w (.disconnect this) := by
  by_cases hplay : w.phase this = .play
  · rw [(roster_destroy_play hb.registry hplay).agrees_iff ha, KeepsPlayerList,
      hasOther_iff hb.registry]
    simp [hplay, World.roster]
  · refine iff_of_true ?_ fun h => absurd h hplay
    have hthis : this ∉ w.roster.present := by
      rintro ⟨-, hj | hj⟩
      · exact hd.1 hj
      · exact hplay hj
    exact (roster_destroy hplay).stays hthis |>.agrees ha

/-- **One step**: the lists are right after it if and only if it meets `KeepsPlayerList`. -/
theorem playerListAgrees_next {step : ServerStep} (hw : Tidy w) (hu : ∀ p, Unlogged w p)
    (ha : PlayerListAgrees w) (he : server.enabled w step) (hd : DropsClean w step) :
    PlayerListAgrees (server.next w step) ↔ KeepsPlayerList w step := by
  rw [playerListAgrees_iff_roster] at ha ⊢
  cases step with
  | connect this clientSettings entityId now =>
    exact iff_of_true ((roster_connect he clientSettings entityId now).agrees ha) trivial
  | packet this frame now =>
    refine iff_of_true ?_ trivial
    by_cases hlog : ∃ name, w.phase this = .login ∧ loginStartOf frame = some name
    · obtain ⟨name, hphase, hframe⟩ := hlog
      exact agrees_login hw (hu this) ha he hphase hframe now
    · exact agrees_onPacket_of_no_login ha (fun name hl hf => hlog ⟨name, hl, hf⟩) now
  | error => exact iff_of_true ha trivial
  | tick this now => exact iff_of_true ((unlisted_onTick now).stays.agrees ha) trivial
  | disconnect this => exact agrees_destroy_iff hw.toBase ha hd

/-- Where nobody is, nobody has a list, and nobody is on one. -/
theorem PlayerListAgrees.free (h : PlayerListAgrees w) (hfree : w.life this ≠ .live) :
    PlayerListAgrees (w.free this) := by
  intro a hl hj uuid
  have hlive : w.life a = .live := (free_live_iff hfree).mp hl
  rw [free_traffic_of_live hfree hlive, h a hlive hj]
  exact exists_congr fun b => and_congr_left fun _ => (free_live_iff hfree).symm

theorem Unlogged.free (h : Unlogged w p) : Unlogged (w.free this) p := by
  intro hl hj
  have hp : p ≠ this := by
    rintro rfl
    exact hl free_life_self
  rw [free_traffic_ne hp]
  exact h (by rwa [free_life_ne hp] at hl) hj

theorem Unlisted.unlogged (h : Unlisted w w') (hu : Unlogged w p) : Unlogged w' p := by
  intro hlife hj
  obtain ⟨packets, ht, hk⟩ := h.traffic p
  rw [ht, playerList_append hk]
  exact hu (h.life ▸ hlife) fun hp => hj ((h.joined p).mpr hp)

theorem Unlogged.next {step : ServerStep} (hb : Base w) (h : ∀ p, Unlogged w p)
    (he : server.enabled w step) : ∀ p, Unlogged (server.next w step) p := by
  refine (forall_next_iff_of_broadcasts (fun hu hbr h hlife hj => ?_) hb.registry h).mpr ?_
  · -- Broadcasts go to those who have logged in.
    rw [hu.life] at hlife
    rw [World.Joined, hu.phase] at hj
    obtain ⟨ks, ht, hks⟩ := hbr
    obtain rfl : ks = [] := List.eq_nil_iff_forall_not_mem.mpr fun k hk => hj (hks k hk).2.2
    simpa [ht] using h hlife hj
  · cases step with
    | connect this clientSettings entityId now =>
      intro _ _
      rw [ServerStep.subject, next_connect, connect_traffic, hb.untouched this he]
      rfl
    | packet this frame now =>
      have hreceive : Unlogged (w.receive this frame now) this := by
        intro hlife hj
        rw [receive_traffic, Function.update_self, playerList_snoc]
        exact h this hlife (by simpa [World.Joined] using hj)
      rcases (handle_effect (w.receive this frame now) this frame).unlisted with
        hun | ⟨name, -, -, heq⟩
      · exact hun.unlogged hreceive
      · intro _ hj
        simp [ServerStep.subject, heq, World.Joined] at hj
    | error this => exact h this
    | tick this now => exact (unlisted_onTick now).unlogged (h this)
    | disconnect this =>
      intro _ hj
      have hlive : w.life this = .live := he
      rw [ServerStep.subject, next_disconnect, World.destroy_traffic_self]
      exact h this (by rw [hlive]; decide) (by simpa [World.Joined, ServerStep.subject] using hj)

end

/-! ## Runs -/

variable {uuidGenerator : Bytes → Uuid} {machine : StateMachinePtr → StateMachine}
  {steps : List ServerStep}

/-- **The player lists of a run with clean drops are right if and only if nobody drops in `PLAY`
whose UUID somebody else has.** -/
theorem playerListAgrees_iff (h : reusing.Run (.initial uuidGenerator machine) steps)
    (hd : reusing.Steps (.initial uuidGenerator machine) steps DropsClean) :
    reusing.Along (.initial uuidGenerator machine) steps PlayerListAgrees ↔
      reusing.Steps (.initial uuidGenerator machine) steps KeepsPlayerList :=
  along_iff_reusing (I := fun w => (∀ p, Unlogged w p) ∧ PlayerListAgrees w)
    ⟨fun _ hl => absurd rfl hl, fun _ hl => nomatch hl⟩ (fun _ hw => hw.2)
    (fun _ _ _ _ _ => trivial)
    (fun _ _ _ hw hfree => ⟨fun p => (hw.1 p).free, hw.2.free hfree⟩)
    (fun _ _ htidy hw he hdrop hok => ⟨Unlogged.next htidy.toBase hw.1 he,
      (playerListAgrees_next htidy hw.1 hw.2 he hdrop).mpr hok⟩)
    (fun _ _ htidy hw he hdrop hnext =>
      (playerListAgrees_next htidy hw.1 hw.2 he hdrop).mp hnext) h hd

/-- The name itself as the UUID, filled up with zeros. -/
def uuidOfName (name : Bytes) : Uuid := ⟨(name ++ List.replicate 16 0).take 16, by simp⟩

/-- A server without clients that tells names apart. -/
def namedServer : World := .initial uuidOfName fun _ => .fresh defaultClientSettings 0 0

/-- From the connection to `PLAY_INIT`, with the name `b`. -/
def otherLoginSteps (this : StateMachinePtr) : List ServerStep :=
  [.connect this defaultClientSettings 0 0, .packet this handshakeFrame 0,
    .packet this ⟨0x00, [1, 0x62]⟩ 0]

/-- Two players of two names, the second one at the address of a client that left. -/
theorem playerListAgrees_iff_drop :
    let steps := joinSteps 0 2 ++ leaveSteps 1 ++ otherLoginSteps 1
    reusing.Run namedServer steps ∧
      (reusing.Along namedServer steps PlayerListAgrees ↔
        reusing.Steps namedServer steps KeepsPlayerList) := by
  intro steps
  have h : reusing.Run namedServer steps := by decide +kernel
  have hearly : reusing.Steps namedServer steps DropsEarly := by decide +kernel
  exact ⟨h, playerListAgrees_iff h (hearly.mono fun _ _ hd => hd.clean)⟩

/-- A player that drops in `PLAY_INIT` stays on the list of the other one; one of two players with
the same name that drops in `PLAY` takes the other one from its own list. -/
theorem playerList_after_drops :
    (server.Run namedServer (joinSteps 0 2 ++ otherLoginSteps 1 ++ [.disconnect 1]) ∧
      ¬ server.Along namedServer (joinSteps 0 2 ++ otherLoginSteps 1 ++ [.disconnect 1])
        PlayerListAgrees) ∧
    server.Run namedServer (joinSteps 0 2 ++ joinSteps 1 2 ++ [.disconnect 1]) ∧
      ¬ server.Along namedServer (joinSteps 0 2 ++ joinSteps 1 2 ++ [.disconnect 1])
        PlayerListAgrees := by
  have hrun : server.Run namedServer (joinSteps 0 2 ++ otherLoginSteps 1 ++ [.disconnect 1]) := by
    decide +kernel
  refine ⟨⟨hrun, fun h => ?_⟩, by decide +kernel, fun h => ?_⟩
  · -- Nobody with the name `b` is there.
    have hplayers : ∀ b ∈ (server.after namedServer (joinSteps 0 2 ++ otherLoginSteps 1 ++
        [.disconnect 1])).globalState.players, (server.after namedServer (joinSteps 0 2 ++
          otherLoginSteps 1 ++ [.disconnect 1])).life b = .live →
        ((server.after namedServer (joinSteps 0 2 ++ otherLoginSteps 1 ++
          [.disconnect 1])).player b).uuid ≠ uuidOfName [0x62] := by decide +kernel
    obtain ⟨b, hl, hj, he⟩ := (h.last 0 (by decide +kernel) (by decide +kernel)
      (uuidOfName [0x62])).mp (by decide +kernel)
    exact hplayers b (((registry_of_run hrun).last b).joined hl hj) hl he
  · exact not_playerListAgrees_of_notMem (a := 0) (by decide +kernel) (by decide +kernel)
      (by decide +kernel) h.last

end Vitamine
