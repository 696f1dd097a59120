import Vitamine.Lib.Log
import Vitamine.Proxyd.Traffic

/-!
# The gate to `PLAY`

* `Teleports`: what every run keeps of the outstanding teleports, by the traffic.
* `gate_iff`: in a run, only admitted connections are in `PLAY`, and other confirmations change
  nothing, if and only if every confirmation in `PLAY_INIT` has an outstanding id.
* `play_without_settings`: a client that never sent settings confirms a teleport that was never
  started, and is in `PLAY`.
-/

namespace Vitamine

open Wire System

/-- The outstanding teleports by the traffic: the server starts one with each
`PlayerPositionLook`, and the client confirms it in `PLAY_INIT`. -/
def trackTeleport (ids : Finset (BitVec 32)) : Traffic → Finset (BitVec 32)
  | .sent (.playerPositionLookServer _ _ _ _ _ _ teleportId) => insert teleportId ids
  | .received .playInit frame => (teleportConfirmOf frame).elim ids ids.erase
  | _ => ids

def outstandingIn (log : List Traffic) : Finset (BitVec 32) := log.foldl trackTeleport ∅

/-- The client sent settings in `PLAY_INIT`. -/
def Settled (log : List Traffic) : Prop :=
  ∃ frame packet, Traffic.received .playInit frame ∈ log ∧ settingsOf frame = some packet

/-- The event confirms, in `PLAY_INIT` and after settings, a teleport that is outstanding. -/
def Confirms (pre : List Traffic) : Traffic → Prop
  | .received .playInit frame =>
    ∃ id, teleportConfirmOf frame = some id ∧ id ∈ outstandingIn pre ∧ Settled pre
  | _ => False

/-- The client sent settings, and confirmed a teleport that was outstanding. -/
def Admitted (log : List Traffic) : Prop := Log.Sometime Confirms log

section Log

variable {log : List Traffic} {frame : PacketFrame} {packets : List ClientboundPacket}

/-- The packet starts no teleport. -/
def StartsNothing (packet : ClientboundPacket) : Prop :=
  ∀ ids, trackTeleport ids (.sent packet) = ids

theorem outstandingIn_snoc (e : Traffic) :
    outstandingIn (log ++ [e]) = trackTeleport (outstandingIn log) e := by
  simp [outstandingIn]

theorem outstandingIn_append (h : ∀ k ∈ packets, StartsNothing k) :
    outstandingIn (log ++ packets.map .sent) = outstandingIn log := by
  induction packets using List.reverseRecOn with
  | nil => simp
  | append_singleton packets k ih =>
    rw [List.map_append, ← List.append_assoc, List.map_singleton, outstandingIn_snoc,
      h k (by simp), ih fun k' hk' => h k' (by simp [hk'])]

theorem settled_append : Settled (log ++ packets.map .sent) ↔ Settled log := by
  simp [Settled]

theorem settled_snoc {phase : ClientPhase} : Settled (log ++ [.received phase frame]) ↔
    Settled log ∨ phase = .playInit ∧ settingsOf frame ≠ none := by
  simp only [Settled, List.mem_append, List.mem_singleton, Traffic.received.injEq,
    Option.ne_none_iff_exists']
  constructor
  · rintro ⟨frame', packet, hmem | ⟨rfl, rfl⟩, hp⟩
    · exact .inl ⟨frame', packet, hmem, hp⟩
    · exact .inr ⟨rfl, packet, hp⟩
  · rintro (⟨frame', packet, hmem, hp⟩ | ⟨rfl, packet, hp⟩)
    · exact ⟨frame', packet, .inl hmem, hp⟩
    · exact ⟨frame, packet, .inr ⟨rfl, rfl⟩, hp⟩

theorem admitted_append : Admitted (log ++ packets.map .sent) ↔ Admitted log :=
  Log.sometime_append fun _ => List.forall_mem_map.mpr fun _ _ => id

theorem admitted_snoc {phase : ClientPhase} : Admitted (log ++ [.received phase frame]) ↔
    Admitted log ∨ phase = .playInit ∧ ∃ id, teleportConfirmOf frame = some id ∧
      id ∈ outstandingIn log ∧ Settled log := by
  rw [Admitted, Log.sometime_snoc, Admitted]
  cases phase <;> simp [Confirms]

theorem Confirms.settled {pre : List Traffic} {e : Traffic} (h : Confirms pre e) : Settled pre := by
  unfold Confirms at h
  split at h
  · exact h.choose_spec.2.2
  · exact h.elim

theorem Admitted.settled (h : Admitted log) : Settled log := by
  obtain ⟨pre, e, ⟨post, rfl⟩, hc⟩ := h
  obtain ⟨frame, packet, hmem, hp⟩ := hc.settled
  exact ⟨frame, packet, by simp [hmem], hp⟩

theorem startsNothing_broadcast {k : ClientboundPacket} (h : Broadcast k) : StartsNothing k := by
  cases h with
  | update hid => cases k <;> first | exact fun _ => rfl | cases hid
  | _ => exact fun _ => rfl

theorem startsNothing_quiet {w : World} {this q : StateMachinePtr} {k : ClientboundPacket}
    (h : QuietPacket w this q k) : StartsNothing k := by
  cases h with
  | update _ _ _ hid => cases k <;> first | exact fun _ => rfl | cases hid
  | _ => exact fun _ => rfl

end Log

/-- `std::max` and `std::min` on `Int8`. -/
theorem clampViewDistance_bounds {viewDistance maxViewDistance : BitVec 8}
    (h : 2 ≤ maxViewDistance.toInt) :
    2 ≤ ((clampViewDistance viewDistance maxViewDistance).toNat : Int) ∧
      ((clampViewDistance viewDistance maxViewDistance).toNat : Int) ≤ maxViewDistance.toInt := by
  have hm := BitVec.toInt_eq_toNat_cond maxViewDistance
  have hv := BitVec.toInt_eq_toNat_cond viewDistance
  unfold clampViewDistance
  simp only [BitVec.slt_iff_toInt_lt, show (2#8).toInt = 2 from rfl]
  split_ifs <;> simp <;> omega

/-- What every run keeps of the teleports of a connection. -/
structure Teleports (w : World) (p : StateMachinePtr) : Prop where
  outstanding : w.life p = .live →
    (w.player p).outstandingTeleportIds = outstandingIn (w.traffic p)
  settled : w.life p = .live → (w.player p).outstandingTeleportIds.Nonempty →
    Settled (w.traffic p)
  granted : w.life p = .live → Settled (w.traffic p) → 2 ≤ (w.player p).viewDistance ∧
    (w.player p).viewDistance ≤ w.globalState.serverSettings.maxViewDistance.toInt
  waiting : w.life p = .live → w.phase p ≠ .play → ¬ Admitted (w.traffic p)

/-- The server grants view distances of 2 at least. -/
def Generous (w : World) : Prop := 2 ≤ w.globalState.serverSettings.maxViewDistance.toInt

section

variable {w w' : World} {this p : StateMachinePtr} {frame : PacketFrame}

theorem withSettings_bounds (hg : Generous w) (this : StateMachinePtr)
    (packet : ClientSettingsPacket) :
    2 ≤ (w.withSettings this packet).viewDistance ∧ (w.withSettings this packet).viewDistance ≤
      w.globalState.serverSettings.maxViewDistance.toInt :=
  clampViewDistance_bounds hg

/-- Packets that start nothing, to a player with the same teleports. -/
theorem Teleports.of_silent (h : Teleports w p) (hlife : w'.life p = w.life p)
    (hids : (w'.player p).outstandingTeleportIds = (w.player p).outstandingTeleportIds)
    (hvd : (w'.player p).viewDistance = (w.player p).viewDistance ∨
      2 ≤ (w'.player p).viewDistance ∧
        (w'.player p).viewDistance ≤ w.globalState.serverSettings.maxViewDistance.toInt)
    (hphase : w'.phase p ≠ .play → w.phase p ≠ .play)
    (hsettings : w'.globalState.serverSettings = w.globalState.serverSettings)
    (packets : List ClientboundPacket) (ht : w'.traffic p = w.traffic p ++ packets.map .sent)
    (hs : ∀ k ∈ packets, StartsNothing k) : Teleports w' p where
  outstanding hl := by
    rw [hids, ht, outstandingIn_append hs]
    exact h.outstanding (hlife ▸ hl)
  settled hl hne := by
    rw [ht, settled_append]
    exact h.settled (hlife ▸ hl) (hids ▸ hne)
  granted hl hset := by
    rw [ht, settled_append] at hset
    rw [hsettings]
    rcases hvd with hvd | hvd
    · rw [hvd]
      exact h.granted (hlife ▸ hl) hset
    · exact hvd
  waiting hl hp := by
    rw [ht, admitted_append]
    exact h.waiting (hlife ▸ hl) (hphase hp)

theorem Teleports.of_unmoved (h : Teleports w p) (hu : Unmoved w w' p)
    {packets : List ClientboundPacket} (ht : w'.traffic p = w.traffic p ++ packets.map .sent)
    (hs : ∀ k ∈ packets, StartsNothing k) : Teleports w' p :=
  h.of_silent hu.life hu.player.outstandingTeleportIds (.inl hu.player.toKeeps.viewDistance)
    (fun hp => hu.phase ▸ hp) hu.serverSettings _ ht hs

theorem Teleports.of_quiet (h : Teleports w p) (hq : Quiet this w w') : Teleports w' p := by
  obtain ⟨ks, ht, hks⟩ := hq.traffic p
  exact h.of_unmoved hq.toSkeleton.unmoved ht fun k hk => startsNothing_quiet (hks k hk)

/-- A frame that is neither settings nor a confirmation of `PLAY_INIT`. -/
theorem Teleports.receive (h : Teleports w this)
    (hn : w.phase this = .playInit → settingsOf frame = none ∧ teleportConfirmOf frame = none)
    (now : Int) : Teleports (w.receive this frame now) this := by
  have ht : (w.receive this frame now).traffic this =
      w.traffic this ++ [.received (w.phase this) frame] := by
    rw [receive_traffic, Function.update_self]
  have ho : outstandingIn ((w.receive this frame now).traffic this) =
      outstandingIn (w.traffic this) := by
    rw [ht, outstandingIn_snoc]
    cases hphase : w.phase this with
    | playInit => simp [trackTeleport, (hn hphase).2]
    | _ => rfl
  have hset : Settled ((w.receive this frame now).traffic this) ↔ Settled (w.traffic this) := by
    rw [ht, settled_snoc]
    exact or_iff_left fun hs => hs.2 (hn hs.1).1
  have hadm : Admitted ((w.receive this frame now).traffic this) ↔ Admitted (w.traffic this) := by
    rw [ht, admitted_snoc]
    refine or_iff_left fun ⟨hphase, id, hid, _⟩ => ?_
    rw [(hn hphase).2] at hid
    cases hid
  constructor
  · rw [ho, receive_player]
    exact h.outstanding
  · rw [hset, receive_player]
    exact h.settled
  · rw [hset, receive_player]
    exact h.granted
  · rw [hadm, receive_phase]
    exact h.waiting

/-- A confirmation: its id is not outstanding afterwards. -/
theorem Teleports.onTeleportConfirm (h : Teleports w this) (hlive : w.life this = .live)
    (hinit : w.phase this = .playInit) {id : BitVec 32} (hframe : teleportConfirmOf frame = some id)
    (hother : settingsOf frame = none) (now : Int) :
    Teleports ((w.receive this frame now).onTeleportConfirm this id) this := by
  have hphase : (w.receive this frame now).phase this = .playInit := by simpa using hinit
  obtain ⟨ks, ht, hks⟩ : ∃ ks : List ClientboundPacket,
      ((w.receive this frame now).onTeleportConfirm this id).traffic this =
        (w.traffic this ++ [.received .playInit frame]) ++ ks.map .sent ∧
      ∀ k ∈ ks, StartsNothing k := by
    rw [onTeleportConfirm_traffic_self hphase, receive_traffic, Function.update_self, hinit]
    exact ⟨_, rfl, forall_confirmPackets (fun _ _ => rfl) fun _ _ _ => rfl⟩
  have hplayer : ((w.receive this frame now).onTeleportConfirm this id).player this =
      { w.player this with
        outstandingTeleportIds := (w.player this).outstandingTeleportIds.erase id } := by
    rw [World.onTeleportConfirm_eq, World.enterPlay_player, World.confirmed_player,
      Function.update_self, receive_player]
  have hset : Settled (((w.receive this frame now).onTeleportConfirm this id).traffic this) ↔
      Settled (w.traffic this) := by
    rw [ht, settled_append, settled_snoc]
    exact or_iff_left fun hs => hs.2 hother
  constructor
  · intro _
    rw [hplayer, ht, outstandingIn_append hks, outstandingIn_snoc, ← h.outstanding hlive,
      trackTeleport, hframe]
    rfl
  · intro _ hne
    rw [hplayer] at hne
    rw [hset]
    exact h.settled hlive (hne.mono (Finset.erase_subset _ _))
  · intro _ hs
    rw [World.onTeleportConfirm_eq, World.enterPlay_serverSettings, World.confirmed_globalState,
      World.enterPlay_player, World.confirmed_viewDistance, receive_player, receive_globalState]
    exact h.granted hlive (hset.mp hs)
  · intro _ hp
    simp [World.onTeleportConfirm_eq] at hp

theorem startsNothing_streamPackets {unloads loads : List ChunkCoord} {k : ClientboundPacket}
    (hk : k ∈ w.streamPackets unloads loads) : StartsNothing k :=
  w.forall_streamPackets (P := StartsNothing) (fun _ _ => rfl) (fun _ _ _ => rfl) k hk

/-- The last packet of the settings in `PLAY_INIT` starts the teleport, the others start none. -/
theorem outstandingIn_settingsInPlayInitPackets (log : List Traffic)
    (packet : ClientSettingsPacket) :
    outstandingIn (log ++ (w.settingsInPlayInitPackets this packet).map .sent) =
      insert (w.player this).nextTeleportId (outstandingIn log) := by
  have hspawn : ∀ k ∈ [ClientboundPacket.spawnPosition (toPosition ⟨0, 0, 0⟩)],
      StartsNothing k := by simp [StartsNothing, trackTeleport]
  have hsplit : ∀ (ks : List ClientboundPacket) (k k' : ClientboundPacket),
      log ++ (ks ++ [k, k']).map .sent = (log ++ ks.map .sent ++ [k].map .sent) ++ [.sent k'] :=
    fun ks k k' => by simp
  rw [World.settingsInPlayInitPackets, hsplit, outstandingIn_snoc, outstandingIn_append hspawn,
    outstandingIn_append fun k hk => startsNothing_streamPackets hk]
  rfl

/-- Settings in `PLAY_INIT` start a teleport. -/
theorem Teleports.onSettingsInPlayInit (h : Teleports w this) (hg : Generous w)
    (hlive : w.life this = .live) (hinit : w.phase this = .playInit)
    {packet : ClientSettingsPacket} (hframe : settingsOf frame = some packet)
    (hother : teleportConfirmOf frame = none) (now : Int) :
    Teleports ((w.receive this frame now).onSettingsInPlayInit this packet) this := by
  have ht : ((w.receive this frame now).onSettingsInPlayInit this packet).traffic this =
      (w.traffic this ++ [.received .playInit frame]) ++
        ((w.receive this frame now).settingsInPlayInitPackets this packet).map .sent := by
    rw [World.onSettingsInPlayInit_traffic, Function.update_self, receive_traffic,
      Function.update_self, hinit]
  have hplayer : ((w.receive this frame now).onSettingsInPlayInit this packet).player this =
      ((w.receive this frame now).withSettings this packet).startTeleport := by
    rw [World.onSettingsInPlayInit_player, Function.update_self]
  have hids : (((w.receive this frame now).withSettings this
      packet).startTeleport).outstandingTeleportIds =
        insert (w.player this).nextTeleportId (w.player this).outstandingTeleportIds := by
    rw [World.withSettings, receive_player]
    rfl
  constructor
  · intro _
    rw [hplayer, hids, ht, outstandingIn_settingsInPlayInitPackets, outstandingIn_snoc,
      h.outstanding hlive, trackTeleport, hother, receive_player]
    rfl
  · intro _ _
    rw [ht, settled_append, settled_snoc]
    exact .inr ⟨rfl, by simp [hframe]⟩
  · intro _ _
    rw [hplayer, World.onSettingsInPlayInit_serverSettings]
    exact withSettings_bounds (w := w.receive this frame now) hg this packet
  · intro _ _
    rw [ht, admitted_append, admitted_snoc, hother]
    simpa using h.waiting hlive (by rw [hinit]; decide)

theorem Teleports.initial (uuidGenerator : Bytes → Uuid)
    (machine : StateMachinePtr → StateMachine) : Teleports (.initial uuidGenerator machine) p where
  outstanding hl := nomatch hl
  settled hl := nomatch hl
  granted hl := nomatch hl
  waiting hl := nomatch hl

theorem startsNothing_loginPackets {name : Bytes} {k : ClientboundPacket}
    (hk : k ∈ w.loginPackets this name) : StartsNothing k := by
  simp only [World.loginPackets, List.mem_cons, List.not_mem_nil, or_false] at hk
  rcases hk with rfl | rfl | rfl | rfl | rfl | rfl | rfl <;> exact fun _ => rfl

theorem Teleports.effect (h : Teleports w this) (hg : Generous w) (hlive : w.life this = .live)
    {now : Int} (he : Effect (w.receive this frame now) this frame w') : Teleports w' this := by
  -- What the log says after the frame, in the phases in which it does not count.
  have hreceive : w.phase this ≠ .playInit → Teleports (w.receive this frame now) this :=
    fun hp => h.receive (fun hp' => absurd hp' hp) now
  cases he with
  | quiet hinit _ hq =>
    exact (h.receive (fun hp => hinit (by simpa using hp)) now).of_quiet hq
  | phase hinit =>
    rw [receive_phase] at hinit
    exact (hreceive (by rw [hinit]; decide)).of_silent rfl (by simp) (.inl (by simp))
      (by simp [hinit]) rfl [] (by simp) (by simp)
  | @login name hlogin =>
    rw [receive_phase] at hlogin
    exact (hreceive (by rw [hlogin]; decide)).of_silent (by simp)
      (by simp [World.loggedIn]) (.inl (by simp [World.loggedIn, PlayerState.viewDistance]))
      (by simp [hlogin]) (by simp) _ (World.onLoginStart_traffic_self _ _ _)
      fun k hk => startsNothing_loginPackets hk
  | confirm hinit hframe hother =>
    exact h.onTeleportConfirm hlive (by simpa using hinit) hframe hother now
  | settingsInit hinit hframe hother =>
    exact h.onSettingsInPlayInit hg hlive (by simpa using hinit) hframe hother now
  | @settings packet hplay =>
    rw [receive_phase] at hplay
    refine (hreceive (by rw [hplay]; decide)).of_silent (by simp) ?_ (.inr ?_) (by simp [hplay])
      (by simp) _ (by rw [World.onClientSettingsChange_traffic, Function.update_self])
      fun k hk => startsNothing_streamPackets hk
    · rw [World.onClientSettingsChange_player, Function.update_self]
      rfl
    · rw [World.onClientSettingsChange_player, Function.update_self]
      exact withSettings_bounds (w := w.receive this frame now) hg this packet
  | transition hplay hsame =>
    rw [receive_phase] at hplay
    refine (hreceive (by rw [hplay]; decide)).of_silent (by simp) ?_ (.inl ?_) (by simp [hplay])
      (by simp) _ (World.onChunkTransition_traffic_self _ _ _ _ _ _) fun k hk => ?_
    · simpa using hsame.outstandingTeleportIds
    · simpa using hsame.viewDistance
    · rcases List.mem_append.mp hk with hk | hk
      · exact startsNothing_streamPackets hk
      · obtain rfl := List.mem_singleton.mp hk
        exact fun _ => rfl
  | @dig location hplay =>
    rw [receive_phase] at hplay
    refine (hreceive (by rw [hplay]; decide)).of_silent (by simp) (by simp) (.inl (by simp))
      (by simp [hplay]) (by simp) _ (World.startDigging_traffic _ _ _) ?_
    simp

theorem Teleports.next {step : ServerStep} (hb : Base w) (hg : Generous w)
    (h : ∀ p, Teleports w p) (he : server.enabled w step) :
    ∀ p, Teleports (server.next w step) p := by
  refine (forall_next_iff_of_broadcasts (fun hu hbc h => ?_) hb.registry h).mpr ?_
  · obtain ⟨ks, ht, hks⟩ := hbc
    exact h.of_unmoved hu ht fun k hk => startsNothing_broadcast (hks k hk).1
  cases step with
  | connect this clientSettings entityId now =>
    have ht : w.traffic this = [] := hb.untouched this he
    constructor <;>
      simp [ServerStep.subject, ht, outstandingIn, Settled, Admitted]
  | packet this frame now => exact (h this).effect hg he (handle_effect _ this frame)
  | error this => exact (h this).of_quiet (quiet_disconnect w)
  | tick this now =>
    rcases onTick_cases w this now with ⟨-, hq⟩ | ⟨⟨hinit, ht⟩, -⟩
    · exact (h this).of_quiet hq
    · exact (h this).of_unmoved (unmoved_onTick now)
        (onTick_traffic_self_of_timeout w this now hinit ht) (by simp [StartsNothing, trackTeleport])
  | disconnect this => constructor <;> simp [ServerStep.subject]

end

/-! ## The gate -/

/-- A connection in `PLAY`, or in the tracker as a member of a chunk, is one that was admitted, and
in `PLAY` its view distance is one that the server grants. -/
def Gated (w : World) : Prop := ∀ p,
  ((w.life p = .live ∧ w.phase p = .play) ∨ (∃ c, p ∈ w.tracker.membership c) →
    Admitted (w.traffic p)) ∧
  (w.life p = .live → w.phase p = .play → 2 ≤ (w.player p).viewDistance ∧
    (w.player p).viewDistance ≤ w.globalState.serverSettings.maxViewDistance.toInt)

/-- A `TeleportConfirm` of another id leaves the phase, the tracker and what the others are sent. -/
def RefusesOthers (w : World) : ServerStep → Prop
  | .packet this frame now => w.Joined this → ∀ id, teleportConfirmOf frame = some id →
      id ∉ (w.player this).outstandingTeleportIds →
        (server.next w (.packet this frame now)).phase this = w.phase this ∧
        (server.next w (.packet this frame now)).tracker = w.tracker ∧
        ∀ q ≠ this, (server.next w (.packet this frame now)).traffic q = w.traffic q
  | _ => True

/-- A `TeleportConfirm` in `PLAY_INIT` has the id of an outstanding teleport. -/
def ConfirmsOutstanding (w : World) : ServerStep → Prop
  | .packet this frame _ => w.phase this = .playInit → ∀ id, teleportConfirmOf frame = some id →
      id ∈ (w.player this).outstandingTeleportIds
  | _ => True

section

variable {w w' : World} {this p : StateMachinePtr} {frame : PacketFrame}

/-- The other two parts of the gate follow from the first. -/
theorem gated_iff (hr : ∀ p, Registry w p) (ht : ∀ p, Teleports w p) : Gated w ↔
    ∀ p, w.life p = .live → w.phase p = .play → Admitted (w.traffic p) := by
  constructor
  · exact fun h p hl hp => (h p).1 (.inl ⟨hl, hp⟩)
  · refine fun h p => ⟨?_, fun hl hp => (ht p).granted hl (h p hl hp).settled⟩
    rintro (⟨hl, hp⟩ | ⟨c, hc⟩)
    · exact h p hl hp
    · obtain ⟨hl, hp, -⟩ := ((hr p).membership c).mp hc
      exact h p hl hp

/-- **A frame leaves a player in `PLAY` that was not admitted exactly when it is a confirmation of
another id.** -/
theorem admitted_effect (ht : Teleports w this) (hlive : w.life this = .live)
    (h : w.phase this = .play → Admitted (w.traffic this)) {now : Int}
    (he : Effect (w.receive this frame now) this frame w') :
    (w'.phase this = .play → Admitted (w'.traffic this)) ↔
      ConfirmsOutstanding w (.packet this frame now) := by
  have hadmitted : Admitted (w'.traffic this) ↔ Admitted (w.traffic this) ∨
      w.phase this = .playInit ∧ ∃ id, teleportConfirmOf frame = some id ∧
        id ∈ outstandingIn (w.traffic this) ∧ Settled (w.traffic this) := by
    obtain ⟨ks, hks⟩ := he.traffic_self
    rw [hks, admitted_append, receive_traffic, Function.update_self, admitted_snoc]
  -- Outside of `PLAY_INIT`, and in it without a confirmation, there is nothing to confirm.
  have hstays : (w'.phase this = .play → w.phase this = .play) →
      (w.phase this = .playInit → teleportConfirmOf frame = none) →
      ((w'.phase this = .play → Admitted (w'.traffic this)) ↔
        ConfirmsOutstanding w (.packet this frame now)) := fun hback hnone =>
    iff_of_true (fun hp => hadmitted.mpr (.inl (h (hback hp)))) fun hp id hid => by
      rw [hnone hp] at hid
      cases hid
  cases he with
  | quiet hinit _ hq =>
    exact hstays (fun hp => by simpa [hq.phase] using hp)
      fun hp => (hinit (by simpa using hp)).2
  | phase hinit hnew =>
    rw [receive_phase] at hinit
    exact hstays (fun hp => by rcases hnew with rfl | rfl <;> simp at hp) (by simp [hinit])
  | login hlogin =>
    rw [receive_phase] at hlogin
    exact hstays (fun hp => by simp at hp) (by simp [hlogin])
  | @confirm id hinit hframe =>
    rw [receive_phase] at hinit
    have hphase : ((w.receive this frame now).onTeleportConfirm this id).phase this = .play := by
      simp [World.onTeleportConfirm_eq]
    have hwait : ¬ Admitted (w.traffic this) := ht.waiting hlive (by rw [hinit]; decide)
    simp only [hphase, hadmitted, hwait, hinit, hframe, ConfirmsOutstanding, ht.outstanding hlive,
      true_imp_iff, true_and, false_or, Option.some.injEq, exists_eq_left', forall_eq']
    refine and_iff_left_of_imp fun hid => ht.settled hlive ⟨id, ?_⟩
    rwa [ht.outstanding hlive]
  | settingsInit hinit _ hother =>
    rw [receive_phase] at hinit
    exact hstays (fun hp => by simp [hinit] at hp) fun _ => hother
  | settings hplay =>
    rw [receive_phase] at hplay
    exact hstays (fun _ => hplay) (by simp [hplay])
  | transition hplay =>
    rw [receive_phase] at hplay
    exact hstays (fun _ => hplay) (by simp [hplay])
  | dig hplay =>
    rw [receive_phase] at hplay
    exact hstays (fun _ => hplay) (by simp [hplay])

theorem gated_next {step : ServerStep} (hb : Base w) (hg : Generous w) (ht : ∀ p, Teleports w p)
    (h : Gated w) (he : server.enabled w step) :
    Gated (server.next w step) ↔ ConfirmsOutstanding w step := by
  rw [gated_iff (Registry.next hb.registry he) (Teleports.next hb hg ht he)]
  rw [gated_iff hb.registry ht] at h
  have hframe := @forall_next_iff_of_broadcasts w
    (fun w p => w.life p = .live → w.phase p = .play → Admitted (w.traffic p)) step
    (fun {_ _ _} hu hbc h hl hp => by
      obtain ⟨ks, hks, -⟩ := hbc
      rw [hks, admitted_append]
      exact h (hu.life ▸ hl) (hu.phase ▸ hp)) hb.registry h
  refine hframe.trans ?_
  cases step with
  | connect this clientSettings entityId now => simp [ServerStep.subject, ConfirmsOutstanding]
  | packet this frame now =>
    have hlive : w.life this = .live := he
    have hstep := admitted_effect (ht this) hlive (h this hlive)
      (handle_effect (w.receive this frame now) this frame)
    simpa [ServerStep.subject, hlive] using hstep
  | error this => exact iff_of_true (h this) trivial
  | tick this now =>
    refine iff_of_true (fun hl hp => ?_) trivial
    have hu : Unmoved w (w.onTick this now) this := unmoved_onTick now
    rcases onTick_cases w this now with ⟨-, hq⟩ | ⟨⟨hinit, -⟩, -⟩
    · obtain ⟨ks, hks, -⟩ := hq.traffic this
      rw [ServerStep.subject, next_tick, hks, admitted_append]
      exact h this he (hu.phase ▸ hp)
    · rw [ServerStep.subject, next_tick, hu.phase, hinit] at hp
      cases hp
  | disconnect this => simp [ServerStep.subject, ConfirmsOutstanding]

/-- In `PLAY` a `TeleportConfirm` is a packet like any other that is not known. -/
theorem handle_play_of_teleportConfirm (hplay : w.phase this = .play) {id : BitVec 32}
    (hframe : teleportConfirmOf frame = some id) : w.handle this frame = w := by
  have hid : frame.id = packetTeleportConfirm.id := by
    obtain ⟨packet, hp, -⟩ := Option.map_eq_some_iff.mp hframe
    exact id_of_payloadOf hp
  have hfind : (w.playCases this).find? (fun c => frame.id = c.packetDef.id) = none := by
    rw [hid]
    rfl
  rw [World.handle, hplay]
  simp only
  rw [switchFrame, hfind]

theorem refusesOthers_of_confirmsOutstanding {step : ServerStep} (h : ConfirmsOutstanding w step) :
    RefusesOthers w step := by
  cases step with
  | packet this frame now =>
    rintro (hinit | hplay) id hframe hid
    · exact absurd (h hinit id hframe) hid
    · have hhandle : (w.receive this frame now).handle this frame = w.receive this frame now :=
        handle_play_of_teleportConfirm (by simpa using hplay) hframe
      rw [next_packet, hhandle]
      exact ⟨by simp, by simp, fun q hq => by simp [hq]⟩
  | _ => trivial

end

variable {uuidGenerator : Bytes → Uuid} {machine : StateMachinePtr → StateMachine}
  {steps : List ServerStep}

/-- **The gate of a run holds, and turns away other ids, if and only if every confirmation in
`PLAY_INIT` has an outstanding id.** -/
theorem gate_iff (h : server.Run (.initial uuidGenerator machine) steps) :
    server.Along (.initial uuidGenerator machine) steps Gated ∧
        server.Steps (.initial uuidGenerator machine) steps RefusesOthers ↔
      server.Steps (.initial uuidGenerator machine) steps ConfirmsOutstanding := by
  have hiff : server.Along (.initial uuidGenerator machine) steps Gated ↔
      server.Steps (.initial uuidGenerator machine) steps ConfirmsOutstanding := by
    refine along_iff_steps
      (I := fun w => (Base w ∧ Generous w ∧ ∀ p, Teleports w p) ∧ Gated w)
      ⟨⟨.initial uuidGenerator machine, by simp [Generous, World.initial],
        fun p => .initial uuidGenerator machine⟩, ?_⟩ (fun _ hw => hw.2) ?_ ?_ h
    · refine (gated_iff (fun _ => .initial uuidGenerator machine)
        fun _ => .initial uuidGenerator machine).mpr fun p hl => by cases hl
    · rintro w step ⟨⟨hb, hg, ht⟩, hw⟩ he hok
      exact ⟨⟨hb.next he, by simpa [Generous] using hg, Teleports.next hb hg ht he⟩,
        (gated_next hb hg ht hw he).mpr hok⟩
    · rintro w step ⟨⟨hb, hg, ht⟩, hw⟩ he hn
      exact (gated_next hb hg ht hw he).mp hn
  exact ⟨fun hw => hiff.mp hw.1,
    fun hs => ⟨hiff.mpr hs, hs.mono fun _ _ => refusesOthers_of_confirmsOutstanding⟩⟩

/-- A client that joins, with a confirmation too many in `PLAY`. -/
theorem gate_iff_join :
    server.Run emptyServer (joinSteps 0 2 ++ [.packet 0 (teleportConfirmFrame 7) 0]) ∧
      (server.Along emptyServer (joinSteps 0 2 ++ [.packet 0 (teleportConfirmFrame 7) 0]) Gated ∧
          server.Steps emptyServer (joinSteps 0 2 ++ [.packet 0 (teleportConfirmFrame 7) 0])
            RefusesOthers ↔
        server.Steps emptyServer (joinSteps 0 2 ++ [.packet 0 (teleportConfirmFrame 7) 0])
          ConfirmsOutstanding) :=
  have h : server.Run emptyServer (joinSteps 0 2 ++ [.packet 0 (teleportConfirmFrame 7) 0]) := by
    decide +kernel
  ⟨h, gate_iff h⟩

/-- A client that never sent settings confirms a teleport that was never started. -/
theorem play_without_settings :
    server.Run emptyServer (loginSteps 0 ++ [.packet 0 (teleportConfirmFrame 7) 0]) ∧
      ¬ (server.Along emptyServer (loginSteps 0 ++ [.packet 0 (teleportConfirmFrame 7) 0]) Gated ∧
        server.Steps emptyServer (loginSteps 0 ++ [.packet 0 (teleportConfirmFrame 7) 0])
          RefusesOthers) := by
  refine ⟨by decide +kernel, fun h => ?_⟩
  -- The view distance is still that of a new player.
  have hvd := ((h.1.last 0).2 (by decide +kernel) (by decide +kernel)).1
  exact absurd hvd (by decide +kernel)

end Vitamine
