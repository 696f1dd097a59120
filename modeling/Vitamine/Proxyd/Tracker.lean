import Vitamine.Proxyd.Registries

/-!
# What the players are subscribed to

A player in `PLAY` should be subscribed to the square of its view distance around it. Entering and
moving keep that (`square_transition`); the ring loops do not, for any two view distances
(`square_settings_iff`), because they take three corners of the larger square for a part of the
smaller one.

* `trackerExact_iff`: the tracker of a run is exact if and only if no player in `PLAY` changes its
  view distance and no player enters with subscriptions from outside of its square.
* `subscriptions_after_settings`: two settings, one before and one after the way into `PLAY`.
-/

namespace Vitamine

open Wire System

/-- The player is subscribed to the square of its view distance. -/
def World.Exact (w : World) (p : StateMachinePtr) : Prop := ∀ c, p ∈ w.tracker.subscriptions c ↔
  ChunkCoord.Within (w.player p).chunk (w.player p).viewDistance c

/-- Every player in `PLAY` is subscribed to the square of its view distance, and a member of the
chunk it is in. -/
def TrackerExact (w : World) : Prop := ∀ p, w.life p = .live → w.phase p = .play → ∀ c,
  (p ∈ w.tracker.subscriptions c ↔
      |c.x - (w.player p).chunk.x| ≤ (w.player p).viewDistance ∧
        |c.z - (w.player p).chunk.z| ≤ (w.player p).viewDistance) ∧
    (p ∈ w.tracker.membership c ↔ c = (w.player p).chunk)

/-- The view distance that the settings of a frame ask for, as the server grants it. -/
def grantedViewDistance (w : World) (packet : ClientSettingsPacket) : BitVec 8 :=
  clampViewDistance packet.viewDistance w.globalState.serverSettings.maxViewDistance

/-- Settings in `PLAY` ask for the view distance that the player has, and a player that confirms a
teleport in `PLAY_INIT` is subscribed to nothing outside of its square. -/
def KeepsSquare (w : World) : ServerStep → Prop
  | .packet this frame _ =>
    (w.phase this = .play → ∀ packet, settingsOf frame = some packet →
      grantedViewDistance w packet = (w.player this).clientSettings.viewDistance) ∧
    (w.phase this = .playInit → teleportConfirmOf frame ≠ none →
      ∀ c, this ∈ w.tracker.subscriptions c →
        ChunkCoord.Within (w.player this).chunk (w.player this).viewDistance c)
  | _ => True

section

variable {w w' : World} {this p : StateMachinePtr} {frame : PacketFrame}

theorem Unmoved.exact (h : Unmoved w w' p) : w'.Exact p ↔ w.Exact p := by
  simp only [World.Exact, h.subscriptions, h.player.chunk, h.player.toKeeps.viewDistance]

/-- Entering subscribes to the square; what was subscribed to before stays. -/
theorem exact_onTeleportConfirm {id : BitVec 32} : (w.onTeleportConfirm this id).Exact this ↔
    ∀ c, this ∈ w.tracker.subscriptions c →
      ChunkCoord.Within (w.player this).chunk (w.player this).viewDistance c := by
  rw [World.onTeleportConfirm_eq]
  simp only [World.Exact, World.enterPlay_tracker, World.enterPlay_player, World.confirmed_tracker,
    World.confirmed_chunk, World.confirmed_viewDistance, PlayerTracker.mem_subscriptions_enter,
    true_and]
  exact forall_congr' fun c => or_iff_right_iff_imp

/-- **The ring loops** take a square to a square only if there is no ring: the chunk straight to the
west is neither in the ring that is taken away nor in the one that is added. -/
theorem square_settings_iff {s s' : ChunkCoord → Prop} (packet : ClientSettingsPacket)
    (h : ∀ c, s c ↔ ChunkCoord.Within (w.player this).chunk (w.player this).viewDistance c)
    (h' : ∀ c, s' c ↔
      s c ∧ c ∉ w.settingsUnloads this packet ∨ c ∈ w.settingsLoads this packet) :
    (∀ c, s' c ↔ ChunkCoord.Within (w.player this).chunk
      (w.withSettings this packet).viewDistance c) ↔
        (w.withSettings this packet).viewDistance = (w.player this).viewDistance := by
  have hvd := (w.player this).viewDistance_nonneg
  have hvd' := (w.withSettings this packet).viewDistance_nonneg
  constructor
  · intro hexact
    have hwest : ∀ d : Int, ChunkCoord.Within (w.player this).chunk d
        ⟨(w.player this).chunk.x - max (w.player this).viewDistance
          (w.withSettings this packet).viewDistance, (w.player this).chunk.z⟩ ↔
        max (w.player this).viewDistance (w.withSettings this packet).viewDistance ≤ d := by
      intro d
      rw [ChunkCoord.within_iff]
      simp only
      omega
    have hc := hexact ⟨(w.player this).chunk.x - max (w.player this).viewDistance
        (w.withSettings this packet).viewDistance, (w.player this).chunk.z⟩
    rw [h', h, World.mem_settingsUnloads, World.mem_settingsLoads, hwest, hwest] at hc
    simp only at hc
    omega
  · intro heq c
    rw [h', h, World.mem_settingsUnloads, World.mem_settingsLoads, heq]
    simp

/-- The two differences of squares take one square to the other. -/
theorem square_transition {s s' : ChunkCoord → Prop} {start target : ChunkCoord} {vd : Int}
    (h : ∀ c, s c ↔ ChunkCoord.Within start vd c)
    (h' : ∀ c, s' c ↔
      s c ∧ c ∉ chunksOutside start target vd ∨ c ∈ chunksOutside target start vd) :
    ∀ c, s' c ↔ ChunkCoord.Within target vd c := by
  intro c
  rw [h', h, World.mem_chunksOutside, World.mem_chunksOutside]
  tauto

theorem exact_onChunkTransition (h : w.Exact this) {s : PlayerState}
    (hs : (w.player this).Keeps s) (rotate : Bool) :
    ((w.setPlayer this s).onChunkTransition this (w.player this).chunk s.chunk
      (w.player this).position rotate).Exact this := by
  simp only [World.Exact, World.onChunkTransition_player, World.setPlayer_player,
    Function.update_self, hs.viewDistance]
  refine square_transition h fun c => ?_
  simp [World.onChunkTransition_tracker, hs.viewDistance]

theorem exact_onClientSettingsChange (h : w.Exact this) (packet : ClientSettingsPacket) :
    (w.onClientSettingsChange this packet).Exact this ↔
      (w.withSettings this packet).viewDistance = (w.player this).viewDistance := by
  rw [← square_settings_iff packet h fun c =>
    (by simp [World.mem_subscriptions_onClientSettingsChange] :
      this ∈ (w.onClientSettingsChange this packet).tracker.subscriptions c ↔ _)]
  simp only [World.Exact, World.onClientSettingsChange_player, Function.update_self,
    World.withSettings_chunk]

/-- The settings ask for the view distance that the player has. -/
theorem viewDistance_withSettings_iff (packet : ClientSettingsPacket) :
    (w.withSettings this packet).viewDistance = (w.player this).viewDistance ↔
      grantedViewDistance w packet = (w.player this).clientSettings.viewDistance := by
  simp only [PlayerState.viewDistance, Int.natCast_inj, BitVec.toNat_inj]
  rfl

theorem trackerExact_iff_exact (hr : ∀ p, Registry w p) : TrackerExact w ↔
    ∀ p, w.life p = .live → w.phase p = .play → w.Exact p := by
  refine forall_congr' fun p => forall_congr' fun hl => forall_congr' fun hphase => ?_
  have hm : ∀ c, p ∈ w.tracker.membership c ↔ c = (w.player p).chunk := fun c => by
    rw [(hr p).membership]
    exact ⟨fun h => h.2.2, fun h => ⟨hl, hphase, h⟩⟩
  exact ⟨fun h c => (h c).1, fun h c => ⟨h c, hm c⟩⟩

/-- A frame of a player in `PLAY` or on the way into it. -/
theorem exact_effect (h : w.phase this = .play → w.Exact this) (he : Effect w this frame w') :
    (w'.phase this = .play → w'.Exact this) ↔
      (w.phase this = .play → ∀ packet, settingsOf frame = some packet →
        grantedViewDistance w packet = (w.player this).clientSettings.viewDistance) ∧
      (w.phase this = .playInit → teleportConfirmOf frame ≠ none →
        ∀ c, this ∈ w.tracker.subscriptions c →
          ChunkCoord.Within (w.player this).chunk (w.player this).viewDistance c) := by
  cases he with
  | quiet hinit hplay hq =>
    rw [hq.toSkeleton.unmoved.exact, hq.phase]
    exact iff_of_true h ⟨fun hp packet hs => by simp [(hplay hp).1] at hs,
      fun hp ht => absurd (hinit hp).2 ht⟩
  | phase hinit hnew => rcases hnew with rfl | rfl <;> simp [hinit]
  | login hlogin => simp [hlogin]
  | confirm hinit hframe =>
    rw [exact_onTeleportConfirm]
    simp [World.onTeleportConfirm_eq, hinit, hframe]
  | settingsInit hinit hframe hother => simp [hinit, hother]
  | @settings packet hplay hframe =>
    simp [exact_onClientSettingsChange (h hplay), hplay, hframe, viewDistance_withSettings_iff]
  | transition hplay hs _ _ hframe =>
    exact iff_of_true (fun _ => exact_onChunkTransition (h hplay) hs _) ⟨by simp [hframe.1],
      by simp [hplay]⟩
  | @dig location hplay _ hother =>
    have hu : Unmoved w (w.startDigging this location) this :=
      ⟨by simp, by simp, same_of_eq (by simp), by simp, by simp, by simp, by simp⟩
    exact iff_of_true (fun _ => hu.exact.mpr (h hplay)) ⟨by simp [hother], by simp [hplay]⟩

theorem trackerExact_next {step : ServerStep} (hr : ∀ p, Registry w p) (ht : TrackerExact w)
    (he : server.enabled w step) : TrackerExact (server.next w step) ↔ KeepsSquare w step := by
  rw [trackerExact_iff_exact (Registry.next hr he)]
  rw [trackerExact_iff_exact hr] at ht
  rw [forall_next_iff (P := fun w p => w.life p = .live → w.phase p = .play → w.Exact p)
    (fun hu h hl hp => hu.exact.mpr (h (hu.life ▸ hl) (hu.phase ▸ hp))) ht]
  cases step with
  | connect this clientSettings entityId now =>
    simp [ServerStep.subject, KeepsSquare]
  | packet this frame now =>
    have hlive : w.life this = .live := he
    have hstep := @exact_effect _ _ this frame
      (fun hp => (unmoved_receive frame now).exact.mpr (ht this hlive (by simpa using hp)))
      (handle_effect (w.receive this frame now) this frame)
    simpa [ServerStep.subject, hlive, KeepsSquare, grantedViewDistance] using hstep
  | error this => exact iff_of_true (ht this) trivial
  | tick this now =>
    have hu : Unmoved w (w.onTick this now) this := unmoved_onTick now
    have hlive : w.life this = .live := he
    simpa [ServerStep.subject, KeepsSquare, hu.exact, hu.phase, hu.life] using ht this
  | disconnect this => simp [ServerStep.subject, KeepsSquare]

end

variable {uuidGenerator : Bytes → Uuid} {machine : StateMachinePtr → StateMachine}
  {steps : List ServerStep}

/-- **The tracker of a run is exact if and only if the settings of `PLAY` keep the view distance and
no player enters with subscriptions from outside of its square.** -/
theorem trackerExact_iff (h : server.Run (.initial uuidGenerator machine) steps) :
    server.Along (.initial uuidGenerator machine) steps TrackerExact ↔
      server.Steps (.initial uuidGenerator machine) steps KeepsSquare := by
  refine along_iff_steps (I := fun w => (∀ p, Registry w p) ∧ TrackerExact w)
    ⟨fun _ => .initial uuidGenerator machine, ?_⟩ (fun _ hw => hw.2) ?_ ?_ h
  · exact fun p hl => by cases hl
  · exact fun w step hw he hok =>
      ⟨Registry.next hw.1 he, (trackerExact_next hw.1 hw.2 he).mpr hok⟩
  · exact fun w step hw he ht => (trackerExact_next hw.1 hw.2 he).mp ht

/-- Two players, and one of them drops. -/
theorem trackerExact_iff_join :
    server.Run emptyServer (joinSteps 0 2 ++ joinSteps 1 3 ++ [.disconnect 0]) ∧
      (server.Along emptyServer (joinSteps 0 2 ++ joinSteps 1 3 ++ [.disconnect 0]) TrackerExact ↔
        server.Steps emptyServer (joinSteps 0 2 ++ joinSteps 1 3 ++ [.disconnect 0])
          KeepsSquare) :=
  have h : server.Run emptyServer (joinSteps 0 2 ++ joinSteps 1 3 ++ [.disconnect 0]) := by
    decide +kernel
  ⟨h, trackerExact_iff h⟩

/-- A player with a view distance of 2 that asks for 3 is not subscribed to the chunk three to the
west. -/
theorem subscriptions_after_settings :
    server.Run emptyServer (joinSteps 0 2 ++ [.packet 0 (clientSettingsFrame 3) 0]) ∧
      ¬ server.Along emptyServer (joinSteps 0 2 ++ [.packet 0 (clientSettingsFrame 3) 0])
        TrackerExact := by
  refine ⟨by decide +kernel, fun h => ?_⟩
  have hexact := (h.last 0 (by decide +kernel) (by decide +kernel) ⟨-3, 0⟩).1.mpr
    (by decide +kernel)
  exact absurd hexact (by decide +kernel)

end Vitamine
