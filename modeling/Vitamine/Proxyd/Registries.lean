import Vitamine.Proxyd.Steps

/-!
# The registries of the players

The player list and the two maps of the tracker, over whole runs.

* `Registry`: what every run keeps of every connection (`registry_of_run`). The entries belong to
  connections that have logged in, and the memberships are exact, but nothing says that the owner of
  an entry is still there.
* `noStaleEntry_iff`: the entries of a run belong to connections that are still there if and only
  if the connections of the run drop as the destructor expects it (`DropsClean`).
* `stale_entry_after_login`: a connection that drops in `PLAY_INIT` stays on the player list.
-/

namespace Vitamine

open Wire System

/-- The connection has logged in. -/
def World.Joined (w : World) (p : StateMachinePtr) : Prop :=
  w.phase p = .playInit ∨ w.phase p = .play

instance (w : World) (p : StateMachinePtr) : Decidable (w.Joined p) :=
  inferInstanceAs (Decidable (_ ∨ _))

/-- What every run keeps of the registries, for one connection. -/
structure Registry (w : World) (p : StateMachinePtr) : Prop where
  players : p ∈ w.globalState.players → w.life p ≠ .unused ∧ w.Joined p
  joined : w.life p = .live → w.Joined p → p ∈ w.globalState.players
  membership : ∀ c, p ∈ w.tracker.membership c ↔
    w.life p = .live ∧ w.phase p = .play ∧ c = (w.player p).chunk
  subscriptions : ∀ {c}, p ∈ w.tracker.subscriptions c → w.life p ≠ .unused ∧ w.Joined p

namespace Registry

variable {w w' : World} {this p : StateMachinePtr} {frame : PacketFrame}

theorem of_unmoved (h : Registry w p) (hu : Unmoved w w' p) : Registry w' p where
  players hp := by
    rw [World.Joined, hu.life, hu.phase]
    exact h.players (hu.players.mp hp)
  joined hl hj := by
    rw [World.Joined, hu.phase] at hj
    exact hu.players.mpr (h.joined (hu.life ▸ hl) hj)
  membership c := by
    rw [hu.membership, hu.life, hu.phase, hu.player.chunk]
    exact h.membership c
  subscriptions hp := by
    rw [World.Joined, hu.life, hu.phase]
    exact h.subscriptions ((hu.subscriptions _).mp hp)

/-- Nothing is registered before the login. -/
theorem of_not_joined (h : Registry w p) (hj : ¬ w.Joined p)
    (hplayers : p ∈ w'.globalState.players ↔ p ∈ w.globalState.players)
    (htracker : w'.tracker = w.tracker) (hj' : ¬ w'.Joined p) : Registry w' p where
  players hp := absurd (h.players (hplayers.mp hp)).2 hj
  joined _ hp := absurd hp hj'
  membership c := by
    rw [htracker, h.membership]
    exact ⟨fun hm => absurd (.inr hm.2.1) hj, fun hm => absurd (.inr hm.2.1) hj'⟩
  subscriptions hp := absurd (h.subscriptions (htracker ▸ hp)).2 hj

theorem initial (uuidGenerator : Bytes → Uuid) (machine : StateMachinePtr → StateMachine) :
    Registry (.initial uuidGenerator machine) p where
  players hp := by cases hp
  joined hl := by cases hl
  membership c := by simp [World.initial, World.tracker, PlayerTracker.empty]
  subscriptions hp := by cases hp

theorem connect (h : Registry w this) (hlife : w.life this = .unused)
    (clientSettings : ClientSettings) (entityId : EntityId) (now : Int) :
    Registry (w.connect this clientSettings entityId now) this where
  players hp := absurd hlife (h.players hp).1
  joined _ hj := by simp [World.Joined] at hj
  membership c := by simp [h.membership, hlife]
  subscriptions hp := absurd hlife (h.subscriptions hp).1

theorem onLoginStart (h : Registry w this) (hlive : w.life this = .live)
    (hphase : w.phase this = .login) (name : Bytes) :
    Registry (w.onLoginStart this name) this where
  players _ := by simp [World.Joined, hlive]
  joined _ _ := by simp
  membership c := by simp [h.membership, hphase]
  subscriptions _ := by simp [World.Joined, hlive]

/-- A `TeleportConfirm` enters, whatever its id is. -/
theorem onTeleportConfirm (h : Registry w this) (hlive : w.life this = .live)
    (hphase : w.phase this = .playInit) (id : BitVec 32) :
    Registry (w.onTeleportConfirm this id) this := by
  rw [World.onTeleportConfirm_eq]
  constructor
  · simp [World.Joined, hlive]
  · simpa using fun _ _ => h.joined hlive (.inl hphase)
  · simp [h.membership, hphase, hlive]
  · simp [World.Joined, hlive]

/-- Other subscriptions of a connection that has logged in. -/
theorem resubscribe (h : Registry w this) (hlive : w.life this = .live) (hj : w.Joined this)
    (hplayers : w'.globalState.players = w.globalState.players) (hlife : w'.life = w.life)
    (hphase : w'.phase = w.phase)
    (hmembership : ∀ c, this ∈ w'.tracker.membership c ↔
      w.life this = .live ∧ w.phase this = .play ∧ c = (w'.player this).chunk) :
    Registry w' this where
  players _ := by
    rw [World.Joined, hlife, hphase]
    exact ⟨by rw [hlive]; decide, hj⟩
  joined _ _ := hplayers ▸ h.joined hlive hj
  membership c := by
    rw [hlife, hphase]
    exact hmembership c
  subscriptions _ := by
    rw [World.Joined, hlife, hphase]
    exact ⟨by rw [hlive]; decide, hj⟩

/-- A move takes the membership along. -/
theorem onChunkTransition (h : Registry w this) (hlive : w.life this = .live)
    (hphase : w.phase this = .play) (s : PlayerState) (rotate : Bool) :
    Registry ((w.setPlayer this s).onChunkTransition this (w.player this).chunk s.chunk
      (w.player this).position rotate) this := by
  refine h.resubscribe hlive (.inr hphase) (by simp) (by simp) (by simp) fun c => ?_
  simp [World.onChunkTransition_tracker, h.membership, hphase, hlive]

theorem destroy (h : Registry w this) (hlive : w.life this = .live) :
    Registry (w.destroy this) this where
  players hp := by
    rw [World.destroy_players] at hp
    split at hp
    · exact absurd hp (Finset.notMem_erase _ _)
    · simpa [World.Joined] using (h.players hp).2
  joined hl := by simp at hl
  membership c := by
    rw [World.destroy_tracker]
    split <;> rename_i hphase <;> simp [h.membership, hphase, hlive]
  subscriptions hp := by
    suffices hj : w.Joined this by simpa [World.Joined] using hj
    rw [World.destroy_tracker] at hp
    split at hp
    · exact (h.subscriptions (PlayerTracker.mem_subscriptions_leave.mp hp).1).2
    · exact (h.subscriptions hp).2

/-- One case for each case of `Effect`. -/
theorem effect (h : Registry w this) (hlive : w.life this = .live) (he : Effect w this frame w') :
    Registry w' this := by
  cases he with
  | quiet _ _ hq => exact h.of_unmoved hq.toSkeleton.unmoved
  | phase hinit hnew =>
    refine h.of_not_joined (by simp [World.Joined, hinit]) .rfl rfl ?_
    rcases hnew with rfl | rfl <;> simp [World.Joined]
  | login hlogin => exact h.onLoginStart hlive hlogin _
  | confirm hinit => exact h.onTeleportConfirm hlive hinit _
  | settingsInit hinit =>
    refine h.resubscribe hlive (.inl hinit) (by simp) (by simp) (by simp) fun c => ?_
    rw [World.onSettingsInPlayInit_chunk, World.onSettingsInPlayInit_tracker,
      World.onClientSettingsChange_membership, h.membership]
  | settings hplay =>
    refine h.resubscribe hlive (.inr hplay) (by simp) (by simp) (by simp) fun c => ?_
    rw [World.onClientSettingsChange_chunk, World.onClientSettingsChange_membership, h.membership]
  | transition hplay => exact h.onChunkTransition hlive hplay _ _
  | dig hplay =>
    exact h.of_unmoved ⟨by simp, by simp, same_of_eq (by simp), by simp, by simp, by simp, by simp⟩

theorem next {step : ServerStep} (h : ∀ p, Registry w p) (he : server.enabled w step) :
    ∀ p, Registry (server.next w step) p := by
  refine (forall_next_iff (fun hu hr => hr.of_unmoved hu) h).mpr ?_
  cases step with
  | connect this clientSettings entityId now =>
    exact (h this).connect he clientSettings entityId now
  | packet this frame now =>
    exact effect ((h this).of_unmoved (unmoved_receive frame now)) he (handle_effect _ this frame)
  | error this => exact (h this).of_unmoved unmoved_disconnect
  | tick this now => exact (h this).of_unmoved (unmoved_onTick now)
  | disconnect this => exact (h this).destroy he

end Registry

theorem registry_of_run {uuidGenerator : Bytes → Uuid} {machine : StateMachinePtr → StateMachine}
    {steps : List ServerStep} (h : server.Run (.initial uuidGenerator machine) steps) :
    server.Along (.initial uuidGenerator machine) steps fun w => ∀ p, Registry w p :=
  along_of_run (fun _ => .initial uuidGenerator machine) (fun _ _ hw he => Registry.next hw he) h

/-! ## Stale entries -/

/-- The connection is in one of the registries. -/
def World.Registered (w : World) (p : StateMachinePtr) : Prop :=
  p ∈ w.globalState.players ∨ (∃ c, p ∈ w.tracker.membership c) ∨ ∃ c, p ∈ w.tracker.subscriptions c

/-- No registry outlives the owner of an entry. -/
def NoStaleEntry (w : World) : Prop := ∀ p, w.Registered p → w.life p ≠ .destroyed

/-- What the destructor expects of a connection that drops: it is not in `PLAY_INIT`, and in `PLAY`
it is subscribed to no chunk outside of its view distance. -/
def DropsClean (w : World) : ServerStep → Prop
  | .disconnect p => w.phase p ≠ .playInit ∧ (w.phase p = .play →
      ∀ c, p ∈ w.tracker.subscriptions c →
        ChunkCoord.Within (w.player p).chunk (w.player p).viewDistance c)
  | _ => True

section

variable {w w' : World} {this p : StateMachinePtr} {step : ServerStep}

theorem Unmoved.registered (h : Unmoved w w' p) : w'.Registered p ↔ w.Registered p := by
  simp only [World.Registered, h.players, h.membership, h.subscriptions]

/-- What a drop leaves in the registries: the entries of `PLAY_INIT`, and in `PLAY` the
subscriptions outside of the view distance. -/
theorem registered_destroy (h : Registry w this) (hlive : w.life this = .live) :
    (w.destroy this).Registered this ↔ ¬ DropsClean w (.disconnect this) := by
  have hplayers : this ∈ w.globalState.players ↔ w.Joined this :=
    ⟨fun hp => (h.players hp).2, h.joined hlive⟩
  have hsub : ¬ w.Joined this → ∀ c, this ∉ w.tracker.subscriptions c :=
    fun hj c hc => hj (h.subscriptions hc).2
  unfold World.Registered DropsClean
  simp only [World.destroy_players, World.destroy_tracker]
  by_cases hplay : w.phase this = .play
  · simp [hplay, h.membership]
  · simp only [if_neg hplay, hplayers, h.membership]
    by_cases hinit : w.phase this = .playInit
    · simp [World.Joined, hinit]
    · have hj : ¬ w.Joined this := not_or.mpr ⟨hinit, hplay⟩
      simp [hj, hsub hj, hinit, hplay]

/-- **A step leaves a stale entry exactly when it is a drop that the destructor does not
expect.** -/
theorem noStaleEntry_next (hr : ∀ p, Registry w p) (hn : NoStaleEntry w)
    (he : server.enabled w step) : NoStaleEntry (server.next w step) ↔ DropsClean w step := by
  have hsubject : NoStaleEntry (server.next w step) ↔
      ((server.next w step).Registered step.subject →
        (server.next w step).life step.subject ≠ .destroyed) :=
    forall_next_iff (P := fun w p => w.Registered p → w.life p ≠ .destroyed)
      (fun hu h hreg => by
        rw [hu.life]
        exact h (hu.registered.mp hreg)) hn
  rw [hsubject]
  cases step with
  | connect this clientSettings entityId now =>
    simp [ServerStep.subject, DropsClean]
  | packet this frame now =>
    have hlive : w.life this = .live := he
    simp [ServerStep.subject, DropsClean, hlive]
  | error this =>
    have hlive : w.life this = .live := he
    simp [ServerStep.subject, DropsClean, hlive]
  | tick this now =>
    have hlive : w.life this = .live := he
    have hlife : (w.onTick this now).life this = .live :=
      (unmoved_onTick now).life.trans hlive
    simp [ServerStep.subject, DropsClean, hlife]
  | disconnect this =>
    simp [ServerStep.subject, registered_destroy (hr this) he]

end

variable {uuidGenerator : Bytes → Uuid} {machine : StateMachinePtr → StateMachine}
  {steps : List ServerStep}

/-- **No registry of a run outlives the owner of an entry, if and only if every drop is one that the
destructor expects.** -/
theorem noStaleEntry_iff (h : server.Run (.initial uuidGenerator machine) steps) :
    server.Along (.initial uuidGenerator machine) steps NoStaleEntry ↔
      server.Steps (.initial uuidGenerator machine) steps DropsClean := by
  refine along_iff_steps (I := fun w => (∀ p, Registry w p) ∧ NoStaleEntry w)
    ⟨fun _ => .initial uuidGenerator machine, ?_⟩ (fun _ hw => hw.2) ?_ ?_ h
  · exact fun p _ => by simp [World.initial]
  · exact fun w step hw he hok =>
      ⟨Registry.next hw.1 he, (noStaleEntry_next hw.1 hw.2 he).mpr hok⟩
  · exact fun w step hw he hn => (noStaleEntry_next hw.1 hw.2 he).mp hn

/-- A client that joins and drops. -/
theorem noStaleEntry_iff_join :
    server.Run emptyServer (joinSteps 0 2 ++ [.disconnect 0]) ∧
      (server.Along emptyServer (joinSteps 0 2 ++ [.disconnect 0]) NoStaleEntry ↔
        server.Steps emptyServer (joinSteps 0 2 ++ [.disconnect 0]) DropsClean) :=
  have h : server.Run emptyServer (joinSteps 0 2 ++ [.disconnect 0]) := by decide +kernel
  ⟨h, noStaleEntry_iff h⟩

/-- A client that drops right after its login stays on the player list. -/
theorem stale_entry_after_login :
    server.Run emptyServer (loginSteps 0 ++ [.disconnect 0]) ∧
      ¬ server.Along emptyServer (loginSteps 0 ++ [.disconnect 0]) NoStaleEntry := by
  refine ⟨by decide +kernel, fun h => ?_⟩
  exact h.last 0 (.inl (by decide +kernel)) (by decide +kernel)

end Vitamine
