import Vitamine.Proxyd.Gate
import Vitamine.Proxyd.Reuse

/-!
# The protocol state of the clients

The client leaves the login state with `LoginSuccess`, and an id means something else before it and
after it.

* `Protocol`: in every run, `LoginSuccess` was sent to exactly those who have logged in.
* `disciplined_iff`: in a run with clean drops, every packet is one of the state that its client is
  in, if and only if no confirmation in `PLAY_INIT` is refused and no client times out in
  `PLAY_INIT`.
* `disconnectLogin_after_loginSuccess`: a refused confirmation.
-/

namespace Vitamine

open Wire System

/-- A packet of the play state. -/
def ClientboundPacket.isPlayState : ClientboundPacket → Bool
  | .disconnectLogin _ | .loginSuccess _ _ => false
  | _ => true

def Traffic.isLoginSuccess : Traffic → Bool
  | .sent (.loginSuccess _ _) => true
  | _ => false

/-- The client was sent `LoginSuccess`. -/
def LoggedIn (log : List Traffic) : Prop := ∃ e ∈ log, e.isLoginSuccess

instance : DecidablePred LoggedIn := fun log =>
  inferInstanceAs (Decidable (∃ e ∈ log, e.isLoginSuccess))

/-- The packet is one of the state that the client is in. -/
def Allowed (pre : List Traffic) : Traffic → Prop
  | .received _ _ => True
  | .sent packet => if packet.isPlayState then LoggedIn pre else ¬ LoggedIn pre

instance (pre : List Traffic) : (e : Traffic) → Decidable (Allowed pre e)
  | .received _ _ => isTrue trivial
  | .sent packet =>
    inferInstanceAs (Decidable (if packet.isPlayState then LoggedIn pre else ¬ LoggedIn pre))

/-- `LoginSuccess` is sent at most once, packets of the play state only after it and packets of the
login state only before it. -/
def Disciplined (w : World) : Prop := ∀ p, Log.Always Allowed (w.traffic p)

/-- A confirmation in `PLAY_INIT` has an outstanding id, and no client times out in `PLAY_INIT`. -/
def KeepsProtocol (w : World) : ServerStep → Prop
  | .tick this now => w.phase this = .playInit → ¬ TimedOut w this now
  | step => ConfirmsOutstanding w step

section Log

variable {log : List Traffic} {packets : List ClientboundPacket} {k : ClientboundPacket}

theorem allowed_playState (hk : k.isPlayState) : Allowed log (.sent k) ↔ LoggedIn log := by
  rw [Allowed, if_pos hk]

theorem loggedIn_append (h : ∀ k ∈ packets, (Traffic.sent k).isLoginSuccess = false) :
    LoggedIn (log ++ packets.map .sent) ↔ LoggedIn log := by
  refine exists_congr fun e => and_congr_left fun he => ?_
  rw [List.mem_append]
  refine or_iff_left fun hmem => ?_
  obtain ⟨k, hk, rfl⟩ := List.mem_map.mp hmem
  rw [h k hk] at he
  cases he

theorem loggedIn_received {phase : ClientPhase} {frame : PacketFrame} :
    LoggedIn (log ++ [.received phase frame]) ↔ LoggedIn log := by
  simp [LoggedIn, Traffic.isLoginSuccess]

theorem loggedIn_loginSuccess {uuid username : Bytes} :
    LoggedIn (log ++ [.sent (.loginSuccess uuid username)]) :=
  ⟨_, List.mem_append_right _ (List.mem_singleton_self _), rfl⟩

theorem isLoginSuccess_of_playState (hk : k.isPlayState) :
    (Traffic.sent k).isLoginSuccess = false := by
  cases k <;> first | rfl | cases hk

theorem always_received {phase : ClientPhase} {frame : PacketFrame} :
    Log.Always Allowed (log ++ [.received phase frame]) ↔ Log.Always Allowed log := by
  rw [Log.always_snoc]
  exact and_iff_left trivial

/-- Packets of the play state after `LoginSuccess`. -/
theorem always_append_play (hl : LoggedIn log) (hk : ∀ k ∈ packets, k.isPlayState) :
    Log.Always Allowed (log ++ packets.map .sent) ↔ Log.Always Allowed log := by
  refine Log.always_append_map fun pre k hp => ?_
  have hpre : ∀ k' ∈ pre, (Traffic.sent k').isLoginSuccess = false := fun k' hk' =>
    isLoginSuccess_of_playState (hk k' (hp.subset (List.mem_append_left _ hk')))
  rw [allowed_playState (hk k (hp.subset (by simp))), loggedIn_append hpre]
  exact hl

/-- `DisconnectLogin`, which belongs before `LoginSuccess`. -/
theorem always_disconnectLogin {reason : Bytes} :
    Log.Always Allowed (log ++ [.sent (.disconnectLogin reason)]) ↔
      Log.Always Allowed log ∧ ¬ LoggedIn log :=
  Log.always_snoc

theorem always_append_login (hl : ¬ LoggedIn log)
    (hk : ∀ k ∈ packets, ∃ reason, k = .disconnectLogin reason) :
    Log.Always Allowed (log ++ packets.map .sent) ↔ Log.Always Allowed log := by
  refine Log.always_append_map fun pre k hp => ?_
  have hpre : ∀ k' ∈ pre, (Traffic.sent k').isLoginSuccess = false := by
    intro k' hk'
    obtain ⟨reason, rfl⟩ := hk k' (hp.subset (List.mem_append_left _ hk'))
    rfl
  obtain ⟨reason, rfl⟩ := hk k (hp.subset (by simp))
  show ¬ LoggedIn _
  rwa [loggedIn_append hpre]

theorem playState_broadcast (h : Broadcast k) : k.isPlayState := by
  cases h with
  | update hid => cases k <;> trivial
  | _ => trivial

end Log

/-- `LoginSuccess` was sent to those who have logged in. -/
def Protocol (w : World) (p : StateMachinePtr) : Prop :=
  w.life p ≠ .unused → (LoggedIn (w.traffic p) ↔ w.Joined p)

section

variable {w w' : World} {this p : StateMachinePtr} {frame : PacketFrame}

theorem playState_quiet {k : ClientboundPacket} (hj : w.Joined this)
    (h : QuietPacket w this this k) : k.isPlayState := by
  cases h with
  | update _ hne => exact absurd rfl hne
  | disconnectLogin hplay hinit => exact absurd hj (not_or.mpr ⟨hinit, hplay⟩)
  | _ => trivial

theorem disconnectLogin_of_quiet {k : ClientboundPacket} (hj : ¬ w.Joined this)
    (h : QuietPacket w this this k) : ∃ reason, k = .disconnectLogin reason := by
  cases h with
  | update hplay => exact absurd (.inr hplay) hj
  | chat hplay => exact absurd (.inr hplay) hj
  | keepAlive hplay => exact absurd (.inr hplay) hj
  | disconnect hplay => exact absurd (.inr hplay) hj
  | disconnectLogin => exact ⟨_, rfl⟩

theorem playState_streamPackets {unloads loads : List ChunkCoord} {k : ClientboundPacket}
    (hk : k ∈ w.streamPackets unloads loads) : k.isPlayState :=
  w.forall_streamPackets (P := fun k => k.isPlayState) (fun _ => rfl) (fun _ _ => rfl) k hk

theorem playState_settingsInPlayInitPackets {packet : ClientSettingsPacket} {k : ClientboundPacket}
    (hk : k ∈ w.settingsInPlayInitPackets this packet) : k.isPlayState :=
  w.forall_settingsInPlayInitPackets this packet (P := fun k => k.isPlayState)
    (fun _ => rfl) (fun _ _ => rfl) (fun _ => rfl) (fun _ _ _ _ _ _ _ => rfl) k hk

/-- The packets of a login are those of the play state, but for the first. -/
theorem loginPackets_eq (name : Bytes) : ∃ uuid packets, w.loginPackets this name =
    .loginSuccess uuid name :: packets ∧ ∀ k ∈ packets, k.isPlayState := by
  refine ⟨_, _, rfl, fun k hk => ?_⟩
  simp only [List.mem_cons, List.not_mem_nil, or_false] at hk
  rcases hk with rfl | rfl | rfl | rfl | rfl | rfl <;> trivial

/-- What a step says to its own client: packets of the play state, refusals of the login state,
`LoginSuccess` and what follows it, or, where `refused` holds, a refusal of the login state to a
client in the play state. -/
inductive Speaks (w w' : World) (this : StateMachinePtr) (refused : Prop) : Prop where
  | play (packets : List ClientboundPacket) (hj : w.Joined this) (hj' : w'.Joined this)
      (ht : w'.traffic this = w.traffic this ++ packets.map .sent)
      (hk : ∀ k ∈ packets, k.isPlayState) (hr : ¬ refused)
  | login (packets : List ClientboundPacket) (hj : ¬ w.Joined this) (hj' : ¬ w'.Joined this)
      (ht : w'.traffic this = w.traffic this ++ packets.map .sent)
      (hk : ∀ k ∈ packets, ∃ reason, k = .disconnectLogin reason) (hr : ¬ refused)
  | enter (uuid username : Bytes) (packets : List ClientboundPacket) (hj : ¬ w.Joined this)
      (hj' : w'.Joined this)
      (ht : w'.traffic this = w.traffic this ++ [.sent (.loginSuccess uuid username)] ++
        packets.map .sent)
      (hk : ∀ k ∈ packets, k.isPlayState) (hr : ¬ refused)
  | refuse (reason : Bytes) (packets : List ClientboundPacket) (hj : w.Joined this)
      (hj' : w'.Joined this)
      (ht : w'.traffic this = w.traffic this ++ [.sent (.disconnectLogin reason)] ++
        packets.map .sent)
      (hk : ∀ k ∈ packets, k.isPlayState) (hr : refused)

theorem Speaks.protocol {refused : Prop} (h : Speaks w w' this refused)
    (hp : LoggedIn (w.traffic this) ↔ w.Joined this) :
    LoggedIn (w'.traffic this) ↔ w'.Joined this := by
  cases h with
  | play packets hj hj' ht hk =>
    rw [ht, loggedIn_append fun k h => isLoginSuccess_of_playState (hk k h), hp]
    exact iff_of_true hj hj'
  | login packets hj hj' ht hk =>
    rw [ht, loggedIn_append, hp]
    · exact iff_of_false hj hj'
    · intro k h
      obtain ⟨reason, rfl⟩ := hk k h
      rfl
  | enter uuid username packets hj hj' ht hk =>
    rw [ht, loggedIn_append fun k h => isLoginSuccess_of_playState (hk k h)]
    exact iff_of_true loggedIn_loginSuccess hj'
  | refuse reason packets hj hj' ht hk =>
    obtain ⟨e, hmem, he⟩ := hp.mpr hj
    rw [ht, loggedIn_append fun k h => isLoginSuccess_of_playState (hk k h)]
    exact iff_of_true ⟨e, List.mem_append_left _ hmem, he⟩ hj'

/-- **A step breaks the discipline exactly when it refuses a client in the play state with a packet
of the login state.** -/
theorem Speaks.disciplined {refused : Prop} (h : Speaks w w' this refused)
    (hp : LoggedIn (w.traffic this) ↔ w.Joined this) (ha : Log.Always Allowed (w.traffic this)) :
    Log.Always Allowed (w'.traffic this) ↔ ¬ refused := by
  cases h with
  | play packets hj hj' ht hk hr =>
    rw [ht, always_append_play (hp.mpr hj) hk]
    exact iff_of_true ha hr
  | login packets hj hj' ht hk hr =>
    rw [ht, always_append_login (fun hl => hj (hp.mp hl)) hk]
    exact iff_of_true ha hr
  | enter uuid username packets hj hj' ht hk hr =>
    rw [ht, always_append_play loggedIn_loginSuccess hk, Log.always_snoc]
    exact iff_of_true ⟨ha, fun hl => hj (hp.mp hl)⟩ hr
  | refuse reason packets hj hj' ht hk hr =>
    rw [ht]
    exact iff_of_false (fun hall => (always_disconnectLogin.mp hall.of_append).2 (hp.mpr hj))
      (not_not.mpr hr)

theorem Quiet.speaks (h : Quiet this w w') {refused : Prop} (hr : ¬ refused) :
    Speaks w w' this refused := by
  obtain ⟨ks, ht, hks⟩ := h.traffic this
  have hj : w'.Joined this ↔ w.Joined this := by rw [World.Joined, h.phase, World.Joined]
  by_cases hjoined : w.Joined this
  · exact .play ks hjoined (hj.mpr hjoined) ht (fun k hk => playState_quiet hjoined (hks k hk)) hr
  · exact .login ks hjoined (fun hj' => hjoined (hj.mp hj')) ht
      (fun k hk => disconnectLogin_of_quiet hjoined (hks k hk)) hr

/-- A confirmation enters the game, and is refused if its id is not outstanding. -/
theorem speaks_onTeleportConfirm {id : BitVec 32} (hinit : w.phase this = .playInit)
    (hframe : teleportConfirmOf frame = some id) (now : Int) :
    Speaks w (w.onTeleportConfirm this id) this
      (¬ ConfirmsOutstanding w (.packet this frame now)) := by
  have hj' : (w.onTeleportConfirm this id).Joined this := by
    simp [World.Joined, World.onTeleportConfirm_eq]
  have ht := onTeleportConfirm_traffic_self hinit id
  have hok : ConfirmsOutstanding w (.packet this frame now) ↔
      id ∈ (w.player this).outstandingTeleportIds := by
    simp [ConfirmsOutstanding, hinit, hframe]
  have hspawns : ∀ k ∈ ((w.confirmed this id).visiblePlayers this).map fun m =>
      createSpawnPacket ((w.confirmed this id).player m), k.isPlayState := by
    intro k hk
    obtain ⟨m, -, rfl⟩ := List.mem_map.mp hk
    trivial
  by_cases hid : id ∈ (w.player this).outstandingTeleportIds
  · rw [if_pos hid, List.nil_append] at ht
    exact .play _ (.inl hinit) hj' ht hspawns (by simp [hok, hid])
  · rw [if_neg hid, List.map_append, ← List.append_assoc] at ht
    exact .refuse _ _ (.inl hinit) hj' ht hspawns (by simp [hok, hid])

/-- A frame is refused in the wrong state exactly when it confirms another id in `PLAY_INIT`. -/
theorem Effect.speaks (h : Effect w this frame w') (now : Int) :
    Speaks w w' this (¬ ConfirmsOutstanding w (.packet this frame now)) := by
  have hother : (w.phase this = .playInit → teleportConfirmOf frame = none) →
      ¬ ¬ ConfirmsOutstanding w (.packet this frame now) := fun hnone hc => hc fun hp id hid => by
    rw [hnone hp] at hid
    cases hid
  have hplay : w.phase this = .play → ¬ ¬ ConfirmsOutstanding w (.packet this frame now) :=
    fun hp => hother fun hp' => by rw [hp] at hp'; cases hp'
  cases h with
  | quiet hinit _ hq => exact hq.speaks (hother fun hp => (hinit hp).2)
  | phase hinit hnew =>
    refine .login [] (by simp [World.Joined, hinit]) ?_ (by simp) (by simp)
      (hother fun hp => by rw [hinit] at hp; cases hp)
    rcases hnew with rfl | rfl <;> simp [World.Joined]
  | @login name hlogin =>
    obtain ⟨uuid, packets, he, hk⟩ := @loginPackets_eq w this name
    refine .enter uuid name packets (by simp [World.Joined, hlogin]) (by simp [World.Joined]) ?_ hk
      (hother fun hp => by rw [hlogin] at hp; cases hp)
    rw [World.onLoginStart_traffic_self, he]
    simp
  | confirm hinit hframe => exact speaks_onTeleportConfirm hinit hframe now
  | settingsInit hinit _ hnone =>
    exact .play _ (.inl hinit) (.inl (by simpa using hinit))
      (by rw [World.onSettingsInPlayInit_traffic, Function.update_self])
      (fun k hk => playState_settingsInPlayInitPackets hk) (hother fun _ => hnone)
  | settings hp =>
    exact .play _ (.inr hp) (.inr (by simpa using hp))
      (by rw [World.onClientSettingsChange_traffic, Function.update_self])
      (fun k hk => playState_streamPackets hk) (hplay hp)
  | transition hp =>
    refine .play _ (.inr hp) (.inr (by simpa using hp))
      (World.onChunkTransition_traffic_self _ _ _ _ _ _) (fun k hk => ?_) (hplay hp)
    rcases List.mem_append.mp hk with hk | hk
    · exact playState_streamPackets hk
    · obtain rfl := List.mem_singleton.mp hk
      trivial
  | dig hp =>
    exact .play _ (.inr hp) (.inr (by simpa using hp)) (World.startDigging_traffic _ _ _)
      (by simp) (hplay hp)

/-- Whether a step refuses its client in the wrong state. -/
theorem speaks_packet (frame : PacketFrame) (now : Int) :
    Speaks (w.receive this frame now) (server.next w (.packet this frame now)) this
      (¬ KeepsProtocol w (.packet this frame now)) := by
  have h := (handle_effect (w.receive this frame now) this frame).speaks now
  simpa [KeepsProtocol, ConfirmsOutstanding] using h

theorem speaks_tick (now : Int) :
    Speaks w (server.next w (.tick this now)) this (¬ KeepsProtocol w (.tick this now)) := by
  have hok : ¬ KeepsProtocol w (.tick this now) ↔
      w.phase this = .playInit ∧ TimedOut w this now := by
    simp [KeepsProtocol]
  rw [hok]
  rcases onTick_cases w this now with ⟨hr, hq⟩ | ⟨hr, -⟩
  · exact hq.speaks hr
  · refine .refuse (chat.plainText (spanFromCString "timeout")) [] (.inl hr.1) (.inl ?_) ?_
      (by simp) hr
    · rw [next_tick, (unmoved_onTick now).phase, hr.1]
    · rw [next_tick, onTick_traffic_of_timeout w this now hr.1 hr.2, Function.update_self]
      simp

theorem protocol_receive (h : LoggedIn (w.traffic this) ↔ w.Joined this) (now : Int) :
    LoggedIn ((w.receive this frame now).traffic this) ↔
      (w.receive this frame now).Joined this := by
  rw [receive_traffic, Function.update_self, loggedIn_received, h]
  simp [World.Joined]

theorem Protocol.next {step : ServerStep} (hb : Base w) (h : ∀ p, Protocol w p)
    (he : server.enabled w step) : ∀ p, Protocol (server.next w step) p := by
  refine (forall_next_iff_of_broadcasts (fun hu hbc h hl => ?_) hb.registry h).mpr ?_
  · obtain ⟨ks, ht, hks⟩ := hbc
    rw [hu.life] at hl
    rw [ht, loggedIn_append fun k hk => isLoginSuccess_of_playState
      (playState_broadcast (hks k hk).1), h hl, World.Joined, World.Joined, hu.phase]
  intro hl
  cases step with
  | connect this clientSettings entityId now =>
    have ht : w.traffic this = [] := hb.untouched this he
    simp [ServerStep.subject, ht, LoggedIn, World.Joined]
  | packet this frame now =>
    have hlive : w.life this = .live := he
    exact (speaks_packet frame now).protocol
      (protocol_receive (h this (by rw [hlive]; decide)) now)
  | error this => exact h this hl
  | tick this now =>
    have hlive : w.life this = .live := he
    exact (speaks_tick now).protocol (h this (by rw [hlive]; decide))
  | disconnect this =>
    have hlive : w.life this = .live := he
    simpa [ServerStep.subject, World.Joined] using h this (by rw [hlive]; decide)

theorem Protocol.free (h : Protocol w p) : Protocol (w.free this) p := by
  intro hl
  have hp : p ≠ this := by
    rintro rfl
    exact hl free_life_self
  rw [free_traffic_ne hp, free_joined]
  exact h (by rwa [free_life_ne hp] at hl)

theorem Disciplined.free (h : Disciplined w) : Disciplined (w.free this) := by
  intro p
  by_cases hp : p = this
  · subst hp
    rw [free_traffic_self]
    exact Log.always_nil
  · rw [free_traffic_ne hp]
    exact h p

theorem disciplined_next {step : ServerStep} (hb : Base w) (hp : ∀ p, Protocol w p)
    (h : Disciplined w) (he : server.enabled w step) :
    Disciplined (server.next w step) ↔ KeepsProtocol w step := by
  have hframe : Disciplined (server.next w step) ↔
      Log.Always Allowed ((server.next w step).traffic step.subject) := by
    refine ⟨fun h' => h' step.subject, fun h' p => ?_⟩
    rcases eq_or_ne p step.subject with rfl | hne
    · exact h'
    · -- The others are sent packets of the play state, and only after `LoginSuccess`.
      obtain ⟨ks, ht, hks⟩ := next_traffic_ne (hb.registry p) hne
      rw [ht]
      rcases ks with _ | ⟨k, ks⟩
      · simpa using h p
      · obtain ⟨-, hl, hj⟩ := hks k (by simp)
        exact (always_append_play ((hp p hl).mpr hj)
          fun k hk => playState_broadcast (hks k hk).1).mpr (h p)
  rw [hframe]
  cases step with
  | connect this clientSettings entityId now => exact iff_of_true (h this) (by trivial)
  | packet this frame now =>
    have hlive : w.life this = .live := he
    have ha : Log.Always Allowed ((w.receive this frame now).traffic this) := by
      rw [receive_traffic, Function.update_self]
      exact always_received.mpr (h this)
    exact ((speaks_packet frame now).disciplined
      (protocol_receive (hp this (by rw [hlive]; decide)) now) ha).trans not_not
  | error this => exact iff_of_true (h this) (by trivial)
  | tick this now =>
    have hlive : w.life this = .live := he
    exact ((speaks_tick now).disciplined (hp this (by rw [hlive]; decide)) (h this)).trans not_not
  | disconnect this =>
    refine iff_of_true ?_ (by trivial)
    simpa [ServerStep.subject] using h this

end

variable {uuidGenerator : Bytes → Uuid} {machine : StateMachinePtr → StateMachine}
  {steps : List ServerStep}

/-- **The packets of a run with clean drops are those of the states that the clients are in, if and
only if no confirmation in `PLAY_INIT` is refused and no client times out in `PLAY_INIT`.** -/
theorem disciplined_iff (h : reusing.Run (.initial uuidGenerator machine) steps)
    (hd : reusing.Steps (.initial uuidGenerator machine) steps DropsClean) :
    reusing.Along (.initial uuidGenerator machine) steps Disciplined ↔
      reusing.Steps (.initial uuidGenerator machine) steps KeepsProtocol :=
  along_iff_reusing (I := fun w => (∀ p, Protocol w p) ∧ Disciplined w)
    ⟨fun _ hl => absurd rfl hl, fun _ => Log.always_nil⟩ (fun _ hw => hw.2)
    (fun _ _ _ _ _ => trivial)
    (fun _ _ _ hw _ => ⟨fun p => (hw.1 p).free, hw.2.free⟩)
    (fun _ _ htidy hw he _ hok => ⟨Protocol.next htidy.toBase hw.1 he,
      (disciplined_next htidy.toBase hw.1 hw.2 he).mpr hok⟩)
    (fun _ _ htidy hw he _ hdisc => (disciplined_next htidy.toBase hw.1 hw.2 he).mp hdisc) h hd

/-- A client that leaves, and another one at its address that joins and times out in `PLAY`. -/
theorem disciplined_iff_timeout :
    let steps := leaveSteps 0 ++ joinSteps 0 2 ++ [.tick 0 10000000000]
    reusing.Run emptyServer steps ∧
      (reusing.Along emptyServer steps Disciplined ↔
        reusing.Steps emptyServer steps KeepsProtocol) := by
  intro steps
  have h : reusing.Run emptyServer steps := by decide +kernel
  have hearly : reusing.Steps emptyServer steps DropsEarly := by decide +kernel
  exact ⟨h, disciplined_iff h (hearly.mono fun _ _ hd => hd.clean)⟩

/-- A client that confirms another id after its login is refused with `DisconnectLogin`. -/
theorem disconnectLogin_after_loginSuccess :
    reusing.Run emptyServer (loginSteps 0 ++ [.packet 0 (teleportConfirmFrame 7) 0]) ∧
      ¬ reusing.Along emptyServer (loginSteps 0 ++ [.packet 0 (teleportConfirmFrame 7) 0])
        Disciplined := by
  refine ⟨by decide +kernel, fun h => ?_⟩
  exact absurd ((h.last 0).getElem 10 (by decide +kernel)) (by decide +kernel)

end Vitamine
