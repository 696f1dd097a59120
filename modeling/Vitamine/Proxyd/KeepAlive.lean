import Vitamine.Lib.Log
import Vitamine.Lib.Throttle
import Vitamine.Proxyd.Fixed
import Vitamine.Proxyd.Sends

/-!
# The clocks of a connection

`_lastPacketTime` is when the client was last heard, and the keep-alives are the ticks in `PLAY`
that a throttle lets through.

* `Clocked.next`: what a step does to the clocks and the keep-alives of a connection.
* `keepAlives_of_run`: the keep-alives that a connection was sent, over whole runs.
-/

namespace Vitamine

open Wire System

/-! ## Steps -/

/-- The time at which a step hears of a client: it connects, or a frame comes. -/
def ServerStep.heard (p : StateMachinePtr) : ServerStep → Option Int
  | .connect this _ _ now => if this = p then some now else none
  | .packet this _ now => if this = p then some now else none
  | _ => none

/-- When a client was last heard. -/
def lastHeard (p : StateMachinePtr) (steps : List ServerStep) : Int :=
  Log.last (ServerStep.heard p) 0 steps

/-- The time of a tick in `PLAY` at which the client was not silent for too long. -/
def World.playTick (p : StateMachinePtr) (w : World) : ServerStep → List Int
  | .tick this now => if this = p ∧ w.phase p = .play ∧ ¬ TimedOut w p now then [now] else []
  | _ => []

/-- The clocks of a connection and the keep-alives that it was sent, after a run with these ticks in
`PLAY`. -/
structure Clocked (p : StateMachinePtr) (w : World) (steps : List ServerStep) (ticks : List Int) :
    Prop where
  unused : w.life p = .unused → ticks = []
  heard : w.life p ≠ .unused → (w.machine p).lastPacketTime = lastHeard p steps
  latest : w.life p ≠ .unused → (w.machine p).lastKeepAliveSentTime =
    Throttle.latest KEEP_ALIVE_INTERVAL_NANOS 0 ticks
  told : w.told ClientboundPacket.keepAliveId? p =
    Throttle.pass KEEP_ALIVE_INTERVAL_NANOS 0 ticks

namespace Clocked

variable {p : StateMachinePtr} {w : World} {steps : List ServerStep} {ticks : List Int}
  {step : ServerStep}

theorem initial (uuidGenerator : Bytes → Uuid) (machine : StateMachinePtr → StateMachine) :
    Clocked p (.initial uuidGenerator machine) [] [] where
  unused _ := rfl
  heard h := absurd rfl h
  latest h := absurd rfl h
  told := rfl

/-- A step of the others, or one that touches no clock. -/
theorem of_same (h : Clocked p w steps ticks)
    (hlife : (server.next w step).life p = .unused ↔ w.life p = .unused)
    (hheard : ((server.next w step).machine p).lastPacketTime =
      (step.heard p).getD (w.machine p).lastPacketTime)
    (hlatest : ((server.next w step).machine p).lastKeepAliveSentTime =
      (w.machine p).lastKeepAliveSentTime)
    (hkeep : ¬ (p = step.subject ∧ w.keepAliveOf step ≠ none)) :
    Clocked p (server.next w step) (steps ++ [step]) ticks where
  unused hunused := h.unused (hlife.mp hunused)
  heard hused := by
    rw [hheard, lastHeard, Log.last_append, h.heard (mt hlife.mpr hused)]
    rfl
  latest hused := by rw [hlatest, h.latest (mt hlife.mpr hused)]
  told := by
    rw [told_next_keepAlive, h.told]
    split_ifs with hp
    · have hnone : w.keepAliveOf step = none := not_not.mp fun hne => hkeep ⟨hp, hne⟩
      rw [hnone]
      exact List.append_nil _
    · exact List.append_nil _

theorem connect (h : Clocked p w steps ticks) (hlife : w.life p = .unused)
    (clientSettings : ClientSettings) (entityId : EntityId) (now : Int) :
    Clocked p (w.connect p clientSettings entityId now)
      (steps ++ [.connect p clientSettings entityId now]) ticks where
  unused hunused := by simp at hunused
  heard _ := by
    rw [lastHeard, Log.last_append]
    simp [World.connect, StateMachine.fresh, ServerStep.heard]
  latest _ := by
    rw [h.unused hlife]
    simp [World.connect, StateMachine.fresh, Throttle.latest]
  told := h.told

/-- A tick of the connection itself. -/
theorem tick (h : Clocked p w steps ticks) (hlife : w.life p = .live) (now : Int) :
    Clocked p (w.onTick p now) (steps ++ [.tick p now]) (ticks ++ w.playTick p (.tick p now)) := by
  have hused : w.life p ≠ .unused := by
    rw [hlife]
    decide
  have hlife' : (w.onTick p now).life p = .live := by rw [(unmoved_onTick now).life, hlife]
  have hheard : lastHeard p (steps ++ [.tick p now]) = lastHeard p steps := by
    rw [lastHeard, Log.last_append]
    rfl
  have htold := told_next_keepAlive w p (.tick p now)
  rw [next_tick, ServerStep.subject, if_pos rfl, World.keepAliveOf] at htold
  by_cases hplay : w.phase p = .play ∧ ¬ TimedOut w p now
  · have htick : w.playTick p (.tick p now) = [now] := if_pos ⟨rfl, hplay⟩
    have hdue : KeepAliveDue w p now ↔
        KEEP_ALIVE_INTERVAL_NANOS ≤ now - Throttle.latest KEEP_ALIVE_INTERVAL_NANOS 0 ticks := by
      rw [← h.latest hused]
      exact ⟨fun hdue => hdue.2.2, fun hkeep => ⟨hplay.2, hplay.1, hkeep⟩⟩
    rw [htick]
    by_cases hkeep : KeepAliveDue w p now
    · refine ⟨fun hunused => ?_, fun _ => ?_, fun _ => ?_, ?_⟩
      · rw [hlife'] at hunused
        cases hunused
      · rw [onTick_of_due w hkeep, hheard, ← h.heard hused]
        simp [World.sendPacket]
      · rw [onTick_of_due w hkeep, Throttle.latest_snoc, if_pos (hdue.mp hkeep)]
        simp [World.sendPacket]
      · rw [htold, if_pos hkeep, h.told, Throttle.pass_snoc, if_pos (hdue.mp hkeep)]
        rfl
    · have hsame : w.onTick p now = w := by
        have htimeout := hplay.2
        unfold TimedOut at htimeout
        rw [World.onTick, if_neg htimeout, if_pos hplay.1,
          if_neg fun hk => hkeep ⟨hplay.2, hplay.1, hk⟩]
      refine ⟨fun hunused => ?_, fun _ => ?_, fun _ => ?_, ?_⟩
      · rw [hlife'] at hunused
        cases hunused
      · rw [hsame, hheard, h.heard hused]
      · rw [hsame, Throttle.latest_snoc, if_neg (mt hdue.mpr hkeep), h.latest hused]
      · rw [htold, if_neg hkeep, h.told, Throttle.pass_snoc, if_neg (mt hdue.mpr hkeep)]
        rfl
  · have htick : w.playTick p (.tick p now) = [] := if_neg fun hall => hplay hall.2
    have hkeep : ¬ KeepAliveDue w p now := fun hdue => hplay ⟨hdue.2.1, hdue.1⟩
    have hclocks : Fixed w (w.onTick p now) := by
      unfold World.onTick
      split_ifs with htimeout hphase hlast
      · exact fixed_disconnectWith _
      · exact absurd ⟨htimeout, hphase, hlast⟩ hkeep
      · exact fixed_of_machine rfl
      · exact fixed_of_machine rfl
    rw [htick, List.append_nil]
    refine @of_same _ _ _ _ (.tick p now) h ?_ (hclocks p).lastPacketTime
      (hclocks p).lastKeepAliveSentTime ?_
    · rw [next_tick, hlife', hlife]
    · rintro ⟨-, hne⟩
      exact hne (if_neg hkeep)

/-- **Every step keeps the clocks.** -/
theorem next (h : Clocked p w steps ticks) (he : server.enabled w step) :
    Clocked p (server.next w step) (steps ++ [step]) (ticks ++ w.playTick p step) := by
  have hnone : w.playTick p step = [] → Clocked p (server.next w step) (steps ++ [step]) ticks →
      Clocked p (server.next w step) (steps ++ [step]) (ticks ++ w.playTick p step) := by
    intro hticks hnext
    rwa [hticks, List.append_nil]
  cases step with
  | connect this clientSettings entityId now =>
    refine hnone rfl ?_
    by_cases hp : p = this
    · subst hp
      exact h.connect he clientSettings entityId now
    · refine h.of_same ?_ ?_ ?_ (fun hkeep => hkeep.2 rfl)
      · simp [hp]
      · simp [World.connect, ServerStep.heard, hp, Ne.symm hp]
      · simp [World.connect, hp]
  | packet this frame now =>
    have hclocks := @fixed_handle (w.receive this frame now) this frame p
    refine hnone rfl (h.of_same ?_ ?_ ?_ fun hkeep => hkeep.2 rfl)
    · simp
    · rw [next_packet, hclocks.lastPacketTime, World.receive, ServerStep.heard]
      by_cases hp : p = this
      · simp [hp]
      · simp [hp, Ne.symm hp]
    · rw [next_packet, hclocks.lastKeepAliveSentTime, World.receive]
      by_cases hp : p = this
      · simp [hp]
      · simp [hp]
  | error => exact hnone rfl (h.of_same .rfl rfl rfl fun hkeep => hkeep.2 rfl)
  | tick this now =>
    by_cases hp : p = this
    · subst hp
      exact h.tick he now
    · have hmachine := onTick_machine_ne w now hp
      refine hnone (if_neg fun hall => hp hall.1.symm) (h.of_same ?_ ?_ ?_ fun hkeep => hp hkeep.1)
      · rw [next_tick, (unmoved_onTick now).life]
      · rw [next_tick, hmachine]
        rfl
      · rw [next_tick, hmachine]
  | disconnect this =>
    have hclocks := @fixed_destroy w this p
    refine hnone rfl (h.of_same ?_ hclocks.lastPacketTime hclocks.lastKeepAliveSentTime
      fun hkeep => hkeep.2 rfl)
    have hlive : w.life this = .live := he
    by_cases hp : p = this
    · subst hp
      simp [hlive]
    · simp [hp]

end Clocked

/-! ## Runs -/

section Runs

variable {uuidGenerator : Bytes → Uuid} {machine : StateMachinePtr → StateMachine}
  {steps : List ServerStep}

theorem clocked_of_run (p : StateMachinePtr) (h : server.Run (.initial uuidGenerator machine) steps) :
    Clocked p (server.after (.initial uuidGenerator machine) steps) steps
      (server.image (World.playTick p) (.initial uuidGenerator machine) steps) := by
  induction steps using List.reverseRecOn with
  | nil => exact .initial uuidGenerator machine
  | append_singleton steps step ih =>
    obtain ⟨hrun, he⟩ := steps_snoc.mp h
    rw [after_snoc, image_snoc]
    exact (ih hrun).next he

/-- **The keep-alives of a connection** are the ticks in `PLAY` that a throttle lets through, and
the ticks go by the time of the last connect or frame. They are at least the interval apart, and
less than the interval and `g` as long as the ticks are at most `g` apart. -/
theorem keepAlives_of_run (p : StateMachinePtr)
    (h : server.Run (.initial uuidGenerator machine) steps) :
    let w := server.after (.initial uuidGenerator machine) steps
    let ticks := server.image (World.playTick p) (.initial uuidGenerator machine) steps
    let ids := w.told ClientboundPacket.keepAliveId? p
    ids = Throttle.pass KEEP_ALIVE_INTERVAL_NANOS 0 ticks ∧
      (w.life p ≠ .unused →
        ∀ now, TimedOut w p now ↔ CLIENT_READ_TIMEOUT_NANOS ≤ now - lastHeard p steps) ∧
      (0 :: ids).IsChain (fun s t => KEEP_ALIVE_INTERVAL_NANOS ≤ t - s) ∧
      ∀ g, ticks.IsChain (fun s t => t ≤ s + g) →
        ids.IsChain fun s t => t - s < KEEP_ALIVE_INTERVAL_NANOS + g := by
  intro w ticks ids
  have hclocked := clocked_of_run p h
  have hids : ids = Throttle.pass KEEP_ALIVE_INTERVAL_NANOS 0 ticks := hclocked.told
  refine ⟨hids, fun hlife now => ?_, ?_, fun g hticks => ?_⟩
  · rw [TimedOut, hclocked.heard hlife]
  · rw [hids]
    exact Throttle.isChain_pass
  · rw [hids]
    exact Throttle.isChain_pass_of_isChain (by decide) hticks

/-- A player that is heard again after nine seconds, with a tick each second. -/
def tickSteps : List ServerStep :=
  joinSteps 0 2 ++ [5, 6, 7, 8, 9].map (fun s => .tick 0 (s * 1000000000)) ++
    [.packet 0 ⟨0x0f, [0, 0, 0, 0, 0, 0, 0, 0]⟩ 9000000000, .tick 0 10000000000]

theorem keepAlives_of_run_two :
    let ids := (server.after emptyServer tickSteps).told ClientboundPacket.keepAliveId? 0
    ids = [5000000000, 10000000000] ∧
      ids.IsChain (fun s t => t - s < KEEP_ALIVE_INTERVAL_NANOS + 1000000000) := by
  have hrun : server.Run emptyServer tickSteps := by decide +kernel
  have hticks : (server.image (World.playTick 0) emptyServer tickSteps).IsChain
      (fun s t => t ≤ s + 1000000000) := by decide +kernel
  obtain ⟨-, -, -, hgap⟩ := keepAlives_of_run 0 hrun
  exact ⟨by decide +kernel, hgap 1000000000 hticks⟩

end Runs

end Vitamine
