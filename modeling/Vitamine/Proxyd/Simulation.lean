import Vitamine.Proxyd.Wiring

/-!
# The server and its connections as a run of state machines

`server` is the runs of the state machines, with frames and ticks as they come. `proxySystem` has
bytes, ticks of all connections, and connections that are closed from either side.

* `ProxyServer.serverSteps`: what a step of the one is for the other.
* `alike_serverSteps`: the step lemma. The worlds differ in what `disconnect()` was called on and in
  the buffers of the readers, which no handler looks at.
* `alike_of_run`: every run of the server and its connections is a run of its state machines, so
  that what holds of every run of these holds of it.
-/

namespace Vitamine

open Wire System

/-! ## The steps of the state machines -/

/-- The step for a call of a reader. -/
def packetSteps (this : StateMachinePtr) : ReaderCall × Int → List ServerStep
  | (.onPacket frame, now) => [.packet this frame now]
  | (.onError, _) => [.error this]

namespace ProxyServer

/-- The step for a tick of a connection. -/
def tickSteps (s : ProxyServer) (tick : ConnectionPtr × Int) : List ServerStep :=
  match s.states.lookup tick.1 with
  | none => []
  | some p => [.tick p tick.2]

/-- The step for the end of a connection. -/
def disconnectSteps (s : ProxyServer) (c : ConnectionPtr) : List ServerStep :=
  match s.states.lookup c with
  | none => []
  | some p => [.disconnect p]

/-- What a step is for the state machines. -/
def serverSteps (s : ProxyServer) : ProxyStep → List ServerStep
  | .accepted _ _ noDelay this clientSettings entityId now =>
    if noDelay then [.connect this clientSettings entityId now] else []
  | .acceptAborted _ => []
  | .read c data now =>
    if (s.connection c).writer.disconnectMarker then s.disconnectSteps c
    else
      match (s.connection c).userPointer with
      | none => []
      | some p => (s.world.callsOf p data now).flatMap (packetSteps p)
  | .readError c => s.disconnectSteps c
  | .tick order => order.flatMap s.tickSteps
  | .strand _ _ => []

end ProxyServer

section Refinement

variable {w w' : World} {s : ProxyServer}

theorem Alike.calm (h : Alike w w') : Alike w w'.calm := h.trans (.hide w' _ _)

theorem Alike.life (h : Alike w w') : w'.life = w.life := by
  obtain ⟨r, d, rfl⟩ := h
  rfl

theorem alike_setReader (w : World) (this : StateMachinePtr) (reader : PacketReader) :
    Alike w (w.setMachine this { w.machine this with reader }) := by
  refine ⟨Function.update (fun p => (w.machine p).reader) this reader, w.disconnecting, ?_⟩
  unfold World.setMachine World.hide
  congr 1
  funext p
  by_cases h : p = this
  · subst h
    simp
  · simp [h]

/-- A run of one step. -/
theorem alike_step (h : Alike w w') (step : ServerStep) (he : server.enabled w' step) :
    server.Run w [step] ∧ Alike (server.after w [step]) (server.next w' step) :=
  ⟨steps_cons.mpr ⟨(h.enabled step).mp he, steps_nil⟩, alike_next h step⟩

/-- A call of a reader is a step of its state machine. -/
theorem alike_onCall (h : Alike w s.world) {this : StateMachinePtr}
    (hlive : s.world.life this = .live) (call : ReaderCall × Int) :
    server.Run w (packetSteps this call) ∧
      Alike (server.after w (packetSteps this call))
        (s.call fun w => w.onCall this call.2 call.1).world := by
  obtain ⟨call, now⟩ := call
  cases call with
  | onPacket frame => exact alike_step h.calm (.packet this frame now) hlive
  | onError => exact alike_step h.calm (.error this) hlive

/-- The loop over the calls of a reader. -/
def chunkLoop (this : StateMachinePtr) : System ProxyServer (ReaderCall × Int) where
  enabled s _ := s.world.life this = .live
  next s call := s.call fun w => w.onCall this call.2 call.1

theorem chunkLoop_run {this : StateMachinePtr} (hlive : s.world.life this = .live)
    (calls : List (ReaderCall × Int)) : (chunkLoop this).Run s calls := by
  induction calls generalizing s with
  | nil => exact steps_nil
  | cons call calls ih =>
    refine steps_cons.mpr ⟨hlive, ih ?_⟩
    exact (congrFun (onCall_life s.world.calm this call.2 call.1) this).trans hlive

/-- The frames of a chunk are steps of its state machine. -/
theorem alike_onBytesReceived (h : Alike w s.world) {this : StateMachinePtr}
    (hlive : s.world.life this = .live) (data : Bytes) (now : Nat → Int) :
    let steps := (s.world.callsOf this data now).flatMap (packetSteps this)
    server.Run w steps ∧ Alike (server.after w steps) (s.onBytesReceived this data now).world := by
  have hloop := run_image (S := server) (T := chunkLoop this) (R := fun w t => Alike w t.world)
    (f := fun _ => packetSteps this) (fun w t call ht hlive => alike_onCall ht hlive call) h
    (chunkLoop_run hlive (s.world.callsOf this data now))
  rw [image_eq_flatMap] at hloop
  exact ⟨hloop.1, hloop.2.trans (alike_setReader _ _ _)⟩

/-- The loop over the state machines. -/
def tickLoop : System ProxyServer (ConnectionPtr × Int) where
  enabled _ _ := True
  next s tick :=
    match s.states.lookup tick.1 with
    | none => s
    | some state => s.call fun w => w.onTick state tick.2

theorem alike_tick (hw : Wired s) {t : ProxyServer} (h : Alike w t.world) (hsame : SameWiring s t)
    (tick : ConnectionPtr × Int) :
    server.Run w (s.tickSteps tick) ∧ Alike (server.after w (s.tickSteps tick))
      (tickLoop.next t tick).world ∧ SameWiring s (tickLoop.next t tick) := by
  simp only [tickLoop, ProxyServer.tickSteps, hsame.states]
  cases hp : s.states.lookup tick.1 with
  | none => exact ⟨steps_nil, h, hsame⟩
  | some p =>
    have hlive : t.world.life p = .live := by
      rw [hsame.life]
      exact (hw.live p).mpr ⟨tick.1, hp⟩
    obtain ⟨hrun, halike⟩ := alike_step h.calm (.tick p tick.2) hlive
    exact ⟨hrun, halike, hsame.trans (t.sameWiring_call (onTick_life _ p tick.2))⟩

/-- A tick of all is a tick of each. -/
theorem alike_tickStateMachines (hw : Wired s) (h : Alike w s.world)
    (order : List (ConnectionPtr × Int)) :
    server.Run w (order.flatMap s.tickSteps) ∧
      Alike (server.after w (order.flatMap s.tickSteps)) (s.tickStateMachines order).world := by
  have hrun : tickLoop.Run s order := fun _ _ _ => trivial
  have hloop := run_image (S := server) (T := tickLoop)
    (R := fun w t => Alike w t.world ∧ SameWiring s t) (f := fun _ => s.tickSteps)
    (fun w t tick ht _ => alike_tick hw ht.1 ht.2 tick) ⟨h, .refl s⟩ hrun
  rw [image_eq_flatMap] at hloop
  exact ⟨hloop.1, hloop.2.1⟩

/-- The end of a connection is the end of its state machine. -/
theorem alike_close (hw : Wired s) (h : Alike w s.world) {c : ConnectionPtr}
    {p : StateMachinePtr} (hp : s.states.lookup c = some p) :
    server.Run w (s.disconnectSteps c) ∧ Alike (server.after w (s.disconnectSteps c))
      ((s.closing c).call fun w => w.destroy p).world := by
  rw [ProxyServer.disconnectSteps, hp]
  exact alike_step h.calm (.disconnect p) ((hw.live p).mpr ⟨c, hp⟩)

/-- **The step lemma.** A step of the server and its connections is some steps of the state
machines. -/
theorem alike_serverSteps (hw : Wired s) (h : Alike w s.world) {l : ProxyStep}
    (he : proxySystem.enabled s l) :
    server.Run w (s.serverSteps l) ∧
      Alike (server.after w (s.serverSteps l)) (s.next l).world := by
  cases l with
  | accepted c next noDelay this clientSettings entityId now =>
    obtain ⟨hc, hnext, hunused⟩ := he
    cases noDelay with
    | false => exact ⟨steps_nil, h⟩
    | true =>
      have hnone := (hw.startAccept hnext).lookup_of_silent (hw.calls_accepted hc hnext)
      have hworld : (s.next (.accepted c next true this clientSettings entityId now)).world =
          s.world.connect this clientSettings entityId now :=
        congrArg ProxyServer.world (onClientConnected_eq hnone this clientSettings entityId now)
      rw [hworld]
      exact alike_step h (.connect this clientSettings entityId now) hunused
  | acceptAborted c => exact ⟨steps_nil, h⟩
  | read c data now =>
    obtain ⟨p, hp, hpointer, hlive⟩ := hw.exists_of_reads he.1
    cases hmarker : (s.connection c).writer.disconnectMarker with
    | false =>
      have hread : (s.next (.read c data now)).world =
          (((s.reading c data).onBytesReceived p data now).startRead c).world :=
        congrArg ProxyServer.world (onRead_eq hpointer hmarker data now)
      simp only [ProxyServer.serverSteps, hmarker, hpointer, hread, Bool.false_eq_true, if_false]
      exact @alike_onBytesReceived w (s.reading c data) h p hlive data now
    | true =>
      have hread : (s.next (.read c data now)).world =
          ((s.closing c).call fun w => w.destroy p).world :=
        congrArg ProxyServer.world (onRead_of_marked hp hmarker data now)
      simp only [ProxyServer.serverSteps, hmarker, hread, if_true]
      exact alike_close hw h hp
  | readError c =>
    obtain ⟨p, hp, -⟩ := hw.exists_of_reads he
    have hclose := alike_close hw h hp
    rw [← onClientDisconnected_eq hp] at hclose
    exact hclose
  | tick order => exact alike_tickStateMachines hw h order
  | strand c l => exact ⟨steps_nil, h⟩

end Refinement

section Runs

variable {c : ConnectionPtr} {uuidGenerator : Bytes → Uuid}
  {machine : StateMachinePtr → StateMachine} {ls : List ProxyStep}

/-- The states of a run, each with a run of the state machines that leads to it. -/
theorem simulated_of_run (h : proxySystem.Run (.initial c uuidGenerator machine) ls) :
    proxySystem.Along (.initial c uuidGenerator machine) ls fun s =>
      Wired s ∧ ∃ steps, server.Run (.initial uuidGenerator machine) steps ∧
        Alike (server.after (.initial uuidGenerator machine) steps) s.world := by
  refine along_of_run ⟨wired_initial c uuidGenerator machine, [], steps_nil, .refl _⟩ ?_ h
  rintro s l ⟨hw, steps, hrun, halike⟩ he
  obtain ⟨hrun', halike'⟩ := alike_serverSteps hw halike he
  refine ⟨hw.next he, steps ++ s.serverSteps l, steps_append.mpr ⟨hrun, hrun'⟩, ?_⟩
  rwa [after_append]

/-- The steps that a run is for the state machines. -/
def ProxyServer.trace (s : ProxyServer) (ls : List ProxyStep) : List ServerStep :=
  proxySystem.image ProxyServer.serverSteps s ls

/-- The trace of a run is a run, and leads to the same. -/
theorem trace_of_run (h : proxySystem.Run (.initial c uuidGenerator machine) ls) :
    let steps := ProxyServer.trace (.initial c uuidGenerator machine) ls
    let s := proxySystem.after (.initial c uuidGenerator machine) ls
    server.Run (.initial uuidGenerator machine) steps ∧ Wired s ∧
      Alike (server.after (.initial uuidGenerator machine) steps) s.world :=
  run_image (S := server) (T := proxySystem) (R := fun w s => Wired s ∧ Alike w s.world)
    (f := ProxyServer.serverSteps)
    (fun w s l hws he => by
      obtain ⟨hrun, halike⟩ := alike_serverSteps hws.1 hws.2 he
      exact ⟨hrun, hws.1.next he, halike⟩)
    ⟨wired_initial c uuidGenerator machine, .refl _⟩ h

/-- **Every run of the server and its connections is a run of its state machines**, in which they
have done and were sent the same. -/
theorem alike_of_run (h : proxySystem.Run (.initial c uuidGenerator machine) ls) :
    let steps := ProxyServer.trace (.initial c uuidGenerator machine) ls
    server.Run (.initial uuidGenerator machine) steps ∧
      Alike (server.after (.initial uuidGenerator machine) steps)
        (proxySystem.after (.initial c uuidGenerator machine) ls).world :=
  ⟨(trace_of_run h).1, (trace_of_run h).2.2⟩

theorem alike_of_run_refused :
    server.Run emptyServer (proxyStart.trace refusedSteps) ∧
      Alike (server.after emptyServer (proxyStart.trace refusedSteps))
        (proxySystem.after proxyStart refusedSteps).world :=
  alike_of_run (by decide +kernel)

end Runs

end Vitamine
