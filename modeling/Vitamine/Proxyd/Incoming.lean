import Vitamine.Proxyd.Delivery
import Vitamine.Proxyd.Fixed
import Vitamine.Proxyd.PacketReader

/-!
# What comes in

From the socket to the state machine: what a connection reads is fed to the reader of its state
machine, chunk by chunk, and the state machine is given the frames that the reader hands over.

* `receivedBy_next`: a step gives a state machine the frame of its packet, and nothing else.
* `Fed.next`: the reader of a stored state machine is that of the chunks of its connection.
* `frames_of_run`: over whole runs of the server with its connections.
-/

namespace Vitamine

open Wire System

/-- The frames that a state machine was given. -/
def World.receivedBy (w : World) (q : StateMachinePtr) : List PacketFrame :=
  (w.traffic q).filterMap fun
    | .received _ frame => some frame
    | .sent _ => none

/-- The chunks that were read. -/
def Connection.chunks (connection : Connection) : List Bytes :=
  connection.calls.filterMap fun
    | .onDataReceived data => some data
    | _ => none

/-- The reader that was fed the chunks. -/
def Connection.feed (connection : Connection) : Feed := feeding.after .fresh connection.chunks

/-! ## The world -/

section World

variable {w w' : World} {this q : StateMachinePtr} {frame : PacketFrame}

theorem receivedBy_of_traffic {packets : List ClientboundPacket}
    (ht : w'.traffic q = w.traffic q ++ packets.map .sent) : w'.receivedBy q = w.receivedBy q := by
  rw [World.receivedBy, ht, List.filterMap_append, List.filterMap_map]
  refine (congrArg (w.receivedBy q ++ ·) ?_).trans (List.append_nil _)
  exact List.filterMap_eq_nil_iff.mpr fun k _ => rfl

/-- The frames that a step gives to a state machine. -/
def ServerStep.frames (q : StateMachinePtr) : ServerStep → List PacketFrame
  | .packet this frame _ => if q = this then [frame] else []
  | _ => []

/-- **A step gives the frame of its packet**, and no other. -/
theorem receivedBy_next (w : World) (step : ServerStep) (q : StateMachinePtr) :
    (server.next w step).receivedBy q = w.receivedBy q ++ step.frames q := by
  cases step with
  | connect => exact (List.append_nil _).symm
  | packet this frame now =>
    obtain ⟨packets, ht⟩ := (handle_effect (w.receive this frame now) this frame).traffic_append q
    rw [next_packet, receivedBy_of_traffic ht, World.receivedBy, receive_traffic,
      ServerStep.frames]
    by_cases hq : q = this
    · subst hq
      rw [Function.update_self, List.filterMap_append, if_pos rfl]
      rfl
    · rw [Function.update_of_ne hq, if_neg hq, List.append_nil]
      rfl
  | error => exact (List.append_nil _).symm
  | tick this now =>
    refine Eq.trans ?_ (List.append_nil _).symm
    rcases onTick_cases w this now with ⟨-, hquiet⟩ | ⟨⟨hinit, ht⟩, -⟩
    · obtain ⟨packets, ht, -⟩ := hquiet.traffic q
      exact receivedBy_of_traffic ht
    · have htraffic := congrFun (onTick_traffic_of_timeout w this now hinit ht) q
      by_cases hq : q = this
      · subst hq
        rw [Function.update_self] at htraffic
        exact @receivedBy_of_traffic w _ q [.disconnectLogin _] htraffic
      · rw [Function.update_of_ne hq] at htraffic
        rw [World.receivedBy, next_tick, htraffic]
        rfl
  | disconnect this =>
    refine Eq.trans ?_ (List.append_nil _).symm
    by_cases hq : q = this
    · subst hq
      rw [World.receivedBy, next_disconnect, World.destroy_traffic_self]
      rfl
    · exact receivedBy_of_traffic (World.destroy_traffic_ne w this hq)

/-- The readers are the same, and `this` is given some frames. -/
structure Gives (this : StateMachinePtr) (frames : List PacketFrame) (w w' : World) : Prop where
  reader : ∀ q, (w'.machine q).reader = (w.machine q).reader
  frames : ∀ q, w'.receivedBy q = w.receivedBy q ++ if q = this then frames else []

theorem Gives.of_fixed (h : Fixed w w') (hf : ∀ q, w'.receivedBy q = w.receivedBy q) :
    Gives this [] w w' where
  reader q := (h q).reader
  frames q := by
    rw [hf, ite_self]
    exact (List.append_nil _).symm

theorem Gives.trans {w'' : World} {frames frames' : List PacketFrame} (h : Gives this frames w w')
    (h' : Gives this frames' w' w'') : Gives this (frames ++ frames') w w'' where
  reader q := (h'.reader q).trans (h.reader q)
  frames q := by
    rw [h'.frames, h.frames, List.append_assoc]
    split_ifs <;> rfl

/-- A call of the reader, from a world where `disconnect()` was called on no connection. -/
theorem gives_onCall (w : World) (this : StateMachinePtr) (call : ReaderCall × Int) :
    Gives this (framesOf [call.1]) w (w.calm.onCall this call.2 call.1) := by
  obtain ⟨call, now⟩ := call
  cases call with
  | onPacket frame =>
    refine ⟨fun q => ?_, fun q => receivedBy_next w.calm (.packet this frame now) q⟩
    have hfixed := @fixed_handle (w.calm.receive this frame now) this frame q
    refine hfixed.reader.trans ?_
    by_cases hq : q = this
    · subst hq
      simp [World.receive, World.calm]
    · simp [World.receive, World.calm, hq]
  | onError => exact Gives.of_fixed (fun _ => .refl _) fun _ => rfl

theorem fixed_onTick (this : StateMachinePtr) (now : Int) (q : StateMachinePtr) :
    ((w.onTick this now).machine q).reader = (w.machine q).reader := by
  unfold World.onTick
  split_ifs
  · exact (@fixed_disconnectWith w this _ q).reader
  · by_cases hq : q = this
    · subst hq
      simp [World.sendPacket]
    · simp [World.sendPacket, hq]
  · rfl
  · rfl

end World

/-! ## The connections -/

/-- The reader of a stored state machine is that of the chunks of its connection, and the state
machine was given the frames that it handed over. -/
structure Fed (s : ProxyServer) : Prop where
  reader : ∀ c p, s.states.lookup c = some p →
    (s.world.machine p).reader = (s.connection c).feed.reader
  frames : ∀ c p, s.states.lookup c = some p →
    s.world.receivedBy p = framesOf (s.connection c).feed.calls

section Steps

variable {s : ProxyServer} {c : ConnectionPtr}

theorem feed_congr {connection connection' : Connection} (h : connection'.calls = connection.calls) :
    connection'.feed = connection.feed := by
  rw [Connection.feed, Connection.chunks, h]
  rfl

/-- The same chunks, readers and frames. -/
theorem Fed.of_eq {s' : ProxyServer} (h : Fed s)
    (hstates : ∀ c p, s'.states.lookup c = some p → s.states.lookup c = some p)
    (hcalls : ∀ c p, s'.states.lookup c = some p →
      (s'.connection c).chunks = (s.connection c).chunks)
    (hreader : ∀ p, (s'.world.machine p).reader = (s.world.machine p).reader)
    (hframes : ∀ p, s'.world.receivedBy p = s.world.receivedBy p) : Fed s' where
  reader c p hp := by
    rw [hreader, h.reader c p (hstates c p hp), Connection.feed, Connection.feed, hcalls c p hp]
  frames c p hp := by
    rw [hframes, h.frames c p (hstates c p hp), Connection.feed, Connection.feed, hcalls c p hp]

/-- A call that gives no frames. -/
theorem Fed.call (h : Fed s) {f : World → World}
    (hreader : ∀ p, ((f s.world.calm).machine p).reader = (s.world.machine p).reader)
    (hframes : ∀ p, (f s.world.calm).receivedBy p = s.world.receivedBy p) : Fed (s.call f) :=
  h.of_eq (fun _ _ => id)
    (fun c _ _ => congrArg (List.filterMap _) (s.relay_calls c (f s.world.calm))) hreader hframes

theorem Fed.setConnection (h : Fed s) {connection : Connection}
    (hcalls : connection.chunks = (s.connection c).chunks) : Fed (s.setConnection c connection) := by
  refine h.of_eq (fun _ _ => id) (fun c' _ _ => ?_) (fun _ => rfl) fun _ => rfl
  rw [ProxyServer.setConnection_connection]
  by_cases hc : c' = c
  · subst hc
    rw [Function.update_self, hcalls]
  · rw [Function.update_of_ne hc]

theorem Fed.tickStateMachines (h : Fed s) (order : List (ConnectionPtr × Int)) :
    Fed (s.tickStateMachines order) := by
  have hrun : tickLoop.Run s order := fun _ _ _ => trivial
  refine (along_of_run (I := Fed) h (fun s tick hs _ => ?_) hrun).last
  simp only [tickLoop]
  split
  · exact hs
  · rename_i p _
    refine hs.call (fixed_onTick p tick.2) fun q => ?_
    exact (receivedBy_next s.world.calm (.tick p tick.2) q).trans (List.append_nil _)

theorem Fed.close (h : Fed s) (p : StateMachinePtr) :
    Fed ((s.closing c).call fun w => w.destroy p) := by
  have hclosing : Fed (s.closing c) := by
    refine h.of_eq (fun c' q hq => (lookup_erase_eq_some.mp hq).2) (fun c' q hq => ?_)
      (fun _ => rfl) fun _ => rfl
    obtain ⟨hc, -⟩ := lookup_erase_eq_some.mp hq
    simp [ProxyServer.closing, ProxyServer.note, hc]
  refine hclosing.call (fun q => (@fixed_destroy _ p q).reader) fun q => ?_
  exact (receivedBy_next (s.closing c).world.calm (.disconnect p) q).trans (List.append_nil _)

/-- The calls of a reader, one after the other. -/
theorem gives_calls (this : StateMachinePtr) (calls : List (ReaderCall × Int)) (s : ProxyServer) :
    Gives this (framesOf (calls.map Prod.fst)) s.world
      (calls.foldl (fun s call => s.call fun w => w.onCall this call.2 call.1) s).world := by
  induction calls generalizing s with
  | nil => exact .of_fixed (fun _ => .refl _) fun _ => rfl
  | cons call calls ih =>
    have hcons : framesOf ((call :: calls).map Prod.fst) =
        framesOf [call.1] ++ framesOf (calls.map Prod.fst) := framesOf_append [call.1] _
    rw [hcons, List.foldl_cons]
    exact (gives_onCall s.world this call).trans (ih (s.call fun w => w.onCall this call.2 call.1))

theorem feed_reading (s : ProxyServer) (c : ConnectionPtr) (data : Bytes) :
    ((s.reading c data).connection c).feed = (s.connection c).feed.next data := by
  have hchunks : ((s.reading c data).connection c).chunks = (s.connection c).chunks ++ [data] := by
    simp [ProxyServer.reading, ProxyServer.note, Connection.chunks]
  rw [Connection.feed, hchunks, after_snoc]
  rfl

theorem framesOf_callsOf (w : World) (this : StateMachinePtr) (data : Bytes) (now : Nat → Int) :
    framesOf ((w.callsOf this data now).map Prod.fst) =
      framesOf ((w.machine this).reader.onBytesReceived data).2 := by
  have hfst : ∀ (call : ReaderCall) (i : Nat), (call, now i).1 = (call, i).1 := fun _ _ => rfl
  rw [World.callsOf, List.map_map]
  refine congrArg framesOf (Eq.trans ?_ (List.zipIdx_map_fst 0 _))
  exact List.map_congr_left fun ⟨call, i⟩ _ => hfst call i

theorem onBytesReceived_reader (s : ProxyServer) (this : StateMachinePtr) (data : Bytes)
    (now : Nat → Int) (q : StateMachinePtr) :
    ((s.onBytesReceived this data now).world.machine q).reader =
      if q = this then ((s.world.machine this).reader.onBytesReceived data).1
      else (s.world.machine q).reader := by
  have hgives := gives_calls this (s.world.callsOf this data now) s
  unfold ProxyServer.onBytesReceived
  simp only [World.setMachine_machine]
  by_cases hq : q = this
  · subst hq
    rw [Function.update_self, if_pos rfl]
  · rw [Function.update_of_ne hq, if_neg hq]
    exact hgives.reader q

/-- **A chunk is fed to the reader** of the state machine, and to no other. -/
theorem Fed.read (hw : Wired s) (h : Fed s) {p : StateMachinePtr} (hp : s.states.lookup c = some p)
    (data : Bytes) (now : Nat → Int) :
    Fed (((s.reading c data).onBytesReceived p data now).startRead c) := by
  refine Fed.setConnection ?_ rfl
  have hsame := sameWiring_onBytesReceived (s.reading c data) p data now
  have hgives := gives_calls p ((s.reading c data).world.callsOf p data now) (s.reading c data)
  rw [framesOf_callsOf] at hgives
  have hother : ∀ c' p', c' ≠ c → s.states.lookup c' = some p' → p' ≠ p := by
    rintro c' p' hc hp' rfl
    exact hc (hw.owner c' c p' hp' hp)
  have hfeed : (((s.reading c data).onBytesReceived p data now).connection c).feed =
      (s.connection c).feed.next data := (feed_congr (hsame.calls c)).trans (feed_reading s c data)
  have hfeed_ne : ∀ c', c' ≠ c →
      (((s.reading c data).onBytesReceived p data now).connection c').feed =
        (s.connection c').feed := by
    intro c' hc
    refine (feed_congr (hsame.calls c')).trans (feed_congr ?_)
    simp [ProxyServer.reading, ProxyServer.note, hc]
  refine ⟨fun c' p' hp' => ?_, fun c' p' hp' => ?_⟩ <;> rw [hsame.states] at hp'
  · rw [onBytesReceived_reader]
    by_cases hc : c' = c
    · subst hc
      obtain rfl : p' = p := Option.some.inj (hp'.symm.trans hp)
      rw [if_pos rfl, hfeed]
      exact congrArg (fun r => (r.onBytesReceived data).1) (h.reader c' p' hp)
    · rw [if_neg (hother c' p' hc hp'), hfeed_ne c' hc]
      exact h.reader c' p' hp'
  · refine (hgives.frames p').trans ?_
    by_cases hc : c' = c
    · subst hc
      obtain rfl : p' = p := Option.some.inj (hp'.symm.trans hp)
      rw [if_pos rfl, hfeed]
      have hreader : (((s.reading c' data).world.machine p').reader.onBytesReceived data).2 =
          ((s.connection c').feed.reader.onBytesReceived data).2 :=
        congrArg (fun r => (r.onBytesReceived data).2) (h.reader c' p' hp)
      rw [hreader, Feed.next, framesOf_append, ← h.frames c' p' hp]
      rfl
    · rw [if_neg (hother c' p' hc hp'), List.append_nil, hfeed_ne c' hc]
      exact h.frames c' p' hp'

/-- A connection that gets its state machine has read nothing. -/
theorem Fed.connecting (hw : Wired s) (h : Fed s) (hcalls : (s.connection c).calls = [])
    {this : StateMachinePtr} (hunused : s.world.life this = .unused)
    (hthis : s.world.receivedBy this = []) (clientSettings : ClientSettings) (entityId : EntityId)
    (now : Int) : Fed (s.connecting c this clientSettings entityId now) := by
  have hne : ∀ c' p', s.states.lookup c' = some p' → p' ≠ this := by
    rintro c' p' hp' rfl
    have hlive := (hw.live p').mpr ⟨c', hp'⟩
    rw [hunused] at hlive
    cases hlive
  have hfeed : ((s.connecting c this clientSettings entityId now).connection c).feed = .fresh := by
    simp [ProxyServer.connecting, Connection.feed, Connection.chunks, hcalls]
  have hlookup : ∀ c' p', (s.connecting c this clientSettings entityId now).states.lookup c' =
      some p' → (c' = c ∧ p' = this) ∨ (c' ≠ c ∧ s.states.lookup c' = some p') := by
    intro c' p' hp'
    by_cases hc : c' = c
    · subst hc
      exact .inl ⟨rfl, (Option.some.inj ((AList.lookup_insert _).symm.trans hp')).symm⟩
    · exact .inr ⟨hc, (AList.lookup_insert_ne hc).symm.trans hp'⟩
  refine ⟨fun c' p' hp' => ?_, fun c' p' hp' => ?_⟩ <;>
    rcases hlookup c' p' hp' with ⟨rfl, rfl⟩ | ⟨hc, hp'⟩
  · rw [hfeed]
    simp [ProxyServer.connecting, World.connect, StateMachine.fresh, Feed.fresh]
  · simp only [ProxyServer.connecting, World.connect, World.setMachine_machine,
      Function.update_of_ne (hne c' p' hp'), Function.update_of_ne hc]
    exact h.reader c' p' hp'
  · rw [hfeed]
    exact hthis
  · simp only [ProxyServer.connecting, Function.update_of_ne hc]
    exact h.frames c' p' hp'

/-- **The step lemma.** -/
theorem Fed.next (hw : Wired s) (h : Fed s)
    (huntouched : ∀ p, s.world.life p = .unused → s.world.receivedBy p = []) {l : ProxyStep}
    (he : proxySystem.enabled s l) : Fed (s.next l) := by
  cases l with
  | accepted c next noDelay this clientSettings entityId now =>
    obtain ⟨hc, hnext, hunused⟩ := he
    have hstart : Fed ({ s with accepts := s.accepts.erase c }.startAccept next) := by
      refine h.of_eq (fun _ _ => id) (fun c' p hp => ?_) (fun _ => rfl) fun _ => rfl
      have hne : c' ≠ next := by
        rintro rfl
        exact hw.calls_ne_nil hp (hw.silent c' (.inr hnext))
      simp [ProxyServer.startAccept, hne]
    cases noDelay with
    | false => exact hstart
    | true =>
      have hcalls := hw.calls_accepted hc hnext
      have hwired := @Wired.startAccept s c hw next hnext
      have hnone := hwired.lookup_of_silent hcalls
      show Fed ((ProxyServer.onClientConnected _ _ _ _ _ _).startRead c)
      rw [onClientConnected_eq hnone this clientSettings entityId now]
      exact hstart.connecting hwired hcalls hunused (huntouched this hunused) clientSettings entityId
        now
  | acceptAborted => exact ⟨h.reader, h.frames⟩
  | read c data now =>
    obtain ⟨p, hp, hpointer, -⟩ := hw.exists_of_reads he.1
    show Fed (s.onRead c (some data) now)
    cases hmarker : (s.connection c).writer.disconnectMarker with
    | false =>
      rw [onRead_eq hpointer hmarker]
      exact h.read hw hp data now
    | true =>
      rw [onRead_of_marked hp hmarker]
      exact h.close p
  | readError c =>
    obtain ⟨p, hp, -⟩ := hw.exists_of_reads he
    have hclose := @Fed.close s c h p
    rw [← onClientDisconnected_eq hp] at hclose
    exact hclose
  | tick order => exact h.tickStateMachines order
  | strand c l => exact h.setConnection rfl

theorem fed_initial (c : ConnectionPtr) (uuidGenerator : Bytes → Uuid)
    (machine : StateMachinePtr → StateMachine) : Fed (.initial c uuidGenerator machine) := by
  have hnone : ∀ c' p, (ProxyServer.initial c uuidGenerator machine).states.lookup c' ≠ some p :=
    fun c' p hp => by cases (AList.lookup_empty c').symm.trans hp
  exact ⟨fun c' p hp => absurd hp (hnone c' p), fun c' p hp => absurd hp (hnone c' p)⟩

end Steps

/-! ## Frames that are written whole -/

/-- A frame as a client writes it. -/
def PacketFrame.serialize (frame : PacketFrame) : Bytes := serializeFrame frame.id frame.data

/-- The length of the frame is one that the server takes. -/
def PacketFrame.Accepted (frame : PacketFrame) : Prop :=
  frame.data.length + (encodeVarInt32 frame.id).length ≤ INCOMING_PACKET_MAX_LENGTH_VALUE

section Frames

variable {frames : List PacketFrame}

theorem next_serialize {frame : PacketFrame} (h : frame.Accepted) (t : Bytes) :
    frameDecoder.next (frame.serialize ++ t) = .item frame frame.serialize.length := by
  have hc := decodes_frame h (Cursor.ofList (frame.serialize ++ t)) t (by simp [PacketFrame.serialize])
  unfold frameDecoder
  simp only
  rw [hc]
  have hsize : (frame.serialize ++ t).length - ((Cursor.ofList (frame.serialize ++ t)).advance
      (serializeFrame frame.id frame.data).length).size = frame.serialize.length := by
    rw [Cursor.size_advance, Cursor.size_ofList, List.length_append]
    show _ - (_ - frame.serialize.length) = frame.serialize.length
    omega
  exact congrArg (Verdict.item frame) hsize

/-- The parse of frames that were written one after the other. -/
theorem parse_serialize (h : ∀ frame ∈ frames, frame.Accepted) :
    frameDecoder.parse (frames.flatMap PacketFrame.serialize) = ⟨frames, [], false⟩ :=
  Decoder.parse_flatMap next_nil fun frame hframe t => next_serialize (h frame hframe) t

/-- A reader that gets whole frames hands them over and keeps nothing. -/
theorem feed_serialize {written : List (List PacketFrame)}
    (h : ∀ frames ∈ written, ∀ frame ∈ frames, frame.Accepted) :
    let feed := feeding.after .fresh (written.map (·.flatMap PacketFrame.serialize))
    feed.reader.readBuffer = [] ∧ framesOf feed.calls = written.flatten := by
  induction written using List.reverseRecOn with
  | nil => exact ⟨rfl, rfl⟩
  | append_singleton written frames ih =>
    obtain ⟨hwritten, hframes⟩ := List.forall_mem_append.mp h
    obtain ⟨hbuffer, hcalls⟩ := ih hwritten
    have hparse := parse_serialize (hframes frames (List.mem_singleton_self _))
    intro feed
    have hfeed : feed = (feeding.after .fresh (written.map
        (·.flatMap PacketFrame.serialize))).next (frames.flatMap PacketFrame.serialize) := by
      show feeding.after _ _ = _
      rw [List.map_append, List.map_singleton, after_snoc]
      rfl
    have hcall := onBytesReceived_eq (feeding.after .fresh (written.map
      (·.flatMap PacketFrame.serialize))).reader (frames.flatMap PacketFrame.serialize)
    simp only [hbuffer, List.nil_append, List.take_length, hparse, Bool.false_eq_true, if_false,
      List.length_nil, Nat.sub_zero, List.drop_length] at hcall
    rw [hfeed, Feed.next, hcall]
    refine ⟨rfl, ?_⟩
    rw [framesOf_append, hcalls, framesOf_packets, List.flatten_append, List.flatten_singleton]

end Frames

/-! ## Runs -/

section Runs

variable {c : ConnectionPtr} {uuidGenerator : Bytes → Uuid}
  {machine : StateMachinePtr → StateMachine} {ls : List ProxyStep}

theorem fed_along (h : proxySystem.Run (.initial c uuidGenerator machine) ls) :
    proxySystem.Along (.initial c uuidGenerator machine) ls Fed := by
  have hwired : proxySystem.Along (.initial c uuidGenerator machine) ls Wired :=
    along_of_run (wired_initial c uuidGenerator machine) (fun _ _ hw he => hw.next he) h
  have hsteps := (h.and hwired.steps).and (untouched_along h).steps
  refine along_of_steps (fed_initial c uuidGenerator machine) (fun s l hs hl => ?_) hsteps
  refine hs.next hl.1.2 (fun p hp => ?_) hl.1.1
  rw [World.receivedBy, hl.2 p hp, List.filterMap_nil]

/-- The stream that a reader was fed. -/
theorem received_feed (chunks : List Bytes) :
    (feeding.after .fresh chunks).received = chunks.flatten := by
  induction chunks using List.reverseRecOn with
  | nil => rfl
  | append_singleton chunks data ih =>
    rw [after_snoc, List.flatten_append, List.flatten_singleton, ← ih]
    rfl

/-- A reader that takes its chunks in step with the stream gives the frames of the stream. -/
theorem feed_inStep {chunks : List Bytes} (h : feeding.Steps .fresh chunks Feed.InStep) :
    framesOf (feeding.after .fresh chunks).calls =
      (frameDecoder.parse chunks.flatten).items := by
  have hagrees : feeding.Along .fresh chunks Feed.Agrees :=
    along_of_steps agrees_fresh (fun _ data hf hs => (agrees_next_iff hf data).mpr hs) h
  rw [hagrees.last.1, received_feed]

/-- **What a state machine is given.** After every step of every run, the frames that a stored state
machine was given are those that a reader hands over which is fed what its connection read, chunk
by chunk, whatever else happened. They are the frames of the stream as long as the reader takes the
chunks in step with it; and if the client wrote frames, and each read got some of them whole, they
are the frames that it wrote. -/
theorem frames_of_run (h : proxySystem.Run (.initial c uuidGenerator machine) ls) :
    proxySystem.Along (.initial c uuidGenerator machine) ls fun s =>
      ∀ c' p, s.states.lookup c' = some p →
        let connection := s.connection c'
        s.world.receivedBy p = framesOf connection.feed.calls ∧
        (feeding.Steps .fresh connection.chunks Feed.InStep →
          s.world.receivedBy p = (frameDecoder.parse connection.chunks.flatten).items) ∧
        ∀ written : List (List PacketFrame),
          (∀ frames ∈ written, ∀ frame ∈ frames, frame.Accepted) →
          connection.chunks = written.map (·.flatMap PacketFrame.serialize) →
          s.world.receivedBy p = written.flatten := by
  refine (fed_along h).mono fun s hs c' p hp => ?_
  intro connection
  have hframes := hs.frames c' p hp
  refine ⟨hframes, fun hsteps => ?_, fun written hwritten hchunks => ?_⟩
  · rw [hframes]
    exact feed_inStep hsteps
  · have hfeed : connection.feed =
        feeding.after .fresh (written.map (·.flatMap PacketFrame.serialize)) :=
      congrArg (feeding.after .fresh) hchunks
    rw [hframes, hfeed]
    exact (feed_serialize hwritten).2

/-- The client of another version wrote its handshake in one piece. -/
theorem frames_of_run_refused :
    (proxySystem.after proxyStart (refusedSteps.take 2)).world.receivedBy 0 =
      [⟨0, oldHandshake.drop 2⟩] := by
  have hframe : ∀ frames ∈ [[(⟨0, oldHandshake.drop 2⟩ : PacketFrame)]], ∀ frame ∈ frames,
      frame.Accepted := by
    rintro frames hframes frame hframe
    obtain rfl := List.mem_singleton.mp hframes
    obtain rfl := List.mem_singleton.mp hframe
    unfold PacketFrame.Accepted
    decide +kernel
  have hfed := (@frames_of_run 0 (fun _ => .zero) (fun _ => .fresh defaultClientSettings 0 0)
    (refusedSteps.take 2) (by decide +kernel)).last 0 0 (by decide +kernel)
  exact hfed.2.2 [[⟨0, oldHandshake.drop 2⟩]] hframe (by decide +kernel)

end Runs

end Vitamine
