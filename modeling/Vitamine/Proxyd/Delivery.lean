import Vitamine.Proxyd.Simulation
import Vitamine.Proxyd.Traffic

/-!
# From `send` to the wire

What a state machine sends is posted to the strand of its connection, handed on there and written.

* `Carried`: what was posted for a connection are the frames of the first of the packets that its
  state machine sent, and of all of them as long as the connection is not marked.
* `wire_of_run`: what is on the wire, or on its way there, in a run without write errors.
-/

namespace Vitamine

open Wire System PrefixCode

/-! ## What is sent only grows -/

section Grow

variable {w w' : World} {this : StateMachinePtr} {frame : PacketFrame}

/-- A frame only adds to what a connection was sent. -/
theorem Effect.traffic_append (h : Effect w this frame w') (q : StateMachinePtr) :
    ∃ packets : List ClientboundPacket, w'.traffic q = w.traffic q ++ packets.map .sent := by
  rcases eq_or_ne q this with rfl | hq
  · exact h.traffic_self
  cases h with
  | quiet _ _ hquiet =>
    obtain ⟨ks, ht, -⟩ := hquiet.traffic q
    exact ⟨ks, ht⟩
  | phase => exact ⟨[], by simp⟩
  | login => exact ⟨_, World.onLoginStart_traffic_ne w this _ hq⟩
  | confirm hinit => exact ⟨_, onTeleportConfirm_traffic_ne hinit _ hq⟩
  | settingsInit =>
    exact ⟨[], by rw [World.onSettingsInPlayInit_traffic, Function.update_of_ne hq]; simp⟩
  | settings =>
    exact ⟨[], by rw [World.onClientSettingsChange_traffic, Function.update_of_ne hq]; simp⟩
  | transition => exact ⟨_, World.onChunkTransition_traffic_ne _ this _ _ _ _ hq⟩
  | dig => exact ⟨_, World.startDigging_traffic w this _⟩

theorem sentTo_receive (w : World) (this : StateMachinePtr) (frame : PacketFrame) (now : Int)
    (q : StateMachinePtr) : (w.receive this frame now).sentTo q = w.sentTo q := by
  unfold World.sentTo
  rw [receive_traffic]
  by_cases hq : q = this
  · subst hq
    rw [Function.update_self, List.filterMap_append]
    exact List.append_nil _
  · rw [Function.update_of_ne hq]

/-- **A step only adds to what a connection was sent.** -/
theorem sentTo_next (w : World) (step : ServerStep) (q : StateMachinePtr) :
    w.sentTo q <+: (server.next w step).sentTo q := by
  cases step with
  | connect this clientSettings entityId now => exact List.prefix_refl _
  | packet this frame now =>
    obtain ⟨packets, ht⟩ := (handle_effect (w.receive this frame now) this frame).traffic_append q
    refine ⟨packets, ?_⟩
    rw [← sentTo_receive w this frame now, next_packet]
    exact (sentTo_of_traffic ht).symm
  | error => exact List.prefix_refl _
  | tick this now =>
    rcases onTick_cases w this now with ⟨-, hquiet⟩ | ⟨⟨hinit, ht⟩, -⟩
    · obtain ⟨packets, ht, -⟩ := hquiet.traffic q
      exact ⟨packets, (sentTo_of_traffic ht).symm⟩
    · have htraffic := congrFun (onTick_traffic_of_timeout w this now hinit ht) q
      by_cases hq : q = this
      · subst hq
        rw [Function.update_self] at htraffic
        exact ⟨[.disconnectLogin (chat.plainText (spanFromCString "timeout"))],
          (sentTo_of_traffic htraffic).symm⟩
      · rw [Function.update_of_ne hq] at htraffic
        refine ⟨[], ?_⟩
        rw [List.append_nil, World.sentTo, ← htraffic]
        rfl
  | disconnect this =>
    by_cases hq : q = this
    · subst hq
      refine ⟨[], ?_⟩
      rw [List.append_nil, World.sentTo, World.sentTo, next_disconnect, World.destroy_traffic_self]
    · exact ⟨_, (sentTo_of_traffic (World.destroy_traffic_ne w this hq)).symm⟩

end Grow

/-! ## What is posted -/

/-- The buffers that were posted for the connection, in their order. -/
def Connection.handed (connection : Connection) : List Bytes :=
  connection.writer.sent ++ connection.writer.posted

/-- The buffers of a connection are the frames of the first of the packets that its state machine
sent; of all of them, if it is stored and not marked. -/
structure Carried (s : ProxyServer) : Prop where
  silent : ∀ c, (s.connection c).calls = [] → (s.connection c).handed = []
  first : ∀ c p, (s.connection c).userPointer = some p → ∃ packets,
    packets <+: s.world.sentTo p ∧ (s.connection c).handed = packets.map ClientboundPacket.serialize
  all : ∀ c p, s.states.lookup c = some p → (s.connection c).writer.disconnectMarker = false →
    (s.connection c).handed = (s.world.sentTo p).map ClientboundPacket.serialize

section Calls

variable (s : ProxyServer) (c : ConnectionPtr)

/-- What a call of a state machine posts. -/
theorem relay_handed {world : World} {p : StateMachinePtr} (hp : s.states.lookup c = some p) :
    ((s.relay world).connection c).handed = (s.connection c).handed ++
      if (s.connection c).writer.disconnectMarker then []
      else ((world.sentTo p).drop (s.world.sentTo p).length).map ClientboundPacket.serialize := by
  have hdisconnect : ∀ (b : Bool) (writer : TcpServerConnection),
      (connectionSystem.after writer (if b then [.disconnect] else [])).sent = writer.sent ∧
        (connectionSystem.after writer (if b then [.disconnect] else [])).posted =
          writer.posted := by
    intro b writer
    cases b <;> exact ⟨rfl, rfl⟩
  unfold ProxyServer.relay Connection.handed connectionCalls
  simp only [hp, after_append, hdisconnect]
  rw [← Function.comp_def, ← List.map_map, TcpServerConnection.after_sends]
  split <;> simp

theorem relay_handed_of_unstored {world : World} (hp : s.states.lookup c = none) :
    ((s.relay world).connection c).handed = (s.connection c).handed := by
  unfold ProxyServer.relay
  simp only [hp]

end Calls

section Steps

variable {s : ProxyServer} {c : ConnectionPtr}

/-- What is stored is what the user pointer points to, and something was said about the
connection. -/
structure Linked (s : ProxyServer) : Prop where
  pointer : ∀ c p, s.states.lookup c = some p → (s.connection c).userPointer = some p
  silent : ∀ c, (s.connection c).calls = [] → s.states.lookup c = none

theorem Wired.linked (h : Wired s) : Linked s :=
  ⟨fun c p => (h.connection c).pointer p, fun _ => h.lookup_of_silent⟩

theorem Linked.of_same {s' : ProxyServer} (h : Linked s) (hs : SameWiring s s') : Linked s' where
  pointer := by simpa only [hs.states, hs.userPointer] using h.pointer
  silent := by simpa only [hs.states, hs.calls] using h.silent

/-- A read, and a call of the handler. -/
theorem Linked.noted (h : Linked s) {connection : Connection} (c : ConnectionPtr)
    (hpointer : connection.userPointer = (s.connection c).userPointer)
    (hcalls : connection.calls ≠ []) : Linked (s.setConnection c connection) where
  pointer c' p hp := by
    by_cases hc : c' = c
    · subst hc
      simpa [hpointer] using h.pointer c' p hp
    · simpa [hc] using h.pointer c' p hp
  silent c' hc' := by
    have hc : c' ≠ c := by
      rintro rfl
      exact hcalls (by simpa using hc')
    exact h.silent c' (by simpa [hc] using hc')

/-- A connection that is stored and not marked after a call. -/
theorem Carried.all_call (h : Carried s) {f : World → World} {p : StateMachinePtr}
    (hf : s.world.sentTo p <+: (f s.world.calm).sentTo p) (hp : s.states.lookup c = some p)
    (hm : (s.connection c).writer.disconnectMarker = false) :
    ((s.call f).connection c).handed =
      ((s.call f).world.sentTo p).map ClientboundPacket.serialize := by
  obtain ⟨packets, hpackets⟩ := hf
  refine (relay_handed s c hp).trans ?_
  show _ = ((f s.world.calm).sentTo p).map ClientboundPacket.serialize
  simp [hm, h.all c p hp hm, ← hpackets]

/-- What a call keeps. -/
theorem Carried.call (hl : Linked s) (h : Carried s) {f : World → World}
    (hf : ∀ q, s.world.sentTo q <+: (f s.world.calm).sentTo q) : Carried (s.call f) where
  silent c hcalls := by
    have hcalls' : (s.connection c).calls = [] := (s.relay_calls c _).symm.trans hcalls
    exact (relay_handed_of_unstored s c (hl.silent c hcalls')).trans (h.silent c hcalls')
  first c p hp := by
    have hp' : (s.connection c).userPointer = some p := (s.relay_userPointer c _).symm.trans hp
    obtain ⟨packets, hpackets, hhanded⟩ := h.first c p hp'
    cases hlookup : s.states.lookup c with
    | none =>
      exact ⟨packets, hpackets.trans (hf p), (relay_handed_of_unstored s c hlookup).trans hhanded⟩
    | some q =>
      obtain rfl : q = p :=
        Option.some.inj ((hl.pointer c q hlookup).symm.trans hp')
      cases hm : (s.connection c).writer.disconnectMarker with
      | false => exact ⟨_, List.prefix_refl _, h.all_call (hf q) hlookup hm⟩
      | true =>
        refine ⟨packets, hpackets.trans (hf q), (relay_handed s c hlookup).trans ?_⟩
        rw [hm, if_pos rfl, List.append_nil, hhanded]
  all c p hp hm := h.all_call (hf p) hp ((s.relay_disconnectMarker c _).symm.trans hm)

/-- A change of one connection that leaves what was posted for it. -/
theorem Carried.setConnection (h : Carried s) {connection : Connection}
    (hpointer : connection.userPointer = (s.connection c).userPointer)
    (hhanded : connection.handed = (s.connection c).handed)
    (hcalls : connection.calls = [] → (s.connection c).calls = [])
    (hm : (s.connection c).writer.disconnectMarker = true →
      connection.writer.disconnectMarker = true) : Carried (s.setConnection c connection) where
  silent c' hc' := by
    by_cases hc : c' = c
    · subst hc
      simp only [ProxyServer.setConnection_connection, Function.update_self] at hc' ⊢
      exact hhanded.trans (h.silent c' (hcalls hc'))
    · simp only [ProxyServer.setConnection_connection, Function.update_of_ne hc] at hc' ⊢
      exact h.silent c' hc'
  first c' p hp := by
    by_cases hc : c' = c
    · subst hc
      simp only [ProxyServer.setConnection_connection, Function.update_self] at hp ⊢
      rw [hhanded]
      exact h.first c' p (hpointer.symm.trans hp)
    · simp only [ProxyServer.setConnection_connection, Function.update_of_ne hc] at hp ⊢
      exact h.first c' p hp
  all c' p hp hm' := by
    by_cases hc : c' = c
    · subst hc
      simp only [ProxyServer.setConnection_connection, Function.update_self] at hm' ⊢
      rw [hhanded]
      refine h.all c' p hp ?_
      by_contra hmarked
      rw [hm (Bool.eq_true_of_not_eq_false hmarked)] at hm'
      cases hm'
    · simp only [ProxyServer.setConnection_connection, Function.update_of_ne hc] at hm' ⊢
      exact h.all c' p hp hm'

theorem Carried.of_states (h : Carried s) {states : AList fun _ : ConnectionPtr => StateMachinePtr}
    (hstates : ∀ c p, states.lookup c = some p → s.states.lookup c = some p) :
    Carried { s with states } where
  silent := h.silent
  first := h.first
  all c p hp := h.all c p (hstates c p hp)

theorem Carried.of_world (h : Carried s) {world : World}
    (hsent : ∀ p, world.sentTo p = s.world.sentTo p) : Carried { s with world } where
  silent := h.silent
  first c p hp := by
    show ∃ packets, packets <+: world.sentTo p ∧ _
    rw [hsent]
    exact h.first c p hp
  all c p hp hm := by
    show _ = (world.sentTo p).map ClientboundPacket.serialize
    rw [hsent]
    exact h.all c p hp hm

theorem sentTo_onCall (w : World) (this : StateMachinePtr) (call : ReaderCall × Int)
    (q : StateMachinePtr) : w.sentTo q <+: (w.calm.onCall this call.2 call.1).sentTo q := by
  obtain ⟨call, now⟩ := call
  cases call with
  | onPacket frame => exact sentTo_next w.calm (.packet this frame now) q
  | onError => exact List.prefix_refl _

/-- What the calls of a reader keep. -/
theorem Carried.onBytesReceived (hl : Linked s) (h : Carried s) {this : StateMachinePtr}
    (hlive : s.world.life this = .live) (data : Bytes) (now : Nat → Int) :
    Carried (s.onBytesReceived this data now) := by
  have hstep : ∀ s call, Linked s ∧ Carried s → (chunkLoop this).enabled s call →
      Linked ((chunkLoop this).next s call) ∧ Carried ((chunkLoop this).next s call) := by
    rintro s call ⟨hl, h⟩ -
    show Linked (s.call fun w => w.onCall this call.2 call.1) ∧
      Carried (s.call fun w => w.onCall this call.2 call.1)
    exact ⟨hl.of_same (s.sameWiring_call (onCall_life _ this call.2 call.1)),
      h.call hl fun q => sentTo_onCall s.world this call q⟩
  have hloop := along_of_run ⟨hl, h⟩ hstep (chunkLoop_run hlive (s.world.callsOf this data now))
  exact hloop.last.2.of_world fun p => rfl

theorem Carried.tickStateMachines (hl : Linked s) (h : Carried s)
    (order : List (ConnectionPtr × Int)) : Carried (s.tickStateMachines order) := by
  have hrun : tickLoop.Run s order := fun _ _ _ => trivial
  refine (along_of_run (I := fun s => Linked s ∧ Carried s) ⟨hl, h⟩ (fun s tick hs _ => ?_)
    hrun).last.2
  simp only [tickLoop]
  split
  · exact hs
  · rename_i p _
    exact ⟨hs.1.of_same (s.sameWiring_call (onTick_life _ p tick.2)),
      hs.2.call hs.1 fun q => sentTo_next s.world.calm (.tick p tick.2) q⟩

/-- What the end of a state machine keeps. -/
theorem Carried.destroy (hl : Linked s) (h : Carried s) (p : StateMachinePtr) :
    Carried (s.call fun w => w.destroy p) :=
  h.call hl fun q => sentTo_next s.world.calm (.disconnect p) q

theorem Carried.startRead (h : Carried s) (c : ConnectionPtr) : Carried (s.startRead c) :=
  h.setConnection rfl rfl id id

theorem Carried.note (h : Carried s) (c : ConnectionPtr) (call : HandlerCall) :
    Carried (s.note c call) :=
  h.setConnection rfl rfl (fun hcalls => absurd hcalls (by simp)) id

theorem Carried.taken (h : Carried s) (c : ConnectionPtr) :
    Carried (s.setConnection c { s.connection c with reads := (s.connection c).reads - 1 }) :=
  h.setConnection rfl rfl id id

theorem Carried.reading (h : Carried s) (c : ConnectionPtr) (data : Bytes) :
    Carried (s.reading c data) :=
  (h.taken c).note c _

/-- A stored connection, while its handler is called. -/
theorem Wired.linked_noted (h : Wired s) {p : StateMachinePtr} (hp : s.states.lookup c = some p)
    (call : HandlerCall) : Linked ((s.setConnection c { s.connection c with
      reads := (s.connection c).reads - 1 }).note c call) := by
  have htaken : Linked (s.setConnection c { s.connection c with
      reads := (s.connection c).reads - 1 }) := h.linked.noted c rfl (h.calls_ne_nil hp)
  unfold ProxyServer.note
  refine htaken.noted c rfl ?_
  simp

theorem Carried.close (hw : Wired s) (h : Carried s) {p : StateMachinePtr}
    (hp : s.states.lookup c = some p) : Carried ((s.closing c).call fun w => w.destroy p) := by
  have hnoted := hw.linked_noted hp .onClientDisconnected
  refine Carried.destroy ⟨fun c' q hq => ?_, fun c' hc' => ?_⟩
    (((h.taken c).note c _).of_states fun _ _ hp => (lookup_erase_eq_some.mp hp).2) p
  · exact hnoted.pointer c' q (lookup_erase_eq_some.mp hq).2
  · have hnone := hnoted.silent c' hc'
    cases hq : (s.states.erase c).lookup c' with
    | none => exact hq
    | some q =>
      have hsome := hnone.symm.trans (lookup_erase_eq_some.mp hq).2
      cases hsome

theorem Carried.startAccept (hw : Wired s) (h : Carried s) {next : ConnectionPtr}
    (hnext : next ∉ s.created) :
    Carried ({ s with accepts := s.accepts.erase c }.startAccept next) where
  silent c' hc' := by
    by_cases hc : c' = next
    · subst hc
      simp [ProxyServer.startAccept, Connection.new, Connection.handed, TcpServerConnection.new]
    · simp only [ProxyServer.startAccept, ProxyServer.setConnection_connection,
        Function.update_of_ne hc] at hc' ⊢
      exact h.silent c' hc'
  first c' p hp := by
    by_cases hc : c' = next
    · subst hc
      simp [ProxyServer.startAccept, Connection.new] at hp
    · simp only [ProxyServer.startAccept, ProxyServer.setConnection_connection,
        Function.update_of_ne hc] at hp ⊢
      exact h.first c' p hp
  all c' p hp hm := by
    have hc : c' ≠ next := by
      rintro rfl
      exact hw.calls_ne_nil hp (hw.silent c' (.inr hnext))
    simp only [ProxyServer.startAccept, ProxyServer.setConnection_connection,
      Function.update_of_ne hc] at hm ⊢
    exact h.all c' p hp hm

theorem Carried.connecting (h : Carried s) (hcalls : (s.connection c).calls = [])
    {this : StateMachinePtr} (hthis : s.world.sentTo this = []) (clientSettings : ClientSettings)
    (entityId : EntityId) (now : Int) :
    Carried (s.connecting c this clientSettings entityId now) where
  silent c' hc' := by
    by_cases hc : c' = c
    · subst hc
      simp [ProxyServer.connecting] at hc'
    · simp only [ProxyServer.connecting, Function.update_of_ne hc] at hc' ⊢
      exact h.silent c' hc'
  first c' p hp := by
    by_cases hc : c' = c
    · subst hc
      simp only [ProxyServer.connecting, Function.update_self]
      exact ⟨[], List.nil_prefix, h.silent c' hcalls⟩
    · simp only [ProxyServer.connecting, Function.update_of_ne hc] at hp ⊢
      exact h.first c' p hp
  all c' p hp hm := by
    by_cases hc : c' = c
    · subst hc
      obtain rfl : this = p := Option.some.inj ((AList.lookup_insert _).symm.trans hp)
      simp only [ProxyServer.connecting, Function.update_self]
      refine (h.silent c' hcalls).trans ?_
      show [] = (s.world.sentTo this).map ClientboundPacket.serialize
      rw [hthis, List.map_nil]
    · have hp' : s.states.lookup c' = some p := (AList.lookup_insert_ne hc).symm.trans hp
      simp only [ProxyServer.connecting, Function.update_of_ne hc] at hm ⊢
      exact h.all c' p hp' hm

/-- **The step lemma.** -/
theorem Carried.next (hw : Wired s) (h : Carried s)
    (huntouched : ∀ p, s.world.life p = .unused → s.world.sentTo p = []) {l : ProxyStep}
    (he : proxySystem.enabled s l) : Carried (s.next l) := by
  cases l with
  | accepted c next noDelay this clientSettings entityId now =>
    obtain ⟨hc, hnext, hunused⟩ := he
    have hstart := @Carried.startAccept s c hw h next hnext
    cases noDelay with
    | false => exact hstart
    | true =>
      have hcalls := hw.calls_accepted hc hnext
      have hnone := (hw.startAccept hnext).lookup_of_silent hcalls
      show Carried ((ProxyServer.onClientConnected _ _ _ _ _ _).startRead c)
      rw [onClientConnected_eq hnone this clientSettings entityId now]
      exact hstart.connecting hcalls (huntouched this hunused) clientSettings entityId now
  | acceptAborted => exact ⟨h.silent, h.first, h.all⟩
  | read c data now =>
    obtain ⟨p, hp, hpointer, hlive⟩ := hw.exists_of_reads he.1
    show Carried (s.onRead c (some data) now)
    cases hmarker : (s.connection c).writer.disconnectMarker with
    | false =>
      rw [onRead_eq hpointer hmarker]
      exact ((h.reading c data).onBytesReceived (hw.linked_noted hp _) hlive data now).startRead c
    | true =>
      rw [onRead_of_marked hp hmarker]
      exact h.close hw hp
  | readError c =>
    obtain ⟨p, hp, -⟩ := hw.exists_of_reads he
    have hclose := h.close hw hp
    rw [← onClientDisconnected_eq hp] at hclose
    exact hclose
  | tick order => exact h.tickStateMachines hw.linked order
  | strand c l =>
    exact h.setConnection rfl (TcpServerConnection.sent_append_posted_next he.2.1) id
      fun hm => TcpServerConnection.disconnectMarker_next hm l

end Steps

/-! ## What is written -/

/-- Nothing happened to the writing side of any connection but posts. -/
def Posts (s s' : ProxyServer) : Prop :=
  ∀ c, ∃ ls : List ConnectionStep, (∀ l ∈ ls, ¬ l.OnStrand) ∧
    (s'.connection c).writer = connectionSystem.after (s.connection c).writer ls

section Posts

variable {s s' s'' : ProxyServer} {c : ConnectionPtr}

theorem Posts.of_eq (h : ∀ c, (s'.connection c).writer = (s.connection c).writer) : Posts s s' :=
  fun c => ⟨[], fun _ hl => absurd hl List.not_mem_nil, h c⟩

theorem Posts.trans (h : Posts s s') (h' : Posts s' s'') : Posts s s'' := by
  intro c
  obtain ⟨ls, hls, hw⟩ := h c
  obtain ⟨ls', hls', hw'⟩ := h' c
  exact ⟨ls ++ ls', List.forall_mem_append.mpr ⟨hls, hls'⟩, by rw [hw', hw, after_append]⟩

end Posts

/-! ## Runs -/

section Runs

variable {c : ConnectionPtr} {uuidGenerator : Bytes → Uuid}
  {machine : StateMachinePtr → StateMachine} {ls : List ProxyStep}

/-- Before its use nothing happens at an address, as in every run of the state machines. -/
theorem untouched_along (h : proxySystem.Run (.initial c uuidGenerator machine) ls) :
    proxySystem.Along (.initial c uuidGenerator machine) ls fun s =>
      ∀ p, s.world.life p = .unused → s.world.traffic p = [] := by
  refine (simulated_of_run h).mono fun s hs p hp => ?_
  obtain ⟨-, steps, hrun, readers, disconnecting, he⟩ := hs
  have hbase : Base (server.after (.initial uuidGenerator machine) steps) :=
    (along_of_run (.initial uuidGenerator machine) (fun _ _ => Base.next) hrun).last
  rw [he] at hp ⊢
  exact hbase.untouched p hp

/-- All that was sent is on the wire when there is nothing left to do. -/
theorem Carried.drained {s : ProxyServer} {p : StateMachinePtr} {c' : ConnectionPtr}
    (h : Carried s) (hpiped : Piped (s.connection c').writer)
    (hp : s.states.lookup c' = some p) (hm : (s.connection c').writer.disconnectMarker = false)
    (hq : (s.connection c').writer.Quiescent) :
    (s.connection c').writer.wire = (s.world.sentTo p).flatMap ClientboundPacket.serialize := by
  obtain ⟨hposted, -, hwire, -⟩ := TcpServerConnection.drained_of_quiescent hpiped hq
  have hall := h.all c' p hp hm
  rw [Connection.handed, hposted, List.append_nil] at hall
  rw [hwire, hall]
  rfl

end Runs

end Vitamine
