import Vitamine.Proxyd.ProxyServer

/-!
# Who owns what (`proxyd/proxyserver.hpp`, `common/net/tcpserver.cpp`)

The user pointer of a connection is a plain pointer, and the map of `ProxyServer` is the only owner
of the state machine that it points to.

* `Wired`: what holds between the connections, the map and the lifetimes of the state machines.
* `SameWiring`: steps that nothing of this notices, such as all calls of a state machine but the
  last.
* `wired_of_run`: the wiring holds in every state of every run.
* `Unwritten`: nothing is written before the handler is told of a connection.
* `calls_of_marked`: a connection that is marked gets nothing more to read.
-/

namespace Vitamine

open Wire System

/-- `onClientConnected`, then data, then `onClientDisconnected` if no state machine is stored. -/
def Conversation (calls : List HandlerCall) (stored : Bool) : Prop :=
  (calls = [] ∧ stored = false) ∨ ∃ chunks : List Bytes, calls =
    .onClientConnected :: chunks.map .onDataReceived ++
      if stored then [] else [.onClientDisconnected]

/-- A connection and what the map has for it: if something is stored, one read is outstanding and
the user pointer is what is stored; if not, nothing is read. -/
structure Connection.Wired (connection : Connection) (stored : Option StateMachinePtr) : Prop where
  pointer : ∀ p, stored = some p → connection.userPointer = some p
  reads : connection.reads = stored.isSome.toNat
  conversation : Conversation connection.calls stored.isSome

/-- What holds between the connections, the map and the state machines. The state machines that are
alive are those that are stored, each under one connection. -/
structure Wired (s : ProxyServer) : Prop where
  connection : ∀ c, (s.connection c).Wired (s.states.lookup c)
  live : ∀ p, s.world.life p = .live ↔ ∃ c, s.states.lookup c = some p
  owner : ∀ c c' p, s.states.lookup c = some p → s.states.lookup c' = some p → c = c'
  nodup : s.accepts.Nodup
  created : ∀ c ∈ s.accepts, c ∈ s.created
  silent : ∀ c, c ∈ s.accepts ∨ c ∉ s.created → (s.connection c).calls = []

/-- Nothing that `Wired` looks at is different, who was marked still is, and nothing is written for
who is not stored. -/
structure SameWiring (s s' : ProxyServer) : Prop where
  states : s'.states = s.states
  accepts : s'.accepts = s.accepts
  created : s'.created = s.created
  userPointer : ∀ c, (s'.connection c).userPointer = (s.connection c).userPointer
  reads : ∀ c, (s'.connection c).reads = (s.connection c).reads
  calls : ∀ c, (s'.connection c).calls = (s.connection c).calls
  marked : ∀ c, (s.connection c).writer.disconnectMarker = true →
    (s'.connection c).writer.disconnectMarker = true
  idle : ∀ c, s.states.lookup c = none → (s.connection c).writer = .new →
    (s'.connection c).writer = .new
  life : s'.world.life = s.world.life

theorem SameWiring.refl (s : ProxyServer) : SameWiring s s :=
  ⟨rfl, rfl, rfl, fun _ => rfl, fun _ => rfl, fun _ => rfl, fun _ => id, fun _ _ => id, rfl⟩

theorem SameWiring.trans {s s' s'' : ProxyServer} (h : SameWiring s s') (h' : SameWiring s' s'') :
    SameWiring s s'' where
  states := h'.states.trans h.states
  accepts := h'.accepts.trans h.accepts
  created := h'.created.trans h.created
  userPointer c := (h'.userPointer c).trans (h.userPointer c)
  reads c := (h'.reads c).trans (h.reads c)
  calls c := (h'.calls c).trans (h.calls c)
  marked c hm := h'.marked c (h.marked c hm)
  idle c hnone hnew := h'.idle c (by rwa [h.states]) (h.idle c hnone hnew)
  life := h'.life.trans h.life

theorem Wired.of_same {s s' : ProxyServer} (h : Wired s) (hs : SameWiring s s') : Wired s' where
  connection c := by
    rw [hs.states]
    obtain ⟨hpointer, hreads, hconv⟩ := h.connection c
    exact ⟨by rwa [hs.userPointer], by rwa [hs.reads], by rwa [hs.calls]⟩
  live := by simpa only [hs.states, hs.life] using h.live
  owner := by simpa only [hs.states] using h.owner
  nodup := by simpa only [hs.accepts] using h.nodup
  created := by simpa only [hs.accepts, hs.created] using h.created
  silent := by simpa only [hs.accepts, hs.created, hs.calls] using h.silent

/-- A conversation goes on with data. -/
theorem Conversation.data {calls : List HandlerCall} (h : Conversation calls true) (data : Bytes) :
    Conversation (calls ++ [.onDataReceived data]) true := by
  rcases h with ⟨-, hstored⟩ | ⟨chunks, rfl⟩
  · cases hstored
  · exact .inr ⟨chunks ++ [data], by simp⟩

/-- A conversation ends. -/
theorem Conversation.close {calls : List HandlerCall} (h : Conversation calls true) :
    Conversation (calls ++ [.onClientDisconnected]) false := by
  rcases h with ⟨-, hstored⟩ | ⟨chunks, rfl⟩
  · cases hstored
  · exact .inr ⟨chunks, by simp⟩

theorem Conversation.unstored {stored : Bool} (h : Conversation [] stored) : stored = false := by
  rcases h with ⟨-, hstored⟩ | ⟨chunks, hcalls⟩
  · exact hstored
  · simp at hcalls

section Calls

variable (s : ProxyServer) (c : ConnectionPtr)

/-- The calls of a state machine only post. -/
theorem not_onStrand_connectionCalls {before after : World} {p : StateMachinePtr}
    {l : ConnectionStep} (hl : l ∈ connectionCalls before after p) : ¬ l.OnStrand := by
  rcases List.mem_append.mp hl with hl | hl
  · obtain ⟨packet, -, rfl⟩ := List.mem_map.mp hl
    exact id
  · split at hl
    · obtain rfl := List.mem_singleton.mp hl
      exact id
    · cases hl

namespace ProxyServer

/-! ### What the pieces leave -/

@[simp] theorem setConnection_states (connection : Connection) :
    (s.setConnection c connection).states = s.states := rfl

@[simp] theorem setConnection_world (connection : Connection) :
    (s.setConnection c connection).world = s.world := rfl

@[simp] theorem setConnection_accepts (connection : Connection) :
    (s.setConnection c connection).accepts = s.accepts := rfl

@[simp] theorem setConnection_created (connection : Connection) :
    (s.setConnection c connection).created = s.created := rfl

@[simp] theorem setConnection_connection (connection : Connection) :
    (s.setConnection c connection).connection = Function.update s.connection c connection := rfl

@[simp] theorem relay_userPointer (world : World) :
    ((s.relay world).connection c).userPointer = (s.connection c).userPointer := by
  unfold relay
  dsimp only
  split <;> rfl

@[simp] theorem relay_reads (world : World) :
    ((s.relay world).connection c).reads = (s.connection c).reads := by
  unfold relay
  dsimp only
  split <;> rfl

@[simp] theorem relay_calls (world : World) :
    ((s.relay world).connection c).calls = (s.connection c).calls := by
  unfold relay
  dsimp only
  split <;> rfl

@[simp] theorem relay_disconnectMarker (world : World) :
    ((s.relay world).connection c).writer.disconnectMarker =
      (s.connection c).writer.disconnectMarker := by
  unfold relay
  dsimp only
  split
  · rfl
  · exact TcpServerConnection.disconnectMarker_after_posts fun _ => not_onStrand_connectionCalls

/-- A call reaches those who are stored. -/
theorem relay_connection_of_none {world : World} (h : s.states.lookup c = none) :
    (s.relay world).connection c = s.connection c := by
  unfold relay
  simp only [h]

theorem sameWiring_call {f : World → World} (h : (f s.world.calm).life = s.world.life) :
    SameWiring s (s.call f) where
  states := rfl
  accepts := rfl
  created := rfl
  userPointer c := relay_userPointer s c _
  reads c := relay_reads s c _
  calls c := relay_calls s c _
  marked c hm := (relay_disconnectMarker s c _).trans hm
  idle c hnone hnew := (congrArg Connection.writer (relay_connection_of_none s c hnone)).trans hnew
  life := h

end ProxyServer

theorem onCall_life (w : World) (this : StateMachinePtr) (now : Int) (call : ReaderCall) :
    (w.onCall this now call).life = w.life := by
  cases call with
  | onPacket frame => exact handle_life
  | onError => rfl

theorem onTick_life (w : World) (this : StateMachinePtr) (now : Int) :
    (w.onTick this now).life = w.life :=
  funext fun _ => (unmoved_onTick now).life

theorem sameWiring_foldl {α : Type} {f : ProxyServer → α → ProxyServer}
    (h : ∀ s a, SameWiring s (f s a)) (as : List α) : SameWiring s (as.foldl f s) := by
  induction as generalizing s with
  | nil => exact .refl s
  | cons a as ih => exact (h s a).trans (ih _)

theorem sameWiring_onBytesReceived (this : StateMachinePtr) (data : Bytes) (now : Nat → Int) :
    SameWiring s (s.onBytesReceived this data now) :=
  (sameWiring_foldl s (fun s call => s.sameWiring_call (onCall_life _ this call.2 call.1))
    (s.world.callsOf this data now)).trans
      ⟨rfl, rfl, rfl, fun _ => rfl, fun _ => rfl, fun _ => rfl, fun _ => id, fun _ _ => id, rfl⟩

theorem sameWiring_tickStateMachines (order : List (ConnectionPtr × Int)) :
    SameWiring s (s.tickStateMachines order) := by
  refine sameWiring_foldl s (fun s (c, now) => ?_) order
  dsimp only
  split
  · exact .refl s
  · exact s.sameWiring_call (onTick_life _ _ now)

theorem sameWiring_setConnection {connection : Connection}
    (hpointer : connection.userPointer = (s.connection c).userPointer)
    (hreads : connection.reads = (s.connection c).reads)
    (hcalls : connection.calls = (s.connection c).calls)
    (hmarked : (s.connection c).writer.disconnectMarker = true →
      connection.writer.disconnectMarker = true)
    (hidle : (s.connection c).writer = .new → connection.writer = .new) :
    SameWiring s (s.setConnection c connection) := by
  have hproj : ∀ {γ : Type} (f : Connection → γ), f connection = f (s.connection c) →
      ∀ c', f (Function.update s.connection c connection c') = f (s.connection c') := by
    intro γ f hf c'
    by_cases hc : c' = c
    · rw [hc, Function.update_self, hf]
    · rw [Function.update_of_ne hc]
  refine ⟨rfl, rfl, rfl, hproj _ hpointer, hproj _ hreads, hproj _ hcalls, fun c' hm => ?_,
    fun c' _ hnew => ?_, rfl⟩
  · show (Function.update s.connection c connection c').writer.disconnectMarker = true
    by_cases hc : c' = c
    · subst hc
      rw [Function.update_self]
      exact hmarked hm
    · rwa [Function.update_of_ne hc]
  · show (Function.update s.connection c connection c').writer = .new
    by_cases hc : c' = c
    · subst hc
      rw [Function.update_self]
      exact hidle hnew
    · rwa [Function.update_of_ne hc]

/-- Nothing waits on a strand that nothing was posted to. -/
theorem not_enabled_new {l : ConnectionStep} (hl : l.OnStrand) :
    ¬ TcpServerConnection.new.Enabled l := by
  cases l with
  | send | disconnect => exact absurd hl id
  | sendImpl => exact fun he => he rfl
  | disconnectImpl | written | writeError => exact Nat.not_lt_zero _

theorem sameWiring_strand {l : ConnectionStep} (hl : l.OnStrand)
    (he : (s.connection c).writer.Enabled l) : SameWiring s (s.next (.strand c l)) := by
  refine sameWiring_setConnection s c rfl rfl rfl
    (fun hm => TcpServerConnection.disconnectMarker_next hm l) fun hnew => ?_
  rw [hnew] at he
  exact absurd he (not_enabled_new hl)

end Calls

/-! ### What a step keeps of the wiring -/

section Wired

variable {s : ProxyServer} {c : ConnectionPtr}

/-- A connection that is read is stored, and points to a state machine that is alive. -/
theorem Wired.exists_of_reads (h : Wired s) (hreads : 0 < (s.connection c).reads) :
    ∃ p, s.states.lookup c = some p ∧ (s.connection c).userPointer = some p ∧
      s.world.life p = .live := by
  rw [(h.connection c).reads] at hreads
  cases hp : s.states.lookup c with
  | none =>
    rw [hp] at hreads
    cases hreads
  | some p => exact ⟨p, rfl, (h.connection c).pointer p hp, (h.live p).mpr ⟨c, hp⟩⟩

/-- Something was said about a stored connection. -/
theorem Wired.calls_ne_nil (h : Wired s) {p : StateMachinePtr} (hp : s.states.lookup c = some p) :
    (s.connection c).calls ≠ [] := by
  intro hnil
  have hconv := (h.connection c).conversation
  rw [hnil, hp] at hconv
  exact absurd hconv.unstored (by simp)

/-- One more call about a stored connection. -/
theorem Wired.silent_note (h : Wired s) {p : StateMachinePtr} (hp : s.states.lookup c = some p)
    {c' : ConnectionPtr} (hc' : c' ∈ s.accepts ∨ c' ∉ s.created) :
    c' ≠ c ∧ (s.connection c').calls = [] := by
  refine ⟨?_, h.silent c' hc'⟩
  rintro rfl
  exact h.calls_ne_nil hp (h.silent c' hc')

/-- A stored connection that gets data. -/
theorem Wired.data (h : Wired s) {p : StateMachinePtr} (hp : s.states.lookup c = some p)
    (data : Bytes) : Wired (s.note c (.onDataReceived data)) where
  connection c' := by
    by_cases hc : c' = c
    · subst hc
      obtain ⟨hpointer, hreads, hconv⟩ := h.connection c'
      rw [hp] at hconv
      refine ⟨?_, ?_, ?_⟩
      · simpa [ProxyServer.note] using hpointer
      · simpa [ProxyServer.note] using hreads
      · simpa [ProxyServer.note, hp] using hconv.data data
    · simpa [ProxyServer.note, hc] using h.connection c'
  live := h.live
  owner := h.owner
  nodup := h.nodup
  created := h.created
  silent c' hc' := by
    obtain ⟨hc, hcalls⟩ := h.silent_note hp hc'
    simpa [ProxyServer.note, hc] using hcalls

/-- The server when the data of a read gets to the state machine. -/
def ProxyServer.reading (s : ProxyServer) (c : ConnectionPtr) (data : Bytes) : ProxyServer :=
  (s.setConnection c { s.connection c with reads := (s.connection c).reads - 1 }).note c
    (.onDataReceived data)

theorem onRead_eq {p : StateMachinePtr} (hp : (s.connection c).userPointer = some p)
    (hmarker : (s.connection c).writer.disconnectMarker = false) (data : Bytes) (now : Nat → Int) :
    s.onRead c (some data) now = ((s.reading c data).onBytesReceived p data now).startRead c := by
  unfold ProxyServer.onRead ProxyServer.onDataReceived ProxyServer.reading ProxyServer.note
  simp only [ProxyServer.setConnection_connection, Function.update_self, hmarker,
    Bool.false_eq_true, if_false, hp]

/-- A read that completes makes room for the next one. -/
theorem sameWiring_onRead {p : StateMachinePtr} (hreads : 0 < (s.connection c).reads)
    (hp : (s.connection c).userPointer = some p)
    (hmarker : (s.connection c).writer.disconnectMarker = false) (data : Bytes) (now : Nat → Int) :
    SameWiring (s.note c (.onDataReceived data)) (s.onRead c (some data) now) := by
  have h := sameWiring_onBytesReceived (s.reading c data) p data now
  rw [onRead_eq hp hmarker]
  refine ⟨h.states, h.accepts, h.created, fun c' => ?_, fun c' => ?_, fun c' => ?_,
    fun c' hm => ?_, fun c' hnone hnew => ?_, h.life⟩
  · by_cases hc : c' = c
    · subst hc
      simpa [ProxyServer.startRead, ProxyServer.reading, ProxyServer.note] using h.userPointer c'
    · simpa [ProxyServer.startRead, ProxyServer.reading, ProxyServer.note, hc] using
        h.userPointer c'
  · by_cases hc : c' = c
    · subst hc
      have hreads' := h.reads c'
      simp only [ProxyServer.reading, ProxyServer.note, ProxyServer.setConnection_connection,
        Function.update_self] at hreads'
      simp only [ProxyServer.startRead, ProxyServer.reading, ProxyServer.note,
        ProxyServer.setConnection_connection, Function.update_self, hreads']
      omega
    · simpa [ProxyServer.startRead, ProxyServer.reading, ProxyServer.note, hc] using h.reads c'
  · by_cases hc : c' = c
    · subst hc
      simpa [ProxyServer.startRead, ProxyServer.reading, ProxyServer.note] using h.calls c'
    · simpa [ProxyServer.startRead, ProxyServer.reading, ProxyServer.note, hc] using h.calls c'
  · have hm' := h.marked c'
    by_cases hc : c' = c
    · subst hc
      simp only [ProxyServer.reading, ProxyServer.note, ProxyServer.setConnection_connection,
        Function.update_self] at hm hm'
      simpa [ProxyServer.startRead, ProxyServer.reading, ProxyServer.note] using hm' hm
    · simp only [ProxyServer.reading, ProxyServer.note, ProxyServer.setConnection_connection,
        Function.update_of_ne hc] at hm hm'
      simpa [ProxyServer.startRead, ProxyServer.reading, ProxyServer.note, hc] using hm' hm
  · have hidle := h.idle c' hnone
    by_cases hc : c' = c
    · subst hc
      simp only [ProxyServer.reading, ProxyServer.note, ProxyServer.setConnection_connection,
        Function.update_self] at hnew hidle
      simpa [ProxyServer.startRead, ProxyServer.reading, ProxyServer.note] using hidle hnew
    · simp only [ProxyServer.reading, ProxyServer.note, ProxyServer.setConnection_connection,
        Function.update_of_ne hc] at hnew hidle
      simpa [ProxyServer.startRead, ProxyServer.reading, ProxyServer.note, hc] using hidle hnew

/-- The server when the state machine of a connection is to be destroyed. -/
def ProxyServer.closing (s : ProxyServer) (c : ConnectionPtr) : ProxyServer :=
  { (s.setConnection c { s.connection c with reads := (s.connection c).reads - 1 }).note c
      .onClientDisconnected with states := s.states.erase c }

theorem onClientDisconnected_eq {p : StateMachinePtr} (hp : s.states.lookup c = some p) :
    (s.setConnection c { s.connection c with reads := (s.connection c).reads - 1
      }).onClientDisconnected c = (s.closing c).call fun w => w.destroy p := by
  unfold ProxyServer.onClientDisconnected ProxyServer.note
  simp only [ProxyServer.setConnection_states, hp]
  rfl

theorem onRead_of_marked {p : StateMachinePtr} (hp : s.states.lookup c = some p)
    (hmarker : (s.connection c).writer.disconnectMarker = true) (data : Bytes) (now : Nat → Int) :
    s.onRead c (some data) now = (s.closing c).call fun w => w.destroy p := by
  rw [← onClientDisconnected_eq hp]
  unfold ProxyServer.onRead
  simp only [ProxyServer.setConnection_connection, Function.update_self, hmarker, if_true]

theorem lookup_erase_eq_some {states : AList fun _ : ConnectionPtr => StateMachinePtr}
    {c' : ConnectionPtr} {p : StateMachinePtr} :
    (states.erase c).lookup c' = some p ↔ c' ≠ c ∧ states.lookup c' = some p := by
  by_cases hc : c' = c
  · subst hc
    rw [AList.lookup_erase]
    simp
  · rw [AList.lookup_erase_ne hc]
    simp [hc]

/-- A stored connection is forgotten with its state machine. -/
theorem Wired.close (h : Wired s) {p : StateMachinePtr} (hp : s.states.lookup c = some p) :
    Wired ((s.closing c).call fun w => w.destroy p) where
  connection c' := by
    obtain ⟨hpointer, hreads, hconv⟩ := h.connection c'
    by_cases hc : c' = c
    · subst hc
      rw [hp] at hconv hreads
      have hstates : ((s.closing c').call fun w => w.destroy p).states.lookup c' = none :=
        AList.lookup_erase ..
      rw [hstates]
      refine ⟨fun _ hp' => absurd hp' (by simp), ?_, ?_⟩
      · simp [ProxyServer.call, ProxyServer.closing, ProxyServer.note, hreads]
      · simpa [ProxyServer.call, ProxyServer.closing, ProxyServer.note] using hconv.close
    · have hstates : ((s.closing c).call fun w => w.destroy p).states.lookup c' =
          s.states.lookup c' := AList.lookup_erase_ne hc
      rw [hstates]
      refine ⟨?_, ?_, ?_⟩
      · simpa [ProxyServer.call, ProxyServer.closing, ProxyServer.note, hc] using hpointer
      · simpa [ProxyServer.call, ProxyServer.closing, ProxyServer.note, hc] using hreads
      · simpa [ProxyServer.call, ProxyServer.closing, ProxyServer.note, hc] using hconv
  live p' := by
    show (s.world.calm.destroy p).life p' = .live ↔
      ∃ c', (s.states.erase c).lookup c' = some p'
    simp only [lookup_erase_eq_some]
    by_cases hp' : p' = p
    · subst hp'
      refine iff_of_false (by simp) ?_
      rintro ⟨c', hc, hlookup⟩
      exact hc (h.owner c' c p' hlookup hp)
    · rw [World.destroy_life, Function.update_of_ne hp']
      refine (h.live p').trans (exists_congr fun c' => (and_iff_right_of_imp ?_).symm)
      rintro hlookup rfl
      exact hp' (Option.some.inj (hlookup.symm.trans hp))
  owner c₁ c₂ p' h₁ h₂ :=
    h.owner c₁ c₂ p' (lookup_erase_eq_some.mp h₁).2 (lookup_erase_eq_some.mp h₂).2
  nodup := h.nodup
  created := h.created
  silent c' hc' := by
    obtain ⟨hc, hcalls⟩ := h.silent_note hp hc'
    simpa [ProxyServer.call, ProxyServer.closing, ProxyServer.note, hc] using hcalls

/-- The server when a connection is accepted and the next accept is started. -/
theorem Wired.startAccept (h : Wired s) {next : ConnectionPtr} (hnext : next ∉ s.created) :
    Wired ({ s with accepts := s.accepts.erase c }.startAccept next) where
  connection c' := by
    by_cases hc : c' = next
    · subst hc
      have hcalls := h.silent c' (.inr hnext)
      have hnone : s.states.lookup c' = none := by
        cases hp : s.states.lookup c' with
        | none => rfl
        | some p => exact absurd hcalls (h.calls_ne_nil hp)
      have hstates : ({ s with accepts := s.accepts.erase c }.startAccept c').states.lookup c' =
          none := hnone
      rw [hstates]
      simp only [ProxyServer.startAccept, ProxyServer.setConnection_connection, Function.update_self]
      exact ⟨fun _ hp => absurd hp (by simp), rfl, .inl ⟨rfl, rfl⟩⟩
    · simpa [ProxyServer.startAccept, hc] using h.connection c'
  live := h.live
  owner := h.owner
  nodup := by
    have hnodup := h.nodup.erase c
    simp only [ProxyServer.startAccept]
    refine List.nodup_append.mpr ⟨hnodup, List.nodup_singleton next, ?_⟩
    rintro c' hc' _ hmem rfl
    obtain rfl := List.mem_singleton.mp hmem
    exact hnext (h.created c' (List.mem_of_mem_erase hc'))
  created c' hc' := by
    simp only [ProxyServer.startAccept, List.mem_append, List.mem_singleton] at hc' ⊢
    rcases hc' with hc' | rfl
    · exact Finset.mem_insert_of_mem (h.created c' (List.mem_of_mem_erase hc'))
    · exact Finset.mem_insert_self _ _
  silent c' hc' := by
    by_cases hc : c' = next
    · subst hc
      simp [ProxyServer.startAccept, Connection.new]
    · simp only [ProxyServer.startAccept, List.mem_append, List.mem_singleton, hc, or_false,
        Finset.mem_insert, false_or] at hc'
      simpa [ProxyServer.startAccept, hc] using h.silent c' (hc'.imp_left List.mem_of_mem_erase)

theorem Wired.lookup_of_silent (h : Wired s) (hcalls : (s.connection c).calls = []) :
    s.states.lookup c = none := by
  cases hp : s.states.lookup c with
  | none => rfl
  | some p => exact absurd hcalls (h.calls_ne_nil hp)

/-- The server when a connection gets its state machine. -/
def ProxyServer.connecting (s : ProxyServer) (c : ConnectionPtr) (this : StateMachinePtr)
    (clientSettings : ClientSettings) (entityId : EntityId) (now : Int) : ProxyServer :=
  { s with
    connection := Function.update s.connection c
      { s.connection c with
        userPointer := some this
        reads := (s.connection c).reads + 1
        calls := (s.connection c).calls ++ [.onClientConnected] }
    states := s.states.insert c this
    world := s.world.connect this clientSettings entityId now }

theorem onClientConnected_eq (hnone : s.states.lookup c = none) (this : StateMachinePtr)
    (clientSettings : ClientSettings) (entityId : EntityId) (now : Int) :
    (s.onClientConnected c this clientSettings entityId now).startRead c =
      s.connecting c this clientSettings entityId now := by
  have hmem : c ∉ s.states := AList.lookup_eq_none.mp hnone
  refine (congrArg (fun t => ProxyServer.startRead t c) (if_neg hmem)).trans ?_
  simp [ProxyServer.startRead, ProxyServer.connecting, ProxyServer.setConnection, ProxyServer.note]

theorem Wired.connect (h : Wired s) (hcalls : (s.connection c).calls = []) (hcreated : c ∈ s.created)
    (haccepts : c ∉ s.accepts) {this : StateMachinePtr} (hunused : s.world.life this = .unused)
    (clientSettings : ClientSettings) (entityId : EntityId) (now : Int) :
    Wired (s.connecting c this clientSettings entityId now) := by
  have hnone := h.lookup_of_silent hcalls
  have hunowned : ∀ c', s.states.lookup c' ≠ some this := by
    intro c' hc'
    have hlive := (h.live this).mpr ⟨c', hc'⟩
    rw [hunused] at hlive
    cases hlive
  have hlookup : ∀ c', (s.states.insert c this).lookup c' =
      if c' = c then some this else s.states.lookup c' := by
    intro c'
    split <;> rename_i hc
    · rw [hc, AList.lookup_insert]
    · rw [AList.lookup_insert_ne hc]
  constructor
  case connection =>
    intro c'
    obtain ⟨hpointer, hreads, hconv⟩ := h.connection c'
    show Connection.Wired (Function.update s.connection c _ c') ((s.states.insert c this).lookup c')
    rw [hlookup]
    by_cases hc : c' = c
    · subst hc
      rw [if_pos rfl, Function.update_self]
      refine ⟨fun p hp => hp, ?_, .inr ⟨[], by simp [hcalls]⟩⟩
      rw [hreads, hnone]
      rfl
    · rw [if_neg hc, Function.update_of_ne hc]
      exact ⟨hpointer, hreads, hconv⟩
  case live =>
    intro p
    show (s.world.connect this clientSettings entityId now).life p = .live ↔
      ∃ c', (s.states.insert c this).lookup c' = some p
    simp only [hlookup, connect_life]
    by_cases hp : p = this
    · subst hp
      exact iff_of_true (Function.update_self ..) ⟨c, if_pos rfl⟩
    · rw [Function.update_of_ne hp, h.live p]
      refine exists_congr fun c' => ?_
      split <;> rename_i hc
      · rw [hc, hnone]
        simp [Ne.symm hp]
      · rfl
  case owner =>
    intro c₁ c₂ p h₁ h₂
    have h₁' := (hlookup c₁).symm.trans h₁
    have h₂' := (hlookup c₂).symm.trans h₂
    split at h₁' <;> rename_i hc₁ <;> split at h₂' <;> rename_i hc₂
    · rw [hc₁, hc₂]
    · obtain rfl := Option.some.inj h₁'
      exact absurd h₂' (hunowned c₂)
    · obtain rfl := Option.some.inj h₂'
      exact absurd h₁' (hunowned c₁)
    · exact h.owner c₁ c₂ p h₁' h₂'
  case nodup => exact h.nodup
  case created => exact h.created
  case silent =>
    intro c' hc'
    have hc : c' ≠ c := by
      rintro rfl
      exact hc'.elim haccepts fun hc' => hc' hcreated
    show (Function.update s.connection c _ c').calls = []
    rw [Function.update_of_ne hc]
    exact h.silent c' hc'

/-- Nothing was said about a connection that is being accepted. -/
theorem Wired.calls_accepted (h : Wired s) {next : ConnectionPtr} (hc : c ∈ s.accepts)
    (hnext : next ∉ s.created) :
    (({ s with accepts := s.accepts.erase c }.startAccept next).connection c).calls = [] := by
  have hne : c ≠ next := by
    rintro rfl
    exact hnext (h.created c hc)
  simpa [ProxyServer.startAccept, hne] using h.silent c (.inl hc)

/-- An accept that completes. -/
theorem Wired.accepted (h : Wired s) {next : ConnectionPtr} {this : StateMachinePtr}
    (hc : c ∈ s.accepts) (hnext : next ∉ s.created) (hunused : s.world.life this = .unused)
    (noDelay : Bool) (clientSettings : ClientSettings) (entityId : EntityId) (now : Int) :
    Wired (s.onAccepted c next noDelay this clientSettings entityId now) := by
  have hstart := @Wired.startAccept s c h next hnext
  have hcreated := h.created c hc
  have hne : c ≠ next := by
    rintro rfl
    exact hnext hcreated
  unfold ProxyServer.onAccepted
  cases noDelay with
  | false => exact hstart
  | true =>
    have hcalls := h.calls_accepted hc hnext
    have haccepts : c ∉ ({ s with accepts := s.accepts.erase c }.startAccept next).accepts := by
      simpa [ProxyServer.startAccept, hne] using h.nodup.not_mem_erase
    rw [if_pos rfl, onClientConnected_eq (hstart.lookup_of_silent hcalls)]
    exact hstart.connect hcalls (Finset.mem_insert_of_mem hcreated) haccepts hunused clientSettings
      entityId now

/-- **The step lemma.** Every step keeps the wiring. -/
theorem Wired.next (h : Wired s) {l : ProxyStep} (he : proxySystem.enabled s l) :
    Wired (s.next l) := by
  cases l with
  | accepted c next noDelay this clientSettings entityId now =>
    obtain ⟨hc, hnext, hunused⟩ := he
    exact h.accepted hc hnext hunused noDelay clientSettings entityId now
  | acceptAborted c =>
    exact ⟨h.connection, h.live, h.owner, h.nodup.erase c,
      fun c' hc' => h.created c' (List.mem_of_mem_erase hc'),
      fun c' hc' => h.silent c' (hc'.imp_left List.mem_of_mem_erase)⟩
  | read c data now =>
    obtain ⟨p, hp, hpointer, -⟩ := h.exists_of_reads he.1
    cases hmarker : (s.connection c).writer.disconnectMarker with
    | false => exact (h.data hp data).of_same (sameWiring_onRead he.1 hpointer hmarker data now)
    | true =>
      show Wired (s.onRead c (some data) now)
      rw [onRead_of_marked hp hmarker]
      exact h.close hp
  | readError c =>
    obtain ⟨p, hp, -⟩ := h.exists_of_reads he
    have hclose := h.close hp
    rw [← onClientDisconnected_eq hp] at hclose
    exact hclose
  | tick order => exact h.of_same (sameWiring_tickStateMachines s order)
  | strand c l => exact h.of_same (sameWiring_strand s c he.2.1 he.2.2)

theorem wired_initial (c : ConnectionPtr) (uuidGenerator : Bytes → Uuid)
    (machine : StateMachinePtr → StateMachine) : Wired (.initial c uuidGenerator machine) := by
  have hempty : Wired ⟨1, [], ∅, fun _ => .new 0, ∅, .initial uuidGenerator machine⟩ := by
    constructor
    case connection =>
      intro c'
      rw [AList.lookup_empty]
      exact ⟨fun p hp => absurd hp (by simp), rfl, .inl ⟨rfl, rfl⟩⟩
    case live =>
      intro p
      refine iff_of_false (by simp [World.initial]) ?_
      rintro ⟨c', hc'⟩
      rw [AList.lookup_empty] at hc'
      cases hc'
    case owner =>
      intro c₁ c₂ p h₁
      rw [AList.lookup_empty] at h₁
      cases h₁
    case nodup => exact List.nodup_nil
    case created => exact fun c' hc' => absurd hc' List.not_mem_nil
    case silent => exact fun _ _ => rfl
  exact @Wired.startAccept _ c hempty c (Finset.notMem_empty c)

/-! ## Connections that nobody was told of -/

/-- What was not told to the handler has written nothing. -/
def Unwritten (s : ProxyServer) : Prop :=
  ∀ c, (s.connection c).calls = [] → (s.connection c).writer = .new

theorem Unwritten.of_same {s' : ProxyServer} (h : Unwritten s) (hw : Wired s)
    (hs : SameWiring s s') : Unwritten s' := by
  intro c' hcalls
  rw [hs.calls] at hcalls
  exact hs.idle c' (hw.lookup_of_silent hcalls) (h c' hcalls)

theorem Unwritten.note (h : Unwritten s) (call : HandlerCall) : Unwritten (s.note c call) := by
  intro c' hcalls
  by_cases hc : c' = c
  · subst hc
    simp [ProxyServer.note] at hcalls
  · simp only [ProxyServer.note, ProxyServer.setConnection_connection,
      Function.update_of_ne hc] at hcalls ⊢
    exact h c' hcalls

theorem Unwritten.close (h : Unwritten s) (hw : Wired s) (p : StateMachinePtr) :
    Unwritten ((s.closing c).call fun w => w.destroy p) := by
  intro c' hcalls
  have hne : c' ≠ c := by
    rintro rfl
    simp [ProxyServer.call, ProxyServer.closing, ProxyServer.note] at hcalls
  have hconnection : (s.closing c).connection c' = s.connection c' := by
    simp [ProxyServer.closing, ProxyServer.note, hne]
  rw [ProxyServer.call, ProxyServer.relay_calls, hconnection] at hcalls
  have hnone : (s.closing c).states.lookup c' = none :=
    (AList.lookup_erase_ne hne).trans (hw.lookup_of_silent hcalls)
  rw [ProxyServer.call, ProxyServer.relay_connection_of_none _ _ hnone, hconnection]
  exact h c' hcalls

theorem Unwritten.startAccept (h : Unwritten s) (next : ConnectionPtr) :
    Unwritten ({ s with accepts := s.accepts.erase c }.startAccept next) := by
  intro c' hcalls
  by_cases hc : c' = next
  · subst hc
    simp [ProxyServer.startAccept, Connection.new]
  · simp only [ProxyServer.startAccept, ProxyServer.setConnection_connection,
      Function.update_of_ne hc] at hcalls ⊢
    exact h c' hcalls

theorem Unwritten.connect (h : Unwritten s) (this : StateMachinePtr)
    (clientSettings : ClientSettings) (entityId : EntityId) (now : Int) :
    Unwritten (s.connecting c this clientSettings entityId now) := by
  intro c' hcalls
  by_cases hc : c' = c
  · subst hc
    simp [ProxyServer.connecting] at hcalls
  · simp only [ProxyServer.connecting, Function.update_of_ne hc] at hcalls ⊢
    exact h c' hcalls

theorem Unwritten.next (h : Unwritten s) (hw : Wired s) {l : ProxyStep}
    (he : proxySystem.enabled s l) : Unwritten (s.next l) := by
  cases l with
  | accepted c next noDelay this clientSettings entityId now =>
    obtain ⟨hc, hnext, -⟩ := he
    have hstart := @Unwritten.startAccept s c h next
    cases noDelay with
    | false => exact hstart
    | true =>
      have hnone := (hw.startAccept hnext).lookup_of_silent (hw.calls_accepted hc hnext)
      show Unwritten ((ProxyServer.onClientConnected _ _ _ _ _ _).startRead c)
      rw [onClientConnected_eq hnone]
      exact hstart.connect this clientSettings entityId now
  | acceptAborted => exact h
  | read c data now =>
    obtain ⟨p, hp, hpointer, -⟩ := hw.exists_of_reads he.1
    cases hmarker : (s.connection c).writer.disconnectMarker with
    | false =>
      exact (h.note _).of_same (hw.data hp data) (sameWiring_onRead he.1 hpointer hmarker data now)
    | true =>
      show Unwritten (s.onRead c (some data) now)
      rw [onRead_of_marked hp hmarker]
      exact h.close hw p
  | readError c =>
    obtain ⟨p, hp, -⟩ := hw.exists_of_reads he
    have hclose := @Unwritten.close s c h hw p
    rw [← onClientDisconnected_eq hp] at hclose
    exact hclose
  | tick order => exact h.of_same hw (sameWiring_tickStateMachines s order)
  | strand c l => exact h.of_same hw (sameWiring_strand s c he.2.1 he.2.2)

theorem unwritten_initial (c : ConnectionPtr) (uuidGenerator : Bytes → Uuid)
    (machine : StateMachinePtr → StateMachine) : Unwritten (.initial c uuidGenerator machine) := by
  have hempty : Unwritten ⟨1, [], ∅, fun _ => .new 0, ∅, .initial uuidGenerator machine⟩ :=
    fun _ _ => rfl
  exact @Unwritten.startAccept _ c hempty c

/-- Who is marked was told of. -/
theorem Unwritten.calls_ne_nil (h : Unwritten s)
    (hm : (s.connection c).writer.disconnectMarker = true) : (s.connection c).calls ≠ [] := by
  intro hcalls
  rw [h c hcalls] at hm
  cases hm

/-! ## Connections that are marked -/

/-- What was told of a marked connection: `calls` as long as it is stored, and then once
`onClientDisconnected`. `stored` says whether it was stored when it was marked. -/
structure Silenced (c : ConnectionPtr) (calls : List HandlerCall) (stored : Prop)
    (s : ProxyServer) : Prop where
  marked : (s.connection c).writer.disconnectMarker = true
  calls : (stored ∧ (s.states.lookup c).isSome = true ∧ (s.connection c).calls = calls) ∨
    (s.states.lookup c = none ∧ (s.connection c).calls = calls ++ [.onClientDisconnected])

variable {calls : List HandlerCall} {stored : Prop}

theorem Silenced.of_same {s' : ProxyServer} (h : Silenced c calls stored s) (hs : SameWiring s s') :
    Silenced c calls stored s' where
  marked := hs.marked c h.marked
  calls := by
    rw [hs.states, hs.calls]
    exact h.calls

theorem Silenced.of_eq {s' : ProxyServer} (h : Silenced c calls stored s)
    (hc : s'.connection c = s.connection c) (hp : s'.states.lookup c = s.states.lookup c) :
    Silenced c calls stored s' where
  marked := by rw [hc, h.marked]
  calls := by
    rw [hc, hp]
    exact h.calls

/-- It is the end that is told, and it is told once. -/
theorem Silenced.close (h : Silenced c calls stored s) {c' : ConnectionPtr} {p : StateMachinePtr}
    (hp : s.states.lookup c' = some p) :
    Silenced c calls stored ((s.closing c').call fun w => w.destroy p) := by
  by_cases hc : c = c'
  · subst hc
    obtain ⟨-, -, hcalls⟩ := h.calls.resolve_right fun hnone => by simp [hp] at hnone
    refine ⟨?_, .inr ⟨AList.lookup_erase .., ?_⟩⟩
    · simpa [ProxyServer.call, ProxyServer.closing, ProxyServer.note] using h.marked
    · simp [ProxyServer.call, ProxyServer.closing, ProxyServer.note, hcalls]
  · refine ⟨?_, ?_⟩
    · simpa [ProxyServer.call, ProxyServer.closing, ProxyServer.note, hc] using h.marked
    · have hstates : ((s.closing c').call fun w => w.destroy p).states.lookup c =
          s.states.lookup c := AList.lookup_erase_ne hc
      rw [hstates]
      simpa [ProxyServer.call, ProxyServer.closing, ProxyServer.note, hc] using h.calls

theorem Silenced.ne_nil (h : Silenced c calls stored s) (hcalls : calls ≠ []) :
    (s.connection c).calls ≠ [] := by
  rcases h.calls with ⟨-, -, he⟩ | ⟨-, he⟩ <;> simp [he, hcalls]

/-- What a step keeps of the silence. -/
theorem Silenced.next (hw : Wired s) (h : Silenced c calls stored s) (hcalls : calls ≠ [])
    {l : ProxyStep} (he : proxySystem.enabled s l) : Silenced c calls stored (s.next l) := by
  have hne := h.ne_nil hcalls
  cases l with
  | accepted c' next noDelay this clientSettings entityId now =>
    obtain ⟨hc', hnext, -⟩ := he
    have hcc' : c ≠ c' := by
      rintro rfl
      exact hne (hw.silent c (.inl hc'))
    have hcnext : c ≠ next := by
      rintro rfl
      exact hne (hw.silent c (.inr hnext))
    have hstart : Silenced c calls stored
        ({ s with accepts := s.accepts.erase c' }.startAccept next) :=
      h.of_eq (Function.update_of_ne hcnext ..) rfl
    cases noDelay with
    | false => exact hstart
    | true =>
      have hnone := (hw.startAccept hnext).lookup_of_silent (hw.calls_accepted hc' hnext)
      have hconnected := onClientConnected_eq hnone this clientSettings entityId now
      show Silenced c calls stored ((ProxyServer.onClientConnected _ _ _ _ _ _).startRead c')
      rw [hconnected]
      exact hstart.of_eq (Function.update_of_ne hcc' ..) (AList.lookup_insert_ne hcc')
  | acceptAborted => exact h.of_eq rfl rfl
  | read c' data now =>
    obtain ⟨p, hp, hpointer, -⟩ := hw.exists_of_reads he.1
    cases hmarker : (s.connection c').writer.disconnectMarker with
    | false =>
      have hcc' : c ≠ c' := by
        rintro rfl
        rw [h.marked] at hmarker
        cases hmarker
      have hnote : Silenced c calls stored (s.note c' (.onDataReceived data)) :=
        h.of_eq (Function.update_of_ne hcc' ..) rfl
      exact hnote.of_same (sameWiring_onRead he.1 hpointer hmarker data now)
    | true =>
      show Silenced c calls stored (s.onRead c' (some data) now)
      rw [onRead_of_marked hp hmarker]
      exact h.close hp
  | readError c' =>
    obtain ⟨p, hp, -⟩ := hw.exists_of_reads he
    have hclose := h.close hp
    rw [← onClientDisconnected_eq hp] at hclose
    exact hclose
  | tick order => exact h.of_same (sameWiring_tickStateMachines s order)
  | strand c' l => exact h.of_same (sameWiring_strand s c' he.2.1 he.2.2)

end Wired

section Runs

variable {c : ConnectionPtr} {uuidGenerator : Bytes → Uuid}
  {machine : StateMachinePtr → StateMachine} {ls : List ProxyStep}

/-- **The wiring holds in every state of every run.** -/
theorem wired_of_run (h : proxySystem.Run (.initial c uuidGenerator machine) ls) :
    proxySystem.Along (.initial c uuidGenerator machine) ls Wired :=
  along_of_run (wired_initial c uuidGenerator machine) (fun _ _ hw he => hw.next he) h

theorem wired_of_run_refused : proxySystem.Along proxyStart refusedSteps Wired :=
  wired_of_run (by decide +kernel)

/-- **A marked connection gets nothing more to read**: after `disconnectImpl` there is at most the
call of `onClientDisconnected`. -/
theorem calls_of_marked {ls' : List ProxyStep} {c' : ConnectionPtr}
    (h : proxySystem.Run (.initial c uuidGenerator machine) (ls ++ ls'))
    (hm : ((proxySystem.after (.initial c uuidGenerator machine) ls).connection
      c').writer.disconnectMarker = true) :
    let before := (proxySystem.after (.initial c uuidGenerator machine) ls).connection c'
    let after := (proxySystem.after (.initial c uuidGenerator machine) (ls ++ ls')).connection c'
    after.calls = before.calls ∨ after.calls = before.calls ++ [.onClientDisconnected] := by
  intro before after
  obtain ⟨hrun, hrun'⟩ := steps_append.mp h
  obtain ⟨hw, hunwritten⟩ := (along_of_run (I := fun s => Wired s ∧ Unwritten s)
    ⟨wired_initial c uuidGenerator machine, unwritten_initial c uuidGenerator machine⟩
    (fun _ _ hwu he => ⟨hwu.1.next he, hwu.2.next hwu.1 he⟩) hrun).last
  have hsilenced : ∀ {calls : List HandlerCall} {stored : Prop}, calls ≠ [] →
      Silenced c' calls stored (proxySystem.after (.initial c uuidGenerator machine) ls) →
      Silenced c' calls stored
        (proxySystem.after (.initial c uuidGenerator machine) (ls ++ ls')) := by
    intro calls stored hne hs
    rw [after_append]
    exact (along_of_run (I := fun s => Wired s ∧ Silenced c' calls stored s) ⟨hw, hs⟩
      (fun _ _ hws he => ⟨hws.1.next he, hws.2.next hws.1 hne he⟩) hrun').last.2
  have hconv := (hw.connection c').conversation
  cases hp : (proxySystem.after (.initial c uuidGenerator machine) ls).states.lookup c' with
  | some p =>
    have hlast := @hsilenced before.calls True (hw.calls_ne_nil hp)
      ⟨hm, .inl ⟨trivial, by rw [hp]; rfl, rfl⟩⟩
    exact hlast.calls.imp (fun hl => hl.2.2) And.right
  | none =>
    -- It is over already, and nothing starts again.
    rw [hp] at hconv
    obtain ⟨hnil, -⟩ | ⟨chunks, hcalls⟩ := hconv
    · exact absurd hnil (hunwritten.calls_ne_nil hm)
    · have hlast := @hsilenced (.onClientConnected :: chunks.map .onDataReceived) False (by simp)
        ⟨hm, .inr ⟨hp, hcalls⟩⟩
      obtain ⟨-, hafter⟩ := hlast.calls.resolve_left fun hl => hl.1
      exact .inl (hafter.trans hcalls.symm)

/-- The client that is refused, from where its connection is marked. -/
theorem calls_of_marked_refused :
    let before := (proxySystem.after proxyStart (refusedSteps.take 5)).connection 0
    let after :=
      (proxySystem.after proxyStart (refusedSteps.take 5 ++ refusedSteps.drop 5)).connection 0
    after.calls = before.calls ∨ after.calls = before.calls ++ [.onClientDisconnected] :=
  @calls_of_marked 0 (fun _ => .zero) (fun _ => .fresh defaultClientSettings 0 0)
    (refusedSteps.take 5) (refusedSteps.drop 5) 0 (by decide +kernel) (by decide +kernel)

end Runs

end Vitamine
