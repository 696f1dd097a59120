import Vitamine.Lib.Endian
import Vitamine.Lib.System

/-!
# The writing side of a connection (`common/net/tcpserver.cpp`)

`send` and `disconnect` are called on any thread and only post to the strand of the connection. What
runs on the strand, one at a time, is `sendImpl`, `disconnectImpl` and the completion handlers of
`async_write`.

It is assumed that `connection->_socket` and `connection->_activeWriteQueueBuffers`, the arguments
of `async_write`, are evaluated before the handler, whose capture moves `connection` away. C++
leaves the order open, and in the other order a null pointer is dereferenced.

* `TcpServerConnection`: the members of the class, with what is posted to its strand, the writes it
  has started, what they have put on the wire, and what happened so far.
* `connectionSystem`: the steps, in any order; the posted buffers are handled in posting order.
* `Piped`: the invariant of the steps without write errors.
* `writePipeline_of_run`: nothing is lost, doubled or reordered, and the socket is closed after
  what was sent before.
* `TcpServerConnection.pending`: the work that is left, which every step of the strand makes less.
* `drained_of_run`: the strand comes to rest, and then everything is written.
-/

namespace Vitamine

open Wire

/-- A call of `_socket.close`: what had been passed to `sendImpl`, and what was on the wire. -/
structure SocketClose where
  sent : List Bytes
  wire : Bytes
  deriving DecidableEq

/-- `TcpServerConnection`. A `const_buffer` is the bytes that it points to. -/
structure TcpServerConnection where
  disconnectMarker : Bool
  appendWriteQueue : List Bytes
  activeWriteQueue : List Bytes
  activeWriteQueueBuffers : List Bytes
  /-- The posted calls of `sendImpl`, in posting order. -/
  posted : List Bytes
  /-- The number of posted calls of `disconnectImpl`. -/
  postedDisconnects : Nat
  /-- The `async_write`s that have not completed, each with its buffers. -/
  writes : List (List Bytes)
  wire : Bytes
  /-- The buffers that were passed to `sendImpl`. -/
  sent : List Bytes
  closes : List SocketClose
  deriving DecidableEq

/-- What happens to a connection. -/
inductive ConnectionStep where
  | send (buffer : Bytes)
  | disconnect
  | sendImpl
  | disconnectImpl
  /-- The `i`-th of the outstanding writes succeeds. -/
  | written (i : Nat)
  /-- The `i`-th of the outstanding writes fails after `n` bytes. -/
  | writeError (i n : Nat)
  deriving DecidableEq

namespace TcpServerConnection

/-- A connection as its constructor leaves it. -/
def new : TcpServerConnection := ⟨false, [], [], [], [], 0, [], [], [], []⟩

variable (c : TcpServerConnection)

/-- `_socket.close()`. -/
def close : TcpServerConnection := { c with closes := c.closes ++ [⟨c.sent, c.wire⟩] }

/-- `boost::asio::async_write` of the active buffers. -/
def asyncWrite : TcpServerConnection :=
  { c with writes := c.writes ++ [c.activeWriteQueueBuffers] }

def startWrite : TcpServerConnection :=
  if c.appendWriteQueue = [] then
    if c.disconnectMarker then c.close else c
  else
    let c := { c with
      activeWriteQueue := c.appendWriteQueue, appendWriteQueue := c.activeWriteQueue }
    let c := { c with
      activeWriteQueueBuffers := c.activeWriteQueueBuffers ++ c.activeWriteQueue }
    c.asyncWrite

def sendImpl (buffer : Bytes) : TcpServerConnection :=
  let c := { c with
    appendWriteQueue := c.appendWriteQueue ++ [buffer], sent := c.sent ++ [buffer] }
  if c.activeWriteQueue ≠ [] then c else c.startWrite

def disconnectImpl : TcpServerConnection :=
  let c := { c with disconnectMarker := true }
  if c.activeWriteQueue = [] then c.close else c

/-- The completion handler of `async_write`; `ec` is whether there was an error. -/
def onWritten (ec : Bool) : TcpServerConnection :=
  let c := { c with activeWriteQueue := [], activeWriteQueueBuffers := [] }
  if ec then c else c.startWrite

/-- `async_write` puts its buffers on the wire, or their first `n` bytes if it fails. -/
def complete (i : Nat) (bytes : Bytes) : TcpServerConnection :=
  { c with writes := c.writes.eraseIdx i, wire := c.wire ++ bytes }

/-- `IConnection::send`. -/
def send (buffer : Bytes) : TcpServerConnection :=
  if c.disconnectMarker then c else { c with posted := c.posted ++ [buffer] }

/-- `IConnection::disconnect`. -/
def disconnect : TcpServerConnection := { c with postedDisconnects := c.postedDisconnects + 1 }

/-- What a step does. -/
def next : ConnectionStep → TcpServerConnection
  | .send buffer => c.send buffer
  | .disconnect => c.disconnect
  | .sendImpl =>
    match c.posted with
    | [] => c
    | buffer :: posted => { c with posted }.sendImpl buffer
  | .disconnectImpl => { c with postedDisconnects := c.postedDisconnects - 1 }.disconnectImpl
  | .written i => (c.complete i (c.writes.getD i []).flatten).onWritten false
  | .writeError i n => (c.complete i ((c.writes.getD i []).flatten.take n)).onWritten true

/-- The steps that the strand admits. A write to a closed socket does not succeed, so there are
fewer runs than these. -/
def Enabled : ConnectionStep → Prop
  | .send _ => True
  | .disconnect => True
  | .sendImpl => c.posted ≠ []
  | .disconnectImpl => 0 < c.postedDisconnects
  | .written i => i < c.writes.length
  | .writeError i _ => i < c.writes.length

instance decidableEnabled : (l : ConnectionStep) → Decidable (c.Enabled l)
  | .send _ => isTrue trivial
  | .disconnect => isTrue trivial
  | .sendImpl => inferInstanceAs (Decidable (c.posted ≠ []))
  | .disconnectImpl => inferInstanceAs (Decidable (0 < c.postedDisconnects))
  | .written i => inferInstanceAs (Decidable (i < c.writes.length))
  | .writeError i _ => inferInstanceAs (Decidable (i < c.writes.length))

end TcpServerConnection

/-- A connection and all that can happen to it. -/
def connectionSystem : System TcpServerConnection ConnectionStep where
  enabled := TcpServerConnection.Enabled
  next := TcpServerConnection.next

instance (c : TcpServerConnection) (l : ConnectionStep) : Decidable (connectionSystem.enabled c l) :=
  inferInstanceAs (Decidable (c.Enabled l))

/-- The step is not a write error. -/
def ConnectionStep.Succeeds : ConnectionStep → Prop
  | .writeError _ _ => False
  | _ => True

instance ConnectionStep.decidableSucceeds : (l : ConnectionStep) → Decidable l.Succeeds
  | .writeError _ _ => isFalse id
  | .send _ | .disconnect | .sendImpl | .disconnectImpl | .written _ => isTrue trivial

/-! ## The invariant -/

/-- What is on the wire is the first of the buffers that were passed to `sendImpl`, and the others
are queued. -/
def TcpServerConnection.InOrder (c : TcpServerConnection) : Prop :=
  ∃ written, written ++ c.activeWriteQueue ++ c.appendWriteQueue = c.sent ∧
    c.wire = written.flatten

/-- What had been passed to `sendImpl` before a close was on the wire then. -/
def TcpServerConnection.Flushed (c : TcpServerConnection) : Prop :=
  ∀ close ∈ c.closes, close.wire = close.sent.flatten

/-- **The write pipeline**: one write at a time, everything once and in order, nothing waiting while
nothing is written, and nothing sent before a close unwritten at the close. -/
structure WritePipeline (c : TcpServerConnection) : Prop where
  oneWrite : c.writes.length ≤ 1
  inOrder : c.InOrder
  drained : c.activeWriteQueue = [] → c.appendWriteQueue = []
  flushed : c.Flushed

/-- The invariant: the outstanding write is that of the active queue, and a marked connection with
nothing to write is closed. -/
structure Piped (c : TcpServerConnection) : Prop where
  buffers : c.activeWriteQueueBuffers = c.activeWriteQueue
  writes : c.writes = if c.activeWriteQueue = [] then [] else [c.activeWriteQueue]
  inOrder : c.InOrder
  drained : c.activeWriteQueue = [] → c.appendWriteQueue = []
  flushed : c.Flushed
  closed : c.disconnectMarker = true → c.activeWriteQueue = [] → c.closes ≠ []

/-- Nothing is being written. -/
structure Idle (c : TcpServerConnection) : Prop where
  buffers : c.activeWriteQueueBuffers = []
  active : c.activeWriteQueue = []
  writes : c.writes = []
  inOrder : c.InOrder
  flushed : c.Flushed

theorem Piped.writePipeline {c : TcpServerConnection} (h : Piped c) : WritePipeline c where
  oneWrite := by
    rw [h.writes]
    split <;> simp
  inOrder := h.inOrder
  drained := h.drained
  flushed := h.flushed

namespace TcpServerConnection

variable {c : TcpServerConnection}

theorem piped_new : Piped new where
  buffers := rfl
  writes := rfl
  inOrder := ⟨[], rfl, rfl⟩
  drained := fun _ => rfl
  flushed := fun _ h => absurd h List.not_mem_nil
  closed := fun h => absurd h Bool.false_ne_true

/-- A close with empty queues comes after all that was sent. -/
theorem flushed_close (hactive : c.activeWriteQueue = []) (happend : c.appendWriteQueue = [])
    (horder : c.InOrder) (h : c.Flushed) : c.close.Flushed := by
  intro close hclose
  rcases List.mem_append.mp hclose with hold | hnew
  · exact h close hold
  · obtain rfl := List.mem_singleton.mp hnew
    obtain ⟨written, hsent, hwire⟩ := horder
    rw [hactive, happend, List.append_nil, List.append_nil] at hsent
    show c.wire = c.sent.flatten
    rw [hwire, hsent]

/-- `startWrite` while nothing is being written: the queue that was filled is written next. -/
theorem piped_startWrite (h : Idle c) : Piped c.startWrite := by
  obtain ⟨hbuffers, hactive, hwrites, ⟨written, hsent, hwire⟩, hflushed⟩ := h
  have hsent' := hsent
  rw [hactive, List.append_nil] at hsent
  unfold startWrite
  by_cases happend : c.appendWriteQueue = []
  · rw [if_pos happend]
    have hw : c.writes = if c.activeWriteQueue = [] then [] else [c.activeWriteQueue] := by
      rw [if_pos hactive, hwrites]
    by_cases hmarker : c.disconnectMarker = true
    · rw [if_pos hmarker]
      exact ⟨hbuffers.trans hactive.symm, hw, ⟨written, hsent', hwire⟩, fun _ => happend,
        flushed_close hactive happend ⟨written, hsent', hwire⟩ hflushed,
        fun _ _ => List.append_ne_nil_of_right_ne_nil _ (List.cons_ne_nil _ _)⟩
    · rw [if_neg hmarker]
      exact ⟨hbuffers.trans hactive.symm, hw, ⟨written, hsent', hwire⟩, fun _ => happend, hflushed,
        fun hm => absurd hm hmarker⟩
  · rw [if_neg happend]
    refine ⟨?_, ?_, ⟨written, ?_, hwire⟩, fun _ => hactive, hflushed, fun _ hnil => absurd hnil happend⟩
    · simp [asyncWrite, hbuffers]
    · simp [asyncWrite, hbuffers, hwrites, happend]
    · simp [asyncWrite, hactive, hsent]

theorem piped_sendImpl (h : Piped c) (buffer : Bytes) : Piped (c.sendImpl buffer) := by
  have horder : { c with appendWriteQueue := c.appendWriteQueue ++ [buffer],
                         sent := c.sent ++ [buffer] }.InOrder := by
    obtain ⟨written, hsent, hwire⟩ := h.inOrder
    exact ⟨written, by rw [← hsent]; simp, hwire⟩
  unfold sendImpl
  by_cases hactive : c.activeWriteQueue = []
  · rw [if_neg (not_not_intro hactive)]
    exact piped_startWrite ⟨h.buffers.trans hactive, hactive, by rw [h.writes, if_pos hactive],
      horder, h.flushed⟩
  · rw [if_pos hactive]
    exact ⟨h.buffers, h.writes, horder, fun hnil => absurd hnil hactive, h.flushed,
      fun _ hnil => absurd hnil hactive⟩

theorem piped_disconnectImpl (h : Piped c) : Piped c.disconnectImpl := by
  unfold disconnectImpl
  by_cases hactive : c.activeWriteQueue = []
  · rw [if_pos hactive]
    exact ⟨h.buffers, h.writes, h.inOrder, h.drained,
      flushed_close hactive (h.drained hactive) h.inOrder h.flushed,
      fun _ _ => List.append_ne_nil_of_right_ne_nil _ (List.cons_ne_nil _ _)⟩
  · rw [if_neg hactive]
    exact ⟨h.buffers, h.writes, h.inOrder, h.drained, h.flushed, fun _ hnil => absurd hnil hactive⟩

/-- The outstanding write is that of the active queue; after it nothing is being written. -/
theorem piped_written (h : Piped c) {i : Nat} (hi : i < c.writes.length) :
    Piped ((c.complete i (c.writes.getD i []).flatten).onWritten false) := by
  obtain ⟨written, hsent, hwire⟩ := h.inOrder
  have hactive : c.activeWriteQueue ≠ [] := by
    intro hnil
    rw [h.writes, if_pos hnil] at hi
    exact absurd hi (Nat.not_lt_zero i)
  have hwrites : c.writes = [c.activeWriteQueue] := by rw [h.writes, if_neg hactive]
  obtain rfl : i = 0 := by
    rw [hwrites, List.length_singleton] at hi
    omega
  rw [hwrites]
  apply piped_startWrite
  refine ⟨rfl, rfl, by simp [complete, hwrites], ⟨written ++ c.activeWriteQueue, ?_, ?_⟩, h.flushed⟩
  · simpa [complete] using hsent
  · simp [complete, hwire]

/-- What is posted makes no difference. -/
theorem piped_posted (h : Piped c) (posted : List Bytes) (postedDisconnects : Nat) :
    Piped { c with posted, postedDisconnects } :=
  ⟨h.buffers, h.writes, h.inOrder, h.drained, h.flushed, h.closed⟩

/-- What a step without a write error preserves. -/
theorem piped_next {l : ConnectionStep} (h : Piped c) (henabled : c.Enabled l) (hok : l.Succeeds) :
    Piped (c.next l) := by
  cases l with
  | send buffer =>
    show Piped (c.send buffer)
    unfold send
    split
    · exact h
    · exact piped_posted h _ _
  | disconnect => exact piped_posted h _ _
  | sendImpl =>
    simp only [next]
    split
    · exact h
    · exact piped_sendImpl (piped_posted h _ _) _
  | disconnectImpl => exact piped_disconnectImpl (piped_posted h _ _)
  | written i => exact piped_written h henabled
  | writeError i n => exact absurd hok id

/-- The invariant holds in every state of a run without write errors. -/
theorem along_piped {ls : List ConnectionStep} (hrun : connectionSystem.Run new ls)
    (hok : ∀ l ∈ ls, l.Succeeds) : connectionSystem.Along new ls Piped := by
  have hsteps : connectionSystem.Steps new ls fun _ l => l.Succeeds := by
    intro pre l hp
    exact hok l (hp.subset (by simp))
  exact System.along_of_steps piped_new (fun _ _ h hl => piped_next h hl.1 hl.2) (hrun.and hsteps)

/-- A connection that was to be disconnected is closed once all its writes are done. -/
theorem closed_of_marked {ls : List ConnectionStep} (hrun : connectionSystem.Run new ls)
    (hok : ∀ l ∈ ls, l.Succeeds) :
    connectionSystem.Along new ls fun c =>
      c.disconnectMarker = true → c.writes = [] → c.closes ≠ [] := by
  refine (along_piped hrun hok).mono fun c h hmarker hwrites => h.closed hmarker ?_
  by_contra hactive
  rw [h.writes, if_neg hactive] at hwrites
  exact absurd hwrites (List.cons_ne_nil _ _)

end TcpServerConnection

/-! ## The work of the strand -/

/-- What runs on the strand of a connection. -/
def ConnectionStep.OnStrand : ConnectionStep → Prop
  | .send _ | .disconnect => False
  | _ => True

instance : (l : ConnectionStep) → Decidable l.OnStrand
  | .send _ | .disconnect => isFalse id
  | .sendImpl | .disconnectImpl | .written _ | .writeError _ _ => isTrue trivial

namespace TcpServerConnection

variable {c : TcpServerConnection} {l : ConnectionStep}

theorem startWrite_eq : c.startWrite.sent = c.sent ∧ c.startWrite.posted = c.posted ∧
    c.startWrite.postedDisconnects = c.postedDisconnects ∧
      c.startWrite.disconnectMarker = c.disconnectMarker := by
  unfold startWrite
  split
  · split <;> exact ⟨rfl, rfl, rfl, rfl⟩
  · exact ⟨rfl, rfl, rfl, rfl⟩

theorem sendImpl_eq (buffer : Bytes) : (c.sendImpl buffer).sent = c.sent ++ [buffer] ∧
    (c.sendImpl buffer).posted = c.posted ∧
      (c.sendImpl buffer).postedDisconnects = c.postedDisconnects ∧
        (c.sendImpl buffer).disconnectMarker = c.disconnectMarker := by
  unfold sendImpl
  dsimp only
  split
  · exact ⟨rfl, rfl, rfl, rfl⟩
  · exact startWrite_eq

theorem disconnectImpl_eq : c.disconnectImpl.sent = c.sent ∧ c.disconnectImpl.posted = c.posted ∧
    c.disconnectImpl.postedDisconnects = c.postedDisconnects ∧
      c.disconnectImpl.disconnectMarker = true := by
  unfold disconnectImpl
  dsimp only
  split <;> exact ⟨rfl, rfl, rfl, rfl⟩

theorem onWritten_eq (ec : Bool) : (c.onWritten ec).sent = c.sent ∧
    (c.onWritten ec).posted = c.posted ∧ (c.onWritten ec).postedDisconnects = c.postedDisconnects ∧
      (c.onWritten ec).disconnectMarker = c.disconnectMarker := by
  unfold onWritten
  dsimp only
  split
  · exact ⟨rfl, rfl, rfl, rfl⟩
  · exact startWrite_eq

/-- The strand hands the posted buffers on, in their order. -/
theorem sent_append_posted_next (hl : l.OnStrand) :
    (c.next l).sent ++ (c.next l).posted = c.sent ++ c.posted := by
  cases l with
  | send => exact hl.elim
  | disconnect => exact hl.elim
  | sendImpl =>
    cases hposted : c.posted with
    | nil => simp only [next, hposted]
    | cons buffer posted =>
      have h := @sendImpl_eq { c with posted } buffer
      simp only [next, hposted, h, List.append_assoc, List.singleton_append]
  | disconnectImpl =>
    have h := @disconnectImpl_eq { c with postedDisconnects := c.postedDisconnects - 1 }
    simp only [next, h]
  | written i =>
    have h := @onWritten_eq (c.complete i (c.writes.getD i []).flatten) false
    simp only [next, h]
    rfl
  | writeError i n =>
    have h := @onWritten_eq (c.complete i ((c.writes.getD i []).flatten.take n)) true
    simp only [next, h]
    rfl

/-- A marked connection stays marked. -/
theorem disconnectMarker_next (hm : c.disconnectMarker = true) (l : ConnectionStep) :
    (c.next l).disconnectMarker = true := by
  cases l with
  | send buffer =>
    simp only [next, send]
    split <;> exact hm
  | disconnect => exact hm
  | sendImpl =>
    simp only [next]
    split
    · exact hm
    · exact (sendImpl_eq _).2.2.2.trans hm
  | disconnectImpl => exact disconnectImpl_eq.2.2.2
  | written i => exact (onWritten_eq false).2.2.2.trans hm
  | writeError i n => exact (onWritten_eq true).2.2.2.trans hm

/-- `send` and `disconnect` only post. -/
theorem disconnectMarker_post (hl : ¬ l.OnStrand) :
    (c.next l).disconnectMarker = c.disconnectMarker := by
  cases l with
  | send buffer =>
    simp only [next, send]
    split <;> rfl
  | disconnect => rfl
  | sendImpl | disconnectImpl | written | writeError => exact absurd trivial hl

theorem disconnectMarker_after_posts {ls : List ConnectionStep} (hls : ∀ l ∈ ls, ¬ l.OnStrand) :
    (connectionSystem.after c ls).disconnectMarker = c.disconnectMarker := by
  induction ls generalizing c with
  | nil => rfl
  | cons l ls ih =>
    refine (ih fun l' hl' => hls l' (List.mem_cons_of_mem _ hl')).trans ?_
    exact disconnectMarker_post (hls l List.mem_cons_self)

/-- Buffers that are sent are posted, unless the connection is marked. -/
theorem after_sends (c : TcpServerConnection) (buffers : List Bytes) :
    connectionSystem.after c (buffers.map .send) =
      if c.disconnectMarker then c else { c with posted := c.posted ++ buffers } := by
  induction buffers generalizing c with
  | nil => simp
  | cons buffer buffers ih =>
    have hsend : connectionSystem.next c (.send buffer) = c.send buffer := rfl
    rw [List.map_cons, System.after_cons, ih, hsend, send]
    cases hm : c.disconnectMarker <;> simp [hm]

/-- The work that is left: each posted buffer is handed on and written, each posted disconnect is
done, and what is queued behind a write is written after it. -/
def pending (c : TcpServerConnection) : Nat :=
  2 * c.posted.length + c.appendWriteQueue.length + min 1 c.activeWriteQueue.length +
    c.postedDisconnects

/-- With nothing in the way, what is queued is written. -/
theorem pending_startWrite (hactive : c.activeWriteQueue = []) :
    c.startWrite.pending ≤ c.pending := by
  unfold startWrite
  by_cases happend : c.appendWriteQueue = []
  · rw [if_pos happend]
    split <;> exact le_refl _
  · have hpos := List.length_pos_iff.mpr happend
    rw [if_neg happend]
    simp only [pending, asyncWrite, hactive, List.length_nil]
    omega

/-- **Every step of the strand is some of the work that is left.** -/
theorem pending_next (h : Piped c) (he : c.Enabled l) (hl : l.OnStrand) (hok : l.Succeeds) :
    (c.next l).pending < c.pending := by
  cases l with
  | send => exact hl.elim
  | disconnect => exact hl.elim
  | sendImpl =>
    obtain ⟨buffer, posted, hposted⟩ := List.exists_cons_of_ne_nil he
    simp only [next, hposted, sendImpl]
    by_cases hactive : c.activeWriteQueue = []
    · rw [if_neg (not_not_intro hactive)]
      refine lt_of_le_of_lt (pending_startWrite hactive) ?_
      simp only [pending, hposted, hactive, List.length_append, List.length_cons, List.length_nil]
      omega
    · rw [if_pos hactive]
      simp only [pending, hposted, List.length_append, List.length_cons, List.length_nil]
      omega
  | disconnectImpl =>
    have hpos : 0 < c.postedDisconnects := he
    simp only [next, disconnectImpl]
    split <;> simp only [pending, close] <;> omega
  | written i =>
    have hactive : c.activeWriteQueue ≠ [] := by
      intro hnil
      have hi : i < c.writes.length := he
      rw [h.writes, if_pos hnil] at hi
      exact absurd hi (Nat.not_lt_zero i)
    have hpos := List.length_pos_iff.mpr hactive
    simp only [next, onWritten, Bool.false_eq_true, if_false]
    refine lt_of_le_of_lt (pending_startWrite rfl) ?_
    simp only [pending, complete, List.length_nil]
    omega
  | writeError => exact hok.elim

/-- Nothing is left to do on the strand. -/
def Quiescent (c : TcpServerConnection) : Prop := ∀ l : ConnectionStep, l.OnStrand → ¬ c.Enabled l

/-- What was sent is on the wire when there is nothing left to do, and a connection that was to be
disconnected is closed. -/
theorem drained_of_quiescent (h : Piped c) (hq : c.Quiescent) :
    c.posted = [] ∧ c.postedDisconnects = 0 ∧ c.wire = c.sent.flatten ∧
      (c.disconnectMarker = true → c.closes ≠ []) := by
  have hactive : c.activeWriteQueue = [] := by
    by_contra hactive
    refine hq (.written 0) trivial ?_
    show 0 < c.writes.length
    rw [h.writes, if_neg hactive]
    exact Nat.one_pos
  obtain ⟨written, hsent, hwire⟩ := h.inOrder
  rw [hactive, h.drained hactive, List.append_nil, List.append_nil] at hsent
  refine ⟨not_not.mp (hq .sendImpl trivial), Nat.eq_zero_of_not_pos (hq .disconnectImpl trivial), ?_,
    fun hm => h.closed hm hactive⟩
  rw [hwire, hsent]

/-- The connection is marked, or is about to be. -/
def Leaving (c : TcpServerConnection) : Prop := 0 < c.postedDisconnects ∨ c.disconnectMarker = true

theorem leaving_next (h : c.Leaving) (hl : l.OnStrand) : (c.next l).Leaving := by
  cases l with
  | send => exact hl.elim
  | disconnect => exact hl.elim
  | sendImpl =>
    simp only [next]
    split
    · exact h
    · unfold Leaving
      rwa [(sendImpl_eq _).2.2.1, (sendImpl_eq _).2.2.2]
  | disconnectImpl => exact .inr disconnectImpl_eq.2.2.2
  | written i =>
    unfold Leaving
    simp only [next]
    rwa [(onWritten_eq false).2.2.1, (onWritten_eq false).2.2.2]
  | writeError i n =>
    unfold Leaving
    simp only [next]
    rwa [(onWritten_eq true).2.2.1, (onWritten_eq true).2.2.2]

/-- What the strand does on its own. -/
theorem strand_run {ls : List ConnectionStep} (h : Piped c) (hrun : connectionSystem.Run c ls)
    (hok : ∀ l ∈ ls, l.Succeeds) (hstrand : ∀ l ∈ ls, l.OnStrand) :
    Piped (connectionSystem.after c ls) ∧
      ls.length + (connectionSystem.after c ls).pending ≤ c.pending ∧
        (connectionSystem.after c ls).sent ++ (connectionSystem.after c ls).posted =
          c.sent ++ c.posted ∧ (c.Leaving → (connectionSystem.after c ls).Leaving) := by
  induction ls generalizing c with
  | nil => exact ⟨h, by simp, rfl, id⟩
  | cons l ls ih =>
    obtain ⟨he, hls⟩ := System.steps_cons.mp hrun
    have hl := hstrand l List.mem_cons_self
    have hok' := hok l List.mem_cons_self
    obtain ⟨hpiped, hlength, hsent, hleaving⟩ := ih (piped_next h he hok') hls
      (fun l' hl' => hok l' (List.mem_cons_of_mem _ hl'))
      (fun l' hl' => hstrand l' (List.mem_cons_of_mem _ hl'))
    have hpending := pending_next h he hl hok'
    refine ⟨hpiped, ?_, hsent.trans (sent_append_posted_next hl),
      fun h' => hleaving (leaving_next h' hl)⟩
    rw [System.after_cons, List.length_cons]
    change ls.length + (connectionSystem.after (c.next l) ls).pending ≤ (c.next l).pending at hlength
    change ls.length + 1 + (connectionSystem.after (c.next l) ls).pending ≤ c.pending
    omega

end TcpServerConnection

/-- **The write pipeline holds** in every state of a run without write errors. -/
theorem writePipeline_of_run (ls : List ConnectionStep)
    (hrun : connectionSystem.Run TcpServerConnection.new ls) (hok : ∀ l ∈ ls, l.Succeeds) :
    connectionSystem.Along TcpServerConnection.new ls WritePipeline :=
  (TcpServerConnection.along_piped hrun hok).mono fun _ => Piped.writePipeline

/-- Two buffers are sent and the connection is disconnected while the first is being written. -/
def sendAndDisconnect : List ConnectionStep :=
  [.send [1], .send [2, 3], .sendImpl, .disconnect, .sendImpl, .disconnectImpl, .written 0, .written 0]

theorem writePipeline_of_run_sendAndDisconnect :
    connectionSystem.Along TcpServerConnection.new sendAndDisconnect WritePipeline ∧
      connectionSystem.after TcpServerConnection.new sendAndDisconnect =
        ⟨true, [], [], [], [], 0, [], [1, 2, 3], [[1], [2, 3]], [⟨[[1], [2, 3]], [1, 2, 3]⟩]⟩ :=
  ⟨writePipeline_of_run sendAndDisconnect (by decide) (by decide), by decide⟩

/-- **The strand comes to rest, and then everything is written.** On its own it can take no more
than `pending` steps. When none is left, all that was sent is on the wire in order, and the socket
is closed if it was to be. -/
theorem drained_of_run (ls ls' : List ConnectionStep)
    (hrun : connectionSystem.Run TcpServerConnection.new (ls ++ ls'))
    (hok : ∀ l ∈ ls ++ ls', l.Succeeds) (hstrand : ∀ l ∈ ls', l.OnStrand) :
    let c := connectionSystem.after TcpServerConnection.new ls
    let c' := connectionSystem.after TcpServerConnection.new (ls ++ ls')
    ls'.length ≤ c.pending ∧
      (c'.Quiescent → c'.wire = (c.sent ++ c.posted).flatten ∧ (c.Leaving → c'.closes ≠ [])) := by
  intro c c'
  obtain ⟨hrun, hrun'⟩ := System.steps_append.mp hrun
  have hpiped : Piped c := (TcpServerConnection.along_piped hrun
    fun l hl => hok l (List.mem_append_left _ hl)).last
  obtain ⟨hpiped', hlength, hsent, hleaving⟩ := TcpServerConnection.strand_run hpiped hrun'
    (fun l hl => hok l (List.mem_append_right _ hl)) hstrand
  rw [← System.after_append] at hpiped' hlength hsent hleaving
  refine ⟨by omega, fun hq => ?_⟩
  obtain ⟨hposted, hdisconnects, hwire, hclosed⟩ :=
    TcpServerConnection.drained_of_quiescent hpiped' hq
  rw [hposted, List.append_nil] at hsent
  refine ⟨hwire.trans (congrArg List.flatten hsent), fun hc => hclosed ?_⟩
  exact (hleaving hc).resolve_left (by rw [hdisconnects]; exact Nat.lt_irrefl 0)

theorem drained_of_run_sendAndDisconnect :
    let c' := connectionSystem.after TcpServerConnection.new
      (sendAndDisconnect.take 4 ++ sendAndDisconnect.drop 4)
    c'.wire = [[1], [2, 3]].flatten ∧ c'.closes ≠ [] := by
  have h := drained_of_run (sendAndDisconnect.take 4) (sendAndDisconnect.drop 4) (by decide)
    (by decide) (by decide)
  have hc' : connectionSystem.after TcpServerConnection.new
      (sendAndDisconnect.take 4 ++ sendAndDisconnect.drop 4) =
        ⟨true, [], [], [], [], 0, [], [1, 2, 3], [[1], [2, 3]], [⟨[[1], [2, 3]], [1, 2, 3]⟩]⟩ := by
    decide
  have hq : (connectionSystem.after TcpServerConnection.new
      (sendAndDisconnect.take 4 ++ sendAndDisconnect.drop 4)).Quiescent := by
    rw [hc']
    intro l hl
    cases l <;> simp [ConnectionStep.OnStrand, TcpServerConnection.Enabled] at hl ⊢
  exact ⟨(h.2 hq).1, (h.2 hq).2 (.inl (by decide))⟩

end Vitamine
