import Vitamine.Lib.Mutex
import Vitamine.Proxyd.ChunkStore
import Vitamine.Proxyd.Finality

/-!
# The mutexes of the server

What is shared by the state machines is guarded by mutexes: the map of the state machines, the set
of the players, the tracker, the map of the chunks, and each chunk by its own. For each function of
the source there is the list of its operations on them, one `use` for each access, up to what it
finds (`Findings`): it may find anything, since other threads run in between.

There is one access without the mutex: `getOrCreateChunk` destroys the chunk that another thread put
in its place in between, and does not take the mutex of that chunk. But for such a chunk, the
callbacks of any number of threads never meet at what a mutex guards (`locks_of_run`). If there is
none, they never wait for each other in a circle either: `ProxyServer::_mutex` is taken before the
others, and of the others one at a time. So a critical section can be taken for one step, as in
`ChunkStore`. And what a step of the server changes is among what it takes the mutexes for
(`covers_of_step`).

A `StateMachine` reads its own state without a mutex, and that of others too, where it spawns or
lists them. That is not in these lists.
-/

namespace Vitamine

open Wire System Mutex

/-- `ProxyServer::_mutex`, `GlobalState::playersMutex`, that of the `PlayerTracker`,
`GlobalState::chunkMutex`, and `Chunk::mutex` of each chunk. -/
inductive ServerMutex where
  | states
  | players
  | tracker
  | chunkList
  | chunk (ptr : ChunkPtr)
  deriving DecidableEq

def ServerMutex.rank : ServerMutex → Nat
  | .states => 0
  | _ => 1

abbrev LockOp := Op ServerMutex

/-- A number of accesses in one critical section. -/
def accesses (m : ServerMutex) (n : Nat) : List LockOp := guarded m (List.replicate n (.use m))

/-! ## What the functions take -/

/-- What `getOrCreateChunk` finds and returns: a chunk that is there, or none, and then the chunk
that another thread stores until the generated one is assigned to its place. -/
inductive Fetch where
  | found (ptr : ChunkPtr)
  | generated (ptr : ChunkPtr) (replaced : Option ChunkPtr)

def Fetch.ptr : Fetch → ChunkPtr
  | .found ptr => ptr
  | .generated ptr _ => ptr

def Fetch.replaced : Fetch → Option ChunkPtr
  | .found _ => none
  | .generated _ replaced => replaced

/-- What a dig finds. -/
inductive Dug where
  | notFound
  | air (chunk : ChunkPtr)
  | block (chunk : ChunkPtr)

/-- What a call of `onPacket` finds: the player of its own state machine, the chunks of the loop
over the new ones and of that over all in view, and what is at a location. -/
structure Findings where
  state : PlayerState
  maxViewDistance : BitVec 8
  added : ChunkCoord → Fetch
  inView : ChunkCoord → Fetch
  dug : BitVec 64 → Dug

/-- A chunk that is not there is generated in between, without a mutex. The assignment destroys the
chunk that it replaces, with its sections and its mutex, under `chunkMutex` only. -/
def getOrCreateChunkLocks : Fetch → List LockOp
  | .found _ => accesses .chunkList 1
  | .generated _ none => accesses .chunkList 1 ++ accesses .chunkList 1
  | .generated _ (some old) =>
    accesses .chunkList 1 ++ guarded .chunkList [.use .chunkList, .use (.chunk old)]

def sendChunkLocks (fetch : Fetch) : List LockOp :=
  getOrCreateChunkLocks fetch ++ accesses (.chunk fetch.ptr) 1

def sendChunksLocks (fetch : ChunkCoord → Fetch) (coords : List ChunkCoord) : List LockOp :=
  coords.flatMap fun c => sendChunkLocks (fetch c)

/-- `insert`, and the loops over the players before and after it. -/
def onLoginStartLocks : List LockOp := accesses .players 3

namespace Findings

variable (f : Findings)

/-- A chunk that is replaced. -/
def Replaces (old : ChunkPtr) : Prop :=
  ∃ c, (f.added c).replaced = some old ∨ (f.inView c).replaced = some old

/-- `enter`, the broadcast, and the members of each chunk in view. -/
def onTeleportConfirmLocks : List LockOp :=
  accesses .tracker (2 + (ChunkCoord.offsets f.state.viewDistance).length)

def onClientSettingsChangeLocks (packet : ClientSettingsPacket) : List LockOp :=
  let oldVd := f.state.viewDistance
  let state := f.state.withSettings packet f.maxViewDistance
  if oldVd ≠ 0 then
    let coord := state.chunk
    let vd := state.viewDistance
    accesses .tracker 1 ++
      if oldVd < vd then sendChunksLocks f.added ((viewRing vd oldVd).map (coord + ·)) else []
  else []

def onSettingsInPlayInitLocks (packet : ClientSettingsPacket) : List LockOp :=
  let state := f.state.withSettings packet f.maxViewDistance
  let vd := state.viewDistance
  f.onClientSettingsChangeLocks packet ++
    sendChunksLocks f.inView (ChunkCoord.region (state.chunk - ⟨vd, vd⟩) (state.chunk + ⟨vd, vd⟩))

def onChatLocks (message : Bytes) : List LockOp :=
  if 256 < message.length then [] else accesses .players 1

/-- `move`, `unsubscribe`, `subscribe` and the subscribers of the two chunks. -/
def onChunkTransitionLocks (start target : ChunkCoord) : List LockOp :=
  sendChunksLocks f.added (chunksOutside target start f.state.viewDistance) ++ accesses .tracker 5

def onMoveLocks (position : EntityCoord) (rotate : Bool) : List LockOp :=
  let oldChunk := f.state.chunk
  let newChunk : ChunkCoord := coordCast position
  if newChunk ≠ oldChunk then f.onChunkTransitionLocks oldChunk newChunk
  else accesses .tracker (if rotate then 2 else 1)

/-- Where there is no chunk, `chunkMutex` is released on the way out, and where there is air, the
mutex of the chunk. -/
def startDiggingLocks (location : BitVec 64) : List LockOp :=
  match f.dug location with
  | .notFound => accesses .chunkList 1
  | .air chunk => accesses .chunkList 1 ++ accesses (.chunk chunk) 1
  | .block chunk => accesses .chunkList 1 ++ accesses (.chunk chunk) 1 ++ accesses .tracker 1

def onPlayerDiggingLocks (status : BitVec 32) (location : BitVec 64) (face : BitVec 8) :
    List LockOp :=
  if 6 < status.toInt then []
  else if 5 < face.toInt then []
  else if status = 0 then f.startDiggingLocks location
  else []

def switchActionLocks (entityId : BitVec 32) (done : Bool) : List LockOp :=
  if entityId ≠ f.state.entityId then [] else if done then [] else accesses .tracker 1

def onEntityActionLocks (entityId actionId : BitVec 32) : List LockOp :=
  if actionId = 0 then f.switchActionLocks entityId f.state.crouching
  else if actionId = 1 then f.switchActionLocks entityId (!f.state.crouching)
  else if actionId = 2 then []
  else if actionId = 3 then f.switchActionLocks entityId f.state.sprinting
  else if actionId = 4 then f.switchActionLocks entityId (!f.state.sprinting)
  else []

def onAnimationLocks (hand : BitVec 32) : List LockOp :=
  if hand ≠ 0 ∧ hand ≠ 1 then [] else accesses .tracker 1

def playInitLocks : List (Case (List LockOp)) :=
  [⟨packetPlayerPositionRotationClient, fun _ => []⟩,
   ⟨packetTeleportConfirm, fun _ => f.onTeleportConfirmLocks⟩,
   ⟨packetPluginMessageClient, fun _ => []⟩,
   ⟨packetClientSettings,
    fun (locale, viewDistance, chatMode, chatColors, displayedSkinParts, mainHand, ()) =>
      f.onSettingsInPlayInitLocks
        ⟨locale, viewDistance, chatMode, chatColors, displayedSkinParts, mainHand⟩⟩]

def playLocks : List (Case (List LockOp)) :=
  [⟨packetChatClient, fun (message, ()) => onChatLocks message⟩,
   ⟨packetClientSettings,
    fun (locale, viewDistance, chatMode, chatColors, displayedSkinParts, mainHand, ()) =>
      f.onClientSettingsChangeLocks
        ⟨locale, viewDistance, chatMode, chatColors, displayedSkinParts, mainHand⟩⟩,
   ⟨packetCloseWindowClient, fun _ => []⟩,
   ⟨packetInteractEntity, fun _ => []⟩,
   ⟨packetPlayerPosition, fun (x, y, z, _, ()) =>
      f.onMoveLocks ⟨.ofFloat64 x, .ofFloat64 y, .ofFloat64 z⟩ false⟩,
   ⟨packetPlayerPositionRotationClient, fun (x, y, z, _, _, _, ()) =>
      f.onMoveLocks ⟨.ofFloat64 x, .ofFloat64 y, .ofFloat64 z⟩ true⟩,
   ⟨packetPlayerRotation, fun _ => accesses .tracker 2⟩,
   ⟨packetPlayerMovement, fun _ => []⟩,
   ⟨packetKeepAliveClient, fun _ => []⟩,
   ⟨packetPlayerAbilitiesClient, fun _ => []⟩,
   ⟨packetPlayerDigging, fun (status, location, face, ()) =>
      f.onPlayerDiggingLocks status location face⟩,
   ⟨packetEntityAction, fun (entityId, actionId, _, ()) =>
      f.onEntityActionLocks entityId actionId⟩,
   ⟨packetHeldItemChangeClient, fun _ => []⟩,
   ⟨packetAnimationClient, fun (hand, ()) => onAnimationLocks hand⟩,
   ⟨packetUseItem, fun _ => []⟩]

/-- A frame that is refused or not known takes nothing. -/
def onPacketLocks (phase : ClientPhase) (frame : PacketFrame) : List LockOp :=
  match phase with
  | .initial => switchFrame [⟨packetHandshake, fun _ => []⟩] frame [] []
  | .login => switchFrame [⟨packetLoginStart, fun _ => onLoginStartLocks⟩] frame [] []
  | .playInit => switchFrame f.playInitLocks frame [] []
  | .play => switchFrame f.playLocks frame [] []
  | .status => []

end Findings

/-- `~StateMachine`. -/
def destroyLocks (phase : ClientPhase) : List LockOp :=
  if phase = .play then accesses .tracker 2 ++ accesses .players 2 else []

/-- A callback of the server: `onDataReceived` with the calls of `onPacket`, and
`onClientDisconnected` with the phase of the state machine that is erased, if there is one. -/
inductive Callback where
  | onClientConnected
  | onDataReceived (calls : List (Findings × ClientPhase × PacketFrame))
  | onClientDisconnected (phase : Option ClientPhase)
  | tickStateMachines

/-- `onTick` takes nothing, and the destructor runs under the mutex of the map. -/
def Callback.locks : Callback → List LockOp
  | .onClientConnected => accesses .states 1
  | .onDataReceived calls => calls.flatMap fun (f, phase, frame) => f.onPacketLocks phase frame
  | .onClientDisconnected phase => guarded .states (.use .states :: phase.elim [] destroyLocks)
  | .tickStateMachines => accesses .states 1

/-- A chunk that one of the calls replaces. -/
def Callback.Replaces : Callback → ChunkPtr → Prop
  | .onDataReceived calls, old => ∃ call ∈ calls, call.1.Replaces old
  | _, _ => False

/-! ## The order of the mutexes -/

section Balanced

variable {kept : ServerMutex → Prop} {held : List ServerMutex} {f : Findings}

theorem balanced_accesses {m : ServerMutex} (h : ∀ m' ∈ held, m'.rank < m.rank) (n : Nat) :
    Balanced ServerMutex.rank kept held (accesses m n) :=
  balanced_guarded h (balanced_uses (fun _ => List.mem_cons_self) n)

variable (h : ∀ m ∈ held, m.rank < 1)
include h

theorem balanced_getOrCreateChunk {fetch : Fetch}
    (hreplaced : ∀ old, fetch.replaced = some old → ¬ kept (.chunk old)) :
    Balanced ServerMutex.rank kept held (getOrCreateChunkLocks fetch) := by
  have hlist : Balanced ServerMutex.rank kept held (accesses .chunkList 1) := balanced_accesses h 1
  match fetch with
  | .found _ => exact hlist
  | .generated _ none => exact hlist.append hlist
  | .generated _ (some old) =>
    -- The chunk that is destroyed is not locked, so it must not be one that is kept.
    have hold : ¬ kept (.chunk old) := hreplaced old rfl
    refine hlist.append (balanced_guarded h ?_)
    exact (balanced_use fun _ => List.mem_cons_self).append
      (balanced_use fun hkept => absurd hkept hold)

theorem balanced_sendChunks {fetch : ChunkCoord → Fetch}
    (hreplaced : ∀ c old, (fetch c).replaced = some old → ¬ kept (.chunk old))
    (coords : List ChunkCoord) :
    Balanced ServerMutex.rank kept held (sendChunksLocks fetch coords) :=
  balanced_flatMap fun c _ =>
    (balanced_getOrCreateChunk h (hreplaced c)).append (balanced_accesses h 1)

theorem balanced_added (hreplaces : ∀ old, f.Replaces old → ¬ kept (.chunk old))
    (coords : List ChunkCoord) :
    Balanced ServerMutex.rank kept held (sendChunksLocks f.added coords) :=
  balanced_sendChunks h (fun c old hold => hreplaces old ⟨c, .inl hold⟩) coords

theorem balanced_onClientSettingsChange
    (hreplaces : ∀ old, f.Replaces old → ¬ kept (.chunk old)) (packet : ClientSettingsPacket) :
    Balanced ServerMutex.rank kept held (f.onClientSettingsChangeLocks packet) := by
  unfold Findings.onClientSettingsChangeLocks
  simp only
  split
  · refine (balanced_accesses h 1).append ?_
    split
    · exact balanced_added h hreplaces _
    · exact balanced_nil
  · exact balanced_nil

theorem balanced_onMove (hreplaces : ∀ old, f.Replaces old → ¬ kept (.chunk old))
    (position : EntityCoord) (rotate : Bool) :
    Balanced ServerMutex.rank kept held (f.onMoveLocks position rotate) := by
  unfold Findings.onMoveLocks
  simp only
  split
  · exact (balanced_added h hreplaces _).append (balanced_accesses h 5)
  · exact balanced_accesses h _

theorem balanced_onPlayerDigging (status : BitVec 32) (location : BitVec 64) (face : BitVec 8) :
    Balanced ServerMutex.rank kept held (f.onPlayerDiggingLocks status location face) := by
  have hlist : Balanced ServerMutex.rank kept held (accesses .chunkList 1) := balanced_accesses h 1
  unfold Findings.onPlayerDiggingLocks Findings.startDiggingLocks
  split_ifs
  · exact balanced_nil
  · exact balanced_nil
  · cases f.dug location with
    | notFound => exact hlist
    | air => exact hlist.append (balanced_accesses h 1)
    | block => exact (hlist.append (balanced_accesses h 1)).append (balanced_accesses h 1)
  · exact balanced_nil

theorem balanced_onEntityAction (entityId actionId : BitVec 32) :
    Balanced ServerMutex.rank kept held (f.onEntityActionLocks entityId actionId) := by
  have hswitch : ∀ done,
      Balanced ServerMutex.rank kept held (f.switchActionLocks entityId done) := by
    intro done
    unfold Findings.switchActionLocks
    split_ifs
    · exact balanced_nil
    · exact balanced_nil
    · exact balanced_accesses h 1
  unfold Findings.onEntityActionLocks
  split_ifs
  · exact hswitch _
  · exact hswitch _
  · exact balanced_nil
  · exact hswitch _
  · exact hswitch _
  · exact balanced_nil

/-- **No handler keeps a mutex, or takes one while it has another.** -/
theorem balanced_onPacket (hreplaces : ∀ old, f.Replaces old → ¬ kept (.chunk old))
    (phase : ClientPhase) (frame : PacketFrame) :
    Balanced ServerMutex.rank kept held (f.onPacketLocks phase frame) := by
  let Fits : List LockOp → List LockOp → Prop :=
    fun ops _ => Balanced ServerMutex.rank kept held ops
  have hnil : Fits [] [] := balanced_nil
  have hswitch : ∀ {cases : List (Case (List LockOp))}, CasesRel Fits cases cases →
      Balanced ServerMutex.rank kept held (switchFrame cases frame [] []) := fun hcases =>
    @switchFrame_rel _ _ Fits _ _ hcases frame [] [] [] [] hnil hnil
  have hchat : ∀ message, Balanced ServerMutex.rank kept held (Findings.onChatLocks message) := by
    intro message
    unfold Findings.onChatLocks
    split
    · exact balanced_nil
    · exact balanced_accesses h 1
  have hanimation : ∀ hand,
      Balanced ServerMutex.rank kept held (Findings.onAnimationLocks hand) := by
    intro hand
    unfold Findings.onAnimationLocks
    split
    · exact balanced_nil
    · exact balanced_accesses h 1
  cases phase with
  | initial => exact hswitch (.cons (fun _ => hnil) .nil)
  | status => exact hnil
  | login => exact hswitch (.cons (fun _ => balanced_accesses h 3) .nil)
  | playInit =>
    refine hswitch <| .cons (fun _ => hnil) <| .cons (fun _ => balanced_accesses h _) <|
      .cons (fun _ => hnil) <| .cons (fun _ => ?_) .nil
    exact (balanced_onClientSettingsChange h hreplaces _).append
      (balanced_sendChunks h (fun c old hold => hreplaces old ⟨c, .inr hold⟩) _)
  | play =>
    exact hswitch <| .cons (fun _ => hchat _) <|
      .cons (fun _ => balanced_onClientSettingsChange h hreplaces _) <|
      .cons (fun _ => hnil) <| .cons (fun _ => hnil) <|
      .cons (fun _ => balanced_onMove h hreplaces _ _) <|
      .cons (fun _ => balanced_onMove h hreplaces _ _) <|
      .cons (fun _ => balanced_accesses h 2) <| .cons (fun _ => hnil) <| .cons (fun _ => hnil) <|
      .cons (fun _ => hnil) <| .cons (fun _ => balanced_onPlayerDigging h _ _ _) <|
      .cons (fun _ => balanced_onEntityAction h _ _) <| .cons (fun _ => hnil) <|
      .cons (fun _ => hanimation _) <| .cons (fun _ => hnil) .nil

theorem balanced_destroy (phase : ClientPhase) :
    Balanced ServerMutex.rank kept held (destroyLocks phase) := by
  unfold destroyLocks
  split
  · exact (balanced_accesses h 2).append (balanced_accesses h 2)
  · exact balanced_nil

end Balanced

theorem balanced_callback {kept : ServerMutex → Prop} {callback : Callback}
    (hreplaces : ∀ old, callback.Replaces old → ¬ kept (.chunk old)) :
    Balanced ServerMutex.rank kept [] callback.locks := by
  have hnone : ∀ n, ∀ m ∈ ([] : List ServerMutex), m.rank < n :=
    fun n m hm => absurd hm List.not_mem_nil
  cases callback with
  | onClientConnected => exact balanced_accesses (hnone _) 1
  | tickStateMachines => exact balanced_accesses (hnone _) 1
  | onDataReceived calls =>
    exact balanced_flatMap fun call hcall =>
      balanced_onPacket (hnone 1) (fun old hold => hreplaces old ⟨call, hcall, hold⟩) _ _
  | onClientDisconnected phase =>
    have hstates : ∀ m ∈ [ServerMutex.states], m.rank < 1 :=
      List.forall_mem_singleton.mpr Nat.one_pos
    refine balanced_guarded (hnone _) ?_
    refine (balanced_use fun _ => List.mem_cons_self).append ?_
    cases phase with
    | none => exact balanced_nil
    | some phase => exact balanced_destroy hstates phase

/-! ## Any number of threads -/

/-- Threads that each run a list of callbacks. -/
def serverThreads {T : Type} (callbacks : T → List Callback) : Threads T ServerMutex :=
  start fun t => (callbacks t).flatMap Callback.locks

/-- What the threads use under its mutex only: all but the chunks that they replace. -/
def Kept {T : Type} (callbacks : T → List Callback) (m : ServerMutex) : Prop :=
  ∀ old, m = .chunk old → ∀ t, ∀ callback ∈ callbacks t, ¬ callback.Replaces old

theorem safe_serverThreads {T : Type} (callbacks : T → List Callback) :
    Safe ServerMutex.rank (Kept callbacks) (serverThreads callbacks) :=
  safe_start fun t => (balanced_flatMap fun callback hcallback =>
    balanced_callback fun old hold hkept => hkept old rfl t callback hcallback hold).disciplined

section Threads

variable {T : Type} [DecidableEq T]

theorem safe_of_run {callbacks : T → List Callback} {ls : List T}
    (h : threads.Run (serverThreads callbacks) ls) :
    threads.Along (serverThreads callbacks) ls (Safe ServerMutex.rank (Kept callbacks)) :=
  along_of_run (safe_serverThreads callbacks) (fun _ _ hs he => hs.next he) h

/-- **The threads of the server.** In every run of their callbacks, whatever these find, no two
threads are at what one mutex guards, unless it is a chunk that one of the callbacks replaces. If no
chunk is replaced, so that no mutex is destroyed either, the run can go on until all threads are
done and have given everything back. -/
theorem locks_of_run [Fintype T] (callbacks : T → List Callback) {ls : List T}
    (h : threads.Run (serverThreads callbacks) ls) :
    threads.Along (serverThreads callbacks) ls (fun s => ∀ t t' m, Uses s t m → Uses s t' m →
        t = t' ∨ ∃ old, m = .chunk old ∧ ∃ t, ∃ callback ∈ callbacks t, callback.Replaces old) ∧
      ((∀ t, ∀ callback ∈ callbacks t, ∀ old, ¬ callback.Replaces old) →
        ls.length ≤ ∑ t, ((callbacks t).flatMap Callback.locks).length ∧
        ∃ ls', threads.Run (serverThreads callbacks) (ls ++ ls') ∧
          ∀ t, (threads.after (serverThreads callbacks) (ls ++ ls')).todo t = [] ∧
            (threads.after (serverThreads callbacks) (ls ++ ls')).held t = []) := by
  have hsafe := safe_of_run h
  refine ⟨hsafe.mono fun s hs t t' m ht ht' => ?_, fun _ => ⟨?_, ?_⟩⟩
  · by_cases hkept : Kept callbacks m
    · exact .inl (hs.exclusive hkept ht ht')
    · unfold Kept at hkept
      push Not at hkept
      exact .inr hkept
  · have hlength := length_of_run h
    rw [serverThreads, pending_start] at hlength
    omega
  · obtain ⟨ls', hrun, hdone⟩ := hsafe.last.finish
    have hall : threads.Run (serverThreads callbacks) (ls ++ ls') := steps_append.mpr ⟨h, hrun⟩
    refine ⟨ls', hall, fun t => ?_⟩
    have htodo : (threads.after (serverThreads callbacks) (ls ++ ls')).todo t = [] := by
      rw [after_append]
      exact hdone t
    exact ⟨htodo, (safe_of_run hall).last.held_of_done htodo⟩

/-- One thread erases the state machine of a player, and another comes for a tick. -/
theorem locks_of_run_tick :
    let callbacks : Fin 2 → List Callback :=
      ![[.onClientDisconnected (some .play)], [.tickStateMachines]]
    ∃ ls', threads.Run (serverThreads callbacks) ([0, 0, 0, 0] ++ ls') ∧
      ∀ t, (threads.after (serverThreads callbacks) ([0, 0, 0, 0] ++ ls')).todo t = [] ∧
        (threads.after (serverThreads callbacks) ([0, 0, 0, 0] ++ ls')).held t = [] := by
  intro callbacks
  have hrun : threads.Run (serverThreads callbacks) [0, 0, 0, 0] := by decide +kernel
  have hnone : ∀ t, ∀ callback ∈ callbacks t, ∀ old, ¬ callback.Replaces old :=
    Fin.forall_fin_two.mpr ⟨List.forall_mem_singleton.mpr fun _ hold => hold,
      List.forall_mem_singleton.mpr fun _ hold => hold⟩
  exact ((locks_of_run callbacks hrun).2 hnone).2

/-- Settings in `PLAY_INIT` whose first chunk replaces another, which a second thread is sending. -/
def replacingCallbacks : Fin 2 → List Callback :=
  let finds (fetch : Fetch) : Findings :=
    ⟨{ entityId := 0, clientSettings := defaultClientSettings }, 32, fun _ => fetch, fun _ => fetch,
      fun _ => .notFound⟩
  ![[.onDataReceived [(finds (.generated 8 (some 7)), .playInit, clientSettingsFrame 2)]],
    [.onDataReceived [(finds (.found 7), .playInit, clientSettingsFrame 2)]]]

-- Both threads are at the chunk: the first one destroys it.
example : threads.Run (serverThreads replacingCallbacks) [0, 0, 0, 1, 1, 1, 1, 0, 0] ∧
    ∀ t, ((threads.after (serverThreads replacingCallbacks) [0, 0, 0, 1, 1, 1, 1, 0, 0]).todo
      t).head? = some (.use (.chunk 7)) := by
  decide +kernel

end Threads

/-! ## What the server changes -/

/-- What is at a location, by where the chunks are. A location outside of the sections is undefined,
and here nothing is changed. -/
def World.dug (w : World) (ptr : ChunkCoord → ChunkPtr) (location : BitVec 64) : Dug :=
  match w.globalState.chunks (chunkOf location) with
  | none => .notFound
  | some chunk =>
    match chunk.dig (indexOf location) with
    | some (_, true) => .block (ptr (chunkOf location))
    | _ => .air (ptr (chunkOf location))

/-- What a call for `this` finds if nothing comes in between. -/
structure Finds (w : World) (this : StateMachinePtr) (ptr : ChunkCoord → ChunkPtr)
    (f : Findings) : Prop where
  state : f.state = w.player this
  maxViewDistance : f.maxViewDistance = w.globalState.serverSettings.maxViewDistance
  dug : f.dug = w.dug ptr

/-- What changes between two worlds is among what the operations take the mutexes for: the tracker,
the players, which chunks there are, what is in them, and what others are sent. -/
structure Covers (ptr : ChunkCoord → ChunkPtr) (this : StateMachinePtr) (w w' : World)
    (ops : List LockOp) : Prop where
  tracker : w'.tracker ≠ w.tracker → .use .tracker ∈ ops
  players : w'.globalState.players ≠ w.globalState.players → .use .players ∈ ops
  chunkList : ∀ c, w.globalState.chunks c = none → w'.globalState.chunks c ≠ none →
    .use .chunkList ∈ ops
  chunk : ∀ c chunk, w.globalState.chunks c = some chunk →
    w'.globalState.chunks c ≠ some chunk → .use (.chunk (ptr c)) ∈ ops
  others : ∀ q ≠ this, w'.traffic q ≠ w.traffic q → .use .tracker ∈ ops ∨ .use .players ∈ ops

section Covers

variable {w w' : World} {this : StateMachinePtr} {ptr : ChunkCoord → ChunkPtr} {f : Findings}
  {ops ops' : List LockOp}

theorem use_mem_accesses {m : ServerMutex} {n : Nat} (h : 0 < n) : .use m ∈ accesses m n := by
  unfold accesses guarded
  refine List.mem_cons_of_mem _ (List.mem_append_left _ ?_)
  exact List.mem_replicate.mpr ⟨h.ne', rfl⟩

/-- Nothing shared changes, and others are sent nothing. -/
theorem covers_alone (hglobal : w'.globalState = w.globalState)
    (hothers : ∀ q ≠ this, w'.traffic q = w.traffic q) : Covers ptr this w w' ops where
  tracker hne := absurd (congrArg GlobalState.playerTracker hglobal) hne
  players hne := absurd (congrArg GlobalState.players hglobal) hne
  chunkList c hc hne := absurd (by rw [hglobal, hc]) hne
  chunk c chunk hc hne := absurd (by rw [hglobal, hc]) hne
  others q hq hne := absurd (hothers q hq) hne

/-- Nothing shared changes, and what others are sent goes by one of the lists. -/
theorem covers_broadcast (hglobal : w'.globalState = w.globalState)
    (huse : .use .tracker ∈ ops ∨ .use .players ∈ ops) : Covers ptr this w w' ops where
  tracker hne := absurd (congrArg GlobalState.playerTracker hglobal) hne
  players hne := absurd (congrArg GlobalState.players hglobal) hne
  chunkList c hc hne := absurd (by rw [hglobal, hc]) hne
  chunk c chunk hc hne := absurd (by rw [hglobal, hc]) hne
  others _ _ _ := huse

/-- The writes of the state machine itself come before. -/
theorem Covers.of_eq {w₀ : World} (h : Covers ptr this w w' ops)
    (hglobal : w.globalState = w₀.globalState) (hothers : ∀ q ≠ this, w.traffic q = w₀.traffic q) :
    Covers ptr this w₀ w' ops where
  tracker hne := h.tracker (by rwa [World.tracker, World.tracker, hglobal])
  players hne := h.players (by rwa [hglobal])
  chunkList c hc hne := h.chunkList c (by rwa [hglobal]) hne
  chunk c chunk hc hne := h.chunk c chunk (by rwa [hglobal]) hne
  others q hq hne := h.others q hq (by rwa [hothers q hq])

theorem disconnectWith_traffic_ne (w : World) (message : Bytes) {q : StateMachinePtr}
    (hq : q ≠ this) : (w.disconnectWith this message).traffic q = w.traffic q := by
  unfold World.disconnectWith
  simp only
  split <;> simp [World.sendPacket, hq]

theorem covers_disconnectWith (message : Bytes) :
    Covers ptr this w (w.disconnectWith this message) ops :=
  covers_alone (w.disconnectWith_globalState this message) fun _ hq =>
    disconnectWith_traffic_ne w message hq

theorem covers_refl : Covers ptr this w w ops := covers_alone rfl fun _ _ => rfl

theorem covers_disconnect : Covers ptr this w (w.disconnect this) ops :=
  covers_alone rfl fun _ _ => rfl

theorem covers_setPlayer (state : PlayerState) : Covers ptr this w (w.setPlayer this state) ops :=
  covers_alone rfl fun _ _ => rfl

theorem covers_onHandshake (version nextState : BitVec 32) :
    Covers ptr this w (w.onHandshake this version nextState) ops := by
  unfold World.onHandshake
  split_ifs
  · exact covers_disconnectWith _
  · exact covers_alone rfl fun _ _ => rfl
  · exact covers_alone rfl fun _ _ => rfl
  · exact covers_disconnectWith _

theorem covers_onLoginStart (name : Bytes) :
    Covers ptr this w (w.onLoginStart this name) onLoginStartLocks where
  tracker hne := absurd (w.onLoginStart_tracker this name) hne
  players _ := use_mem_accesses (by omega)
  chunkList c hc hne := absurd (by rw [World.onLoginStart_chunks, hc]) hne
  chunk c chunk hc hne := absurd (by rw [World.onLoginStart_chunks, hc]) hne
  others _ _ _ := .inr (use_mem_accesses (by omega))

theorem covers_onTeleportConfirm (id : BitVec 32) :
    Covers ptr this w (w.onTeleportConfirm this id) f.onTeleportConfirmLocks := by
  have huse : .use .tracker ∈ f.onTeleportConfirmLocks := use_mem_accesses (by omega)
  have hchunks : (w.onTeleportConfirm this id).globalState.chunks = w.globalState.chunks := by
    rw [World.onTeleportConfirm_eq, World.enterPlay_chunks, World.confirmed_globalState]
  refine ⟨fun _ => huse, fun hne => absurd ?_ hne, fun c hc hne => absurd ?_ hne,
    fun c chunk hc hne => absurd ?_ hne, fun _ _ _ => .inl huse⟩
  · rw [World.onTeleportConfirm_eq, World.enterPlay_players, World.confirmed_globalState]
  · rw [hchunks, hc]
  · rw [hchunks, hc]

theorem covers_onPluginMessage (channel data : Bytes) :
    Covers ptr this w (w.onPluginMessage this channel data) ops := by
  unfold World.onPluginMessage
  split
  · split
    · split
      · exact covers_disconnect
      · exact covers_setPlayer _
    · exact covers_disconnect
  · exact covers_refl

theorem use_mem_sendChunks {fetch : ChunkCoord → Fetch} {coords : List ChunkCoord} {c : ChunkCoord}
    (hc : c ∈ coords) : .use .chunkList ∈ sendChunksLocks fetch coords := by
  refine List.mem_flatMap.mpr ⟨c, hc, List.mem_append_left _ ?_⟩
  have huse : .use .chunkList ∈ accesses .chunkList 1 := use_mem_accesses Nat.one_pos
  match fetch c with
  | .found _ => exact huse
  | .generated _ none => exact List.mem_append_left _ huse
  | .generated _ (some _) => exact List.mem_append_left _ huse

/-- Chunks are generated where they are sent and were not there, and no chunk changes. -/
theorem covers_stream {loads : ChunkCoord → Prop} [DecidablePred loads]
    (hchunks : ∀ c, w'.globalState.chunks c =
      if loads c then some (w.chunkAt c) else w.globalState.chunks c)
    (hlist : ∀ c, loads c → .use .chunkList ∈ ops)
    (htracker : w'.tracker ≠ w.tracker → .use .tracker ∈ ops)
    (hplayers : w'.globalState.players = w.globalState.players)
    (hothers : ∀ q ≠ this, w'.traffic q ≠ w.traffic q → .use .tracker ∈ ops) :
    Covers ptr this w w' ops where
  tracker := htracker
  players hne := absurd hplayers hne
  chunkList c hc hne := by
    by_cases hl : loads c
    · exact hlist c hl
    · rw [hchunks, if_neg hl] at hne
      exact absurd hc hne
  chunk c chunk hc hne := by
    refine absurd ?_ hne
    rw [hchunks, World.chunkAt, hc, Option.getD_some, ite_self]
  others q hq hne := .inl (hothers q hq hne)

/-- A chunk that is there is changed. -/
theorem covers_setChunk {c : ChunkCoord} {chunk chunk' : Chunk}
    (hc : w.globalState.chunks c = some chunk) (huse : .use (.chunk (ptr c)) ∈ ops) :
    Covers ptr this w (w.setChunk c chunk') ops where
  tracker hne := absurd rfl hne
  players hne := absurd rfl hne
  chunkList d hd hne := by
    by_cases hdc : d = c
    · subst hdc
      rw [hd] at hc
      cases hc
    · rw [World.setChunk_chunks, Function.update_of_ne hdc] at hne
      exact absurd hd hne
  chunk d _ hd hne := by
    by_cases hdc : d = c
    · subst hdc
      exact huse
    · rw [World.setChunk_chunks, Function.update_of_ne hdc] at hne
      exact absurd hd hne
  others _ _ hne := absurd rfl hne

variable (hf : Finds w this ptr f)
include hf

/-- The new chunks of new settings are those of the loop. -/
theorem onClientSettingsChangeLocks_eq (packet : ClientSettingsPacket) :
    f.onClientSettingsChangeLocks packet = if (w.player this).viewDistance ≠ 0 then
      accesses .tracker 1 ++ sendChunksLocks f.added (w.settingsLoads this packet) else [] := by
  have hnew : (w.player this).withSettings packet w.globalState.serverSettings.maxViewDistance =
    w.withSettings this packet := rfl
  unfold Findings.onClientSettingsChangeLocks World.settingsLoads
  rw [hf.state, hf.maxViewDistance, hnew]
  by_cases hzero : (w.player this).viewDistance = 0
  · rw [if_neg (not_not.mpr hzero), if_neg (not_not.mpr hzero)]
  · rw [if_pos hzero, if_pos hzero]
    simp only
    by_cases hlt : (w.player this).viewDistance < (w.withSettings this packet).viewDistance
    · rw [if_pos hlt, if_pos ⟨hzero, hlt⟩]
      rfl
    · rw [if_neg hlt, if_neg fun h => hlt h.2]
      rfl

theorem use_tracker_of_settings {packet : ClientSettingsPacket}
    (hne : (w.onClientSettingsChange this packet).tracker ≠ w.tracker) :
    .use .tracker ∈ f.onClientSettingsChangeLocks packet := by
  rw [onClientSettingsChangeLocks_eq hf]
  by_cases hzero : (w.player this).viewDistance = 0
  · -- A player without a view distance is not in the tracker yet.
    refine absurd ?_ hne
    unfold World.onClientSettingsChange
    simp only
    rw [if_neg (not_not.mpr hzero), World.setPlayer_tracker]
  · rw [if_pos hzero]
    exact List.mem_append_left _ (use_mem_accesses Nat.one_pos)

theorem use_chunkList_of_settings {packet : ClientSettingsPacket} {c : ChunkCoord}
    (hc : c ∈ w.settingsLoads this packet) :
    .use .chunkList ∈ f.onClientSettingsChangeLocks packet := by
  rw [onClientSettingsChangeLocks_eq hf, if_pos (w.mem_settingsLoads this packet |>.mp hc).1.1]
  exact List.mem_append_right _ (use_mem_sendChunks hc)

theorem covers_onClientSettingsChange (packet : ClientSettingsPacket) :
    Covers ptr this w (w.onClientSettingsChange this packet)
      (f.onClientSettingsChangeLocks packet) := by
  refine covers_stream (w.onClientSettingsChange_chunks this packet)
    (fun c hc => use_chunkList_of_settings hf hc) (use_tracker_of_settings hf)
    (w.onClientSettingsChange_players this packet) fun q hq hne => absurd ?_ hne
  rw [World.onClientSettingsChange_traffic, Function.update_of_ne hq]

theorem covers_onSettingsInPlayInit (packet : ClientSettingsPacket) :
    Covers ptr this w (w.onSettingsInPlayInit this packet)
      (f.onSettingsInPlayInitLocks packet) := by
  refine covers_stream (w.onSettingsInPlayInit_chunks this packet) (fun c hc => ?_) (fun hne => ?_)
    (w.onSettingsInPlayInit_players this packet) fun q hq hne => absurd ?_ hne
  · rcases hc with hc | hc
    · exact List.mem_append_left _ (use_chunkList_of_settings hf hc)
    · refine List.mem_append_right _ (@use_mem_sendChunks _ _ c (ChunkCoord.mem_square.mpr ?_))
      rw [hf.state, hf.maxViewDistance]
      exact hc
  · rw [World.onSettingsInPlayInit_tracker] at hne
    exact List.mem_append_left _ (use_tracker_of_settings hf hne)
  · rw [World.onSettingsInPlayInit_traffic, Function.update_of_ne hq]

/-- `s` is the player after the move. -/
theorem covers_onMove {s : PlayerState} (hs : s.viewDistance = (w.player this).viewDistance)
    (rotate : Bool) : Covers ptr this w
      ((w.setPlayer this s).onMove this (w.player this).position rotate)
      (f.onMoveLocks s.position rotate) := by
  have hplayer : (w.setPlayer this s).player this = s := by
    rw [World.setPlayer_player, Function.update_self]
  have hold : (coordCast (w.player this).position : ChunkCoord) = (w.player this).chunk := rfl
  have hnew : (coordCast s.position : ChunkCoord) = s.chunk := rfl
  unfold World.onMove Findings.onMoveLocks
  simp only
  rw [hf.state, hplayer, hold, hnew]
  by_cases hne : s.chunk ≠ (w.player this).chunk
  · have htracker : .use .tracker ∈ f.onChunkTransitionLocks (w.player this).chunk s.chunk :=
      List.mem_append_right _ (use_mem_accesses (by omega))
    rw [if_pos hne, if_pos hne]
    have hchunks := World.onChunkTransition_chunks (w.setPlayer this s) this (w.player this).chunk
      s.chunk (w.player this).position rotate
    rw [hplayer] at hchunks
    refine covers_stream hchunks (fun c hc => ?_) (fun _ => htracker)
      (World.onChunkTransition_players ..) fun _ _ _ => htracker
    rw [hs] at hc
    refine List.mem_append_left _ (@use_mem_sendChunks _ _ c ?_)
    rw [hf.state]
    exact hc
  · rw [if_neg hne, if_neg hne]
    refine covers_broadcast ?_ (.inl (use_mem_accesses (by split <;> omega)))
    split <;> rfl

theorem covers_onPlayerPosition (x y z : FloatValue) :
    Covers ptr this w (w.onPlayerPosition this x y z) (f.onMoveLocks ⟨x, y, z⟩ false) :=
  covers_onMove hf (s := { w.player this with position := ⟨x, y, z⟩ }) rfl false

theorem covers_onPlayerPositionRotation (x y z yaw pitch : FloatValue) :
    Covers ptr this w (w.onPlayerPositionRotation this x y z yaw pitch)
      (f.onMoveLocks ⟨x, y, z⟩ true) :=
  covers_onMove hf (s := { w.player this with position := ⟨x, y, z⟩, yaw, pitch }) rfl true

theorem covers_startDigging (location : BitVec 64) :
    Covers ptr this w (w.startDigging this location) (f.startDiggingLocks location) := by
  unfold World.startDigging Findings.startDiggingLocks
  rw [hf.dug]
  unfold World.dug
  cases hc : w.globalState.chunks (chunkOf location) with
  | none => exact covers_disconnect
  | some chunk =>
    simp only
    cases hd : chunk.dig (indexOf location) with
    | none => exact covers_alone rfl fun _ _ => rfl
    | some r =>
      obtain ⟨chunk', changed⟩ := r
      cases changed with
      | false => exact covers_setChunk hc (List.mem_append_right _ (use_mem_accesses Nat.one_pos))
      | true =>
        have htracker : .use .tracker ∈ accesses .chunkList 1 ++
            accesses (.chunk (ptr (chunkOf location))) 1 ++ accesses .tracker 1 :=
          List.mem_append_right _ (use_mem_accesses Nat.one_pos)
        have hset : Covers ptr this w (w.setChunk (chunkOf location) chunk')
            (accesses .chunkList 1 ++ accesses (.chunk (ptr (chunkOf location))) 1 ++
              accesses .tracker 1) :=
          covers_setChunk hc (List.mem_append_left _
            (List.mem_append_right _ (use_mem_accesses Nat.one_pos)))
        exact ⟨hset.tracker, hset.players, hset.chunkList, hset.chunk, fun _ _ _ => .inl htracker⟩

theorem covers_onPlayerDigging (status : BitVec 32) (location : BitVec 64) (face : BitVec 8) :
    Covers ptr this w (w.onPlayerDigging this status location face)
      (f.onPlayerDiggingLocks status location face) := by
  unfold World.onPlayerDigging Findings.onPlayerDiggingLocks
  split_ifs
  · exact covers_disconnectWith _
  · exact covers_disconnectWith _
  · exact covers_startDigging hf location
  · exact covers_refl

theorem covers_switchAction (entityId : BitVec 32) (invalid already : String) {done : Bool}
    (set : PlayerState → PlayerState) :
    Covers ptr this w (w.switchAction this entityId invalid already done set)
      (f.switchActionLocks entityId done) := by
  unfold World.switchAction Findings.switchActionLocks
  rw [hf.state]
  split_ifs
  · exact covers_disconnectWith _
  · exact covers_disconnectWith _
  · exact covers_broadcast rfl (.inl (use_mem_accesses Nat.one_pos))

theorem covers_onEntityAction (entityId actionId : BitVec 32) :
    Covers ptr this w (w.onEntityAction this entityId actionId)
      (f.onEntityActionLocks entityId actionId) := by
  unfold World.onEntityAction Findings.onEntityActionLocks
  simp only
  rw [← hf.state]
  split_ifs
  · exact covers_switchAction hf ..
  · exact covers_switchAction hf ..
  · exact covers_refl
  · exact covers_switchAction hf ..
  · exact covers_switchAction hf ..
  · exact covers_refl
  · exact covers_disconnectWith _

omit hf in
theorem covers_onChat (message : Bytes) :
    Covers ptr this w (w.onChat this message) (Findings.onChatLocks message) := by
  unfold World.onChat Findings.onChatLocks
  split
  · exact covers_disconnectWith _
  · exact covers_broadcast rfl (.inr (use_mem_accesses Nat.one_pos))

omit hf in
theorem covers_onAnimation (hand : BitVec 32) :
    Covers ptr this w (w.onAnimation this hand) (Findings.onAnimationLocks hand) := by
  unfold World.onAnimation Findings.onAnimationLocks
  split
  · exact covers_disconnectWith _
  · exact covers_broadcast rfl (.inl (use_mem_accesses Nat.one_pos))

omit hf in
theorem covers_onCloseWindow (windowId : BitVec 8) :
    Covers ptr this w (w.onCloseWindow this windowId) ops := by
  unfold World.onCloseWindow
  split_ifs
  · exact covers_disconnectWith _
  · exact covers_setPlayer _
  · exact covers_refl

omit hf in
theorem covers_onHeldItemChange (slot : BitVec 16) :
    Covers ptr this w (w.onHeldItemChange this slot) ops := by
  unfold World.onHeldItemChange
  split_ifs
  · exact covers_disconnectWith _
  · exact covers_setPlayer _

omit hf in
theorem covers_onUseItem (hand : BitVec 32) :
    Covers ptr this w (w.onUseItem this hand) ops := by
  unfold World.onUseItem
  split_ifs
  · exact covers_disconnectWith _
  · exact covers_refl

/-- **A frame changes what it takes the mutexes for.** -/
theorem covers_handle (frame : PacketFrame) :
    Covers ptr this w (w.handle this frame) (f.onPacketLocks (w.phase this) frame) := by
  have hswitch : ∀ {cases : List (Case World)} {cases' : List (Case (List LockOp))} {other : World},
      CasesRel (Covers ptr this w) cases cases' → Covers ptr this w other [] →
      Covers ptr this w (switchFrame cases frame (w.disconnect this) other)
        (switchFrame cases' frame [] []) := fun hcases hother =>
    switchFrame_rel hcases covers_disconnect hother
  unfold World.handle Findings.onPacketLocks
  cases w.phase this with
  | initial => exact hswitch (.cons (fun _ => covers_onHandshake _ _) .nil) covers_disconnect
  | login => exact hswitch (.cons (fun _ => covers_onLoginStart _) .nil) covers_disconnect
  | playInit =>
    exact hswitch (.cons (fun _ => covers_refl) <| .cons (fun _ => covers_onTeleportConfirm _) <|
      .cons (fun _ => covers_onPluginMessage _ _) <|
      .cons (fun _ => covers_onSettingsInPlayInit hf _) .nil) covers_refl
  | play =>
    refine hswitch (.cons (fun _ => covers_onChat _) <|
      .cons (fun _ => covers_onClientSettingsChange hf _) <|
      .cons (fun _ => covers_onCloseWindow _) <| .cons (fun _ => covers_refl) <|
      .cons (fun _ => covers_onPlayerPosition hf _ _ _) <|
      .cons (fun _ => covers_onPlayerPositionRotation hf _ _ _ _ _) <|
      .cons (fun _ => ?_) <| .cons (fun _ => covers_refl) <| .cons (fun _ => covers_refl) <|
      .cons (fun _ => covers_setPlayer _) <| .cons (fun _ => covers_onPlayerDigging hf _ _ _) <|
      .cons (fun _ => covers_onEntityAction hf _ _) <| .cons (fun _ => covers_onHeldItemChange _) <|
      .cons (fun _ => covers_onAnimation _) <| .cons (fun _ => covers_onUseItem _) .nil) covers_refl
    exact covers_broadcast rfl (.inl (use_mem_accesses (by omega)))
  | status => exact covers_disconnect

end Covers

/-- What a call for `this` finds if nothing comes in between. -/
def World.findings (w : World) (this : StateMachinePtr) (ptr : ChunkCoord → ChunkPtr)
    (added inView : ChunkCoord → Fetch) : Findings :=
  ⟨w.player this, w.globalState.serverSettings.maxViewDistance, added, inView, w.dug ptr⟩

/-- The callback in which a step happens. -/
def ServerStep.callback (w : World) (f : Findings) : ServerStep → Callback
  | .connect _ _ _ _ => .onClientConnected
  | .packet this frame _ => .onDataReceived [(f, w.phase this, frame)]
  | .error _ => .onDataReceived []
  | .tick _ _ => .tickStateMachines
  | .disconnect this => .onClientDisconnected (some (w.phase this))

theorem onTick_traffic_ne (w : World) (this : StateMachinePtr) (now : Int) {q : StateMachinePtr}
    (hq : q ≠ this) : (w.onTick this now).traffic q = w.traffic q := by
  unfold World.onTick
  split_ifs
  · exact disconnectWith_traffic_ne w _ hq
  · exact Function.update_of_ne hq _ _
  · rfl
  · rfl

theorem onTick_globalState (w : World) (this : StateMachinePtr) (now : Int) :
    (w.onTick this now).globalState = w.globalState := by
  unfold World.onTick
  split_ifs
  · exact w.disconnectWith_globalState this _
  · rfl
  · rfl
  · rfl

theorem covers_destroy (w : World) (this : StateMachinePtr) (ptr : ChunkCoord → ChunkPtr) :
    Covers ptr this w (w.destroy this) (destroyLocks (w.phase this)) := by
  unfold destroyLocks
  by_cases hplay : w.phase this = .play
  · have htracker : .use .tracker ∈ accesses .tracker 2 ++ accesses .players 2 :=
      List.mem_append_left _ (use_mem_accesses (by omega))
    rw [if_pos hplay]
    refine ⟨fun _ => htracker, fun _ => ?_, fun c hc hne => absurd ?_ hne,
      fun c chunk hc hne => absurd ?_ hne, fun _ _ _ => .inl htracker⟩
    · exact List.mem_append_right _ (use_mem_accesses (by omega))
    · rw [World.destroy_chunks, hc]
    · rw [World.destroy_chunks, hc]
  · rw [if_neg hplay]
    unfold World.destroy
    rw [if_neg hplay]
    exact covers_alone rfl fun _ _ => rfl

theorem Covers.mono {ptr : ChunkCoord → ChunkPtr} {this : StateMachinePtr} {w w' : World}
    {ops ops' : List LockOp} (h : Covers ptr this w w' ops) (hops : ∀ op ∈ ops, op ∈ ops') :
    Covers ptr this w w' ops' where
  tracker hne := hops _ (h.tracker hne)
  players hne := hops _ (h.players hne)
  chunkList c hc hne := hops _ (h.chunkList c hc hne)
  chunk c chunk hc hne := hops _ (h.chunk c chunk hc hne)
  others q hq hne := (h.others q hq hne).imp (hops _) (hops _)

/-- **What is shared changes under its mutex**, and others are sent something under the mutex of a
list that they are on, in every step from every state. -/
theorem covers_of_step (w : World) (step : ServerStep) (ptr : ChunkCoord → ChunkPtr)
    (added inView : ChunkCoord → Fetch) :
    Covers ptr step.subject w (server.next w step)
      (step.callback w (w.findings step.subject ptr added inView)).locks := by
  cases step with
  | connect this => exact covers_alone rfl fun _ _ => rfl
  | packet this frame now =>
    have hfinds : Finds (w.receive this frame now) this ptr (w.findings this ptr added inView) :=
      ⟨(receive_player w this frame now).symm ▸ rfl, rfl, rfl⟩
    have hhandle : Covers ptr this w ((w.receive this frame now).handle this frame)
        ((w.findings this ptr added inView).onPacketLocks (w.phase this) frame) := by
      have h := covers_handle hfinds frame
      rw [receive_phase] at h
      refine h.of_eq rfl fun q hq => ?_
      rw [receive_traffic, Function.update_of_ne hq]
    exact hhandle.mono fun op hop =>
      List.mem_flatMap.mpr ⟨_, List.mem_singleton_self _, hop⟩
  | error => exact covers_disconnect
  | tick this now =>
    exact covers_alone (onTick_globalState w this now) fun q hq => onTick_traffic_ne w this now hq
  | disconnect this =>
    refine (covers_destroy w this ptr).mono fun op hop => ?_
    exact List.mem_cons_of_mem _ (List.mem_append_left _ (List.mem_cons_of_mem _ hop))

end Vitamine
