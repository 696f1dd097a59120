import Vitamine.Lib.Log
import Vitamine.Lib.System
import Vitamine.Proxyd.StateMachine

/-!
# Chunks under concurrent connections (`GlobalState::chunks`)

The handlers of different connections run at the same time. What is done to the chunks is done in
critical sections, of `chunkMutex` or of the mutex of a chunk, and a pointer to a chunk is kept from
one section to the next.

* `ChunkStore`: the map, the chunk objects, where each connection is in its call, and what happened.
* `ChunkStore.advance`: the next critical section of a call.
* `OneChunk`: one chunk object for each coordinate, and no edit lost.
* `oneChunk_iff`: that holds in the runs in which `getOrCreateChunk` stores nothing where something
  is stored, and in no others.
-/

namespace Vitamine

/-- The identity of a chunk object. -/
abbrev ChunkPtr := Nat

/-- Where a connection is in its call: between two critical sections. -/
inductive ChunkCall where
  | idle
  /-- `getOrCreateChunk`, which `sendChunk` may have called. -/
  | lookup (coord : ChunkCoord) (send : Bool)
  /-- It found nothing and generated a chunk. -/
  | insert (coord : ChunkCoord) (send : Bool) (chunk : ChunkPtr)
  /-- `sendChunk` has its chunk. -/
  | serialize (coord : ChunkCoord) (chunk : ChunkPtr)
  /-- A dig has started. -/
  | find (location : BitVec 64)
  /-- It found its chunk. -/
  | edit (location : BitVec 64) (chunk : ChunkPtr)
  deriving DecidableEq

inductive ChunkEvent where
  /-- The chunk was stored under the coordinate. -/
  | stored (coord : ChunkCoord) (chunk : ChunkPtr)
  /-- `getOrCreateChunk` returned the chunk. -/
  | returned (this : StateMachinePtr) (coord : ChunkCoord) (chunk : ChunkPtr)
  /-- `sendChunk` sent the `ChunkData` of these contents. -/
  | chunkData (this : StateMachinePtr) (coord : ChunkCoord) (chunk : Chunk)
  /-- A dig set the block to air. -/
  | dug (this : StateMachinePtr) (coord : ChunkCoord) (index : BlockIndex)
  /-- A chunk was used that had been destroyed. -/
  | usedAfterFree (this : StateMachinePtr) (chunk : ChunkPtr)

structure ChunkStore where
  chunks : ChunkCoord → Option ChunkPtr
  /-- The chunk objects that there are. -/
  heap : ChunkPtr → Option Chunk
  /-- The identity of the next chunk object. -/
  nextChunk : ChunkPtr
  calls : StateMachinePtr → ChunkCall
  log : List ChunkEvent

inductive ChunkStep where
  | getOrCreateChunk (this : StateMachinePtr) (coord : ChunkCoord)
  | sendChunk (this : StateMachinePtr) (coord : ChunkCoord)
  | dig (this : StateMachinePtr) (location : BitVec 64)
  /-- The next critical section of the call of the connection. -/
  | advance (this : StateMachinePtr)

namespace ChunkStore

/-- No chunks, and all connections idle. -/
def empty : ChunkStore := ⟨fun _ => none, fun _ => none, 0, fun _ => .idle, []⟩

variable (s : ChunkStore) (this : StateMachinePtr)

def setCall (call : ChunkCall) : ChunkStore :=
  { s with calls := Function.update s.calls this call }

def note (event : ChunkEvent) : ChunkStore := { s with log := s.log ++ [event] }

/-- The end of `getOrCreateChunk`. -/
def returnChunk (coord : ChunkCoord) (send : Bool) (chunk : ChunkPtr) : ChunkStore :=
  (s.note (.returned this coord chunk)).setCall this
    (if send then .serialize coord chunk else .idle)

/-- The first critical section of `getOrCreateChunk`, and `generateChunk` if it found nothing. -/
def lookup (coord : ChunkCoord) (send : Bool) : ChunkStore :=
  match s.chunks coord with
  | some chunk => s.returnChunk this coord send chunk
  | none =>
    { s with
      heap := Function.update s.heap s.nextChunk (some generateChunk)
      nextChunk := s.nextChunk + 1 }.setCall this (.insert coord send s.nextChunk)

/-- The assignment to a `std::unique_ptr` destroys what it pointed to. -/
def destroy (chunk : Option ChunkPtr) : ChunkStore :=
  match chunk with
  | some chunk => { s with heap := Function.update s.heap chunk none }
  | none => s

/-- `_globalState->chunks[coord] = std::move(chunk)`. -/
def store (coord : ChunkCoord) (chunk : ChunkPtr) : ChunkStore :=
  { s.destroy (s.chunks coord) with
    chunks := Function.update s.chunks coord (some chunk) }.note (.stored coord chunk)

/-- The second critical section of `getOrCreateChunk`. -/
def insert (coord : ChunkCoord) (send : Bool) (chunk : ChunkPtr) : ChunkStore :=
  (s.store coord chunk).returnChunk this coord send chunk

/-- The critical section of `sendChunk`. -/
def serialize (coord : ChunkCoord) (chunk : ChunkPtr) : ChunkStore :=
  match s.heap chunk with
  | some contents => (s.note (.chunkData this coord contents)).setCall this .idle
  | none => (s.note (.usedAfterFree this chunk)).setCall this .idle

/-- The first critical section of a dig. A client is disconnected when the chunk is not there. -/
def find (location : BitVec 64) : ChunkStore :=
  match s.chunks (chunkOf location) with
  | some chunk => s.setCall this (.edit location chunk)
  | none => s.setCall this .idle

/-- The second critical section of a dig. -/
def edit (location : BitVec 64) (chunk : ChunkPtr) : ChunkStore :=
  match s.heap chunk with
  | none => (s.note (.usedAfterFree this chunk)).setCall this .idle
  | some contents =>
    match contents.dig (indexOf location) with
    -- The index is in none of the sections: nothing is said of what such an access does.
    | none => s.setCall this .idle
    | some (contents, changed) =>
      let s := { s with heap := Function.update s.heap chunk (some contents) }
      let s := if changed then s.note (.dug this (chunkOf location) (indexOf location)) else s
      s.setCall this .idle

/-- The next critical section of a call. -/
def advance : ChunkStore :=
  match s.calls this with
  | .idle => s
  | .lookup coord send => s.lookup this coord send
  | .insert coord send chunk => s.insert this coord send chunk
  | .serialize coord chunk => s.serialize this coord chunk
  | .find location => s.find this location
  | .edit location chunk => s.edit this location chunk

def next : ChunkStep → ChunkStore
  | .getOrCreateChunk this coord => s.setCall this (.lookup coord false)
  | .sendChunk this coord => s.setCall this (.lookup coord true)
  | .dig this location => s.setCall this (.find location)
  | .advance this => s.advance this

/-- A connection handles one packet at a time. -/
def Enabled : ChunkStep → Prop
  | .getOrCreateChunk this _ => s.calls this = .idle
  | .sendChunk this _ => s.calls this = .idle
  | .dig this _ => s.calls this = .idle
  | .advance this => s.calls this ≠ .idle

instance decidableEnabled : (l : ChunkStep) → Decidable (s.Enabled l)
  | .getOrCreateChunk this _ => inferInstanceAs (Decidable (s.calls this = .idle))
  | .sendChunk this _ => inferInstanceAs (Decidable (s.calls this = .idle))
  | .dig this _ => inferInstanceAs (Decidable (s.calls this = .idle))
  | .advance this => inferInstanceAs (Decidable (s.calls this ≠ .idle))

end ChunkStore

/-- Any number of connections, their critical sections in any order. -/
def chunkSystem : System ChunkStore ChunkStep where
  enabled := ChunkStore.Enabled
  next := ChunkStore.next

instance (s : ChunkStore) (l : ChunkStep) : Decidable (chunkSystem.enabled s l) :=
  inferInstanceAs (Decidable (s.Enabled l))

/-! ## One chunk object for each coordinate -/

/-- A `ChunkData` has air where a dig before it put air. -/
def SerializesAir (pre : List ChunkEvent) : ChunkEvent → Prop
  | .chunkData _ coord chunk => ∀ this index, .dug this coord index ∈ pre →
      chunk.blocks.at? index = some BLOCKID_MINECRAFT_AIR
  | _ => True

/-- **One chunk object for each coordinate**: what was stored is still stored and alive, it is what
`getOrCreateChunk` returned, and what was dug stays air in what is sent. -/
structure OneChunk (s : ChunkStore) : Prop where
  kept : ∀ coord chunk, .stored coord chunk ∈ s.log →
    s.chunks coord = some chunk ∧ (s.heap chunk).isSome = true
  same : ∀ this coord chunk, .returned this coord chunk ∈ s.log → s.chunks coord = some chunk
  air : Log.Always SerializesAir s.log

/-- The second critical section of `getOrCreateChunk` finds the coordinate as the first one did. -/
def InsertsFresh (s : ChunkStore) : ChunkStep → Prop
  | .advance this =>
    match s.calls this with
    | .insert coord _ _ => s.chunks coord = none
    | _ => True
  | _ => True

/-! ## The invariant -/

namespace ChunkStore

/-- What the log says still holds. -/
def Justifies (s : ChunkStore) : ChunkEvent → Prop
  | .stored coord chunk => s.chunks coord = some chunk
  | .returned _ coord chunk => s.chunks coord = some chunk
  | .dug _ coord index => ∃ chunk contents, s.chunks coord = some chunk ∧
      s.heap chunk = some contents ∧ contents.blocks.at? index = some BLOCKID_MINECRAFT_AIR
  | _ => True

/-- The pointer that a call holds is good. -/
def Holds (s : ChunkStore) : ChunkCall → Prop
  | .insert _ _ chunk => (s.heap chunk).isSome = true
  | .serialize coord chunk => s.chunks coord = some chunk
  | .edit location chunk => s.chunks (chunkOf location) = some chunk
  | _ => True

/-- The invariant: what is stored is alive, and all that was said or is held is about it. -/
structure Consistent (s : ChunkStore) : Prop where
  alive : ∀ {coord chunk}, s.chunks coord = some chunk → (s.heap chunk).isSome = true
  logged : ∀ {coord chunk}, s.chunks coord = some chunk → .stored coord chunk ∈ s.log
  justified : ∀ event ∈ s.log, s.Justifies event
  holds : ∀ this, s.Holds (s.calls this)
  fresh : ∀ {chunk}, s.nextChunk ≤ chunk → s.heap chunk = none
  air : Log.Always SerializesAir s.log

/-- Nothing goes: neither what is stored nor an object, nor air. -/
structure Grows (s s' : ChunkStore) : Prop where
  chunks : ∀ {coord chunk}, s.chunks coord = some chunk → s'.chunks coord = some chunk
  heap : ∀ {chunk contents}, s.heap chunk = some contents → ∃ contents',
    s'.heap chunk = some contents' ∧ ∀ index,
      contents.blocks.at? index = some BLOCKID_MINECRAFT_AIR →
        contents'.blocks.at? index = some BLOCKID_MINECRAFT_AIR

variable {s s' : ChunkStore} {this : StateMachinePtr}

theorem Grows.isSome (h : Grows s s') {chunk : ChunkPtr} (hs : (s.heap chunk).isSome = true) :
    (s'.heap chunk).isSome = true := by
  obtain ⟨contents, hc⟩ := Option.isSome_iff_exists.mp hs
  obtain ⟨contents', hc', -⟩ := h.heap hc
  rw [hc']
  rfl

theorem Grows.justifies (h : Grows s s') {event : ChunkEvent} (hj : s.Justifies event) :
    s'.Justifies event := by
  cases event with
  | stored coord chunk => exact h.chunks hj
  | returned _ coord chunk => exact h.chunks hj
  | dug _ coord index =>
    obtain ⟨chunk, contents, hc, hh, hair⟩ := hj
    obtain ⟨contents', hh', hkeep⟩ := h.heap hh
    exact ⟨chunk, contents', h.chunks hc, hh', hkeep index hair⟩
  | chunkData => trivial
  | usedAfterFree => trivial

theorem Grows.holds (h : Grows s s') {call : ChunkCall} (hh : s.Holds call) : s'.Holds call := by
  cases call with
  | insert coord send chunk => exact h.isSome hh
  | serialize coord chunk => exact h.chunks hh
  | edit location chunk => exact h.chunks hh
  | idle => trivial
  | lookup => trivial
  | find => trivial

theorem consistent_empty : empty.Consistent where
  alive h := absurd h (Option.some_ne_none _).symm
  logged h := absurd h (Option.some_ne_none _).symm
  justified _ h := absurd h List.not_mem_nil
  holds _ := trivial
  fresh _ := rfl
  air := Log.always_nil

/-- A call moves on, with a good pointer. -/
theorem consistent_setCall (h : s.Consistent) {call : ChunkCall} (hcall : s.Holds call) :
    (s.setCall this call).Consistent := by
  have hgrows : Grows s (s.setCall this call) := ⟨id, fun hh => ⟨_, hh, fun _ => id⟩⟩
  refine ⟨h.alive, h.logged, fun e he => hgrows.justifies (h.justified e he), fun t => ?_, h.fresh,
    h.air⟩
  apply hgrows.holds
  by_cases ht : t = this
  · subst ht
    simpa [setCall] using hcall
  · simpa [setCall, ht] using h.holds t

/-- Something that holds is noted. -/
theorem consistent_note (h : s.Consistent) {event : ChunkEvent} (hevent : s.Justifies event)
    (hair : SerializesAir s.log event) : (s.note event).Consistent := by
  have hgrows : Grows s (s.note event) := ⟨id, fun hh => ⟨_, hh, fun _ => id⟩⟩
  refine ⟨h.alive, fun hc => List.mem_append_left _ (h.logged hc), fun e he => ?_,
    fun t => hgrows.holds (h.holds t), h.fresh, Log.always_snoc.mpr ⟨h.air, hair⟩⟩
  rcases List.mem_append.mp he with hold | hnew
  · exact hgrows.justifies (h.justified e hold)
  · obtain rfl := List.mem_singleton.mp hnew
    exact hgrows.justifies hevent

/-- The objects change and nothing else does. -/
theorem consistent_heap (h : s.Consistent) {heap : ChunkPtr → Option Chunk} {nextChunk : ChunkPtr}
    (hgrows : Grows s { s with heap, nextChunk })
    (hfresh : ∀ {chunk}, nextChunk ≤ chunk → heap chunk = none) :
    { s with heap, nextChunk }.Consistent where
  alive hc := hgrows.isSome (h.alive hc)
  logged := h.logged
  justified event he := hgrows.justifies (h.justified event he)
  holds t := hgrows.holds (h.holds t)
  fresh := hfresh
  air := h.air

theorem consistent_returnChunk (h : s.Consistent) {coord : ChunkCoord} {send : Bool}
    {chunk : ChunkPtr} (hchunk : s.chunks coord = some chunk) :
    (s.returnChunk this coord send chunk).Consistent := by
  have hnote : (s.note (.returned this coord chunk)).Consistent := consistent_note h hchunk trivial
  refine consistent_setCall hnote ?_
  cases send
  · trivial
  · exact hchunk

theorem consistent_lookup (h : s.Consistent) (coord : ChunkCoord) (send : Bool) :
    (s.lookup this coord send).Consistent := by
  unfold lookup
  split <;> rename_i hchunk
  · exact consistent_returnChunk h hchunk
  · have hnone : s.heap s.nextChunk = none := h.fresh le_rfl
    have hgrows : Grows s { s with
        heap := Function.update s.heap s.nextChunk (some generateChunk)
        nextChunk := s.nextChunk + 1 } := by
      refine ⟨id, fun {chunk contents} hh => ⟨contents, ?_, fun _ => id⟩⟩
      have hne : chunk ≠ s.nextChunk := by
        rintro rfl
        rw [hnone] at hh
        cases hh
      exact (Function.update_of_ne hne _ _).trans hh
    have hfresh : ∀ {chunk}, s.nextChunk + 1 ≤ chunk →
        Function.update s.heap s.nextChunk (some generateChunk) chunk = none := by
      intro chunk hle
      have hne : chunk ≠ s.nextChunk := fun he => by
        rw [he] at hle
        exact absurd hle (Nat.not_succ_le_self _)
      rw [Function.update_of_ne hne]
      exact h.fresh (Nat.le_of_succ_le hle)
    apply consistent_setCall (consistent_heap h hgrows hfresh)
    show (Function.update s.heap s.nextChunk (some generateChunk) s.nextChunk).isSome = true
    rw [Function.update_self]
    rfl

theorem store_of_none {coord : ChunkCoord} (hnone : s.chunks coord = none) (chunk : ChunkPtr) :
    s.store coord chunk = { s with
      chunks := Function.update s.chunks coord (some chunk)
      log := s.log ++ [.stored coord chunk] } := by
  unfold store
  rw [hnone]
  rfl

theorem grows_store {coord : ChunkCoord} (hnone : s.chunks coord = none) (chunk : ChunkPtr) :
    Grows s (s.store coord chunk) := by
  rw [store_of_none hnone]
  refine ⟨fun {c p} hc => ?_, fun hh => ⟨_, hh, fun _ => id⟩⟩
  have hne : c ≠ coord := by
    rintro rfl
    rw [hnone] at hc
    cases hc
  exact (Function.update_of_ne hne _ _).trans hc

/-- A chunk that is stored afterwards is the new one or was stored before. -/
theorem chunks_store {coord c : ChunkCoord} {chunk p : ChunkPtr} (hnone : s.chunks coord = none)
    (hc : (s.store coord chunk).chunks c = some p) :
    c = coord ∧ p = chunk ∨ s.chunks c = some p := by
  rw [store_of_none hnone] at hc
  simp only at hc
  by_cases he : c = coord
  · subst he
    rw [Function.update_self] at hc
    exact .inl ⟨rfl, (Option.some.inj hc).symm⟩
  · rw [Function.update_of_ne he] at hc
    exact .inr hc

/-- A chunk is stored where there was none. -/
theorem consistent_store (h : s.Consistent) {coord : ChunkCoord} {chunk : ChunkPtr}
    (hnone : s.chunks coord = none) (hchunk : (s.heap chunk).isSome = true) :
    (s.store coord chunk).Consistent := by
  have hgrows := grows_store hnone chunk
  constructor
  case alive =>
    intro c p hc
    rcases chunks_store hnone hc with ⟨rfl, rfl⟩ | hold
    · exact hgrows.isSome hchunk
    · exact hgrows.isSome (h.alive hold)
  case logged =>
    intro c p hc
    rcases chunks_store hnone hc with ⟨rfl, rfl⟩ | hold <;> rw [store_of_none hnone]
    · exact List.mem_append_right _ (List.mem_singleton_self _)
    · exact List.mem_append_left _ (h.logged hold)
  case justified =>
    intro event he
    rw [store_of_none hnone] at he
    rcases List.mem_append.mp he with hold | hnew
    · exact hgrows.justifies (h.justified event hold)
    · obtain rfl := List.mem_singleton.mp hnew
      rw [store_of_none hnone]
      exact Function.update_self ..
  case holds =>
    intro t
    rw [show (s.store coord chunk).calls = s.calls by rw [store_of_none hnone]]
    exact hgrows.holds (h.holds t)
  case fresh =>
    rw [store_of_none hnone]
    exact h.fresh
  case air =>
    rw [store_of_none hnone]
    exact Log.always_snoc.mpr ⟨h.air, trivial⟩

/-- What a dig does to the blocks keeps the air, and puts air. -/
theorem air_of_dig {contents contents' : Chunk} {index : BlockIndex} {changed : Bool}
    (h : contents.dig index = some (contents', changed)) :
    contents'.blocks.at? index = some BLOCKID_MINECRAFT_AIR ∧
      ∀ i, contents.blocks.at? i = some BLOCKID_MINECRAFT_AIR →
        contents'.blocks.at? i = some BLOCKID_MINECRAFT_AIR := by
  have hindex : index.sectionIndex < 16 := by
    by_contra hge
    rw [Chunk.dig_eq_none_iff.mpr hge] at h
    cases h
  rw [(Chunk.dig_some h).1, Blocks.put, dif_pos hindex]
  constructor
  · rw [Blocks.at?, dif_pos hindex]
    simp [Blocks.set]
  · intro i hi
    unfold Blocks.at? at hi ⊢
    split at hi
    · rename_i hlt
      rw [dif_pos hlt, Blocks.set]
      split
      · rfl
      · exact hi
    · cases hi

theorem consistent_edit (h : s.Consistent) {location : BitVec 64} {chunk : ChunkPtr}
    (hchunk : s.chunks (chunkOf location) = some chunk) :
    (s.edit this location chunk).Consistent := by
  obtain ⟨contents, hcontents⟩ := Option.isSome_iff_exists.mp (h.alive hchunk)
  unfold edit
  rw [hcontents]
  simp only
  split <;> rename_i hdig
  · exact consistent_setCall h trivial
  · rename_i contents' changed
    obtain ⟨hair, hkeep⟩ := air_of_dig hdig
    have hself : Function.update s.heap chunk (some contents') chunk = some contents' :=
      Function.update_self ..
    have hgrows : Grows s { s with heap := Function.update s.heap chunk (some contents') } := by
      refine ⟨id, fun {p contents₁} hh => ?_⟩
      by_cases hp : p = chunk
      · subst hp
        rw [hcontents] at hh
        obtain rfl := Option.some.inj hh
        exact ⟨contents', hself, hkeep⟩
      · exact ⟨contents₁, (Function.update_of_ne hp _ _).trans hh, fun _ => id⟩
    have hfresh : ∀ {p}, s.nextChunk ≤ p →
        Function.update s.heap chunk (some contents') p = none := by
      intro p hp
      have hne : p ≠ chunk := by
        rintro rfl
        rw [h.fresh hp] at hcontents
        cases hcontents
      rw [Function.update_of_ne hne]
      exact h.fresh hp
    have hconsistent := consistent_heap h hgrows hfresh
    cases changed
    · exact consistent_setCall hconsistent trivial
    · have hdug : ChunkStore.Justifies { s with heap := Function.update s.heap chunk (some contents') }
          (.dug this (chunkOf location) (indexOf location)) :=
        ⟨chunk, contents', hchunk, hself, hair⟩
      exact consistent_setCall (consistent_note hconsistent hdug trivial) trivial

theorem consistent_serialize (h : s.Consistent) {coord : ChunkCoord} {chunk : ChunkPtr}
    (hchunk : s.chunks coord = some chunk) : (s.serialize this coord chunk).Consistent := by
  obtain ⟨contents, hcontents⟩ := Option.isSome_iff_exists.mp (h.alive hchunk)
  unfold serialize
  rw [hcontents]
  -- What was dug at the coordinate was dug in this chunk, and is air in it.
  have hair : SerializesAir s.log (.chunkData this coord contents) := by
    intro t index hdug
    obtain ⟨chunk', contents', hc, hh, hair⟩ := h.justified _ hdug
    obtain rfl := Option.some.inj (hchunk.symm.trans hc)
    obtain rfl := Option.some.inj (hcontents.symm.trans hh)
    exact hair
  have hdata : s.Justifies (.chunkData this coord contents) := trivial
  exact consistent_setCall (consistent_note h hdata hair) trivial

theorem consistent_find (h : s.Consistent) (location : BitVec 64) :
    (s.find this location).Consistent := by
  unfold find
  split <;> rename_i hchunk
  · exact consistent_setCall h hchunk
  · exact consistent_setCall h trivial

/-- What a step preserves that stores nothing where something is stored. -/
theorem consistent_next (h : s.Consistent) {l : ChunkStep} (hok : InsertsFresh s l) :
    (s.next l).Consistent := by
  cases l with
  | getOrCreateChunk t coord => exact consistent_setCall h trivial
  | sendChunk t coord => exact consistent_setCall h trivial
  | dig t location => exact consistent_setCall h trivial
  | advance t =>
    have hholds := h.holds t
    simp only [next, advance]
    simp only [InsertsFresh] at hok
    split <;> rename_i hcall <;> rw [hcall] at hholds hok
    · exact h
    · exact consistent_lookup h _ _
    · refine consistent_returnChunk (consistent_store h hok hholds) ?_
      exact Function.update_self ..
    · exact consistent_serialize h hholds
    · exact consistent_find h _
    · exact consistent_edit h hholds

theorem Consistent.oneChunk (h : s.Consistent) : OneChunk s where
  kept _ _ he := ⟨h.justified _ he, h.alive (h.justified _ he)⟩
  same _ _ _ he := h.justified _ he
  air := h.air

/-- A chunk that is stored over another one destroys it. -/
theorem insertsFresh_of_oneChunk (h : s.Consistent) {l : ChunkStep} (hnext : OneChunk (s.next l)) :
    InsertsFresh s l := by
  cases l with
  | getOrCreateChunk t coord => trivial
  | sendChunk t coord => trivial
  | dig t location => trivial
  | advance t =>
    simp only [InsertsFresh]
    split <;> rename_i hcall
    · rename_i coord send chunk
      by_contra hstored
      obtain ⟨old, hold⟩ := Option.ne_none_iff_exists'.mp hstored
      have hheap : (s.next (.advance t)).heap old = none := by
        simp only [next, advance, hcall]
        simp [insert, store, destroy, hold, returnChunk, note, setCall]
      have hlog : .stored coord old ∈ (s.next (.advance t)).log := by
        simp only [next, advance, hcall]
        simp [insert, store, destroy, hold, returnChunk, note, setCall, h.logged hold]
      obtain ⟨-, halive⟩ := hnext.kept _ _ hlog
      rw [hheap] at halive
      cases halive
    · trivial

end ChunkStore

/-- **One chunk object for each coordinate** in the runs in which no call of `getOrCreateChunk`
stores a chunk where another one has stored one since it looked, and in no others. -/
theorem oneChunk_iff (ls : List ChunkStep) (hrun : chunkSystem.Run ChunkStore.empty ls) :
    chunkSystem.Along ChunkStore.empty ls OneChunk ↔
      chunkSystem.Steps ChunkStore.empty ls InsertsFresh :=
  System.along_iff_steps ChunkStore.consistent_empty (fun _ => ChunkStore.Consistent.oneChunk)
    (fun _ _ h _ hok => ChunkStore.consistent_next h hok)
    (fun _ _ h _ => ChunkStore.insertsFresh_of_oneChunk h) hrun

/-- Two clients are sent the chunk they stand in, one after the other, and the first one digs. -/
def digThenLook : List ChunkStep :=
  [.sendChunk 0 ⟨0, 0⟩, .advance 0, .advance 0, .advance 0,
    .dig 0 (toPosition ⟨3, 15, 5⟩), .advance 0, .advance 0,
    .sendChunk 1 ⟨0, 0⟩, .advance 1, .advance 1]

theorem oneChunk_iff_digThenLook :
    chunkSystem.Along ChunkStore.empty digThenLook OneChunk ↔
      chunkSystem.Steps ChunkStore.empty digThenLook InsertsFresh :=
  oneChunk_iff digThenLook (by decide +kernel)

/-- Both find nothing before either of them stores a chunk; the first one digs before the second
one stores its own. -/
def digBetween : List ChunkStep :=
  [.sendChunk 0 ⟨0, 0⟩, .advance 0, .sendChunk 1 ⟨0, 0⟩, .advance 1, .advance 0, .advance 0,
    .dig 0 (toPosition ⟨3, 15, 5⟩), .advance 0, .advance 0, .advance 1, .advance 1]

/-- The second chunk replaces the first one, and what was dug is there again. -/
theorem chunk_replaced : chunkSystem.Run ChunkStore.empty digBetween ∧
    ¬ chunkSystem.Along ChunkStore.empty digBetween OneChunk ∧
    ¬ Log.Always SerializesAir (chunkSystem.after ChunkStore.empty digBetween).log := by
  refine ⟨by decide +kernel, fun h => ?_, fun h => ?_⟩
  · have hstored : (chunkSystem.after ChunkStore.empty digBetween).log[0]? =
        some (.stored ⟨0, 0⟩ 0) := rfl
    have hchunks : (chunkSystem.after ChunkStore.empty digBetween).chunks ⟨0, 0⟩ = some 1 := by
      decide +kernel
    have hkept := (h.last.kept _ _ (List.mem_of_getElem? hstored)).1
    rw [hchunks] at hkept
    exact absurd hkept (by decide)
  · have hdug : (chunkSystem.after ChunkStore.empty digBetween).log[3]? =
        some (.dug 0 ⟨0, 0⟩ ⟨0, 15, 5, 3⟩) := rfl
    have hsent : (chunkSystem.after ChunkStore.empty digBetween).log[6]? =
        some (.chunkData 1 ⟨0, 0⟩ generateChunk) := rfl
    have hair := h.of_getElem? hsent 0 ⟨0, 15, 5, 3⟩ (Log.mem_take_of_getElem? (by decide) hdug)
    exact absurd hair (by decide +kernel)

end Vitamine
