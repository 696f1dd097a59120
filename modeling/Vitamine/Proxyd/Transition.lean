import Vitamine.Proxyd.Location
import Vitamine.Proxyd.Tracker

/-!
# Moving from one chunk to another (`StateMachine::onChunkTransition`)

What a transition leaves in the tracker, and what every client is sent, for any two chunks: the
squares around them may overlap in any way or not at all.

* `PlayerTracker.Holds`: a player's entries in the tracker are those of one chunk and distance.
* `onChunkTransition_exact`: the entries of the player are those of the new chunk, the others keep
  theirs, the player is sent each chunk of the difference once, and every other player what it needs
  to go on seeing, to begin to see or to cease to see the player.
* `loop_fits_int32`: no coordinate that the loops compute leaves the range of `Int32`.
-/

namespace Vitamine

/-- The value is subscribed to exactly the square around the chunk and a member of exactly the
chunk. -/
structure PlayerTracker.Holds (t : PlayerTracker StateMachinePtr) (value : StateMachinePtr)
    (coord : ChunkCoord) (viewDistance : Int) : Prop where
  subscriptions : ∀ c, value ∈ t.subscriptions c ↔ ChunkCoord.Within coord viewDistance c
  membership : ∀ c, value ∈ t.membership c ↔ c = coord

/-! ## One packet for each chunk -/

/-- The unload of the chunk. -/
def ClientboundPacket.unloads (c : ChunkCoord) : ClientboundPacket → Bool
  | .unloadChunk x z => x = c.x && z = c.z
  | _ => false

/-- The data of the chunk, whatever it is. -/
def ClientboundPacket.loads (c : ChunkCoord) : ClientboundPacket → Bool
  | .chunkData x z _ => x = c.x && z = c.z
  | _ => false

theorem ChunkCoord.mk_eq_iff {c d : ChunkCoord} : d.x = c.x ∧ d.z = c.z ↔ d = c := by
  obtain ⟨cx, cz⟩ := c
  obtain ⟨dx, dz⟩ := d
  exact (iff_of_eq (Vector2XZ.mk.injEq ..)).symm

@[simp] theorem unloads_unload (c d : ChunkCoord) :
    (ClientboundPacket.unload d).unloads c = decide (d = c) := by
  rw [ClientboundPacket.unload, ClientboundPacket.unloads, ← Bool.decide_and,
    decide_eq_decide, ChunkCoord.mk_eq_iff]

@[simp] theorem loads_load (c d : ChunkCoord) (chunk : Chunk) :
    (ClientboundPacket.load d chunk).loads c = decide (d = c) := by
  rw [ClientboundPacket.load, ClientboundPacket.loads, ← Bool.decide_and, decide_eq_decide,
    ChunkCoord.mk_eq_iff]

theorem nodup_chunksOutside (center other : ChunkCoord) (vd : Int) :
    (chunksOutside center other vd).Nodup := by
  have hoffsets : (ChunkCoord.offsets vd).Nodup :=
    Grid.nodup_box (fun x z x' z' h => by simpa using h) ..
  refine (hoffsets.map fun c d h => ?_).filter _
  have hx := congrArg Vector2XZ.x h
  have hz := congrArg Vector2XZ.z h
  simp only [chunk_add_x, chunk_add_z] at hx hz
  exact ChunkCoord.mk_eq_iff.mp (by omega)

/-- A chunk is once in the difference of two squares or not at all. -/
theorem countP_chunksOutside (center other c : ChunkCoord) (vd : Int) :
    (chunksOutside center other vd).countP (fun d => decide (d = c)) =
      if ChunkCoord.Within center vd c ∧ ¬ ChunkCoord.Within other vd c then 1 else 0 := by
  have hcount := (nodup_chunksOutside center other vd).count (a := c)
  simp only [World.mem_chunksOutside] at hcount
  rw [← hcount]
  rfl

variable (w : World)

theorem countP_unloads_streamPackets (unloads loads : List ChunkCoord) (c : ChunkCoord) :
    (w.streamPackets unloads loads).countP (·.unloads c) =
      unloads.countP fun d => decide (d = c) := by
  simp only [World.streamPackets, List.countP_append, List.countP_map, Function.comp_def,
    unloads_unload]
  simp [ClientboundPacket.load, ClientboundPacket.unloads]

theorem countP_loads_streamPackets (unloads loads : List ChunkCoord) (c : ChunkCoord) :
    (w.streamPackets unloads loads).countP (·.loads c) =
      loads.countP fun d => decide (d = c) := by
  simp only [World.streamPackets, List.countP_append, List.countP_map, Function.comp_def, loads_load]
  simp [ClientboundPacket.unload, ClientboundPacket.loads]

/-! ## Coordinates near a position -/

theorem FloatValue.toInt32_mem (value : FloatValue) :
    -2 ^ 31 ≤ value.toInt32 ∧ value.toInt32 < 2 ^ 31 := by
  have hmin : (-2 ^ 31 : Int) ≤ -2 ^ 31 ∧ (-2 ^ 31 : Int) < 2 ^ 31 := by decide
  cases value with
  | finite a =>
    rw [toInt32]
    split_ifs with h
    · exact h
    · exact hmin
  | infinite negative => exact hmin
  | nan => exact hmin

/-- The loops stay at most a view distance away from a chunk of a position, and so in `Int32`. -/
theorem loop_fits_int32 (position : EntityCoord) {i : Int} (hi : |i| ≤ 255) :
    let c : ChunkCoord := coordCast position
    (-2 ^ 31 ≤ c.x + i ∧ c.x + i < 2 ^ 31) ∧ -2 ^ 31 ≤ c.z + i ∧ c.z + i < 2 ^ 31 := by
  have hx := position.x.toInt32_mem
  have hz := position.z.toInt32_mem
  have hc : (coordCast position : ChunkCoord) =
      ⟨position.x.toInt32 / 16, position.z.toInt32 / 16⟩ := chunk_of_block _
  rw [abs_le] at hi
  rw [hc]
  simp only
  omega

/-! ## The transition -/

/-- What a transition does, for the player and for the others. -/
structure TransitionExact (w w' : World) (this : StateMachinePtr) (start target : ChunkCoord)
    (oldPosition : EntityCoord) (rotate : Bool) : Prop where
  holds : w'.tracker.Holds this target (w.player this).viewDistance
  subscriptions : ∀ q ≠ this, ∀ c, q ∈ w'.tracker.subscriptions c ↔ q ∈ w.tracker.subscriptions c
  membership : ∀ q ≠ this, ∀ c, q ∈ w'.tracker.membership c ↔ q ∈ w.tracker.membership c
  /-- The player is sent one unload for each chunk of the old square outside the new one, one chunk
  for each of the new one outside the old one, and where it is. -/
  self : ∃ packets : List ClientboundPacket, w'.traffic this = w.traffic this ++
      (packets ++ [ClientboundPacket.updateViewPosition target.x target.z]).map .sent ∧
    (∀ c, packets.countP (·.unloads c) =
      if ChunkCoord.Within start (w.player this).viewDistance c ∧
        ¬ ChunkCoord.Within target (w.player this).viewDistance c then 1 else 0) ∧
    (∀ c, packets.countP (·.loads c) =
      if ChunkCoord.Within target (w.player this).viewDistance c ∧
        ¬ ChunkCoord.Within start (w.player this).viewDistance c then 1 else 0) ∧
    ∀ k ∈ packets, ∃ c, k.unloads c = true ∨ k.loads c = true
  both : ∀ q ≠ this, q ∈ w.tracker.subscriptions start → q ∈ w.tracker.subscriptions target →
    w'.traffic q = w.traffic q ++
      (createMovePacket (w.player this) oldPosition rotate ::
        if rotate then [createHeadLookPacket (w.player this)] else []).map .sent
  left : ∀ q ≠ this, q ∈ w.tracker.subscriptions start → q ∉ w.tracker.subscriptions target →
    w'.traffic q = w.traffic q ++ [.sent (createDespawnPacket (w.player this))]
  joined : ∀ q ≠ this, q ∉ w.tracker.subscriptions start → q ∈ w.tracker.subscriptions target →
    w'.traffic q = w.traffic q ++ [.sent (createSpawnPacket (w.player this))]
  neither : ∀ q ≠ this, q ∉ w.tracker.subscriptions start → q ∉ w.tracker.subscriptions target →
    w'.traffic q = w.traffic q

section

variable {w} {this : StateMachinePtr} {start target : ChunkCoord} {oldPosition : EntityCoord}
  {rotate : Bool}

theorem holds_onChunkTransition (h : w.tracker.Holds this start (w.player this).viewDistance) :
    (w.onChunkTransition this start target oldPosition rotate).tracker.Holds this target
      (w.player this).viewDistance where
  subscriptions := square_transition h.subscriptions fun c => by
    simp [World.onChunkTransition_tracker]
  membership c := by
    simp [World.onChunkTransition_tracker, h.membership]

theorem keeps_onChunkTransition {q : StateMachinePtr} (hq : q ≠ this) (c : ChunkCoord) :
    (q ∈ (w.onChunkTransition this start target oldPosition rotate).tracker.subscriptions c ↔
      q ∈ w.tracker.subscriptions c) ∧
    (q ∈ (w.onChunkTransition this start target oldPosition rotate).tracker.membership c ↔
      q ∈ w.tracker.membership c) := by
  simp [World.onChunkTransition_tracker, hq]

/-- **A transition between any two chunks is exact.** -/
theorem onChunkTransition_exact (w : World) (this : StateMachinePtr) (start target : ChunkCoord)
    (oldPosition : EntityCoord) (rotate : Bool)
    (h : w.tracker.Holds this start (w.player this).viewDistance) :
    TransitionExact w (w.onChunkTransition this start target oldPosition rotate) this start target
      oldPosition rotate where
  holds := holds_onChunkTransition h
  subscriptions q hq c := (keeps_onChunkTransition hq c).1
  membership q hq c := (keeps_onChunkTransition hq c).2
  self := by
    refine ⟨_, World.onChunkTransition_traffic_self .., fun c => ?_, fun c => ?_, ?_⟩
    · rw [countP_unloads_streamPackets, countP_chunksOutside]
    · rw [countP_loads_streamPackets, countP_chunksOutside]
    · exact w.forall_streamPackets (fun c => ⟨c, .inl (by simp)⟩) fun c chunk =>
        ⟨c, .inr (by simp)⟩
  both q hq hstart htarget := by
    rw [w.onChunkTransition_traffic_ne this start target oldPosition rotate hq, World.movePackets,
      if_pos hstart, if_pos htarget]
  left q hq hstart htarget := by
    rw [w.onChunkTransition_traffic_ne this start target oldPosition rotate hq, World.movePackets,
      if_pos hstart, if_neg htarget]
    rfl
  joined q hq hstart htarget := by
    rw [w.onChunkTransition_traffic_ne this start target oldPosition rotate hq, World.movePackets,
      if_neg hstart, if_pos htarget]
    rfl
  neither q hq hstart htarget := by
    rw [w.onChunkTransition_traffic_ne this start target oldPosition rotate hq, World.movePackets,
      if_neg hstart, if_neg htarget]
    simp

/-- The only player of a server, around the origin with a view distance of 2. -/
def aroundOrigin : World :=
  (emptyServer.setPlayer 0
    { emptyServer.player 0 with clientSettings := { defaultClientSettings with viewDistance := 2 } }
    ).setTracker (PlayerTracker.empty.enter ⟨0, 0⟩ 2 0)

theorem holds_enter (coord : ChunkCoord) (viewDistance : Int) (value : StateMachinePtr) :
    (PlayerTracker.empty.enter coord viewDistance value).Holds value coord viewDistance where
  subscriptions c := by simp [PlayerTracker.empty]
  membership c := by simp [PlayerTracker.empty]

/-- It comes to a chunk whose square overlaps. -/
theorem onChunkTransition_exact_overlap :
    TransitionExact aroundOrigin
      (aroundOrigin.onChunkTransition 0 ⟨0, 0⟩ ⟨1, 3⟩ ⟨.finite 0, .finite 64, .finite 0⟩ true) 0
      ⟨0, 0⟩ ⟨1, 3⟩ ⟨.finite 0, .finite 64, .finite 0⟩ true :=
  onChunkTransition_exact aroundOrigin 0 ⟨0, 0⟩ ⟨1, 3⟩ _ true (holds_enter ⟨0, 0⟩ 2 0)

end

end Vitamine
