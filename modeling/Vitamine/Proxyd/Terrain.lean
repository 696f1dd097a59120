import Vitamine.Proxyd.Digging
import Vitamine.Proxyd.Sends

/-!
# The terrain

What the world is, over whole runs: the generated terrain without the blocks that were taken away.
`terrain_of_run` says so of the chunks that are stored, and that no block is taken away, or told to
a client as taken away, more than once.
-/

namespace Vitamine

open Wire System

/-- Where a location lies. -/
def placeOf (location : BitVec 64) : ChunkCoord × BlockIndex := (chunkOf location, indexOf location)

/-- The blocks of a chunk of the generated terrain without those at the taken locations. -/
def terrain (taken : List (BitVec 64)) (c : ChunkCoord) : Blocks := fun i y z x =>
  if ∃ d ∈ taken, placeOf d = (c, ⟨i, y, z, x⟩) then BLOCKID_MINECRAFT_AIR
  else generateChunk.blocks i y z x

section Terrain

variable {taken : List (BitVec 64)} {location : BitVec 64} {c : ChunkCoord}

theorem terrain_snoc : terrain (taken ++ [location]) c =
    if chunkOf location = c then
      (terrain taken c).put (indexOf location) BLOCKID_MINECRAFT_AIR
    else terrain taken c := by
  funext i y z x
  by_cases hc : chunkOf location = c
  · rw [if_pos hc, Blocks.put_apply]
    by_cases hi : indexOf location = ⟨i, y, z, x⟩
    · simp [terrain, placeOf, hc, hi]
    · simp [terrain, placeOf, hi]
  · rw [if_neg hc]
    simp [terrain, placeOf, hc]

/-- Where the terrain has a block that is not air, nothing was taken away, and it was generated. -/
theorem solid_of_terrain {block : BitVec 16}
    (hat : (terrain taken (chunkOf location)).at? (indexOf location) = some block)
    (hblock : block ≠ BLOCKID_MINECRAFT_AIR) : placeOf location ∉ taken.map placeOf ∧
      generateChunk.blocks.at? (indexOf location) = some block := by
  unfold Blocks.at? at hat ⊢
  split at hat <;> rename_i hi
  · rw [dif_pos hi]
    unfold terrain at hat
    split at hat <;> rename_i htaken
    · exact absurd (Option.some.inj hat).symm hblock
    · refine ⟨fun hmem => htaken ?_, hat⟩
      obtain ⟨d, hd, hplace⟩ := List.mem_map.mp hmem
      exact ⟨d, hd, hplace⟩
  · cases hat

end Terrain

section Steps

variable {w w' : World} {this : StateMachinePtr} {frame : PacketFrame}

theorem chunkAt_of_eq (h : w'.globalState.chunks = w.globalState.chunks) (c : ChunkCoord) :
    w'.chunkAt c = w.chunkAt c := by
  rw [World.chunkAt, h, World.chunkAt]

/-- Chunks that are stored as they were or would be. -/
theorem chunkAt_of_ite {c : ChunkCoord} {P : Prop} [Decidable P]
    (h : w'.globalState.chunks c = if P then some (w.chunkAt c) else w.globalState.chunks c) :
    w'.chunkAt c = w.chunkAt c := by
  rw [World.chunkAt, h]
  split <;> rfl

theorem chunkAt_startDigging (location : BitVec 64) (c : ChunkCoord) :
    ((w.startDigging this location).chunkAt c).blocks =
      if w.Digs location ∧ chunkOf location = c then
        (w.chunkAt c).blocks.put (indexOf location) BLOCKID_MINECRAFT_AIR
      else (w.chunkAt c).blocks := by
  cases hc : w.globalState.chunks c with
  | some chunk =>
    obtain ⟨chunk', hc', hblocks⟩ := w.startDigging_blocks this location hc
    rw [World.chunkAt, hc', World.chunkAt, hc, Option.getD_some, Option.getD_some, hblocks]
    by_cases hcoord : chunkOf location = c
    · subst hcoord
      by_cases hd : w.Digs location
      · rw [if_pos rfl, if_pos ⟨hd, rfl⟩]
      · rw [if_pos rfl, if_neg fun h => hd h.1, w.put_of_not_digs location hd hc]
    · rw [if_neg hcoord, if_neg fun h => hcoord h.2]
  | none =>
    -- A chunk that is not stored is not dug, and is not stored by a dig.
    have hdigs : ¬ (w.Digs location ∧ chunkOf location = c) := by
      rintro ⟨⟨chunk, block, hstored, -⟩, rfl⟩
      rw [hc] at hstored
      cases hstored
    rw [if_neg hdigs]
    rcases w.startDigging_cases this location with
      ⟨-, h | ⟨_, h⟩⟩ | ⟨chunk, chunk', hstored, -, h⟩
    · rw [h]
      rfl
    · rw [h]
      rfl
    · have hne : c ≠ chunkOf location := by
        rintro rfl
        rw [hc] at hstored
        cases hstored
      have hchunks : (w.startDigging this location).globalState.chunks =
          Function.update w.globalState.chunks (chunkOf location) (some chunk') := by
        rcases h with ⟨-, h⟩ | ⟨-, h⟩ <;> rw [h] <;> rfl
      rw [World.chunkAt, hchunks, Function.update_of_ne hne]
      rfl

/-- A frame that is no dig leaves the terrain. -/
theorem Effect.chunkAt (h : Effect w this frame w') (c : ChunkCoord) :
    (w'.chunkAt c).blocks = match (if w.phase this = .play then digOf frame else none) with
      | some location => ((w.startDigging this location).chunkAt c).blocks
      | none => (w.chunkAt c).blocks := by
  cases h with
  | quiet _ hplay hquiet =>
    have hnone : (if w.phase this = .play then digOf frame else none) = none := by
      split_ifs with hphase
      · exact (hplay hphase).2
      · rfl
    rw [hnone, chunkAt_of_eq hquiet.chunks]
  | @phase phase hinit =>
    have hchunks : (w.setPhase this phase).globalState.chunks = w.globalState.chunks := rfl
    rw [chunkAt_of_eq hchunks]
    simp [hinit]
  | @login name hlogin =>
    rw [chunkAt_of_eq (w.onLoginStart_chunks this name)]
    simp [hlogin]
  | @confirm id hinit =>
    have hchunks : (w.onTeleportConfirm this id).globalState.chunks = w.globalState.chunks := by
      simp [World.onTeleportConfirm_eq]
    rw [chunkAt_of_eq hchunks]
    simp [hinit]
  | @settingsInit packet hinit =>
    rw [chunkAt_of_ite (w.onSettingsInPlayInit_chunks this packet c)]
    simp [hinit]
  | @settings packet hplay _ hother =>
    rw [chunkAt_of_ite (w.onClientSettingsChange_chunks this packet c)]
    simp [hplay, hother]
  | @transition s rotate hplay _ _ _ hframe =>
    rw [chunkAt_of_ite (World.onChunkTransition_chunks ..)]
    simp [hplay, hframe.2, World.chunkAt]
  | @dig location hplay hframe => simp [hplay, hframe]

/-- **A step takes away the block that it digs, and leaves the rest of the terrain.** -/
theorem chunkAt_next (w : World) (step : ServerStep) (c : ChunkCoord) :
    ((server.next w step).chunkAt c).blocks = match w.dugBy step with
      | some location => if chunkOf location = c then
          (w.chunkAt c).blocks.put (indexOf location) BLOCKID_MINECRAFT_AIR
        else (w.chunkAt c).blocks
      | none => (w.chunkAt c).blocks := by
  cases step with
  | connect => rfl
  | packet this frame now =>
    have h := (handle_effect (w.receive this frame now) this frame).chunkAt c
    rw [receive_phase] at h
    rw [next_packet, h, World.dugBy]
    by_cases hplay : w.phase this = .play
    · rw [if_pos hplay, if_pos hplay]
      cases hdig : digOf frame with
      | none => rfl
      | some location =>
        simp only [Option.bind_some]
        rw [chunkAt_startDigging]
        have hdigs : (w.receive this frame now).Digs location ↔ w.Digs location := Iff.rfl
        have hchunk : (w.receive this frame now).chunkAt c = w.chunkAt c := rfl
        rw [hchunk]
        by_cases hd : w.Digs location
        · simp [hdigs, hd]
        · simp [hdigs, hd]
    · rw [if_neg hplay, if_neg hplay]
      rfl
  | error => rfl
  | tick this now =>
    rcases onTick_cases w this now with ⟨-, hquiet⟩ | ⟨-, ht⟩
    · exact congrArg Chunk.blocks (chunkAt_of_eq hquiet.chunks c)
    · refine congrArg Chunk.blocks (chunkAt_of_eq ?_ c)
      rw [next_tick, ht, World.disconnectWith_globalState]
  | disconnect this => exact congrArg Chunk.blocks (chunkAt_of_eq (w.destroy_chunks this) c)

end Steps

/-! ## Runs -/

/-- The terrain is the generated one without the taken blocks, and the clients were told of these,
each at most once. -/
structure Shaped (w : World) (taken : List (BitVec 64)) : Prop where
  blocks : ∀ c, (w.chunkAt c).blocks = terrain taken c
  nodup : (taken.map placeOf).Nodup
  solid : ∀ d ∈ taken, generateChunk.blocks.at? (indexOf d) ≠ some BLOCKID_MINECRAFT_AIR ∧
    (indexOf d).sectionIndex < 16
  told : ∀ q, (w.told ClientboundPacket.changedBlock? q).Sublist
    (taken.map fun d => (d, BLOCKID_MINECRAFT_AIR.zeroExtend 32))

section Runs

variable {w : World} {taken : List (BitVec 64)} {step : ServerStep}
  {uuidGenerator : Bytes → Uuid} {machine : StateMachinePtr → StateMachine}
  {steps : List ServerStep}

theorem shaped_initial : Shaped (.initial uuidGenerator machine) [] where
  blocks c := by
    funext i y z x
    simp [terrain, World.chunkAt, World.initial]
  nodup := List.nodup_nil
  solid _ h := absurd h List.not_mem_nil
  told _ := List.nil_sublist _

/-- The location that a step takes away is that of a block of the world. -/
theorem digs_of_dugBy {location : BitVec 64} (h : w.dugBy step = some location) :
    w.Digs location := by
  cases step with
  | packet this frame now =>
    simp only [World.dugBy] at h
    split_ifs at h
    obtain ⟨d, -, hd⟩ := Option.bind_eq_some_iff.mp h
    split_ifs at hd with hdigs
    obtain rfl := Option.some.inj hd
    exact hdigs
  | _ => cases h

theorem Shaped.next (h : Shaped w taken) (step : ServerStep) :
    Shaped (server.next w step) (taken ++ (w.dugBy step).toList) := by
  cases hdug : w.dugBy step with
  | none =>
    have hnil : taken ++ (none : Option (BitVec 64)).toList = taken := List.append_nil _
    rw [hnil]
    refine ⟨fun c => ?_, h.nodup, h.solid, fun q => ?_⟩
    · rw [chunkAt_next, hdug]
      exact h.blocks c
    · rw [told_next_block, hdug]
      simpa using h.told q
  | some location =>
    obtain ⟨chunk, block, hstored, hat, hblock⟩ := digs_of_dugBy hdug
    have hchunk : w.chunkAt (chunkOf location) = chunk := by
      rw [World.chunkAt, hstored, Option.getD_some]
    rw [← hchunk, h.blocks] at hat
    obtain ⟨hfresh, hgenerated⟩ := solid_of_terrain hat hblock
    refine ⟨fun c => ?_, ?_, ?_, fun q => ?_⟩
    · rw [chunkAt_next, hdug, Option.toList_some, terrain_snoc, h.blocks]
    · rw [Option.toList_some, List.map_append, List.map_singleton]
      exact List.nodup_append'.mpr ⟨h.nodup, List.nodup_singleton _,
        List.disjoint_singleton.mpr hfresh⟩
    · refine List.forall_mem_append.mpr ⟨h.solid, List.forall_mem_singleton.mpr ⟨?_, ?_⟩⟩
      · rw [hgenerated]
        exact fun he => hblock (Option.some.inj he)
      · by_contra hi
        rw [Blocks.at?, dif_neg hi] at hgenerated
        cases hgenerated
    · rw [told_next_block, hdug, List.map_append]
      refine (h.told q).append ?_
      split_ifs
      · exact List.Sublist.refl _
      · exact List.nil_sublist _

theorem shaped_of_run : Shaped (server.after (.initial uuidGenerator machine) steps)
    (server.image (fun w step => (w.dugBy step).toList) (.initial uuidGenerator machine) steps) := by
  induction steps using List.reverseRecOn with
  | nil => exact shaped_initial
  | append_singleton steps step ih =>
    rw [after_snoc, image_snoc]
    exact ih.next step

/-- **The terrain.** Whatever happens, every chunk is the generated one without the blocks that were
taken away in it, all of which were generated and none of which is taken away twice; and what a
client is told of changed blocks is a part of them, in their order. -/
theorem terrain_of_run (uuidGenerator : Bytes → Uuid) (machine : StateMachinePtr → StateMachine)
    (steps : List ServerStep) :
    let w := server.after (.initial uuidGenerator machine) steps
    let taken := server.image (fun w step => (w.dugBy step).toList)
      (.initial uuidGenerator machine) steps
    (∀ c chunk, w.globalState.chunks c = some chunk → chunk.blocks = terrain taken c) ∧
      (taken.map placeOf).Nodup ∧
      (∀ d ∈ taken, generateChunk.blocks.at? (indexOf d) ≠ some BLOCKID_MINECRAFT_AIR ∧
        (indexOf d).sectionIndex < 16) ∧
      ∀ q, (w.told ClientboundPacket.changedBlock? q).Sublist
        (taken.map fun d => (d, BLOCKID_MINECRAFT_AIR.zeroExtend 32)) := by
  intro w taken
  have h : Shaped w taken := shaped_of_run
  refine ⟨fun c chunk hc => ?_, h.nodup, h.solid, h.told⟩
  rw [← h.blocks c, World.chunkAt, hc, Option.getD_some]

end Runs

end Vitamine
