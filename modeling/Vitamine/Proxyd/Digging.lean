import Mathlib.Data.Finset.Lattice.Fold
import Mathlib.Data.Fintype.Prod
import Mathlib.Order.Lattice.Nat
import Vitamine.Proxyd.ChunkData
import Vitamine.Proxyd.Location
import Vitamine.Proxyd.Steps

/-!
# Digging (`PacketPlayerDigging` in `StateMachine::onPacket`)

Where a dig reaches in a chunk, and what it leaves of what is derived from the blocks.

* `World.onPacket_digging`: the handler that a decoded `PlayerDigging` meets in `PLAY`.
* `digging_inBounds_iff`: the accesses stay inside the sections for heights below 256 only.
* `digAll_spec`: the blocks of a chunk after any digs.
* `derivedTrue_iff`: the heightmap and the block counts that are sent are those of an untouched
  chunk.
-/

namespace Vitamine

open Wire Grid

/-! ## Where a dig reaches -/

/-- The indices of the accesses, as the handler computes them. -/
structure AccessIndices where
  sectionIndex : Int
  y : Int
  z : Int
  x : Int

/-- `sections[blockCoord.y / 16]` and `blocks[blockCoord.y % 16][blockCoord.z][blockCoord.x]`. -/
def accessOf (location : BitVec 64) : AccessIndices :=
  let blockCoord : ChunkBlockCoord := coordCast (fromPosition location)
  ⟨blockCoord.y.tdiv 16, blockCoord.y.tmod 16, blockCoord.z, blockCoord.x⟩

/-- All four indices are in 0..15. -/
def AccessIndices.InBounds (a : AccessIndices) : Prop :=
  (0 ≤ a.sectionIndex ∧ a.sectionIndex ≤ 15) ∧ (0 ≤ a.y ∧ a.y ≤ 15) ∧ (0 ≤ a.z ∧ a.z ≤ 15) ∧
    0 ≤ a.x ∧ a.x ≤ 15

/-- The packet gets past the checks: of the status, the face, and that the chunk is there. -/
def World.GetsPast (w : World) (status : BitVec 32) (location : BitVec 64) (face : BitVec 8) :
    Prop :=
  ¬ 6 < status.toInt ∧ ¬ 5 < face.toInt ∧ status = 0 ∧
    (w.globalState.chunks (chunkOf location)).isSome = true

theorem inBounds_accessOf_iff (location : BitVec 64) :
    (accessOf location).InBounds ↔ location.toNat % 4096 < 256 := by
  have hy := fromPosition_y location
  have hcast : (coordCast (fromPosition location) : ChunkBlockCoord) =
      ⟨(fromPosition location).x % 16, (fromPosition location).y, (fromPosition location).z % 16⟩ :=
    rfl
  have hpos : (0 : Int) ≤ (location.toNat % 4096 : Nat) := Int.natCast_nonneg _
  simp only [AccessIndices.InBounds, accessOf, hcast, hy, Int.tdiv_eq_ediv_of_nonneg hpos,
    Int.tmod_eq_emod_of_nonneg hpos]
  omega

theorem sectionIndex_indexOf (location : BitVec 64) :
    (indexOf location).sectionIndex = location.toNat % 4096 / 16 := by
  have hy := fromPosition_y location
  show ((fromPosition location).y / 16).toNat = _
  rw [hy]
  omega

namespace World

variable (w : World) (this : StateMachinePtr)

@[simp] theorem disconnectWith_outOfBounds (message : Bytes) :
    (w.disconnectWith this message).outOfBounds = w.outOfBounds := by
  unfold disconnectWith
  split <;> rfl

/-- What is noted of a dig that starts. -/
theorem startDigging_outOfBounds (location : BitVec 64) :
    (w.startDigging this location).outOfBounds = w.outOfBounds ↔
      ((w.globalState.chunks (chunkOf location)).isSome = true →
        (indexOf location).sectionIndex < 16) := by
  unfold startDigging
  cases hc : w.globalState.chunks (chunkOf location) with
  | none => simp [disconnect]
  | some chunk =>
    simp only [Option.isSome_some, forall_const]
    cases hd : chunk.dig (indexOf location) with
    | none => simpa using Chunk.dig_eq_none_iff.mp hd
    | some r =>
      have hi : (indexOf location).sectionIndex < 16 := by
        by_contra hi
        rw [Chunk.dig_eq_none_iff.mpr hi] at hd
        cases hd
      obtain ⟨chunk', changed⟩ := r
      cases changed <;> exact iff_of_true rfl hi

/-- The handler of a decoded `PlayerDigging`. -/
theorem onPacket_digging {frame : PacketFrame} {now : Int} {status : BitVec 32}
    {location : BitVec 64} {face : BitVec 8} (hplay : w.phase this = .play)
    (hframe : payloadOf packetPlayerDigging frame = some (status, location, face, ())) :
    w.onPacket this frame now =
      (w.receive this frame now).onPlayerDigging this status location face := by
  have hc : ((w.receive this frame now).playCases this)[10]? = some ⟨packetPlayerDigging,
      fun packet => (w.receive this frame now).onPlayerDigging this packet.1 packet.2.1
        packet.2.2.1⟩ := rfl
  exact onPacket_of_playCase w this frame now hplay hc hframe

end World

/-- **Digging stays inside the chunk** exactly for heights below 256: a packet that gets past the
checks has twelve bits of height. -/
theorem digging_inBounds_iff (w : World) (this : StateMachinePtr) (frame : PacketFrame) (now : Int)
    (status : BitVec 32) (location : BitVec 64) (face : BitVec 8) (hplay : w.phase this = .play)
    (hframe : payloadOf packetPlayerDigging frame = some (status, location, face, ())) :
    ((w.GetsPast status location face → (accessOf location).InBounds) ∧
        (w.onPacket this frame now).outOfBounds = w.outOfBounds) ↔
      (w.GetsPast status location face → location.toNat % 4096 < 256) := by
  have hlog : (w.onPacket this frame now).outOfBounds = w.outOfBounds ↔
      (w.GetsPast status location face → location.toNat % 4096 < 256) := by
    have hsame : (w.receive this frame now).outOfBounds = w.outOfBounds := rfl
    rw [w.onPacket_digging this hplay hframe, World.onPlayerDigging]
    split_ifs with hstatus hface hzero
    · exact iff_of_true (World.disconnectWith_outOfBounds ..) fun h => absurd hstatus h.1
    · exact iff_of_true (World.disconnectWith_outOfBounds ..) fun h => absurd hface h.2.1
    · have hpast : w.GetsPast status location face ↔
          (w.globalState.chunks (chunkOf location)).isSome = true :=
        ⟨fun h => h.2.2.2, fun h => ⟨hstatus, hface, hzero, h⟩⟩
      rw [← hsame, World.startDigging_outOfBounds, sectionIndex_indexOf, hpast, receive_globalState,
        Nat.div_lt_iff_lt_mul (by decide)]
    · exact iff_of_true rfl fun h => absurd h.2.2.1 hzero
  rw [inBounds_accessOf_iff, hlog]
  exact and_self_iff

/-- A `PlayerDigging` at the height 256 in the middle of the world. -/
def digAboveFrame : PacketFrame := ⟨0x1a, [0, 0, 0, 0, 0, 0, 0, 1, 0, 1]⟩

theorem digging_inBounds_iff_above :
    ((server.after emptyServer (joinSteps 0 2)).GetsPast 0#32 256#64 1#8 →
          (accessOf 256#64).InBounds) ∧
        ((server.after emptyServer (joinSteps 0 2)).onPacket 0 digAboveFrame 0).outOfBounds =
          (server.after emptyServer (joinSteps 0 2)).outOfBounds ↔
      ((server.after emptyServer (joinSteps 0 2)).GetsPast 0#32 256#64 1#8 →
        (256#64).toNat % 4096 < 256) :=
  digging_inBounds_iff (server.after emptyServer (joinSteps 0 2)) 0 digAboveFrame 0 0#32 256#64 1#8
    (by decide +kernel) rfl

/-- The client gets there after it joined: it reaches the section 16 of the chunk it stands in. -/
theorem digAbove_outOfBounds :
    payloadOf packetPlayerDigging digAboveFrame = some (0#32, 256#64, 1#8, ()) ∧
      (server.after emptyServer (joinSteps 0 2)).phase 0 = .play ∧
      (server.after emptyServer (joinSteps 0 2)).GetsPast 0#32 256#64 1#8 ∧
      ¬ (accessOf 256#64).InBounds := by
  refine ⟨rfl, by decide +kernel, ⟨by decide, by decide, rfl, by decide +kernel⟩, ?_⟩
  rw [inBounds_accessOf_iff]
  decide

/-! ## Chunks after digs -/

namespace Chunk

/-- The chunk after the edit of a dig. -/
def digAt (chunk : Chunk) (location : BitVec 64) : Chunk :=
  match chunk.dig (indexOf location) with
  | some (chunk', _) => chunk'
  | none => chunk

/-- The chunk after a sequence of digs. -/
def digAll (chunk : Chunk) (digs : List (BitVec 64)) : Chunk := digs.foldl digAt chunk

/-- The edit of the handler. -/
theorem startDigging_digAt (w : World) (this : StateMachinePtr) {location : BitVec 64} {chunk : Chunk}
    (h : w.globalState.chunks (chunkOf location) = some chunk) :
    (w.startDigging this location).globalState.chunks (chunkOf location) =
      some (chunk.digAt location) := by
  rw [World.startDigging, h, digAt]
  simp only
  cases hd : chunk.dig (indexOf location) with
  | none => exact h
  | some r =>
    obtain ⟨chunk', changed⟩ := r
    cases changed <;> simp [World.broadcastLocallyUnsafe]

/-- A dig below the top of the world: the block is air, its section is there, and all else is as
it was. -/
structure DugAt (chunk chunk' : Chunk) (index : BlockIndex) : Prop where
  blocks : chunk'.blocks = chunk.blocks.put index BLOCKID_MINECRAFT_AIR
  sections : ∀ i, (chunk'.sections i).isSome = true ↔
    (chunk.sections i).isSome = true ∨ index.sectionIndex = i
  heightmap : chunk'.heightmap = chunk.heightmap

/-- The section that is written to is there afterwards. -/
theorem isSome_update {chunk : Chunk} {i j : Fin 16} {s : ChunkSection} :
    (Function.update chunk.sections i (some s) j).isSome = true ↔
      (chunk.sections j).isSome = true ∨ i = j := by
  by_cases h : j = i
  · subst h
    simp
  · rw [Function.update_of_ne h]
    exact ⟨.inl, fun hj => hj.resolve_right (Ne.symm h)⟩

theorem dugAt_digAt (chunk : Chunk) {location : BitVec 64}
    (h : (indexOf location).sectionIndex < 16) :
    DugAt chunk (chunk.digAt location) (indexOf location) := by
  have hmake : ∀ j, ((chunk.makeSection ⟨_, h⟩).sections j).isSome = true ↔
      (chunk.sections j).isSome = true ∨ (indexOf location).sectionIndex = j := by
    intro j
    rw [makeSection, isSome_update, Fin.ext_iff]
  unfold digAt
  cases hd : chunk.dig (indexOf location) with
  | none => exact absurd h (dig_eq_none_iff.mp hd)
  | some r =>
    obtain ⟨chunk', changed⟩ := r
    refine ⟨(dig_some hd).1, ?_, ?_⟩ <;> rw [dig, dif_pos h] at hd <;> simp only at hd <;>
      split at hd <;> obtain ⟨rfl, -⟩ := Prod.mk.inj (Option.some.inj hd)
    · exact hmake
    · intro j
      simp only [setBlock]
      rw [isSome_update, hmake, Fin.ext_iff, or_assoc, or_self]
    · rfl
    · rfl

end Chunk

theorem Blocks.put_apply (blocks : Blocks) (index : BlockIndex) (block : BitVec 16)
    (i y z x : Fin 16) : blocks.put index block i y z x =
      if index = ⟨i, y, z, x⟩ then block else blocks i y z x := by
  obtain ⟨j, y', z', x'⟩ := index
  unfold Blocks.put
  by_cases hj : j < 16
  · rw [dif_pos hj, Blocks.set]
    congr 1
    simp only [BlockIndex.mk.injEq, Fin.ext_iff, eq_iff_iff]
    omega
  · rw [dif_neg hj, if_neg]
    rintro h
    obtain ⟨rfl, -⟩ := BlockIndex.mk.inj h
    exact hj i.isLt

namespace Chunk

section DigAll

variable {digs : List (BitVec 64)}

/-- What the digs leave of a chunk. -/
theorem digAll_spec (chunk : Chunk) (h : ∀ d ∈ digs, (indexOf d).sectionIndex < 16) :
    (∀ i y z x, (chunk.digAll digs).blocks i y z x =
      if ∃ d ∈ digs, indexOf d = ⟨i, y, z, x⟩ then BLOCKID_MINECRAFT_AIR
      else chunk.blocks i y z x) ∧
    (∀ i, ((chunk.digAll digs).sections i).isSome = true ↔
      (chunk.sections i).isSome = true ∨ ∃ d ∈ digs, (indexOf d).sectionIndex = i) ∧
    (chunk.digAll digs).heightmap = chunk.heightmap := by
  induction digs generalizing chunk with
  | nil => simp [digAll]
  | cons d digs ih =>
    obtain ⟨hd, hdigs⟩ := List.forall_mem_cons.mp h
    have hdug := chunk.dugAt_digAt hd
    obtain ⟨hblocks, hsections, hheights⟩ := ih (chunk.digAt d) hdigs
    have hcons : chunk.digAll (d :: digs) = (chunk.digAt d).digAll digs := rfl
    rw [hcons]
    refine ⟨fun i y z x => ?_, fun i => ?_, hheights.trans hdug.heightmap⟩
    · rw [hblocks, hdug.blocks, Blocks.put_apply]
      simp only [List.exists_mem_cons_iff]
      split_ifs <;> grind
    · rw [hsections, hdug.sections, List.exists_mem_cons_iff, or_assoc]

end DigAll

/-! ## What is derived from the blocks -/

/-- The block at a height of the world. -/
def blockAt (chunk : Chunk) (y : Fin 256) (z x : Fin 16) : BitVec 16 :=
  chunk.blocks ⟨y / 16, by omega⟩ ⟨y % 16, by omega⟩ z x

/-- One plus the largest height of a block that is not air, 0 if there is none. -/
def columnHeight (chunk : Chunk) (z x : Fin 16) : Nat :=
  (Finset.univ.filter fun y => chunk.blockAt y z x ≠ BLOCKID_MINECRAFT_AIR).sup fun y => y.val + 1

end Chunk

/-- The number of blocks that are not air. -/
def ChunkSection.nonAir (s : ChunkSection) : Nat :=
  (Finset.univ.filter fun p : Fin 16 × Fin 16 × Fin 16 =>
    s.blocks p.1 p.2.1 p.2.2 ≠ BLOCKID_MINECRAFT_AIR).card

/-- The height that is sent for a column is that of its blocks. -/
def HeightTrue (coord : ChunkCoord) (chunk : Chunk) (z x : Fin 16) : Prop :=
  ∃ longs, ChunkDataPacket.longArray (chunkDataPacket coord chunk)
    (spanFromCString "MOTION_BLOCKING") = some longs ∧
      readBits longs 9 (9 * (16 * z + x)) = chunk.columnHeight z x

/-- The block count that is sent for a section is that of its blocks. -/
def CountTrue (coord : ChunkCoord) (chunk : Chunk) (i : Fin 16) : Prop :=
  ∀ parsed, DataLaidOut (ChunkDataPacket.sectionNumbers (chunkDataPacket coord chunk)).length
      (ChunkDataPacket.data (chunkDataPacket coord chunk)) parsed →
    ∀ record s, (i, record) ∈ (ChunkDataPacket.sectionNumbers (chunkDataPacket coord chunk)).zip
      parsed.1 → chunk.sections i = some s → record.blockCount.toNat = s.nonAir

/-- What `ChunkData` carries beside the blocks is what the blocks say. -/
structure DerivedTrue (coord : ChunkCoord) (chunk : Chunk) : Prop where
  heights : ∀ z x, HeightTrue coord chunk z x
  counts : ∀ i, CountTrue coord chunk i

/-- The block count that is sent is that of a full section, whatever the section is. -/
theorem countTrue_iff (coord : ChunkCoord) (chunk : Chunk) (i : Fin 16) :
    CountTrue coord chunk i ↔ ∀ s, chunk.sections i = some s → s.nonAir = 4096 := by
  have hforall := forall₂_parsed coord chunk
  obtain ⟨hlen, hzip⟩ := List.forall₂_iff_zip.mp hforall
  have hlaid : DataLaidOut (ChunkDataPacket.sectionNumbers (chunkDataPacket coord chunk)).length
      (ChunkDataPacket.data (chunkDataPacket coord chunk)) chunk.parsed := by
    rw [hlen, Chunk.parsed, List.length_map]
    exact Chunk.laidOut_serialize
  constructor
  · intro h s hs
    have hmem : i ∈ ChunkDataPacket.sectionNumbers (chunkDataPacket coord chunk) := by
      rw [sectionNumbers_chunkDataPacket]
      simp [hs]
    obtain ⟨k, hk, hi⟩ := List.mem_iff_getElem.mp hmem
    have hpair : (i, chunk.parsed.1[k]) ∈
        (ChunkDataPacket.sectionNumbers (chunkDataPacket coord chunk)).zip chunk.parsed.1 := by
      rw [List.mem_iff_getElem]
      exact ⟨k, by rw [List.length_zip]; omega, by rw [List.getElem_zip, hi]⟩
    have hcount := h _ hlaid _ s hpair hs
    obtain ⟨s', -, hrecord⟩ := hzip hpair
    rw [← hcount, hrecord]
    rfl
  · intro h parsed hparsed record s hpair hs
    obtain rfl := hlaid.unique hparsed
    obtain ⟨s', -, rfl⟩ := hzip hpair
    rw [h s hs]
    rfl

/-- The height that is sent is that of the heightmap. -/
theorem heightTrue_iff {coord : ChunkCoord} {chunk : Chunk} (z x : Fin 16)
    (h : ∀ z x, (chunk.heightmap z x).toNat < 2 ^ 9) :
    HeightTrue coord chunk z x ↔ (chunk.heightmap z x).toNat = chunk.columnHeight z x := by
  obtain ⟨-, hread⟩ := Chunk.length_heightmapLongs h
  have hlongs : ChunkDataPacket.longArray (chunkDataPacket coord chunk)
      (spanFromCString "MOTION_BLOCKING") = some chunk.heightmapLongs := rfl
  rw [HeightTrue, hlongs]
  simp only [Option.some.injEq, exists_eq_left', hread]

/-! ## Generated chunks -/

theorem blocks_generateChunk (i y z x : Fin 16) :
    generateChunk.blocks i y z x = BLOCKID_MINECRAFT_AIR ↔ i ≠ 0 := by
  by_cases hi : i = 0
  · subst hi
    simp only [Chunk.blocks, Chunk.sectionAt, generateChunk, if_true, Option.getD_some, ne_eq,
      not_true_eq_false, iff_false]
    split_ifs <;> decide
  · simp only [Chunk.blocks, Chunk.sectionAt, generateChunk, ne_eq, hi,
      not_false_eq_true, iff_true]
    rfl

section Generated

variable {digs : List (BitVec 64)} (h : ∀ d ∈ digs, (indexOf d).sectionIndex < 16)

include h

/-- A block of a generated chunk after digs is air where there was nothing or something was dug. -/
theorem blocks_digAll_generateChunk (i y z x : Fin 16) :
    (generateChunk.digAll digs).blocks i y z x = BLOCKID_MINECRAFT_AIR ↔
      i ≠ 0 ∨ ∃ d ∈ digs, indexOf d = ⟨i, y, z, x⟩ := by
  rw [(generateChunk.digAll_spec h).1]
  split <;> rename_i hd
  · exact iff_of_true rfl (.inr hd)
  · rw [blocks_generateChunk, or_iff_left hd]

/-- The height of a column is the one it was generated with until its highest block is dug. -/
theorem columnHeight_digAll_iff (z x : Fin 16) :
    16 = (generateChunk.digAll digs).columnHeight z x ↔ ∀ d ∈ digs, indexOf d ≠ ⟨0, 15, z, x⟩ := by
  have hair := blocks_digAll_generateChunk h
  -- What is not air is in the lowest section.
  have hlow : ∀ y : Fin 256, (generateChunk.digAll digs).blockAt y z x ≠ BLOCKID_MINECRAFT_AIR →
      y.val < 16 := by
    intro y hy
    by_contra hge
    refine hy ((hair _ _ z x).mpr (.inl fun hzero => ?_))
    have := congrArg Fin.val hzero
    simp only [Fin.val_zero] at this
    omega
  unfold Chunk.columnHeight
  constructor
  · intro hsup d hd htop
    have hle : ∀ y ∈ Finset.univ.filter fun y =>
        (generateChunk.digAll digs).blockAt y z x ≠ BLOCKID_MINECRAFT_AIR, y.val + 1 ≤ 15 := by
      intro y hy
      have hy' := (Finset.mem_filter.mp hy).2
      have := hlow y hy'
      by_contra hgt
      refine hy' ((hair _ _ z x).mpr (.inr ⟨d, hd, ?_⟩))
      rw [htop]
      simp only [BlockIndex.mk.injEq, Fin.ext_iff, and_true]
      exact ⟨by show 0 = y.val / 16; omega, by show 15 = y.val % 16; omega⟩
    have := Finset.sup_le hle
    omega
  · intro htop
    apply le_antisymm
    · have hmem : (⟨15, by decide⟩ : Fin 256) ∈ Finset.univ.filter fun y =>
          (generateChunk.digAll digs).blockAt y z x ≠ BLOCKID_MINECRAFT_AIR := by
        refine Finset.mem_filter.mpr ⟨Finset.mem_univ _, fun hair15 => ?_⟩
        rcases (hair 0 15 z x).mp hair15 with h0 | ⟨d, hd, he⟩
        · exact h0 rfl
        · exact htop d hd he
      exact Finset.le_sup (f := fun y : Fin 256 => y.val + 1) hmem
    · exact Finset.sup_le fun y hy => hlow y (Finset.mem_filter.mp hy).2

/-- A section is full while nothing was dug in it. -/
theorem nonAir_digAll_iff (i : Fin 16) :
    (∀ s, (generateChunk.digAll digs).sections i = some s → s.nonAir = 4096) ↔
      ∀ d ∈ digs, (indexOf d).sectionIndex ≠ i := by
  have hair := blocks_digAll_generateChunk h
  obtain ⟨-, hsections, -⟩ := generateChunk.digAll_spec h
  have hcard : Fintype.card (Fin 16 × Fin 16 × Fin 16) = 4096 := by simp
  have hblocks : ∀ s, (generateChunk.digAll digs).sections i = some s →
      (generateChunk.digAll digs).blocks i = s.blocks := fun s hs => by
    rw [Chunk.blocks, Chunk.sectionAt, hs]
    rfl
  constructor
  · intro hfull d hd hi
    obtain ⟨s, hs⟩ := Option.isSome_iff_exists.mp ((hsections i).mpr (.inr ⟨d, hd, hi⟩))
    have hdug : s.blocks (indexOf d).y (indexOf d).z (indexOf d).x = BLOCKID_MINECRAFT_AIR := by
      rw [← hblocks s hs, hair]
      exact .inr ⟨d, hd, by rw [← hi]⟩
    have hlt : s.nonAir < Fintype.card (Fin 16 × Fin 16 × Fin 16) :=
      Finset.card_lt_univ_of_notMem (x := ((indexOf d).y, (indexOf d).z, (indexOf d).x))
        fun hmem => (Finset.mem_filter.mp hmem).2 hdug
    rw [hfull s hs, hcard] at hlt
    exact absurd hlt (lt_irrefl _)
  · intro hnone s hs
    have hzero : i = 0 := by
      rcases (hsections i).mp (by rw [hs]; rfl) with hgen | ⟨d, hd, hi⟩
      · by_contra hne
        simp [generateChunk, hne] at hgen
      · exact absurd hi (hnone d hd)
    subst hzero
    have hall : ∀ p : Fin 16 × Fin 16 × Fin 16,
        s.blocks p.1 p.2.1 p.2.2 ≠ BLOCKID_MINECRAFT_AIR := by
      intro p hp
      rw [← hblocks s hs, hair] at hp
      rcases hp with h0 | ⟨d, hd, he⟩
      · exact h0 rfl
      · exact hnone d hd (by rw [he])
    rw [ChunkSection.nonAir, Finset.filter_true_of_mem fun p _ => hall p, Finset.card_univ, hcard]

end Generated

theorem sectionIndex_lt_of_y_le {location : BitVec 64} (h : (fromPosition location).y ≤ 255) :
    (indexOf location).sectionIndex < 16 := by
  rw [fromPosition_y] at h
  rw [sectionIndex_indexOf]
  omega

/-- **Derived data stay true** in the chunks in which nothing was dug, and in no other: the height
of a column until its highest block is dug, the block count of a section until anything in it is. -/
theorem derivedTrue_iff (coord : ChunkCoord) (digs : List (BitVec 64))
    (hdigs : ∀ d ∈ digs, (fromPosition d).y ≤ 255) :
    (DerivedTrue coord (generateChunk.digAll digs) ↔ digs = []) ∧
      (∀ z x, HeightTrue coord (generateChunk.digAll digs) z x ↔
        ∀ d ∈ digs, indexOf d ≠ ⟨0, 15, z, x⟩) ∧
      ∀ i, CountTrue coord (generateChunk.digAll digs) i ↔
        ∀ d ∈ digs, (indexOf d).sectionIndex ≠ i := by
  have h : ∀ d ∈ digs, (indexOf d).sectionIndex < 16 :=
    fun d hd => sectionIndex_lt_of_y_le (hdigs d hd)
  obtain ⟨-, -, hheightmap⟩ := generateChunk.digAll_spec h
  have hheights : ∀ z x, HeightTrue coord (generateChunk.digAll digs) z x ↔
      ∀ d ∈ digs, indexOf d ≠ ⟨0, 15, z, x⟩ := by
    intro z x
    have hsmall : ∀ z x, ((generateChunk.digAll digs).heightmap z x).toNat < 2 ^ 9 := fun z x => by
      rw [hheightmap]
      exact (by decide : (16#16).toNat < 2 ^ 9)
    rw [heightTrue_iff z x hsmall, hheightmap, ← columnHeight_digAll_iff h]
    rfl
  have hcounts : ∀ i, CountTrue coord (generateChunk.digAll digs) i ↔
      ∀ d ∈ digs, (indexOf d).sectionIndex ≠ i :=
    fun i => (countTrue_iff coord _ i).trans (nonAir_digAll_iff h i)
  refine ⟨⟨fun htrue => ?_, fun hnil => ?_⟩, hheights, hcounts⟩
  · by_contra hne
    obtain ⟨d, hd⟩ := List.exists_mem_of_ne_nil digs hne
    exact (hcounts ⟨(indexOf d).sectionIndex, h d hd⟩).mp (htrue.counts _) d hd rfl
  · subst hnil
    exact ⟨fun z x => (hheights z x).mpr (by simp), fun i => (hcounts i).mpr (by simp)⟩

theorem fromPosition_grass : fromPosition (toPosition ⟨3, 15, 5⟩) = ⟨3, 15, 5⟩ := by
  decide +kernel

theorem derivedTrue_iff_grass :
    DerivedTrue ⟨0, 0⟩ (generateChunk.digAll [toPosition ⟨3, 15, 5⟩]) ↔
      [toPosition ⟨3, 15, 5⟩] = [] := by
  refine (derivedTrue_iff ⟨0, 0⟩ [toPosition ⟨3, 15, 5⟩] ?_).1
  rw [List.forall_mem_singleton, fromPosition_grass]
  decide

/-- One block of grass is dug: the height of its column is still sent as 16. -/
theorem stale_after_dig : ¬ DerivedTrue ⟨0, 0⟩ (generateChunk.digAll [toPosition ⟨3, 15, 5⟩]) := by
  intro h
  have hindex : indexOf (toPosition ⟨3, 15, 5⟩) = ⟨0, 15, 5, 3⟩ := by decide +kernel
  have hlt : ∀ d ∈ [toPosition ⟨3, 15, 5⟩], (indexOf d).sectionIndex < 16 := by
    rw [List.forall_mem_singleton, hindex]
    decide
  exact (nonAir_digAll_iff hlt 0).mp ((countTrue_iff _ _ 0).mp (h.counts 0)) _ List.mem_cons_self
    (by rw [hindex]; rfl)

end Vitamine
