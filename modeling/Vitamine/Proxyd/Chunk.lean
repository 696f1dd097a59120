import Vitamine.Proxyd.Types

/-!
# Chunks (`proxyd/chunk.hpp`, `generateChunk` of `proxyd/statemachine.cpp`)

A chunk is sixteen sections, one above the other, of which some may be absent. `Chunk.blocks` are
its blocks as a client sees them, an absent section being all air.

`blocks_makeSection` and `blocks_setBlock` are what the two writes of the server do to them.
-/

namespace Vitamine

/-! ## Block ids

The ids that the build puts into `generated/ids.hpp`, from `datagen/blocks.json`. -/

def BLOCKID_MINECRAFT_AIR : BitVec 16 := 0
def BLOCKID_MINECRAFT_STONE : BitVec 16 := 1
def BLOCKID_MINECRAFT_GRASS_BLOCK : BitVec 16 := 9
def BLOCKID_MINECRAFT_DIRT : BitVec 16 := 10
def BLOCKID_MINECRAFT_BEDROCK : BitVec 16 := 33

/-- `blocks[y][z][x]`. -/
structure ChunkSection where
  blocks : Fin 16 → Fin 16 → Fin 16 → BitVec 16

def ChunkSection.zero : ChunkSection := ⟨fun _ _ _ => 0⟩

/-- `biomes` and `heightmap` are indexed by `z` and `x`. -/
structure Chunk where
  sections : Fin 16 → Option ChunkSection
  biomes : Fin 16 → Fin 16 → BitVec 32
  heightmap : Fin 16 → Fin 16 → BitVec 16

/-- Blocks by section, and in the section by `y`, `z` and `x`. -/
abbrev Blocks := Fin 16 → Fin 16 → Fin 16 → Fin 16 → BitVec 16

namespace Blocks

def set (blocks : Blocks) (i y z x : Fin 16) (block : BitVec 16) : Blocks := fun i' y' z' x' =>
  if i' = i ∧ y' = y ∧ z' = z ∧ x' = x then block else blocks i' y' z' x'

@[simp] theorem set_self (blocks : Blocks) (i y z x : Fin 16) :
    blocks.set i y z x (blocks i y z x) = blocks := by
  funext i' y' z' x'
  unfold set
  split_ifs with h
  · obtain ⟨rfl, rfl, rfl, rfl⟩ := h
    rfl
  · rfl

end Blocks

namespace Chunk

/-- The section, or the one that is made for it when it is absent. -/
def sectionAt (chunk : Chunk) (i : Fin 16) : ChunkSection := (chunk.sections i).getD .zero

def blocks (chunk : Chunk) : Blocks := fun i => (chunk.sectionAt i).blocks

/-- `if(!chunk.sections[i]) chunk.sections[i] = std::make_unique<ChunkSection>()`. -/
def makeSection (chunk : Chunk) (i : Fin 16) : Chunk :=
  { chunk with sections := Function.update chunk.sections i (some (chunk.sectionAt i)) }

/-- The assignment to `chunk.sections[i]->blocks[y][z][x]`. -/
def setBlock (chunk : Chunk) (i y z x : Fin 16) (block : BitVec 16) : Chunk :=
  { chunk with
    sections := Function.update chunk.sections i
      (some ⟨fun y' z' x' => if y' = y ∧ z' = z ∧ x' = x then block else chunk.blocks i y' z' x'⟩) }

@[simp] theorem blocks_makeSection (chunk : Chunk) (i : Fin 16) :
    (chunk.makeSection i).blocks = chunk.blocks := by
  funext i'
  unfold blocks makeSection sectionAt
  by_cases h : i' = i
  · subst h
    simp
  · simp [h]

@[simp] theorem blocks_setBlock (chunk : Chunk) (i y z x : Fin 16) (block : BitVec 16) :
    (chunk.setBlock i y z x block).blocks = chunk.blocks.set i y z x block := by
  funext i' y' z' x'
  unfold setBlock Blocks.set
  by_cases h : i' = i
  · subst h
    simp [blocks, sectionAt]
  · simp [blocks, sectionAt, h]

end Chunk

/-- The loops of `generateChunk` as the function of the coordinates that they fill in. -/
def generateChunk : Chunk where
  sections i := if i = 0 then
      some ⟨fun y _ _ =>
        if y = 0 then BLOCKID_MINECRAFT_BEDROCK
        else if y < 14 then BLOCKID_MINECRAFT_STONE
        else if y = 14 then BLOCKID_MINECRAFT_DIRT
        else BLOCKID_MINECRAFT_GRASS_BLOCK⟩
    else none
  biomes _ _ := 0
  heightmap _ _ := 16

/-! ## Where a location lies in its chunk -/

/-- The indices into `chunk.sections` and into the blocks of the section, as the handler of
`PacketPlayerDigging` computes them. The first is not bounded by the sixteen sections. -/
structure BlockIndex where
  sectionIndex : Nat
  y : Fin 16
  z : Fin 16
  x : Fin 16
  deriving DecidableEq

def blockIndex (blockCoord : ChunkBlockCoord) : BlockIndex :=
  ⟨(blockCoord.y / 16).toNat, Fin.ofNat 16 (blockCoord.y % 16).toNat,
    Fin.ofNat 16 blockCoord.z.toNat, Fin.ofNat 16 blockCoord.x.toNat⟩

/-- The block at an index, if the section is one of the sixteen. -/
def Blocks.at? (blocks : Blocks) (index : BlockIndex) : Option (BitVec 16) :=
  if h : index.sectionIndex < 16 then some (blocks ⟨index.sectionIndex, h⟩ index.y index.z index.x)
  else none

/-- The blocks with the one at an index replaced, if the section is one of the sixteen. -/
def Blocks.put (blocks : Blocks) (index : BlockIndex) (block : BitVec 16) : Blocks :=
  if h : index.sectionIndex < 16 then
    blocks.set ⟨index.sectionIndex, h⟩ index.y index.z index.x block
  else blocks

/-- The block at the index becomes air: the chunk afterwards, and whether it was something else
before. `none` if the index is in none of the sixteen sections. -/
def Chunk.dig (chunk : Chunk) (index : BlockIndex) : Option (Chunk × Bool) :=
  if h : index.sectionIndex < 16 then
    let i : Fin 16 := ⟨index.sectionIndex, h⟩
    let chunk := chunk.makeSection i
    -- TODO of the source: fluids. A block that is gone already is left as it is.
    if chunk.blocks i index.y index.z index.x = BLOCKID_MINECRAFT_AIR then some (chunk, false)
    else some (chunk.setBlock i index.y index.z index.x BLOCKID_MINECRAFT_AIR, true)
  else none

/-- A block that is there already changes nothing. -/
theorem Blocks.put_of_at? {blocks : Blocks} {index : BlockIndex} {block : BitVec 16}
    (h : blocks.at? index = some block) : blocks.put index block = blocks := by
  unfold Blocks.at? at h
  split at h <;> rename_i hi
  · obtain rfl := Option.some.inj h
    rw [Blocks.put, dif_pos hi, Blocks.set_self]
  · cases h

theorem Blocks.put_of_at?_none {blocks : Blocks} {index : BlockIndex} {block : BitVec 16}
    (h : blocks.at? index = none) : blocks.put index block = blocks := by
  unfold Blocks.at? at h
  split at h <;> rename_i hi
  · cases h
  · exact dif_neg hi

theorem Blocks.at?_put {blocks : Blocks} {index : BlockIndex} {block block' : BitVec 16}
    (h : blocks.at? index = some block) : (blocks.put index block').at? index = some block' := by
  unfold Blocks.at? at h ⊢
  split at h <;> rename_i hi
  · rw [dif_pos hi, Blocks.put, dif_pos hi]
    simp [Blocks.set]
  · cases h

/-- After the dig the block is air, and the flag says whether it was something else before. -/
theorem Chunk.dig_some {chunk chunk' : Chunk} {index : BlockIndex} {changed : Bool}
    (h : chunk.dig index = some (chunk', changed)) :
    chunk'.blocks = chunk.blocks.put index BLOCKID_MINECRAFT_AIR ∧
      (changed = true ↔ ∃ block, chunk.blocks.at? index = some block ∧
        block ≠ BLOCKID_MINECRAFT_AIR) := by
  unfold Chunk.dig at h
  split at h <;> rename_i hi
  · simp only [Chunk.blocks_makeSection] at h
    have hat : chunk.blocks.at? index =
        some (chunk.blocks ⟨index.sectionIndex, hi⟩ index.y index.z index.x) := dif_pos hi
    split at h <;> rename_i hair <;> obtain ⟨rfl, rfl⟩ := Prod.mk.inj (Option.some.inj h)
    · rw [hair] at hat
      rw [Chunk.blocks_makeSection, Blocks.put_of_at? hat]
      simp [hat]
    · rw [Chunk.blocks_setBlock, Chunk.blocks_makeSection, Blocks.put, dif_pos hi]
      simp [hat, hair]
  · cases h

/-- A dig finds its place in one of the sixteen sections, or nowhere. -/
theorem Chunk.dig_eq_none_iff {chunk : Chunk} {index : BlockIndex} :
    chunk.dig index = none ↔ ¬ index.sectionIndex < 16 := by
  unfold Chunk.dig
  split <;> rename_i hi
  · simp only
    split <;> simp [hi]
  · simp [hi]

theorem Chunk.dig_none {chunk : Chunk} {index : BlockIndex} (h : chunk.dig index = none) :
    chunk.blocks.at? index = none := by
  unfold Chunk.dig at h
  split at h <;> rename_i hi
  · simp only at h
    split at h <;> cases h
  · exact dif_neg hi

end Vitamine
