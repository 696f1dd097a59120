import Vitamine.Lib.Grid
import Vitamine.Proxyd.Bitpack
import Vitamine.Proxyd.Clientbound
import Vitamine.Proxyd.Layout

/-!
# Chunks on the wire (`StateMachine::sendChunk`)

`chunkDataPacket` is the packet that `sendChunk` builds from a chunk. `DataLaidOut` is how a client
takes its data field apart: one record for each section, then the biomes.

* `decodes_chunkData`: a data field can be taken apart in one way only.
* `chunkData_lossless`: what a client reads from the packet is the chunk.
-/

namespace Vitamine

open Wire Grid

/-! ## Building the packet -/

/-- The blocks of a section as they lie in memory. -/
def ChunkSection.entries (s : ChunkSection) : List (BitVec 16) :=
  rows fun y => rows fun z => List.ofFn fun x => s.blocks y z x

namespace Chunk

/-- The heightmap as it lies in memory. -/
def heightmapEntries (chunk : Chunk) : List (BitVec 16) :=
  rows fun z => List.ofFn fun x => chunk.heightmap z x

/-- The biomes in the order of the loops. -/
def biomeEntries (chunk : Chunk) : List (BitVec 32) :=
  rows fun i => List.ofFn fun j => chunk.biomes i j

/-- `bitmask`, from the loop over the sections. -/
def bitmask (chunk : Chunk) : BitVec 16 :=
  (List.finRange 16).foldl
    (fun bitmask i => if (chunk.sections i).isSome then bitmask ||| 1#16 <<< i.val else bitmask) 0

/-- The array `heightmap`, read back as `Int64`. -/
def heightmapLongs (chunk : Chunk) : List (BitVec 64) :=
  wordsOf (bitpack16to9 chunk.heightmapEntries)

/-- `heightmapNbt`. -/
def heightmapNbt (chunk : Chunk) : Nbt :=
  .mk .longArray (spanFromCString "MOTION_BLOCKING") (.ai64 chunk.heightmapLongs)

end Chunk

/-- The array `data`, read back as `Int64`. -/
def ChunkSection.data (s : ChunkSection) : List (BitVec 64) := wordsOf (bitpack16to14 s.entries)

/-- The body of the loop over the sections: block count, bits per block, and the array behind its
length. -/
def serializeSection (s : ChunkSection) : Buffer :=
  serializeInt (BitVec.ofNat 16 (16 * 16 * 16)) ++ serializeInt 14#8 ++
    serializeVarInt (BitVec.ofNat 32 (16 * 16 * 16 * 14 / 64)) ++ s.data.flatMap serializeInt

/-- The sections that are there, in ascending order. -/
def Chunk.present (chunk : Chunk) : List ChunkSection := (List.finRange 16).filterMap chunk.sections

/-- `buffer`. -/
def Chunk.serialize (chunk : Chunk) : Buffer :=
  chunk.present.flatMap serializeSection ++ chunk.biomeEntries.flatMap serializeInt

/-- `chunkData`; the NBT is the default one, a compound without a name, with one tag in it. -/
def chunkDataPacket (coord : ChunkCoord) (chunk : Chunk) : packetChunkData.Packet :=
  (BitVec.ofInt 32 coord.x, BitVec.ofInt 32 coord.z, true, chunk.bitmask.zeroExtend 32,
    .mk .compound [] (.compound [chunk.heightmapNbt]), chunk.serialize, [], ())

/-! ## Reading the packet -/

namespace ChunkDataPacket

variable (packet : packetChunkData.Packet)

def primaryBitmask : BitVec 32 := packet.2.2.2.1

def heightmaps : Nbt := packet.2.2.2.2.1

def data : Bytes := packet.2.2.2.2.2.1

/-- The numbers of the bits that are set, in ascending order. -/
def sectionNumbers : List (Fin 16) :=
  (List.finRange 16).filter fun i => (primaryBitmask packet).getLsbD i

/-- The array of longs of a tag in the compound. -/
def longArray (name : Bytes) : Option (List (BitVec 64)) :=
  match heightmaps packet with
  | .mk .compound _ (.compound tags) => tags.findSome? fun
    | .mk .longArray tagName (.ai64 longs) => if tagName = name then some longs else none
    | _ => none
  | _ => none

end ChunkDataPacket

/-- What the data field says of a section. -/
structure SectionRecord where
  blockCount : BitVec 16
  data : List (BitVec 64)

/-- The bytes of a record. -/
structure SectionRecord.LaidOut (bs : Bytes) (record : SectionRecord) : Prop where
  length : record.data.length = 896
  bytes : ∃ l, VarIntOf l 896#32 ∧
    bs = serializeInt record.blockCount ++ serializeInt 14#8 ++ l ++ record.data.flatMap serializeInt

/-- The bytes are `n` records and 256 biomes. -/
structure DataLaidOut (n : Nat) (bs : Bytes) (parsed : List SectionRecord × List (BitVec 32)) :
    Prop where
  records : parsed.1.length = n
  biomes : parsed.2.length = 256
  bytes : ∃ pieces, List.Forall₂ SectionRecord.LaidOut pieces parsed.1 ∧
    bs = pieces.flatten ++ parsed.2.flatMap serializeInt

/-! ## One way to take the data apart -/

/-- A reader of records. -/
def readRecord : Deserializer SectionRecord := do
  let blockCount ← deserializeInt 16
  let _bits ← deserializeInt 8
  let length ← deserializeVarInt
  let data ← times (deserializeInt 64) length.toNat
  pure ⟨blockCount, data⟩

theorem decodes_ints {w : Nat} (hw : w = 8 * (w / 8)) (values : List (BitVec w)) :
    Decodes (times (deserializeInt w) values.length) (values.flatMap serializeInt) values := by
  rw [List.flatMap_def]
  exact Decodes.times fun v _ => decodes_int hw v

theorem SectionRecord.LaidOut.decodes {bs : Bytes} {record : SectionRecord}
    (h : record.LaidOut bs) : Decodes readRecord bs record := by
  obtain ⟨hlen, l, hl, rfl⟩ := h
  rw [List.append_assoc, List.append_assoc]
  refine (decodes_int (by decide) record.blockCount).bind
    ((decodes_int (by decide) 14#8).bind (hl.decodes.bind ?_))
  have hdata := (decodes_ints (by decide) record.data).map fun data =>
    (⟨record.blockCount, data⟩ : SectionRecord)
  rw [hlen] at hdata
  exact hdata

/-- A reader of the data field. -/
def readChunkData (n : Nat) : Deserializer (List SectionRecord × List (BitVec 32)) := do
  let records ← times readRecord n
  let biomes ← times (deserializeInt 32) 256
  pure (records, biomes)

theorem decodes_chunkData {n : Nat} {bs : Bytes} {parsed : List SectionRecord × List (BitVec 32)}
    (h : DataLaidOut n bs parsed) : Decodes (readChunkData n) bs parsed := by
  obtain ⟨rfl, hbiomes, pieces, hpieces, rfl⟩ := h
  have hrecords := Decodes.times_pieces (hpieces.imp fun _ _ hrecord => hrecord.decodes)
  have hints := (decodes_ints (by decide) parsed.2).map fun biomes => (parsed.1, biomes)
  rw [hbiomes] at hints
  exact hrecords.bind hints

/-- A data field is taken apart in one way only. -/
theorem DataLaidOut.unique {n : Nat} {bs : Bytes}
    {parsed parsed' : List SectionRecord × List (BitVec 32)} (h : DataLaidOut n bs parsed)
    (h' : DataLaidOut n bs parsed') : parsed' = parsed := by
  have hsame : bs ++ [] = bs ++ [] := rfl
  exact ((decodes_chunkData h').injective (decodes_chunkData h) hsame).1

/-! ## What the packer got -/

theorem ChunkSection.length_entries (s : ChunkSection) : s.entries.length = 32 * 128 :=
  length_rows fun _ => length_rows fun _ => List.length_ofFn

/-- A block of a section in memory. -/
theorem ChunkSection.getD_entries (s : ChunkSection) (y z x : Fin 16) :
    s.entries.getD (256 * y + (16 * z + x)) 0 = s.blocks y z x := by
  have hrow : ∀ y, (rows fun z => List.ofFn fun x => s.blocks y z x).length = 256 := fun y =>
    length_rows fun _ => List.length_ofFn
  rw [List.getD_eq_getElem?_getD, entries, getElem?_rows hrow y (by omega),
    getElem?_rows (fun _ => List.length_ofFn) z x.isLt, List.getElem?_ofFn, dif_pos x.isLt]
  rfl

theorem ChunkSection.length_data (s : ChunkSection) : s.data.length = 896 := by
  obtain ⟨hlen, -⟩ := number_bitpack16to14 128 s.length_entries
  exact length_wordsOf 896 (by omega)

/-- A block of a section in the array that is sent. -/
theorem ChunkSection.readBits_data (s : ChunkSection) (y z x : Fin 16) :
    readBits s.data 14 (14 * (256 * y + (16 * z + x))) = (s.blocks y z x).toNat % 2 ^ 14 := by
  rw [data, readBits_bitpack16to14 128 s.length_entries, s.getD_entries]

namespace Chunk

variable (chunk : Chunk)

theorem length_heightmapEntries : chunk.heightmapEntries.length = 64 * 4 :=
  length_rows fun _ => List.length_ofFn

theorem getD_heightmapEntries (z x : Fin 16) :
    chunk.heightmapEntries.getD (16 * z + x) 0 = chunk.heightmap z x := by
  rw [List.getD_eq_getElem?_getD, heightmapEntries,
    getElem?_rows (fun _ => List.length_ofFn) z x.isLt, List.getElem?_ofFn, dif_pos x.isLt]
  rfl

theorem length_biomeEntries : chunk.biomeEntries.length = 256 :=
  length_rows fun _ => List.length_ofFn

theorem getD_biomeEntries (i j : Fin 16) :
    chunk.biomeEntries.getD (16 * i + j) 0 = chunk.biomes i j := by
  rw [List.getD_eq_getElem?_getD, biomeEntries,
    getElem?_rows (fun _ => List.length_ofFn) i j.isLt, List.getElem?_ofFn, dif_pos j.isLt]
  rfl

variable {chunk}

theorem length_heightmapLongs (h : ∀ z x, (chunk.heightmap z x).toNat < 2 ^ 9) :
    chunk.heightmapLongs.length = 36 ∧ ∀ z x : Fin 16,
      readBits chunk.heightmapLongs 9 (9 * (16 * z + x)) = (chunk.heightmap z x).toNat := by
  have hlt : ∀ b ∈ chunk.heightmapEntries, b.toNat < 2 ^ 9 := by
    intro b hb
    obtain ⟨z, hz⟩ := mem_rows.mp hb
    obtain ⟨x, rfl⟩ := List.mem_ofFn.mp hz
    exact h z x
  have hlen := chunk.length_heightmapEntries
  obtain ⟨hbytes, -⟩ := number_bitpack16to9 32 hlen hlt
  refine ⟨length_wordsOf 36 (by omega), fun z x => ?_⟩
  rw [heightmapLongs, readBits_bitpack16to9 4 hlen hlt, chunk.getD_heightmapEntries,
    Nat.mod_eq_of_lt (h z x)]

/-- The loop over the sections sets the bits of those that are there. -/
theorem getLsbD_bitmask (i : Fin 16) : chunk.bitmask.getLsbD i = (chunk.sections i).isSome := by
  have hloop : ∀ (l : List (Fin 16)) (acc : BitVec 16), (l.foldl
      (fun bitmask i => if (chunk.sections i).isSome then bitmask ||| 1#16 <<< i.val else bitmask)
      acc).getLsbD i = (acc.getLsbD i || (decide (i ∈ l) && (chunk.sections i).isSome)) := by
    intro l
    induction l with
    | nil => simp
    | cons j l ih =>
      intro acc
      have hbit : (1#16 <<< j.val).getLsbD i = decide (i = j) := by
        rw [BitVec.getLsbD_shiftLeft, BitVec.getLsbD_one]
        have := i.isLt
        simp only [Fin.ext_iff]
        grind
      rw [List.foldl_cons, ih]
      have hstep : (if (chunk.sections j).isSome then acc ||| 1#16 <<< j.val else acc).getLsbD i =
          (acc.getLsbD i || ((chunk.sections j).isSome && decide (i = j))) := by
        split <;> rename_i hs
        · rw [BitVec.getLsbD_or, hbit, hs, Bool.true_and]
        · simp [hs]
      rw [hstep]
      by_cases hj : i = j
      · subst hj
        cases acc.getLsbD i <;> cases (chunk.sections i).isSome <;> simp
      · simp [hj]
  rw [bitmask, hloop]
  simp

/-- The sections that are there are those of the bits. -/
theorem forall₂_present : List.Forall₂ (fun i s => chunk.sections i = some s)
    ((List.finRange 16).filter fun i => (chunk.sections i).isSome) chunk.present := by
  rw [present]
  induction List.finRange 16 with
  | nil => exact .nil
  | cons i l ih =>
    cases h : chunk.sections i with
    | none => simpa [h] using ih
    | some s => simpa [h] using ih

/-- What is read from the data field. -/
def parsed (chunk : Chunk) : List SectionRecord × List (BitVec 32) :=
  (chunk.present.map fun s => ⟨BitVec.ofNat 16 (16 * 16 * 16), s.data⟩, chunk.biomeEntries)

theorem laidOut_serialize : DataLaidOut chunk.present.length chunk.serialize chunk.parsed where
  records := List.length_map _
  biomes := chunk.length_biomeEntries
  bytes := by
    refine ⟨chunk.present.map serializeSection, ?_, by rw [serialize, List.flatMap_def]; rfl⟩
    rw [parsed]
    induction chunk.present with
    | nil => exact .nil
    | cons s l ih =>
      refine .cons ⟨s.length_data, encodeVarInt32 896#32, ?_, rfl⟩ ih
      obtain ⟨hshape, hvalue⟩ := encodeVarInt32_spec 896#32
      exact ⟨hshape, length_encodeVarInt32_le _, by rw [hvalue]; rfl⟩

end Chunk

theorem primaryBitmask_chunkDataPacket (coord : ChunkCoord) (chunk : Chunk) (i : Nat) :
    (ChunkDataPacket.primaryBitmask (chunkDataPacket coord chunk)).getLsbD i =
      (decide (i < 16) && chunk.bitmask.getLsbD i) := by
  show (chunk.bitmask.setWidth 32).getLsbD i = _
  rw [BitVec.getLsbD_setWidth]
  by_cases hi : i < 16
  · rw [decide_eq_true hi, decide_eq_true (show i < 32 by omega)]
  · rw [BitVec.getLsbD_of_ge _ _ (by omega), Bool.and_false, Bool.and_false]

theorem sectionNumbers_chunkDataPacket (coord : ChunkCoord) (chunk : Chunk) :
    ChunkDataPacket.sectionNumbers (chunkDataPacket coord chunk) =
      (List.finRange 16).filter fun i => (chunk.sections i).isSome := by
  unfold ChunkDataPacket.sectionNumbers
  congr 1
  funext i
  rw [primaryBitmask_chunkDataPacket, Chunk.getLsbD_bitmask, decide_eq_true i.isLt, Bool.true_and]

/-- The records of the sections that are there, for the bits in ascending order. -/
theorem forall₂_parsed (coord : ChunkCoord) (chunk : Chunk) :
    List.Forall₂ (fun i (record : SectionRecord) => ∃ s, chunk.sections i = some s ∧
        record = ⟨BitVec.ofNat 16 (16 * 16 * 16), s.data⟩)
      (ChunkDataPacket.sectionNumbers (chunkDataPacket coord chunk)) chunk.parsed.1 := by
  rw [sectionNumbers_chunkDataPacket, Chunk.parsed, List.forall₂_map_right_iff]
  exact Chunk.forall₂_present.imp fun i s h => ⟨s, h, rfl⟩

/-- **The packet of a chunk loses nothing**, if the blocks have at most fourteen bits and the
heights at most nine: the bitmask names the sections that are there, the data field is taken apart
in one way only, one record for each of them and then the biomes, and the blocks, the biomes and the
heights are read where the format puts them. -/
theorem chunkData_lossless (coord : ChunkCoord) (chunk : Chunk)
    (hblocks : ∀ i s, chunk.sections i = some s → ∀ y z x, (s.blocks y z x).toNat < 2 ^ 14)
    (hheights : ∀ z x, (chunk.heightmap z x).toNat < 2 ^ 9) :
    (∀ i : Fin 16, (ChunkDataPacket.primaryBitmask (chunkDataPacket coord chunk)).getLsbD i =
      (chunk.sections i).isSome) ∧
    (∀ i, 16 ≤ i →
      (ChunkDataPacket.primaryBitmask (chunkDataPacket coord chunk)).getLsbD i = false) ∧
    (∃! parsed, DataLaidOut (ChunkDataPacket.sectionNumbers (chunkDataPacket coord chunk)).length
      (ChunkDataPacket.data (chunkDataPacket coord chunk)) parsed) ∧
    (∀ parsed, DataLaidOut (ChunkDataPacket.sectionNumbers (chunkDataPacket coord chunk)).length
        (ChunkDataPacket.data (chunkDataPacket coord chunk)) parsed →
      List.Forall₂ (fun i (record : SectionRecord) => ∃ s, chunk.sections i = some s ∧
          ∀ y z x : Fin 16, readBits record.data 14 (14 * (256 * y + 16 * z + x)) =
            (s.blocks y z x).toNat)
        (ChunkDataPacket.sectionNumbers (chunkDataPacket coord chunk)) parsed.1 ∧
      ∀ i j : Fin 16, parsed.2.getD (16 * i + j) 0 = chunk.biomes i j) ∧
    ∃ longs, ChunkDataPacket.longArray (chunkDataPacket coord chunk)
        (spanFromCString "MOTION_BLOCKING") = some longs ∧ longs.length = 36 ∧
      ∀ z x : Fin 16, readBits longs 9 (9 * (16 * z + x)) = (chunk.heightmap z x).toNat := by
  have hforall := forall₂_parsed coord chunk
  have hlen : (ChunkDataPacket.sectionNumbers (chunkDataPacket coord chunk)).length =
      chunk.present.length := by
    rw [hforall.length_eq, Chunk.parsed, List.length_map]
  have hlaid : DataLaidOut (ChunkDataPacket.sectionNumbers (chunkDataPacket coord chunk)).length
      (ChunkDataPacket.data (chunkDataPacket coord chunk)) chunk.parsed := by
    rw [hlen]
    exact Chunk.laidOut_serialize
  refine ⟨fun i => ?_, fun i hi => ?_, ⟨chunk.parsed, hlaid, fun p hp => hlaid.unique hp⟩,
    fun p hp => ?_, chunk.heightmapLongs, rfl, Chunk.length_heightmapLongs hheights⟩
  · rw [primaryBitmask_chunkDataPacket, Chunk.getLsbD_bitmask, decide_eq_true i.isLt, Bool.true_and]
  · rw [primaryBitmask_chunkDataPacket, decide_eq_false (by omega), Bool.false_and]
  · obtain rfl := hlaid.unique hp
    refine ⟨hforall.imp fun i record h => ?_, chunk.getD_biomeEntries⟩
    obtain ⟨s, hs, rfl⟩ := h
    refine ⟨s, hs, fun y z x => ?_⟩
    rw [Nat.add_assoc, s.readBits_data, Nat.mod_eq_of_lt (hblocks i s hs y z x)]

/-- The blocks of a generated chunk have few bits. -/
theorem toNat_generateChunk_lt {i : Fin 16} {s : ChunkSection}
    (h : generateChunk.sections i = some s) (y z x : Fin 16) : (s.blocks y z x).toNat < 2 ^ 14 := by
  simp only [generateChunk] at h
  split at h
  · obtain rfl := Option.some.inj h
    simp only
    split_ifs <;> decide
  · cases h

theorem chunkData_lossless_generated :
    (∃! parsed, DataLaidOut
        (ChunkDataPacket.sectionNumbers (chunkDataPacket ⟨-3, 7⟩ generateChunk)).length
        (ChunkDataPacket.data (chunkDataPacket ⟨-3, 7⟩ generateChunk)) parsed) ∧
      ∃ longs, ChunkDataPacket.longArray (chunkDataPacket ⟨-3, 7⟩ generateChunk)
          (spanFromCString "MOTION_BLOCKING") = some longs ∧ longs.length = 36 ∧
        ∀ z x : Fin 16, readBits longs 9 (9 * (16 * z + x)) = 16 := by
  obtain ⟨-, -, hone, -, hlongs⟩ := chunkData_lossless ⟨-3, 7⟩ generateChunk
    (fun _ _ h => toNat_generateChunk_lt h) fun _ _ => (by decide : (16#16).toNat < 2 ^ 9)
  exact ⟨hone, hlongs⟩

end Vitamine
