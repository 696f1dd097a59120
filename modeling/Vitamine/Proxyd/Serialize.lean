import Vitamine.Common.Bits
import Vitamine.Lib.Endian

/-!
# Writing values (`proxyd/serialize.hpp`)

The functions of the source append to a `Buffer`; here each gives the bytes that it appends.

A varint is seven bits a byte, the lowest first, and every byte but the last has its top bit set.
`varIntValue` is the number that such bytes stand for, and `VarIntBytes` their shape; the encoder
picks one of five unrolled bodies by the number of leading zeros, and all of them give the bytes
of that shape and value (`encodeVarInt32_spec`).
-/

namespace Vitamine

open Wire

/-- `Buffer` (`common/buffer.hpp`): the bytes of its vector. -/
abbrev Buffer := Bytes

/-- `boost::uuids::uuid`. -/
structure Uuid where
  bytes : Bytes
  length_eq : bytes.length = 16
  deriving DecidableEq

def Uuid.zero : Uuid := ⟨List.replicate 16 0, rfl⟩

def wireSizeVarInt32 (value : BitVec 32) : Nat :=
  if clz value ≤ 3 then 5
  else if clz value ≤ 10 then 4
  else if clz value ≤ 17 then 3
  else if clz value ≤ 24 then 2
  else 1

/-- A byte of a varint that another one follows: `0x80u | v >> shift`, stored into a `UInt8`. -/
def varIntByte (v : BitVec 32) (shift : Nat) : Byte := (0x80#32 ||| v >>> shift).truncate 8

/-- The last byte of a varint: `v >> shift`, stored into a `UInt8`. -/
def varIntLastByte (v : BitVec 32) (shift : Nat) : Byte := (v >>> shift).truncate 8

def encodeVarInt32 (v : BitVec 32) : Bytes :=
  if clz v ≤ 3 then
    [varIntByte v 0, varIntByte v 7, varIntByte v 14, varIntByte v 21, varIntLastByte v 28]
  else if clz v ≤ 10 then
    [varIntByte v 0, varIntByte v 7, varIntByte v 14, varIntLastByte v 21]
  else if clz v ≤ 17 then
    [varIntByte v 0, varIntByte v 7, varIntLastByte v 14]
  else if clz v ≤ 24 then
    [varIntByte v 0, varIntLastByte v 7]
  else
    [varIntLastByte v 0]

def serializeVarInt (value : BitVec 32) : Bytes := encodeVarInt32 value

/-- `native_to_big_inplace`, then the bytes as they are in memory. -/
def serializeInt {w : Nat} (value : BitVec w) : Bytes := toBigEndian (w / 8) value.toNat

def serializeBool (value : Bool) : Bytes := serializeInt (if value then 1#8 else 0#8)

/-- A float is its bit pattern. -/
def serializeFloat {w : Nat} (value : BitVec w) : Bytes := serializeInt value

/-- The size of a span, converted to `Int32`. -/
def spanSize {α : Type} (s : List α) : BitVec 32 := BitVec.ofNat 32 s.length

def serializeString (str : Bytes) : Bytes := serializeVarInt (spanSize str) ++ str

def serializeBytes (data : Bytes) : Bytes := data

/-- `std::memcpy` of the first eight bytes into a `UInt64` of the host, which is little-endian. -/
def Uuid.lo (uuid : Uuid) : BitVec 64 := BitVec.ofNat 64 (ofLittleEndian (uuid.bytes.take 8))

/-- `std::memcpy` of the last eight bytes. -/
def Uuid.hi (uuid : Uuid) : BitVec 64 := BitVec.ofNat 64 (ofLittleEndian (uuid.bytes.drop 8))

def serializeUuid (uuid : Uuid) : Bytes := serializeInt uuid.hi ++ serializeInt uuid.lo

/-! ## Varints as numbers -/

/-- The bytes of a varint: the top bit is set on every byte but the last. -/
def VarIntBytes : Bytes → Prop
  | [] => False
  | [b] => b.toNat < 128
  | b :: bs => 128 ≤ b.toNat ∧ VarIntBytes bs

/-- The number that the low seven bits of the bytes stand for. -/
def varIntValue : Bytes → Nat
  | [] => 0
  | b :: bs => b.toNat % 128 + 128 * varIntValue bs

theorem VarIntBytes.cons {b : Byte} {bs : Bytes} (hb : 128 ≤ b.toNat) (h : VarIntBytes bs) :
    VarIntBytes (b :: bs) := by
  cases bs with
  | nil => exact h.elim
  | cons b' bs => exact ⟨hb, h⟩

theorem toNat_varIntByte (v : BitVec 32) (shift : Nat) :
    (varIntByte v shift).toNat = 128 + v.toNat / 2 ^ shift % 128 := by
  have hor : ∀ b : BitVec 8, (0x80#8 ||| b).toNat = 128 + b.toNat % 128 := by decide
  have hs : varIntByte v shift = 0x80#8 ||| (v >>> shift).setWidth 8 := by
    simp [varIntByte, BitVec.setWidth_or]
  rw [hs, hor, BitVec.toNat_setWidth, BitVec.toNat_ushiftRight, Nat.shiftRight_eq_div_pow]
  omega

theorem toNat_varIntLastByte (v : BitVec 32) (shift : Nat) (h : v.toNat / 2 ^ shift < 128) :
    (varIntLastByte v shift).toNat = v.toNat / 2 ^ shift := by
  simp only [varIntLastByte, BitVec.truncate_eq_setWidth, BitVec.toNat_setWidth,
    BitVec.toNat_ushiftRight, Nat.shiftRight_eq_div_pow]
  exact Nat.mod_eq_of_lt (by omega)

/-- The five bodies of the encoder by the size of the value. -/
theorem encodeVarInt32_eq (v : BitVec 32) : encodeVarInt32 v =
    if 2 ^ 28 ≤ v.toNat then
      [varIntByte v 0, varIntByte v 7, varIntByte v 14, varIntByte v 21, varIntLastByte v 28]
    else if 2 ^ 21 ≤ v.toNat then
      [varIntByte v 0, varIntByte v 7, varIntByte v 14, varIntLastByte v 21]
    else if 2 ^ 14 ≤ v.toNat then [varIntByte v 0, varIntByte v 7, varIntLastByte v 14]
    else if 2 ^ 7 ≤ v.toNat then [varIntByte v 0, varIntLastByte v 7]
    else [varIntLastByte v 0] := by
  simp only [encodeVarInt32, clz_le_iff v (show 3 < 32 by decide),
    clz_le_iff v (show 10 < 32 by decide), clz_le_iff v (show 17 < 32 by decide),
    clz_le_iff v (show 24 < 32 by decide)]

theorem wireSizeVarInt32_eq (v : BitVec 32) :
    wireSizeVarInt32 v = (encodeVarInt32 v).length := by
  unfold wireSizeVarInt32 encodeVarInt32
  split
  · rfl
  split
  · rfl
  split
  · rfl
  split <;> rfl

theorem length_encodeVarInt32_pos (v : BitVec 32) : 0 < (encodeVarInt32 v).length := by
  rw [← wireSizeVarInt32_eq, wireSizeVarInt32]
  split_ifs <;> decide

theorem length_encodeVarInt32_le (v : BitVec 32) : (encodeVarInt32 v).length ≤ 5 := by
  rw [← wireSizeVarInt32_eq, wireSizeVarInt32]
  split_ifs <;> decide

/-- The encoder writes the bytes of a varint whose value is the number. -/
theorem encodeVarInt32_spec (v : BitVec 32) :
    VarIntBytes (encodeVarInt32 v) ∧ varIntValue (encodeVarInt32 v) = v.toNat := by
  have hv := v.isLt
  have hb := toNat_varIntByte v
  have hl := toNat_varIntLastByte v
  have hcont : ∀ shift, 128 ≤ (varIntByte v shift).toNat := fun s => by rw [hb s]; omega
  rw [encodeVarInt32_eq]
  split_ifs with h28 h21 h14 h7
  · have h := hl 28 (by omega)
    refine ⟨⟨hcont 0, hcont 7, hcont 14, hcont 21, ?_⟩, ?_⟩
    · show (varIntLastByte v 28).toNat < 128
      omega
    · simp only [varIntValue, hb, h]
      omega
  · have h := hl 21 (by omega)
    refine ⟨⟨hcont 0, hcont 7, hcont 14, ?_⟩, ?_⟩
    · show (varIntLastByte v 21).toNat < 128
      omega
    · simp only [varIntValue, hb, h]
      omega
  · have h := hl 14 (by omega)
    refine ⟨⟨hcont 0, hcont 7, ?_⟩, ?_⟩
    · show (varIntLastByte v 14).toNat < 128
      omega
    · simp only [varIntValue, hb, h]
      omega
  · have h := hl 7 (by omega)
    refine ⟨⟨hcont 0, ?_⟩, ?_⟩
    · show (varIntLastByte v 7).toNat < 128
      omega
    · simp only [varIntValue, hb, h]
      omega
  · have h := hl 0 (by omega)
    refine ⟨?_, ?_⟩
    · show (varIntLastByte v 0).toNat < 128
      omega
    · simp only [varIntValue, h]
      omega

end Vitamine
