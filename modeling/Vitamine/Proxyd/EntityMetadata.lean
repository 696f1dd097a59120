import Vitamine.Proxyd.Serialize

/-!
# Entity metadata (`proxyd/entitymetadata.hpp`)

A list of entries, each an index, a type and a value, and `0xff` at the end. Of the types, the
source writes five; the others, and an entry that holds another alternative than its type names,
throw. `deserializeEntityMetadata` is not implemented in the source.
-/

namespace Vitamine

open Wire

inductive EntityMetadataType where
  | byte | varint | float | string | chat | optChat | slot | bool | rotation | position
  | optPosition | direction | optUuid | optBlockId | nbt | particle | villagerData | optVarint
  | pose
  deriving DecidableEq

/-- The value of the enumerator. -/
def EntityMetadataType.value : EntityMetadataType → BitVec 32
  | .byte => 0
  | .varint => 1
  | .float => 2
  | .string => 3
  | .chat => 4
  | .optChat => 5
  | .slot => 6
  | .bool => 7
  | .rotation => 8
  | .position => 9
  | .optPosition => 10
  | .direction => 11
  | .optUuid => 12
  | .optBlockId => 13
  | .nbt => 14
  | .particle => 15
  | .villagerData => 16
  | .optVarint => 17
  | .pose => 18

inductive EntityMetadataPose where
  | standing | fallFlying | sleeping | swimming | spinAttack | crouching | dying
  deriving DecidableEq

/-- The value of the enumerator. -/
def EntityMetadataPose.value : EntityMetadataPose → BitVec 32
  | .standing => 0
  | .fallFlying => 1
  | .sleeping => 2
  | .swimming => 3
  | .spinAttack => 4
  | .crouching => 5
  | .dying => 6

/-- The alternatives of the variant; a float is its bit pattern. -/
inductive EntityMetadataValue where
  | byte (value : BitVec 8)
  | varint (value : BitVec 32)
  | float (value : BitVec 32)
  | string (value : Bytes)
  | bool (value : Bool)
  | pose (value : EntityMetadataPose)
  deriving DecidableEq

structure EntityMetadata where
  index : BitVec 8
  type : EntityMetadataType
  value : EntityMetadataValue
  deriving DecidableEq

/-- The value of an entry: `std::get` of the alternative that the type names. -/
def serializeEntityMetadataValue : EntityMetadataType → EntityMetadataValue → Option Buffer
  | .byte, .byte value => some (serializeInt value)
  | .varint, .varint value => some (serializeVarInt value)
  | .float, .float value => some (serializeFloat value)
  | .bool, .bool value => some (serializeBool value)
  | .pose, .pose value => some (serializeVarInt value.value)
  | _, _ => none

def serializeEntityMetadata : List EntityMetadata → Option Buffer
  | [] => some (serializeInt 0xff#8)
  | entry :: rest => do
    let value ← serializeEntityMetadataValue entry.type entry.value
    let tail ← serializeEntityMetadata rest
    some (serializeInt entry.index ++ serializeVarInt entry.type.value ++ value ++ tail)

end Vitamine
