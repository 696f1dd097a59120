import Vitamine.Proxyd.Serialize

/-!
# Named binary tags (`proxyd/nbt.hpp`, `proxyd/nbt.cpp`)

`NbtValue` is an untagged union in the source; here it records the alternative it holds. Reading
another alternative than that is undefined there, and writes nothing here. `deserializeNbt` is not
implemented in the source.
-/

namespace Vitamine

open Wire

inductive NbtType where
  | byte | short | int | long | float | double
  | byteArray | string | list | compound | intArray | longArray
  deriving DecidableEq

/-- The value of the enumerator. -/
def NbtType.value : NbtType → BitVec 8
  | .byte => 1
  | .short => 2
  | .int => 3
  | .long => 4
  | .float => 5
  | .double => 6
  | .byteArray => 7
  | .string => 8
  | .list => 9
  | .compound => 10
  | .intArray => 11
  | .longArray => 12

mutual

inductive NbtValue where
  | i8 (value : BitVec 8)
  | i16 (value : BitVec 16)
  | i32 (value : BitVec 32)
  | i64 (value : BitVec 64)
  | f32 (value : BitVec 32)
  | f64 (value : BitVec 64)
  | str (value : Bytes)
  | ai8 (values : Bytes)
  | ai32 (values : List (BitVec 32))
  | ai64 (values : List (BitVec 64))
  | list (type : NbtType) (values : List NbtValue)
  | compound (tags : List Nbt)

inductive Nbt where
  | mk (type : NbtType) (name : Bytes) (value : NbtValue)

end

/-- The default constructor. -/
def Nbt.empty : Nbt := .mk .compound [] (.compound [])

mutual

def serializeNbtValue (type : NbtType) : NbtValue → Buffer
  | .i8 value => if type = .byte then serializeInt value else []
  | .i16 value => if type = .short then serializeInt value else []
  | .i32 value => if type = .int then serializeInt value else []
  | .i64 value => if type = .long then serializeInt value else []
  | .f32 value => if type = .float then serializeFloat value else []
  | .f64 value => if type = .double then serializeFloat value else []
  | .str value =>
    if type = .string then serializeInt (BitVec.ofNat 16 value.length) ++ serializeBytes value
    else []
  | .ai8 values =>
    if type = .byteArray then serializeInt (spanSize values) ++ serializeBytes values else []
  | .ai32 values =>
    if type = .intArray then serializeInt (spanSize values) ++ values.flatMap serializeInt else []
  | .ai64 values =>
    if type = .longArray then serializeInt (spanSize values) ++ values.flatMap serializeInt else []
  | .list elementType values =>
    if type = .list then
      serializeInt elementType.value ++ serializeInt (spanSize values) ++
        serializeNbtValues elementType values
    else []
  | .compound tags =>
    -- The end marker follows the tags.
    if type = .compound then serializeNbts tags ++ serializeInt 0#8 else []

/-- The loop over a list's elements. -/
def serializeNbtValues (type : NbtType) : List NbtValue → Buffer
  | [] => []
  | value :: values => serializeNbtValue type value ++ serializeNbtValues type values

/-- The loop over a compound's tags. -/
def serializeNbts : List Nbt → Buffer
  | [] => []
  | tag :: tags => serializeNbt tag ++ serializeNbts tags

def serializeNbt : Nbt → Buffer
  | .mk type name value =>
    serializeInt type.value ++ serializeInt (BitVec.ofNat 16 name.length) ++ serializeBytes name ++
      serializeNbtValue type value

end

end Vitamine
