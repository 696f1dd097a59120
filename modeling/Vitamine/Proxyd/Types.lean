import Vitamine.Common.Coord

/-!
# Types of the game (`proxyd/types.hpp`)

The casts `(ChatMode)` and `(MainHand)` of the source take any `Int32`, so the two settings stay
integers; the other enumerations are met with their enumerators only.
-/

namespace Vitamine

abbrev EntityId := BitVec 32

inductive GameMode where
  | survival | creative | adventure | spectator | hardcore
  deriving DecidableEq

/-- The value of the enumerator. -/
def GameMode.value : GameMode → BitVec 8
  | .survival => 0
  | .creative => 1
  | .adventure => 2
  | .spectator => 3
  | .hardcore => 1#8 <<< 3

abbrev ChatMode := BitVec 32

abbrev MainHand := BitVec 32

inductive Dimension where
  | nether | overworld | theEnd
  deriving DecidableEq

/-- The value of the enumerator. -/
def Dimension.value : Dimension → BitVec 32
  | .nether => -1
  | .overworld => 0
  | .theEnd => 1

/-- `(UInt64)(U)n` of an `Int32`. -/
def zeroExtendInt32 (n : Int) : BitVec 64 := (BitVec.ofInt 32 n).zeroExtend 64

def toPosition (coord : BlockCoord) : BitVec 64 :=
  ((zeroExtendInt32 coord.x &&& 0x3ffffff#64) <<< 38) |||
    ((zeroExtendInt32 coord.z &&& 0x3ffffff#64) <<< 12) |||
      (zeroExtendInt32 coord.y &&& 0xfff#64)

def fromPosition (position : BitVec 64) : BlockCoord :=
  ⟨ashr position.toInt 38, (position &&& 0xfff#64).toNat, ashr (position <<< 26).toInt 38⟩

example : fromPosition (toPosition ⟨-100, 64, 31⟩) = ⟨-100, 64, 31⟩ := by decide +kernel

end Vitamine
