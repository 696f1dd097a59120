import Vitamine.Lib.PrefixCode
import Vitamine.Proxyd.Deserialize

/-!
# The primitive encoders as codes (`proxyd/serialize.hpp`)

None of them needs to be told how long what it wrote is: `Unique` of each, and of the three ways in
which the packets give a number of elements.
-/

namespace Vitamine

open Wire PrefixCode

/-- Every value of a type. -/
def Any {α : Type} (_ : α) : Prop := True

theorem unique_int {w : Nat} (hw : w = 8 * (w / 8)) (value : BitVec w) :
    Unique Any serializeInt value :=
  .of_decodes (fun v _ => decodes_int hw v) trivial

theorem unique_varInt (value : BitVec 32) : Unique Any serializeVarInt value :=
  .of_decodes (fun v _ => decodes_varInt v) trivial

theorem unique_bool (value : Bool) : Unique Any serializeBool value :=
  .of_decodes (fun v _ => decodes_bool v) trivial

theorem unique_uuid (uuid : Uuid) : Unique Any serializeUuid uuid :=
  .of_decodes (fun v _ => decodes_uuid v) trivial

theorem ofNat_injOn {w bound m n : Nat} (hbound : bound ≤ 2 ^ w) (hm : m < bound) (hn : n < bound)
    (h : BitVec.ofNat w m = BitVec.ofNat w n) : m = n := by
  have htoNat := congrArg BitVec.toNat h
  rwa [BitVec.toNat_ofNat, BitVec.toNat_ofNat, Nat.mod_eq_of_lt (by omega),
    Nat.mod_eq_of_lt (by omega)] at htoNat

/-- A count of a fixed width. -/
theorem unique_count {w bound n : Nat} (hw : w = 8 * (w / 8)) (hbound : bound ≤ 2 ^ w)
    (hn : n < bound) : Unique (· < bound) (fun n => serializeInt (BitVec.ofNat w n)) n :=
  (unique_int hw _).comap (fun _ _ => trivial) fun _ hm h => ofNat_injOn hbound hn hm h

/-- A count as a varint. -/
theorem unique_varCount {n : Nat} (hn : n < 2 ^ 31) :
    Unique (· < 2 ^ 31) (fun n => serializeVarInt (BitVec.ofNat 32 n)) n :=
  (unique_varInt _).comap (fun _ _ => trivial) fun _ hm h => ofNat_injOn (by decide) hn hm h

theorem unique_string {str : Bytes} (h : str.length < 2 ^ 31) :
    Unique (fun str : Bytes => str.length < 2 ^ 31) serializeString str :=
  .sized (unique_varCount h)

/-- A value of a variant that is always of one alternative, which any value can fill. -/
theorem unique_alternative {α γ : Type} {S : α → Prop} {enc : α → Buffer} {enc' : γ → Buffer}
    {f : γ → α} {c : γ} (h : Unique Any enc' c) (hS : ∀ b, S b → ∃ d, b = f d)
    (henc : ∀ d, enc (f d) = enc' d) : Unique S enc (f c) :=
  h.image (fun b hb => (hS b hb).imp fun _ hd => ⟨trivial, hd⟩) henc

/-! ## Encoders that can throw -/

/-- What an encoder writes if it does not throw. -/
def written {α : Type} (encode : α → Option Buffer) (a : α) : Buffer := (encode a).getD []

theorem eq_some_written {α : Type} {encode : α → Option Buffer} {a : α}
    (h : (encode a).isSome = true) : encode a = some (written encode a) := by
  obtain ⟨e, he⟩ := Option.isSome_iff_exists.mp h
  rw [written, he, Option.getD_some]

/-- A loop in which nothing is thrown. -/
theorem mapM_eq_some {α : Type} {encode : α → Option Buffer} {as : List α}
    (h : ∀ a ∈ as, (encode a).isSome = true) :
    as.mapM encode = some (as.map (written encode)) := by
  induction as with
  | nil => rfl
  | cons a as ih =>
    rw [List.mapM_cons, eq_some_written (h a List.mem_cons_self),
      ih fun b hb => h b (List.mem_cons_of_mem _ hb)]
    rfl

end Vitamine
