import Mathlib.Data.List.GetD
import Mathlib.Tactic.LinearCombination
import Vitamine.Lib.BitArray

/-!
# Packing entries of a few bits (`proxyd/bitpack.hpp`)

The two packers as they are written: a group of entries at a time, each group into whole words by
shifts, and the words as a little-endian host stores them.

* `number_bitpack16to14`, `number_bitpack16to9`: what comes out are the bits of the entries, one
  after the other.
* `bitpack16to14_packs`, `bitpack16to9_packs`: the bits of an entry are where they belong.
* `readBits_bitpack16to14`, `readBits_bitpack16to9`: read as words of 64 bits, they give the entries
  back.
-/

namespace Vitamine

open Wire

/-- `std::memcpy` of words. -/
def bytesOf (words : List (BitVec 64)) : Bytes :=
  words.flatMap fun word => toLittleEndian 8 word.toNat

/-- `AT(n)` of `bitpack16to14`: the lowest fourteen bits. -/
def at16to14 (input : List (BitVec 16)) (n : Nat) : BitVec 64 :=
  (input.getD n 0 &&& 0x3fff#16).zeroExtend 64

/-- `buf` of a group of 32 entries. -/
def buf16to14 (AT : Nat → BitVec 64) : List (BitVec 64) :=
  [AT 0 ||| AT 1 <<< 14 ||| AT 2 <<< 28 ||| AT 3 <<< 42 ||| AT 4 <<< 56,
   AT 4 >>> 8 ||| AT 5 <<< 6 ||| AT 6 <<< 20 ||| AT 7 <<< 34 ||| AT 8 <<< 48 ||| AT 9 <<< 62,
   AT 9 >>> 2 ||| AT 10 <<< 12 ||| AT 11 <<< 26 ||| AT 12 <<< 40 ||| AT 13 <<< 54,
   AT 13 >>> 10 ||| AT 14 <<< 4 ||| AT 15 <<< 18 ||| AT 16 <<< 32 ||| AT 17 <<< 46 |||
     AT 18 <<< 60,
   AT 18 >>> 4 ||| AT 19 <<< 10 ||| AT 20 <<< 24 ||| AT 21 <<< 38 ||| AT 22 <<< 52,
   AT 22 >>> 12 ||| AT 23 <<< 2 ||| AT 24 <<< 16 ||| AT 25 <<< 30 ||| AT 26 <<< 44 |||
     AT 27 <<< 58,
   AT 27 >>> 6 ||| AT 28 <<< 8 ||| AT 29 <<< 22 ||| AT 30 <<< 36 ||| AT 31 <<< 50]

/-- The loop; `input` is what is left of `in`. -/
def bitpack16to14 (input : List (BitVec 16)) : Bytes :=
  if 32 ≤ input.length then
    bytesOf (buf16to14 (at16to14 input)) ++ bitpack16to14 (input.drop 32)
  else []
termination_by input.length

/-- `AT(n)` of `bitpack16to9`: nothing is masked. -/
def at16to9 (input : List (BitVec 16)) (n : Nat) : BitVec 64 := (input.getD n 0).zeroExtend 64

/-- `lower` of a group of eight entries. -/
def lower16to9 (AT : Nat → BitVec 64) : BitVec 64 :=
  AT 0 ||| AT 1 <<< 9 ||| AT 2 <<< 18 ||| AT 3 <<< 27 ||| AT 4 <<< 36 ||| AT 5 <<< 45 |||
    AT 6 <<< 54 ||| AT 7 <<< 63

/-- `upper` of a group, stored into a `UInt8`. -/
def upper16to9 (AT : Nat → BitVec 64) : Byte := (AT 7 >>> 1).truncate 8

def bitpack16to9 (input : List (BitVec 16)) : Bytes :=
  if 8 ≤ input.length then
    bytesOf [lower16to9 (at16to9 input)] ++ [upper16to9 (at16to9 input)] ++
      bitpack16to9 (input.drop 8)
  else []
termination_by input.length

/-! ## Fields of a word -/

/-- One more field, of `f` bits, above the `k` that are there. -/
theorem toNat_or_field {x z : BitVec 64} {n k f : Nat} (hx : x.toNat = n ∧ n < 2 ^ k)
    (hz : z.toNat < 2 ^ f) (hk : k + f ≤ 64) :
    (x ||| z <<< k).toNat = n + z.toNat * 2 ^ k ∧ n + z.toNat * 2 ^ k < 2 ^ (k + f) := by
  obtain ⟨rfl, hn⟩ := hx
  have hfit : z.toNat < 2 ^ (64 - k) :=
    lt_of_lt_of_le hz (Nat.pow_le_pow_right (by decide) (by omega))
  have hmul := Nat.mul_le_mul_right (2 ^ k) hz
  rw [Nat.succ_mul, Nat.mul_comm (2 ^ f), ← Nat.pow_add] at hmul
  rw [toNat_or_shiftLeft hn (by omega), Nat.mod_eq_of_lt hfit]
  exact ⟨rfl, by omega⟩

/-- The last field of a word goes on in the next one. -/
theorem toNat_or_last {x z : BitVec 64} {n k : Nat} (hx : x.toNat = n ∧ n < 2 ^ k) (hk : k ≤ 64) :
    (x ||| z <<< k).toNat = n + z.toNat % 2 ^ (64 - k) * 2 ^ k := by
  obtain ⟨rfl, hn⟩ := hx
  exact toNat_or_shiftLeft hn hk

/-- The field that a word begins with: what is left of the last one of the word before. -/
theorem toNat_first {z : BitVec 64} {k f : Nat} (hz : z.toNat < 2 ^ f) (hk : k ≤ f) :
    (z >>> k).toNat = z.toNat / 2 ^ k ∧ z.toNat / 2 ^ k < 2 ^ (f - k) := by
  rw [BitVec.toNat_ushiftRight, Nat.shiftRight_eq_div_pow]
  refine ⟨rfl, Nat.div_lt_of_lt_mul ?_⟩
  rwa [← Nat.pow_add, Nat.add_sub_cancel' hk]

/-- A word that begins in the middle of an entry and has room for part of a fourth one. -/
theorem toNat_word {x a b c d : BitVec 64} {n k : Nat} (hx : x.toNat = n ∧ n < 2 ^ k)
    (ha : a.toNat < 2 ^ 14) (hb : b.toNat < 2 ^ 14) (hc : c.toNat < 2 ^ 14) (hk : k ≤ 22) :
    (x ||| a <<< k ||| b <<< (k + 14) ||| c <<< (k + 14 + 14) ||| d <<< (k + 14 + 14 + 14)).toNat =
      n + a.toNat * 2 ^ k + b.toNat * 2 ^ (k + 14) + c.toNat * 2 ^ (k + 14 + 14) +
        d.toNat % 2 ^ (64 - (k + 14 + 14 + 14)) * 2 ^ (k + 14 + 14 + 14) :=
  toNat_or_last (toNat_or_field (toNat_or_field (toNat_or_field hx ha (by omega)) hb (by omega)) hc
    (by omega)) (by omega)

/-- A word with room for part of a fifth one. -/
theorem toNat_word_five {x a b c d e : BitVec 64} {n k : Nat} (hx : x.toNat = n ∧ n < 2 ^ k)
    (ha : a.toNat < 2 ^ 14) (hb : b.toNat < 2 ^ 14) (hc : c.toNat < 2 ^ 14) (hd : d.toNat < 2 ^ 14)
    (hk : k ≤ 8) :
    (x ||| a <<< k ||| b <<< (k + 14) ||| c <<< (k + 14 + 14) ||| d <<< (k + 14 + 14 + 14) |||
        e <<< (k + 14 + 14 + 14 + 14)).toNat =
      n + a.toNat * 2 ^ k + b.toNat * 2 ^ (k + 14) + c.toNat * 2 ^ (k + 14 + 14) +
        d.toNat * 2 ^ (k + 14 + 14 + 14) +
          e.toNat % 2 ^ (64 - (k + 14 + 14 + 14 + 14)) * 2 ^ (k + 14 + 14 + 14 + 14) :=
  toNat_or_last (toNat_or_field (toNat_or_field (toNat_or_field (toNat_or_field hx ha (by omega)) hb
    (by omega)) hc (by omega)) hd (by omega)) (by omega)

/-- A group of 32 entries fills seven words. -/
theorem number_buf16to14 {AT : Nat → BitVec 64} (h : ∀ n, (AT n).toNat < 2 ^ 14) :
    number (buf16to14 AT) = number ((List.range 32).map fun n => (AT n).truncate 14) := by
  have htrunc : ∀ n, ((AT n).truncate 14).toNat = (AT n).toNat := fun n => by
    rw [BitVec.truncate_eq_setWidth, BitVec.toNat_setWidth, Nat.mod_eq_of_lt (h n)]
  have hfirst := fun n k (hk : k ≤ 14) => @toNat_first _ k _ (h n) hk
  have h0 : (AT 0 ||| AT 1 <<< 14 ||| AT 2 <<< 28 ||| AT 3 <<< 42 ||| AT 4 <<< 56).toNat = _ :=
    toNat_word ⟨rfl, h 0⟩ (h 1) (h 2) (h 3) (by decide)
  have h1 : (AT 4 >>> 8 ||| AT 5 <<< 6 ||| AT 6 <<< 20 ||| AT 7 <<< 34 ||| AT 8 <<< 48 |||
      AT 9 <<< 62).toNat = _ :=
    toNat_word_five (hfirst 4 8 (by decide)) (h 5) (h 6) (h 7) (h 8) (by decide)
  have h2 : (AT 9 >>> 2 ||| AT 10 <<< 12 ||| AT 11 <<< 26 ||| AT 12 <<< 40 |||
      AT 13 <<< 54).toNat = _ :=
    toNat_word (hfirst 9 2 (by decide)) (h 10) (h 11) (h 12) (by decide)
  have h3 : (AT 13 >>> 10 ||| AT 14 <<< 4 ||| AT 15 <<< 18 ||| AT 16 <<< 32 ||| AT 17 <<< 46 |||
      AT 18 <<< 60).toNat = _ :=
    toNat_word_five (hfirst 13 10 (by decide)) (h 14) (h 15) (h 16) (h 17) (by decide)
  have h4 : (AT 18 >>> 4 ||| AT 19 <<< 10 ||| AT 20 <<< 24 ||| AT 21 <<< 38 |||
      AT 22 <<< 52).toNat = _ :=
    toNat_word (hfirst 18 4 (by decide)) (h 19) (h 20) (h 21) (by decide)
  have h5 : (AT 22 >>> 12 ||| AT 23 <<< 2 ||| AT 24 <<< 16 ||| AT 25 <<< 30 ||| AT 26 <<< 44 |||
      AT 27 <<< 58).toNat = _ :=
    toNat_word_five (hfirst 22 12 (by decide)) (h 23) (h 24) (h 25) (h 26) (by decide)
  have h6 : (AT 27 >>> 6 ||| AT 28 <<< 8 ||| AT 29 <<< 22 ||| AT 30 <<< 36 |||
      AT 31 <<< 50).toNat = _ :=
    toNat_word (hfirst 27 6 (by decide)) (h 28) (h 29) (h 30) (by decide)
  have hlast : (AT 31).toNat % 2 ^ 14 = (AT 31).toNat := Nat.mod_eq_of_lt (h 31)
  simp only [buf16to14, number, h0, h1, h2, h3, h4, h5, h6, List.range, List.range.loop, List.map,
    htrunc, Nat.reduceAdd, Nat.reduceSub, hlast]
  -- An entry that two words share is its two parts.
  have hparts := fun n k => Nat.div_add_mod (AT n).toNat (2 ^ k)
  linear_combination 2 ^ 56 * hparts 4 8 + 2 ^ 64 * 2 ^ 62 * hparts 9 2 +
    (2 ^ 64) ^ 2 * 2 ^ 54 * hparts 13 10 + (2 ^ 64) ^ 3 * 2 ^ 60 * hparts 18 4 +
    (2 ^ 64) ^ 4 * 2 ^ 52 * hparts 22 12 + (2 ^ 64) ^ 5 * 2 ^ 58 * hparts 27 6

/-- A group of eight entries of nine bits fills nine bytes. -/
theorem number_group16to9 {AT : Nat → BitVec 64} (h : ∀ n, (AT n).toNat < 2 ^ 9) :
    (lower16to9 AT).toNat + 2 ^ 64 * (upper16to9 AT).toNat =
      number ((List.range 8).map fun n => (AT n).truncate 9) := by
  have htrunc : ∀ n, ((AT n).truncate 9).toNat = (AT n).toNat := fun n => by
    rw [BitVec.truncate_eq_setWidth, BitVec.toNat_setWidth, Nat.mod_eq_of_lt (h n)]
  have hlower : (lower16to9 AT).toNat = _ :=
    toNat_or_last (toNat_or_field (toNat_or_field (toNat_or_field (toNat_or_field
      (toNat_or_field (toNat_or_field ⟨rfl, h 0⟩ (h 1) (by decide)) (h 2) (by decide)) (h 3)
      (by decide)) (h 4) (by decide)) (h 5) (by decide)) (h 6) (by decide)) (by decide)
  have hupper : (upper16to9 AT).toNat = (AT 7).toNat / 2 ^ 1 := by
    have hlt := h 7
    rw [upper16to9, BitVec.truncate_eq_setWidth, BitVec.toNat_setWidth, BitVec.toNat_ushiftRight,
      Nat.shiftRight_eq_div_pow]
    omega
  have hparts := Nat.div_add_mod (AT 7).toNat (2 ^ 1)
  simp only [hlower, hupper, number, List.range, List.range.loop, List.map, htrunc, Nat.reduceAdd,
    Nat.reduceSub]
  linear_combination 2 ^ 63 * hparts

/-! ## The loops -/

theorem length_bytesOf (words : List (BitVec 64)) : (bytesOf words).length = 8 * words.length := by
  induction words with
  | nil => rfl
  | cons word words ih =>
    rw [bytesOf, List.flatMap_cons, List.length_append, ← bytesOf, ih, toLittleEndian,
      List.length_reverse, length_toBigEndian, List.length_cons]
    omega

theorem number_bytesOf (words : List (BitVec 64)) : number (bytesOf words) = number words := by
  induction words with
  | nil => rfl
  | cons word words ih =>
    have hword : number (toLittleEndian 8 word.toNat) = word.toNat := by
      rw [number_toLittleEndian]
      exact Nat.mod_eq_of_lt word.isLt
    have hlen : (toLittleEndian 8 word.toNat).length = 8 := by simp [toLittleEndian]
    rw [bytesOf, List.flatMap_cons, number_append, ← bytesOf, ih, hword, hlen, number]

theorem toNat_at16to14 (input : List (BitVec 16)) (n : Nat) :
    (at16to14 input n).toNat = (input.getD n 0).toNat % 2 ^ 14 := by
  have hmask : (input.getD n 0 &&& 0x3fff#16).toNat = (input.getD n 0).toNat % 2 ^ 14 := by
    rw [BitVec.toNat_and]
    exact Nat.and_two_pow_sub_one_eq_mod _ 14
  show (BitVec.setWidth 64 _).toNat = _
  rw [BitVec.toNat_setWidth, hmask]
  omega

theorem toNat_at16to9 (input : List (BitVec 16)) (n : Nat) :
    (at16to9 input n).toNat = (input.getD n 0).toNat := by
  have := (input.getD n 0).isLt
  show (BitVec.setWidth 64 _).toNat = _
  rw [BitVec.toNat_setWidth]
  omega

/-- A group of `n` entries that `AT` reads, and the entries behind it. -/
theorem number_map_group {f n : Nat} {AT : Nat → BitVec 64} {input : List (BitVec 16)}
    (h : n ≤ input.length) (hat : ∀ i, (AT i).truncate f = (input.getD i 0).truncate f) :
    number (input.map (BitVec.truncate f)) =
      number ((List.range n).map fun i => (AT i).truncate f) +
        2 ^ (f * n) * number ((input.drop n).map (BitVec.truncate f)) := by
  have hgroup : (List.range n).map (fun i => (AT i).truncate f) =
      (input.take n).map (BitVec.truncate f) := by
    simp only [hat]
    apply List.ext_getElem
    · simp [h]
    · intro i h1 h2
      simp only [List.length_map, List.length_range] at h1
      simp [List.getElem?_eq_getElem (Nat.lt_of_lt_of_le h1 h)]
  conv_lhs => rw [← List.take_append_drop n input]
  rw [List.map_append, number_append, List.length_map, List.length_take, Nat.min_eq_left h, hgroup]

/-- The packer of fourteen bits writes the lowest fourteen bits of the entries. -/
theorem number_bitpack16to14 (n : Nat) {input : List (BitVec 16)} (h : input.length = 32 * n) :
    (bitpack16to14 input).length = 56 * n ∧
      number (bitpack16to14 input) = number (input.map (BitVec.truncate 14)) := by
  induction n generalizing input with
  | zero =>
    obtain rfl := List.length_eq_zero_iff.mp h
    rw [bitpack16to14]
    exact ⟨rfl, rfl⟩
  | succ n ih =>
    obtain ⟨hlen, hnum⟩ := @ih (input.drop 32) (by rw [List.length_drop]; omega)
    have hat : ∀ i, (at16to14 input i).truncate 14 = (input.getD i 0).truncate 14 := by
      intro i
      apply BitVec.eq_of_toNat_eq
      simp only [BitVec.truncate_eq_setWidth, BitVec.toNat_setWidth, toNat_at16to14, Nat.mod_mod]
    have hgroup := number_buf16to14 fun i =>
      lt_of_eq_of_lt (toNat_at16to14 input i) (Nat.mod_lt _ (by decide))
    have hwords : (buf16to14 (at16to14 input)).length = 7 := rfl
    rw [bitpack16to14, if_pos (by omega)]
    constructor
    · rw [List.length_append, length_bytesOf, hwords, hlen]
      omega
    · rw [number_append, number_bytesOf, length_bytesOf, hwords, hnum, hgroup,
        @number_map_group 14 32 _ _ (by omega) hat]

/-- The packer of nine bits writes the entries, if they have no more. -/
theorem number_bitpack16to9 (n : Nat) {input : List (BitVec 16)} (h : input.length = 8 * n)
    (hlt : ∀ b ∈ input, b.toNat < 2 ^ 9) :
    (bitpack16to9 input).length = 9 * n ∧
      number (bitpack16to9 input) = number (input.map (BitVec.truncate 9)) := by
  induction n generalizing input with
  | zero =>
    obtain rfl := List.length_eq_zero_iff.mp h
    rw [bitpack16to9]
    exact ⟨rfl, rfl⟩
  | succ n ih =>
    obtain ⟨hlen, hnum⟩ := @ih (input.drop 8) (by rw [List.length_drop]; omega)
      fun b hb => hlt b (List.mem_of_mem_drop hb)
    have hat : ∀ i, (at16to9 input i).truncate 9 = (input.getD i 0).truncate 9 := by
      intro i
      apply BitVec.eq_of_toNat_eq
      simp only [BitVec.truncate_eq_setWidth, BitVec.toNat_setWidth, toNat_at16to9]
    have hsmall : ∀ i, (at16to9 input i).toNat < 2 ^ 9 := by
      intro i
      rw [toNat_at16to9]
      by_cases hi : i < input.length
      · rw [List.getD_eq_getElem _ _ hi]
        exact hlt _ (List.getElem_mem hi)
      · rw [List.getD_eq_default _ _ (Nat.le_of_not_lt hi)]
        decide
    have hgroup := number_group16to9 hsmall
    have hbytes : (bytesOf [lower16to9 (at16to9 input)]).length = 8 := length_bytesOf _
    rw [bitpack16to9, if_pos (by omega)]
    constructor
    · rw [List.length_append, List.length_append, hbytes, List.length_singleton, hlen]
      omega
    · rw [number_append, number_append, number_bytesOf, List.length_append, hbytes,
        List.length_singleton, hnum, @number_map_group 9 8 _ _ (by omega) hat, ← hgroup]
      simp only [number]
      omega

/-! ## Reading the entries -/

/-- An entry in words that have the bits of all entries: wherever it begins, its own bits are there,
cut to the width. -/
theorem readBits_packed {w f : Nat} {words : List (BitVec w)} {input : List (BitVec 16)}
    (hw : 0 < w) (h : number words = number (input.map (BitVec.truncate f))) (i : Nat) :
    readBits words f (f * i) = (input.getD i 0).toNat % 2 ^ f := by
  have hzero : (0 : BitVec f) = (0 : BitVec 16).truncate f := (BitVec.setWidth_zero ..).symm
  rw [readBits_of_number_eq hw h, hzero, List.getD_map, BitVec.truncate_eq_setWidth,
    BitVec.toNat_setWidth]

/-- **The packer of fourteen bits** writes the lowest fourteen bits of every entry where they
belong, whatever the two upper bits of the entries are. -/
theorem bitpack16to14_packs (input : List (BitVec 16)) (h : input.length % 32 = 0) :
    (bitpack16to14 input).length = 14 * input.length / 8 ∧
      ∀ i (hi : i < input.length),
        readBits (bitpack16to14 input) 14 (14 * i) = input[i].toNat % 2 ^ 14 := by
  obtain ⟨hlen, hnum⟩ := @number_bitpack16to14 (input.length / 32) input (by omega)
  refine ⟨by omega, fun i hi => ?_⟩
  rw [readBits_packed (by decide) hnum, List.getD_eq_getElem input 0 hi]

theorem bitpack16to14_packs_replicate :
    (bitpack16to14 (List.replicate 64 0xffff#16)).length = 112 ∧
      readBits (bitpack16to14 (List.replicate 64 0xffff#16)) 14 (14 * 36) = 0x3fff := by
  obtain ⟨hlen, hread⟩ := bitpack16to14_packs (List.replicate 64 0xffff#16) (by simp)
  have hentry := hread 36 (by simp)
  rw [List.getElem_replicate] at hentry
  exact ⟨hlen, hentry⟩

/-- **The packer of nine bits** writes every entry where it belongs, if no entry has more bits:
nothing is masked, and what is above the ninth bit would be in the next entry. -/
theorem bitpack16to9_packs (input : List (BitVec 16)) (h : input.length % 8 = 0)
    (hlt : ∀ b ∈ input, b.toNat < 2 ^ 9) :
    (bitpack16to9 input).length = 9 * input.length / 8 ∧
      ∀ i (hi : i < input.length), readBits (bitpack16to9 input) 9 (9 * i) = input[i].toNat := by
  obtain ⟨hlen, hnum⟩ := @number_bitpack16to9 (input.length / 8) input (by omega) hlt
  refine ⟨by omega, fun i hi => ?_⟩
  have hentry := hlt input[i] (List.getElem_mem hi)
  rw [readBits_packed (by decide) hnum, List.getD_eq_getElem input 0 hi, Nat.mod_eq_of_lt hentry]

/-- The last of sixteen entries is in the two last bytes: 135 bits are in front of it. -/
theorem bitpack16to9_packs_descending :
    (bitpack16to9 ((List.range 16).map fun n => BitVec.ofNat 16 (511 - n))).length = 18 ∧
      readBits (bitpack16to9 ((List.range 16).map fun n => BitVec.ofNat 16 (511 - n))) 9 (9 * 15) =
        496 := by
  have hlt : ∀ b ∈ (List.range 16).map fun n => BitVec.ofNat 16 (511 - n), b.toNat < 2 ^ 9 := by
    refine List.forall_mem_map.mpr fun n _ => ?_
    rw [BitVec.toNat_ofNat]
    omega
  obtain ⟨hlen, hread⟩ := bitpack16to9_packs
    ((List.range 16).map fun n => BitVec.ofNat 16 (511 - n)) (by simp) hlt
  have hentry := hread 15 (by simp)
  rw [List.getElem_map, List.getElem_range] at hentry
  rw [List.length_map, List.length_range] at hlen
  exact ⟨hlen, hentry⟩

theorem readBits_bitpack16to14 (n : Nat) {input : List (BitVec 16)} (h : input.length = 32 * n)
    (i : Nat) : readBits (wordsOf (bitpack16to14 input)) 14 (14 * i) =
      (input.getD i 0).toNat % 2 ^ 14 := by
  obtain ⟨hlen, hnum⟩ := number_bitpack16to14 n h
  have hwords := @number_wordsOf (7 * n) (bitpack16to14 input) (by omega)
  exact readBits_packed (by decide) (hwords.trans hnum) i

theorem readBits_bitpack16to9 (n : Nat) {input : List (BitVec 16)} (h : input.length = 64 * n)
    (hlt : ∀ b ∈ input, b.toNat < 2 ^ 9) (i : Nat) :
    readBits (wordsOf (bitpack16to9 input)) 9 (9 * i) = (input.getD i 0).toNat % 2 ^ 9 := by
  obtain ⟨hlen, hnum⟩ := number_bitpack16to9 (8 * n) (by omega) hlt
  have hwords := @number_wordsOf (9 * n) (bitpack16to9 input) (by omega)
  exact readBits_packed (by decide) (hwords.trans hnum) i

end Vitamine
