import Vitamine.Lib.Cursor
import Vitamine.Proxyd.Serialize

/-!
# Reading values (`proxyd/deserialize.hpp`)

The functions of the source take a pointer and a size by reference, move both forward, and return
a `DeserializeStatus`. Here they are readers over a `Cursor`: `OK` is a result, and the two other
statuses are errors, after which the cursor is where the function left it.

Each function has one lemma for each property of readers: it decodes what the function of
`Serialize` writes (`decodes_*`), and all its verdicts but `errorDataIncomplete` stay when more
bytes follow (`streaming_*`).
-/

namespace Vitamine

open Wire

def VARINT32_MAX_LENGTH : Nat := 5

/-- `DeserializeStatus` other than `OK`, and the exception of the functions that are not
implemented yet. -/
inductive DeserializeError where
  | errorDataIncomplete
  | errorDataInvalid
  | runtimeError
  deriving DecidableEq

/-- The verdicts that more input does not change. -/
def Final (e : DeserializeError) : Prop := e ≠ .errorDataIncomplete

/-- The statuses: every error but the exception. -/
def Status (e : DeserializeError) : Prop := e = .errorDataIncomplete ∨ e = .errorDataInvalid

abbrev Deserializer (α : Type) := Reader Byte DeserializeError α

/-- The `do … while` of `deserializeVarInt` with `rounds` rounds left before
`count == VARINT32_MAX_LENGTH`: the number and how many bytes it took. -/
def varIntLoop (c : Cursor Byte) : Nat → Nat → BitVec 32 → Except DeserializeError (BitVec 32 × Nat)
  | 0, _, _ => .error .errorDataInvalid
  | rounds + 1, count, result =>
    if h : c.size ≤ count then .error .errorDataIncomplete
    else
      have := Nat.lt_of_lt_of_le (Nat.lt_of_not_le h) c.size_le
      let tmp := c.bufp[count]
      let result := result ||| (tmp &&& 0x7f#8).zeroExtend 32 <<< (7 * count)
      if tmp &&& 0x80#8 ≠ 0 then varIntLoop c rounds (count + 1) result
      else .ok (result, count + 1)

def deserializeVarInt : Deserializer (BitVec 32) := fun c =>
  match varIntLoop c VARINT32_MAX_LENGTH 0 0 with
  | .ok (result, count) => .ok result (c.advance count)
  | .error e => .error e c

/-- The block is the memory from the pointer on. -/
def deserializeBytes (blockSize : Nat) : Deserializer Bytes := fun c =>
  if c.size < blockSize then .error .errorDataIncomplete c
  else .ok (c.bufp.take blockSize) (c.advance blockSize)

def deserializeInt (w : Nat) : Deserializer (BitVec w) := do
  let ptr ← deserializeBytes (w / 8)
  pure (BitVec.ofNat w (ofBigEndian ptr))

def deserializeFloat (w : Nat) : Deserializer (BitVec w) := deserializeInt w

def deserializeBool : Deserializer Bool := do
  let val ← deserializeInt 8
  if 1 < val.toNat then throw .errorDataInvalid
  else pure (decide (val ≠ 0))

def deserializeString : Deserializer Bytes := do
  let length ← deserializeVarInt
  if length.toInt < 0 then throw .errorDataInvalid
  else deserializeBytes length.toNat

def deserializeImplicitTailBytes : Deserializer Bytes := fun c =>
  .ok (c.bufp.take c.size) (c.advance c.size)

/-- The two `std::memcpy` back into a UUID. -/
def Uuid.ofHalves (lo hi : BitVec 64) : Uuid :=
  ⟨toLittleEndian 8 lo.toNat ++ toLittleEndian 8 hi.toNat, by simp [toLittleEndian]⟩

def deserializeUuid : Deserializer Uuid := do
  let hi ← deserializeInt 64
  let lo ← deserializeInt 64
  pure (Uuid.ofHalves lo hi)

/-! ## One round of the varint loop -/

theorem and_0x7f : ∀ b : Byte, (b &&& 0x7f#8).toNat = b.toNat % 128 := by decide

theorem and_0x80 : ∀ b : Byte, b &&& 0x80#8 ≠ 0 ↔ 128 ≤ b.toNat := by decide

/-- A round adds its seven bits above those that are there; what is above the top is lost. -/
theorem toNat_varInt_round {result : BitVec 32} {tmp : Byte} {count : Nat}
    (hr : result.toNat < 2 ^ (7 * count)) :
    (result ||| (tmp &&& 0x7f#8).zeroExtend 32 <<< (7 * count)).toNat =
      (result.toNat + tmp.toNat % 128 * 2 ^ (7 * count)) % 2 ^ 32 := by
  have hz : ((tmp &&& 0x7f#8).zeroExtend 32).toNat = tmp.toNat % 128 := by
    simp only [BitVec.truncate_eq_setWidth, BitVec.toNat_setWidth, and_0x7f]
    omega
  rw [BitVec.toNat_or, BitVec.toNat_shiftLeft, hz, Nat.shiftLeft_eq, ← Nat.add_mod_mod]
  have hlt := result.isLt
  generalize hj : 7 * count = j at hr
  by_cases htop : 32 ≤ j
  · -- The bits of the round are all above the top.
    obtain ⟨m, hm⟩ := Nat.pow_dvd_pow 2 htop
    rw [hm, Nat.mul_left_comm, Nat.mul_mod_right, Nat.or_zero, Nat.add_zero, Nat.mod_eq_of_lt hlt]
  · have hsplit : 2 ^ 32 = 2 ^ (32 - j) * 2 ^ j := by rw [← Nat.pow_add]; congr 1; omega
    have hmod : tmp.toNat % 128 * 2 ^ j % 2 ^ 32 = tmp.toNat % 128 % 2 ^ (32 - j) * 2 ^ j := by
      rw [hsplit, Nat.mul_mod_mul_right]
    have hlow := Nat.mul_le_mul_right (2 ^ j)
      (Nat.mod_lt (tmp.toNat % 128) (Nat.two_pow_pos (32 - j)))
    rw [← hsplit, Nat.succ_mul] at hlow
    have hsum : result.toNat + tmp.toNat % 128 % 2 ^ (32 - j) * 2 ^ j < 2 ^ 32 := by omega
    rw [hmod, Nat.mod_eq_of_lt hsum, Nat.or_comm, Nat.mul_comm,
      ← Nat.two_pow_add_eq_or_of_lt hr, Nat.add_comm]

/-- The loop on the bytes `bs` of a varint that starts at `count`. -/
theorem varIntLoop_eq (c : Cursor Byte) {bs r : Bytes} (hbs : VarIntBytes bs) {rounds count : Nat}
    {result : BitVec 32} (hlen : bs.length ≤ rounds) (hv : c.view.drop count = bs ++ r)
    (hr : result.toNat < 2 ^ (7 * count)) :
    varIntLoop c rounds count result =
      .ok (BitVec.ofNat 32 (result.toNat + varIntValue bs * 2 ^ (7 * count)),
        count + bs.length) := by
  induction bs generalizing rounds count result with
  | nil => exact hbs.elim
  | cons b bs ih =>
    obtain ⟨rounds, rfl⟩ : ∃ n, rounds = n + 1 := ⟨rounds - 1, by simp at hlen; omega⟩
    have hsize : count < c.size := by
      have := congrArg List.length hv
      simp at this; omega
    have hbound : count < c.bufp.length := Nat.lt_of_lt_of_le hsize c.size_le
    have htmp : c.bufp[count] = b := by
      rw [Cursor.getElem_bufp c hbound (by simpa using hsize)]
      have h0 : (c.view.drop count)[0]? = some b := by rw [hv]; rfl
      rw [List.getElem?_drop, Nat.add_zero] at h0
      exact (List.getElem?_eq_some_iff.mp h0).2
    have hexp : varIntValue (b :: bs) * 2 ^ (7 * count) =
        b.toNat % 128 * 2 ^ (7 * count) + varIntValue bs * 2 ^ (7 * (count + 1)) := by
      rw [varIntValue, Nat.add_mul, Nat.mul_add 7, Nat.pow_add]
      ring
    have hround := @toNat_varInt_round _ b _ hr
    rw [varIntLoop, dif_neg (by omega), hexp]
    simp only [htmp, and_0x80]
    cases bs with
    | nil =>
      -- The last byte ends the loop.
      have hlast : b.toNat < 128 := hbs
      rw [if_neg (by omega)]
      congr 2
      apply BitVec.eq_of_toNat_eq
      rw [hround, BitVec.toNat_ofNat, varIntValue, Nat.zero_mul, Nat.add_zero]
    | cons b' bs =>
      obtain ⟨hb, hbs'⟩ := hbs
      have hnext : (result ||| (b &&& 0x7f#8).zeroExtend 32 <<< (7 * count)).toNat <
          2 ^ (7 * (count + 1)) := by
        have := Nat.mul_le_mul_right (2 ^ (7 * count)) (show b.toNat % 128 ≤ 127 by omega)
        rw [hround, Nat.mul_add 7, Nat.pow_add]
        exact lt_of_le_of_lt (Nat.mod_le _ _) (by omega)
      rw [if_pos hb, ih hbs' (by simpa using hlen) (by rw [← List.drop_drop, hv]; rfl) hnext,
        hround]
      congr 2
      · apply BitVec.eq_of_toNat_eq
        rw [BitVec.toNat_ofNat, BitVec.toNat_ofNat, Nat.mod_add_mod, Nat.add_assoc]
      · simp only [List.length_cons, Nat.add_assoc, Nat.add_comm 1]

/-! ## Decoding what was written -/

theorem decodes_varInt (v : BitVec 32) : Decodes deserializeVarInt (serializeVarInt v) v := by
  intro c r hc
  obtain ⟨hbs, hval⟩ := encodeVarInt32_spec v
  have h := @varIntLoop_eq c _ r hbs VARINT32_MAX_LENGTH 0 0
    (length_encodeVarInt32_le v) (by rw [List.drop_zero]; exact hc) (by decide)
  rw [hval] at h
  simp only [deserializeVarInt, serializeVarInt, h]
  simp

theorem decodes_bytes (data : Bytes) : Decodes (deserializeBytes data.length) data data := by
  intro c r hc
  have hsize : data.length ≤ c.size := by
    have := congrArg List.length hc
    simp at this; omega
  have htake : c.bufp.take data.length = data := by
    have h := congrArg (List.take data.length) hc
    rwa [Cursor.view, List.take_take, Nat.min_eq_left hsize, List.take_left] at h
  simp only [deserializeBytes]
  rw [if_neg (by omega), htake]

theorem decodes_int {w : Nat} (hw : w = 8 * (w / 8)) (v : BitVec w) :
    Decodes (deserializeInt w) (serializeInt v) v := by
  have h := (decodes_bytes (serializeInt v)).map fun ptr => BitVec.ofNat w (ofBigEndian ptr)
  have hlen : (serializeInt v).length = w / 8 := length_toBigEndian _ _
  rw [hlen, serializeInt, ofNat_ofBigEndian_toBigEndian hw] at h
  exact h

theorem decodes_float {w : Nat} (hw : w = 8 * (w / 8)) (v : BitVec w) :
    Decodes (deserializeFloat w) (serializeFloat v) v := decodes_int hw v

theorem decodes_bool (v : Bool) : Decodes deserializeBool (serializeBool v) v := by
  refine (decodes_int (by decide) (if v then 1#8 else 0#8)).bind_nil ?_
  cases v <;> exact Decodes.pure _

/-- A length below `2 ^ 31` is its `Int32`, and that is not negative. -/
theorem toNat_spanSize {α : Type} {s : List α} (h : s.length < 2 ^ 31) :
    (spanSize s).toNat = s.length ∧ ¬ (spanSize s).toInt < 0 := by
  have hn : (spanSize s).toNat = s.length := by
    simp only [spanSize, BitVec.toNat_ofNat]
    omega
  refine ⟨hn, ?_⟩
  rw [BitVec.toInt_eq_toNat_of_lt (by omega), hn]
  omega

theorem decodes_string {str : Bytes} (h : str.length < 2 ^ 31) :
    Decodes deserializeString (serializeString str) str := by
  obtain ⟨hn, hneg⟩ := toNat_spanSize h
  refine (decodes_varInt (spanSize str)).bind ?_
  rw [if_neg hneg, hn]
  exact decodes_bytes str

theorem Uuid.ofHalves_lo_hi (uuid : Uuid) : Uuid.ofHalves uuid.lo uuid.hi = uuid := by
  have back : ∀ bs : Bytes, bs.length = 8 →
      toLittleEndian 8 (BitVec.ofNat 64 (ofLittleEndian bs)).toNat = bs := by
    intro bs hbs
    have hlt : ofLittleEndian bs < 2 ^ 64 := by
      have h := ofLittleEndian_lt bs
      rw [hbs] at h
      exact Nat.lt_of_lt_of_le h (by decide)
    rw [BitVec.toNat_ofNat, Nat.mod_eq_of_lt hlt, ← hbs, toLittleEndian_ofLittleEndian]
  obtain ⟨bytes, hlen⟩ := uuid
  simp only [Uuid.ofHalves, Uuid.lo, Uuid.hi, mk.injEq]
  rw [back _ (by simp [hlen]), back _ (by simp [hlen]), List.take_append_drop]

theorem ofNat_ofLittleEndian (v : BitVec 64) :
    BitVec.ofNat 64 (ofLittleEndian (toLittleEndian 8 v.toNat)) = v := by
  have hv : v.toNat < 256 ^ 8 := Nat.lt_of_lt_of_le v.isLt (by decide)
  rw [ofLittleEndian_toLittleEndian, Nat.mod_eq_of_lt hv, BitVec.ofNat_toNat, BitVec.setWidth_eq]

theorem Uuid.lo_ofHalves (lo hi : BitVec 64) : (Uuid.ofHalves lo hi).lo = lo := by
  rw [Uuid.lo, Uuid.ofHalves, List.take_left' (by simp [toLittleEndian]), ofNat_ofLittleEndian]

theorem Uuid.hi_ofHalves (lo hi : BitVec 64) : (Uuid.ofHalves lo hi).hi = hi := by
  rw [Uuid.hi, Uuid.ofHalves, List.drop_left' (by simp [toLittleEndian]), ofNat_ofLittleEndian]

theorem decodes_uuid (uuid : Uuid) : Decodes deserializeUuid (serializeUuid uuid) uuid := by
  have h := (decodes_int (by decide) uuid.hi).bind
    ((decodes_int (by decide) uuid.lo).map fun lo => Uuid.ofHalves lo uuid.hi)
    (f := fun hi => do
      let lo ← deserializeInt 64
      pure (Uuid.ofHalves lo hi))
  rw [Uuid.ofHalves_lo_hi] at h
  exact h

/-- The tail is everything that is left. -/
theorem deserializeImplicitTailBytes_eq (c : Cursor Byte) :
    deserializeImplicitTailBytes c = .ok c.view (c.advance c.view.length) := by
  simp [deserializeImplicitTailBytes, Cursor.view, c.size_le]

/-! ## Verdicts that stay -/

/-- The loop looks at the bytes of the view only. -/
theorem varIntLoop_isPrefix {c c' : Cursor Byte} (h : c.view <+: c'.view) (rounds count : Nat)
    (result : BitVec 32) :
    (∀ v k, varIntLoop c rounds count result = .ok (v, k) →
      k ≤ c.size ∧ varIntLoop c' rounds count result = .ok (v, k)) ∧
    (∀ e, varIntLoop c rounds count result = .error e → Final e →
      varIntLoop c' rounds count result = .error e) := by
  induction rounds generalizing count result with
  | zero => exact ⟨fun v k he => (by cases he), fun e he _ => he⟩
  | succ rounds ih =>
    have hsz := Cursor.size_le_of_isPrefix h
    by_cases hc : c.size ≤ count
    · rw [varIntLoop, dif_pos hc]
      refine ⟨fun v k he => (by cases he), fun e he hfin => ?_⟩
      cases he
      exact absurd rfl hfin
    · have hlt := Nat.lt_of_not_le hc
      have hget := Cursor.getElem_of_isPrefix h hlt (Nat.lt_of_lt_of_le hlt c.size_le)
        (Nat.lt_of_lt_of_le (Nat.lt_of_lt_of_le hlt hsz) c'.size_le)
      rw [varIntLoop, varIntLoop, dif_neg hc, dif_neg (by omega)]
      simp only [hget]
      split
      · exact ih _ _
      · refine ⟨fun v k he => ?_, fun e he => (by cases he)⟩
        obtain ⟨rfl, rfl⟩ := Prod.mk.inj (Except.ok.inj he)
        exact ⟨by omega, rfl⟩

theorem streaming_varInt : Streaming Final deserializeVarInt := by
  intro c c' h
  obtain ⟨hok, herr⟩ := varIntLoop_isPrefix h VARINT32_MAX_LENGTH 0 0
  unfold deserializeVarInt
  cases hl : varIntLoop c VARINT32_MAX_LENGTH 0 0 with
  | ok p =>
    obtain ⟨v, k⟩ := p
    obtain ⟨hk, hl'⟩ := hok v k hl
    refine ⟨fun a d he => ?_, fun e d he => (by cases he)⟩
    obtain ⟨rfl, rfl⟩ := EStateM.Result.ok.inj he
    exact ⟨k, hk, rfl, by rw [hl']⟩
  | error e =>
    refine ⟨fun a d he => (by cases he), fun e' d he hfin => ?_⟩
    obtain ⟨rfl, rfl⟩ := EStateM.Result.error.inj he
    exact ⟨0, Nat.zero_le _, by rw [herr _ hl hfin, Cursor.advance_zero]⟩

/-- The loop takes at least the byte at `count`. -/
theorem varIntLoop_ok_lt {c : Cursor Byte} {rounds count k : Nat} {result v : BitVec 32}
    (h : varIntLoop c rounds count result = .ok (v, k)) : count < k ∧ k ≤ c.size := by
  induction rounds generalizing count result with
  | zero => cases h
  | succ rounds ih =>
    rw [varIntLoop] at h
    split at h
    · cases h
    · simp only at h
      split at h
      · obtain ⟨h1, h2⟩ := ih h
        exact ⟨by omega, h2⟩
      · obtain ⟨-, rfl⟩ := Prod.mk.inj (Except.ok.inj h)
        exact ⟨by omega, by omega⟩

theorem varIntLoop_error {c : Cursor Byte} {rounds count : Nat} {result : BitVec 32}
    {e : DeserializeError} (h : varIntLoop c rounds count result = .error e) : Status e := by
  induction rounds generalizing count result with
  | zero => cases h; exact .inr rfl
  | succ rounds ih =>
    rw [varIntLoop] at h
    split at h
    · cases h; exact .inl rfl
    · simp only at h
      split at h
      · exact ih h
      · cases h

theorem throws_varInt : Throws Status deserializeVarInt := by
  intro c e d h
  unfold deserializeVarInt at h
  split at h <;> rename_i hl
  · cases h
  · obtain ⟨rfl, -⟩ := EStateM.Result.error.inj h
    exact varIntLoop_error hl

theorem throws_bytes (n : Nat) : Throws Status (deserializeBytes n) := by
  intro c e d h
  unfold deserializeBytes at h
  split at h
  · obtain ⟨rfl, -⟩ := EStateM.Result.error.inj h
    exact .inl rfl
  · cases h

theorem consumes_varInt : Consumes deserializeVarInt := by
  intro c v d h
  unfold deserializeVarInt at h
  split at h <;> rename_i hl
  · obtain ⟨-, rfl⟩ := EStateM.Result.ok.inj h
    obtain ⟨h1, h2⟩ := varIntLoop_ok_lt hl
    rw [Cursor.size_advance]
    omega
  · cases h

theorem streaming_bytes (n : Nat) : Streaming Final (deserializeBytes n) := by
  intro c c' h
  have hsz := Cursor.size_le_of_isPrefix h
  unfold deserializeBytes
  split
  · refine ⟨fun a d he => (by cases he), fun e d he hfin => ?_⟩
    obtain ⟨rfl, -⟩ := EStateM.Result.error.inj he
    exact absurd rfl hfin
  · refine ⟨fun a d he => ?_, fun e d he => (by cases he)⟩
    obtain ⟨rfl, rfl⟩ := EStateM.Result.ok.inj he
    exact ⟨n, by omega, rfl, by rw [if_neg (by omega), Cursor.take_of_isPrefix h (by omega)]⟩

end Vitamine
