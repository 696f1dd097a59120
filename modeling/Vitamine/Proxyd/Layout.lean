import Vitamine.Proxyd.Packets

/-!
# What an accepted payload looks like

The decoders take any bytes. `Layout` says how the bytes of a field stand for its value, and lists
the varints among them: a varint may be longer than it has to be, all else is determined by the
value.

* `reads_field`: what a decoder consumes is laid out as its result.
* `Layout.serialize`: the encoding of the result is no longer than that, and the same if every
  varint is as short as it can be.
* `decoder_sound`: both for payloads, with what lies behind them in memory left aside.
-/

namespace Vitamine

open Wire

/-! ## Varints of any length -/

/-- The bytes are a varint of the value; the bits above the top are lost. -/
structure VarIntOf (bs : Bytes) (v : BitVec 32) : Prop where
  shape : VarIntBytes bs
  length_le : bs.length ≤ VARINT32_MAX_LENGTH
  value : v.toNat = varIntValue bs % 2 ^ 32

theorem varIntValue_lt (bs : Bytes) : varIntValue bs < 128 ^ bs.length := by
  induction bs with
  | nil => simp [varIntValue]
  | cons b bs ih =>
    rw [varIntValue, List.length_cons, Nat.pow_succ]
    omega

/-- The encoder is as short as it can be. -/
theorem length_encodeVarInt32_le_of_lt {v : BitVec 32} {n : Nat} (hn : 0 < n)
    (h : v.toNat < 128 ^ n) : (encodeVarInt32 v).length ≤ n := by
  have hpow : ∀ k, n ≤ k → v.toNat < 128 ^ k := fun k hk =>
    lt_of_lt_of_le h (Nat.pow_le_pow_right (by decide) hk)
  rw [encodeVarInt32_eq]
  by_contra hlt
  split_ifs at hlt with h28 h21 h14 h7 <;> simp only [List.length_cons, List.length_nil] at hlt
  · have := hpow 4 (by omega)
    omega
  · have := hpow 3 (by omega)
    omega
  · have := hpow 2 (by omega)
    omega
  · have := hpow 1 (by omega)
    omega
  · omega

theorem VarIntOf.length_encode_le {bs : Bytes} {v : BitVec 32} (h : VarIntOf bs v) :
    (encodeVarInt32 v).length ≤ bs.length := by
  have hpos : 0 < bs.length := by
    cases bs with
    | nil => exact h.shape.elim
    | cons b bs => simp
  refine length_encodeVarInt32_le_of_lt hpos ?_
  rw [h.value]
  exact lt_of_le_of_lt (Nat.mod_le _ _) (varIntValue_lt bs)

/-- The bytes that the loop takes. -/
theorem varIntLoop_ok {c : Cursor Byte} {rounds count k : Nat} {result v : BitVec 32}
    (h : varIntLoop c rounds count result = .ok (v, k)) (hr : result.toNat < 2 ^ (7 * count)) :
    VarIntBytes ((c.view.drop count).take (k - count)) ∧ k - count ≤ rounds ∧
      v.toNat =
        (result.toNat + varIntValue ((c.view.drop count).take (k - count)) * 2 ^ (7 * count)) %
          2 ^ 32 := by
  induction rounds generalizing count result with
  | zero => cases h
  | succ rounds ih =>
    have hlt := varIntLoop_ok_lt h
    rw [varIntLoop] at h
    split at h <;> rename_i hsize
    · cases h
    have hbound := Nat.lt_of_lt_of_le (Nat.lt_of_not_le hsize) c.size_le
    have hview : count < c.view.length := by rw [Cursor.length_view]; omega
    have htmp : c.bufp[count] = c.view[count] := Cursor.getElem_bufp c hbound hview
    have htake : ∀ n, (c.view.drop count).take (n + 1) =
        c.view[count] :: (c.view.drop (count + 1)).take n := fun n => by
      rw [List.drop_eq_getElem_cons hview, List.take_succ_cons]
    have hround := @toNat_varInt_round result c.view[count] count hr
    obtain ⟨n, hn⟩ : ∃ n, k - count = n + 1 := ⟨k - count - 1, by omega⟩
    simp only [htmp, and_0x80] at h
    rw [hn, htake]
    split at h <;> rename_i hmore
    · have hnext : (result ||| (c.view[count] &&& 0x7f#8).zeroExtend 32 <<< (7 * count)).toNat <
          2 ^ (7 * (count + 1)) := by
        have h127 : c.view[count].toNat % 128 ≤ 127 :=
          Nat.le_of_lt_succ (Nat.mod_lt _ (by decide))
        have := Nat.mul_le_mul_right (2 ^ (7 * count)) h127
        rw [hround, Nat.mul_add 7, Nat.pow_add]
        exact lt_of_le_of_lt (Nat.mod_le _ _) (by omega)
      obtain ⟨hbytes, hle, hv⟩ := ih h hnext
      have hk : k - (count + 1) = n := by omega
      rw [hk] at hbytes hle hv
      refine ⟨hbytes.cons hmore, by omega, ?_⟩
      rw [hv, hround, Nat.mod_add_mod, varIntValue, Nat.mul_add 7, Nat.pow_add]
      congr 1
      ring
    · obtain ⟨rfl, rfl⟩ := Prod.mk.inj (Except.ok.inj h)
      obtain rfl : n = 0 := by omega
      have hlast : c.view[count].toNat < 128 := by omega
      refine ⟨hlast, by omega, ?_⟩
      rw [hround, List.take_zero, varIntValue, varIntValue, Nat.mul_zero, Nat.add_zero]

theorem reads_varInt (N : Nat) : Reads N deserializeVarInt VarIntOf := by
  intro c v d _ h
  unfold deserializeVarInt at h
  split at h <;> rename_i hl
  · obtain ⟨rfl, rfl⟩ := EStateM.Result.ok.inj h
    obtain ⟨-, hk⟩ := varIntLoop_ok_lt hl
    obtain ⟨hshape, hlen, hv⟩ := varIntLoop_ok hl (by decide)
    rw [List.drop_zero, Nat.sub_zero] at hshape hv
    refine ⟨_, hk, rfl, hshape, ?_, ?_⟩
    · rw [List.length_take]
      omega
    · simpa using hv
  · cases h

/-- A varint is read, however long it is. -/
theorem VarIntOf.decodes {bs : Bytes} {v : BitVec 32} (h : VarIntOf bs v) :
    Decodes deserializeVarInt bs v := by
  intro c r hc
  have hloop := @varIntLoop_eq c bs r h.shape VARINT32_MAX_LENGTH 0 0 h.length_le
    (by rw [List.drop_zero]; exact hc) (by decide)
  have hv : BitVec.ofNat 32 (varIntValue bs) = v := by
    apply BitVec.eq_of_toNat_eq
    rw [BitVec.toNat_ofNat, h.value]
  simp only [deserializeVarInt, hloop]
  simp [hv]

theorem reads_bytes (N n : Nat) :
    Reads N (deserializeBytes n) fun bs data => bs = data ∧ data.length = n := by
  intro c data d _ h
  unfold deserializeBytes at h
  split at h
  · cases h
  · obtain ⟨rfl, rfl⟩ := EStateM.Result.ok.inj h
    have hsz := c.size_le
    refine ⟨n, by omega, rfl, ?_, by rw [List.length_take]; omega⟩
    rw [Cursor.view, List.take_take, Nat.min_eq_left (by omega)]

/-! ## The other values -/

/-- The encoding of an integer of whole bytes is the bytes it was read from. -/
theorem serializeInt_ofBigEndian {w : Nat} (hw : w = 8 * (w / 8)) {data : Bytes}
    (h : data.length = w / 8) : serializeInt (BitVec.ofNat w (ofBigEndian data)) = data := by
  have hlt : ofBigEndian data < 2 ^ w := by
    have hp : 256 ^ (w / 8) = 2 ^ (8 * (w / 8)) := by rw [Nat.pow_mul]
    have := ofBigEndian_lt data
    rwa [h, hp, ← hw] at this
  rw [serializeInt, BitVec.toNat_ofNat, Nat.mod_eq_of_lt hlt, ← h, toBigEndian_ofBigEndian]

theorem reads_int (N : Nat) {w : Nat} (hw : w = 8 * (w / 8)) :
    Reads N (deserializeInt w) fun bs v => bs = serializeInt v := by
  refine ((reads_bytes N (w / 8)).bind fun ptr => .pure N _).mono fun bs v _ h => ?_
  obtain ⟨data, bs₁, bs₂, rfl, ⟨rfl, hlen⟩, rfl, rfl⟩ := h
  rw [List.append_nil, serializeInt_ofBigEndian hw hlen]

theorem reads_bool (N : Nat) : Reads N deserializeBool fun bs v => bs = serializeBool v := by
  have hcheck : ∀ val : BitVec 8, Reads N
      (if 1 < val.toNat then throw .errorDataInvalid else pure (decide (val ≠ 0)) : Deserializer Bool)
      fun bs v => bs = [] ∧ val = if v then 1#8 else 0#8 := by
    intro val
    split <;> rename_i h
    · exact .throw N _
    · refine (Reads.pure N _).mono fun bs v _ ⟨hbs, hv⟩ => ⟨hbs, ?_⟩
      subst hv
      have hval : val = 0#8 ∨ val = 1#8 := by
        simp only [← BitVec.toNat_inj, BitVec.toNat_ofNat]
        omega
      rcases hval with rfl | rfl <;> rfl
  refine ((reads_int N (by decide)).bind hcheck).mono fun bs v _ h => ?_
  obtain ⟨val, bs₁, bs₂, rfl, rfl, rfl, rfl⟩ := h
  rw [List.append_nil, serializeBool]

theorem reads_tail (N : Nat) :
    Reads N deserializeImplicitTailBytes fun bs data => bs = data := by
  intro c data d _ h
  rw [deserializeImplicitTailBytes_eq] at h
  obtain ⟨rfl, rfl⟩ := EStateM.Result.ok.inj h
  rw [Cursor.length_view]
  exact ⟨c.size, le_rfl, rfl, by rw [← Cursor.length_view, List.take_length]⟩

theorem reads_uuid (N : Nat) : Reads N deserializeUuid fun bs v => bs = serializeUuid v := by
  have h := (reads_int N (w := 64) (by decide)).bind fun hi =>
    (reads_int N (w := 64) (by decide)).bind fun lo => Reads.pure N (Uuid.ofHalves lo hi)
  refine h.mono fun bs v _ h => ?_
  obtain ⟨hi, bs₁, bs₂, rfl, rfl, lo, bs₃, bs₄, rfl, rfl, rfl, rfl⟩ := h
  rw [serializeUuid, Uuid.lo_ofHalves, Uuid.hi_ofHalves, List.append_nil]

/-- A length that was read is the size of what was read with it. -/
theorem spanSize_eq {α : Type} {s : List α} {length : BitVec 32} (h : s.length = length.toNat) :
    spanSize s = length := by
  rw [spanSize, h, BitVec.ofNat_toNat, BitVec.setWidth_eq]

theorem reads_string (N : Nat) : Reads N deserializeString fun bs str =>
    ∃ l, VarIntOf l (spanSize str) ∧ bs = l ++ str := by
  have hcheck : ∀ length : BitVec 32, Reads N
      (if length.toInt < 0 then throw .errorDataInvalid else deserializeBytes length.toNat :
        Deserializer Bytes) fun bs str => bs = str ∧ str.length = length.toNat := by
    intro length
    split
    · exact .throw N _
    · exact reads_bytes N length.toNat
  refine ((reads_varInt N).bind hcheck).mono fun bs str _ h => ?_
  obtain ⟨length, l, bs₂, rfl, hl, rfl, hlen⟩ := h
  exact ⟨l, by rwa [spanSize_eq hlen], rfl⟩

/-- A negative length is more than there is. -/
theorem reads_varbytes {N : Nat} (hN : N < 2 ^ 31) :
    Reads N (deserializeField .varbytes) fun bs (data : Bytes) =>
      ∃ l, VarIntOf l (spanSize data) ∧ bs = l ++ data := by
  refine ((reads_varInt N).bind fun length => reads_bytes N _).mono
    fun bs (data : Bytes) hbs h => ?_
  obtain ⟨length, l, bs₂, rfl, hl, rfl, hlen⟩ := h
  rw [List.length_append] at hbs
  have hlt := length.isLt
  have hpos : length.msb = false := by
    rw [BitVec.msb_eq_decide, decide_eq_false_iff_not]
    intro hmsb
    rw [BitVec.toNat_signExtend, BitVec.msb_eq_decide, decide_eq_true hmsb,
      BitVec.toNat_setWidth] at hlen
    simp only [if_true] at hlen
    omega
  rw [BitVec.signExtend_eq_setWidth_of_msb_false hpos, BitVec.toNat_setWidth] at hlen
  have hsize : bs₂.length = length.toNat := by omega
  exact ⟨l, by rwa [spanSize_eq hsize], rfl⟩

/-! ## Fields -/

/-- A varint of a payload: its bytes and its value. -/
abbrev VarIntAt := Bytes × BitVec 32

/-- The bytes `bs` stand for the value of a field, with the varints `vs` among them. -/
def FieldType.Layout : (type : FieldType) → Bytes → type.Val → List VarIntAt → Prop
  | .bool, bs, v, vs => bs = serializeBool v ∧ vs = []
  | .int _, bs, v, vs => bs = serializeInt v ∧ vs = []
  | .uint _, bs, v, vs => bs = serializeInt v ∧ vs = []
  | .float _, bs, v, vs => bs = serializeFloat v ∧ vs = []
  | .varint, bs, v, vs => VarIntOf bs v ∧ vs = [(bs, v)]
  | .string, bs, (v : Bytes), vs => ∃ l, VarIntOf l (spanSize v) ∧ bs = l ++ v ∧
      vs = [(l, spanSize v)]
  | .implicitTailbytes, bs, v, vs => bs = v ∧ vs = []
  | .nbt, _, _, _ => False
  | .uuid, bs, v, vs => bs = serializeUuid v ∧ vs = []
  | .varbytes, bs, (v : Bytes), vs => ∃ l, VarIntOf l (spanSize v) ∧ bs = l ++ v ∧
      vs = [(l, spanSize v)]
  | .entityMetadata, _, _, _ => False
  | .array _ element, bs, (values : List element.Val), vs => ∃ l pieces, VarIntOf l (spanSize values) ∧
      List.Forall₂ (fun (piece : Bytes × List VarIntAt) v => element.Layout piece.1 v piece.2)
        pieces values ∧
      bs = l ++ (pieces.map Prod.fst).flatten ∧
      vs = (l, spanSize values) :: (pieces.map Prod.snd).flatten

/-- The fields of a payload, one after the other. -/
def LaidOut : (fields : List Field) → Bytes → Values fields → List VarIntAt → Prop
  | [], bs, (), vs => bs = [] ∧ vs = []
  | field :: fields, bs, (value, values), vs => ∃ bs₁ vs₁ bs₂ vs₂,
      field.2.Layout bs₁ value vs₁ ∧ LaidOut fields bs₂ values vs₂ ∧
      bs = bs₁ ++ bs₂ ∧ vs = vs₁ ++ vs₂

/-- Pieces that each have varints. -/
theorem exists_pieces {α : Type} {G : Bytes → α → List VarIntAt → Prop} {pieces : List Bytes}
    {values : List α} (h : List.Forall₂ (fun bs v => ∃ vs, G bs v vs) pieces values) :
    ∃ marked : List (Bytes × List VarIntAt), marked.map Prod.fst = pieces ∧
      List.Forall₂ (fun piece v => G piece.1 v piece.2) marked values := by
  induction h with
  | nil => exact ⟨[], rfl, .nil⟩
  | cons hpiece _ ih =>
    obtain ⟨vs, hvs⟩ := hpiece
    obtain ⟨marked, rfl, hmarked⟩ := ih
    exact ⟨(_, vs) :: marked, rfl, .cons hvs hmarked⟩

/-- **What a decoder consumes** is laid out as its result. -/
theorem reads_field {N : Nat} (hN : N < 2 ^ 31) {type : FieldType} (hi : type.Implemented)
    (hd : type.Delimited ∨ type = .implicitTailbytes) :
    Reads N (deserializeField type) fun bs v => ∃ vs, type.Layout bs v vs := by
  induction type with
  | bool => exact (reads_bool N).mono fun bs v _ h => ⟨[], h, rfl⟩
  | int bits =>
    rcases hd with hd | hd
    · exact (reads_int N hd.1).mono fun bs v _ h => ⟨[], h, rfl⟩
    · cases hd
  | uint bits =>
    rcases hd with hd | hd
    · exact (reads_int N hd.1).mono fun bs v _ h => ⟨[], h, rfl⟩
    · cases hd
  | float bits =>
    rcases hd with hd | hd
    · exact (reads_int N hd.1).mono fun bs v _ h => ⟨[], h, rfl⟩
    · cases hd
  | varint => exact (reads_varInt N).mono fun bs v _ h => ⟨[(bs, v)], h, rfl⟩
  | string => exact (reads_string N).mono fun bs v _ ⟨l, hl, h⟩ => ⟨_, l, hl, h, rfl⟩
  | implicitTailbytes => exact (reads_tail N).mono fun bs v _ h => ⟨[], h, rfl⟩
  | nbt => exact hi.elim
  | uuid => exact (reads_uuid N).mono fun bs v _ h => ⟨[], h, rfl⟩
  | varbytes => exact (reads_varbytes hN).mono fun bs v _ ⟨l, hl, h⟩ => ⟨_, l, hl, h, rfl⟩
  | entityMetadata => exact hi.elim
  | array name element ih =>
    rcases hd with hd | hd
    · have helem := ih hi (.inl hd)
      refine ((reads_varInt N).bind fun length => helem.times length.toNat).mono
        fun bs (values : List element.Val) _ h => ?_
      obtain ⟨length, l, bs₂, rfl, hl, hlen, pieces, rfl, hall⟩ := h
      obtain ⟨marked, rfl, hmarked⟩ := exists_pieces hall
      exact ⟨_, l, marked, by rwa [spanSize_eq hlen], hmarked, rfl, rfl⟩
    · cases hd

theorem reads_fields {N : Nat} (hN : N < 2 ^ 31) {fields : List Field}
    (hi : ∀ field ∈ fields, field.2.Implemented) (hw : WellDelimited fields) :
    Reads N (deserializeFields fields) fun bs values => ∃ vs, LaidOut fields bs values vs := by
  induction fields with
  | nil => exact (Reads.pure N ()).mono fun bs values _ ⟨hbs, _⟩ => ⟨[], hbs, rfl⟩
  | cons field fields ih =>
    obtain ⟨hif, hifs⟩ := List.forall_mem_cons.mp hi
    obtain ⟨hd, hws⟩ : (field.2.Delimited ∨ field.2 = .implicitTailbytes) ∧
        WellDelimited fields := by
      rcases hw.cons_cases with ⟨hd, hws⟩ | ⟨rfl, htail⟩
      · exact ⟨.inl hd, hws⟩
      · exact ⟨.inr htail, trivial⟩
    have h := (reads_field hN hif hd).bind fun value =>
      (ih hifs hws).bind fun values => Reads.pure N ((value, values) : Values (field :: fields))
    refine h.mono fun bs values _ h => ?_
    obtain ⟨value, bs₁, bs₂, rfl, ⟨vs₁, h₁⟩, rest, bs₃, bs₄, rfl, ⟨vs₂, h₂⟩, rfl, rfl⟩ := h
    exact ⟨_, bs₁, vs₁, bs₃, vs₂, h₁, h₂, by rw [List.append_nil], rfl⟩

/-! ## Encoding what was read -/

/-- Every varint is as short as it can be. -/
def AllShortest (vs : List VarIntAt) : Prop := ∀ x ∈ vs, x.1 = encodeVarInt32 x.2

theorem AllShortest.append {vs₁ vs₂ : List VarIntAt} :
    AllShortest (vs₁ ++ vs₂) ↔ AllShortest vs₁ ∧ AllShortest vs₂ :=
  List.forall_mem_append

/-- A length and what follows it. -/
theorem VarIntOf.length_append_le {l data data' : Bytes} {v : BitVec 32} (h : VarIntOf l v)
    (hd : data'.length ≤ data.length) :
    (serializeVarInt v ++ data').length ≤ (l ++ data).length := by
  have := h.length_encode_le
  rw [List.length_append, List.length_append, serializeVarInt]
  omega

theorem shortest_append {l data : Bytes} {v : BitVec 32} {vs : List VarIntAt}
    (hs : AllShortest ((l, v) :: vs)) : serializeVarInt v ++ data = l ++ data :=
  congrArg (· ++ data) (hs _ List.mem_cons_self).symm

/-- **The encoding of what was read** is no longer, and the same if every varint is as short as it
can be. -/
theorem FieldType.Layout.serialize {type : FieldType} {bs : Bytes} {v : type.Val}
    {vs : List VarIntAt} (h : type.Layout bs v vs) :
    ∃ e, serializeField type v = some e ∧ e.length ≤ bs.length ∧ (AllShortest vs → e = bs) := by
  induction type generalizing bs vs with
  | bool => exact ⟨bs, by rw [h.1]; rfl, le_rfl, fun _ => rfl⟩
  | int bits => exact ⟨bs, by rw [h.1]; rfl, le_rfl, fun _ => rfl⟩
  | uint bits => exact ⟨bs, by rw [h.1]; rfl, le_rfl, fun _ => rfl⟩
  | float bits => exact ⟨bs, by rw [h.1]; rfl, le_rfl, fun _ => rfl⟩
  | varint =>
    obtain ⟨hv, rfl⟩ := h
    exact ⟨_, rfl, hv.length_encode_le, fun hs => (hs _ List.mem_cons_self).symm⟩
  | string =>
    obtain ⟨l, hl, rfl, rfl⟩ := h
    exact ⟨_, rfl, hl.length_append_le le_rfl, shortest_append⟩
  | implicitTailbytes => exact ⟨bs, by rw [h.1]; rfl, le_rfl, fun _ => rfl⟩
  | nbt => exact h.elim
  | uuid => exact ⟨bs, by rw [h.1]; rfl, le_rfl, fun _ => rfl⟩
  | varbytes =>
    obtain ⟨l, hl, rfl, rfl⟩ := h
    exact ⟨_, rfl, hl.length_append_le le_rfl, shortest_append⟩
  | entityMetadata => exact h.elim
  | array name element ih =>
    obtain ⟨l, pieces, hl, hall, rfl, rfl⟩ := h
    suffices hm : ∃ buffers, List.mapM (serializeField element) v = some buffers ∧
        buffers.flatten.length ≤ (pieces.map Prod.fst).flatten.length ∧
        (AllShortest (pieces.map Prod.snd).flatten →
          buffers.flatten = (pieces.map Prod.fst).flatten) by
      obtain ⟨buffers, hm, hle, heq⟩ := hm
      refine ⟨serializeVarInt (spanSize v) ++ buffers.flatten, ?_, hl.length_append_le hle,
        fun hs => ?_⟩
      · simp only [serializeField, hm]
        rfl
      · rw [heq (List.forall_mem_cons.mp hs).2]
        exact shortest_append hs
    clear hl
    induction hall with
    | nil => exact ⟨[], rfl, le_rfl, fun _ => rfl⟩
    | @cons piece value pieces values hpiece _ ihall =>
      obtain ⟨e, he, hle, heq⟩ := ih hpiece
      obtain ⟨buffers, hm, hles, heqs⟩ := ihall
      refine ⟨e :: buffers, by simp [List.mapM_cons, he, hm], ?_, fun hs => ?_⟩
      · simp only [List.flatten_cons, List.map_cons, List.length_append]
        omega
      · rw [List.map_cons, List.flatten_cons, AllShortest.append] at hs
        rw [List.flatten_cons, List.map_cons, List.flatten_cons, heq hs.1, heqs hs.2]

theorem LaidOut.serialize {fields : List Field} {bs : Bytes} {values : Values fields}
    {vs : List VarIntAt} (h : LaidOut fields bs values vs) :
    ∃ e, serializeFields fields values = some e ∧ e.length ≤ bs.length ∧
      (AllShortest vs → e = bs) := by
  induction fields generalizing bs vs with
  | nil => exact ⟨[], rfl, Nat.zero_le _, fun _ => h.1.symm⟩
  | cons field fields ih =>
    obtain ⟨value, values⟩ := values
    obtain ⟨bs₁, vs₁, bs₂, vs₂, h₁, h₂, rfl, rfl⟩ := h
    obtain ⟨e₁, he₁, hle₁, heq₁⟩ := h₁.serialize
    obtain ⟨e₂, he₂, hle₂, heq₂⟩ := ih h₂
    refine ⟨e₁ ++ e₂, ?_, ?_, fun hs => ?_⟩
    · show (serializeField field.2 value >>= fun buffer =>
        serializeFields fields values >>= fun rest => some (buffer ++ rest)) = _
      rw [he₁, he₂]
      rfl
    · rw [List.length_append, List.length_append]
      omega
    · obtain ⟨hs₁, hs₂⟩ := AllShortest.append.mp hs
      rw [heq₁ hs₁, heq₂ hs₂]

/-! ## What lies behind a payload -/

theorem isLocal_of_streaming {α : Type} {p : Deserializer α} (h : Streaming Final p) : Local p :=
  h.isLocal fun e e' he he' => by rw [not_not.mp he, not_not.mp he']

theorem isLocal_varInt : Local deserializeVarInt := isLocal_of_streaming streaming_varInt

theorem isLocal_bytes (n : Nat) : Local (deserializeBytes n) :=
  isLocal_of_streaming (streaming_bytes n)

theorem isLocal_throw {α : Type} (e : DeserializeError) : Local (throw e : Deserializer α) :=
  isLocal_of_streaming (Streaming.throw Final e)

theorem isLocal_int (w : Nat) : Local (deserializeInt w) :=
  (isLocal_bytes _).bind fun _ => .pure _

theorem isLocal_bool : Local deserializeBool := by
  refine (isLocal_int 8).bind fun val => ?_
  split
  · exact isLocal_throw _
  · exact .pure _

theorem isLocal_string : Local deserializeString := by
  refine isLocal_varInt.bind fun length => ?_
  split
  · exact isLocal_throw _
  · exact isLocal_bytes _

theorem isLocal_tail : Local deserializeImplicitTailBytes := by
  intro c c' hv
  rw [deserializeImplicitTailBytes_eq, deserializeImplicitTailBytes_eq]
  refine ⟨fun a d h => ?_, fun e d h => by cases h⟩
  obtain ⟨rfl, rfl⟩ := EStateM.Result.ok.inj h
  exact ⟨_, rfl, by rw [hv]⟩

theorem isLocal_uuid : Local deserializeUuid :=
  (isLocal_int 64).bind fun _ => (isLocal_int 64).bind fun _ => .pure _

/-- No decoder looks behind the view. -/
theorem isLocal_field (type : FieldType) : Local (deserializeField type) := by
  induction type with
  | bool => exact isLocal_bool
  | int bits => exact isLocal_int bits
  | uint bits => exact isLocal_int bits
  | float bits => exact isLocal_int bits
  | varint => exact isLocal_varInt
  | string => exact isLocal_string
  | implicitTailbytes => exact isLocal_tail
  | nbt => exact isLocal_throw _
  | uuid => exact isLocal_uuid
  | varbytes => exact isLocal_varInt.bind fun _ => isLocal_bytes _
  | entityMetadata => exact isLocal_throw _
  | array name element ih => exact isLocal_varInt.bind fun _ => ih.times _

theorem isLocal_fields (fields : List Field) : Local (deserializeFields fields) := by
  induction fields with
  | nil => exact .pure ()
  | cons field fields ih => exact (isLocal_field field.2).bind fun _ => ih.bind fun _ => .pure _

/-- `deserializePacketPayload` on a span of a larger memory. -/
def deserializePacketPayloadAt (P : PacketDef) (c : Cursor Byte) : Option P.Packet :=
  match deserializeFields P.fields c with
  | .ok packet d => if d.size = 0 then some packet else none
  | .error _ _ => none

/-! ## Accepted payloads -/

/-- An accepted payload is laid out as its packet. -/
theorem laidOut_of_deserialize {P : PacketDef} (hP : P ∈ packetDefs) (hi : P.Implemented)
    {buffer : Bytes} (hlen : buffer.length < 2 ^ 31) {packet : P.Packet}
    (h : deserializePacketPayload P buffer = some packet) :
    ∃ vs, LaidOut P.fields buffer packet vs := by
  unfold deserializePacketPayload at h
  split at h <;> rename_i hd
  · split_ifs at h with hsize
    cases h
    obtain ⟨k, hk, rfl, vs, hvs⟩ :=
      reads_fields (N := buffer.length) hlen hi (wellDelimited_packetDefs P hP) _ _ _ le_rfl hd
    rw [Cursor.size_ofList] at hk
    rw [Cursor.size_advance, Cursor.size_ofList] at hsize
    rw [Cursor.view_ofList, List.take_of_length_le (by omega)] at hvs
    exact ⟨vs, hvs⟩
  · cases h

/-- What a decoder says of a span is what it says of its bytes alone. -/
theorem deserializePacketPayloadAt_eq (P : PacketDef) (c : Cursor Byte) :
    deserializePacketPayloadAt P c = deserializePacketPayload P c.view := by
  have hv : (Cursor.ofList c.view).view = c.view := Cursor.view_ofList _
  obtain ⟨hok, herr⟩ := isLocal_fields P.fields (Cursor.ofList c.view) c hv
  unfold deserializePacketPayload deserializePacketPayloadAt
  cases hd : deserializeFields P.fields (Cursor.ofList c.view) with
  | ok packet d =>
    obtain ⟨k, rfl, hc⟩ := hok packet d hd
    simp only [hc, Cursor.size_advance, Cursor.size_ofList, Cursor.length_view]
    rfl
  | error e d =>
    obtain ⟨d', hc⟩ := herr e d hd
    simp only [hc]

/-- The elements of an array that a packet declares are delimited. -/
theorem delimited_of_array {fields : List Field} (hw : WellDelimited fields) {field : Field}
    (hf : field ∈ fields) {name : String} {element : FieldType}
    (harr : field.2 = .array name element) : element.Delimited := by
  induction fields with
  | nil => cases hf
  | cons first fields ih =>
    rcases hw.cons_cases with ⟨hd, hws⟩ | ⟨rfl, htail⟩
    · rcases List.mem_cons.mp hf with rfl | hf
      · rw [harr] at hd
        exact hd
      · exact ih hws hf
    · obtain rfl := List.mem_singleton.mp hf
      rw [harr] at htail
      cases htail

/-- A delimited field takes at least a byte. -/
theorem size_lt_of_deserializeField {N : Nat} (hN : N < 2 ^ 31) {type : FieldType}
    (hi : type.Implemented) (hd : type.Delimited) {c d : Cursor Byte} {v : type.Val}
    (hc : c.size ≤ N) (h : deserializeField type c = .ok v d) : d.size < c.size := by
  obtain ⟨k, hk, rfl, vs, hvs⟩ := reads_field hN hi (.inl hd) c v d hc h
  obtain ⟨e, he, hle, -⟩ := hvs.serialize
  have hpos := length_serializeField_pos hi hd he
  rw [List.length_take, Cursor.length_view] at hle
  rw [Cursor.size_advance]
  omega

/-- **The decoders are sound**, on any bytes of at most the size of an incoming packet. Whatever
count an array has, negative ones among them, its loop ends after at most one round for each byte
left; nothing outside the buffer is read; and an accepted packet is written in at most as many
bytes, which are accepted as the same packet, and are the buffer if its varints are as short as
they can be. -/
theorem decoder_sound (P : PacketDef) (hP : P ∈ packetDefs) (hi : P.Implemented) (buffer : Bytes)
    (hlen : buffer.length ≤ INCOMING_PACKET_MAX_LENGTH_VALUE) :
    (∀ field ∈ P.fields, ∀ name element, field.2 = .array name element →
      ∀ (c : Cursor Byte) (count : BitVec 32), c.size ≤ buffer.length → c.size < count.toNat →
        ∃ rounds values d e d', rounds ≤ c.size ∧
          times (deserializeField element) rounds c = .ok values d ∧
          deserializeField element d = .error e d') ∧
    (∀ c : Cursor Byte, c.view = buffer →
      deserializePacketPayloadAt P c = deserializePacketPayload P buffer) ∧
    ∀ packet, deserializePacketPayload P buffer = some packet →
      ∃ payload, serializePacketPayload P packet = some payload ∧
        payload.length ≤ buffer.length ∧ deserializePacketPayload P payload = some packet ∧
        (∃ vs, LaidOut P.fields buffer packet vs) ∧
        ∀ vs, LaidOut P.fields buffer packet vs → AllShortest vs → payload = buffer := by
  have hmax : INCOMING_PACKET_MAX_LENGTH_VALUE = 1019 := rfl
  have hw := wellDelimited_packetDefs P hP
  refine ⟨fun field hf name element harr c count hc hcount => ?_, fun c hc => ?_,
    fun packet h => ?_⟩
  · have hdf := delimited_of_array hw hf harr
    have hif : element.Implemented := by
      have h := hi field hf
      rw [harr] at h
      exact h
    exact times_stops (fun c a d hc h => size_lt_of_deserializeField (N := buffer.length)
      (by omega) hif hdf hc h) hc hcount
  · rw [deserializePacketPayloadAt_eq, hc]
  · obtain ⟨vs, hvs⟩ := laidOut_of_deserialize hP hi (by omega) h
    obtain ⟨payload, hp, hle, -⟩ := hvs.serialize
    refine ⟨payload, hp, hle, deserializePacketPayload_serialize hw hi hp (by omega), ⟨vs, hvs⟩,
      fun vs' hvs' hshort => ?_⟩
    obtain ⟨payload', hp', -, heq⟩ := hvs'.serialize
    rw [hp'] at hp
    cases hp
    exact heq hshort

/-- A list of one id whose varint is longer than it has to be. -/
theorem decoder_sound_destroyEntities :
    ∃ packet, deserializePacketPayload packetDestroyEntities [0x01#8, 0x85#8, 0x00#8] = some packet ∧
      ∃ payload, serializePacketPayload packetDestroyEntities packet = some payload ∧
        payload.length ≤ 3 ∧
        deserializePacketPayload packetDestroyEntities payload = some packet := by
  obtain ⟨-, -, hsound⟩ := decoder_sound packetDestroyEntities (by decide) (by decide)
    [0x01#8, 0x85#8, 0x00#8] (by decide)
  obtain ⟨payload, hp, hle, hback, -⟩ := hsound ([5#32], ()) rfl
  exact ⟨([5#32], ()), rfl, payload, hp, hle, hback⟩

end Vitamine
