import Vitamine.Proxyd.Layout

/-!
# What more bytes can do to a frame verdict

The reader waits on `errorDataIncomplete` and gives up on `errorDataInvalid`. `VerdictFinal` says
that both are right: more bytes change nothing but an `errorDataIncomplete`, and some more bytes do
change that.

* `varInt_incomplete_iff`: a varint is incomplete when all bytes so far go on and there is room.
* `readPacketFrame_eq`: the frame behind a length that was read.
* `incomplete_cases`: the three places where a frame can be incomplete.
* `verdictFinal_iff`: the third of them is the only one that never ends.
-/

namespace Vitamine

open Wire

/-- The function as its caller sees it: the status (`none` is `OK`), and the cursor and the frame
that are passed by reference. -/
def callPacketFrame (c : Cursor Byte) (out : PacketFrame) :
    Option DeserializeError × Cursor Byte × PacketFrame :=
  match deserializePacketFrame c with
  | .ok frame d => (none, d, frame)
  | .error e d => (some e, d, out)

/-- What the verdict on `s` promises. -/
structure VerdictFinal (s : Bytes) : Prop where
  ok : ∀ t out, (callPacketFrame (.ofList s) out).1 = none →
    (callPacketFrame (.ofList (s ++ t)) out).1 = none ∧
      (callPacketFrame (.ofList (s ++ t)) out).2.2 = (callPacketFrame (.ofList s) out).2.2 ∧
      (callPacketFrame (.ofList (s ++ t)) out).2.1.view =
        (callPacketFrame (.ofList s) out).2.1.view ++ t
  invalid : ∀ t out, (callPacketFrame (.ofList s) out).1 = some .errorDataInvalid →
    (callPacketFrame (.ofList (s ++ t)) out).1 = some .errorDataInvalid
  incomplete : ∀ out, (callPacketFrame (.ofList s) out).1 = some .errorDataIncomplete →
    (∃ t, (callPacketFrame (.ofList (s ++ t)) out).1 ≠ some .errorDataIncomplete) ∧
      s.length < INCOMING_PACKET_MAX_TOTAL_LENGTH
  unchanged : ∀ c out, c.view = s → (callPacketFrame c out).1 ≠ none →
    (callPacketFrame c out).2 = (c, out)

/-! ## Varints that go on -/

/-- A varint ends with a byte that does not go on. -/
theorem VarIntBytes.exists_lt {bs : Bytes} (h : VarIntBytes bs) : ∃ b ∈ bs, b.toNat < 128 := by
  induction bs with
  | nil => exact h.elim
  | cons b bs ih =>
    cases bs with
    | nil => exact ⟨b, List.mem_cons_self, h⟩
    | cons b' bs =>
      obtain ⟨x, hx, hlt⟩ := ih h.2
      exact ⟨x, List.mem_cons_of_mem _ hx, hlt⟩

/-- All bytes have the top bit set. -/
def AllContinue (bs : Bytes) : Prop := ∀ b ∈ bs, 128 ≤ b.toNat

theorem allContinue_cons {b : Byte} {bs : Bytes} :
    AllContinue (b :: bs) ↔ 128 ≤ b.toNat ∧ AllContinue bs := List.forall_mem_cons

theorem allContinue_append {a b : Bytes} :
    AllContinue (a ++ b) ↔ AllContinue a ∧ AllContinue b := List.forall_mem_append

/-- The loop waits when every byte it saw goes on and it may see more. -/
theorem varIntLoop_incomplete_iff {c : Cursor Byte} {rounds count : Nat} {result : BitVec 32}
    (hcount : count ≤ c.size) :
    varIntLoop c rounds count result = .error .errorDataIncomplete ↔
      AllContinue (c.view.drop count) ∧ c.size < count + rounds := by
  induction rounds generalizing count result with
  | zero =>
    constructor
    · intro h
      cases h
    · rintro ⟨-, h⟩
      omega
  | succ rounds ih =>
    rw [varIntLoop]
    split <;> rename_i hsize
    · rw [List.drop_eq_nil_of_le (by rw [Cursor.length_view]; exact hsize)]
      exact ⟨fun _ => ⟨fun b hb => (by cases hb), by omega⟩, fun _ => rfl⟩
    · have hview : count < c.view.length := by rw [Cursor.length_view]; omega
      have hbound := Nat.lt_of_lt_of_le (Nat.lt_of_not_le hsize) c.size_le
      rw [List.drop_eq_getElem_cons hview, allContinue_cons, and_assoc]
      simp only [Cursor.getElem_bufp c hbound hview, and_0x80]
      split <;> rename_i hmore
      · rw [ih (by omega), Nat.add_assoc, Nat.add_comm 1]
        exact ⟨fun h => ⟨hmore, h⟩, fun h => h.2⟩
      · exact ⟨fun h => (by cases h), fun h => absurd h.1 hmore⟩

theorem varInt_incomplete_iff {c : Cursor Byte} :
    (∃ d, deserializeVarInt c = .error .errorDataIncomplete d) ↔
      AllContinue c.view ∧ c.size < VARINT32_MAX_LENGTH := by
  have h := @varIntLoop_incomplete_iff c VARINT32_MAX_LENGTH 0 0 (Nat.zero_le _)
  rw [List.drop_zero, Nat.zero_add] at h
  rw [← h]
  unfold deserializeVarInt
  constructor
  · rintro ⟨d, hd⟩
    split at hd <;> rename_i hl
    · cases hd
    · rw [(EStateM.Result.error.inj hd).1] at hl
      exact hl
  · intro hl
    exact ⟨c, by rw [hl]⟩

/-! ## The exits of the frame decoder -/

/-- The frame behind a length that was read and is in range. -/
theorem readPacketFrame_eq {c : Cursor Byte} {l rest : Bytes} {v : BitVec 32} (hl : VarIntOf l v)
    (hc : c.view = l ++ rest) (hv : v.toNat ≤ INCOMING_PACKET_MAX_LENGTH_VALUE) :
    readPacketFrame c =
      if rest.length < v.toNat then .error .errorDataIncomplete (c.advance l.length)
      else splitPacket (rest.take v.toNat) (c.advance (l.length + v.toNat)) := by
  have hmax : INCOMING_PACKET_MAX_LENGTH_VALUE = 1019 := rfl
  have hint : ¬ (v.toInt < 0 ∨ INCOMING_PACKET_MAX_LENGTH_VALUE < v.toNat) := by
    rw [BitVec.toInt_eq_toNat_of_lt (by omega)]
    omega
  have hview : (c.advance l.length).view = rest := by
    rw [Cursor.view_advance, hc, List.drop_left]
  have hsize : (c.advance l.length).size = rest.length := by
    rw [← Cursor.length_view, hview]
  rw [readPacketFrame, bind_run, hl.decodes c rest hc]
  simp only [if_neg hint, bind_run, deserializeBytes, hsize]
  by_cases hshort : rest.length < v.toNat
  · simp only [if_pos hshort]
  · have htake : (c.advance l.length).bufp.take v.toNat = rest.take v.toNat := by
      rw [← hview, Cursor.view, List.take_take, Nat.min_eq_left (by omega)]
    simp only [if_neg hshort, htake, Cursor.advance_advance]

/-- A packet without a whole id. -/
theorem splitPacket_incomplete_iff {body : Bytes} {c : Cursor Byte} :
    (∃ d, splitPacket body c = .error .errorDataIncomplete d) ↔
      AllContinue body ∧ body.length < VARINT32_MAX_LENGTH := by
  have h := @varInt_incomplete_iff (Cursor.ofList body)
  rw [Cursor.view_ofList, Cursor.size_ofList] at h
  rw [← h]
  unfold splitPacket
  cases hid : deserializeVarInt (Cursor.ofList body) with
  | ok id rest => exact ⟨fun ⟨d, hd⟩ => (by cases hd), fun ⟨d, hd⟩ => (by cases hd)⟩
  | error e rest =>
    constructor
    · rintro ⟨d, hd⟩
      obtain ⟨rfl, -⟩ := EStateM.Result.error.inj hd
      exact ⟨rest, rfl⟩
    · rintro ⟨d, hd⟩
      obtain ⟨rfl, -⟩ := EStateM.Result.error.inj hd
      exact ⟨c, rfl⟩

/-- A length, and a body of that length that ends inside its id. -/
def ShortOfId (s : Bytes) : Prop :=
  ∃ l v body rest, VarIntOf l v ∧ v.toNat = body.length ∧ AllContinue body ∧
    body.length < VARINT32_MAX_LENGTH ∧ s = l ++ body ++ rest

/-- The start of a length that is not out of room yet. -/
def InLength (s : Bytes) : Prop := AllContinue s ∧ s.length < VARINT32_MAX_LENGTH

/-- A length in range, and a body that is shorter. -/
def InBody (s : Bytes) : Prop :=
  ∃ l v rest, VarIntOf l v ∧ v.toNat ≤ INCOMING_PACKET_MAX_LENGTH_VALUE ∧
    rest.length < v.toNat ∧ s = l ++ rest

/-- **A frame is incomplete** inside its length, inside its body, or inside its id. -/
theorem incomplete_cases {s : Bytes} {d : Cursor Byte}
    (h : deserializePacketFrame (.ofList s) = .error .errorDataIncomplete d) :
    InLength s ∨ InBody s ∨ ShortOfId s := by
  obtain ⟨-, d', hread⟩ := onCopy_error.mp h
  have hbind := hread
  rw [readPacketFrame, bind_run] at hbind
  cases hv : deserializeVarInt (Cursor.ofList s) with
  | error e d₁ =>
    rw [hv] at hbind
    obtain ⟨rfl, -⟩ := EStateM.Result.error.inj hbind
    have hinc := varInt_incomplete_iff.mp ⟨d₁, hv⟩
    rw [Cursor.view_ofList, Cursor.size_ofList] at hinc
    exact .inl hinc
  | ok v d₁ =>
    rw [hv] at hbind
    obtain ⟨k, hk, -, hl⟩ := reads_varInt s.length _ _ _ (le_of_eq (Cursor.size_ofList s)) hv
    rw [Cursor.view_ofList] at hl
    have hs : (Cursor.ofList s).view = s.take k ++ s.drop k := by
      rw [Cursor.view_ofList, List.take_append_drop]
    by_cases hrange : v.toInt < 0 ∨ INCOMING_PACKET_MAX_LENGTH_VALUE < v.toNat
    · simp only [if_pos hrange] at hbind
      cases hbind
    · have hle : v.toNat ≤ INCOMING_PACKET_MAX_LENGTH_VALUE := by omega
      rw [readPacketFrame_eq hl hs hle] at hread
      split_ifs at hread with hshort
      · exact .inr (.inl ⟨_, v, _, hl, hle, hshort, (List.take_append_drop k s).symm⟩)
      · obtain ⟨hall, hlen⟩ := splitPacket_incomplete_iff.mp ⟨d', hread⟩
        refine .inr (.inr ⟨_, v, (s.drop k).take v.toNat, (s.drop k).drop v.toNat, hl, ?_, hall,
          hlen, ?_⟩)
        · rw [List.length_take]
          omega
        · rw [List.append_assoc, List.take_append_drop, List.take_append_drop]

/-! ## What more bytes change -/

/-- What is incomplete inside the length is not a varint after five more bytes that go on. -/
theorem InLength.changes {s : Bytes} (h : InLength s) (d : Cursor Byte) :
    deserializePacketFrame (.ofList (s ++ List.replicate 5 0x80#8)) ≠
      .error .errorDataIncomplete d := by
  intro hinc
  have hall : AllContinue (s ++ List.replicate 5 0x80#8) := by
    refine allContinue_append.mpr ⟨h.1, fun b hb => ?_⟩
    rw [List.eq_of_mem_replicate hb]
    decide
  have hno : ∀ l v rest, VarIntOf l v → s ++ List.replicate 5 0x80#8 ≠ l ++ rest := by
    intro l v rest hl heq
    rw [heq, allContinue_append] at hall
    obtain ⟨b, hb, hlt⟩ := hl.shape.exists_lt
    have := hall.1 b hb
    omega
  rcases incomplete_cases hinc with h | ⟨l, v, rest, hl, -, -, h⟩ | ⟨l, v, body, rest, hl, -, -, -, h⟩
  · have hlen := h.2
    rw [List.length_append, List.length_replicate, VARINT32_MAX_LENGTH] at hlen
    omega
  · exact hno l v rest hl h
  · exact hno l v (body ++ rest) hl (by rw [h, List.append_assoc])

/-- What is incomplete inside the body is complete with zeros for the bytes that are missing: the
id ends at the first of them at the latest. -/
theorem InBody.changes {s : Bytes} (h : InBody s) :
    ∃ t, ∀ d, deserializePacketFrame (.ofList (s ++ t)) ≠ .error .errorDataIncomplete d := by
  obtain ⟨l, v, rest, hl, hle, hlt, rfl⟩ := h
  refine ⟨List.replicate (v.toNat - rest.length) 0#8, fun d hinc => ?_⟩
  obtain ⟨-, d', hread⟩ := onCopy_error.mp hinc
  have hlen : (rest ++ List.replicate (v.toNat - rest.length) 0#8).length = v.toNat := by
    rw [List.length_append, List.length_replicate]
    omega
  have hview : (Cursor.ofList (l ++ rest ++ List.replicate (v.toNat - rest.length) 0#8)).view =
      l ++ (rest ++ List.replicate (v.toNat - rest.length) 0#8) := by
    rw [Cursor.view_ofList, List.append_assoc]
  rw [readPacketFrame_eq hl hview hle, hlen, if_neg (Nat.lt_irrefl _),
    List.take_of_length_le (le_of_eq hlen)] at hread
  obtain ⟨hall, -⟩ := splitPacket_incomplete_iff.mp ⟨d', hread⟩
  have hzero := (allContinue_append.mp hall).2 0#8
    (List.mem_replicate.mpr ⟨by omega, rfl⟩)
  cases hzero

/-- A body that ends inside its id stays so. -/
theorem ShortOfId.incomplete {s : Bytes} (h : ShortOfId s) (t : Bytes) :
    ∃ d, deserializePacketFrame (.ofList (s ++ t)) = .error .errorDataIncomplete d := by
  obtain ⟨l, v, body, rest, hl, hv, hall, hlen, rfl⟩ := h
  have hmax : INCOMING_PACKET_MAX_LENGTH_VALUE = 1019 := rfl
  have hfive : VARINT32_MAX_LENGTH = 5 := rfl
  have hview : (Cursor.ofList (l ++ body ++ rest ++ t)).view = l ++ (body ++ (rest ++ t)) := by
    simp [Cursor.view_ofList]
  have hread := readPacketFrame_eq hl hview (by omega)
  rw [if_neg (by rw [List.length_append]; omega), hv, List.take_left] at hread
  obtain ⟨d, hd⟩ := splitPacket_incomplete_iff.mpr ⟨hall, hlen⟩
  exact ⟨_, onCopy_error.mpr ⟨rfl, d, by rw [hread]; exact hd⟩⟩

theorem InLength.length_lt {s : Bytes} (h : InLength s) :
    s.length < INCOMING_PACKET_MAX_TOTAL_LENGTH :=
  lt_trans h.2 (by decide)

theorem InBody.length_lt {s : Bytes} (h : InBody s) :
    s.length < INCOMING_PACKET_MAX_TOTAL_LENGTH := by
  obtain ⟨l, v, rest, hl, hle, hlt, rfl⟩ := h
  have hlen := hl.length_le
  have hmax : INCOMING_PACKET_MAX_LENGTH_VALUE = 1019 := rfl
  have htotal : INCOMING_PACKET_MAX_TOTAL_LENGTH = 1024 := rfl
  have hfive : VARINT32_MAX_LENGTH = 5 := rfl
  rw [List.length_append]
  omega

/-! ## The status of a call -/

theorem callPacketFrame_of_ok {c d : Cursor Byte} {out frame : PacketFrame}
    (h : deserializePacketFrame c = .ok frame d) : callPacketFrame c out = (none, d, frame) := by
  rw [callPacketFrame, h]

theorem callPacketFrame_of_error {c d : Cursor Byte} {out : PacketFrame} {e : DeserializeError}
    (h : deserializePacketFrame c = .error e d) : callPacketFrame c out = (some e, d, out) := by
  rw [callPacketFrame, h]

theorem status_eq_none {c : Cursor Byte} {out : PacketFrame} (h : (callPacketFrame c out).1 = none) :
    ∃ frame d, deserializePacketFrame c = .ok frame d := by
  cases hc : deserializePacketFrame c with
  | ok frame d => exact ⟨frame, d, rfl⟩
  | error e d => rw [callPacketFrame_of_error hc] at h; cases h

theorem status_eq_some {c : Cursor Byte} {out : PacketFrame} {e : DeserializeError} :
    (callPacketFrame c out).1 = some e ↔ ∃ d, deserializePacketFrame c = .error e d := by
  cases hc : deserializePacketFrame c with
  | ok frame d =>
    rw [callPacketFrame_of_ok hc]
    exact ⟨fun h => (by cases h), fun ⟨d, h⟩ => (by cases h)⟩
  | error e' d =>
    rw [callPacketFrame_of_error hc]
    constructor
    · intro h
      cases h
      exact ⟨d, rfl⟩
    · rintro ⟨d', h⟩
      rw [(EStateM.Result.error.inj h).1]

/-- **The verdict on a string is what the reader takes it for**, unless the string starts with a
length and a body of that length that ends inside the id: more bytes never complete that body. -/
theorem verdictFinal_iff (s : Bytes) : VerdictFinal s ↔ ¬ ShortOfId s := by
  constructor
  · intro hfinal hshort
    obtain ⟨d, hd⟩ := hshort.incomplete []
    rw [List.append_nil] at hd
    obtain ⟨⟨t, ht⟩, -⟩ := hfinal.incomplete ⟨0, []⟩ (status_eq_some.mpr ⟨d, hd⟩)
    exact ht (status_eq_some.mpr (hshort.incomplete t))
  · intro hshort
    have hpre : ∀ t : Bytes, (Cursor.ofList s).view <+: (Cursor.ofList (s ++ t)).view := fun t => by
      rw [Cursor.view_ofList, Cursor.view_ofList]
      exact List.prefix_append s t
    refine ⟨fun t out h => ?_, fun t out h => ?_, fun out h => ?_, fun c out _ h => ?_⟩
    · obtain ⟨frame, d, hd⟩ := status_eq_none h
      obtain ⟨k, hk, rfl, hext⟩ := (streaming_frame _ _ (hpre t)).1 frame d hd
      rw [callPacketFrame_of_ok hd, callPacketFrame_of_ok hext]
      refine ⟨rfl, rfl, ?_⟩
      rw [Cursor.size_ofList] at hk
      rw [Cursor.view_advance, Cursor.view_advance, Cursor.view_ofList, Cursor.view_ofList,
        List.drop_append_of_le_length hk]
    · obtain ⟨d, hd⟩ := status_eq_some.mp h
      obtain ⟨k, -, hext⟩ := (streaming_frame _ _ (hpre t)).2 _ d hd (by simp [Final])
      exact status_eq_some.mpr ⟨_, hext⟩
    · obtain ⟨d, hd⟩ := status_eq_some.mp h
      rcases incomplete_cases hd with hin | hin | hin
      · exact ⟨⟨_, fun ht => (status_eq_some.mp ht).elim hin.changes⟩, hin.length_lt⟩
      · obtain ⟨t, ht⟩ := hin.changes
        exact ⟨⟨t, fun h => (status_eq_some.mp h).elim ht⟩, hin.length_lt⟩
      · exact absurd hin hshort
    · cases hc : deserializePacketFrame c with
      | ok frame d => rw [callPacketFrame_of_ok hc] at h; exact absurd rfl h
      | error e d =>
        obtain ⟨rfl, -⟩ := frame_error_cases hc
        rw [callPacketFrame_of_error hc]

/-- A packet of length zero has no id and never will. -/
theorem empty_packet_never_ends : ¬ VerdictFinal [0x00#8] := by
  intro hfinal
  have hshort : ShortOfId [0x00#8] :=
    ⟨[0x00#8], 0#32, [], [], ⟨(by decide : (0x00#8 : Byte).toNat < 128), by decide, by decide⟩, rfl,
      fun b hb => (by cases hb), by decide, rfl⟩
  obtain ⟨d, hd⟩ := hshort.incomplete []
  obtain ⟨⟨t, ht⟩, -⟩ := hfinal.incomplete ⟨0, []⟩ (status_eq_some.mpr ⟨d, hd⟩)
  exact ht (status_eq_some.mpr (hshort.incomplete t))

end Vitamine
