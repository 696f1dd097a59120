import Vitamine.Lib.Stream
import Vitamine.Proxyd.Deserialize

/-!
# Packet frames (`proxyd/framing.hpp`)

A frame is the length of the packet as a varint, then the packet: its id as a varint and its data.
`frameDecoder` is the frame decoder as a decoder of streams: a frame, or a verdict of
`errorDataInvalid`, does not change when more bytes follow.
-/

namespace Vitamine

open Wire

def INCOMING_PACKET_MAX_TOTAL_LENGTH : Nat := 1024

def INCOMING_PACKET_MAX_LENGTH_VALUE : Nat := INCOMING_PACKET_MAX_TOTAL_LENGTH - VARINT32_MAX_LENGTH

structure PacketFrame where
  id : BitVec 32
  data : Bytes
  deriving DecidableEq

/-- The frame that a packet's own bytes make: the id, read with a cursor of its own, and the
rest. -/
def splitPacket (data : Bytes) : Deserializer PacketFrame :=
  match deserializeVarInt (Cursor.ofList data) with
  | .ok id rest => pure { id, data := rest.view }
  | .error e _ => throw e

/-- The body of `deserializePacketFrame`, on its local `bufp` and `size`. -/
def readPacketFrame : Deserializer PacketFrame := do
  let length ← deserializeVarInt
  if length.toInt < 0 ∨ INCOMING_PACKET_MAX_LENGTH_VALUE < length.toNat then
    throw .errorDataInvalid
  else
    let data ← deserializeBytes length.toNat
    splitPacket data

def deserializePacketFrame : Deserializer PacketFrame := onCopy readPacketFrame

/-- `serializePacket`, from the payload on: length and id go in front of the payload. -/
def serializeFrame (id : BitVec 32) (payload : Buffer) : Buffer :=
  encodeVarInt32 (BitVec.ofNat 32 (payload.length + wireSizeVarInt32 id)) ++ encodeVarInt32 id ++
    payload

/-! ## Frames that were written -/

theorem splitPacket_encode (id : BitVec 32) (data : Bytes) :
    splitPacket (encodeVarInt32 id ++ data) = pure { id, data } := by
  have h := decodes_varInt id (Cursor.ofList (encodeVarInt32 id ++ data)) data (by simp [serializeVarInt])
  unfold splitPacket
  rw [h]
  simp [Cursor.view_advance, serializeVarInt]

/-- A frame of at most the incoming length decodes to its id and payload. -/
theorem decodes_frame {id : BitVec 32} {payload : Bytes}
    (h : payload.length + (encodeVarInt32 id).length ≤ INCOMING_PACKET_MAX_LENGTH_VALUE) :
    Decodes deserializePacketFrame (serializeFrame id payload) { id, data := payload } := by
  have hmax : INCOMING_PACKET_MAX_LENGTH_VALUE = 1019 := rfl
  have hpos := length_encodeVarInt32_pos id
  have hn : (BitVec.ofNat 32 (payload.length + wireSizeVarInt32 id)).toNat =
      (encodeVarInt32 id ++ payload).length := by
    rw [wireSizeVarInt32_eq, BitVec.toNat_ofNat, List.length_append]
    omega
  have hint : ¬ (BitVec.ofNat 32 (payload.length + wireSizeVarInt32 id)).toInt < 0 := by
    rw [BitVec.toInt_eq_toNat_of_lt (by rw [hn, List.length_append]; omega)]
    omega
  rw [serializeFrame, List.append_assoc]
  refine Decodes.onCopy ((decodes_varInt _).bind ?_)
  rw [if_neg (by rw [hn, List.length_append]; omega), hn]
  refine (decodes_bytes (encodeVarInt32 id ++ payload)).bind_nil ?_
  rw [splitPacket_encode]
  exact Decodes.pure _

/-! ## Frames of a stream -/

theorem streaming_splitPacket (data : Bytes) : Streaming Final (splitPacket data) := by
  unfold splitPacket
  split
  · exact Streaming.pure _ _
  · exact Streaming.throw _ _

theorem streaming_readPacketFrame_rest (length : BitVec 32) :
    Streaming Final (if length.toInt < 0 ∨ INCOMING_PACKET_MAX_LENGTH_VALUE < length.toNat then
      throw .errorDataInvalid
    else do
      let data ← deserializeBytes length.toNat
      splitPacket data) := by
  split
  · exact Streaming.throw _ _
  · exact (streaming_bytes _).bind streaming_splitPacket

theorem streaming_frame : Streaming Final deserializePacketFrame :=
  (streaming_varInt.bind streaming_readPacketFrame_rest).onCopy

theorem consumes_frame : Consumes deserializePacketFrame :=
  (consumes_varInt.bind streaming_readPacketFrame_rest).onCopy

theorem throws_splitPacket (data : Bytes) : Throws Status (splitPacket data) := by
  unfold splitPacket
  split <;> rename_i h
  · exact Throws.pure _ _
  · exact Throws.throw (throws_varInt _ _ _ h)

theorem throws_readPacketFrame : Throws Status readPacketFrame := by
  refine throws_varInt.bind fun length => ?_
  split
  · exact Throws.throw (.inr rfl)
  · exact (throws_bytes _).bind throws_splitPacket

/-- A failure leaves the caller's cursor as it was, and its error is a status. -/
theorem frame_error_cases {c d : Cursor Byte} {e : DeserializeError}
    (h : deserializePacketFrame c = .error e d) : d = c ∧ Status e := by
  obtain ⟨rfl, d', h'⟩ := onCopy_error.mp h
  exact ⟨rfl, throws_readPacketFrame _ _ _ h'⟩

/-- `deserializePacketFrame` as a decoder of streams. -/
def frameDecoder : Decoder PacketFrame Byte where
  next s := match deserializePacketFrame (Cursor.ofList s) with
    | .ok frame c => .item frame (s.length - c.size)
    | .error .errorDataIncomplete _ => .incomplete
    | .error _ _ => .invalid
  used_pos := by
    intro s a n h
    split at h <;> rename_i hc
    · obtain ⟨-, rfl⟩ := Verdict.item.inj h
      have := consumes_frame _ _ _ hc
      rw [Cursor.size_ofList] at this
      omega
    · cases h
    · cases h
  used_le := by
    intro s a n h
    split at h
    · obtain ⟨-, rfl⟩ := Verdict.item.inj h
      omega
    · cases h
    · cases h
  item_append := by
    intro s a n h t
    split at h <;> rename_i hc
    · obtain ⟨rfl, rfl⟩ := Verdict.item.inj h
      obtain ⟨k, hk, rfl, hc'⟩ := (streaming_frame _ (Cursor.ofList (s ++ t)) (by simp)).1 _ _ hc
      rw [Cursor.size_ofList] at hk
      rw [hc']
      simp only [Cursor.size_advance, Cursor.size_ofList, List.length_append]
      congr 1
      omega
    · cases h
    · cases h
  invalid_append := by
    intro s h t
    split at h
    · cases h
    · cases h
    · rename_i e c hne hc
      obtain ⟨k, -, hc'⟩ := (streaming_frame _ (Cursor.ofList (s ++ t)) (by simp)).2 _ _ hc hne
      rw [hc']
      cases e with
      | errorDataIncomplete => exact absurd rfl hne
      | errorDataInvalid => rfl
      | runtimeError => rfl

/-- What the frame decoder says of a cursor is what it says of its view. -/
theorem frame_of_view (c : Cursor Byte) : match frameDecoder.next c.view with
    | .item frame n => deserializePacketFrame c = .ok frame (c.advance n)
    | .incomplete => deserializePacketFrame c = .error .errorDataIncomplete c
    | .invalid => deserializePacketFrame c = .error .errorDataInvalid c := by
  have hv : (Cursor.ofList c.view).view = c.view := Cursor.view_ofList _
  unfold frameDecoder
  simp only
  have hpre : (Cursor.ofList c.view).view <+: c.view := by rw [hv]
  cases hc : deserializePacketFrame (Cursor.ofList c.view) with
  | ok frame d =>
    obtain ⟨k, hk, rfl, hc'⟩ := (streaming_frame _ c hpre).1 _ _ hc
    have hk' : c.view.length - ((Cursor.ofList c.view).advance k).size = k := by
      simp at hk ⊢
      omega
    simp only [hk', hc']
  | error e d =>
    obtain ⟨e', d', hc', hto, hback⟩ := streaming_frame.error_of_view_eq hv hc
    obtain ⟨rfl, he'⟩ := frame_error_cases hc'
    obtain ⟨-, rfl | rfl⟩ := frame_error_cases hc
    · rcases he' with rfl | rfl
      · exact hc'
      · cases hback (by simp [Final])
    · cases hto (by simp [Final])
      exact hc'

end Vitamine
