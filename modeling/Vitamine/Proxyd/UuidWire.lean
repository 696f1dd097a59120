import Vitamine.Proxyd.Deserialize
import Vitamine.Proxyd.Handlers

/-!
# One UUID on two paths

A player's UUID leaves the server as text in `LoginSuccess` and as sixteen bytes in `PlayerInfo`
and in `SpawnPlayer`. The text takes the bytes `b0` to `b15` in order (`Uuid.toString_injective`:
no two UUIDs have the same text). `serializeUuid` copies each half into a number of the host,
swaps it to big-endian and writes the second half first, so that the bytes come out as `b15` to
`b0` (`serializeUuid_eq`).

* `OneUuid w this name`: the two paths name the same UUID for the player that logs in.
* `oneUuid_iff`: they do exactly for a UUID that reads the same from both ends.
-/

namespace Vitamine

open Wire

/-! ## The bytes -/

theorem serializeInt_ofLittleEndian {bs : Bytes} (h : bs.length = 8) :
    serializeInt (BitVec.ofNat 64 (ofLittleEndian bs)) = bs.reverse := by
  have hlt : ofLittleEndian bs < 2 ^ 64 := by
    have hb := ofLittleEndian_lt bs
    rw [h] at hb
    exact Nat.lt_of_lt_of_le hb (by decide)
  have hback := toLittleEndian_ofLittleEndian bs
  rw [h, toLittleEndian] at hback
  rw [serializeInt, BitVec.toNat_ofNat, Nat.mod_eq_of_lt hlt, ← List.reverse_eq_iff, hback]

/-- The bytes on the wire are those of the UUID from the last to the first. -/
theorem serializeUuid_eq (uuid : Uuid) : serializeUuid uuid = uuid.bytes.reverse := by
  have hlen := uuid.length_eq
  rw [serializeUuid, Uuid.hi, Uuid.lo, serializeInt_ofLittleEndian (by simp [hlen]),
    serializeInt_ofLittleEndian (by simp [hlen]), ← List.reverse_append, List.take_append_drop]

/-! ## The text -/

theorem hexDigit_injective {m n : Nat} (hm : m < 16) (hn : n < 16)
    (h : hexDigit m = hexDigit n) : m = n := by
  have hall : ∀ a b : Fin 16, hexDigit a = hexDigit b → a = b := by decide
  exact congrArg Fin.val (hall ⟨m, hm⟩ ⟨n, hn⟩ h)

theorem hexDigits_injective {a b : Byte} (hhi : hexDigit (a.toNat / 16) = hexDigit (b.toNat / 16))
    (hlo : hexDigit (a.toNat % 16) = hexDigit (b.toNat % 16)) : a = b := by
  have ha := a.isLt
  have hb := b.isLt
  have hq := hexDigit_injective (by omega) (by omega) hhi
  have hr := hexDigit_injective (by omega) (by omega) hlo
  apply BitVec.eq_of_toNat_eq
  omega

/-- Two digits for each byte, behind a hyphen at the same places, determine as many bytes. -/
theorem hexText_injective (hyphen : Nat → Bytes) (as bs : Bytes) (i : Nat)
    (hlen : as.length = bs.length)
    (h : ((as.zipIdx i).flatMap fun (b, i) =>
        hyphen i ++ [hexDigit (b.toNat / 16), hexDigit (b.toNat % 16)]) =
      (bs.zipIdx i).flatMap fun (b, i) =>
        hyphen i ++ [hexDigit (b.toNat / 16), hexDigit (b.toNat % 16)]) : as = bs := by
  induction as generalizing bs i with
  | nil => exact (List.length_eq_zero_iff.mp hlen.symm).symm
  | cons a as ih =>
    cases bs with
    | nil => simp at hlen
    | cons b bs =>
      simp only [List.zipIdx_cons, List.flatMap_cons, List.append_assoc, List.append_cancel_left_eq,
        List.cons_append, List.nil_append, List.cons.injEq] at h
      obtain ⟨hhi, hlo, hrest⟩ := h
      rw [hexDigits_injective hhi hlo, ih bs (i + 1) (by simpa using hlen) hrest]

theorem Uuid.ext_bytes {u v : Uuid} (h : u.bytes = v.bytes) : u = v := by
  cases u
  cases v
  cases h
  rfl

theorem Uuid.toString_injective {u v : Uuid} (h : u.toString = v.toString) : u = v :=
  Uuid.ext_bytes <| hexText_injective (fun i => if i = 4 ∨ i = 6 ∨ i = 8 ∨ i = 10 then [45] else [])
    u.bytes v.bytes 0 (u.length_eq.trans v.length_eq.symm) h

/-! ## The two paths of a player -/

/-- What `serializeUuid` writes into a packet. -/
def ClientboundPacket.uuidBytes : ClientboundPacket → List Bytes
  | .spawnPlayer _ uuid _ _ _ _ _ _ => [serializeUuid uuid]
  | .playerInfo packet => packet.entries.map fun entry => serializeUuid entry.uuid
  | _ => []

/-- The packets name the UUID of the player `name` as its `LoginSuccess` does: the sixteen bytes,
read in network byte order, are the UUID with that text; and `deserializeUuid` undoes
`serializeUuid`, whatever follows. The player's entry and its spawn are those of any later state,
which keeps the UUID. -/
structure OneUuid (w : World) (this : StateMachinePtr) (name : Bytes) : Prop where
  spoken : ∀ text, .loginSuccess text name ∈ w.loginPackets this name →
    ∀ state : PlayerState, state.uuid = (w.loggedIn this name).uuid →
      ∀ packet ∈ [.playerInfo ⟨.addPlayer, [addPlayerEntry state]⟩, createSpawnPacket state],
        ∀ bytes ∈ ClientboundPacket.uuidBytes packet,
          ∃ wire : Uuid, wire.bytes = bytes ∧ wire.toString = text
  undone : ∀ (uuid : Uuid) (rest : Bytes) (c : Cursor Byte), c.view = serializeUuid uuid ++ rest →
    deserializeUuid c = .ok uuid (c.advance 16) ∧ (c.advance 16).view = rest

theorem loginSuccess_mem_loginPackets {w : World} {this : StateMachinePtr} {name text : Bytes} :
    .loginSuccess text name ∈ w.loginPackets this name ↔
      text = (w.loggedIn this name).uuid.toString := by
  simp [World.loginPackets]

/-- The bytes that a player's entry and its spawn hold. -/
theorem uuidBytes_of_player {state : PlayerState} {packet : ClientboundPacket} {bytes : Bytes}
    (hp : packet ∈ [.playerInfo ⟨.addPlayer, [addPlayerEntry state]⟩, createSpawnPacket state])
    (hb : bytes ∈ packet.uuidBytes) : bytes = state.uuid.bytes.reverse := by
  simp only [List.mem_cons, List.not_mem_nil, or_false] at hp
  rcases hp with rfl | rfl <;>
    simpa [ClientboundPacket.uuidBytes, addPlayerEntry, createSpawnPacket, serializeUuid_eq] using hb

/-- Sixteen bytes come back, and what follows is left. -/
theorem deserializeUuid_serializeUuid (uuid : Uuid) (rest : Bytes) (c : Cursor Byte)
    (hc : c.view = serializeUuid uuid ++ rest) :
    deserializeUuid c = .ok uuid (c.advance 16) ∧ (c.advance 16).view = rest := by
  have hlen : (serializeUuid uuid).length = 16 := by
    rw [serializeUuid_eq, List.length_reverse, uuid.length_eq]
  refine ⟨hlen ▸ decodes_uuid uuid c rest hc, ?_⟩
  rw [Cursor.view_advance, hc, ← hlen, List.drop_left]

/-- The spawn alone decides: its sixteen bytes have the text of the UUID only if they are in its
order. -/
theorem OneUuid.reverse_eq {w : World} {this : StateMachinePtr} {name : Bytes}
    (h : OneUuid w this name) :
    (w.loggedIn this name).uuid.bytes.reverse = (w.loggedIn this name).uuid.bytes := by
  obtain ⟨wire, hbytes, htext⟩ := h.spoken _ (loginSuccess_mem_loginPackets.mpr rfl)
    (w.loggedIn this name) rfl (createSpawnPacket (w.loggedIn this name)) (by simp)
    (serializeUuid (w.loggedIn this name).uuid)
    (by simp [ClientboundPacket.uuidBytes, createSpawnPacket])
  rw [← serializeUuid_eq, ← hbytes, Uuid.toString_injective htext]

/-- **The bytes and the text of a player name the same UUID if and only if its bytes read the same
from both ends.** -/
theorem oneUuid_iff (w : World) (this : StateMachinePtr) (name : Bytes) :
    OneUuid w this name ↔
      (w.loggedIn this name).uuid.bytes.reverse = (w.loggedIn this name).uuid.bytes := by
  refine ⟨OneUuid.reverse_eq, fun h => ⟨?_, deserializeUuid_serializeUuid⟩⟩
  intro text ht state hs packet hp bytes hb
  refine ⟨state.uuid, ?_, ?_⟩
  · rw [uuidBytes_of_player hp hb, hs, h]
  · rw [loginSuccess_mem_loginPackets.mp ht, hs]

/-- The UUID `00010203-0405-5607-8809-0a0b0c0d0e0f`. -/
def ascendingUuid : Uuid :=
  ⟨[0x00, 0x01, 0x02, 0x03, 0x04, 0x05, 0x56, 0x07, 0x88, 0x09, 0x0a, 0x0b, 0x0c, 0x0d, 0x0e, 0x0f],
    rfl⟩

/-- Its bytes reach the clients as `0f0e0d0c-0b0a-0988-0756-050403020100`. -/
theorem not_oneUuid_ascending :
    ¬ OneUuid (.initial (fun _ => ascendingUuid) fun _ => .fresh defaultClientSettings 0 0)
      0 [0x61] := by
  intro h
  have hrev : ascendingUuid.bytes.reverse = ascendingUuid.bytes := h.reverse_eq
  revert hrev
  decide

end Vitamine
