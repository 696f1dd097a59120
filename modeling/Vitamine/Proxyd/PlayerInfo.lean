import Vitamine.Proxyd.Clientbound
import Vitamine.Proxyd.Codes

/-!
# `PlayerInfo` (`proxyd/packets.hpp`)

The one packet with an encoder written by hand: its layout depends on the action, and in an entry
two strings are there only behind a flag. The source has no decoder for it.

* `PacketPlayerInfo.serializePacketPayload`: the encoder. It throws if an entry holds another
  alternative than the action names.
* `PacketPlayerInfo.Entry.meaning`: an entry without the strings that their flags leave out.
* `playerInfo_unique`: the payload determines that, and where it ends.
-/

namespace Vitamine

open Wire PrefixCode

namespace PacketPlayerInfo

/-- The value of the enumerator. -/
def Action.value : Action → BitVec 32
  | .addPlayer => 0
  | .updateGamemode => 1
  | .updateLatency => 2
  | .updateDisplayname => 3
  | .removePlayer => 4

end PacketPlayerInfo

/-- A flag, and a string if it is set. -/
def serializeFlagged (flag : Bool) (str : Bytes) : Buffer :=
  serializeBool flag ++ if flag then serializeString str else []

def AddPlayer.Property.serialize (prop : AddPlayer.Property) : Buffer :=
  serializeString prop.name ++ serializeString prop.value ++
    serializeFlagged prop.isSigned prop.signature

def AddPlayer.serialize (update : AddPlayer) : Buffer :=
  serializeString update.name ++ serializeVarInt (spanSize update.properties) ++
    update.properties.flatMap AddPlayer.Property.serialize ++ serializeVarInt update.gameMode ++
    serializeVarInt update.ping ++ serializeFlagged update.hasDisplayName update.displayName

namespace PacketPlayerInfo

/-- `std::get` of the alternative that the action names, and its fields. A removal looks at no
alternative. -/
def serializeUpdate : Action → Update → Option Buffer
  | .addPlayer, .addPlayer update => some update.serialize
  | .updateGamemode, .updateGameMode gameMode => some (serializeVarInt gameMode)
  | .updateLatency, .updateLatency ping => some (serializeVarInt ping)
  | .updateDisplayname, .updateDisplayName hasDisplayName displayName =>
    some (serializeFlagged hasDisplayName displayName)
  | .removePlayer, _ => some []
  | _, _ => none

def serializeEntry (action : Action) (entry : Entry) : Option Buffer := do
  let update ← serializeUpdate action entry.update
  some (serializeUuid entry.uuid ++ update)

def serializePacketPayload (packet : PacketPlayerInfo) : Option Buffer := do
  let entries ← packet.entries.mapM (serializeEntry packet.action)
  some (serializeVarInt packet.action.value ++ serializeVarInt (spanSize packet.entries) ++
    entries.flatten)

end PacketPlayerInfo

/-! ## What is meaningful, and what fits -/

def AddPlayer.Property.meaning (prop : AddPlayer.Property) : AddPlayer.Property :=
  { prop with signature := if prop.isSigned then prop.signature else [] }

def AddPlayer.meaning (update : AddPlayer) : AddPlayer :=
  { update with
    properties := update.properties.map AddPlayer.Property.meaning
    displayName := if update.hasDisplayName then update.displayName else [] }

/-- A string behind a flag has a length below `2 ^ 31`, if it is there. -/
def FlaggedFits (flag : Bool) (str : Bytes) : Prop := flag = true → str.length < 2 ^ 31

structure AddPlayer.Property.Fits (prop : AddPlayer.Property) : Prop where
  name : prop.name.length < 2 ^ 31
  value : prop.value.length < 2 ^ 31
  signature : FlaggedFits prop.isSigned prop.signature

structure AddPlayer.Fits (update : AddPlayer) : Prop where
  name : update.name.length < 2 ^ 31
  properties : update.properties.length < 2 ^ 31
  property : ∀ prop ∈ update.properties, prop.Fits
  displayName : FlaggedFits update.hasDisplayName update.displayName

namespace PacketPlayerInfo

def Update.meaning : Update → Update
  | .addPlayer update => .addPlayer update.meaning
  | .updateDisplayName hasDisplayName displayName =>
    .updateDisplayName hasDisplayName (if hasDisplayName then displayName else [])
  | update => update

def Entry.meaning (entry : Entry) : Entry := { entry with update := entry.update.meaning }

/-- The alternative that the action names, with lengths that fit. -/
def Update.Fits (action : Action) : Update → Prop
  | .addPlayer update => action = .addPlayer ∧ update.Fits
  | .updateGameMode _ => action = .updateGamemode
  | .updateLatency _ => action = .updateLatency
  | .updateDisplayName hasDisplayName displayName =>
    action = .updateDisplayname ∧ FlaggedFits hasDisplayName displayName
  | .removePlayer => action = .removePlayer

structure Fits (packet : PacketPlayerInfo) : Prop where
  entries : packet.entries.length < 2 ^ 31
  update : ∀ entry ∈ packet.entries, entry.update.Fits packet.action

end PacketPlayerInfo

/-! ## What is left out is not written -/

theorem serializeFlagged_meaning (flag : Bool) (str : Bytes) :
    serializeFlagged flag (if flag then str else []) = serializeFlagged flag str := by
  cases flag <;> rfl

theorem AddPlayer.Property.serialize_meaning (prop : AddPlayer.Property) :
    prop.meaning.serialize = prop.serialize := by
  simp only [serialize, meaning, serializeFlagged_meaning]

theorem AddPlayer.serialize_meaning (update : AddPlayer) :
    update.meaning.serialize = update.serialize := by
  simp only [serialize, meaning, serializeFlagged_meaning, spanSize, List.length_map,
    List.flatMap_map, Property.serialize_meaning]

namespace PacketPlayerInfo

theorem serializeUpdate_meaning (action : Action) (update : Update) :
    serializeUpdate action update.meaning = serializeUpdate action update := by
  cases action <;> cases update <;>
    simp [serializeUpdate, Update.meaning, AddPlayer.serialize_meaning, serializeFlagged_meaning]

theorem serializeEntry_meaning (action : Action) (entry : Entry) :
    serializeEntry action entry.meaning = serializeEntry action entry := by
  simp only [serializeEntry, Entry.meaning, serializeUpdate_meaning]

end PacketPlayerInfo

/-! ## Unique decoding of what is meaningful -/

/-- A flag and a string that is empty without it. -/
def FlaggedPlain (p : Bool × Bytes) : Prop :=
  FlaggedFits p.1 p.2 ∧ (if p.1 then p.2 else []) = p.2

def AddPlayer.Property.Plain (prop : AddPlayer.Property) : Prop := prop.Fits ∧ prop.meaning = prop

def AddPlayer.Plain (update : AddPlayer) : Prop := update.Fits ∧ update.meaning = update

theorem unique_flagged {p : Bool × Bytes} (h : FlaggedPlain p) :
    Unique FlaggedPlain (fun p => serializeFlagged p.1 p.2) p := by
  obtain ⟨flag, str⟩ := p
  rintro ⟨flag', str'⟩ h' r s he
  simp only [serializeFlagged, List.append_assoc] at he
  obtain ⟨rfl, he'⟩ := unique_bool flag flag' trivial _ _ he
  cases flag with
  | false =>
    obtain rfl : [] = str := h.2
    obtain rfl : [] = str' := h'.2
    exact ⟨rfl, he'⟩
  | true =>
    obtain ⟨rfl, hrs⟩ := unique_string (h.1 rfl) str' (h'.1 rfl) r s he'
    exact ⟨rfl, hrs⟩

theorem AddPlayer.Property.Plain.flagged {prop : AddPlayer.Property} (h : prop.Plain) :
    FlaggedPlain (prop.isSigned, prop.signature) :=
  ⟨h.1.signature, congrArg AddPlayer.Property.signature h.2⟩

theorem unique_property {prop : AddPlayer.Property} (h : prop.Plain) :
    Unique AddPlayer.Property.Plain AddPlayer.Property.serialize prop := by
  intro prop' h' r s he
  simp only [AddPlayer.Property.serialize, List.append_assoc] at he
  obtain ⟨hname, hrest⟩ := unique_string h.1.name _ h'.1.name _ _ he
  obtain ⟨hvalue, hrest⟩ := unique_string h.1.value _ h'.1.value _ _ hrest
  obtain ⟨hflagged, hrs⟩ := unique_flagged h.flagged _ h'.flagged _ _ hrest
  obtain ⟨name, value, isSigned, signature⟩ := prop
  obtain ⟨name', value', isSigned', signature'⟩ := prop'
  cases hname
  cases hvalue
  cases hflagged
  exact ⟨rfl, hrs⟩

theorem AddPlayer.Plain.flagged {update : AddPlayer} (h : update.Plain) :
    FlaggedPlain (update.hasDisplayName, update.displayName) :=
  ⟨h.1.displayName, congrArg AddPlayer.displayName h.2⟩

/-- The properties of a plain update are plain. -/
theorem AddPlayer.Plain.property {update : AddPlayer} (h : update.Plain) :
    ∀ prop ∈ update.properties, prop.Plain := by
  intro prop hprop
  have hmap : update.properties.map AddPlayer.Property.meaning = update.properties :=
    congrArg AddPlayer.properties h.2
  exact ⟨h.1.property prop hprop, List.map_inj_left.mp (hmap.trans (List.map_id _).symm) prop hprop⟩

theorem unique_addPlayer {update : AddPlayer} (h : update.Plain) :
    Unique AddPlayer.Plain AddPlayer.serialize update := by
  intro update' h' r s he
  simp only [AddPlayer.serialize, List.append_assoc] at he
  obtain ⟨hname, hrest⟩ := unique_string h.1.name _ h'.1.name _ _ he
  obtain ⟨hproperties, hrest⟩ :=
    Unique.counted (unique_varCount h.1.properties)
      (fun prop hp => unique_property (h.property prop hp))
      update'.properties ⟨h'.1.properties, h'.property⟩ _ _ (by simpa [spanSize] using hrest)
  obtain ⟨hgameMode, hrest⟩ := unique_varInt _ _ trivial _ _ hrest
  obtain ⟨hping, hrest⟩ := unique_varInt _ _ trivial _ _ hrest
  obtain ⟨hflagged, hrs⟩ := unique_flagged h.flagged _ h'.flagged _ _ hrest
  obtain ⟨name, properties, gameMode, ping, hasDisplayName, displayName⟩ := update
  obtain ⟨name', properties', gameMode', ping', hasDisplayName', displayName'⟩ := update'
  cases hname
  cases hproperties
  cases hgameMode
  cases hping
  cases hflagged
  exact ⟨rfl, hrs⟩

namespace PacketPlayerInfo

def Update.Plain (action : Action) (update : Update) : Prop :=
  update.Fits action ∧ update.meaning = update

/-- The alternative that the action names is written. -/
theorem isSome_serializeUpdate {action : Action} {update : Update} (h : update.Fits action) :
    (serializeUpdate action update).isSome = true := by
  cases update <;> simp_all [Update.Fits, serializeUpdate]

/-- The alternative that the action names. -/
theorem Update.Plain.form {action : Action} {update : Update} :
    update.Plain action → match action with
    | .addPlayer => ∃ add : AddPlayer, add.Plain ∧ update = .addPlayer add
    | .updateGamemode => ∃ gameMode, update = .updateGameMode gameMode
    | .updateLatency => ∃ ping, update = .updateLatency ping
    | .updateDisplayname => ∃ p : Bool × Bytes, FlaggedPlain p ∧ update = .updateDisplayName p.1 p.2
    | .removePlayer => update = .removePlayer := by
  rintro ⟨hfits, hmeaning⟩
  cases update with
  | addPlayer add =>
    obtain ⟨rfl, hfits⟩ := hfits
    exact ⟨add, ⟨hfits, Update.addPlayer.inj hmeaning⟩, rfl⟩
  | updateDisplayName hasDisplayName displayName =>
    obtain ⟨rfl, hfits⟩ := hfits
    exact ⟨(hasDisplayName, displayName),
      ⟨hfits, (Update.updateDisplayName.inj hmeaning).2⟩, rfl⟩
  | updateGameMode gameMode =>
    cases hfits
    exact ⟨gameMode, rfl⟩
  | updateLatency ping =>
    cases hfits
    exact ⟨ping, rfl⟩
  | removePlayer =>
    cases hfits
    rfl

/-- For each action, what its alternative holds is unique. -/
theorem unique_update {action : Action} {update : Update} (h : update.Plain action) :
    Unique (Update.Plain action) (written (serializeUpdate action)) update := by
  have hform := h.form
  cases action with
  | addPlayer =>
    obtain ⟨add, hadd, rfl⟩ := hform
    exact (unique_addPlayer hadd).image (fun _ hb => hb.form) fun _ => rfl
  | updateGamemode =>
    obtain ⟨gameMode, rfl⟩ := hform
    exact unique_alternative (unique_varInt gameMode) (fun _ hb => hb.form) fun _ => rfl
  | updateLatency =>
    obtain ⟨ping, rfl⟩ := hform
    exact unique_alternative (unique_varInt ping) (fun _ hb => hb.form) fun _ => rfl
  | updateDisplayname =>
    obtain ⟨p, hp, rfl⟩ := hform
    exact Unique.image (f := fun p : Bool × Bytes => Update.updateDisplayName p.1 p.2)
      (unique_flagged hp) (fun _ hb => hb.form) fun _ => rfl
  | removePlayer =>
    obtain rfl := hform
    intro b hb r s he
    obtain rfl : b = .removePlayer := hb.form
    exact ⟨rfl, he⟩

def Entry.Plain (action : Action) (entry : Entry) : Prop := entry.update.Plain action

theorem isSome_serializeEntry {action : Action} {entry : Entry} (h : entry.update.Fits action) :
    (serializeEntry action entry).isSome = true := by
  rw [serializeEntry, eq_some_written (isSome_serializeUpdate h)]
  rfl

theorem written_serializeEntry {action : Action} {entry : Entry} (h : entry.update.Fits action) :
    written (serializeEntry action) entry =
      serializeUuid entry.uuid ++ written (serializeUpdate action) entry.update := by
  rw [written, serializeEntry, eq_some_written (isSome_serializeUpdate h)]
  rfl

theorem unique_entry {action : Action} {entry : Entry} (h : entry.Plain action) :
    Unique (Entry.Plain action) (written (serializeEntry action)) entry := by
  intro entry' h' r s he
  rw [written_serializeEntry h.1, written_serializeEntry h'.1, List.append_assoc,
    List.append_assoc] at he
  obtain ⟨huuid, hrest⟩ := unique_uuid _ _ trivial _ _ he
  obtain ⟨hupdate, hrs⟩ := unique_update h _ h' _ _ hrest
  obtain ⟨uuid, update⟩ := entry
  obtain ⟨uuid', update'⟩ := entry'
  cases huuid
  cases hupdate
  exact ⟨rfl, hrs⟩

/-! ## Packets -/

theorem Action.value_injective {action action' : Action} (h : action.value = action'.value) :
    action = action' := by
  revert h
  cases action <;> cases action' <;> decide

theorem unique_action (action : Action) :
    Unique Any (fun action : Action => serializeVarInt action.value) action :=
  (unique_varInt _).comap (fun _ _ => trivial) fun _ _ h => Action.value_injective h

end PacketPlayerInfo

/-! ## The meaning is plain -/

theorem flaggedPlain_meaning {flag : Bool} {str : Bytes} (h : FlaggedFits flag str) :
    FlaggedPlain (flag, if flag then str else []) := by
  cases flag with
  | false => exact ⟨fun _ => by simp, rfl⟩
  | true => exact ⟨h, rfl⟩

theorem AddPlayer.Property.plain_meaning {prop : AddPlayer.Property} (h : prop.Fits) :
    prop.meaning.Plain := by
  obtain ⟨hfits, hplain⟩ := flaggedPlain_meaning h.signature
  exact ⟨⟨h.name, h.value, hfits⟩, congrArg (fun signature => { prop with signature }) hplain⟩

theorem AddPlayer.plain_meaning {update : AddPlayer} (h : update.Fits) : update.meaning.Plain := by
  obtain ⟨hfits, hplain⟩ := flaggedPlain_meaning h.displayName
  have hproperty : ∀ prop ∈ update.properties.map AddPlayer.Property.meaning, prop.Plain :=
    List.forall_mem_map.mpr fun prop hp => AddPlayer.Property.plain_meaning (h.property prop hp)
  have hmap : (update.properties.map AddPlayer.Property.meaning).map AddPlayer.Property.meaning =
      update.properties.map AddPlayer.Property.meaning :=
    (List.map_congr_left fun prop hp => (hproperty prop hp).2).trans (List.map_id _)
  refine ⟨⟨h.name, by simpa [meaning] using h.properties, fun prop hp => (hproperty prop hp).1,
    hfits⟩, ?_⟩
  rw [meaning, meaning, hmap]
  exact congrArg (fun displayName => { update with
    properties := update.properties.map AddPlayer.Property.meaning, displayName }) hplain

namespace PacketPlayerInfo

theorem Update.plain_meaning {action : Action} {update : Update} (h : update.Fits action) :
    update.meaning.Plain action := by
  cases update with
  | addPlayer update =>
    obtain ⟨hfits, hplain⟩ := AddPlayer.plain_meaning h.2
    exact ⟨⟨h.1, hfits⟩, congrArg Update.addPlayer hplain⟩
  | updateGameMode gameMode => exact ⟨h, rfl⟩
  | updateLatency ping => exact ⟨h, rfl⟩
  | updateDisplayName hasDisplayName displayName =>
    obtain ⟨hfits, hplain⟩ := flaggedPlain_meaning h.2
    exact ⟨⟨h.1, hfits⟩, congrArg (Update.updateDisplayName hasDisplayName) hplain⟩
  | removePlayer => exact ⟨h, rfl⟩

/-- The entries by what they mean. -/
def meaning (packet : PacketPlayerInfo) : List Entry := packet.entries.map Entry.meaning

theorem Fits.meaning {packet : PacketPlayerInfo} (h : packet.Fits) :
    packet.meaning.length < 2 ^ 31 ∧ ∀ entry ∈ packet.meaning, entry.Plain packet.action :=
  ⟨by simpa [PacketPlayerInfo.meaning] using h.entries,
    List.forall_mem_map.mpr fun entry he => Update.plain_meaning (h.update entry he)⟩

/-- What is written is a code of the action and of the meaning of the entries. -/
theorem serializePacketPayload_eq {packet : PacketPlayerInfo} (h : packet.Fits) :
    packet.serializePacketPayload = some (serializeVarInt packet.action.value ++
      (serializeVarInt (BitVec.ofNat 32 packet.meaning.length) ++
        packet.meaning.flatMap (written (serializeEntry packet.action)))) := by
  have hmeaning : ∀ entry, written (serializeEntry packet.action) (Entry.meaning entry) =
      written (serializeEntry packet.action) entry := fun entry => by
    rw [written, serializeEntry_meaning, written]
  rw [serializePacketPayload,
    mapM_eq_some fun entry he => isSome_serializeEntry (h.update entry he), meaning,
    List.flatMap_map, List.flatMap_def, List.length_map]
  simp only [hmeaning]
  exact congrArg some (List.append_assoc ..)

end PacketPlayerInfo

open PacketPlayerInfo in
/-- **`PlayerInfo` is uniquely decodable**: what is written for two packets, with anything after it,
is the same only if what follows, the action and the meaning of the entries are. -/
theorem playerInfo_unique (p₁ p₂ : PacketPlayerInfo) (h₁ : p₁.Fits) (h₂ : p₂.Fits) :
    ∃ e₁ e₂, p₁.serializePacketPayload = some e₁ ∧ p₂.serializePacketPayload = some e₂ ∧
      ∀ r₁ r₂, e₁ ++ r₁ = e₂ ++ r₂ → r₁ = r₂ ∧ p₁.action = p₂.action ∧
        p₁.entries.map Entry.meaning = p₂.entries.map Entry.meaning := by
  refine ⟨_, _, serializePacketPayload_eq h₁, serializePacketPayload_eq h₂, fun r₁ r₂ he => ?_⟩
  simp only [List.append_assoc] at he
  obtain ⟨haction, hrest⟩ := unique_action p₁.action p₂.action trivial _ _ he
  obtain ⟨hlen, hplain⟩ := h₁.meaning
  have hentries := h₂.meaning
  rw [← haction] at hrest hentries
  obtain ⟨hmeaning, hr⟩ := Unique.counted (unique_varCount hlen)
    (fun entry hm => unique_entry (hplain entry hm)) p₂.meaning hentries r₁ r₂
    (by simpa only [List.append_assoc] using hrest)
  exact ⟨hr, haction, hmeaning⟩

/-- A player with an unsigned property and without a display name, whatever the two strings are. -/
def unsignedPlayer (signature displayName : Bytes) : PacketPlayerInfo where
  action := .addPlayer
  entries := [⟨.zero, .addPlayer
    { name := [0x61]
      properties := [⟨[0x62], [0x63], false, signature⟩]
      gameMode := 1
      ping := 0
      hasDisplayName := false
      displayName }⟩]

open PacketPlayerInfo in
theorem playerInfo_unique_unsigned :
    ∃ e₁ e₂, (unsignedPlayer [0x64] []).serializePacketPayload = some e₁ ∧
      (unsignedPlayer [] [0x65]).serializePacketPayload = some e₂ ∧
      ∀ r₁ r₂, e₁ ++ r₁ = e₂ ++ r₂ → r₁ = r₂ ∧ Action.addPlayer = Action.addPlayer ∧
        (unsignedPlayer [0x64] []).entries.map Entry.meaning =
          (unsignedPlayer [] [0x65]).entries.map Entry.meaning := by
  have hfits : ∀ signature displayName, (unsignedPlayer signature displayName).Fits := by
    intro signature displayName
    have hone : 1 < 2 ^ 31 := by decide
    exact ⟨hone, List.forall_mem_singleton.mpr ⟨rfl, hone, hone,
      List.forall_mem_singleton.mpr ⟨hone, hone, nofun⟩, nofun⟩⟩
  exact playerInfo_unique (unsignedPlayer [0x64] []) (unsignedPlayer [] [0x65])
    (hfits _ _) (hfits _ _)

end Vitamine
