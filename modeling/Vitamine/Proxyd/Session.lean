import Vitamine.Proxyd.Finality

/-!
# The session of a connection

What the server and a client agree on can be told from what went over their connection. A `Session`
is that, folded from the traffic, and `Session.rule` is the rule book: what becomes of a frame in a
session, and what of the session. It looks at nothing of the server but at which chunks are stored.
-/

namespace Vitamine

open Wire

/-! ## Sessions -/

structure Session where
  phase : ClientPhase := .initial
  entityId : EntityId := 0
  outstandingTeleportIds : Finset (BitVec 32) := ∅
  crouching : Bool := false
  sprinting : Bool := false

namespace Session

/-- The switch of an action is thrown, whether or not it was already. -/
def act (s : Session) (actionId : BitVec 32) : Session :=
  if actionId = 0 then { s with crouching := true }
  else if actionId = 1 then { s with crouching := false }
  else if actionId = 3 then { s with sprinting := true }
  else if actionId = 4 then { s with sprinting := false }
  else s

def onHandshake (s : Session) (version nextState : BitVec 32) : Session :=
  if version ≠ PROTOCOL_VERSION then s
  else if nextState = 1 then { s with phase := .status }
  else if nextState = 2 then { s with phase := .login }
  else s

/-- Whether or not the id is outstanding. -/
def onTeleportConfirm (s : Session) (id : BitVec 32) : Session :=
  { s with phase := .play, outstandingTeleportIds := s.outstandingTeleportIds.erase id }

def onEntityAction (s : Session) (entityId actionId : BitVec 32) : Session :=
  if entityId = s.entityId then s.act actionId else s

/-- The server sends a packet. -/
def onSent (s : Session) : ClientboundPacket → Session
  | .joinGame entityId .. => { s with phase := .playInit, entityId }
  | .playerPositionLookServer _ _ _ _ _ _ teleportId =>
    { s with outstandingTeleportIds := insert teleportId s.outstandingTeleportIds }
  | _ => s

end Session

/-! ## The rules -/

/-- What becomes of a frame: it is taken, the connection is closed, or it is closed with a
reason. -/
inductive Ruling where
  | taken
  | dropped
  | refused (reason : String)
  deriving DecidableEq

namespace Session

def handshakeRuling (version nextState : BitVec 32) : Ruling :=
  if version ≠ PROTOCOL_VERSION then .refused "version mismatch"
  else if nextState = 1 ∨ nextState = 2 then .taken
  else .refused "invalid next state"

def confirmRuling (s : Session) (teleportId : BitVec 32) : Ruling :=
  if teleportId ∈ s.outstandingTeleportIds then .taken
  else .refused "PacketTeleportConfirm: invalid teleport id"

/-- The brand is one string, and nothing after it. -/
def brandRuling (channel data : Bytes) : Ruling :=
  if channel = PLUGIN_CHANNEL_MINECRAFT_BRAND then
    match deserializeString (Cursor.ofList data) with
    | .ok _ rest => if rest.size ≠ 0 then .dropped else .taken
    | .error _ _ => .dropped
  else .taken

def chatRuling (message : Bytes) : Ruling :=
  if 256 < message.length then .refused "chat message too long" else .taken

/-- No window is ever open. -/
def windowRuling (windowId : BitVec 8) : Ruling :=
  if windowId ≠ 0 then .refused "invalid window id" else .taken

def diggingRuling (stored : ChunkCoord → Bool) (status : BitVec 32) (location : BitVec 64)
    (face : BitVec 8) : Ruling :=
  if 6 < status.toInt then .refused "PacketPlayerDigging: invalid status"
  else if 5 < face.toInt then .refused "PacketPlayerDigging: invalid block face"
  else if status = 0 ∧ stored (chunkOf location) = false then .dropped
  else .taken

/-- The switch of an action is thrown by its own player only, and if it is not already. -/
def switchRuling (s : Session) (entityId : BitVec 32) (invalid already : String) (done : Bool) :
    Ruling :=
  if entityId ≠ s.entityId then .refused invalid else if done then .refused already else .taken

def actionRuling (s : Session) (entityId actionId : BitVec 32) : Ruling :=
  if actionId = 0 then
    s.switchRuling entityId "EntityAction: invalid entity id for action 'start crouching'"
      "EntityAction: already crouching" s.crouching
  else if actionId = 1 then
    s.switchRuling entityId "EntityAction: invalid entity id for action 'stop crouching'"
      "EntityAction: not crouching" (!s.crouching)
  else if actionId = 2 then .taken
  else if actionId = 3 then
    s.switchRuling entityId "EntityAction: invalid entity id for action 'start sprinting'"
      "EntityAction: already sprinting" s.sprinting
  else if actionId = 4 then
    s.switchRuling entityId "EntityAction: invalid entity id for action 'stop sprinting'"
      "EntityAction: not sprinting" (!s.sprinting)
  else if actionId = 5 ∨ actionId = 6 ∨ actionId = 7 ∨ actionId = 8 then .taken
  else .refused ("EntityAction: invalid action id: " ++ toString actionId.toInt)

def slotRuling (slot : BitVec 16) : Ruling :=
  if slot.toInt < 0 ∨ 8 < slot.toInt then .refused "HeldItemChange: invalid slot id" else .taken

def handRuling (invalid : String) (hand : BitVec 32) : Ruling :=
  if hand ≠ 0 ∧ hand ≠ 1 then .refused invalid else .taken

def initialRules (s : Session) : List (Case (Ruling × Session)) :=
  [⟨packetHandshake, fun (version, _, _, nextState, ()) =>
      (handshakeRuling version nextState, s.onHandshake version nextState)⟩]

def loginRules (s : Session) : List (Case (Ruling × Session)) :=
  [⟨packetLoginStart, fun _ => (.taken, s)⟩]

def playInitRules (s : Session) : List (Case (Ruling × Session)) :=
  [⟨packetPlayerPositionRotationClient, fun _ => (.taken, s)⟩,
   ⟨packetTeleportConfirm, fun (teleportId, ()) =>
      (s.confirmRuling teleportId, s.onTeleportConfirm teleportId)⟩,
   ⟨packetPluginMessageClient, fun (channel, data, ()) => (brandRuling channel data, s)⟩,
   ⟨packetClientSettings, fun _ => (.taken, s)⟩]

def playRules (s : Session) (stored : ChunkCoord → Bool) : List (Case (Ruling × Session)) :=
  [⟨packetChatClient, fun (message, ()) => (chatRuling message, s)⟩,
   ⟨packetClientSettings, fun _ => (.taken, s)⟩,
   ⟨packetCloseWindowClient, fun (windowId, ()) => (windowRuling windowId, s)⟩,
   ⟨packetInteractEntity, fun _ => (.taken, s)⟩,
   ⟨packetPlayerPosition, fun _ => (.taken, s)⟩,
   ⟨packetPlayerPositionRotationClient, fun _ => (.taken, s)⟩,
   ⟨packetPlayerRotation, fun _ => (.taken, s)⟩,
   ⟨packetPlayerMovement, fun _ => (.taken, s)⟩,
   ⟨packetKeepAliveClient, fun _ => (.taken, s)⟩,
   ⟨packetPlayerAbilitiesClient, fun _ => (.taken, s)⟩,
   ⟨packetPlayerDigging, fun (status, location, face, ()) =>
      (diggingRuling stored status location face, s)⟩,
   ⟨packetEntityAction, fun (entityId, actionId, _, ()) =>
      (s.actionRuling entityId actionId, s.onEntityAction entityId actionId)⟩,
   ⟨packetHeldItemChangeClient, fun (slot, ()) => (slotRuling slot, s)⟩,
   ⟨packetAnimationClient, fun (hand, ()) => (handRuling "Animation: invalid hand" hand, s)⟩,
   ⟨packetUseItem, fun (hand, ()) => (handRuling "PacketUseItem: invalid hand" hand, s)⟩]

/-- **The rule book**: what becomes of a frame, and of the session. A payload that does not decode
is never taken; an id of no case is, once the client has logged in. -/
def rule (s : Session) (stored : ChunkCoord → Bool) (frame : PacketFrame) : Ruling × Session :=
  match s.phase with
  | .initial => switchFrame s.initialRules frame (.dropped, s) (.dropped, s)
  | .login => switchFrame s.loginRules frame (.dropped, s) (.dropped, s)
  | .playInit => switchFrame s.playInitRules frame (.dropped, s) (.taken, s)
  | .play => switchFrame (s.playRules stored) frame (.dropped, s) (.taken, s)
  | .status => (.dropped, s)

/-- The chunks decide what becomes of a dig, and nothing about the session. -/
theorem rule_snd (s : Session) (stored stored' : ChunkCoord → Bool) (frame : PacketFrame) :
    (s.rule stored frame).2 = (s.rule stored' frame).2 := by
  unfold rule
  cases s.phase with
  | play =>
    let Same : Ruling × Session → Ruling × Session → Prop := fun a b => a.2 = b.2
    have hcases : CasesRel Same (s.playRules stored) (s.playRules stored') := by
      unfold playRules
      repeat refine .cons (fun _ => rfl) ?_
      exact .nil
    exact @switchFrame_rel _ _ Same _ _ hcases frame _ _ _ _ rfl rfl
  | _ => rfl

/-- An event on the connection. -/
def next (s : Session) : Traffic → Session
  | .received _ frame => (s.rule (fun _ => true) frame).2
  | .sent packet => s.onSent packet

end Session

/-- The session of a connection, from its traffic. -/
def World.session (w : World) (p : StateMachinePtr) : Session := (w.traffic p).foldl Session.next {}

end Vitamine
