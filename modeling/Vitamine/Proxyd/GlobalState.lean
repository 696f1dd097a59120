import Vitamine.Proxyd.Clientbound
import Vitamine.Proxyd.PacketReader
import Vitamine.Proxyd.PlayerTracker

/-!
# The state of the server (`proxyd/globalstate.hpp`, `proxyd/statemachine.hpp`)

`World` is the global state together with what is at every address of a state machine. The sets of
pointers of the source are finite sets of addresses. In the runs of `server` no address is used
twice; those of `reusing` use them again, and there the entry of a registry may come to be about
another client than the one that was entered.

What happens on a connection is kept in `traffic`, in order: the frames that `onPacket` was given,
with the phase they came in, and the packets that were sent, which are the calls of
`IConnection::send`. `disconnecting` says that `IConnection::disconnect` was called, and
`outOfBounds` lists the places outside of the sixteen sections that were accessed; what such an
access does is undefined, and here it does nothing.
-/

namespace Vitamine

open Wire

abbrev StateMachinePtr := Nat

structure ServerSettings where
  maxViewDistance : BitVec 8 := 32
  reducedDebugInfo : Bool := false
  dimension : Dimension := .overworld

/-- The name generator of the UUIDs is a library's; the clock is read by whoever calls. -/
structure GlobalState where
  uuidGenerator : Bytes → Uuid
  nextEntityId : EntityId := 1
  serverSettings : ServerSettings := {}
  players : Finset StateMachinePtr := ∅
  playerTracker : PlayerTracker StateMachinePtr := .empty
  chunks : ChunkCoord → Option Chunk := fun _ => none

inductive ClientPhase where
  | initial | login | playInit | play | status
  deriving DecidableEq

structure ClientSettings where
  locale : Bytes
  viewDistance : BitVec 8
  chatMode : ChatMode
  chatColorsEnabled : Bool
  displayedSkinParts : BitVec 8
  mainHand : MainHand
  deriving DecidableEq

/-- `entityId` and `clientSettings` have no initializer in the source. -/
structure PlayerState where
  clientBrand : Bytes := []
  username : Bytes := []
  uuid : Uuid := .zero
  entityId : EntityId
  gameMode : GameMode := .creative
  clientSettings : ClientSettings
  position : EntityCoord := ⟨.finite 0, .finite 64, .finite 0⟩
  yaw : FloatValue := .finite 0
  pitch : FloatValue := .finite 0
  heldItemSlot : BitVec 8 := 0
  nextTeleportId : BitVec 32 := 0
  outstandingTeleportIds : Finset (BitVec 32) := ∅
  openWindow : BitVec 8 := 0
  abilityFlags : BitVec 8 := 0x0f
  walkingSpeed : FloatValue := .finite 1
  flyingSpeed : FloatValue := .finite 1
  sprinting : Bool := false
  crouching : Bool := false
  deriving DecidableEq

namespace PlayerState

/-- The state with the next teleport outstanding; its id is `nextTeleportId` before the call. -/
def startTeleport (s : PlayerState) : PlayerState :=
  { s with
    nextTeleportId := s.nextTeleportId + 1
    outstandingTeleportIds := insert s.nextTeleportId s.outstandingTeleportIds }

/-- Whether the id was outstanding, and the state without it. -/
def confirmTeleport (s : PlayerState) (id : BitVec 32) : Bool × PlayerState :=
  if id ∈ s.outstandingTeleportIds then
    (true, { s with outstandingTeleportIds := s.outstandingTeleportIds.erase id })
  else (false, s)

/-- `coord_cast<ChunkCoord>(position)`. -/
def chunk (s : PlayerState) : ChunkCoord := coordCast s.position

/-- `clientSettings.viewDistance`, a `UInt8` that every expression promotes to `int`. -/
def viewDistance (s : PlayerState) : Int := s.clientSettings.viewDistance.toNat

theorem viewDistance_nonneg (s : PlayerState) : 0 ≤ s.viewDistance := Int.natCast_nonneg _

end PlayerState

structure StateMachine where
  reader : PacketReader
  phase : ClientPhase
  lastPacketTime : Int
  lastKeepAliveSentTime : Int
  playerState : PlayerState

/-- The constructor of `StateMachine`: `now` is the clock, the two other arguments are what the
members without an initializer happen to hold. -/
def StateMachine.fresh (clientSettings : ClientSettings) (entityId : EntityId) (now : Int) :
    StateMachine where
  reader := ⟨[]⟩
  phase := .initial
  lastPacketTime := now
  lastKeepAliveSentTime := 0
  playerState := { entityId, clientSettings }

inductive Lifetime where
  | unused | live | destroyed
  deriving DecidableEq

inductive Traffic where
  | received (phase : ClientPhase) (frame : PacketFrame)
  | sent (packet : ClientboundPacket)

structure World where
  globalState : GlobalState
  machine : StateMachinePtr → StateMachine
  life : StateMachinePtr → Lifetime
  traffic : StateMachinePtr → List Traffic
  disconnecting : StateMachinePtr → Bool
  outOfBounds : List (ChunkCoord × BlockIndex)

namespace World

def player (w : World) (p : StateMachinePtr) : PlayerState := (w.machine p).playerState

def phase (w : World) (p : StateMachinePtr) : ClientPhase := (w.machine p).phase

def tracker (w : World) : PlayerTracker StateMachinePtr := w.globalState.playerTracker

/-! ## The writes -/

def setMachine (w : World) (p : StateMachinePtr) (m : StateMachine) : World :=
  { w with machine := Function.update w.machine p m }

def setPhase (w : World) (p : StateMachinePtr) (phase : ClientPhase) : World :=
  w.setMachine p { w.machine p with phase }

def setPlayer (w : World) (p : StateMachinePtr) (playerState : PlayerState) : World :=
  w.setMachine p { w.machine p with playerState }

def setTracker (w : World) (playerTracker : PlayerTracker StateMachinePtr) : World :=
  { w with globalState := { w.globalState with playerTracker } }

def setPlayers (w : World) (players : Finset StateMachinePtr) : World :=
  { w with globalState := { w.globalState with players } }

def setNextEntityId (w : World) (nextEntityId : EntityId) : World :=
  { w with globalState := { w.globalState with nextEntityId } }

def setChunk (w : World) (coord : ChunkCoord) (chunk : Chunk) : World :=
  { w with
    globalState := { w.globalState with
      chunks := Function.update w.globalState.chunks coord (some chunk) } }

/-- One packet to each of the targets. -/
def sendEach (w : World) (targets : Finset StateMachinePtr) (packet : ClientboundPacket) : World :=
  { w with
    traffic := fun p => if p ∈ targets then w.traffic p ++ [.sent packet] else w.traffic p }

/-- Several packets to one connection, in their order. -/
def sendAll (w : World) (this : StateMachinePtr) (packets : List ClientboundPacket) : World :=
  { w with
    traffic := Function.update w.traffic this (w.traffic this ++ packets.map .sent) }

def sendPacket (w : World) (this : StateMachinePtr) (packet : ClientboundPacket) : World :=
  w.sendAll this [packet]

def broadcastGloballyUnsafe (w : World) (this : StateMachinePtr) (packet : ClientboundPacket)
    (includeSelf : Bool) : World :=
  w.sendEach (if includeSelf then w.globalState.players else w.globalState.players.erase this)
    packet

def broadcastLocallyUnsafe (w : World) (this : StateMachinePtr) (packet : ClientboundPacket)
    (includeSelf : Bool) : World :=
  let subscribers := w.tracker.subscribers (w.player this).chunk
  w.sendEach (if includeSelf then subscribers else subscribers.erase this) packet

/-- `disconnect()`. -/
def disconnect (w : World) (this : StateMachinePtr) : World :=
  { w with disconnecting := Function.update w.disconnecting this true }

end World

namespace chat

/-- `{"text":"%1%"}`, with nothing escaped. -/
def plainText (text : Bytes) : Bytes :=
  spanFromCString "\x7b\"text\":\"" ++ text ++ spanFromCString "\"\x7d"

end chat

/-- `disconnect(message)`: the reason in the packet of the phase, then `disconnect()`. -/
def World.disconnectWith (w : World) (this : StateMachinePtr) (message : Bytes) : World :=
  let reason := chat.plainText message
  let w :=
    if w.phase this = .play then w.sendPacket this (.disconnect reason)
    else w.sendPacket this (.disconnectLogin reason)
  w.disconnect this

/-! ## What each write leaves alone -/

section Frame

variable (w : World) (p q : StateMachinePtr) (m : StateMachine) (s : PlayerState) (ph : ClientPhase)
  (i : EntityId) (t : PlayerTracker StateMachinePtr) (ps targets : Finset StateMachinePtr)
  (k : ClientboundPacket) (ks : List ClientboundPacket) (c : ChunkCoord) (chunk : Chunk)

namespace World

@[simp] theorem setMachine_globalState : (w.setMachine p m).globalState = w.globalState := rfl
@[simp] theorem setMachine_life : (w.setMachine p m).life = w.life := rfl
@[simp] theorem setMachine_traffic : (w.setMachine p m).traffic = w.traffic := rfl
@[simp] theorem setMachine_disconnecting :
    (w.setMachine p m).disconnecting = w.disconnecting := rfl
@[simp] theorem setMachine_outOfBounds : (w.setMachine p m).outOfBounds = w.outOfBounds := rfl
@[simp] theorem setMachine_machine :
    (w.setMachine p m).machine = Function.update w.machine p m := rfl
@[simp] theorem setMachine_tracker : (w.setMachine p m).tracker = w.tracker := rfl

@[simp] theorem setPhase_globalState : (w.setPhase p ph).globalState = w.globalState := rfl
@[simp] theorem setPhase_life : (w.setPhase p ph).life = w.life := rfl
@[simp] theorem setPhase_traffic : (w.setPhase p ph).traffic = w.traffic := rfl
@[simp] theorem setPhase_disconnecting : (w.setPhase p ph).disconnecting = w.disconnecting := rfl
@[simp] theorem setPhase_outOfBounds : (w.setPhase p ph).outOfBounds = w.outOfBounds := rfl
@[simp] theorem setPhase_tracker : (w.setPhase p ph).tracker = w.tracker := rfl

@[simp] theorem setPhase_player : (w.setPhase p ph).player = w.player := by
  funext q
  unfold player setPhase
  by_cases h : q = p
  · subst h
    simp
  · simp [h]

@[simp] theorem setPhase_phase :
    (w.setPhase p ph).phase = Function.update w.phase p ph := by
  funext q
  unfold phase setPhase
  by_cases h : q = p
  · subst h
    simp
  · simp [h]

@[simp] theorem setPlayer_globalState : (w.setPlayer p s).globalState = w.globalState := rfl
@[simp] theorem setPlayer_life : (w.setPlayer p s).life = w.life := rfl
@[simp] theorem setPlayer_traffic : (w.setPlayer p s).traffic = w.traffic := rfl
@[simp] theorem setPlayer_disconnecting : (w.setPlayer p s).disconnecting = w.disconnecting := rfl
@[simp] theorem setPlayer_outOfBounds : (w.setPlayer p s).outOfBounds = w.outOfBounds := rfl
@[simp] theorem setPlayer_tracker : (w.setPlayer p s).tracker = w.tracker := rfl

@[simp] theorem setPlayer_player : (w.setPlayer p s).player = Function.update w.player p s := by
  funext q
  unfold player setPlayer
  by_cases h : q = p
  · subst h
    simp
  · simp [h]

@[simp] theorem setPlayer_phase : (w.setPlayer p s).phase = w.phase := by
  funext q
  unfold phase setPlayer
  by_cases h : q = p
  · subst h
    simp
  · simp [h]

@[simp] theorem setTracker_tracker : (w.setTracker t).tracker = t := rfl
@[simp] theorem setTracker_players : (w.setTracker t).globalState.players = w.globalState.players :=
  rfl
@[simp] theorem setTracker_chunks : (w.setTracker t).globalState.chunks = w.globalState.chunks := rfl
@[simp] theorem setTracker_serverSettings :
    (w.setTracker t).globalState.serverSettings = w.globalState.serverSettings := rfl
@[simp] theorem setTracker_machine : (w.setTracker t).machine = w.machine := rfl
@[simp] theorem setTracker_player : (w.setTracker t).player = w.player := rfl
@[simp] theorem setTracker_phase : (w.setTracker t).phase = w.phase := rfl
@[simp] theorem setTracker_life : (w.setTracker t).life = w.life := rfl
@[simp] theorem setTracker_traffic : (w.setTracker t).traffic = w.traffic := rfl

@[simp] theorem setPlayers_tracker : (w.setPlayers ps).tracker = w.tracker := rfl
@[simp] theorem setPlayers_players : (w.setPlayers ps).globalState.players = ps := rfl
@[simp] theorem setPlayers_chunks : (w.setPlayers ps).globalState.chunks = w.globalState.chunks :=
  rfl
@[simp] theorem setPlayers_serverSettings :
    (w.setPlayers ps).globalState.serverSettings = w.globalState.serverSettings := rfl
@[simp] theorem setPlayers_machine : (w.setPlayers ps).machine = w.machine := rfl
@[simp] theorem setPlayers_player : (w.setPlayers ps).player = w.player := rfl
@[simp] theorem setPlayers_phase : (w.setPlayers ps).phase = w.phase := rfl
@[simp] theorem setPlayers_life : (w.setPlayers ps).life = w.life := rfl
@[simp] theorem setPlayers_traffic : (w.setPlayers ps).traffic = w.traffic := rfl

@[simp] theorem setNextEntityId_tracker : (w.setNextEntityId i).tracker = w.tracker := rfl
@[simp] theorem setNextEntityId_players :
    (w.setNextEntityId i).globalState.players = w.globalState.players := rfl
@[simp] theorem setNextEntityId_chunks :
    (w.setNextEntityId i).globalState.chunks = w.globalState.chunks := rfl
@[simp] theorem setNextEntityId_serverSettings :
    (w.setNextEntityId i).globalState.serverSettings = w.globalState.serverSettings := rfl
@[simp] theorem setNextEntityId_player : (w.setNextEntityId i).player = w.player := rfl
@[simp] theorem setNextEntityId_phase : (w.setNextEntityId i).phase = w.phase := rfl
@[simp] theorem setNextEntityId_life : (w.setNextEntityId i).life = w.life := rfl
@[simp] theorem setNextEntityId_traffic : (w.setNextEntityId i).traffic = w.traffic := rfl

@[simp] theorem setChunk_tracker : (w.setChunk c chunk).tracker = w.tracker := rfl
@[simp] theorem setChunk_players :
    (w.setChunk c chunk).globalState.players = w.globalState.players := rfl
@[simp] theorem setChunk_chunks : (w.setChunk c chunk).globalState.chunks =
    Function.update w.globalState.chunks c (some chunk) := rfl
@[simp] theorem setChunk_serverSettings :
    (w.setChunk c chunk).globalState.serverSettings = w.globalState.serverSettings := rfl
@[simp] theorem setChunk_machine : (w.setChunk c chunk).machine = w.machine := rfl
@[simp] theorem setChunk_player : (w.setChunk c chunk).player = w.player := rfl
@[simp] theorem setChunk_phase : (w.setChunk c chunk).phase = w.phase := rfl
@[simp] theorem setChunk_life : (w.setChunk c chunk).life = w.life := rfl
@[simp] theorem setChunk_traffic : (w.setChunk c chunk).traffic = w.traffic := rfl

@[simp] theorem sendEach_globalState : (w.sendEach targets k).globalState = w.globalState := rfl
@[simp] theorem sendEach_machine : (w.sendEach targets k).machine = w.machine := rfl
@[simp] theorem sendEach_player : (w.sendEach targets k).player = w.player := rfl
@[simp] theorem sendEach_phase : (w.sendEach targets k).phase = w.phase := rfl
@[simp] theorem sendEach_life : (w.sendEach targets k).life = w.life := rfl
@[simp] theorem sendEach_tracker : (w.sendEach targets k).tracker = w.tracker := rfl
@[simp] theorem sendEach_disconnecting :
    (w.sendEach targets k).disconnecting = w.disconnecting := rfl

@[simp] theorem sendEach_outOfBounds : (w.sendEach targets k).outOfBounds = w.outOfBounds := rfl

theorem sendEach_traffic : (w.sendEach targets k).traffic p =
    if p ∈ targets then w.traffic p ++ [.sent k] else w.traffic p := rfl

@[simp] theorem sendAll_globalState : (w.sendAll p ks).globalState = w.globalState := rfl
@[simp] theorem sendAll_machine : (w.sendAll p ks).machine = w.machine := rfl
@[simp] theorem sendAll_player : (w.sendAll p ks).player = w.player := rfl
@[simp] theorem sendAll_phase : (w.sendAll p ks).phase = w.phase := rfl
@[simp] theorem sendAll_life : (w.sendAll p ks).life = w.life := rfl
@[simp] theorem sendAll_tracker : (w.sendAll p ks).tracker = w.tracker := rfl
@[simp] theorem sendAll_disconnecting : (w.sendAll p ks).disconnecting = w.disconnecting := rfl
@[simp] theorem sendAll_outOfBounds : (w.sendAll p ks).outOfBounds = w.outOfBounds := rfl
@[simp] theorem sendAll_traffic : (w.sendAll p ks).traffic =
    Function.update w.traffic p (w.traffic p ++ ks.map .sent) := rfl

@[simp] theorem disconnect_globalState : (w.disconnect p).globalState = w.globalState := rfl
@[simp] theorem disconnect_machine : (w.disconnect p).machine = w.machine := rfl
@[simp] theorem disconnect_player : (w.disconnect p).player = w.player := rfl
@[simp] theorem disconnect_phase : (w.disconnect p).phase = w.phase := rfl
@[simp] theorem disconnect_life : (w.disconnect p).life = w.life := rfl
@[simp] theorem disconnect_traffic : (w.disconnect p).traffic = w.traffic := rfl
@[simp] theorem disconnect_tracker : (w.disconnect p).tracker = w.tracker := rfl

end World

end Frame

end Vitamine
