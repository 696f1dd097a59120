import Mathlib.Algebra.Order.Ring.Rat
import Mathlib.Data.Fintype.Basic
import Vitamine.Lib.Follow
import Vitamine.Lib.Rounding
import Vitamine.Lib.System
import Vitamine.Proxyd.Handlers

/-!
# Relayed positions (`StateMachine::createMovePacket`)

Where an observer has a player, and where the player is. Positions are points with rational
coordinates.

* `track`: what a client makes of a packet about a player's position.
* `track_createMovePacket`: a move packet tells the step cut to a whole number of units, or the
  position if the step is too long.
* `noDrift_iff`: the copy stays within one unit as long as the cut off parts add up to less.
* `follower_copy`: what a move sends to those who see the player before and after it.
-/

namespace Vitamine

open Rounding (towardZero towardZero_mem_iff)

inductive Axis where
  | x | y | z
  deriving DecidableEq

instance : Fintype Axis := ⟨{.x, .y, .z}, fun axis => by cases axis <;> decide⟩

abbrev Point := Axis → ℚ

/-- The rational number that a value is, if it is one. -/
def FloatValue.toRat : FloatValue → ℚ
  | .finite a => a
  | _ => 0

/-- The point of three coordinates. -/
def Point.of (x y z : FloatValue) : Point
  | .x => x.toRat
  | .y => y.toRat
  | .z => z.toRat

def Point.toCoord (p : Point) : EntityCoord := ⟨.finite (p .x), .finite (p .y), .finite (p .z)⟩

def pointOf (coord : EntityCoord) : Point := Point.of coord.x coord.y coord.z

@[simp] theorem pointOf_toCoord (p : Point) : pointOf p.toCoord = p := by
  funext axis
  cases axis <;> rfl

/-- The step of `(dx, dy, dz)` units. -/
def stepOf (dx dy dz : BitVec 16) : Point
  | .x => dx.toInt / 4096
  | .y => dy.toInt / 4096
  | .z => dz.toInt / 4096

/-- What a client makes of a packet that tells the position of the entity. -/
def track (entityId : EntityId) (copy : Point) : ClientboundPacket → Point
  | .spawnPlayer id _ x y z _ _ _ => if id = entityId then Point.of x y z else copy
  | .entityTeleport id x y z _ _ _ => if id = entityId then Point.of x y z else copy
  | .entityMove id dx dy dz _ => if id = entityId then copy + stepOf dx dy dz else copy
  | .entityMoveRotation id dx dy dz _ _ _ => if id = entityId then copy + stepOf dx dy dz else copy
  | _ => copy

/-! ## Move packets -/

/-- In units, the step is out of the range of a move packet on some axis. -/
def TooFar (step : Point) : Prop := ∃ axis, ¬ (-32768 ≤ step axis * 4096 ∧ step axis * 4096 ≤ 32767)

instance : DecidablePred TooFar := fun step =>
  inferInstanceAs (Decidable (∃ axis, ¬ (-32768 ≤ step axis * 4096 ∧ step axis * 4096 ≤ 32767)))

/-- The step cut to whole units. -/
def cutStep (step : Point) : Point := fun axis => towardZero (step axis * 4096) / 4096

theorem toInt_toInt16 {a : ℚ} (hl : -32768 ≤ a) (hu : a ≤ 32767) :
    (FloatValue.finite a).toInt16.toInt = towardZero a := by
  obtain ⟨hl', hu'⟩ : -32768 ≤ towardZero a ∧ towardZero a ≤ 32767 := by
    refine (towardZero_mem_iff (by decide) (by decide)).mpr ⟨?_, ?_⟩ <;> push_cast <;>
      linarith
  have hint32 : (FloatValue.finite a).toInt32 = towardZero a := by
    show (if -2 ^ 31 ≤ towardZero a ∧ towardZero a < 2 ^ 31 then towardZero a else -2 ^ 31) =
      towardZero a
    rw [if_pos (by omega)]
  rw [FloatValue.toInt16, hint32]
  exact BitVec.toInt_ofInt_eq_self (by decide) (by omega) (by omega)

/-- A move packet tells the step cut to whole units, or the position if the step is too long. -/
theorem track_createMovePacket (state : PlayerState) (old new copy : Point) (rotate : Bool)
    (hnew : state.position = new.toCoord) :
    track state.entityId copy (createMovePacket state old.toCoord rotate) =
      Follow.tell TooFar cutStep old new copy := by
  have hdiff : (state.position - old.toCoord).scale 4096 =
      ⟨.finite ((new - old) .x * 4096), .finite ((new - old) .y * 4096),
        .finite ((new - old) .z * 4096)⟩ := by
    rw [hnew]
    rfl
  have hwithin : Vector3XYZ.withinOrdered ((state.position - old.toCoord).scale 4096)
      ⟨.finite (-32768), .finite (-32768), .finite (-32768)⟩
      ⟨.finite 32767, .finite 32767, .finite 32767⟩ = true ↔ ¬ TooFar (new - old) := by
    rw [hdiff, TooFar]
    simp only [Vector3XYZ.withinOrdered, FloatValue.le, Bool.and_eq_true, decide_eq_true_eq,
      not_exists, not_not]
    constructor
    · rintro ⟨⟨⟨⟨⟨hx, hx'⟩, hy⟩, hy'⟩, hz⟩, hz'⟩ axis
      cases axis
      · exact ⟨hx, hx'⟩
      · exact ⟨hy, hy'⟩
      · exact ⟨hz, hz'⟩
    · intro h
      exact ⟨⟨⟨⟨⟨(h .x).1, (h .x).2⟩, (h .y).1⟩, (h .y).2⟩, (h .z).1⟩, (h .z).2⟩
  unfold createMovePacket Follow.tell
  by_cases hfar : TooFar (new - old)
  · have hout := Bool.eq_false_iff.mpr fun h => hwithin.mp h hfar
    simp only [hout, Bool.not_false, if_true, if_pos hfar, track]
    rw [hnew]
    exact pointOf_toCoord new
  · have hin := hwithin.mpr hfar
    have hrange : ∀ axis, -32768 ≤ (new - old) axis * 4096 ∧ (new - old) axis * 4096 ≤ 32767 := by
      simpa only [TooFar, not_exists, not_not] using hfar
    have hstep : stepOf (FloatValue.finite ((new - old) .x * 4096)).toInt16
        (FloatValue.finite ((new - old) .y * 4096)).toInt16
        (FloatValue.finite ((new - old) .z * 4096)).toInt16 = cutStep (new - old) := by
      funext axis
      have htrunc := toInt_toInt16 (hrange axis).1 (hrange axis).2
      cases axis <;> exact congrArg (fun n : ℤ => (n : ℚ) / 4096) htrunc
    rw [hdiff] at hin
    rw [if_neg hfar, ← hstep]
    simp only [hdiff, hin, Bool.not_true, Bool.false_eq_true, if_false]
    cases rotate <;> exact if_pos rfl

/-! ## An observer of a player -/

/-- A change of position, with or without a change of the angles. -/
structure PositionChange where
  position : Point
  look : Option (FloatValue × FloatValue)

def PlayerState.moved (s : PlayerState) (change : PositionChange) : PlayerState :=
  match change.look with
  | none => { s with position := change.position.toCoord }
  | some (yaw, pitch) => { s with position := change.position.toCoord, yaw, pitch }

/-- A player and where an observer has it. -/
structure Relay where
  player : PlayerState
  copy : Point

namespace Relay

/-- The observer is sent the player's `SpawnPlayer`. -/
def spawned (state : PlayerState) (position : Point) : Relay :=
  let player := { state with position := position.toCoord }
  ⟨player, track player.entityId 0 (createSpawnPacket player)⟩

/-- The player changes its position, and the observer is sent the move packet. -/
def next (r : Relay) (change : PositionChange) : Relay :=
  let player := r.player.moved change
  let packet := createMovePacket player r.player.position change.look.isSome
  ⟨player, track player.entityId r.copy packet⟩

/-- The copy differs from the position by less than one unit on every axis. -/
def NoDrift (r : Relay) : Prop := ∀ axis, |pointOf r.player.position axis - r.copy axis| < 1 / 4096

end Relay

/-- Every sequence of changes of position. -/
def relaySystem : System Relay PositionChange where
  enabled _ _ := True
  next := Relay.next

/-- What the cutting of the steps since the last teleport has left out, on each axis. -/
def leftOut (start : Point) (changes : List PositionChange) : Point :=
  Follow.left TooFar cutStep start (changes.map PositionChange.position)

@[simp] theorem moved_position (s : PlayerState) (change : PositionChange) :
    (s.moved change).position = change.position.toCoord := by
  unfold PlayerState.moved
  split <;> rfl

/-- The copy is behind the position by what was left out. -/
theorem walk_after (state : PlayerState) (start : Point) (changes : List PositionChange) :
    let r := relaySystem.after (.spawned state start) changes
    ∃ position : Point, r.player.position = position.toCoord ∧
      Follow.walk TooFar cutStep start 0 (changes.map PositionChange.position) =
        (position, position - r.copy) := by
  induction changes using List.reverseRecOn with
  | nil =>
    refine ⟨start, rfl, ?_⟩
    have hcopy : (Relay.spawned state start).copy = start := by
      show track state.entityId 0 (createSpawnPacket { state with position := start.toCoord }) = start
      rw [createSpawnPacket, track, if_pos rfl]
      exact pointOf_toCoord start
    simp [hcopy]
  | append_singleton changes change ih =>
    obtain ⟨old, hold, hwalk⟩ := ih
    refine ⟨change.position, by simp [relaySystem, Relay.next], ?_⟩
    rw [List.map_append, List.map_singleton, Follow.walk_snoc, hwalk, System.after_snoc]
    show (_, _) = (change.position, change.position - track _ _ _)
    rw [hold, track_createMovePacket _ _ change.position _ _ (moved_position _ _), Follow.sub_tell]

/-- **Relayed positions do not drift** as long as what the cutting of the steps has left out since
the last teleport is less than one unit on every axis. -/
theorem noDrift_iff (state : PlayerState) (start : Point) (changes : List PositionChange) :
    relaySystem.Along (.spawned state start) changes Relay.NoDrift ↔
      ∀ pre, pre <+: changes → ∀ axis, |leftOut start pre axis| < 1 / 4096 := by
  refine forall_congr' fun pre => forall_congr' fun _ => forall_congr' fun axis => ?_
  obtain ⟨position, hposition, hwalk⟩ := walk_after state start pre
  rw [leftOut, Follow.left, hwalk, hposition, pointOf_toCoord]
  exact Iff.rfl

/-- A player at the origin makes two steps of half a unit: both are cut to nothing. -/
theorem half_steps_drift :
    ¬ relaySystem.Along (.spawned ((server.after emptyServer (joinSteps 0 2)).player 0) 0)
      [⟨fun axis => if axis = .x then 1 / 8192 else 0, none⟩,
        ⟨fun axis => if axis = .x then 1 / 4096 else 0, none⟩] Relay.NoDrift := by
  intro h
  exact absurd (h.last .x) (by decide +kernel)

/-! ## What a move sends -/

namespace World

variable (w : World) (this : StateMachinePtr) {q : StateMachinePtr} {oldPosition : EntityCoord}

/-- Those who see the player before and after a move are sent the move packet. -/
theorem onMove_traffic_follower {rotate : Bool} (hq : q ≠ this)
    (hold : q ∈ w.tracker.subscriptions (coordCast oldPosition))
    (hnew : q ∈ w.tracker.subscriptions (w.player this).chunk) :
    (w.onMove this oldPosition rotate).traffic q = w.traffic q ++
      (createMovePacket (w.player this) oldPosition rotate ::
        if rotate then [createHeadLookPacket (w.player this)] else []).map .sent := by
  unfold onMove
  simp only
  by_cases hmove : (w.player this).chunk = coordCast oldPosition
  · have hmem : q ∈ (w.tracker.subscribers (w.player this).chunk).erase this :=
      Finset.mem_erase.mpr ⟨hq, hnew⟩
    rw [if_neg (not_not_intro hmove)]
    cases rotate <;> simp [broadcastLocallyUnsafe, sendEach_traffic_append, hmem]
  · rw [if_pos hmove, onChunkTransition_traffic_ne (h := hq), movePackets, if_pos hold, if_pos hnew]

/-- What a follower makes of a move in the world is what the observer of a relay makes of it. -/
theorem onMove_follower (change : PositionChange) (copy : Point) (hq : q ≠ this)
    (hold : q ∈ w.tracker.subscriptions (w.player this).chunk)
    (hnew : q ∈ w.tracker.subscriptions ((w.player this).moved change).chunk) :
    ∃ packets : List ClientboundPacket,
      ((w.setPlayer this ((w.player this).moved change)).onMove this (w.player this).position
          change.look.isSome).traffic q = w.traffic q ++ packets.map .sent ∧
        packets.foldl (track (w.player this).entityId) copy =
          (Relay.next ⟨w.player this, copy⟩ change).copy := by
  have hplayer : (w.setPlayer this ((w.player this).moved change)).player this =
      (w.player this).moved change := by simp
  have hentity : ((w.player this).moved change).entityId = (w.player this).entityId := by
    unfold PlayerState.moved
    split <;> rfl
  have hsent := @onMove_traffic_follower (w.setPlayer this ((w.player this).moved change)) this q
    (w.player this).position change.look.isSome hq hold (by rw [hplayer]; exact hnew)
  refine ⟨_, hsent, ?_⟩
  rw [hplayer, List.foldl_cons, Relay.next]
  simp only [hentity]
  -- The head look tells no position.
  split <;> rfl

end World

end Vitamine
