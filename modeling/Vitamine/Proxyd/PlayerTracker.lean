import Vitamine.Common.Coord
import Vitamine.Lib.Index

/-!
# The player tracker (`proxyd/playertracker.hpp`)

Which values are members of a chunk, and which are subscribed to it. The two maps of the source
give the empty set for a chunk that was never looked up, so they are total here.

The ring loops of `updateViewDistance` do not go around the square: the ring leaves out every offset
that is at most the smaller distance on both axes, with its sign, and so three of the four corners
of the outer square are never touched (`mem_viewRing`).
-/

namespace Vitamine

/-- The offsets that the two ring loops go through: `-outer..outer` on both axes, without those for
which `i <= inner && j <= inner`. -/
def viewRing (outer inner : Int) : List ChunkCoord :=
  (ChunkCoord.offsets outer).filter fun d => !(d.x ≤ inner && d.z ≤ inner)

structure PlayerTracker (T : Type) where
  membership : Index ChunkCoord T
  subscriptions : Index ChunkCoord T

namespace PlayerTracker

variable {T : Type} [DecidableEq T]

def empty : PlayerTracker T := ⟨fun _ => ∅, fun _ => ∅⟩

/-- The private `subscribe`, on a region. -/
def subscribeRegion (t : PlayerTracker T) (regionStart regionEnd : ChunkCoord) (value : T) :
    PlayerTracker T :=
  { t with
    subscriptions := t.subscriptions.insertAll (ChunkCoord.region regionStart regionEnd) value }

/-- The private `unsubscribe`, on a region. -/
def unsubscribeRegion (t : PlayerTracker T) (regionStart regionEnd : ChunkCoord) (value : T) :
    PlayerTracker T :=
  { t with
    subscriptions := t.subscriptions.eraseAll (ChunkCoord.region regionStart regionEnd) value }

def enter (t : PlayerTracker T) (coord : ChunkCoord) (viewDistance : Int) (value : T) :
    PlayerTracker T :=
  let t := { t with membership := t.membership.insertAt coord value }
  t.subscribeRegion (coord - ⟨viewDistance, viewDistance⟩) (coord + ⟨viewDistance, viewDistance⟩)
    value

def leave (t : PlayerTracker T) (coord : ChunkCoord) (viewDistance : Int) (value : T) :
    PlayerTracker T :=
  let t := { t with membership := t.membership.eraseAt coord value }
  t.unsubscribeRegion (coord - ⟨viewDistance, viewDistance⟩) (coord + ⟨viewDistance, viewDistance⟩)
    value

def move (t : PlayerTracker T) (start target : ChunkCoord) (value : T) : PlayerTracker T :=
  { t with membership := (t.membership.eraseAt start value).insertAt target value }

def subscribe (t : PlayerTracker T) (chunks : List ChunkCoord) (value : T) : PlayerTracker T :=
  { t with subscriptions := t.subscriptions.insertAll chunks value }

def unsubscribe (t : PlayerTracker T) (chunks : List ChunkCoord) (value : T) : PlayerTracker T :=
  { t with subscriptions := t.subscriptions.eraseAll chunks value }

def updateViewDistance (t : PlayerTracker T) (coord : ChunkCoord)
    (oldViewDistance newViewDistance : Int) (value : T) : PlayerTracker T :=
  if oldViewDistance = newViewDistance then t
  else if newViewDistance < oldViewDistance then
    t.unsubscribe ((viewRing oldViewDistance newViewDistance).map (coord + ·)) value
  else t.subscribe ((viewRing newViewDistance oldViewDistance).map (coord + ·)) value

def subscribers (t : PlayerTracker T) (coord : ChunkCoord) : Finset T := t.subscriptions coord

def members (t : PlayerTracker T) (coord : ChunkCoord) : Finset T := t.membership coord

end PlayerTracker

/-! ## What the operations do -/

/-- The ring: the outer square without everything at most `inner` on both axes, sign included. -/
theorem mem_viewRing {outer inner : Int} {coord c : ChunkCoord} :
    c ∈ (viewRing outer inner).map (coord + ·) ↔ ChunkCoord.Within coord outer c ∧
      ¬ (c.x - coord.x ≤ inner ∧ c.z - coord.z ≤ inner) := by
  rw [List.mem_map, ChunkCoord.exists_offset (p := fun d => d ∈ viewRing outer inner), viewRing,
    List.mem_filter, ChunkCoord.mem_offsets, ChunkCoord.within_iff]
  simp only [Bool.not_eq_true', Bool.and_eq_false_iff, decide_eq_false_iff_not]
  omega

theorem mem_viewRing_ite {p : Prop} [Decidable p] {outer inner : Int} {coord c : ChunkCoord} :
    c ∈ (if p then (viewRing outer inner).map (coord + ·) else []) ↔
      p ∧ ChunkCoord.Within coord outer c ∧ ¬ (c.x - coord.x ≤ inner ∧ c.z - coord.z ≤ inner) := by
  split <;> rename_i h
  · rw [mem_viewRing]
    exact (and_iff_right h).symm
  · exact iff_of_false (List.not_mem_nil) fun hc => h hc.1

namespace PlayerTracker

variable {T : Type} [DecidableEq T] {t : PlayerTracker T} {coord c start target : ChunkCoord}
  {vd vd' : Int} {chunks : List ChunkCoord} {v w : T}

@[simp] theorem mem_subscriptions_enter : w ∈ (t.enter coord vd v).subscriptions c ↔
    w ∈ t.subscriptions c ∨ w = v ∧ ChunkCoord.Within coord vd c := by
  simp only [enter, subscribeRegion, Index.mem_insertAll, ChunkCoord.mem_square]

@[simp] theorem mem_membership_enter : w ∈ (t.enter coord vd v).membership c ↔
    w ∈ t.membership c ∨ w = v ∧ c = coord := by
  simp only [enter, subscribeRegion, Index.mem_insertAt]

@[simp] theorem mem_subscriptions_leave : w ∈ (t.leave coord vd v).subscriptions c ↔
    w ∈ t.subscriptions c ∧ ¬ (w = v ∧ ChunkCoord.Within coord vd c) := by
  simp only [leave, unsubscribeRegion, Index.mem_eraseAll, ChunkCoord.mem_square]

@[simp] theorem mem_membership_leave : w ∈ (t.leave coord vd v).membership c ↔
    w ∈ t.membership c ∧ ¬ (w = v ∧ c = coord) := by
  simp only [leave, unsubscribeRegion, Index.mem_eraseAt]

@[simp] theorem subscriptions_move :
    (t.move start target v).subscriptions = t.subscriptions := rfl

@[simp] theorem mem_membership_move : w ∈ (t.move start target v).membership c ↔
    w ∈ t.membership c ∧ ¬ (w = v ∧ c = start) ∨ w = v ∧ c = target := by
  simp only [move, Index.mem_insertAt, Index.mem_eraseAt]

@[simp] theorem membership_subscribe : (t.subscribe chunks v).membership = t.membership := rfl

@[simp] theorem membership_unsubscribe : (t.unsubscribe chunks v).membership = t.membership := rfl

@[simp] theorem mem_subscriptions_subscribe : w ∈ (t.subscribe chunks v).subscriptions c ↔
    w ∈ t.subscriptions c ∨ w = v ∧ c ∈ chunks := by
  simp only [subscribe, Index.mem_insertAll]

@[simp] theorem mem_subscriptions_unsubscribe : w ∈ (t.unsubscribe chunks v).subscriptions c ↔
    w ∈ t.subscriptions c ∧ ¬ (w = v ∧ c ∈ chunks) := by
  simp only [unsubscribe, Index.mem_eraseAll]

@[simp] theorem membership_updateViewDistance :
    (t.updateViewDistance coord vd vd' v).membership = t.membership := by
  unfold updateViewDistance
  split_ifs <;> rfl

end PlayerTracker

end Vitamine
