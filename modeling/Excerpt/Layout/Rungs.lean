import Excerpt.Ordered

/-!
Stacking column intervals so that overlapping ones never share a rung. Narrow intervals go first
and take the lowest rung that is free, so inner annotations end up nearest the source line.
-/

namespace Excerpt

/-- Columns from `start` up to, but not including, `stop`. -/
structure Interval where
  start : Int
  stop : Int
deriving Repr, DecidableEq

namespace Interval

def width (a : Interval) : Int := a.stop - a.start

def overlaps (a b : Interval) : Bool := a.start < b.stop && b.start < a.stop

/-- The order of placing: the narrower interval first, then the one further left, then the one
with the smaller position. -/
def placedBefore (a b : Interval × Nat) : Bool :=
  a.1.width < b.1.width || (a.1.width == b.1.width &&
    (a.1.start < b.1.start || (a.1.start == b.1.start && a.2 ≤ b.2)))

theorem overlaps_comm (a b : Interval) : a.overlaps b = b.overlaps a := Bool.and_comm _ _

end Interval

/-- Whether a rung holds an interval that overlaps this one. -/
def blocks (placed : List (Interval × Nat)) (interval : Interval) (rung : Nat) : Bool :=
  placed.any fun other => other.2 == rung && interval.overlaps other.1

/-- The lowest rung that is free for an interval. -/
def freeRung (placed : List (Interval × Nat)) (interval : Interval) : Nat :=
  (List.range placed.length).findIdx fun rung => !blocks placed interval rung

/-- Places intervals one after another; the answer pairs each one's position with its rung. -/
def placeAll (placed : List (Interval × Nat)) : List (Interval × Nat) → List (Nat × Nat)
  | [] => []
  | (interval, position) :: rest =>
    let rung := freeRung placed interval
    (position, rung) :: placeAll ((interval, rung) :: placed) rest

/-- The rung of each interval. -/
def assignRungs (intervals : List Interval) : List Nat :=
  let placed := placeAll [] (sortBy Interval.placedBefore intervals.zipIdx)
  (List.range intervals.length).map fun position => (placed.lookup position).getD 0

@[simp] theorem length_assignRungs (intervals : List Interval) :
    (assignRungs intervals).length = intervals.length := by simp [assignRungs]

end Excerpt
