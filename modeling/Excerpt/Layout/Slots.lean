import Excerpt.Ordered

/-!
Leader slots for ranges of lines. Ranges that share a line get different slots; each one takes the
lowest slot that is free where it starts, so a range that starts later sits further from the text.
-/

namespace Excerpt

/-- The lines from `first` to `last`, both included. -/
structure LineRange where
  first : Int
  last : Int
deriving Repr, DecidableEq

/-- The order of registering: by first line, then by position. -/
def LineRange.startsBefore (a b : LineRange × Nat) : Bool :=
  a.1.first < b.1.first || (a.1.first == b.1.first && a.2 ≤ b.2)

/-- The lowest slot whose last range ended before a line, or a new one. -/
def freeSlot (busyUntil : List Int) (line : Int) : Nat := busyUntil.findIdx (· < line)

/-- Marks a slot as busy up to a line. -/
def occupy (busyUntil : List Int) (slot : Nat) (last : Int) : List Int :=
  if slot < busyUntil.length then busyUntil.set slot last else busyUntil ++ [last]

/-- Registers ranges one after another; the answer pairs each one's position with its slot. -/
def registerAll (busyUntil : List Int) : List (LineRange × Nat) → List (Nat × Nat)
  | [] => []
  | (range, position) :: rest =>
    let slot := freeSlot busyUntil range.first
    (position, slot) :: registerAll (occupy busyUntil slot range.last) rest

/-- The slot of each range. -/
def assignLeaderSlots (ranges : List LineRange) : List Nat :=
  let registered := registerAll [] (sortBy LineRange.startsBefore ranges.zipIdx)
  (List.range ranges.length).map fun position => (registered.lookup position).getD 0

@[simp] theorem length_assignLeaderSlots (ranges : List LineRange) :
    (assignLeaderSlots ranges).length = ranges.length := by simp [assignLeaderSlots]

end Excerpt
