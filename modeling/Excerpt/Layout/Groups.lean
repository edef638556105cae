import Excerpt.Layout.Slots

/-!
Which lines are shown. Ranges are widened by the lines of context, clipped to the file, and joined
where at most a given number of hidden lines lies between them.
-/

namespace Excerpt

namespace LineRange

def before (a b : LineRange) : Bool :=
  a.first < b.first || (a.first == b.first && a.last ≤ b.last)

/-- The range with `context` more lines on both sides, as far as the file reaches. -/
def widen (range : LineRange) (lineCount context : Int) : LineRange :=
  ⟨max (range.first - context) 0, min (range.last + context) (lineCount - 1)⟩

end LineRange

/-- Joins sorted ranges to the group that is open until a gap is too wide. -/
def joinRanges (gap : Int) : LineRange → List LineRange → List LineRange
  | group, [] => [group]
  | group, range :: rest =>
    if range.first - group.last - 1 ≤ gap then
      joinRanges gap ⟨group.first, max group.last range.last⟩ rest
    else
      group :: joinRanges gap range rest

/-- The groups of lines that are shown, in rising order. -/
def groupLines (ranges : List LineRange) (lineCount context gap : Int) : List LineRange :=
  match sortBy LineRange.before (ranges.map (·.widen lineCount context)) with
  | [] => []
  | group :: rest => joinRanges gap group rest

end Excerpt
