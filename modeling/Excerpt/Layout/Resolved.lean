import Excerpt.LineIndex
import Excerpt.Span

/-!
Spans as lines and display columns. A span that ends exactly at the start of a line is taken to end
with the line before, so a final line feed adds no line.
-/

namespace Excerpt

/-- Lines and columns count from zero; `endCol` is the first column beyond the span. -/
structure ResolvedSpan where
  startLine : Nat
  startCol : Int
  endLine : Nat
  endCol : Int
deriving Repr, DecidableEq

namespace ResolvedSpan

def isMultiline (s : ResolvedSpan) : Bool := s.startLine != s.endLine

/-- The cells underlined on a single line. An empty span still gets one. -/
def displayWidth (s : ResolvedSpan) : Int :=
  if s.isMultiline then 0 else max (s.endCol - s.startCol) 1

/-- The column of the last covered cell, to which an end marker points. -/
def markerCol (s : ResolvedSpan) : Int := max (s.endCol - 1) 0

end ResolvedSpan

/-- Why a span has no place in a source. -/
inductive PlaceError where
  | reversed
  | unlocated (e : LocateError)
deriving Repr, DecidableEq

/-- The offset at which a span is taken to end, given the line on which it starts. -/
def effectiveEnd (index : LineIndex) (startLine : Nat) (span : Span) : Except LocateError Int := do
  if span.start < span.stop then
    let endLine ← (index.lineOf span.stop).mapError .outOfBounds
    if startLine < endLine ∧ index.starts[endLine]?.map (fun n => (n : Int)) = some span.stop then
      match index.lineBounds? (endLine - 1 : Nat) with
      | none => throw .noSuchLine
      | some (_, stop) => return stop
    else
      return span.stop
  else
    return span.stop

def resolveSpan (w : CellWidth) (tab : Int) (index : LineIndex) (span : Span) :
    Except PlaceError ResolvedSpan := do
  if span.stop < span.start then
    throw .reversed
  let start ← (index.locate w tab span.start).mapError .unlocated
  let endOffset ← (effectiveEnd index start.line span).mapError .unlocated
  let stop ← (index.locate w tab endOffset).mapError .unlocated
  if stop.line = start.line ∧ stop.col < start.col then
    -- the span ends inside a character in which it also starts
    return ⟨start.line, start.col, start.line, start.col⟩
  else
    return ⟨start.line, start.col, stop.line, stop.col⟩

end Excerpt
