import Excerpt.Drawing.Underlines

/-!
The annotated excerpt, line by line: the source row, the labels on the line, then the markers of
labels over several lines that start or end there. The leaders alive are carried from row to row.
-/

namespace Excerpt

inductive Mode where
  | expanded
  | compact
deriving Repr, DecidableEq

namespace Canvas

/-- The leaders above a line: those that pass it and those that end on it. -/
def leadersAbove (line : LineLayout) : ActiveLeaders :=
  (line.passing ++ line.ending).foldl ActiveLeaders.add []

def sourceRow (c : Canvas) (active : ActiveLeaders) (line : LineLayout) : Row :=
  let text := if line.isBlank then line.text else line.text.drop c.layout.indentTrim.toNat
  Row.trimmed ⟨.source, c.numberGutter line.number ++ c.margin active ++
    Segment.run text (some (c.layout.source.style.getD c.styles.source))⟩

/-- A connector from the corner of a leader to a caret at a drawn column. -/
def connector (c : Canvas) (active : ActiveLeaders) (marker : Leader) (corner : Text)
    (col : Int) : List Segment :=
  let style := some (c.multiStyle marker)
  c.glyphGutter c.charset.separator ++ c.connectorMargin active marker corner ++
    Segment.run (repeated c.charset.horizontalBar col) style ++
    Segment.run c.charset.underliner style true

def startRow (c : Canvas) (active : ActiveLeaders) (lead : Leader) : Row :=
  Row.trimmed ⟨.connector,
    c.connector active lead c.charset.topCorner (c.drawnCol lead.span.startCol)⟩

/-- The rows of labels that start on a line, each of which adds its leader. -/
def startRows (c : Canvas) : ActiveLeaders → List Leader → List Row × ActiveLeaders
  | active, [] => ([], active)
  | active, lead :: rest =>
    let (rows, after) := c.startRows (active.add lead) rest
    (c.startRow active lead :: rows, after)

/-- The end marker of a label and its text, beside the marker or deferred. `after` are the leaders
without this one. -/
def endRows (c : Canvas) (mode : Mode) (active after : ActiveLeaders) (lead : Leader) :
    Except RenderError Drawn :=
  let style := c.multiStyle lead
  let col := c.drawnCol lead.span.markerCol
  let row : Row := ⟨.connector, c.connector active lead c.charset.bottomCorner col⟩
  let text := lead.message
  if text = [] then
    .ok ⟨[row.trimmed], []⟩
  else
    match mode with
    | .compact =>
      if c.fitsInline (row.width c.cells) text then .ok ⟨[row.beside text style], []⟩
      else .ok ⟨[row.trimmed], deferredOf [lead.toPlacedLabel]⟩
    | .expanded =>
      match c.wrap text (col + 2) with
      | [] => .error .noPieces
      | first :: rest =>
        let further := rest.map fun piece =>
          Row.trimmed ⟨.text, c.annotation after ++ Segment.pad (col + 2) ++
            Segment.run piece (some style)⟩
        .ok ⟨row.beside first style :: further, []⟩

/-- The rows of labels that end on a line, each of which frees its slot. -/
def endAll (c : Canvas) (mode : Mode) : ActiveLeaders → List Leader →
    Except RenderError (Drawn × ActiveLeaders)
  | active, [] => .ok ({}, active)
  | active, lead :: rest => do
    let after ← active.free lead.slot
    let drawn ← c.endRows mode active after lead
    let (others, final) ← c.endAll mode after rest
    return (drawn ++ others, final)

def labelRows (c : Canvas) (mode : Mode) (active : ActiveLeaders) (line : LineLayout) : Drawn :=
  match mode with
  | .expanded => { rows := (List.range line.rungCount).flatMap (c.expandedRung active line) }
  | .compact =>
    (List.range line.rungCount).foldl (fun drawn rung => drawn ++ c.compactRung active line rung) {}

/-- The rows of one line, and the leaders alive below it. -/
def drawLine (c : Canvas) (mode : Mode) (line : LineLayout) :
    Except RenderError (Drawn × ActiveLeaders) := do
  let active := leadersAbove line
  let (starting, started) := c.startRows active line.starting
  let (ending, below) ← c.endAll mode started line.ending
  return ({ rows := [c.sourceRow active line] } ++ c.labelRows mode active line ++
    { rows := starting } ++ ending, below)

def drawGroup (c : Canvas) (mode : Mode) : ActiveLeaders → List LineLayout →
    Except RenderError (Drawn × ActiveLeaders)
  | active, [] => .ok ({}, active)
  | _, line :: rest => do
    let (drawn, below) ← c.drawLine mode line
    let (others, final) ← c.drawGroup mode below rest
    return (drawn ++ others, final)

def elisionRow (c : Canvas) (active : ActiveLeaders) : Row :=
  Row.trimmed ⟨.elision, c.glyphGutter c.charset.elision ++ c.margin active⟩

/-- The groups after the first, each below an elision. -/
def drawRest (c : Canvas) (mode : Mode) : ActiveLeaders → List (List LineLayout) →
    Except RenderError Drawn
  | _, [] => .ok {}
  | active, group :: rest => do
    let (drawn, below) ← c.drawGroup mode active group
    let others ← c.drawRest mode below rest
    return { rows := [c.elisionRow active] } ++ drawn ++ others

/-- The whole excerpt with the labels whose texts are deferred. -/
def draw (c : Canvas) (mode : Mode) : Except RenderError Drawn :=
  match c.layout.groups with
  | [] => .ok {}
  | group :: rest => do
    let (drawn, below) ← c.drawGroup mode [] group
    let others ← c.drawRest mode below rest
    return drawn ++ others

/-- What an item says about the place of its label. -/
def whereabouts (span : ResolvedSpan) : Text :=
  if span.isMultiline then
    s!"lines {span.startLine + 1}-{span.endLine + 1}".toList
  else
    s!"line {span.startLine + 1}".toList

/-- The item of one deferred label: its place and the lines of its text. -/
def itemRows (c : Canvas) (lab : PlacedLabel) : List Row :=
  let left := some c.styles.leftColumn
  let place := whereabouts lab.span
  let first := Segment.run c.charset.verticalBar left ++ Segment.pad 1 ++
    Segment.run ['['] left ++ Segment.run place (some c.styles.source) ++
    Segment.run [']', ':', ' '] left
  match lab.message.splitLines with
  | [] => [Row.trimmed ⟨.item, first⟩]
  | line :: rest =>
    Row.trimmed ⟨.item, first ++ Segment.run line⟩ :: rest.map fun line =>
      Row.trimmed ⟨.item, Segment.pad (2 + place.length + 4) ++ Segment.run line⟩

/-- The list of label texts that found no place in the excerpt, by label. -/
def items (c : Canvas) (deferred : List PlacedLabel) : List Row :=
  (sortBy PlacedLabel.earlier deferred).flatMap c.itemRows

end Canvas
end Excerpt
