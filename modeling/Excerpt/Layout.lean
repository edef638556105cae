import Excerpt.Config
import Excerpt.Diagnostic
import Excerpt.Layout.Groups
import Excerpt.Layout.Resolved
import Excerpt.Layout.Rungs
import Excerpt.Text.Size

/-!
Where the labels of a diagnostic go: their lines and columns, the rung of each underline, the slot
of each leader, and the groups of lines that are shown. A layout is made before anything is drawn,
and none is made when a single label does not fit the source.
-/

namespace Excerpt

inductive SpanFault where
  | reversed
  | outOfBounds (e : OffsetOutOfBounds)
deriving Repr, DecidableEq

def SpanFault.message : SpanFault → String
  | .reversed => "start is after end"
  | .outOfBounds e => e.message

/-- A span that cannot be placed, with the index of its label when it belongs to one. -/
structure InvalidSpan where
  span : Span
  label : Option Nat
  fault : SpanFault
deriving Repr, DecidableEq

def InvalidSpan.message (e : InvalidSpan) : String :=
  let subject := match e.label with
    | some index => s!"label {index}"
    | none => "span"
  s!"{subject} has invalid span {e.span.text}: " ++ e.fault.message

/-- Why a diagnostic is not rendered. The last four name faults of a layout or a drawing; they are
kept apart so that their absence is a statement. -/
inductive RenderError where
  | noSource
  | invalidSpan (e : InvalidSpan)
  | oversized (e : SizeError)
  | noSuchLine
  | undecodable (e : Utf8.DecodeError)
  | noLeader (slot : Nat)
  | noPieces
deriving Repr, DecidableEq

def RenderError.message : RenderError → String
  | .noSource => "diagnostic has no source attached"
  | .invalidSpan e => e.message
  | .oversized e => e.message
  | .noSuchLine => "list index out of range"
  | .undecodable e => e.message
  | .noLeader slot => toString slot
  | .noPieces => "list index out of range"

/-- What a failed look-up in a source means for a rendering. -/
def RenderError.ofLocate (span : Span) (label : Nat) : LocateError → RenderError
  | .outOfBounds e => .invalidSpan ⟨span, some label, .outOfBounds e⟩
  | .noSuchLine => .noSuchLine
  | .undecodable e => .undecodable e

/-- A label with its position among the labels and the place of its span. -/
structure PlacedLabel where
  index : Nat
  label : Label
  span : ResolvedSpan
deriving Repr, DecidableEq

namespace PlacedLabel

def message (lab : PlacedLabel) : Text := lab.label.message

/-- The columns that the underline of a single-line label covers. -/
def columns (lab : PlacedLabel) : Interval :=
  ⟨lab.span.startCol, lab.span.startCol + lab.span.displayWidth⟩

/-- From left to right, labels that start together by index. -/
def leftOf (a b : PlacedLabel) : Bool :=
  a.span.startCol < b.span.startCol ||
    (a.span.startCol == b.span.startCol && a.index ≤ b.index)

def earlier (a b : PlacedLabel) : Bool := a.index ≤ b.index

end PlacedLabel

/-- A label over several lines, with the slot in which its leader runs. -/
structure Leader extends PlacedLabel where
  slot : Nat
deriving Repr, DecidableEq

def Leader.nearer (a b : Leader) : Bool := a.slot ≤ b.slot

/-- What a line does with each label that it knows, by label index: `some rung` for an underline,
`none` for a label that only passes through. -/
abbrev Schedule := List (Nat × Option Nat)

namespace Schedule

def set (s : Schedule) (label : Nat) (place : Option Nat) : Schedule :=
  (label, place) :: s.filter (·.1 ≠ label)

/-- The entries by rising label index. -/
def entries (s : Schedule) : List (Nat × Option Nat) := sortBy (fun a b => a.1 ≤ b.1) s

end Schedule

/-- Stacks the single-line labels of one line onto rungs and notes the labels that pass through. -/
def scheduleLine (singles : List PlacedLabel) (through : List Nat) : Schedule :=
  let rungs := assignRungs (singles.map PlacedLabel.columns)
  let stacked := (singles.zip rungs).foldl
    (fun s (lab, rung) => Schedule.set s lab.index (some rung)) []
  through.foldl (fun s label => Schedule.set s label none) stacked

/-- A displayed line and the labels that touch it. Its text has tabs expanded. -/
structure LineLayout where
  number : Nat
  text : Text
  singles : List (PlacedLabel × Nat) := []
  starting : List Leader := []
  ending : List Leader := []
  through : List Leader := []
  schedule : Schedule := []
deriving Repr, DecidableEq

namespace LineLayout

def isBlank (line : LineLayout) : Bool := line.text.isBlank

def rungCount (line : LineLayout) : Nat :=
  line.singles.foldl (fun count (_, rung) => max count (rung + 1)) 0

/-- The labels underlined on a rung, from left to right. -/
def onRung (line : LineLayout) (rung : Nat) : List PlacedLabel :=
  sortBy PlacedLabel.leftOf ((line.singles.filter (·.2 == rung)).map (·.1))

/-- The labels whose leader runs past the line. -/
def passing (line : LineLayout) : List Leader :=
  line.through.filter fun lead => line.schedule.lookup lead.index == some none

end LineLayout

structure Layout where
  title : Text
  source : Source
  labels : List PlacedLabel
  leaders : List Leader
  groups : List (List LineLayout)
  slotCount : Nat
  numberWidth : Nat
  indentTrim : Int
deriving Repr, DecidableEq

namespace Layout

def lines (layout : Layout) : List LineLayout := layout.groups.flatten

/-- The slot of a label, if it has a leader. -/
def slot? (layout : Layout) (lab : PlacedLabel) : Option Nat :=
  (layout.leaders.find? fun lead => lead.index == lab.index).map Leader.slot

/-- The cells in front of the source text: line number, bar and leader slots. -/
def prefixWidth (layout : Layout) : Int := layout.numberWidth + 3 + 2 * layout.slotCount

/-- Places the labels of a source in order, up to the first that does not fit. -/
def placeLabels (w : CellWidth) (tab : Int) (index : LineIndex) (position : Nat) :
    List Label → Except RenderError (List PlacedLabel)
  | [] => .ok []
  | label :: rest =>
    match resolveSpan w tab index label.span with
    | .error .reversed => .error (.invalidSpan ⟨label.span, some position, .reversed⟩)
    | .error (.unlocated e) => .error (RenderError.ofLocate label.span position e)
    | .ok span =>
      (placeLabels w tab index (position + 1) rest).map (⟨position, label, span⟩ :: ·)

/-- The labels over several lines with their slots. -/
def leadersOf (labels : List PlacedLabel) : List Leader :=
  let multiline := labels.filter (·.span.isMultiline)
  let slots := assignLeaderSlots (multiline.map fun lab => ⟨lab.span.startLine, lab.span.endLine⟩)
  (multiline.zip slots).map fun (lab, slot) => { lab with slot := slot }

/-- A displayed line with the labels that are underlined on it, start or end on it, or pass it. -/
def layLine (labels : List PlacedLabel) (leaders : List Leader) (number : Nat) (text : Text) :
    LineLayout :=
  let singles := labels.filter fun lab => !lab.span.isMultiline && lab.span.startLine == number
  let starting := leaders.filter (·.span.startLine == number)
  let ending := leaders.filter fun lead =>
    lead.span.startLine != number && lead.span.endLine == number
  let through := leaders.filter fun lead =>
    lead.span.startLine < number && number < lead.span.endLine
  let schedule := scheduleLine singles (through.map (·.index))
  { number, text, through, schedule
    singles := singles.map fun lab => (lab, ((schedule.lookup lab.index).getD none).getD 0)
    starting := sortBy Leader.nearer starting
    ending := sortBy Leader.nearer ending }

def lineNumbers (group : LineRange) : List Nat :=
  (List.range (group.last + 1 - group.first).toNat).map (group.first.toNat + ·)

/-- The cells of blanks that every line with visible text begins with. -/
def commonIndent (w : CellWidth) (lines : List LineLayout) : Int :=
  (((lines.filter fun line => !line.isBlank).map fun line => indentWidth w 4 line.text).min?).getD 0

def build [Platform] (w : CellWidth) (config : Config) (diagnostic : Diagnostic) :
    Except RenderError Layout := do
  let some source := diagnostic.source | throw .noSource
  let index := source.index
  let labels ← placeLabels w config.tab index 0 diagnostic.labels
  let leaders := leadersOf labels
  let wanted := labels.map fun lab => (⟨lab.span.startLine, lab.span.endLine⟩ : LineRange)
  let ranges := groupLines wanted index.lineCount config.context config.gap
  let groups ← ranges.mapM fun range => (lineNumbers range).mapM fun (number : Nat) =>
    match index.line number with
    | .ok text =>
      ((expandTabs? w config.tab text).map (layLine labels leaders number)).mapError .oversized
    | .error (.undecodable e) => throw (RenderError.undecodable e)
    | .error _ => throw RenderError.noSuchLine
  return {
    title := diagnostic.title
    source, labels, leaders, groups
    slotCount := leaders.foldl (fun count lead => max count (lead.slot + 1)) 0
    numberWidth := (toString (((ranges.getLast?).map LineRange.last).getD 0 + 1)).length
    indentTrim := if config.trimIndent then commonIndent w groups.flatten else 0 }

end Layout
end Excerpt
