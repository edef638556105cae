import Excerpt.Drawing.Prefix

/-!
The labels of one line. Expanded, each underline row is followed by the texts of its labels from
right to left, with bars at the labels still to come. Compact, labels over the same columns share
one underline, the text of the last underline of a row goes beside it, and the others are deferred.
-/

namespace Excerpt.Canvas

/-- The column at which a label's underline starts, and its number of carets. -/
def underlineCols (c : Canvas) (lab : PlacedLabel) : Int × Int :=
  let start := lab.span.startCol - c.layout.indentTrim
  (max start 0, max (start + lab.span.displayWidth - max start 0) 1)

def underlineStart (c : Canvas) (lab : PlacedLabel) : Int := (c.underlineCols lab).1

/-- One run of carets to each label, left to right, when `col` columns are drawn. -/
def caretRuns (c : Canvas) : Int → List PlacedLabel → List Segment
  | _, [] => []
  | col, lab :: rest =>
    let (start, width) := c.underlineCols lab
    Segment.pad (max (start - col) 0) ++
      Segment.run (repeated c.charset.underliner width) (some (c.singleStyle lab)) true ++
      c.caretRuns (max col (start + width)) rest

def underlineSegments (c : Canvas) (active : ActiveLeaders) (labs : List PlacedLabel) :
    List Segment :=
  c.annotation active ++ c.caretRuns 0 labs

/-- A piece of a label's text under its carets, behind a bar at each label in `bars`. -/
def textRun (c : Canvas) (lab : PlacedLabel) (piece : Text) : Int → List PlacedLabel → List Segment
  | col, [] =>
    Segment.pad (max (c.underlineStart lab - col) 0) ++
      Segment.run piece (some (c.singleStyle lab))
  | col, bar :: rest =>
    Segment.pad (max (c.underlineStart bar - col) 0) ++
      Segment.run c.charset.pending (some (c.singleStyle bar)) ++
      c.textRun lab piece (c.underlineStart bar + 1) rest

/-- The text rows of labels that are listed from the right to the left. -/
def textRows (c : Canvas) (active : ActiveLeaders) : List PlacedLabel → List Row
  | [] => []
  | lab :: waiting =>
    (c.wrap lab.message (c.underlineStart lab)).map (fun piece =>
      Row.trimmed ⟨.text, c.annotation active ++ c.textRun lab piece 0 waiting.reverse⟩) ++
    c.textRows active waiting

def expandedRung (c : Canvas) (active : ActiveLeaders) (line : LineLayout) (rung : Nat) :
    List Row :=
  let labs := line.onRung rung
  Row.trimmed ⟨.underline, c.underlineSegments active labs⟩ ::
    c.textRows active (labs.filter (!·.message.isEmpty)).reverse

/-- Rows, and the labels whose text found no place in them. -/
structure Drawn where
  rows : List Row := []
  deferred : List PlacedLabel := []

def Drawn.append (a b : Drawn) : Drawn := ⟨a.rows ++ b.rows, a.deferred ++ b.deferred⟩

instance : Append Drawn := ⟨Drawn.append⟩

/-- The labels of a line that underline the same columns as `lab`, by index. -/
def sharing (c : Canvas) (line : LineLayout) (lab : PlacedLabel) : List PlacedLabel :=
  (sortBy PlacedLabel.earlier (line.singles.map (·.1))).filter fun other =>
    c.underlineCols other == c.underlineCols lab

/-- Whether a label is the one that is underlined for all that share its columns. -/
def isPrimary (c : Canvas) (line : LineLayout) (lab : PlacedLabel) : Bool :=
  (c.sharing line lab).head?.map PlacedLabel.index == some lab.index

def deferredOf (labs : List PlacedLabel) : List PlacedLabel := labs.filter (!·.message.isEmpty)

def fusedText (labs : List PlacedLabel) : Text :=
  Text.joinWith [',', ' '] ((labs.map PlacedLabel.message).filter (!·.isEmpty))

/-- Whether a text can stand beside something that ends at a column. -/
def fitsInline (c : Canvas) (used : Int) (text : Text) : Bool :=
  !text.contains '\n' && c.fits used text

def compactRung (c : Canvas) (active : ActiveLeaders) (line : LineLayout) (rung : Nat) : Drawn :=
  let labs := (line.onRung rung).filter (c.isPrimary line)
  match labs.getLast? with
  | none => {}
  | some last =>
    let row : Row := ⟨.underline, c.underlineSegments active labs⟩
    let earlier := labs.dropLast.flatMap fun lab => deferredOf (c.sharing line lab)
    let members := c.sharing line last
    let text := fusedText members
    if text ≠ [] ∧ c.fitsInline (row.width c.cells) text = true then
      ⟨[row.beside text (c.singleStyle last)], earlier⟩
    else
      ⟨[row.trimmed], earlier ++ deferredOf members⟩

end Excerpt.Canvas
