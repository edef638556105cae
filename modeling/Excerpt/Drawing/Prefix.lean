import Excerpt.Layout
import Excerpt.Row
import Excerpt.Text.Wrap

/-!
What stands in front of the source text: the line number or a separator, and the margin, in which
the leaders of labels over several lines run.
-/

namespace Excerpt

def minWrapWidth : Int := 12

/-- The leaders that are alive, at most one to a slot. -/
abbrev ActiveLeaders := List Leader

namespace ActiveLeaders

def held (active : ActiveLeaders) (slot : Nat) : Option Leader := active.find? (·.slot == slot)

/-- Puts a leader into its slot. -/
def add (active : ActiveLeaders) (lead : Leader) : ActiveLeaders :=
  lead :: active.filter (·.slot != lead.slot)

/-- Frees a slot, which must be held. -/
def free (active : ActiveLeaders) (slot : Nat) : Except RenderError ActiveLeaders :=
  match active.held slot with
  | none => .error (.noLeader slot)
  | some _ => .ok (active.filter (·.slot != slot))

end ActiveLeaders

/-- What a drawing works from. -/
structure Canvas where
  cells : CellWidth
  config : Config
  layout : Layout

namespace Canvas

def charset (c : Canvas) : Charset := c.config.charset

def styles (c : Canvas) : StyleSet := c.config.styles

def singleStyle (c : Canvas) (lab : PlacedLabel) : Style :=
  lab.label.style.getD c.styles.singlelineIndicator

def multiStyle (c : Canvas) (lead : Leader) : Style :=
  lead.label.style.getD c.styles.multilineIndicator

def drawnCol (c : Canvas) (col : Int) : Int := max (col - c.layout.indentTrim) 0

/-- Whether a text fits behind `used` cells and a blank. -/
def fits (c : Canvas) (used : Int) (text : Text) : Bool :=
  match c.config.limit with
  | none => true
  | some limit => used + 1 + text.width c.cells ≤ limit

/-- The pieces of one line of a label text for `available` cells. Lines that fit, and lines for
which there is hardly any room, stay whole. -/
def wrapLine (c : Canvas) (available : Option Int) (line : Text) : List Text :=
  match available with
  | none => [line]
  | some available =>
    if available < minWrapWidth ∨ line.width c.cells ≤ available then [line]
    else
      match wrapLines c.cells available.toNat line with
      | [] => [[]]
      | first :: rest => first :: rest

/-- The pieces of a label text that is drawn from a column on. -/
def wrap (c : Canvas) (text : Text) (col : Int) : List Text :=
  text.lines.flatMap (c.wrapLine (c.config.limit.map (· - c.layout.prefixWidth - col)))

def alignRight (width number : Nat) : Text :=
  let digits := (toString number).toList
  Text.spaces (width - digits.length : Int) ++ digits

def numberGutter (c : Canvas) (number : Nat) : List Segment :=
  let left := some c.styles.leftColumn
  Segment.run (alignRight c.layout.numberWidth (number + 1)) left ++ Segment.pad 1 ++
    Segment.run c.charset.verticalBar left ++ Segment.pad 1

def glyphGutter (c : Canvas) (glyph : Text) : List Segment :=
  Segment.pad (c.layout.numberWidth + 1) ++ Segment.run glyph (some c.styles.leftColumn) ++
    Segment.pad 1

/-- The slots from the one furthest from the text to the nearest. -/
def slots (c : Canvas) : List Nat := (List.range c.layout.slotCount).reverse

def leaderCell (c : Canvas) (active : ActiveLeaders) (slot : Nat) : List Segment :=
  match active.held slot with
  | some held => Segment.run c.charset.leader (some (c.multiStyle held)) ++ Segment.pad 1
  | none => Segment.pad 2

def margin (c : Canvas) (active : ActiveLeaders) : List Segment :=
  c.slots.flatMap (c.leaderCell active)

/-- One slot of the margin beside a marker: beyond the marker's own slot as usual, in it a corner,
and nearer to the text a horizontal bar that crosses the leaders there. -/
def connectorCell (c : Canvas) (active : ActiveLeaders) (marker : Leader) (corner : Text)
    (slot : Nat) : List Segment :=
  let style := some (c.multiStyle marker)
  let bar := Segment.run c.charset.horizontalBar style
  if marker.slot < slot then c.leaderCell active slot
  else if slot = marker.slot then Segment.run corner style ++ bar
  else
    match active.held slot with
    | some held => Segment.run c.charset.crossing (some (c.multiStyle held)) ++ bar
    | none => bar ++ bar

def connectorMargin (c : Canvas) (active : ActiveLeaders) (marker : Leader) (corner : Text) :
    List Segment :=
  c.slots.flatMap (c.connectorCell active marker corner)

/-- Gutter and margin of a row beside the source. -/
def annotation (c : Canvas) (active : ActiveLeaders) : List Segment :=
  c.glyphGutter c.charset.separator ++ c.margin active

def repeated (text : Text) (times : Int) : Text := (List.replicate times.toNat text).flatten

end Canvas
end Excerpt
