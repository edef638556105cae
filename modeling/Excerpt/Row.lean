import Excerpt.Style
import Excerpt.Text.Width

/-!
Display rows: styled segments that stay apart until a row is fitted to the terminal and painted.
-/

namespace Excerpt

inductive RowKind where
  | title | blank | header | source | underline | text | connector | elision | item | footnote
deriving Repr, DecidableEq

/-- A run of characters in one style. Caret runs are never cut when a row is shortened. -/
structure Segment where
  text : Text
  style : Option Style := none
  caret : Bool := false
deriving Repr, DecidableEq

namespace Segment

def width (w : CellWidth) (seg : Segment) : Int := seg.text.width w

/-- A text as segments: one, or none when the text is empty. -/
def run (text : Text) (style : Option Style := none) (caret : Bool := false) : List Segment :=
  if text = [] then [] else [⟨text, style, caret⟩]

/-- Blanks up to a column from another one. -/
def pad (cells : Int) : List Segment := run (Text.spaces cells)

def paint (enabled : Bool) (seg : Segment) : Text :=
  match seg.style with
  | none => seg.text
  | some style => style.paint enabled seg.text

/-- Drops the spaces at the end of segments that are listed from the last to the first. -/
def trimLast : List Segment → List Segment
  | [] => []
  | seg :: rest =>
    match seg.text.trimSpaces with
    | [] => trimLast rest
    | text => { seg with text := text } :: rest

end Segment

structure Row where
  kind : RowKind
  segments : List Segment := []
deriving Repr, DecidableEq

namespace Row

def put (row : Row) (text : Text) (style : Option Style) (caret : Bool) : Row :=
  { row with segments := row.segments ++ Segment.run text style caret }

def width (w : CellWidth) (row : Row) : Int :=
  row.segments.foldr (fun seg total => seg.width w + total) 0

/-- The characters of the row without their styles. -/
def plain (row : Row) : Text := row.segments.flatMap (·.text)

/-- The row without the spaces at its end. -/
def trimmed (row : Row) : Row :=
  { row with segments := (Segment.trimLast row.segments.reverse).reverse }

/-- The row with a text beside what it holds. -/
def beside (row : Row) (text : Text) (style : Style) : Row :=
  Row.trimmed ⟨row.kind, row.segments ++ Segment.pad 1 ++ Segment.run text (some style)⟩

def paint (enabled : Bool) (row : Row) : Text := row.segments.flatMap (·.paint enabled)

end Row
end Excerpt
