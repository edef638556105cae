import Excerpt.LineIndex
import Excerpt.Span
import Excerpt.Style
import Excerpt.Text.Quoted

/-!
A named text that diagnostics point into. Offsets count the bytes of its UTF-8 form.
-/

namespace Excerpt

structure Source where
  text : Text
  name : Option Text := none
  style : Option Style := none
deriving Repr, DecidableEq

namespace Source

def data (s : Source) : Bytes := Utf8.encode s.text

def index (s : Source) : LineIndex := LineIndex.ofBytes s.data

/-- The number of bytes. -/
def length (s : Source) : Nat := s.data.length

/-- Name and length on one line. -/
def summary (s : Source) : Text :=
  let name := match s.name with
    | none => "None".toList
    | some name => Quoted.encode name
  "Source(name=".toList ++ name ++ ", length=".toList ++ (toString s.length).toList ++ [')']

def lineCount (s : Source) : Nat := s.index.lineCount

/-- A line without its terminator. -/
def line (s : Source) (number : Int) : Except LocateError Text := s.index.line number

def lineSpan (s : Source) (number : Int) : Except LocateError Span :=
  match s.index.lineBounds? number with
  | none => .error .noSuchLine
  | some (start, stop) => .ok ⟨start, stop⟩

/-- All lines, from the first to the last. -/
def lines (s : Source) : Except LocateError (List Text) :=
  (List.range s.lineCount).mapM fun (n : Nat) => s.line n

def locate (w : CellWidth) (tab : Int) (s : Source) (offset : Int) : Except LocateError Location :=
  s.index.locate w tab offset

/-- The text that a span covers, both ends moved to the start of the character they point into. -/
def spanText (s : Source) (span : Span) : Except LocateError Text := do
  let index := s.index
  (index.check span.start).mapError .outOfBounds
  (index.check span.stop).mapError .outOfBounds
  let covered := LineIndex.slice index.data (index.snap span.start).toNat (index.snap span.stop)
  (Utf8.decode covered).mapError .undecodable

end Source
end Excerpt
