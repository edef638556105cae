import Excerpt.Text.Utf8
import Excerpt.Text.Width

/-!
The lines of a UTF-8 buffer. Lines break at line feeds only; the index keeps the offset at which
each of them starts, finds the line of an offset by them, and measures how far into its line an
offset lies, in bytes and in cells.
-/

namespace Excerpt

structure OffsetOutOfBounds where
  offset : Int
  length : Nat
deriving Repr, DecidableEq

def OffsetOutOfBounds.message (e : OffsetOutOfBounds) : String :=
  s!"offset {e.offset} is out of bounds for source of length {e.length}"

inductive LocateError where
  | outOfBounds (e : OffsetOutOfBounds)
  | noSuchLine
  | undecodable (e : Utf8.DecodeError)
deriving Repr, DecidableEq

/-- Where an offset falls, all counted from zero: its line, its byte within the line and its
display column. -/
structure Location where
  line : Nat
  byteCol : Int
  col : Int
deriving Repr, DecidableEq

def lineFeed : UInt8 := 0x0A

def carriageReturn : UInt8 := 0x0D

/-- The offsets right after the line feeds of a buffer that begins at `pos`. -/
def startsAfter (pos : Nat) : Bytes → List Nat
  | [] => []
  | b :: rest =>
    if b = lineFeed then (pos + 1) :: startsAfter (pos + 1) rest else startsAfter (pos + 1) rest

structure LineIndex where
  data : Bytes
  starts : List Nat
  starts_eq : starts = 0 :: startsAfter 0 data

namespace LineIndex

def ofBytes (data : Bytes) : LineIndex := ⟨data, 0 :: startsAfter 0 data, rfl⟩

def lineCount (index : LineIndex) : Nat := index.starts.length

def check (index : LineIndex) (offset : Int) : Except OffsetOutOfBounds Unit :=
  if 0 ≤ offset ∧ offset ≤ index.data.length then .ok ()
  else .error ⟨offset, index.data.length⟩

/-- Steps back from an offset while it is inside a character. -/
def snapDown (data : Bytes) : Nat → Nat
  | 0 => 0
  | n + 1 => if (data[n + 1]?).any Utf8.isContinuation then snapDown data n else n + 1

/-- The first byte of the character that an offset points into. An offset outside the buffer stays
where it is. -/
def snap (index : LineIndex) (offset : Int) : Int :=
  if offset < 0 then offset else snapDown index.data offset.toNat

/-- The line whose start is the last one not beyond an offset. -/
def lineAt (index : LineIndex) (offset : Nat) : Nat :=
  index.starts.countP (· ≤ offset) - 1

/-- The line that holds an offset. An offset right after a line feed is on the following line. -/
def lineOf (index : LineIndex) (offset : Int) : Except OffsetOutOfBounds Nat := do
  index.check offset
  return index.lineAt offset.toNat

/-- Entry `i` of a list, a negative `i` counting back from the end. -/
def entryAt? (entries : List Nat) (i : Int) : Option Nat :=
  if 0 ≤ i then entries[i.toNat]?
  else if 0 ≤ i + entries.length then entries[(i + entries.length).toNat]?
  else none

/-- The bytes of a buffer from `start` up to `stop`, a negative `stop` counting back from the
end. -/
def slice (data : Bytes) (start : Nat) (stop : Int) : Bytes :=
  let stop := if stop < 0 then stop + data.length else stop
  (data.take stop.toNat).drop start

/-- The bounds of a line without its terminator, a line feed or a carriage return and a line feed.
Lines may be counted back from the last one; what follows the last one is then the first. -/
def lineBounds? (index : LineIndex) (line : Int) : Option (Nat × Int) := do
  let start ← entryAt? index.starts line
  let stop : Int ←
    if line + 1 < index.lineCount then
      (entryAt? index.starts (line + 1)).map fun (next : Nat) => (next : Int) - 1
    else some (index.data.length : Int)
  if start < stop ∧ index.data[(stop - 1).toNat]? = some carriageReturn then
    return (start, stop - 1)
  else
    return (start, stop)

/-- The text of a line without its terminator. -/
def line (index : LineIndex) (number : Int) : Except LocateError Text :=
  match index.lineBounds? number with
  | none => .error .noSuchLine
  | some (start, stop) => (Utf8.decode (slice index.data start stop)).mapError .undecodable

/-- Locates the first byte of the character that an offset points into. Columns end where the line
ends, without its terminator. -/
def locate (w : CellWidth) (tab : Int) (index : LineIndex) (offset : Int) :
    Except LocateError Location := do
  (index.check offset).mapError .outOfBounds
  let offset := snapDown index.data offset.toNat
  let line := index.lineAt offset
  match index.lineBounds? line with
  | none => throw .noSuchLine
  | some (start, stop) =>
    let before ← (Utf8.decode (slice index.data start (min (offset : Int) stop))).mapError
      LocateError.undecodable
    return ⟨line, offset - start, displayWidth w tab 0 before⟩

end LineIndex
end Excerpt
