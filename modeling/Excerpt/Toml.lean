import Excerpt.Platform
import Excerpt.Toml.Literal
import Excerpt.Toml.Strings

/-!
Reading TOML documents: values, then statements, each of which adds to the tables of the document
or is refused with its place in the text.
-/

namespace Excerpt.Toml

/-- Passes over blanks, line breaks and comments, at most one comment for each unit of fuel. -/
def skipArraySpace : (fuel : Nat) → Cursor → Except Fault Cursor
  | 0, c => .ok c
  | fuel + 1, c =>
    let next := c.skipWhile isSpaceOrNewline
    if next.peek? = some '#' then do
      let next ← skipComment next
      skipArraySpace fuel next
    else .ok next

def skipInArray (c : Cursor) : Except Fault Cursor := skipArraySpace (c.rest.length + 1) c

/-- The place in front of a rest of the text. -/
def goTo (c : Cursor) (rest : Text) : Cursor := c.skip (c.rest.length - rest.length)

/-- A date, a time or a number. -/
def literal (c : Cursor) : Except Fault (Value × Cursor) :=
  match dateOrTimestamp? c.rest with
  | some (some v, rest) => .ok (v, goTo c rest)
  | some (none, _) => fail .invalidDate c.pos
  | none =>
    match time? c.rest with
    | some (time, rest) => .ok (.time time, goTo c rest)
    | none =>
      match number? c.rest with
      | some (.ok v, rest) => .ok (v, goTo c rest)
      | some (.error digits, _) => .error (.numberTooLong digits)
      | none =>
        match specialFloat? c.rest with
        | some (v, rest) => .ok (v, goTo c rest)
        | none => fail .invalidValue c.pos

def stringValue (quote : Char) (c : Cursor) : Except Fault (Value × Cursor) :=
  (if c.startsWith (String.ofList [quote, quote, quote]) then multilineString quote c
    else lineString quote c).map fun (s, next) => (.text s, next)

/-- A statement's conflict, reported at a position. -/
def conflictAt (pos : Nat) (result : Except Conflict α) : Except Fault α :=
  result.mapError fun e => .malformed (.conflict e) pos

mutual

/-- A value with `room` left for values inside it. An array takes up two units of it and a table
three. The fuel bounds how many values are read inside one another. -/
def value (room : Nat) : (fuel : Nat) → Cursor → Except Fault (Value × Cursor)
  | 0, c => fail .invalidValue c.pos
  | fuel + 1, c =>
    match c.rest with
    | '"' :: _ => stringValue '"' c
    | '\'' :: _ => stringValue '\'' c
    | '[' :: _ => do
      if room < 2 then
        throw .tooDeep
      let inside ← skipInArray (c.skip 1)
      if inside.peek? = some ']' then
        return (.list [], inside.skip 1)
      else
        let (vs, next) ← items (room - 2) fuel inside
        return (.list vs, next)
    | '{' :: _ =>
      if room < 3 then .error .tooDeep
      else
        let inside := skipSpace (c.skip 1)
        if inside.peek? = some '}' then .ok (.table [], inside.skip 1)
        else inlineEntries (room - 3) fuel {} inside
    | _ =>
      match c.literal? "true", c.literal? "false" with
      | some next, _ => .ok (.bool true, next)
      | none, some next => .ok (.bool false, next)
      | none, none => literal c

/-- The items of an array up to its end. -/
def items (room : Nat) : (fuel : Nat) → Cursor → Except Fault (List Value × Cursor)
  | 0, c => fail .arrayNotClosed c.pos
  | fuel + 1, c => do
    let (v, next) ← value room fuel c
    let next ← skipInArray next
    match next.peek? with
    | some ']' => return ([v], next.skip 1)
    | some ',' =>
      let next ← skipInArray (next.skip 1)
      if next.peek? = some ']' then
        return ([v], next.skip 1)
      else
        let (vs, last) ← items room fuel next
        return (v :: vs, last)
    | _ => fail .arrayNotClosed next.pos

/-- The entries of a table in braces up to its end. -/
def inlineEntries (room : Nat) :
    (fuel : Nat) → InlineTable → Cursor → Except Fault (Value × Cursor)
  | 0, _, c => fail .inlineTableNotClosed c.pos
  | fuel + 1, t, c => do
    let ((parent, key), next) ← readKey c
    if next.peek? ≠ some '=' then
      fail .equalsMissing next.pos
    else
      let (v, next) ← value room fuel (skipSpace (next.skip 1))
      let t ← conflictAt next.pos (t.assign parent key v)
      let next := skipSpace next
      match next.peek? with
      | some '}' => return (.table t.entries, next.skip 1)
      | some ',' => inlineEntries room fuel t (skipSpace (next.skip 1))
      | _ => fail .inlineTableNotClosed next.pos

end

/-- A value; nothing nests deeper than the text is long. -/
def readValue [Platform] (c : Cursor) : Except Fault (Value × Cursor) :=
  value Platform.tomlRoom (2 * c.rest.length + 2) c

/-- A key, an equals sign and a value. -/
def assignment [Platform] (d : Document) (c : Cursor) : Except Fault (Document × Cursor) := do
  let ((parent, key), next) ← readKey c
  if next.peek? ≠ some '=' then
    fail .equalsMissing next.pos
  else
    let (v, next) ← readValue (skipSpace (next.skip 1))
    let d ← conflictAt next.pos (d.assign parent key v)
    return (d, next)

/-- A table or array declaration, with what is wrong when its brackets are not closed. -/
def declaration (d : Document) (c : Cursor) : Except Fault (Document × Cursor) :=
  if c.startsWith "[[" then do
    let ((parent, key), next) ← readKey (skipSpace (c.skip 2))
    let d ← conflictAt next.pos (d.declareItem parent key)
    match next.literal? "]]" with
    | some after => return (d, after)
    | none => fail .arrayItemNotClosed next.pos
  else do
    let ((parent, key), next) ← readKey (skipSpace (c.skip 1))
    let d ← conflictAt next.pos (d.declareTable (parent ++ [key]))
    match next.literal? "]" with
    | some after => return (d, after)
    | none => fail .tableNotClosed next.pos

/-- What a line says: an assignment, a declaration or nothing. -/
def statement [Platform] (d : Document) (c : Cursor) : Except Fault (Document × Cursor) :=
  match c.peek? with
  | some x =>
    if isBareKeyChar x || x == '"' || x == '\'' then assignment d c
    else if x = '[' then declaration d c
    else if x = '#' ∨ x = '\n' then .ok (d, c)
    else fail .invalidStatement c.pos
  | none => .ok (d, c)

/-- The statements of a document, one on each line. -/
def statements [Platform] : (fuel : Nat) → Document → Cursor → Except Fault Document
  | 0, d, _ => .ok d
  | fuel + 1, d, c => do
    let (d, next) ← statement d (skipSpace c)
    let next ← skipComment (skipSpace next)
    match next.peek? with
    | none => return d
    | some '\n' => statements fuel d (next.skip 1)
    | some _ => fail .statementNotEnded next.pos

/-- Why a text is no TOML document. A problem without a place is at the end of the text. -/
inductive Error where
  | malformed (problem : Problem) (place : Option (Nat × Nat))
  | numberTooLong (digits : Nat)
  | tooDeep
deriving Repr, DecidableEq

def Error.message : Error → String
  | .malformed problem (some (line, column)) =>
    String.ofList problem.message ++ s!" (at line {line}, column {column})"
  | .malformed problem none => String.ofList problem.message ++ " (at end of document)"
  | .numberTooLong digits => Numeral.tooLongMessage (some digits)
  | .tooDeep => "maximum recursion depth exceeded"

/-- Carriage returns in front of line feeds are dropped. -/
def unifyLineBreaks : Text → Text
  | [] => []
  | '\r' :: '\n' :: s => '\n' :: unifyLineBreaks s
  | c :: s => c :: unifyLineBreaks s

def Fault.toError (s : Text) : Fault → Error
  | .malformed problem pos =>
    .malformed problem (if pos < s.length then some (lineAndColumn s pos) else none)
  | .numberTooLong digits => .numberTooLong digits
  | .tooDeep => .tooDeep

/-- The table that a document describes. -/
def parse [Platform] (s : Text) : Except Error (List (Text × Value)) :=
  let s := unifyLineBreaks s
  ((statements (s.length + 1) {} (.ofText s)).map Document.entries).mapError (Fault.toError s)

end Excerpt.Toml
