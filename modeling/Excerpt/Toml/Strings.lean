import Excerpt.Number.Digits
import Excerpt.Text.Cursor
import Excerpt.Toml.Document

/-!
Strings, keys and comments of TOML, and what can be wrong with a document. Strings in double quotes
have escapes, those in single quotes are taken as they stand; tripled quotes let a string run over
several lines.
-/

namespace Excerpt.Toml

inductive Problem where
  | invalidStatement
  | statementNotEnded
  | tableNotClosed
  | arrayItemNotClosed
  | equalsMissing
  | badKeyStart
  | invalidValue
  | invalidDate
  | arrayNotClosed
  | inlineTableNotClosed
  | conflict (e : Conflict)
  | unterminated
  | quoteMissing (quote : String)
  | illegal (c : Char)
  | invalidCharacter (c : Char)
  | badEscape
  | badHex
  | notAScalar
deriving Repr, DecidableEq

def Problem.message : Problem → Text
  | .invalidStatement => "Invalid statement".toList
  | .statementNotEnded => "Expected newline or end of document after a statement".toList
  | .tableNotClosed => "Expected ']' at the end of a table declaration".toList
  | .arrayItemNotClosed => "Expected ']]' at the end of an array declaration".toList
  | .equalsMissing => "Expected '=' after a key in a key/value pair".toList
  | .badKeyStart => "Invalid initial character for a key part".toList
  | .invalidValue => "Invalid value".toList
  | .invalidDate => "Invalid date or datetime".toList
  | .arrayNotClosed => "Unclosed array".toList
  | .inlineTableNotClosed => "Unclosed inline table".toList
  | .conflict e => e.message
  | .unterminated => "Unterminated string".toList
  | .quoteMissing quote => "Expected ".toList ++ Quoted.encode quote.toList
  | .illegal c => "Illegal character ".toList ++ Quoted.encode [c]
  | .invalidCharacter c => "Found invalid character ".toList ++ Quoted.encode [c]
  | .badEscape => "Unescaped '\\' in a string".toList
  | .badHex => "Invalid hex value".toList
  | .notAScalar => "Escaped character is not a Unicode scalar value".toList

/-- A problem at a position, a whole number with too many digits, or a value inside too many
others. -/
inductive Fault where
  | malformed (problem : Problem) (pos : Nat)
  | numberTooLong (digits : Nat)
  | tooDeep
deriving Repr, DecidableEq

def fail (problem : Problem) (pos : Nat) : Except Fault α := .error (.malformed problem pos)

def isSpace (c : Char) : Bool := c == ' ' || c == '\t'

def isSpaceOrNewline (c : Char) : Bool := isSpace c || c == '\n'

/-- Characters that a string or a comment on one line cannot hold. -/
def isControl (c : Char) : Bool := (c.toNat < 0x20 && c != '\t') || c.toNat = 0x7F

def isMultilineControl (c : Char) : Bool := isControl c && c != '\n'

def isBareKeyChar (c : Char) : Bool := c.isAlphanum || c == '-' || c == '_'

def skipSpace (c : Cursor) : Cursor := c.skipWhile isSpace

/-- The text before the first place where `mark` stands, if it stands anywhere. -/
def before? (mark : Text) : Text → Option Text
  | [] => if mark = [] then some [] else none
  | c :: s => if mark.isPrefixOf (c :: s) then some [] else (before? mark s).map (c :: ·)

/-- Passes over a text of the document unless it holds a character that is not allowed there. -/
def pass (bad : Char → Bool) (s : Text) (c : Cursor) : Except Fault Cursor :=
  match s.find? bad with
  | some found => fail (.invalidCharacter found) (c.pos + (s.takeWhile fun x => !bad x).length)
  | none => .ok (c.skip s.length)

/-- The text up to a closing quote, taken as it stands. -/
def literalUntil (quote : String) (bad : Char → Bool) (c : Cursor) : Except Fault (Text × Cursor) :=
  match before? quote.toList c.rest with
  | none => fail (.quoteMissing quote) (c.pos + c.rest.length)
  | some s => do
    let next ← pass bad s c
    return (s, next.skip quote.length)

/-- A comment reaches to the end of its line. -/
def skipComment (c : Cursor) : Except Fault Cursor :=
  if c.peek? = some '#' then
    let inside := c.skip 1
    pass isControl (inside.takeWhile (· != '\n')) inside
  else .ok c

def shortEscape? : Char → Option Char
  | 'b' => some (Char.ofNat 0x08)
  | 't' => some '\t'
  | 'n' => some '\n'
  | 'f' => some (Char.ofNat 0x0C)
  | 'r' => some '\r'
  | '"' => some '"'
  | '\\' => some '\\'
  | _ => none

/-- A character by its number in `width` hexadecimal digits. -/
def hexEscape (width : Nat) (c : Cursor) : Except Fault (Text × Cursor) :=
  let digits := c.rest.take width
  if digits.length ≠ width ∨ digits.all isHexDigit = false then fail .badHex c.pos
  else
    let n := digitsValue 16 digits
    if n.isValidChar then .ok ([Char.ofNat n], c.skip width)
    else fail .notAScalar (c.pos + width)

/-- What follows a backslash. In a string over several lines a backslash at the end of a line takes
the line break and the blanks after it away. -/
def escape (multiline : Bool) (c : Cursor) : Except Fault (Text × Cursor) :=
  match c.rest with
  | [] => fail .badEscape (c.pos + 1)
  | 'u' :: _ => hexEscape 4 (c.skip 1)
  | 'U' :: _ => hexEscape 8 (c.skip 1)
  | e :: _ =>
    if multiline && isSpaceOrNewline e then
      let next := skipSpace c
      match next.peek? with
      | none => .ok ([], next)
      | some '\n' => .ok ([], (next.skip 1).skipWhile isSpaceOrNewline)
      | some _ => fail .badEscape next.pos
    else
      match shortEscape? e with
      | some x => .ok ([x], c.skip 1)
      | none => fail .badEscape (c.pos + 1)

/-- The rest of a string in double quotes. Each step takes a character, so the length of the text
is fuel enough. -/
def basicString (multiline : Bool) : (fuel : Nat) → Cursor → Except Fault (Text × Cursor)
  | 0, c => fail .unterminated c.pos
  | fuel + 1, c =>
    match c.rest with
    | [] => fail .unterminated c.pos
    | '"' :: _ =>
      if !multiline then .ok ([], c.skip 1)
      else if c.startsWith "\"\"\"" then .ok ([], c.skip 3)
      else (basicString multiline fuel (c.skip 1)).map fun (s, next) => ('"' :: s, next)
    | '\\' :: _ => do
      let (x, next) ← escape multiline (c.skip 1)
      (basicString multiline fuel next).map fun (s, next) => (x ++ s, next)
    | x :: _ =>
      if (if multiline then isMultilineControl x else isControl x) then fail (.illegal x) c.pos
      else (basicString multiline fuel (c.skip 1)).map fun (s, next) => (x :: s, next)

/-- Up to two quotes right before the closing ones belong to the string. -/
def extraQuotes (quote : Char) (read : Text × Cursor) : Text × Cursor :=
  let quotes := (read.2.rest.take 2).takeWhile (· == quote)
  (read.1 ++ quotes, read.2.skip quotes.length)

/-- A string over several lines; a line break right after the opening quotes is left out. -/
def multilineString (quote : Char) (c : Cursor) : Except Fault (Text × Cursor) :=
  let inside := c.skip 3
  let inside := if inside.peek? = some '\n' then inside.skip 1 else inside
  (extraQuotes quote) <$>
    if quote = '"' then basicString true (inside.rest.length + 1) inside
    else literalUntil "'''" isMultilineControl inside

def lineString (quote : Char) (c : Cursor) : Except Fault (Text × Cursor) :=
  if quote = '"' then basicString false (c.rest.length + 1) (c.skip 1)
  else literalUntil "'" isControl (c.skip 1)

def keyPart (c : Cursor) : Except Fault (Text × Cursor) :=
  match c.peek? with
  | some '\'' => lineString '\'' c
  | some '"' => lineString '"' c
  | some x =>
    if isBareKeyChar x then .ok (c.takeWhile isBareKeyChar, c.skipWhile isBareKeyChar)
    else fail .badKeyStart c.pos
  | none => fail .badKeyStart c.pos

/-- A key: the parts before the last one, and the last one. Blanks after it are passed over. -/
def key : (fuel : Nat) → Cursor → Except Fault ((Path × Text) × Cursor)
  | 0, c => fail .badKeyStart c.pos
  | fuel + 1, c => do
    let (part, next) ← keyPart c
    let next := skipSpace next
    if next.peek? = some '.' then
      let ((parent, last), next) ← key fuel (skipSpace (next.skip 1))
      return ((part :: parent, last), next)
    else
      return (([], part), next)

def readKey (c : Cursor) : Except Fault ((Path × Text) × Cursor) := key (c.rest.length + 1) c

end Excerpt.Toml
