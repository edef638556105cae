import Excerpt.Number.Digits
import Excerpt.Platform
import Excerpt.Text.Cursor
import Excerpt.Value

/-!
Reading JSON. Besides the standard, `NaN` and the infinities are numbers, and of entries under one
key the last counts. Half of a surrogate pair may stand alone in a string. What is wrong is reported
with its place in the text. Values that lie too deep inside one another are refused, as are whole
numbers with too many digits.
-/

namespace Excerpt.Json

inductive Problem where
  | expectingValue
  | expectingKey
  | expectingColon
  | expectingComma
  | extraData
  | controlCharacter
  | badEscape
  | badUnicodeEscape
  | unterminated
  | byteOrderMark
deriving Repr, DecidableEq

def Problem.message : Problem → String
  | .expectingValue => "Expecting value"
  | .expectingKey => "Expecting property name enclosed in double quotes"
  | .expectingColon => "Expecting ':' delimiter"
  | .expectingComma => "Expecting ',' delimiter"
  | .extraData => "Extra data"
  | .controlCharacter => "Invalid control character at"
  | .badEscape => "Invalid \\escape"
  | .badUnicodeEscape => "Invalid \\uXXXX escape"
  | .unterminated => "Unterminated string starting at"
  | .byteOrderMark => "Unexpected UTF-8 BOM (decode using utf-8-sig)"

/-- The two kinds of values that hold others. -/
inductive Container where
  | list
  | table
deriving Repr, DecidableEq

def Container.name : Container → String
  | .list => "array"
  | .table => "object"

/-- A problem at a position, a whole number with too many digits, or a value inside too many
others. -/
inductive Fault where
  | malformed (problem : Problem) (pos : Nat)
  | numberTooLong (digits : Nat)
  | tooDeep (container : Container)
deriving Repr, DecidableEq

abbrev Result (α : Type) := Except Fault (α × Cursor)

def fail (problem : Problem) (pos : Nat) : Except Fault α := .error (.malformed problem pos)

def isSpace (c : Char) : Bool := c == ' ' || c == '\t' || c == '\n' || c == '\r'

def skipSpace (c : Cursor) : Cursor := c.skipWhile isSpace

def fourHex? : Text → Option (Nat × Text)
  | a :: b :: c :: d :: rest => do
    let a ← hexValue? a
    let b ← hexValue? b
    let c ← hexValue? c
    let d ← hexValue? d
    return (((a * 16 + b) * 16 + c) * 16 + d, rest)
  | _ => none

def isHighSurrogate (n : Nat) : Bool := 0xD800 ≤ n && n < 0xDC00

def isLowSurrogate (n : Nat) : Bool := 0xDC00 ≤ n && n < 0xE000

def shortEscape? : Char → Option Char
  | '"' => some '"'
  | '\\' => some '\\'
  | '/' => some '/'
  | 'b' => some (Char.ofNat 0x08)
  | 'f' => some (Char.ofNat 0x0C)
  | 'n' => some '\n'
  | 'r' => some '\r'
  | 't' => some '\t'
  | _ => none

/-- A character, or half of a surrogate pair, by its number. -/
def character [Halves] (n : Nat) : Char :=
  if Unicode.isSurrogate n then Halves.char n else Char.ofNat n

/-- The second half of a surrogate pair, when it is there. Like any escape of four digits, it does
not end the document. -/
def lowHalf? : Text → Option (Nat × Text)
  | '\\' :: 'u' :: rest => do
    let (n, rest) ← fourHex? rest
    if isLowSurrogate n ∧ rest ≠ [] then some (n, rest) else none
  | _ => none

/-- A string whose opening quote stands at `start`, from position `pos` inside it on. At most
`fuel` characters and escapes are read, and the text is no longer. -/
def string [Halves] (start : Nat) : (fuel pos : Nat) → Text → Result Text
  | 0, _, _ => fail .unterminated start
  | _, _, [] => fail .unterminated start
  | fuel + 1, pos, c :: rest =>
    if c = '"' then .ok ([], ⟨pos + 1, rest⟩)
    else if c = '\\' then
      match rest with
      | [] => fail .unterminated start
      | 'u' :: digits =>
        -- four digits and at least one more character are needed
        if digits.length < 5 then fail .badUnicodeEscape (pos + 1)
        else
          match fourHex? digits with
          | none => fail .badUnicodeEscape (pos + 1)
          | some (n, rest) =>
            match if isHighSurrogate n then lowHalf? rest else none with
            | some (low, rest) =>
              let joined := 0x10000 + (n - 0xD800) * 0x400 + (low - 0xDC00)
              (string start fuel (pos + 12) rest).map fun (s, c) => (character joined :: s, c)
            | none =>
              (string start fuel (pos + 6) rest).map fun (s, c) => (character n :: s, c)
      | e :: rest =>
        match shortEscape? e with
        | none => fail .badEscape pos
        | some x => (string start fuel (pos + 2) rest).map fun (s, c) => (x :: s, c)
    else if c.toNat < 0x20 then fail .controlCharacter pos
    else (string start fuel (pos + 1) rest).map fun (s, next) => (c :: s, next)

def readString [Halves] (c : Cursor) : Result Text :=
  string c.pos c.rest.length (c.pos + 1) (c.rest.drop 1)

/-- The digits behind a decimal point, if there are any. -/
def fraction? : Text → Option (Text × Text)
  | '.' :: rest =>
    match rest.takeWhile isDecimalDigit with
    | [] => none
    | digits => some (digits, rest.dropWhile isDecimalDigit)
  | _ => none

/-- An exponent and its number of characters. -/
def exponent? : Text → Option (Int × Nat)
  | e :: rest =>
    if e = 'e' ∨ e = 'E' then
      let (negative, body, signs) := match rest with
        | '-' :: body => (true, body, 1)
        | '+' :: body => (false, body, 1)
        | body => (false, body, 0)
      match body.takeWhile isDecimalDigit with
      | [] => none
      | digits =>
        let size : Int := digitsValue 10 digits
        some (if negative then -size else size, 1 + signs + digits.length)
    else none
  | [] => none

/-- A number. Without fraction and exponent it is a whole number. -/
def number (c : Cursor) : Result Value :=
  let (negative, body) := match c.rest with
    | '-' :: body => (true, body)
    | body => (false, body)
  let whole := match body with
    | '0' :: _ => ['0']
    | body => body.takeWhile isDecimalDigit
  if whole = [] then fail .expectingValue c.pos
  else
    let afterWhole := body.drop whole.length
    let (decimals, afterDecimals) := (fraction? afterWhole).getD ([], afterWhole)
    let (power, powerLength) := (exponent? afterDecimals).getD (0, 0)
    let size := (if negative then 1 else 0) + whole.length +
      (if decimals = [] then 0 else decimals.length + 1) + powerLength
    let next := c.skip size
    if decimals = [] ∧ powerLength = 0 then
      if Numeral.maxDigits < whole.length then .error (.numberTooLong whole.length)
      else
        let n : Int := digitsValue 10 whole
        .ok (.int (if negative then -n else n), next)
    else
      let digits := digitsValue 10 (whole ++ decimals)
      .ok (.float (Binary64.ofDecimal negative digits (power - decimals.length)), next)

/-- The words that stand for values. -/
def constants : List (String × Value) :=
  [("null", .null), ("true", .bool true), ("false", .bool false), ("NaN", .float .nan),
    ("Infinity", .float (.infinite false)), ("-Infinity", .float (.infinite true))]

def constant? (c : Cursor) : Option (Value × Cursor) :=
  constants.findSome? fun (word, v) => (c.literal? word).map fun next => (v, next)

mutual

/-- A value with room for `room` more values around one another. The fuel bounds how many values
and entries are read inside one another. -/
def value [Halves] (room : Nat) : (fuel : Nat) → Cursor → Result Value
  | 0, c => fail .expectingValue c.pos
  | fuel + 1, c =>
    match c.rest with
    | '"' :: _ => (readString c).map fun (s, next) => (.text s, next)
    | '{' :: _ =>
      if room = 0 then .error (.tooDeep .table)
      else
        let inside := skipSpace (c.skip 1)
        if inside.peek? = some '}' then .ok (.table [], inside.skip 1)
        else (entries (room - 1) fuel inside).map fun (es, next) =>
          (.table (es.foldl (fun table (key, v) => Value.insert table key v) []), next)
    | '[' :: _ =>
      if room = 0 then .error (.tooDeep .list)
      else
        let inside := skipSpace (c.skip 1)
        if inside.peek? = some ']' then .ok (.list [], inside.skip 1)
        else (items (room - 1) fuel inside).map fun (vs, next) => (.list vs, next)
    | _ =>
      match constant? c with
      | some found => .ok found
      | none => number c

/-- The items of a list up to its end. -/
def items [Halves] (room : Nat) :
    (fuel : Nat) → Cursor → Except Fault (List Value × Cursor)
  | 0, c => fail .expectingValue c.pos
  | fuel + 1, c => do
    let (v, next) ← value room fuel c
    let next := skipSpace next
    match next.peek? with
    | some ']' => .ok ([v], next.skip 1)
    | some ',' =>
      (items room fuel (skipSpace (next.skip 1))).map fun (vs, last) => (v :: vs, last)
    | _ => fail .expectingComma next.pos

/-- The entries of a table up to its end. -/
def entries [Halves] (room : Nat) :
    (fuel : Nat) → Cursor → Except Fault (List (Text × Value) × Cursor)
  | 0, c => fail .expectingValue c.pos
  | fuel + 1, c => do
    if c.peek? ≠ some '"' then
      fail .expectingKey c.pos
    else
      let (key, next) ← readString c
      let next := skipSpace next
      if next.peek? ≠ some ':' then
        fail .expectingColon next.pos
      else
        let (v, next) ← value room fuel (skipSpace (next.skip 1))
        let next := skipSpace next
        match next.peek? with
        | some '}' => .ok ([(key, v)], next.skip 1)
        | some ',' =>
          (entries room fuel (skipSpace (next.skip 1))).map fun (es, last) =>
            ((key, v) :: es, last)
        | _ => fail .expectingComma next.pos

end

/-- Why a text is no JSON document. -/
inductive Error where
  | malformed (problem : Problem) (line column pos : Nat)
  | numberTooLong (digits : Nat)
  | tooDeep (container : Container)
deriving Repr, DecidableEq

def Error.message : Error → String
  | .malformed problem line column pos =>
    s!"{problem.message}: line {line} column {column} (char {pos})"
  | .numberTooLong digits => Numeral.tooLongMessage (some digits)
  | .tooDeep container =>
    s!"maximum recursion depth exceeded while decoding a JSON {container.name}" ++
      " from a unicode string"

/-- One value with nothing but space around it. Each nested value takes at least one character for
every two that the fuel counts. -/
def document [Platform] (s : Text) : Except Fault Value := do
  if s.head? = some (Char.ofNat 0xFEFF) then
    fail .byteOrderMark 0
  else
    let (v, next) ← value Platform.jsonDepth (2 * s.length + 2) (skipSpace (.ofText s))
    let next := skipSpace next
    if next.rest = [] then
      return v
    else
      fail .extraData next.pos

def parse [Platform] (s : Text) : Except Error Value :=
  match document s with
  | .ok v => .ok v
  | .error (.numberTooLong digits) => .error (.numberTooLong digits)
  | .error (.tooDeep container) => .error (.tooDeep container)
  | .error (.malformed problem pos) =>
    let (line, column) := lineAndColumn s pos
    .error (.malformed problem line column pos)

end Excerpt.Json
