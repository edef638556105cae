import Excerpt.Number.Digits
import Excerpt.Value

/-!
Numbers, dates and times of day as TOML writes them. Each reader takes the longest literal that a
text begins with and gives the rest of the text.
-/

namespace Excerpt.Toml

/-- The rest of a run of digits, single underscores between them left out. -/
def moreDigits (p : Char → Bool) : Text → Text × Text
  | [] => ([], [])
  | [c] => if p c then ([c], []) else ([], [c])
  | c :: d :: rest =>
    if p c then
      let (digits, after) := moreDigits p (d :: rest)
      (c :: digits, after)
    else if c = '_' ∧ p d = true then
      let (digits, after) := moreDigits p rest
      (d :: digits, after)
    else ([], c :: d :: rest)

/-- A run of digits with single underscores between them, if there is one. -/
def digitRun? (p : Char → Bool) : Text → Option (Text × Text)
  | [] => none
  | c :: rest =>
    if p c then
      let (digits, after) := moreDigits p rest
      some (c :: digits, after)
    else none

/-- A whole number in another base than ten. -/
def radixNumber? : Text → Option (Nat × Text)
  | '0' :: 'x' :: rest =>
    (digitRun? isHexDigit rest).map fun (ds, after) => (digitsValue 16 ds, after)
  | '0' :: 'o' :: rest =>
    (digitRun? (fun c => '0' ≤ c && c ≤ '7') rest).map fun (ds, after) => (digitsValue 8 ds, after)
  | '0' :: 'b' :: rest =>
    (digitRun? (fun c => c == '0' || c == '1') rest).map fun (ds, after) =>
      (digitsValue 2 ds, after)
  | _ => none

/-- The digits behind a decimal point, none if there are none. -/
def decimals : Text → Text × Text
  | '.' :: rest => (digitRun? isDecimalDigit rest).getD ([], '.' :: rest)
  | s => ([], s)

/-- The digits of an exponent and whether it is negative. -/
def exponent? : Text → Option (Bool × Text × Text)
  | e :: rest =>
    if e = 'e' ∨ e = 'E' then
      let (negative, body) := Numeral.sign rest
      (digitRun? isDecimalDigit body).map fun (ds, after) => (negative, ds, after)
    else none
  | [] => none

/-- The digits before a decimal point: a single zero, or a run that does not begin with one. -/
def wholePart? : Text → Option (Text × Text)
  | '0' :: rest => some (['0'], rest)
  | s => digitRun? isDecimalDigit s

/-- A number, or how many digits it has too many to be one. -/
def decimalNumber? (s : Text) : Option (Except Nat Value × Text) := do
  let (negative, body) := Numeral.sign s
  let (whole, rest) ← wholePart? body
  let (fraction, rest) := decimals rest
  match fraction, exponent? rest with
  | [], none =>
    if Numeral.maxDigits < whole.length then
      return (.error whole.length, rest)
    else
      let n : Int := digitsValue 10 whole
      return (.ok (.int (if negative then -n else n)), rest)
  | _, power =>
    let (negativePower, powerDigits, rest) := power.getD (false, [], rest)
    let size : Int := digitsValue 10 powerDigits
    let exponent := (if negativePower then -size else size) - fraction.length
    let x := Binary64.ofDecimal negative (digitsValue 10 (whole ++ fraction)) exponent
    return (.ok (.float x), rest)

def number? (s : Text) : Option (Except Nat Value × Text) :=
  match radixNumber? s with
  | some (n, rest) => some (.ok (.int n), rest)
  | none => decimalNumber? s

/-- The words for numbers that digits cannot write. -/
def specialFloats : List (String × Binary64) :=
  [("inf", .infinite false), ("nan", .nan), ("+inf", .infinite false), ("-inf", .infinite true),
    ("+nan", .nan), ("-nan", .nan)]

def specialFloat? (s : Text) : Option (Value × Text) :=
  specialFloats.findSome? fun (word, x) =>
    if word.toList.isPrefixOf s then some (.float x, s.drop word.length) else none

/-- A number of exactly `width` digits that lies between two bounds. -/
def fixedNumber? (width low high : Nat) (s : Text) : Option (Nat × Text) :=
  let digits := s.take width
  let n := digitsValue 10 digits
  if digits.length = width ∧ digits.all isDecimalDigit = true ∧ low ≤ n ∧ n ≤ high then
    some (n, s.drop width)
  else none

def expect? (c : Char) : Text → Option Text
  | d :: rest => if d = c then some rest else none
  | [] => none

/-- Year, month and day. Whether the month has that day is not asked here. -/
def date? (s : Text) : Option (Date × Text) := do
  let (year, s) ← fixedNumber? 4 0 9999 s
  let s ← expect? '-' s
  let (month, s) ← fixedNumber? 2 1 12 s
  let s ← expect? '-' s
  let (day, s) ← fixedNumber? 2 1 31 s
  return (⟨year, month, day⟩, s)

/-- The microseconds behind a point. Finer digits are cut off. -/
def microseconds (s : Text) : Nat × Text :=
  match s with
  | '.' :: rest =>
    match rest.takeWhile isDecimalDigit with
    | [] => (0, s)
    | digits =>
      (digitsValue 10 ((digits ++ List.replicate 6 '0').take 6), rest.dropWhile isDecimalDigit)
  | _ => (0, s)

def time? (s : Text) : Option (TimeOfDay × Text) := do
  let (hour, s) ← fixedNumber? 2 0 23 s
  let s ← expect? ':' s
  let (minute, s) ← fixedNumber? 2 0 59 s
  let s ← expect? ':' s
  let (second, s) ← fixedNumber? 2 0 59 s
  let (fraction, s) := microseconds s
  return (⟨hour, minute, second, fraction⟩, s)

/-- The minutes between universal time and the one that is written. -/
def offset? : Text → Option (Int × Text)
  | c :: s =>
    if c = 'Z' ∨ c = 'z' then some (0, s)
    else if c = '+' ∨ c = '-' then do
      let (hours, s) ← fixedNumber? 2 0 23 s
      let s ← expect? ':' s
      let (minutes, s) ← fixedNumber? 2 0 59 s
      let size : Int := hours * 60 + minutes
      return (if c = '-' then -size else size, s)
    else none
  | [] => none

/-- The time of day behind a date and the offset behind that. -/
def timeAfterDate? : Text → Option (TimeOfDay × Option Int × Text)
  | c :: s =>
    if c = 'T' ∨ c = 't' ∨ c = ' ' then
      (time? s).map fun (time, rest) =>
        match offset? rest with
        | some (offset, rest) => (time, some offset, rest)
        | none => (time, none, rest)
    else none
  | [] => none

/-- A date, with or without a time. The calendar may lack the day, and then there is no value. -/
def dateOrTimestamp? (s : Text) : Option (Option Value × Text) := do
  let (date, rest) ← date? s
  let (v, rest) := match timeAfterDate? rest with
    | some (time, offset, rest) => (Value.timestamp ⟨date, time, offset⟩, rest)
    | none => (Value.date date, rest)
  return (if date.isValid then some v else none, rest)

end Excerpt.Toml
