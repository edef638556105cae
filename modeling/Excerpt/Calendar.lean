import Excerpt.Text.Basic

/-!
Dates and times of day, as they are written in data files and as messages show them.
-/

namespace Excerpt

structure Date where
  year : Nat
  month : Nat
  day : Nat
deriving Repr, DecidableEq

structure TimeOfDay where
  hour : Nat
  minute : Nat
  second : Nat
  microsecond : Nat
deriving Repr, DecidableEq

/-- A date and a time; the offset from universal time, in minutes, may be unknown. -/
structure Timestamp where
  date : Date
  time : TimeOfDay
  offset : Option Int
deriving Repr, DecidableEq

def isLeapYear (year : Nat) : Bool := year % 4 == 0 && (year % 100 != 0 || year % 400 == 0)

def daysIn (year month : Nat) : Nat :=
  if month = 2 then if isLeapYear year then 29 else 28
  else if month = 4 ∨ month = 6 ∨ month = 9 ∨ month = 11 then 30
  else 31

def Date.isValid (d : Date) : Bool :=
  1 ≤ d.year && d.year ≤ 9999 && 1 ≤ d.month && d.month ≤ 12 && 1 ≤ d.day &&
    d.day ≤ daysIn d.year d.month

/-- A number with zeros in front, up to a width. -/
def zeroPadded (width n : Nat) : String :=
  let digits := toString n
  String.ofList (List.replicate (width - digits.length) '0') ++ digits

def Date.text (d : Date) : String :=
  s!"{zeroPadded 4 d.year}-{zeroPadded 2 d.month}-{zeroPadded 2 d.day}"

def TimeOfDay.text (t : TimeOfDay) : String :=
  s!"{zeroPadded 2 t.hour}:{zeroPadded 2 t.minute}:{zeroPadded 2 t.second}" ++
    if t.microsecond = 0 then "" else s!".{zeroPadded 6 t.microsecond}"

def offsetText (minutes : Int) : String :=
  let size := minutes.natAbs
  (if minutes < 0 then "-" else "+") ++ s!"{zeroPadded 2 (size / 60)}:{zeroPadded 2 (size % 60)}"

def Timestamp.text (t : Timestamp) : String :=
  s!"{t.date.text} {t.time.text}" ++ ((t.offset.map offsetText).getD "")

/-- The arguments that tell a time, without a zero fraction and then without zero seconds. -/
def TimeOfDay.arguments (t : TimeOfDay) : List Nat :=
  if t.microsecond ≠ 0 then [t.hour, t.minute, t.second, t.microsecond]
  else if t.second ≠ 0 then [t.hour, t.minute, t.second]
  else [t.hour, t.minute]

def commaSeparated (items : List String) : String := ", ".intercalate items

/-- An offset as whole days and the seconds of the last one. -/
def offsetForm (minutes : Int) : String :=
  if minutes = 0 then "datetime.timezone.utc"
  else
    let seconds := minutes * 60
    let days := seconds / 86400
    let rest := seconds % 86400
    let parts := (if days = 0 then [] else [s!"days={days}"]) ++
      (if rest = 0 then [] else [s!"seconds={rest}"])
    s!"datetime.timezone(datetime.timedelta({commaSeparated parts}))"

def Date.form (d : Date) : String := s!"datetime.date({d.year}, {d.month}, {d.day})"

def TimeOfDay.form (t : TimeOfDay) : String :=
  s!"datetime.time({commaSeparated (t.arguments.map toString)})"

def Timestamp.form (t : Timestamp) : String :=
  let numbers := [t.date.year, t.date.month, t.date.day] ++ t.time.arguments
  let zone := t.offset.toList.map fun minutes => s!"tzinfo={offsetForm minutes}"
  s!"datetime.datetime({commaSeparated (numbers.map toString ++ zone)})"

/-- How many objects the form shows inside one another: the timestamp, a zone, and the zone's
distance from universal time. -/
def Timestamp.formDepth (t : Timestamp) : Nat :=
  match t.offset with
  | none => 1
  | some 0 => 2
  | some _ => 3

end Excerpt
