import Excerpt.Number.Numeral
import Excerpt.Text.Halves
import Excerpt.Value

/-!
Values as whole numbers: fractions are cut off, truth values are 0 and 1, texts are read.
-/

namespace Excerpt.Value

/-- Why a value is no whole number. -/
inductive WholeError where
  | wrongType (typeName : String)
  | malformed (s : Text)
  | tooLong (digits : Nat)
  | notANumber
  | infinite
deriving Repr, DecidableEq

/-- As much of a text as a message quotes. -/
def maxQuoted : Nat := 200

def WholeError.message [Halves] : WholeError → String
  | .wrongType typeName =>
    s!"int() argument must be a string, a bytes-like object or a real number, not '{typeName}'"
  | .malformed s =>
    "invalid literal for int() with base 10: " ++ String.ofList ((Halves.quoted s).take maxQuoted)
  | .tooLong digits => Numeral.tooLongMessage (some digits)
  | .notANumber => "cannot convert float NaN to integer"
  | .infinite => "cannot convert float infinity to integer"

def toWhole : Value → Except WholeError Int
  | bool b => .ok (if b then 1 else 0)
  | int n => .ok n
  | float .nan => .error .notANumber
  | float x =>
    match x.truncate? with
    | some n => .ok n
    | none => .error .infinite
  | text s =>
    match Numeral.parse s with
    | .ok n => .ok n
    | .error .malformed => .error (.malformed s)
    | .error (.tooLong digits) => .error (.tooLong digits)
  | v => .error (.wrongType v.typeName)

end Excerpt.Value
