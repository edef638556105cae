import Excerpt.Text.Basic
import Excerpt.Unicode.Digit

/-!
Whole numbers in texts: decimal digits of any script, single underscores between them, an optional
sign, and blanks around it all.
-/

namespace Excerpt.Numeral

/-- Blanks that may surround a number; the four information separators may not. -/
def isPadding (c : Char) : Bool :=
  Unicode.isBlank c && !(0x1C ≤ c.toNat && c.toNat ≤ 0x1F)

/-- The values of digits that may be parted by single underscores. -/
def digits? : Text → Option (List Nat)
  | [] => none
  | [c] => (Unicode.digitValue? c).map ([·])
  | c :: '_' :: rest => do
    let d ← Unicode.digitValue? c
    return d :: (← digits? rest)
  | c :: rest => do
    let d ← Unicode.digitValue? c
    return d :: (← digits? rest)

def ofDigits (digits : List Nat) : Nat := digits.foldl (fun n d => n * 10 + d) 0

/-- Longer numbers are refused. -/
def maxDigits : Nat := 4300

inductive Error where
  | malformed
  | tooLong (digits : Nat)
deriving Repr, DecidableEq

/-- The refusal of a number with too many digits, whose count is told where it is known. -/
def tooLongMessage (digits : Option Nat) : String :=
  let count := match digits with
    | some digits => s!": value has {digits} digits"
    | none => ""
  s!"Exceeds the limit ({maxDigits} digits) for integer string conversion" ++ count ++
    "; use sys.set_int_max_str_digits() to increase the limit"

def sign : Text → Bool × Text
  | '-' :: rest => (true, rest)
  | '+' :: rest => (false, rest)
  | s => (false, s)

/-- Whether a character may stand between the first digit and the last. -/
def isInner (c : Char) : Bool := c == '_' || (Unicode.digitValue? c).isSome

/-- The number that a text writes. Digits are counted before it is known what follows them. -/
def parse (s : Text) : Except Error Int :=
  let (negative, body) := sign (s.dropWhile isPadding)
  match digits? (body.takeWhile isInner) with
  | none => .error .malformed
  | some digits =>
    if maxDigits < digits.length then .error (.tooLong digits.length)
    else if (body.dropWhile isInner).all isPadding then
      .ok (if negative then -(ofDigits digits : Int) else ofDigits digits)
    else .error .malformed

end Excerpt.Numeral
