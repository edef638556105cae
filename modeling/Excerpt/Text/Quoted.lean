import Excerpt.Text.Utf8
import Excerpt.Unicode.Printable

/-!
Texts in quotes, as messages show them. Single quotes are used unless the text holds one and no
double quote; the quote in use, backslashes and characters that cannot be printed are escaped.
-/

namespace Excerpt.Quoted

def quoteFor (s : Text) : Char :=
  if s.contains '\'' && !s.contains '"' then '"' else '\''

/-- The last `width` hexadecimal digits of a number. -/
def hexDigits : Nat → Nat → Text
  | 0, _ => []
  | width + 1, n => hexDigits width (n / 16) ++ [Utf8.hexDigit n]

/-- A character inside quotes. Where it cannot be printed it is written by its number. -/
def escapeChar (number : Char → Nat) (quote c : Char) : Text :=
  let n := number c
  if c = quote ∨ c = '\\' then ['\\', c]
  else if c = '\n' then ['\\', 'n']
  else if c = '\r' then ['\\', 'r']
  else if c = '\t' then ['\\', 't']
  else if Unicode.isPrintable c then [c]
  else if n < 0x100 then '\\' :: 'x' :: hexDigits 2 n
  else if n < 0x10000 then '\\' :: 'u' :: hexDigits 4 n
  else '\\' :: 'U' :: hexDigits 8 n

/-- The quoted form of a text whose characters have these numbers. -/
def encodeBy (number : Char → Nat) (s : Text) : Text :=
  let quote := quoteFor s
  quote :: s.flatMap (escapeChar number quote) ++ [quote]

def encode (s : Text) : Text := encodeBy Char.toNat s

/-- The quoted form of a string. -/
def quote (s : String) : String := String.ofList (encode s.toList)

end Excerpt.Quoted
