import Excerpt.Number.Binary64

/-!
The text of a floating-point number: the fewest digits that read back as the same number and, of
those, the nearest. Digits are searched on the decimal grids of 1, 2, … places. On each grid only
the two neighbours of the number can read back if any point does.
-/

namespace Excerpt.Binary64

/-- Digits after a decimal point, times a power of ten. -/
structure Decimal where
  digits : List Char
  point : Int
deriving Repr, DecidableEq

/-- A positive number and the ends of the interval that rounds to it, over one denominator. -/
structure Neighbourhood where
  low : Nat
  value : Nat
  high : Nat
  den : Nat
  /-- Whether the ends round to the number too. -/
  closed : Bool

/-- Below the smallest significand of a power the numbers lie twice as close. -/
def neighbourhood (m : Nat) (power : Int) : Neighbourhood :=
  let below := if m = twoTo 52 ∧ minPower < power then 1 else 2
  let quarter := power - 2
  let unit := twoTo quarter
  ⟨(4 * m - below) * unit, 4 * m * unit, (4 * m + 2) * unit, twoTo (-quarter), m % 2 == 0⟩

/-- Whether a quotient rounds to the number. -/
def Neighbourhood.contains (b : Neighbourhood) (num den : Nat) : Bool :=
  let low := b.low * den
  let high := b.high * den
  let here := num * b.den
  if b.closed then low ≤ here && here ≤ high else low < here && here < high

/-- The number of digits before the decimal point; for small numbers, minus the zeros after it. -/
def Neighbourhood.point (b : Neighbourhood) : Int :=
  (decimalLength (b.value * tenTo 400 / b.den) : Int) - 400

/-- The nearest point to the number on the grid of `places` digits, if one there reads back. -/
def Neighbourhood.onGrid? (b : Neighbourhood) (places : Nat) : Option Nat :=
  let exponent := b.point - places
  let up := tenTo exponent
  let down := tenTo (-exponent)
  let num := b.value * down
  let den := b.den * up
  let floor := num / den
  let reads (n : Nat) := b.contains (n * up) down
  match reads floor, reads (floor + 1) with
  | true, true => some (roundHalfEven num den)
  | true, false => some floor
  | false, true => some (floor + 1)
  | false, false => none

def dropTrailingZeros (digits : List Char) : List Char :=
  (digits.reverse.dropWhile (· == '0')).reverse

/-- The shortest decimal for a positive number. Seventeen places are always enough. -/
def shortest (m : Nat) (power : Int) : Decimal :=
  let b := neighbourhood m power
  match (List.range 17).findSome? fun i => (b.onGrid? (i + 1)).map fun n => (i + 1, n) with
  | none => ⟨['0'], 1⟩
  | some (places, n) =>
    let digits := Nat.toDigits 10 n
    ⟨dropTrailingZeros digits, b.point + (digits.length - places : Int)⟩

def zeros (n : Int) : List Char := List.replicate n.toNat '0'

/-- Numbers from 0.0001 up to, but not including, 1e16 are written with a point, which always has a
digit behind it; others with an exponent of at least two digits. -/
def Decimal.text (d : Decimal) : List Char :=
  let count : Int := d.digits.length
  if -4 < d.point ∧ d.point ≤ 16 then
    if d.point ≤ 0 then '0' :: '.' :: zeros (-d.point) ++ d.digits
    else if d.point < count then
      d.digits.take d.point.toNat ++ '.' :: d.digits.drop d.point.toNat
    else d.digits ++ zeros (d.point - count) ++ ['.', '0']
  else
    let exponent := d.point - 1
    let size := Nat.toDigits 10 exponent.natAbs
    let mantissa := match d.digits with
      | [] | [_] => d.digits
      | first :: rest => first :: '.' :: rest
    mantissa ++ ['e', if exponent < 0 then '-' else '+'] ++ zeros (2 - size.length) ++ size

def text : Binary64 → List Char
  | .nan => ['n', 'a', 'n']
  | .infinite negative => (if negative then ['-'] else []) ++ ['i', 'n', 'f']
  | .finite negative m power =>
    (if negative then ['-'] else []) ++
      (if m = 0 then ['0', '.', '0'] else (shortest m power).text)

end Excerpt.Binary64
