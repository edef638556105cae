/-!
Floating-point numbers of 64 bits as exact values. A decimal is rounded to the nearest of them, a
tie to the even one, in integer arithmetic throughout.
-/

namespace Excerpt

/-- A finite number is its significand times a power of two. The significand is below `2 ^ 53`,
and below `2 ^ 52` only at the smallest power. -/
inductive Binary64 where
  | finite (negative : Bool) (significand : Nat) (power : Int)
  | infinite (negative : Bool)
  | nan
deriving Repr, DecidableEq

namespace Binary64

def minPower : Int := -1074

def maxPower : Int := 971

/-- Two to a power, or one if the power is negative. -/
def twoTo (power : Int) : Nat := Nat.pow 2 power.toNat

/-- Ten to a power, or one if the power is negative. -/
def tenTo (power : Int) : Nat := Nat.pow 10 power.toNat

/-- A quotient of naturals divided by a power of two, again as a quotient. -/
def scaled (num den : Nat) (power : Int) : Nat × Nat :=
  (num * twoTo (-power), den * twoTo power)

/-- The nearest whole number to a quotient, a half going to the even neighbour. -/
def roundHalfEven (num den : Nat) : Nat :=
  let whole := num / den
  let rest := num % den
  if 2 * rest < den then whole
  else if den < 2 * rest then whole + 1
  else whole + whole % 2

/-- The nearest number to a positive quotient. -/
def ofRatio (negative : Bool) (num den : Nat) : Binary64 :=
  let guess : Int := (num.log2 : Int) - den.log2 - 52
  let (n, d) := scaled num den guess
  let power := max (if n / d < twoTo 52 then guess - 1 else guess) minPower
  let (n, d) := scaled num den power
  let m := roundHalfEven n d
  let (m, power) := if m = twoTo 53 then (twoTo 52, power + 1) else (m, power)
  if maxPower < power then .infinite negative else .finite negative m power

def decimalLength (n : Nat) : Nat := (Nat.toDigits 10 n).length

/-- The nearest number to `digits` times a power of ten. What lies far outside the range is
settled by the number of digits alone. -/
def ofDecimal (negative : Bool) (digits : Nat) (exponent : Int) : Binary64 :=
  let magnitude : Int := decimalLength digits + exponent
  if digits = 0 ∨ magnitude < -330 then .finite negative 0 minPower
  else if 310 < magnitude then .infinite negative
  else ofRatio negative (digits * tenTo exponent) (tenTo (-exponent))

/-- The whole part of a finite number. -/
def truncate? : Binary64 → Option Int
  | .finite negative m power =>
    let magnitude := m * twoTo power / twoTo (-power)
    some (if negative then -magnitude else magnitude)
  | .infinite _ | .nan => none

def isZero : Binary64 → Bool
  | .finite _ m _ => m == 0
  | .infinite _ | .nan => false

end Binary64
end Excerpt
