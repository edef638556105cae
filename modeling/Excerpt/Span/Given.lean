import Excerpt.Span
import Excerpt.Value.Whole

/-!
The ways in which a span may be given: as one, as a pair of values for its ends, or as a range of
whole numbers with a step of one.
-/

namespace Excerpt

inductive GivenSpan where
  | span (s : Span)
  | ends (values : List Value)
  | range (start stop step : Int)
deriving Repr

inductive GivenSpanError where
  | tooFewEnds (count : Nat)
  | tooManyEnds
  | badEnd (e : Value.WholeError)
  | wrongStep
deriving Repr, DecidableEq

def GivenSpanError.message [Halves] : GivenSpanError → String
  | .tooFewEnds count => s!"not enough values to unpack (expected 2, got {count})"
  | .tooManyEnds => "too many values to unpack (expected 2)"
  | .badEnd e => e.message
  | .wrongStep => "span ranges must have a step of 1"

inductive RangeArgumentError where
  | noArguments
  | tooManyArguments (count : Nat)
  | notWhole (typeName : String)
  | zeroStep
deriving Repr, DecidableEq

def RangeArgumentError.message : RangeArgumentError → String
  | .noArguments => "range expected at least 1 argument, got 0"
  | .tooManyArguments count => s!"range expected at most 3 arguments, got {count}"
  | .notWhole typeName => s!"'{typeName}' object cannot be interpreted as an integer"
  | .zeroStep => "range() arg 3 must not be zero"

/-- An argument of a range. Unlike the ends of a span it is not converted. -/
def rangeArgument : Value → Except RangeArgumentError Int
  | .int n => .ok n
  | .bool b => .ok (if b then 1 else 0)
  | v => .error (.notWhole v.typeName)

/-- A range by its stop, its start and stop, or its start, stop and step. -/
def GivenSpan.ofRange (arguments : List Value) : Except RangeArgumentError GivenSpan := do
  match arguments with
  | [] => throw .noArguments
  | [stop] => return .range 0 (← rangeArgument stop) 1
  | [start, stop] => return .range (← rangeArgument start) (← rangeArgument stop) 1
  | [start, stop, step] =>
    let start ← rangeArgument start
    let stop ← rangeArgument stop
    let step ← rangeArgument step
    if step = 0 then
      throw .zeroStep
    else
      return .range start stop step
  | arguments => throw (.tooManyArguments arguments.length)

def GivenSpan.toSpan : GivenSpan → Except GivenSpanError Span
  | .span s => .ok s
  | .range start stop step => if step = 1 then .ok ⟨start, stop⟩ else .error .wrongStep
  | .ends [a, b] => do
    let start ← a.toWhole.mapError .badEnd
    let stop ← b.toWhole.mapError .badEnd
    return ⟨start, stop⟩
  | .ends values => if values.length < 2 then .error (.tooFewEnds values.length)
    else .error .tooManyEnds

end Excerpt
