/-!
Half-open ranges of byte offsets. A span is a plain pair: whether it fits a source is only asked
when it is placed in one.
-/

namespace Excerpt

structure Span where
  start : Int
  stop : Int
deriving Repr, DecidableEq

namespace Span

def length (s : Span) : Int := s.stop - s.start

def isEmpty (s : Span) : Bool := s.start == s.stop

def contains (s : Span) (offset : Int) : Bool := s.start ≤ offset && offset < s.stop

def text (s : Span) : String := s!"{s.start}..{s.stop}"

/-- The span lies in a source of `length` bytes and is the right way round. -/
def Fits (s : Span) (length : Nat) : Prop :=
  0 ≤ s.start ∧ s.start ≤ s.stop ∧ s.stop ≤ length

instance (s : Span) (length : Nat) : Decidable (s.Fits length) :=
  inferInstanceAs (Decidable (_ ∧ _))

end Span
end Excerpt
