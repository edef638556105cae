import Excerpt.Text.Basic

/-!
A place in a text that is being read: how many characters lie before it, and those still to come.
-/

namespace Excerpt

structure Cursor where
  pos : Nat
  rest : Text
deriving Repr, DecidableEq

namespace Cursor

def ofText (s : Text) : Cursor := ⟨0, s⟩

def peek? (c : Cursor) : Option Char := c.rest.head?

def skip (n : Nat) (c : Cursor) : Cursor := ⟨c.pos + (c.rest.take n).length, c.rest.drop n⟩

def skipWhile (p : Char → Bool) (c : Cursor) : Cursor :=
  c.skip (c.rest.takeWhile p).length

def takeWhile (p : Char → Bool) (c : Cursor) : Text := c.rest.takeWhile p

def startsWith (literal : String) (c : Cursor) : Bool := literal.toList.isPrefixOf c.rest

/-- The place behind a literal, if the text goes on with it. -/
def literal? (literal : String) (c : Cursor) : Option Cursor :=
  if c.startsWith literal then some (c.skip literal.length) else none

end Cursor

/-- Line and column of a position, both counted from one. -/
def lineAndColumn (s : Text) (pos : Nat) : Nat × Nat :=
  let before := s.take pos
  (before.count '\n' + 1, (before.reverse.takeWhile (· != '\n')).length + 1)

end Excerpt
