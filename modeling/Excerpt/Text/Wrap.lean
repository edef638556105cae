import Excerpt.Text.Width

/-!
Breaking a text into lines of a given width: between words where possible, and inside a word only
when the word alone is too wide.
-/

namespace Excerpt

/-- What is broken off an overlong word next: as much as fits, and at least one character. -/
def headPiece (w : CellWidth) (limit : Nat) (s : Text) : Text :=
  match cutToWidth w s limit with
  | [] => s.take 1
  | c :: head => c :: head

theorem headPiece_ne_nil (w : CellWidth) (limit : Nat) {s : Text} (h : s ≠ []) :
    headPiece w limit s ≠ [] := by
  unfold headPiece
  split
  · cases s with
    | nil => exact absurd rfl h
    | cons c s => simp
  · simp

/-- The pieces broken off a word, and the rest that fits and stays open for more words. -/
def chop (w : CellWidth) (limit : Nat) (s : Text) : List Text × Text :=
  if Text.width w s ≤ limit then ([], s)
  else
    let head := headPiece w limit s
    let rest := chop w limit (s.drop head.length)
    (head :: rest.1, rest.2)
termination_by s.length
decreasing_by
  have hne : s ≠ [] := by
    rintro rfl
    simp at *
  have := List.length_pos_iff.2 (headPiece_ne_nil w limit hne)
  have := List.length_pos_iff.2 hne
  simp only [List.length_drop]
  omega

/-- Lines as a list: an open line that is still empty is none. -/
def openLine (current : Text) : List Text := if current = [] then [] else [current]

/-- Fills lines with words, `current` being the line that is open. -/
def fillLines (w : CellWidth) (limit : Nat) : Text → List Text → List Text
  | current, [] => openLine current
  | current, word :: rest =>
    if current ≠ [] ∧ Text.width w current + 1 + Text.width w word ≤ limit then
      fillLines w limit (current ++ ' ' :: word) rest
    else
      let broken := chop w limit word
      openLine current ++ broken.1 ++ fillLines w limit broken.2 rest

def wrapLines (w : CellWidth) (limit : Nat) (s : Text) : List Text :=
  fillLines w limit [] s.words

/-- No line is narrow enough for a negative width, not even an empty one. -/
inductive WrapError where
  | negativeWidth
deriving Repr, DecidableEq

def WrapError.message : WrapError → String
  | .negativeWidth => "string index out of range"

/-- The lines of at most `width` cells that hold the words of a text. A negative width fails as
soon as there is a word. -/
def wrapToWidth (w : CellWidth) (s : Text) (width : Int) : Except WrapError (List Text) :=
  if 0 ≤ width then .ok (wrapLines w width.toNat s)
  else if s.words = [] then .ok []
  else .error .negativeWidth

end Excerpt
