import Excerpt.Unicode.Blank

/-!
Texts as lists of characters, and the two ways of taking one apart: into words, which blanks
separate, and into lines, which line boundaries end. Rejoining the pieces between separators gives
the text back.
-/

namespace Excerpt

/-- A text that is measured, cut or drawn. -/
abbrev Text := List Char

namespace Text

/-- Puts a character in front of the first piece. -/
def consHead (c : Char) : List Text → List Text
  | [] => [[c]]
  | piece :: pieces => (c :: piece) :: pieces

/-- The pieces between the characters that satisfy `p`, empty ones included. -/
def pieces (p : Char → Bool) : Text → List Text
  | [] => [[]]
  | c :: s => if p c then [] :: pieces p s else consHead c (pieces p s)

/-- The maximal runs of characters that are not blank. -/
def words (s : Text) : List Text :=
  (pieces Unicode.isBlank s).filter (!·.isEmpty)

/-- The lines of a text. A carriage return and a line feed after it are one boundary, and a
boundary at the very end opens no further line. -/
def splitLines : Text → List Text
  | [] => []
  | '\r' :: '\n' :: s => [] :: splitLines s
  | c :: s => if Unicode.isLineBoundary c then [] :: splitLines s else consHead c (splitLines s)

/-- The lines of a text, at least one. -/
def lines (s : Text) : List Text :=
  match splitLines s with
  | [] => [[]]
  | first :: rest => first :: rest

/-- Whether only blanks are in the text. -/
def isBlank (s : Text) : Bool := s.all Unicode.isBlank

/-- The text without the blanks at both ends. -/
def strip (s : Text) : Text :=
  ((s.dropWhile Unicode.isBlank).reverse.dropWhile Unicode.isBlank).reverse

/-- The text without the ordinary spaces at its end. -/
def trimSpaces (s : Text) : Text := (s.reverse.dropWhile (· == ' ')).reverse

/-- The texts in a row with `separator` between neighbours. -/
def joinWith (separator : Text) (texts : List Text) : Text := separator.intercalate texts

def spaces (n : Int) : Text := List.replicate n.toNat ' '

theorem pieces_ne_nil (p : Char → Bool) (s : Text) : pieces p s ≠ [] := by
  cases s with
  | nil => simp [pieces]
  | cons c s =>
      unfold pieces
      split
      · simp
      · unfold consHead
        split <;> simp

theorem lines_ne_nil (s : Text) : lines s ≠ [] := by
  unfold lines
  split <;> simp

theorem ne_nil_of_mem_words {s word : Text} (h : word ∈ words s) : word ≠ [] := by
  have := (List.mem_filter.1 h).2
  intro hnil
  simp [hnil] at this

@[simp] theorem length_spaces (n : Int) : (spaces n).length = n.toNat := by simp [spaces]

end Text
end Excerpt
