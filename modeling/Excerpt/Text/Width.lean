import Excerpt.Text.Basic

/-!
Texts measured in terminal cells. How wide a character is by itself is a parameter; on top of it,
characters that join the one before them take no cell, and a tab reaches to the next tab stop. The
column and the character before are all that a measurement carries from one character to the next.
-/

namespace Excerpt

/-- The cells that a character takes when it stands alone; a negative number is none. -/
abbrev CellWidth := Char → Int

def zeroWidthJoiner : Char := Char.ofNat 0x200D

def variationSelector16 : Char := Char.ofNat 0xFE0F

/-- The five emoji modifiers, which fuse with the emoji before them. -/
def isSkinTone (c : Char) : Bool := 0x1F3FB ≤ c.toNat && c.toNat ≤ 0x1F3FF

/-- The cells of a character after `previous`. What a joiner glues to its predecessor, the joiner
itself, emoji modifiers and the variation selector take none. -/
def charWidth (w : CellWidth) (c : Char) (previous : Option Char) : Int :=
  if c = zeroWidthJoiner ∨ c = variationSelector16 ∨ isSkinTone c = true then 0
  else if previous = some zeroWidthJoiner then 0
  else max (w c) 0

/-- The first tab stop beyond a column. Without a positive distance there are no stops. -/
def nextTabStop (col tab : Int) : Int :=
  if tab ≤ 0 then col else (col / tab + 1) * tab

/-- The column after a character written at `col`. -/
def advance (w : CellWidth) (tab col : Int) (previous : Option Char) (c : Char) : Int :=
  if c = '\t' then nextTabStop col tab else col + charWidth w c previous

def columnAfter (w : CellWidth) (tab : Int) : Int → Option Char → Text → Int
  | col, _, [] => col
  | col, previous, c :: s => columnAfter w tab (advance w tab col previous c) (some c) s

/-- The cells that a text covers when it is written at column `start`. -/
def displayWidth (w : CellWidth) (tab start : Int) (s : Text) : Int :=
  columnAfter w tab start none s - start

/-- The cells of a text by itself. A tab that was not expanded reaches to a multiple of four. -/
def Text.width (w : CellWidth) (s : Text) : Int := displayWidth w 4 0 s

def expandFrom (w : CellWidth) (tab : Int) : Int → Option Char → Text → Text
  | _, _, [] => []
  | col, previous, c :: s =>
    let next := advance w tab col previous c
    (if c = '\t' then Text.spaces (next - col) else [c]) ++ expandFrom w tab next (some c) s

/-- The text with spaces up to the next tab stop in place of each tab. The stops are measured in
cells, so wide characters before a tab count. -/
def expandTabs (w : CellWidth) (tab : Int) (s : Text) : Text := expandFrom w tab 0 none s

/-- The cells of the spaces and tabs that a text begins with. -/
def indentWidth (w : CellWidth) (tab : Int) (s : Text) : Int :=
  displayWidth w tab 0 (s.takeWhile fun c => c == ' ' || c == '\t')

def cutFrom (w : CellWidth) (limit : Int) : Int → Option Char → Text → Text
  | _, _, [] => []
  | col, previous, c :: s =>
    if col + charWidth w c previous > limit then []
    else c :: cutFrom w limit (col + charWidth w c previous) (some c) s

/-- The longest beginning of a text that fits in `limit` cells. -/
def cutToWidth (w : CellWidth) (s : Text) (limit : Int) : Text :=
  if limit ≤ 0 then [] else cutFrom w limit 0 none s

theorem charWidth_nonneg (w : CellWidth) (c : Char) (previous : Option Char) :
    0 ≤ charWidth w c previous := by
  unfold charWidth
  repeat' split
  all_goals omega

@[simp] theorem columnAfter_nil (w : CellWidth) (tab col : Int) (previous : Option Char) :
    columnAfter w tab col previous [] = col := rfl

@[simp] theorem columnAfter_cons (w : CellWidth) (tab col : Int) (previous : Option Char) (c : Char)
    (s : Text) : columnAfter w tab col previous (c :: s) =
      columnAfter w tab (advance w tab col previous c) (some c) s := rfl

@[simp] theorem displayWidth_nil (w : CellWidth) (tab start : Int) :
    displayWidth w tab start [] = 0 := by simp [displayWidth]

@[simp] theorem Text.width_nil (w : CellWidth) : Text.width w [] = 0 := displayWidth_nil w 4 0

theorem cutFrom_isPrefix (w : CellWidth) (limit col : Int) (previous : Option Char) (s : Text) :
    cutFrom w limit col previous s <+: s := by
  induction s generalizing col previous with
  | nil => exact List.nil_prefix
  | cons c s ih =>
      unfold cutFrom
      split
      · exact List.nil_prefix
      · exact List.cons_prefix_cons.2 ⟨rfl, ih _ _⟩

theorem cutToWidth_isPrefix (w : CellWidth) (s : Text) (limit : Int) :
    cutToWidth w s limit <+: s := by
  unfold cutToWidth
  split
  · exact List.nil_prefix
  · exact cutFrom_isPrefix w limit 0 none s

end Excerpt
