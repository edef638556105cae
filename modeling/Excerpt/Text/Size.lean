import Excerpt.Platform
import Excerpt.Text.Width

/-!
Tabs may stand for more spaces than a text can hold. Their number is known before any of them is
written, so such a text is refused instead.
-/

namespace Excerpt

/-- Why a text is too long: its length is no index, or there is no memory for it. -/
inductive SizeError where
  | notAnIndex
  | outOfMemory
deriving Repr, DecidableEq

def SizeError.message : SizeError → String
  | .notAnIndex => "cannot fit 'int' into an index-sized integer"
  | .outOfMemory => ""

/-- What is wrong with a number of spaces. -/
def sizeError? [Platform] (length : Int) : Option SizeError :=
  if maxIndex < length then some .notAnIndex
  else if Platform.maxLength < length then some .outOfMemory
  else none

/-- The numbers of spaces that the tabs of a text stand for. -/
def tabRuns (w : CellWidth) (tab : Int) : Int → Option Char → Text → List Int
  | _, _, [] => []
  | col, previous, c :: s =>
    let next := advance w tab col previous c
    (if c = '\t' then [next - col] else []) ++ tabRuns w tab next (some c) s

/-- The text with its tabs expanded, unless one of them is too wide. -/
def expandTabs? [Platform] (w : CellWidth) (tab : Int) (s : Text) : Except SizeError Text :=
  match (tabRuns w tab 0 none s).findSome? sizeError? with
  | some e => .error e
  | none => .ok (expandTabs w tab s)

end Excerpt
