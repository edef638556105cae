import Excerpt.Ordered
import Excerpt.Text.Basic

/-!
How alike two texts are. The longest run that both contain is matched, then what lies before it in
both and what lies behind; the share of matched characters among all is the measure.
-/

namespace Excerpt.Similarity

def commonPrefixLength : Text → Text → Nat
  | a :: s, b :: t => if a = b then commonPrefixLength s t + 1 else 0
  | _, _ => 0

/-- A run that two texts share: where it starts in each, and its length. -/
structure Run where
  left : Nat
  right : Nat
  length : Nat
deriving Repr, DecidableEq

/-- The shared run at two given places. -/
def runAt (s t : Text) (left right : Nat) : Run :=
  ⟨left, right, commonPrefixLength (s.drop left) (t.drop right)⟩

/-- The longest shared run, the leftmost one of several. -/
def longestRun (s t : Text) : Run :=
  let runs := (List.range s.length).flatMap fun i => (List.range t.length).map (runAt s t i)
  runs.foldl (fun best run => if best.length < run.length then run else best) ⟨0, 0, 0⟩

/-- The number of matched characters. A match takes at least one character of the first text, so
its length is fuel enough. -/
def matched : (fuel : Nat) → Text → Text → Nat
  | 0, _, _ => 0
  | fuel + 1, s, t =>
    let run := longestRun s t
    if run.length = 0 then 0
    else
      matched fuel (s.take run.left) (t.take run.right) + run.length +
        matched fuel (s.drop (run.left + run.length)) (t.drop (run.right + run.length))

/-- A share of matched characters: twice their number and the number of all characters. -/
structure Share where
  matched : Nat
  total : Nat
deriving Repr, DecidableEq

def share (s t : Text) : Share := ⟨2 * matched s.length s t, s.length + t.length⟩

/-- Whether at least three fifths are matched. -/
def Share.isClose (a : Share) : Bool := 3 * a.total ≤ 5 * a.matched

def Share.lt (a b : Share) : Bool := a.matched * b.total < b.matched * a.total

/-- Whether one candidate goes before another: by its share, or else by rank of its text. -/
def better (a b : Share × String) : Bool := b.1.lt a.1 || (!a.1.lt b.1 && b.2 ≤ a.2)

/-- At most three of the candidates that are close to a text, in alphabetical order. -/
def closest (s : Text) (candidates : List String) : List String :=
  let close := (candidates.map fun c => (share c.toList s, c)).filter (·.1.isClose)
  sortBy (fun a b : String => a ≤ b) (((sortBy better close).take 3).map (·.2))

end Excerpt.Similarity
