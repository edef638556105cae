import Excerpt.Proofs.Placement

/-!
How widths add up. From one part of a text to the next a measurement carries a column, of which only
the place between two tab stops matters, and a character, of which only matters whether it is a
joiner. So a text is as wide as its parts, each measured where it begins, unless a joiner at the end
of one glues the first character of the next, and it is as wide one tab stop further on.
-/

namespace Excerpt

/-- What stands in front leaves a text as wide as it is alone: a joiner glues any character but a
tab. -/
def Parted (previous : Option Char) (s : Text) : Prop :=
  previous ≠ some zeroWidthJoiner ∨ s.head? = some '\t'

section Measure

variable {w : CellWidth} {tab : Int} {previous : Option Char} {s : Text}

theorem Parted.columnAfter_eq (h : Parted previous s) (col : Int) :
    columnAfter w tab col previous s = columnAfter w tab col none s := by
  cases s with
  | nil => rfl
  | cons c s =>
      rw [columnAfter_cons, columnAfter_cons, advance, advance]
      by_cases hc : c = '\t'
      · rw [if_pos hc, if_pos hc]
      · have hfree : previous ≠ some zeroWidthJoiner :=
          h.resolve_right fun hhead => hc (Option.some.inj hhead)
        have hnone : previous = some zeroWidthJoiner ↔ none = some zeroWidthJoiner :=
          iff_of_false hfree (Option.some_ne_none _).symm
        rw [if_neg hc, if_neg hc, charWidth_congr w c hnone]

theorem nextTabStop_add_tab (col tab : Int) :
    nextTabStop (col + tab) tab = nextTabStop col tab + tab := by
  rw [nextTabStop, nextTabStop]
  split
  case isTrue => rfl
  case isFalse h =>
      rw [Int.add_ediv_of_dvd_right (Int.dvd_refl tab), Int.ediv_self (by omega)]
      simp only [Int.add_mul, Int.one_mul]

theorem advance_add_tab (col : Int) (c : Char) :
    advance w tab (col + tab) previous c = advance w tab col previous c + tab := by
  rw [advance, advance]
  split
  · exact nextTabStop_add_tab col tab
  · omega

/-- Every column behind a text moves on with the one at which it begins. -/
theorem columnAfter_add_tab (col : Int) :
    columnAfter w tab (col + tab) previous s = columnAfter w tab col previous s + tab := by
  induction s generalizing col previous with
  | nil => rfl
  | cons c s ih => rw [columnAfter_cons, advance_add_tab, ih, columnAfter_cons]

end Measure

/-- Widths compose along a text: those of two parts add up, the second being measured where the
first ends, if that does not end with a joiner or the second begins with a tab; no part in front is
wider than the whole; and a text is as wide at the same place behind the next tab stop. -/
theorem widths_compose (w : CellWidth) (tab start : Int) (a b : Text) :
    (a.getLast? ≠ some zeroWidthJoiner ∨ b.head? = some '\t' →
      displayWidth w tab start (a ++ b) = displayWidth w tab start a +
        displayWidth w tab (start + displayWidth w tab start a) b) ∧
      displayWidth w tab start a ≤ displayWidth w tab start (a ++ b) ∧
      displayWidth w tab (start + tab) a = displayWidth w tab start a := by
  refine ⟨?sum, displayWidth_le_of_isPrefix w tab start (List.prefix_append a b), ?shift⟩
  case sum =>
      intro h
      have hparted : Parted (lastChar none a) b := by rwa [lastChar, Option.or_none]
      have hstart : start + displayWidth w tab start a = columnAfter w tab start none a := by
        rw [displayWidth]
        omega
      rw [hstart, displayWidth, displayWidth, displayWidth, columnAfter_append,
        hparted.columnAfter_eq]
      omega
  case shift =>
      rw [displayWidth, displayWidth, columnAfter_add_tab]
      omega

/-- A tab behind a joiner begins a part of its own: it ends at the stop that it has alone. -/
theorem widths_compose_glued :
    (['x', zeroWidthJoiner].getLast? ≠ some zeroWidthJoiner ∨ ['\t', 'y'].head? = some '\t') ∧
      displayWidth (fun _ => 2) 4 1 (['x', zeroWidthJoiner] ++ ['\t', 'y']) = 2 + 3 ∧
      2 ≤ displayWidth (fun _ => 2) 4 1 (['x', zeroWidthJoiner] ++ ['\t', 'y']) ∧
      displayWidth (fun _ => 2) 4 (1 + 4) ['x', zeroWidthJoiner] = 2 := by
  obtain ⟨hsum, hle, hshift⟩ :=
    widths_compose (fun _ => 2) 4 1 ['x', zeroWidthJoiner] ['\t', 'y']
  have hfront : displayWidth (fun _ => 2) 4 1 ['x', zeroWidthJoiner] = 2 := by decide
  have hback : displayWidth (fun _ => 2) 4 (1 + 2) ['\t', 'y'] = 3 := by decide
  rw [hfront] at hsum hle hshift
  rw [hback] at hsum
  exact ⟨.inr rfl, hsum (.inr rfl), hle, hshift⟩

end Excerpt
