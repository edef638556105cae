import Excerpt.Source
import Excerpt.Text.Size
import Excerpt.Proofs.Lines

/-!
A text with tabs and its expanded form measure the same, column by column. The one exception is a
tab right behind a zero width joiner: the joiner swallows the first of its spaces.
-/

namespace Excerpt

/-- The character that a measurement carries on behind a text. -/
def lastChar (previous : Option Char) (s : Text) : Option Char := s.getLast?.or previous

@[simp] theorem lastChar_nil (previous : Option Char) : lastChar previous [] = previous := rfl

@[simp] theorem lastChar_cons (previous : Option Char) (c : Char) (s : Text) :
    lastChar previous (c :: s) = lastChar (some c) s := by
  cases s with
  | nil => rfl
  | cons d s => simp [lastChar, List.getLast?_cons]

theorem columnAfter_append (w : CellWidth) (tab col : Int) (previous : Option Char) (a b : Text) :
    columnAfter w tab col previous (a ++ b) =
      columnAfter w tab (columnAfter w tab col previous a) (lastChar previous a) b := by
  induction a generalizing col previous with
  | nil => rfl
  | cons c a ih => rw [List.cons_append, columnAfter_cons, ih, columnAfter_cons, lastChar_cons]

theorem expandFrom_append (w : CellWidth) (tab col : Int) (previous : Option Char) (a b : Text) :
    expandFrom w tab col previous (a ++ b) = expandFrom w tab col previous a ++
      expandFrom w tab (columnAfter w tab col previous a) (lastChar previous a) b := by
  induction a generalizing col previous with
  | nil => rfl
  | cons c a ih =>
      rw [lastChar_cons, columnAfter_cons, List.cons_append]
      simp only [expandFrom, ih, List.append_assoc]

theorem lt_nextTabStop (col : Int) {tab : Int} (htab : 1 ≤ tab) : col < nextTabStop col tab := by
  rw [nextTabStop, if_neg (by omega)]
  exact Int.lt_ediv_add_one_mul_self col (by omega)

theorem not_mem_expandFrom (w : CellWidth) (tab col : Int) (previous : Option Char) (s : Text) :
    '\t' ∉ expandFrom w tab col previous s := by
  induction s generalizing col previous with
  | nil => exact List.not_mem_nil
  | cons c s ih =>
      simp only [expandFrom, List.mem_append, not_or]
      refine ⟨?_, ih _ _⟩
      split
      case isTrue => simp [Text.spaces]
      case isFalse h => simpa using Ne.symm h

/-- What stands behind a joiner takes no cell; nothing else that came before matters. -/
theorem charWidth_congr (w : CellWidth) (c : Char) {a b : Option Char}
    (h : a = some zeroWidthJoiner ↔ b = some zeroWidthJoiner) :
    charWidth w c a = charWidth w c b := by
  simp only [charWidth, h]

theorem charWidth_space {w : CellWidth} (hspace : w ' ' = 1) (previous : Option Char) :
    charWidth w ' ' previous = if previous = some zeroWidthJoiner then 0 else 1 := by
  have hself : ¬(' ' = zeroWidthJoiner ∨ ' ' = variationSelector16 ∨ isSkinTone ' ' = true) := by
    decide
  rw [charWidth, if_neg hself, hspace]
  rfl

/-- Only the first of several spaces can be swallowed by a joiner. -/
theorem columnAfter_replicate_space {w : CellWidth} (hspace : w ' ' = 1) (tab col : Int)
    (previous : Option Char) (n : Nat) :
    columnAfter w tab col previous (List.replicate (n + 1) ' ') =
      col + (n + 1) - if previous = some zeroWidthJoiner then 1 else 0 := by
  have hnext : ' ' ≠ '\t' := by decide
  induction n generalizing col previous with
  | zero =>
      rw [List.replicate_one, columnAfter_cons, columnAfter_nil, advance, if_neg hnext,
        charWidth_space hspace]
      split <;> omega
  | succ n ih =>
      rw [List.replicate_succ, columnAfter_cons, ih, advance, if_neg hnext,
        charWidth_space hspace, if_neg (show some ' ' ≠ some zeroWidthJoiner by decide)]
      split <;> omega

/-- How many tabs of a text stand right behind a joiner. -/
def joinedTabs : Option Char → Text → Nat
  | _, [] => 0
  | previous, c :: s =>
    (if c = '\t' ∧ previous = some zeroWidthJoiner then 1 else 0) + joinedTabs (some c) s

/-- A tab stands for at least one space. -/
theorem exists_spaces_of_tab (w : CellWidth) {tab : Int} (htab : 1 ≤ tab) (col : Int)
    (previous : Option Char) : ∃ n : Nat, advance w tab col previous '\t' = col + (n + 1) ∧
      Text.spaces (advance w tab col previous '\t' - col) = List.replicate (n + 1) ' ' := by
  have hlt := lt_nextTabStop col htab
  have hadvance : advance w tab col previous '\t' = nextTabStop col tab := by
    rw [advance, if_pos rfl]
  obtain ⟨n, hn⟩ : ∃ n : Nat, nextTabStop col tab - col = (n : Int) + 1 :=
    ⟨(nextTabStop col tab - col - 1).toNat, by omega⟩
  refine ⟨n, by omega, ?_⟩
  rw [hadvance, hn, Text.spaces]
  rfl

/-- The invariant between the two measurements: the same joiners behind, and as many columns apart
as tabs were joined so far. -/
theorem columnAfter_expandFrom {w : CellWidth} (hspace : w ' ' = 1) {tab : Int} (htab : 1 ≤ tab)
    (tab' col col' : Int) {previous previous' : Option Char} (s : Text)
    (h : previous' = some zeroWidthJoiner ↔ previous = some zeroWidthJoiner) :
    columnAfter w tab' col' previous' (expandFrom w tab col previous s) - col' =
      columnAfter w tab col previous s - col - joinedTabs previous s := by
  induction s generalizing col col' previous previous' with
  | nil => simp [expandFrom, joinedTabs]
  | cons c s ih =>
      simp only [expandFrom, joinedTabs, columnAfter_append, columnAfter_cons]
      by_cases hc : c = '\t'
      · subst hc
        obtain ⟨n, hadvance, hspaces⟩ := exists_spaces_of_tab w htab col previous
        have hlast : lastChar previous' (List.replicate (n + 1) ' ') = some ' ' := by
          rw [lastChar, List.getLast?_replicate, if_neg (by omega)]
          rfl
        have hboth : some ' ' = some zeroWidthJoiner ↔ some '\t' = some zeroWidthJoiner := by
          decide
        rw [if_pos rfl, hspaces, hlast]
        have hih := ih (advance w tab col previous '\t')
          (columnAfter w tab' col' previous' (List.replicate (n + 1) ' ')) hboth
        rw [columnAfter_replicate_space hspace, hadvance] at hih ⊢
        by_cases hjoined : previous = some zeroWidthJoiner
        · rw [if_pos (h.2 hjoined)] at hih ⊢
          rw [if_pos ⟨rfl, hjoined⟩]
          omega
        · rw [if_neg (mt h.1 hjoined)] at hih ⊢
          rw [if_neg (fun hboth => hjoined hboth.2)]
          omega
      · have hsame : some c = some zeroWidthJoiner ↔ some c = some zeroWidthJoiner := Iff.rfl
        have hih := ih (advance w tab col previous c) (advance w tab' col' previous' c) hsame
        have hadvance : advance w tab' col' previous' c - col' =
            advance w tab col previous c - col := by
          rw [advance, advance, if_neg hc, if_neg hc, charWidth_congr w c h]
          omega
        simp only [hc, if_false, false_and, columnAfter_cons, columnAfter_nil, lastChar_cons,
          lastChar_nil]
        omega

theorem expandTabs_append (w : CellWidth) (tab : Int) (a b : Text) :
    expandTabs w tab (a ++ b) = expandTabs w tab a ++
      expandFrom w tab (columnAfter w tab 0 none a) (lastChar none a) b :=
  expandFrom_append w tab 0 none a b

theorem displayWidth_expandTabs {w : CellWidth} (hspace : w ' ' = 1) {tab : Int} (htab : 1 ≤ tab)
    (tab' : Int) (s : Text) :
    displayWidth w tab' 0 (expandTabs w tab s) = displayWidth w tab 0 s - joinedTabs none s := by
  have hsame : none = some zeroWidthJoiner ↔ none = some zeroWidthJoiner := Iff.rfl
  have h := columnAfter_expandFrom hspace htab tab' 0 0 s hsame
  rw [displayWidth, displayWidth, expandTabs]
  omega

theorem eq_expandTabs_of_ok [Platform] {w : CellWidth} {tab : Int} {s shown : Text}
    (h : expandTabs? w tab s = .ok shown) : shown = expandTabs w tab s := by
  simp only [expandTabs?] at h
  split at h
  · cases h
  · exact (Except.ok.inj h).symm

theorem expandTabs_isPrefix (w : CellWidth) (tab : Int) {p s : Text} (h : p <+: s) :
    expandTabs w tab p <+: expandTabs w tab s := by
  obtain ⟨rest, rfl⟩ := h
  rw [expandTabs_append]
  exact List.prefix_append _ _

theorem take_isPrefix {a b l : Text} (ha : a <+: l) (hb : b <+: l) :
    a.take b.length <+: b := by
  rcases List.prefix_or_prefix_of_prefix ha hb with h | ⟨t, rfl⟩
  · rwa [List.take_of_length_le h.length_le]
  · simp only [List.take_left, List.prefix_rfl]

/-- Columns found in the bytes of a text are cells of the text that is shown. For a text `s` and a
beginning `p` of it, expansion keeps the beginning, leaves no tab and keeps the width, but for the
tabs behind a joiner. So an offset is located at the cell at which the part of its line in front of
its character, as far as the line is shown, ends in the expanded line. -/
theorem located_columns_are_shown [Platform] {w : CellWidth} (hspace : w ' ' = 1) {tab : Int}
    (htab : 1 ≤ tab) {p s : Text} (hp : p <+: s) (source : Source) {offset : Int}
    (hlow : 0 ≤ offset) (hhigh : offset ≤ source.length) :
    (expandTabs w tab p <+: expandTabs w tab s ∧ '\t' ∉ expandTabs w tab s ∧
      (∀ shown, expandTabs? w tab s = .ok shown → shown = expandTabs w tab s) ∧
      ∀ tab', displayWidth w tab' 0 (expandTabs w tab p) =
        displayWidth w tab 0 p - joinedTabs none p) ∧
    ∃ location above front back below line,
      source.locate w tab offset = .ok location ∧
      Utf8.before offset.toNat source.text = above ++ front ∧
      LineCut source.text location.line above (front ++ back) below ∧
      location.byteCol = (Utf8.encode front).length ∧
      line = (front ++ back).dropReturn ∧ source.line location.line = .ok line ∧
      front.take line.length <+: line ∧
      expandTabs w tab (front.take line.length) <+: expandTabs w tab line ∧
      location.col = displayWidth w tab 0 (expandTabs w tab (front.take line.length)) +
        joinedTabs none (front.take line.length) := by
  constructor
  · exact ⟨expandTabs_isPrefix w tab hp, not_mem_expandFrom w tab 0 none s,
      fun shown h => eq_expandTabs_of_ok h,
      fun tab' => displayWidth_expandTabs hspace htab tab' p⟩
  · obtain ⟨above, front, back, below, hbefore, hcut, hlocate⟩ :=
      LineIndex.locate_ofText w tab source.text hlow hhigh
    have hshown := take_isPrefix (List.prefix_append front back) (front ++ back).dropReturn_isPrefix
    refine ⟨_, above, front, back, below, _, hlocate, hbefore, hcut, rfl, rfl,
      LineIndex.line_ofText hcut, hshown, expandTabs_isPrefix w tab hshown, ?_⟩
    rw [displayWidth_expandTabs hspace htab]
    dsimp only
    omega

section

attribute [local instance] Platform.usual

/-- An offset inside the third character of a line that begins with a joiner and a tab: the tab
stands for four spaces, of which the joiner swallows one. -/
theorem located_columns_are_shown_joined :
    displayWidth (fun _ => 1) 4 0 (expandTabs (fun _ => 1) 4 [zeroWidthJoiner, '\t']) = 4 - 1 ∧
      ∃ location line left,
        (⟨[zeroWidthJoiner, '\t', 'é', 'x'], none, none⟩ : Source).locate (fun _ => 1) 4 5 =
          .ok location ∧
        left <+: line ∧ location.col = displayWidth (fun _ => 1) 4 0
          (expandTabs (fun _ => 1) 4 left) + joinedTabs none left := by
  obtain ⟨⟨-, -, -, hwidth⟩, location, -, front, -, -, line, hlocate, -, -, -, -, -, hleft, -,
    hcol⟩ := located_columns_are_shown (w := fun _ => 1) rfl (show 1 ≤ (4 : Int) by decide)
      (p := [zeroWidthJoiner, '\t']) (s := [zeroWidthJoiner, '\t', 'x']) ⟨['x'], rfl⟩
      ⟨[zeroWidthJoiner, '\t', 'é', 'x'], none, none⟩ (show 0 ≤ (5 : Int) by decide) (by decide)
  exact ⟨by rw [hwidth 4]; decide, location, line, _, hlocate, hleft, hcol⟩

end

end Excerpt
