import Mathlib.Logic.ExistsUnique
import Excerpt.Proofs.Modes
import Excerpt.Proofs.Rungs
import Excerpt.Proofs.Trimming

/-!
Inner labels are underlined nearer the source. An expanded line underlines each label on the row of
its own rung. A compact line underlines labels over the same drawn columns once, on the rung of the
first of them; as a trimmed indentation can give labels the same drawn columns, what is said of its
rows is said of labels whose own columns are still told apart.
-/

namespace Excerpt

open ActiveLeaders Layout

/-- Of two labels of a line, one over columns of the other, the inner one is on the lower rung; of
two on the same columns, the earlier one. -/
def LineLayout.InnerLower (line : LineLayout) : Prop :=
  ∀ (a b : PlacedLabel) (i j : Nat), a ∈ line.onRung i → b ∈ line.onRung j →
    a.columns.Inside b.columns → (a.columns = b.columns → a.index < b.index) → i < j

namespace Layout

variable {placed : List PlacedLabel}

theorem index_pairwise_of_placeLabels {w : CellWidth} {tab : Int} {index : LineIndex}
    {position : Nat} {labels : List Label}
    (h : placeLabels w tab index position labels = .ok placed) :
    placed.Pairwise fun a b => a.index < b.index := by
  have hindices := map_index_of_placeLabels h
  rw [← List.pairwise_map, hindices]
  exact List.pairwise_lt_range'

/-- Where indices rise, a label with a smaller index has a smaller position. -/
theorem position_lt_of_index_lt (hrising : placed.Pairwise fun a b => a.index < b.index)
    {i j : Nat} {a b : PlacedLabel} (hi : placed[i]? = some a) (hj : placed[j]? = some b)
    (h : a.index < b.index) : i < j := by
  obtain ⟨hilt, rfl⟩ := List.getElem?_eq_some_iff.1 hi
  obtain ⟨hjlt, rfl⟩ := List.getElem?_eq_some_iff.1 hj
  rcases Nat.lt_trichotomy i j with hlt | rfl | hgt
  · exact hlt
  · exact absurd h (Nat.lt_irrefl _)
  · have hreversed := List.pairwise_iff_getElem.1 hrising j i hjlt hilt hgt
    exact absurd h (Nat.lt_asymm hreversed)

theorem innerLower_layLine (hrising : placed.Pairwise fun a b => a.index < b.index) (number : Nat)
    (text : Text) : (layLine placed (leadersOf placed) number text).InnerLower := by
  have hindex : (placed.map PlacedLabel.index).Nodup :=
    (List.pairwise_map.2 hrising).imp Nat.ne_of_lt
  have hsingles : (singlesOf placed number).Pairwise fun a b => a.index < b.index :=
    hrising.sublist List.filter_sublist
  intro a b i j ha hb hinside hearlier
  obtain ⟨k, hk, hcolumns, hrung⟩ := exists_columns_of_mem_onRung number text hindex ha
  obtain ⟨l, hl, hcolumns', hother⟩ := exists_columns_of_mem_onRung number text hindex hb
  have hwide : a.columns.start < a.columns.stop := by
    have hsingle := (mem_singlesOf.1 (List.mem_of_getElem? hk)).2.1
    have hone := PlacedLabel.one_le_displayWidth hsingle
    simp only [PlacedLabel.columns]
    omega
  refine rung_lt_of_inside hwide hcolumns hcolumns' hrung hother hinside fun heq => ?_
  exact position_lt_of_index_lt hsingles hk hl (hearlier heq)

end Layout

namespace Canvas

/-- The labels that are underlined on the row of a rung. -/
def underlinedOn (c : Canvas) (mode : Mode) (line : LineLayout) (rung : Nat) : List PlacedLabel :=
  match mode with
  | .expanded => line.onRung rung
  | .compact => (c.primaries line rung).flatMap (c.sharing line)

/-- The underline row of a rung. A compact rung has none if its labels are underlined elsewhere. -/
def rungRows (c : Canvas) (mode : Mode) (line : LineLayout) (rung : Nat) : List Row :=
  match mode with
  | .expanded => [c.underlineRow line rung]
  | .compact => (c.compactRung (leadersAbove line) line rung).rows

/-- A row has the underlines of some labels, among them one that is drawn over the columns over
which this label is drawn, and no other carets. -/
def Underlines (c : Canvas) (line : LineLayout) (row : Row) (lab : PlacedLabel) : Prop :=
  ∃ labs rest, row = Row.trimmed ⟨.underline,
      c.underlineSegments (leadersAbove line) labs ++ rest⟩ ∧
    (∀ seg ∈ rest, seg.caret = false) ∧
    ∃ drawn ∈ labs, c.underlineCols drawn = c.underlineCols lab

/-- The first label lies inside the second one, and the rows of the line tell them apart. In an
expanded line all do, the earlier of two labels on the same columns being the inner one. A compact
line underlines these two together, and labels that start inside a trimmed indentation may be drawn
over the same columns, so the inner label has to start behind the first column that is shown. -/
def Inner (c : Canvas) (mode : Mode) (line : LineLayout) (a b : PlacedLabel) : Prop :=
  a.columns.Inside b.columns ∧ match mode with
    | .expanded => a.columns = b.columns → a.index < b.index
    | .compact => a.columns ≠ b.columns ∧ (c.layout.indentTrim < a.span.startCol ∨
        ∀ lab ∈ line.labels, c.layout.indentTrim ≤ lab.span.startCol)

/-- Every label of a line is underlined on the row of one rung, and an inner label on the row of a
lower one. -/
structure InnerFirst (c : Canvas) (mode : Mode) (line : LineLayout) : Prop where
  once : ∀ lab ∈ line.labels, ∃! rung, lab ∈ c.underlinedOn mode line rung
  drawn : ∀ rung, ∀ lab ∈ c.underlinedOn mode line rung, rung < line.rungCount ∧
    ∃ row, c.rungRows mode line rung = [row] ∧ c.Underlines line row lab
  nearer : ∀ a b i j, c.Inner mode line a b → a ∈ c.underlinedOn mode line i →
    b ∈ c.underlinedOn mode line j → i < j

variable {c : Canvas} {mode : Mode} {line : LineLayout}

theorem underlines_eq_rungRows (mode : Mode) (line : LineLayout) :
    c.underlines mode line = (List.range line.rungCount).flatMap (c.rungRows mode line) := by
  cases mode with
  | expanded =>
      have hrows : c.underlines .expanded line = _ := c.filter_labelRows line
      rw [hrows, List.map_eq_flatMap]
      rfl
  | compact =>
      rw [underlines, labelRows_compact]
      dsimp only
      rw [List.filter_flatMap]
      refine List.flatMap_congr fun rung _ => ?_
      rcases c.rows_compactRung (leadersAbove line) line rung with ⟨-, hrows⟩ | ⟨rest, -, hrows⟩
      · rw [rungRows, hrows]
        rfl
      · rw [rungRows, hrows]
        rfl

theorem mem_underlinedOn_compact {lab : PlacedLabel} {rung : Nat} :
    lab ∈ c.underlinedOn .compact line rung ↔ ∃ first ∈ line.onRung rung,
      c.isPrimary line first = true ∧ lab ∈ line.labels ∧
        c.underlineCols first = c.underlineCols lab := by
  simp only [underlinedOn, List.mem_flatMap, primaries, List.mem_filter, mem_sharing, and_assoc]
  exact exists_congr fun first => and_congr_right fun _ => and_congr_right fun _ =>
    and_congr_right fun _ => eq_comm

/-- Where an inner label starts behind the first column that is shown, its columns can be told from
what is drawn, and so can the end of the label in which it lies. -/
theorem inside_of_underlineCols {a b first other : PlacedLabel} (hwidea : 1 ≤ a.span.displayWidth)
    (hwide : 1 ≤ first.span.displayWidth) (hbehind : c.layout.indentTrim < a.span.startCol)
    (ha : c.underlineCols first = c.underlineCols a)
    (hb : c.underlineCols other = c.underlineCols b)
    (hinside : a.columns.Inside b.columns) (hne : a.columns ≠ b.columns) :
    first.columns.Inside other.columns ∧ first.columns ≠ other.columns := by
  simp only [underlineCols, Prod.mk.injEq] at ha hb
  simp only [Interval.Inside, PlacedLabel.columns, ne_eq, Interval.mk.injEq] at hinside hne ⊢
  have hstart : first.span.startCol = a.span.startCol := by omega
  have hwidth : first.span.displayWidth = a.span.displayWidth := by omega
  clear ha
  have hend : other.span.startCol + other.span.displayWidth =
      b.span.startCol + b.span.displayWidth := by omega
  have hdrawn : other.span.startCol = b.span.startCol ∨
      other.span.startCol ≤ c.layout.indentTrim ∧ b.span.startCol ≤ c.layout.indentTrim := by omega
  clear hb
  omega

section Line

variable (hline : Stacked line)

include hline

theorem exists_unique_underlinedOn {lab : PlacedLabel} (hlab : lab ∈ line.labels) :
    ∃! rung, lab ∈ c.underlinedOn mode line rung := by
  cases mode with
  | expanded =>
      obtain ⟨rung, -, hrung⟩ := LineLayout.mem_labels_iff.1 hlab
      exact ⟨rung, hrung, fun other hother => hline.indexed.rung_unique hother hrung⟩
  | compact =>
      obtain ⟨first, hfirst, hprimary, hcols⟩ := exists_primary (c := c) hline.indexed hlab
      obtain ⟨rung, -, hrung⟩ := LineLayout.mem_labels_iff.1 hfirst
      refine ⟨rung, mem_underlinedOn_compact.2 ⟨first, hrung, hprimary, hlab, hcols⟩, ?_⟩
      intro other hother
      obtain ⟨same, hsame, hprimary', -, hcols'⟩ := mem_underlinedOn_compact.1 hother
      have hmem := LineLayout.mem_labels_of_mem_onRung hsame
      have heq := primary_unique hline.indexed hmem hfirst hprimary' hprimary
        (hcols'.trans hcols.symm)
      exact hline.indexed.rung_unique (heq ▸ hsame) hrung

/-- Where no label of a line starts inside the trimmed indentation, labels drawn over the same
columns have the same columns. -/
theorem columns_eq_of_underlineCols
    (huncut : ∀ lab ∈ line.labels, c.layout.indentTrim ≤ lab.span.startCol) {a b : PlacedLabel}
    (ha : a ∈ line.labels) (hb : b ∈ line.labels) (h : c.underlineCols a = c.underlineCols b) :
    a.columns = b.columns := by
  have hstarta := huncut a ha
  have hstartb := huncut b hb
  have hwidtha := (hline.drawable_of_mem_labels ha).one_le_width
  have hwidthb := (hline.drawable_of_mem_labels hb).one_le_width
  simp only [underlineCols, Prod.mk.injEq] at h
  simp only [PlacedLabel.columns, Interval.mk.injEq]
  omega

omit hline in
theorem exists_row_of_underlinedOn {lab : PlacedLabel} {rung : Nat}
    (hlab : lab ∈ c.underlinedOn mode line rung) : rung < line.rungCount ∧
      ∃ row, c.rungRows mode line rung = [row] ∧ c.Underlines line row lab := by
  cases mode with
  | expanded =>
      refine ⟨lt_rungCount hlab, _, rfl, line.onRung rung, [], ?_, ?_, lab, hlab, rfl⟩
      · rw [underlineRow, List.append_nil]
      · exact fun seg hseg => absurd hseg List.not_mem_nil
  | compact =>
      obtain ⟨first, hfirst, hprimary, -, hcols⟩ := mem_underlinedOn_compact.1 hlab
      have hmem : first ∈ c.primaries line rung := List.mem_filter.2 ⟨hfirst, hprimary⟩
      refine ⟨lt_rungCount hfirst, ?_⟩
      rcases c.rows_compactRung (leadersAbove line) line rung with
        ⟨hnone, -⟩ | ⟨rest, hrest, hrows⟩
      · rw [hnone] at hmem
        exact absurd hmem List.not_mem_nil
      · exact ⟨_, hrows, c.primaries line rung, rest, rfl, hrest, first, hmem, hcols⟩

theorem lt_of_inner (hlower : line.InnerLower) {a b : PlacedLabel} {i j : Nat}
    (hinner : c.Inner mode line a b) (ha : a ∈ c.underlinedOn mode line i)
    (hb : b ∈ c.underlinedOn mode line j) : i < j := by
  obtain ⟨hinside, htold⟩ := hinner
  cases mode with
  | expanded => exact hlower a b i j ha hb hinside htold
  | compact =>
      obtain ⟨hne, hstart⟩ := htold
      obtain ⟨first, hfirst, -, hlaba, hcolsa⟩ := mem_underlinedOn_compact.1 ha
      obtain ⟨other, hother, -, hlabb, hcolsb⟩ := mem_underlinedOn_compact.1 hb
      have hinner : first.columns.Inside other.columns ∧ first.columns ≠ other.columns := by
        rcases hstart with hbehind | huncut
        · have hwidea := (hline.drawable_of_mem_labels hlaba).one_le_width
          have hwide := (hline.drawable i first hfirst).one_le_width
          exact inside_of_underlineCols hwidea hwide hbehind hcolsa hcolsb hinside hne
        · have hlabels := LineLayout.mem_labels_of_mem_onRung hfirst
          have hlabels' := LineLayout.mem_labels_of_mem_onRung hother
          rw [columns_eq_of_underlineCols hline huncut hlabels hlaba hcolsa,
            columns_eq_of_underlineCols hline huncut hlabels' hlabb hcolsb]
          exact ⟨hinside, hne⟩
      exact hlower first other i j hfirst hother hinner.1 fun heq => absurd heq hinner.2

theorem innerFirst_of_stacked (hlower : line.InnerLower) : c.InnerFirst mode line where
  once := fun _ hlab => exists_unique_underlinedOn hline hlab
  drawn := fun _ _ hlab => exists_row_of_underlinedOn hlab
  nearer := fun _ _ _ _ hinner ha hb => lt_of_inner hline hlower hinner ha hb

end Line
end Canvas

open Canvas

/-- Of two intervals, one inside the other, the inner one is on the lower rung, of two equal ones
the first, whatever else is stacked with them. So of the rows that show or underline the source, the
underline rows of each line are those of its rungs, lowest first, every single-line label of the
line is underlined on one of them, and inner labels before outer ones. -/
theorem inner_labels_underlined_first [Platform] :
    (∀ intervals : List Interval, (∀ a ∈ intervals, a.start < a.stop) →
      ∀ (i j : Nat) (a b : Interval), intervals[i]? = some a → intervals[j]? = some b →
        a.Inside b → (a = b → i < j) →
          ∃ rung other, (assignRungs intervals)[i]? = some rung ∧
            (assignRungs intervals)[j]? = some other ∧ rung < other) ∧
    ∀ (w : CellWidth) (config : Config) (diagnostic : Diagnostic) (layout : Layout) (mode : Mode),
      build w config diagnostic = .ok layout →
        let c : Canvas := ⟨w, config, layout⟩
        ∃ rows, Rendering.rows w config mode diagnostic = .ok rows ∧
          rows.filter Row.showsSource = layout.lines.flatMap (fun line =>
            c.sourceRow (leadersAbove line) line ::
              (List.range line.rungCount).flatMap (c.rungRows mode line)) ∧
          ∀ line ∈ layout.lines,
            (∀ lab, lab ∈ line.labels ↔ lab ∈ layout.labels ∧ lab.span.isMultiline = false ∧
              lab.span.startLine = line.number) ∧
            c.InnerFirst mode line := by
  constructor
  · intro intervals hwide i j a b ha hb hinside hfirst
    obtain ⟨rung, hi⟩ := exists_number_of_entry (length_assignRungs intervals) ha
    obtain ⟨other, hj⟩ := exists_number_of_entry (length_assignRungs intervals) hb
    refine ⟨rung, other, hi, hj, ?_⟩
    exact rung_lt_of_inside (hwide a (List.mem_of_getElem? ha)) ha hb hi hj hinside hfirst
  · intro w config diagnostic layout mode hlayout c
    obtain ⟨rows, hrows, hkinds⟩ := Rendering.filter_rows hlayout mode
    refine ⟨rows, hrows, ?_, fun line hline => ?_⟩
    · have hsource := hkinds (fun kind => kind == .source || kind == .underline) (by decide)
      refine hsource.trans ((c.filter_showsSource mode).trans ?_)
      exact List.flatMap_congr fun line _ => congrArg _ (underlines_eq_rungRows mode line)
    · obtain ⟨source, placed, -, hlabels, hindex, hwithin, rfl⟩ := exists_of_build_ok hlayout
      obtain ⟨-, -, number, -, rfl⟩ := exists_number_of_mem_lines hline
      have hrising := index_pairwise_of_placeLabels hlabels
      refine ⟨fun lab => ?_, ?_⟩
      · rw [labels_shownLine hindex, mem_singlesOf]
        rfl
      · exact innerFirst_of_stacked (stacked_shownLine hindex hwithin number)
          (innerLower_layLine hrising number _)

section

attribute [local instance] Platform.usual

theorem inner_labels_underlined_first_merging :
    (∃ rung other, (assignRungs piled)[4]? = some rung ∧ (assignRungs piled)[3]? = some other ∧
      rung < other) ∧
    ∃ layout : Layout, build (fun _ => 1) .default merging = .ok layout ∧
      ∃ line ∈ layout.lines, ∃ a ∈ line.labels, ∃ b ∈ line.labels,
        Canvas.Inner ⟨fun _ => 1, .default, layout⟩ .compact line a b ∧
        Canvas.InnerFirst ⟨fun _ => 1, .default, layout⟩ .compact line := by
  obtain ⟨hintervals, hlayouts⟩ := inner_labels_underlined_first
  refine ⟨hintervals piled (by decide) 4 3 ⟨10, 11⟩ ⟨8, 12⟩ rfl rfl (by decide) (by decide), ?_⟩
  obtain ⟨layout, hlayout, line, hline, a, ha, b, hb, hinside, hne, huncut⟩ : ∃ layout : Layout,
      build (fun _ => 1) .default merging = .ok layout ∧
        ∃ line ∈ layout.lines, ∃ a ∈ line.labels, ∃ b ∈ line.labels,
          a.columns.Inside b.columns ∧ a.columns ≠ b.columns ∧
          ∀ lab ∈ line.labels, layout.indentTrim ≤ lab.span.startCol := ⟨_, rfl, by decide⟩
  obtain ⟨rows, -, -, hall⟩ := hlayouts _ _ _ _ .compact hlayout
  exact ⟨layout, hlayout, line, hline, a, ha, b, hb, ⟨hinside, hne, .inr huncut⟩,
    (hall line hline).2⟩

/-- Labels that begin inside a trimmed indentation. -/
def shadowed : Diagnostic where
  title := ['t']
  source := some ⟨"    xyz".toList, none, none⟩
  labels := [⟨⟨0, 5⟩, some ['c'], none⟩, ⟨⟨3, 6⟩, some ['b'], none⟩, ⟨⟨3, 4⟩, some ['a'], none⟩,
    ⟨⟨3, 6⟩, some ['d'], none⟩]

/-- In a compact line two labels on the same columns share a row, and an inner label that the
trimmed indentation leaves with the columns of a wider one is underlined with that, below a label in
which it lies. -/
theorem shadowed_inner_label_below : ∃ layout rows,
    build (fun _ => 1) trimming shadowed = .ok layout ∧
      Rendering.compactRows (fun _ => 1) trimming shadowed = .ok rows ∧
      (rows.filter fun row => row.kind == .underline).map (Row.paint false) =
        ["  : ^^ b, d".toList, "  : ^ c, a".toList] ∧
      ∃ line ∈ layout.lines,
        (∃ a ∈ underlinedOn ⟨fun _ => 1, trimming, layout⟩ .compact line 3,
          ∃ b ∈ underlinedOn ⟨fun _ => 1, trimming, layout⟩ .compact line 1,
            a.columns.Inside b.columns ∧ a.columns ≠ b.columns) ∧
        ∃ a ∈ underlinedOn ⟨fun _ => 1, trimming, layout⟩ .compact line 1,
          ∃ b ∈ underlinedOn ⟨fun _ => 1, trimming, layout⟩ .compact line 1,
            a.columns = b.columns ∧ a.index < b.index :=
  ⟨_, _, rfl, rfl, by decide, by decide⟩

end

end Excerpt
