import Excerpt.Proofs.Uncut

/-!
Expanded texts stand under their carets. The labels of a rung start at columns that rise strictly,
so the bars in front of a text leave it room, and nothing is pushed to the right: every bar is at
the first caret of its label, and so is the text.
-/

namespace Excerpt

namespace Canvas

variable {c : Canvas}

open Segment

/-- What a row with a piece of the text of `lab` shows behind the margin, `labs` being the labels
underlined with it: a bar at the first column of each label with a text that is further left, and
the piece from the first column of its own label on. -/
structure TextUnder (c : Canvas) (labs : List PlacedLabel) (lab : PlacedLabel) (piece : Text)
    (row : Row) : Prop where
  kind : row.kind = .text
  begins : piece.trimSpaces ≠ [] → ∃ front,
    row.segments = front ++ [⟨piece.trimSpaces, some (c.singleStyle lab), false⟩] ∧
      total c.cells front = c.layout.prefixWidth + lab.span.startCol
  text : ∀ x, 0 ≤ x → row.glyphsAt c.cells (c.layout.prefixWidth + (lab.span.startCol + x)) =
    (Text.glyphsAt c.cells x 0 none piece).map (·, some (c.singleStyle lab))
  bars : ∀ bar ∈ labs, bar.message ≠ [] → bar.span.startCol < lab.span.startCol →
    row.glyphsAt c.cells (c.layout.prefixWidth + bar.span.startCol) =
      mark c.charset.pending (c.singleStyle bar)
  blank : ∀ x, 0 ≤ x → x < lab.span.startCol →
    (∀ bar ∈ labs, bar.message ≠ [] → bar.span.startCol ≠ x) →
    row.glyphsAt c.cells (c.layout.prefixWidth + x) = []

/-- What stands at a column of a text row: the bars of labels that start there, and the piece. -/
def textMark (c : Canvas) (lab : PlacedLabel) (piece : Text) (bars : List PlacedLabel) (x : Int) :
    List (Char × Option Style) :=
  (bars.flatMap fun bar =>
      if c.underlineStart bar = x then mark c.charset.pending (c.singleStyle bar) else []) ++
    (Text.glyphsAt c.cells (x - c.underlineStart lab) 0 none piece).map
      (·, some (c.singleStyle lab))

section Run

variable (h : OneCell c.cells c.charset)

include h

theorem glyphs_pending (bar : PlacedLabel) (x : Int) :
    glyphs c.cells (x - c.underlineStart bar)
        (run c.charset.pending (some (c.singleStyle bar))) =
      if c.underlineStart bar = x then mark c.charset.pending (c.singleStyle bar) else [] := by
  have hpending : c.charset.pending ∈ c.charset.glyphs := by simp [Charset.glyphs]
  have hone := glyphs_repeated h hpending (show (0 : Int) ≤ 1 by decide) (c.singleStyle bar) false
    (x - c.underlineStart bar)
  rw [repeated_one] at hone
  rw [hone]
  by_cases hx : c.underlineStart bar = x
  · rw [if_pos hx, if_pos (by omega)]
  · rw [if_neg hx, if_neg (by omega)]

/-- As the bars rise and the text stands behind them, each is drawn at its own column. -/
theorem glyphs_textRun {lab : PlacedLabel} (piece : Text) {col : Int} {bars : List PlacedLabel}
    (hcol : ∀ bar ∈ bars ++ [lab], col ≤ c.underlineStart bar)
    (hrising : (bars ++ [lab]).Pairwise fun a b => c.underlineStart a < c.underlineStart b)
    (x : Int) :
    glyphs c.cells (x - col) (c.textRun lab piece col bars) = c.textMark lab piece bars x := by
  -- On the bars; `col` columns are drawn.
  induction bars generalizing col with
  | nil =>
      have hpad := fills_pad h (show 0 ≤ max (c.underlineStart lab - col) 0 by omega)
      have hlab := hcol lab (List.mem_singleton_self lab)
      rw [textRun, glyphs_append, glyphs_pad, List.nil_append, hpad.total_eq, glyphs_run]
      rw [show x - col - max (c.underlineStart lab - col) 0 = x - c.underlineStart lab by omega]
      rfl
  | cons bar bars ih =>
      obtain ⟨hbar, hrest⟩ := List.pairwise_cons.1 hrising
      have hstart := hcol bar List.mem_cons_self
      have hpad := fills_pad h (show 0 ≤ max (c.underlineStart bar - col) 0 by omega)
      have hpending := fills_glyph h (show c.charset.pending ∈ c.charset.glyphs by
        simp [Charset.glyphs]) (some (c.singleStyle bar)) false
      have hnext : glyphs c.cells (x - (c.underlineStart bar + 1)) _ = _ := ih hbar hrest
      rw [textRun, List.append_assoc, glyphs_append, glyphs_pad, List.nil_append, hpad.total_eq,
        show x - col - max (c.underlineStart bar - col) 0 = x - c.underlineStart bar by omega,
        glyphs_append, glyphs_pending h, hpending.total_eq, Int.sub_sub, hnext]
      simp only [textMark, List.flatMap_cons, List.append_assoc]

end Run

theorem bars_textMark_of_mem {bars : List PlacedLabel}
    (hrising : bars.Pairwise fun a b => c.underlineStart a < c.underlineStart b)
    {bar : PlacedLabel} (hbar : bar ∈ bars) :
    (bars.flatMap fun other => if c.underlineStart other = c.underlineStart bar then
      mark c.charset.pending (c.singleStyle other) else []) =
        mark c.charset.pending (c.singleStyle bar) := by
  induction bars with
  | nil => exact absurd hbar List.not_mem_nil
  | cons first bars ih =>
      obtain ⟨hfirst, hrest⟩ := List.pairwise_cons.1 hrising
      rw [List.flatMap_cons]
      rcases List.mem_cons.1 hbar with rfl | hbar
      · have hothers : (bars.flatMap fun other => if c.underlineStart other = c.underlineStart bar
            then mark c.charset.pending (c.singleStyle other) else []) = [] :=
          List.flatMap_eq_nil_iff.2 fun other hother => if_neg (Int.ne_of_gt (hfirst other hother))
        rw [if_pos rfl, hothers, List.append_nil]
      · rw [if_neg (Int.ne_of_lt (hfirst bar hbar)), List.nil_append, ih hrest hbar]

theorem bars_textMark_of_ne {bars : List PlacedLabel} {x : Int}
    (hx : ∀ bar ∈ bars, c.underlineStart bar ≠ x) : (bars.flatMap fun bar =>
      if c.underlineStart bar = x then mark c.charset.pending (c.singleStyle bar) else []) = [] :=
  List.flatMap_eq_nil_iff.2 fun bar hbar => if_neg (hx bar hbar)

section Row

variable (h : OneCell c.cells c.charset) {lab : PlacedLabel} {bars : List PlacedLabel}
  (hrising : (bars ++ [lab]).Pairwise fun a b => c.underlineStart a < c.underlineStart b)

include h hrising

theorem glyphsAt_textRow (active : ActiveLeaders) (piece : Text) {x : Int} (hx : 0 ≤ x) :
    (Row.trimmed ⟨.text, c.annotation active ++ c.textRun lab piece 0 bars⟩).glyphsAt c.cells
      (c.layout.prefixWidth + x) = c.textMark lab piece bars x := by
  have hfills := fills_annotated h active
  have hrun := glyphs_textRun h piece (fun bar _ => Int.le_max_right ..) hrising x
  rw [Row.glyphsAt_trimmed, Row.glyphsAt]
  dsimp only
  rw [glyphs_append, hfills.beyond _ (by omega), hfills.total_eq, List.nil_append, ← hrun]
  congr 1
  omega

theorem exists_front_textRow (active : ActiveLeaders) {piece : Text}
    (hpiece : piece.trimSpaces ≠ []) : ∃ front,
      (Row.trimmed ⟨.text, c.annotation active ++ c.textRun lab piece 0 bars⟩).segments =
          front ++ [⟨piece.trimSpaces, some (c.singleStyle lab), false⟩] ∧
        total c.cells front = c.layout.prefixWidth + c.underlineStart lab := by
  obtain ⟨gap, -, hgap⟩ := exists_textRun (c := c) lab 0 bars
  have htotal := total_textRun h ([] : Text) (fun bar _ => Int.le_max_right ..) hrising
  have hempty : c.textRun lab [] 0 bars = gap := (hgap []).trans (List.append_nil gap)
  have hne : piece ≠ [] := by
    rintro rfl
    exact hpiece rfl
  refine ⟨c.annotation active ++ gap, ?_, ?_⟩
  · rw [hgap, run, if_neg hne, ← List.append_assoc]
    exact trimLast_concat hpiece
  · rw [hempty, Text.width_nil] at htotal
    rw [total_append, (fills_annotated h active).total_eq, htotal]
    omega

end Row

section Rung

variable (h : OneCell c.cells c.charset) {labs : List PlacedLabel}
  (hstart : ∀ lab ∈ labs, c.underlineStart lab = lab.span.startCol)

include h hstart

theorem textUnder_textRow {lab : PlacedLabel} {bars : List PlacedLabel}
    (hlab : lab ∈ labs) (hbars : ∀ bar, bar ∈ bars ↔
      bar ∈ labs ∧ bar.message ≠ [] ∧ bar.span.startCol < lab.span.startCol)
    (hrising : bars.Pairwise fun a b => c.underlineStart a < c.underlineStart b)
    (active : ActiveLeaders) (piece : Text) : c.TextUnder labs lab piece
      (Row.trimmed ⟨.text, c.annotation active ++ c.textRun lab piece 0 bars⟩) := by
  have hlabStart := hstart lab hlab
  have hbarStart : ∀ bar ∈ bars, c.underlineStart bar = bar.span.startCol :=
    fun bar hbar => hstart bar ((hbars bar).1 hbar).1
  have hleft : ∀ bar ∈ bars, c.underlineStart bar < c.underlineStart lab := by
    intro bar hbar
    rw [hbarStart bar hbar, hlabStart]
    exact ((hbars bar).1 hbar).2.2
  have hall : (bars ++ [lab]).Pairwise fun a b => c.underlineStart a < c.underlineStart b := by
    refine List.pairwise_append.2 ⟨hrising, List.pairwise_singleton _ _, ?_⟩
    exact fun bar hbar other hother => List.mem_singleton.1 hother ▸ hleft bar hbar
  have hnonneg : ∀ other, 0 ≤ c.underlineStart other := fun other => Int.le_max_right ..
  constructor
  case kind => rfl
  case begins =>
      intro hpiece
      rw [← hlabStart]
      exact exists_front_textRow h hall active hpiece
  case text =>
      intro x hx
      have hlabNonneg := hnonneg lab
      rw [← hlabStart, glyphsAt_textRow h hall active piece (by omega), textMark,
        bars_textMark_of_ne fun bar hbar => by have := hleft bar hbar; omega, List.nil_append,
        show c.underlineStart lab + x - c.underlineStart lab = x by omega]
  case bars =>
      intro bar hbar htext hlt
      have hmem := (hbars bar).2 ⟨hbar, htext, hlt⟩
      have hltLab := hleft bar hmem
      rw [← hbarStart bar hmem, glyphsAt_textRow h hall active piece (hnonneg bar), textMark,
        bars_textMark_of_mem hrising hmem, Text.glyphsAt_of_lt (by omega), List.map_nil,
        List.append_nil]
  case blank =>
      intro x hx hlt hout
      rw [glyphsAt_textRow h hall active piece hx, textMark,
        bars_textMark_of_ne fun bar hbar => ?_, Text.glyphsAt_of_lt (by omega)]
      · rfl
      · obtain ⟨hbarMem, htext, -⟩ := (hbars bar).1 hbar
        rw [hbarStart bar hbar]
        exact hout bar hbarMem htext

/-- The text rows of a rung, of which those for the labels in `done` are drawn already. -/
theorem textUnder_textRows (active : ActiveLeaders)
    (hrising : labs.Pairwise fun a b => a.span.startCol < b.span.startCol)
    {done waiting : List PlacedLabel} (hsplit : done ++ waiting = (withText labs).reverse) :
    List.Forall₂ (fun p row => c.TextUnder labs p.1 p.2 row)
      (waiting.flatMap fun lab => (c.wrap lab.message lab.span.startCol).map (lab, ·))
      (c.textRows active waiting) := by
  induction waiting generalizing done with
  | nil => exact .nil
  | cons lab waiting ih =>
      have hfalling : (done ++ lab :: waiting).Pairwise fun a b =>
          b.span.startCol < a.span.startCol := by
        rw [hsplit, List.pairwise_reverse]
        exact hrising.filter _
      have hmem : ∀ other, other ∈ done ++ lab :: waiting ↔
          other ∈ labs ∧ other.message ≠ [] := by
        intro other
        rw [hsplit, List.mem_reverse, mem_withText]
      obtain ⟨-, hbelow, hpast⟩ := List.pairwise_append.1 hfalling
      obtain ⟨hleft, hwaiting⟩ := List.pairwise_cons.1 hbelow
      have hlab := ((hmem lab).1 (List.mem_append_right done List.mem_cons_self)).1
      have hlater : ∀ other ∈ waiting, other ∈ labs ∧ other.message ≠ [] := fun other hother =>
        (hmem other).1 (List.mem_append_right done (List.mem_cons_of_mem lab hother))
      have hbars : ∀ bar, bar ∈ waiting.reverse ↔
          bar ∈ labs ∧ bar.message ≠ [] ∧ bar.span.startCol < lab.span.startCol := by
        intro bar
        rw [List.mem_reverse]
        refine ⟨fun hbar => ⟨(hlater bar hbar).1, (hlater bar hbar).2, hleft bar hbar⟩, ?_⟩
        rintro ⟨hbar, htext, hlt⟩
        rcases List.mem_append.1 ((hmem bar).2 ⟨hbar, htext⟩) with hdone | hrest
        · exact absurd (hpast bar hdone lab List.mem_cons_self) (Int.not_lt.2 (Int.le_of_lt hlt))
        · exact (List.mem_cons.1 hrest).resolve_left fun heq => by
            rw [heq] at hlt
            exact Int.lt_irrefl _ hlt
      have hbarsRising : waiting.reverse.Pairwise fun a b =>
          c.underlineStart a < c.underlineStart b := by
        rw [List.pairwise_reverse]
        refine hwaiting.imp_of_mem fun {a b} ha hb hab => ?_
        rw [hstart a (hlater a ha).1, hstart b (hlater b hb).1]
        exact hab
      rw [List.flatMap_cons, textRows, hstart lab hlab]
      refine List.rel_append (forall₂_map_map fun piece _ => ?_)
        (ih ((List.append_assoc done [lab] waiting).trans hsplit))
      exact textUnder_textRow h hstart hlab hbars hbarsRising active piece

end Rung

/-- The rows of one rung. Below its underlines, whose carets are on the columns of its labels, the
labels with a text follow from the rightmost to the leftmost, each with a row for every piece of its
text, which stands under the first caret of the label. -/
structure TextsUnder (c : Canvas) (line : LineLayout) (rung : Nat) (rows : List Row) : Prop where
  rising : (line.onRung rung).Pairwise fun a b => a.span.startCol < b.span.startCol
  carets : (c.underlineRow line rung).carets c.cells = (line.onRung rung).map fun lab =>
    ⟨c.layout.prefixWidth + lab.columns.start, c.layout.prefixWidth + lab.columns.stop⟩
  below : ∃ texts, rows = c.underlineRow line rung :: texts ∧
    List.Forall₂ (fun p row => c.TextUnder (line.onRung rung) p.1 p.2 row)
      ((withText (line.onRung rung)).reverse.flatMap fun lab =>
        (c.wrap lab.message lab.span.startCol).map (lab, ·)) texts

theorem textsUnder_expandedRung (h : OneCell c.cells c.charset) (htrim : c.layout.indentTrim = 0)
    {line : LineLayout} (hline : Stacked line) (rung : Nat) :
    c.TextsUnder line rung (c.expandedRung (leadersAbove line) line rung) := by
  have hrising := starts_rising hline rung
  exact {
    rising := hrising
    carets := carets_underlineRow h htrim (hline.drawable rung) (hline.apart rung)
    below := ⟨_, rfl, textUnder_textRows h (underlineStart_eq htrim hline rung) _ hrising
      (List.nil_append _)⟩ }

/-- The source row of a line and the rows of its rungs stand together in the excerpt. -/
theorem rungs_infix_picture {line : LineLayout} (hline : line ∈ c.layout.lines) :
    c.sourceRow (leadersAbove line) line :: (List.range line.rungCount).flatMap
        (c.expandedRung (leadersAbove line) line) <:+: (c.picture .expanded).rows := by
  have hpart := infix_flatMap (mem_passages_iff.2 hline)
    fun part => (c.passageDrawn .expanded part).rows
  refine List.IsInfix.trans ?_ hpart
  simp only [passageDrawn, lineDrawn, append_rows, List.append_assoc]
  exact (List.prefix_append _ _).isInfix

end Canvas

open Layout Canvas

/-- The texts of an expanded rendering stand under their carets. Of the labels that are underlined
together each stands at its first caret with its text, and in front of it are bars at the first
carets of those labels whose texts are still to come, and nothing else behind the margin. -/
theorem texts_under_carets [Platform] {w : CellWidth} {config : Config} {diagnostic : Diagnostic}
    {layout : Layout} (hcells : OneCell w config.charset) (htrim : config.trimIndent = false)
    (hlayout : build w config diagnostic = .ok layout) :
    let c : Canvas := ⟨w, config, layout⟩
    ∃ rows, Rendering.expandedRows w config diagnostic = .ok rows ∧
      ∀ line ∈ layout.lines,
        c.sourceRow (leadersAbove line) line :: (List.range line.rungCount).flatMap
          (c.expandedRung (leadersAbove line) line) <:+: rows ∧
        ∀ rung < line.rungCount,
          c.TextsUnder line rung (c.expandedRung (leadersAbove line) line rung) := by
  refine ⟨_, Rendering.rows_eq hlayout .expanded, fun line hline => ⟨?_, fun rung _ => ?_⟩⟩
  · rw [List.append_assoc (_ ++ _)]
    exact (rungs_infix_picture hline).trans (List.infix_append _ _ _)
  · obtain ⟨source, placed, -, -, hindex, hwithin, rfl⟩ := exists_of_build_ok hlayout
    obtain ⟨range, -, number, -, rfl⟩ := exists_number_of_mem_lines hline
    exact textsUnder_expandedRung hcells (indentTrim_ofPlaced htrim diagnostic.title)
      (stacked_shownLine hindex hwithin number) rung

/-- Three labels on one rung, two of them side by side with one caret each. -/
def crowded : Diagnostic where
  title := ['t']
  source := some ⟨"ab cde".toList, none, none⟩
  labels := [⟨⟨0, 1⟩, some "first".toList, none⟩,
    ⟨⟨1, 2⟩, some "a second text, too wide".toList, none⟩, ⟨⟨3, 6⟩, some "third".toList, none⟩]

section

attribute [local instance] Platform.usual

theorem texts_under_carets_crowded : ∃ layout rows,
    build Unicode.cellWidth wrapping crowded = .ok layout ∧
      Rendering.expandedRows Unicode.cellWidth wrapping crowded = .ok rows ∧
      rows.map Row.plain = ["t", "", "  @ [unknown]", "1 │ ab cde", "  : ^^ ^^^", "  : ││ third",
        "  : │a second text, too", "  : │wide", "  : first"].map String.toList ∧
      ∀ line ∈ layout.lines, ∀ rung < line.rungCount,
        TextsUnder ⟨Unicode.cellWidth, wrapping, layout⟩ line rung
          (expandedRung ⟨Unicode.cellWidth, wrapping, layout⟩ (leadersAbove line) line rung) := by
  obtain ⟨layout, all, hlayout, hall, hplain⟩ : ∃ layout all,
      build Unicode.cellWidth wrapping crowded = .ok layout ∧
        Rendering.expandedRows Unicode.cellWidth wrapping crowded = .ok all ∧
        all.map Row.plain = ["t", "", "  @ [unknown]", "1 │ ab cde", "  : ^^ ^^^",
          "  : ││ third", "  : │a second text, too", "  : │wide", "  : first"].map
            String.toList := ⟨_, _, rfl, rfl, by decide +kernel⟩
  obtain ⟨_, -, hlines⟩ :=
    texts_under_carets (OneCell.of_cellWidth (.inl rfl)) (show wrapping.trimIndent = false from rfl)
      hlayout
  exact ⟨layout, all, hlayout, hall, hplain, fun line hline => (hlines line hline).2⟩

end

end Excerpt
