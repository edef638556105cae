import Excerpt.Unicode.Width
import Excerpt.Proofs.Characters
import Excerpt.Proofs.Columns

/-!
Rows within the width limit. A row that is too wide keeps the segments that fit beside the ellipsis
and a beginning of the next one. A cut counts a tab as no wider than the character is alone, while
the width of a text lets it reach to a tab stop: without tabs the cut is the longest beginning that
fits, and a row can stay too wide only where the cut has kept a tab.
-/

namespace Excerpt

section Cut

variable {w : CellWidth} {limit : Int}

theorem columnAfter_cutFrom_le {col : Int} (hcol : col ≤ limit) {previous : Option Char} {s : Text}
    (htab : '\t' ∉ cutFrom w limit col previous s) (tab : Int) :
    columnAfter w tab col previous (cutFrom w limit col previous s) ≤ limit := by
  induction s generalizing col previous with
  | nil => exact hcol
  | cons c s ih =>
      rw [cutFrom] at htab ⊢
      split
      case isTrue => exact hcol
      case isFalse hfits =>
          rw [if_neg hfits, List.mem_cons, not_or] at htab
          rw [columnAfter_cons, advance, if_neg (Ne.symm htab.1)]
          exact ih (Int.not_lt.1 hfits) htab.2

/-- What is cut to a width without a tab is within the width. -/
theorem width_cutToWidth_le (hlimit : 0 ≤ limit) {s : Text}
    (htab : '\t' ∉ cutToWidth w s limit) : (cutToWidth w s limit).width w ≤ limit := by
  rw [cutToWidth] at htab ⊢
  split
  case isTrue =>
      rw [Text.width_nil]
      exact hlimit
  case isFalse hpos =>
      rw [if_neg hpos] at htab
      rw [Text.width, displayWidth, Int.sub_zero]
      exact columnAfter_cutFrom_le hlimit htab 4

theorem isPrefix_cutFrom {tab col : Int} {previous : Option Char} {p s : Text} (hp : p <+: s)
    (htab : '\t' ∉ p) (hfits : columnAfter w tab col previous p ≤ limit) :
    p <+: cutFrom w limit col previous s := by
  induction p generalizing col previous s with
  | nil => exact List.nil_prefix
  | cons c p ih =>
      obtain ⟨rest, rfl⟩ := hp
      rw [List.mem_cons, not_or] at htab
      rw [columnAfter_cons, advance, if_neg (Ne.symm htab.1)] at hfits
      have hnext := Int.le_trans (le_columnAfter ..) hfits
      rw [List.cons_append, cutFrom, if_neg (Int.not_lt.2 hnext)]
      exact List.cons_prefix_cons.2 ⟨rfl, ih (List.prefix_append p rest) htab.2 hfits⟩

/-- A text without tabs is cut to the longest beginning that fits. -/
theorem cutToWidth_longest (hlimit : 0 < limit) {s : Text} (htab : '\t' ∉ s) :
    cutToWidth w s limit <+: s ∧ (cutToWidth w s limit).width w ≤ limit ∧
      ∀ p : Text, p <+: s → p.width w ≤ limit → p <+: cutToWidth w s limit := by
  have hcut := cutToWidth_isPrefix w s limit
  refine ⟨hcut, width_cutToWidth_le (Int.le_of_lt hlimit) (mt (hcut.subset ·) htab), ?_⟩
  intro p hp hfits
  rw [Text.width, displayWidth, Int.sub_zero] at hfits
  rw [cutToWidth, if_neg (Int.not_le.2 hlimit)]
  exact isPrefix_cutFrom hp (mt (hp.subset ·) htab) hfits

end Cut

namespace Row

open Segment

variable {w : CellWidth} {limit : Int}

/-- The part of a segment that is left of it when it is cut to some cells. -/
def cutSegment (w : CellWidth) (cells : Int) (seg : Segment) : List Segment :=
  if seg.caret then [] else run (cutToWidth w seg.text cells) seg.style

/-- Either all segments are kept, or those in front of the first that does not fit and its part. -/
theorem takeFitting_cases {col : Int} (hcol : col ≤ limit) (segs : List Segment) :
    (col + total w segs ≤ limit ∧ takeFitting w limit col segs = segs) ∨
      ∃ front seg rest, segs = front ++ seg :: rest ∧ col + total w front ≤ limit ∧
        limit < col + total w front + seg.width w ∧
        takeFitting w limit col segs =
          front ++ cutSegment w (limit - (col + total w front)) seg := by
  induction segs generalizing col with
  | nil => exact .inl ⟨by rw [total_nil]; omega, rfl⟩
  | cons seg segs ih =>
      rw [takeFitting]
      split
      case isTrue hfits =>
          rcases ih hfits with ⟨hall, hkept⟩ | ⟨front, next, rest, rfl, hfront, hnext, hkept⟩
          · refine .inl ⟨?_, by rw [hkept]⟩
            rw [total_cons]
            omega
          · refine .inr ⟨seg :: front, next, rest, rfl, ?_, ?_, ?_⟩
            · rw [total_cons]
              omega
            · rw [total_cons]
              omega
            · rw [hkept, total_cons, ← Int.add_assoc]
              rfl
      case isFalse hwide =>
          refine .inr ⟨[], seg, segs, rfl, ?_, ?_, ?_⟩
          · rw [total_nil]
            omega
          · rw [total_nil]
            omega
          · rw [total_nil, Int.add_zero]
            rfl

/-- A segment of the row is cut, with a tab in the part that stays, to bring it within a limit. -/
def CutAtTab (w : CellWidth) (limit : Int) (row : Row) : Prop :=
  ∃ front seg rest, row.segments = front ++ seg :: rest ∧ total w front ≤ limit ∧
    limit < total w front + seg.width w ∧ seg.caret = false ∧
    '\t' ∈ cutToWidth w seg.text (limit - total w front)

theorem width_eq_total (row : Row) : row.width w = total w row.segments := rfl

theorem total_takeFitting_le (hlimit : 0 ≤ limit) (row : Row) (htab : ¬row.CutAtTab w limit) :
    total w (takeFitting w limit 0 row.segments) ≤ limit := by
  rcases takeFitting_cases hlimit row.segments (w := w) with
    ⟨hall, hkept⟩ | ⟨front, seg, rest, hsplit, hfront, hseg, hkept⟩
  · rw [hkept]
    omega
  · rw [Int.zero_add] at hfront hseg hkept
    rw [hkept, total_append, cutSegment]
    split
    case isTrue =>
        rw [total_nil]
        omega
    case isFalse hcaret =>
        have hnone : '\t' ∉ cutToWidth w seg.text (limit - total w front) := fun hmem =>
          htab ⟨front, seg, rest, hsplit, hfront, hseg, Bool.eq_false_iff.2 hcaret, hmem⟩
        have hcut := width_cutToWidth_le (show 0 ≤ limit - total w front by omega) hnone
        rw [total_run]
        omega

/-- A fitted row is within the limit, unless a segment had to be cut behind a tab. -/
theorem width_fit_le {ellipsis : Text} (hellipsis : ellipsis.width w ≤ limit) (row : Row)
    (htab : ¬row.CutAtTab w (limit - ellipsis.width w)) :
    (row.fit w limit ellipsis).width w ≤ limit := by
  rw [fit]
  split
  case isTrue hfits => exact hfits
  case isFalse =>
      have hkept := total_takeFitting_le (show 0 ≤ limit - ellipsis.width w by omega) row htab
      rw [Int.max_eq_left (by omega), width_eq_total, total_append, total_run]
      omega

theorem not_cutAtTab {P : Char → Prop} {row : Row} (h : MadeOf P row.segments) (htab : ¬P '\t') :
    ¬row.CutAtTab w limit := by
  rintro ⟨front, seg, rest, hsplit, -, -, -, hmem⟩
  have hseg : seg ∈ row.segments := hsplit ▸ List.mem_append_right _ List.mem_cons_self
  exact htab (h seg hseg '\t' ((cutToWidth_isPrefix w seg.text _).subset hmem))

end Row

namespace Rendering

/-- No given text that is shown as it stands has a tab in it. Only the source has its tabs
expanded. -/
structure Untabbed (config : Config) (diagnostic : Diagnostic) (layout : Layout) : Prop where
  glyphs : ∀ glyph ∈ config.charset.glyphs, '\t' ∉ glyph
  title : '\t' ∉ diagnostic.title
  name : '\t' ∉ displayName layout.source
  labels : ∀ label ∈ diagnostic.labels, '\t' ∉ label.message
  footnotes : ∀ footnote ∈ diagnostic.footnotes, '\t' ∉ footnote.text

variable {w : CellWidth} {config : Config} {diagnostic : Diagnostic} {layout : Layout} {limit : Int}

theorem Untabbed.not_shown [Platform] (h : Untabbed config diagnostic layout)
    (hlayout : Layout.build w config diagnostic = .ok layout) :
    ¬Shown config diagnostic layout '\t' := by
  intro hshown
  cases hshown with
  | glyph hglyph hch => exact h.glyphs _ hglyph hch
  | frame hch => exact absurd hch (show isFrame '\t' ≠ true from Bool.false_ne_true)
  | digit hch => exact absurd hch (by decide)
  | title hch => exact h.title hch
  | name hch => exact h.name hch
  | source hline hch =>
      obtain ⟨source, placed, -, -, -, -, rfl⟩ := Layout.exists_of_build_ok hlayout
      exact Layout.tab_not_mem_of_mem_lines hline hch
  | label hlabel hch => exact h.labels _ hlabel hch
  | footnote hfootnote hch => exact h.footnotes _ hfootnote hch

/-- The width limit holds for every row of a rendering, except for rows that are cut behind a tab.
As the source is shown without tabs, it holds for all of them if no other text has a tab. -/
theorem fitted_rows_within_limit [Platform] (hlimit : config.limit = some limit)
    (hellipsis : config.charset.ellipsis.width w ≤ limit)
    (hlayout : Layout.build w config diagnostic = .ok layout) (mode : Mode) :
    ∃ all, rows w config mode diagnostic = .ok all ∧
      diagnostic.render w config mode =
        .ok (lines (all.map fun row => (fitted w config row).paint config.colorEnabled)) ∧
      (∀ row ∈ all, (fitted w config row).width w ≤ limit ∨
        row.CutAtTab w (limit - config.charset.ellipsis.width w)) ∧
      (Untabbed config diagnostic layout → ∀ row ∈ all, (fitted w config row).width w ≤ limit) := by
  have hfitted : ∀ row, fitted w config row = row.fit w limit config.charset.ellipsis := by
    intro row
    rw [fitted, hlimit]
  obtain ⟨all, hall, hshown⟩ := shown_rows hlayout mode
  refine ⟨all, hall, by rw [Diagnostic.render, hall]; rfl, fun row _ => ?_, fun h row hrow => ?_⟩
  · rw [hfitted]
    by_cases htab : row.CutAtTab w (limit - config.charset.ellipsis.width w)
    · exact .inr htab
    · exact .inl (Row.width_fit_le hellipsis row htab)
  · rw [hfitted]
    exact Row.width_fit_le hellipsis row (Row.not_cutAtTab (hshown row hrow) (h.not_shown hlayout))

/-- Five cells to a row. -/
def narrow : Config where
  colorEnabled := false
  maxWidth := some 5
  inRange := by
    refine ⟨by decide, by decide, ?_, by decide⟩
    intro limit h
    cases h
    decide

/-- A title that is too wide for five cells. -/
def titled (title : Text) : Diagnostic where
  title := title
  source := some ⟨['x'], none, none⟩
  labels := [⟨⟨0, 1⟩, none, none⟩]

section

attribute [local instance] Platform.usual

theorem fitted_rows_within_limit_titled : ∃ layout all,
    Layout.build Unicode.cellWidth narrow (titled "a title".toList) = .ok layout ∧
      rows Unicode.cellWidth narrow .expanded (titled "a title".toList) = .ok all ∧
      Untabbed narrow (titled "a title".toList) layout ∧
      ∀ row ∈ all, (fitted Unicode.cellWidth narrow row).width Unicode.cellWidth ≤ 5 := by
  obtain ⟨layout, hlayout, hname⟩ : ∃ layout,
      Layout.build Unicode.cellWidth narrow (titled "a title".toList) = .ok layout ∧
        '\t' ∉ displayName layout.source := ⟨_, rfl, List.not_mem_of_count_eq_zero rfl⟩
  have huntabbed : Untabbed narrow (titled "a title".toList) layout :=
    ⟨by decide, by decide, hname, by decide, by decide⟩
  obtain ⟨all, hall, -, -, hwithin⟩ := fitted_rows_within_limit
    (show narrow.limit = some 5 from rfl) (by decide +kernel) hlayout .expanded
  exact ⟨layout, all, hlayout, hall, huntabbed, hwithin huntabbed⟩

/-- With its tabs counted as nothing, a title of thirteen cells is kept whole where there is room
for four, and the ellipsis comes on top. -/
theorem tabbed_title_too_wide : ∃ expanded compact,
    rows Unicode.cellWidth narrow .expanded (titled "a\t\t\tb".toList) = .ok expanded ∧
      rows Unicode.cellWidth narrow .compact (titled "a\t\t\tb".toList) = .ok compact ∧
      narrow.limit = some 5 ∧ narrow.charset.ellipsis.width Unicode.cellWidth ≤ 5 ∧
      (∃ row ∈ expanded, 5 < (fitted Unicode.cellWidth narrow row).width Unicode.cellWidth) ∧
      ∃ row ∈ compact, 5 < (fitted Unicode.cellWidth narrow row).width Unicode.cellWidth :=
  ⟨_, _, rfl, rfl, rfl, by decide +kernel, ⟨_, List.mem_cons_self, by decide +kernel⟩,
    ⟨_, List.mem_cons_self, by decide +kernel⟩⟩

end

end Rendering
end Excerpt
