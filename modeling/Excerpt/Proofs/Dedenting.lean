import Mathlib.Data.List.TakeWhile
import Excerpt.Proofs.Trimming

/-!
How much is trimmed. The amount is measured in cells, over all displayed lines that show something,
but taken off as characters of the text with its tabs expanded. Both are one: expanded, an
indentation consists of spaces, so it has as many characters as cells. One of the lines that show
something has no further space behind the amount, so none could lose more; the other lines lose
nothing.
-/

namespace Excerpt

/-- Stripping leaves nothing of a text if only blanks are in it. -/
theorem Text.strip_eq_nil_iff {s : Text} : s.strip = [] ↔ s.isBlank = true := by
  rw [strip, List.reverse_eq_nil_iff, List.dropWhile_eq_nil_iff, isBlank, List.all_eq_true]
  constructor
  · intro h c hc
    rw [← List.takeWhile_append_dropWhile (p := Unicode.isBlank) (l := s)] at hc
    rcases List.mem_append.1 hc with hfront | hback
    · exact List.all_eq_true.1 List.all_takeWhile c hfront
    · exact h c (List.mem_reverse.2 hback)
  · intro h c hc
    exact h c ((List.dropWhile_suffix _).subset (List.mem_reverse.1 hc))

section Indent

variable {w : CellWidth}

/-- Behind the indentation of a line that shows something is what it shows first. -/
theorem exists_getElem?_indentWidth (hspace : UnitChar w ' ') {s : Text} (htab : '\t' ∉ s)
    (hvisible : s.isBlank = false) (tab : Int) :
    ∃ ch, s[(indentWidth w tab s).toNat]? = some ch ∧ ch ≠ ' ' := by
  obtain ⟨n, rest, hwidth, heq, hhead⟩ := exists_spaces_of_indentWidth hspace htab tab
  cases rest with
  | nil =>
      have hall : s.isBlank = true := by
        rw [heq, List.append_nil, Text.isBlank, List.all_replicate]
        simp [show Unicode.isBlank ' ' = true by decide]
      exact absurd (hall.symm.trans hvisible) (by decide)
  | cons ch rest =>
      refine ⟨ch, ?_, fun hch => hhead (congrArg some hch)⟩
      rw [hwidth, Int.toNat_natCast, heq, List.getElem?_append_right (by simp)]
      simp

theorem Layout.exists_commonIndent_eq {lines : List LineLayout}
    (h : ∃ line ∈ lines, line.isBlank = false) :
    ∃ line ∈ lines, line.isBlank = false ∧ commonIndent w lines = indentWidth w 4 line.text := by
  obtain ⟨line, hline, hvisible⟩ := h
  rw [commonIndent]
  cases hmin : ((lines.filter fun line => !line.isBlank).map
      fun line => indentWidth w 4 line.text).min? with
  | none =>
      have hmem : line ∈ lines.filter fun line => !line.isBlank := by simp [hline, hvisible]
      rw [List.map_eq_nil_iff.1 (List.min?_eq_none_iff.1 hmin)] at hmem
      exact absurd hmem List.not_mem_nil
  | some indent =>
      obtain ⟨least, hleast, rfl⟩ := List.mem_map.1 (List.min?_mem hmin)
      obtain ⟨hleast, hshown⟩ := List.mem_filter.1 hleast
      exact ⟨least, hleast, by simpa using hshown, rfl⟩

end Indent

namespace Canvas

variable (c : Canvas)

/-- The source row of a line of which `text` is shown. -/
def rowShowing (line : LineLayout) (text : Text) : Row :=
  Row.trimmed ⟨.source, c.numberGutter line.number ++ c.margin (leadersAbove line) ++
    Segment.run text (some c.sourceStyle)⟩

/-- A row that shows a line without the trimmed indentation, which is spaces, or shows all of the
line if only blanks are on it. -/
structure Dedented (line : LineLayout) (row : Row) : Prop where
  visible : line.text.strip ≠ [] →
    ∃ rest, line.text = Text.spaces c.layout.indentTrim ++ rest ∧ row = c.rowShowing line rest
  blank : line.text.strip = [] → row = c.rowShowing line line.text

variable {c}

theorem filter_source_picture (mode : Mode) :
    (c.picture mode).rows.filter (fun row => row.kind == .source) =
      c.layout.lines.map fun line => c.sourceRow (leadersAbove line) line := by
  have hpicture := c.filter_picture mode (p := fun kind => kind == .source) rfl
  rw [hpicture, ← List.flatMap_singleton' (c.layout.lines.map _), List.flatMap_map]
  apply List.flatMap_congr
  intro line _
  exact filter_lineDrawn_source (p := fun kind => kind == .source) line rfl rfl rfl rfl

theorem dedented_sourceRow {line : LineLayout}
    (hspaces : line.isBlank = false →
      line.text = Text.spaces c.layout.indentTrim ++ c.shownText line) :
    c.Dedented line (c.sourceRow (leadersAbove line) line) where
  visible := by
    intro hstrip
    have hvisible : line.isBlank = false := by
      simpa [Text.strip_eq_nil_iff, LineLayout.isBlank] using hstrip
    exact ⟨c.shownText line, hspaces hvisible, rfl⟩
  blank := by
    intro hstrip
    have hblank : line.isBlank = true := Text.strip_eq_nil_iff.1 hstrip
    simp only [sourceRow, rowShowing, hblank, if_true]
    rfl

end Canvas

open Layout Canvas

/-- Trimming takes off common blanks only, and as many as there are. In both modes the source rows
are one to each displayed line. A line with visible text begins with as many spaces as are trimmed,
which take that many cells, and its row shows what is behind them; the row of any other line shows
all of it. One of the lines with visible text has something else than a space right behind the
trimmed ones. -/
theorem common_indent_trimmed [Platform] {w : CellWidth} {config : Config} {diagnostic : Diagnostic}
    {layout : Layout} (hspace : w ' ' = 1) (htrim : config.trimIndent = true)
    (hlayout : build w config diagnostic = .ok layout)
    (hvisible : ∃ line ∈ layout.lines, line.text.strip ≠ []) (mode : Mode) :
    (∃ all, Rendering.rows w config mode diagnostic = .ok all ∧
      List.Forall₂ (Canvas.Dedented ⟨w, config, layout⟩) layout.lines
        (all.filter fun row => row.kind == .source)) ∧
      0 ≤ layout.indentTrim ∧ (Text.spaces layout.indentTrim).width w = layout.indentTrim ∧
      (∀ line ∈ layout.lines, ∃ text, layout.source.line line.number = .ok text ∧
        line.text = expandTabs w config.tab text) ∧
      ∃ line ∈ layout.lines, line.text.strip ≠ [] ∧
        ∃ ch, line.text[layout.indentTrim.toNat]? = some ch ∧ ch ≠ ' ' := by
  have hunit : UnitChar w ' ' := ⟨hspace, by decide, by decide⟩
  have hstrip : ∀ line : LineLayout, line.text.strip ≠ [] ↔ line.isBlank = false := by
    intro line
    rw [Ne, Text.strip_eq_nil_iff, Bool.not_eq_true, LineLayout.isBlank]
  simp only [hstrip] at hvisible ⊢
  obtain ⟨all, hall, hfilter⟩ := Rendering.filter_rows hlayout mode
  have hrows := hfilter (fun kind => kind == .source) (by decide)
  rw [filter_source_picture] at hrows
  obtain ⟨source, placed, -, -, -, hwithin, rfl⟩ := exists_of_build_ok hlayout
  refine ⟨⟨all, hall, ?rows⟩, indentTrim_nonneg, ?cells, ?texts, ?most⟩
  case rows =>
      rw [hrows, List.forall₂_map_right_iff, List.forall₂_same]
      intro line hline
      exact dedented_sourceRow (text_eq_spaces_append hunit hline)
  case cells =>
      rw [Text.spaces, Text.width, displayWidth,
        (UnitText.replicate hunit _).columnAfter_eq (by simp), List.length_replicate]
      have := @indentTrim_nonneg w config source placed diagnostic.title
      omega
  case texts => exact fun line hline => text_eq_of_mem_lines hwithin hline
  case most =>
      obtain ⟨line, hline, hshown, hleast⟩ := exists_commonIndent_eq (w := w) hvisible
      have hamount : (ofPlaced w config diagnostic.title source placed).indentTrim =
          indentWidth w 4 line.text := by
        rw [← hleast]
        simp only [ofPlaced, htrim, if_true]
        rfl
      refine ⟨line, hline, hshown, ?_⟩
      rw [hamount]
      exact exists_getElem?_indentWidth hunit (tab_not_mem_of_mem_lines hline) hshown 4

/-- A line indented by a tab, one of spaces only, and one indented by six spaces. -/
def uneven : Diagnostic where
  title := ['t']
  source := some ⟨"\ta\n  \n      b".toList, none, none⟩
  labels := [⟨⟨1, 12⟩, none, none⟩]

section

attribute [local instance] Platform.usual

theorem common_indent_trimmed_uneven : ∃ layout all,
    build Unicode.cellWidth trimming uneven = .ok layout ∧ layout.indentTrim = 4 ∧
      Rendering.rows Unicode.cellWidth trimming .compact uneven = .ok all ∧
      List.Forall₂ (Canvas.Dedented ⟨Unicode.cellWidth, trimming, layout⟩) layout.lines
        (all.filter fun row => row.kind == .source) ∧
      (all.filter fun row => row.kind == .source).map Row.plain =
        ["1 │   a", "2 │ │", "3 │ │   b"].map String.toList := by
  obtain ⟨layout, hlayout, htrim, hvisible⟩ : ∃ layout : Layout,
      build Unicode.cellWidth trimming uneven = .ok layout ∧ layout.indentTrim = 4 ∧
        ∃ line ∈ layout.lines, line.text.strip ≠ [] := ⟨_, rfl, rfl, by decide⟩
  obtain ⟨⟨all, hall, hrows⟩, -⟩ :=
    common_indent_trimmed (by decide) (show trimming.trimIndent = true from rfl) hlayout hvisible
      .compact
  refine ⟨layout, all, hlayout, htrim, hall, hrows, ?_⟩
  have heq : Rendering.rows Unicode.cellWidth trimming .compact uneven = .ok _ := rfl
  rw [heq] at hall
  rw [← Except.ok.inj hall]
  decide +kernel

end

end Excerpt
