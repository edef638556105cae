import Excerpt.Proofs.Connectors
import Excerpt.Proofs.Wrapping

/-!
Rows with label texts within the width limit. Whether a text fits, and into which pieces it is
broken, is decided from a column before its row is drawn, while the limit is applied to the row as
it was drawn. The two agree: what stands in front of a piece is as wide as was counted for it.
-/

namespace Excerpt

open Segment

section Width

variable {w : CellWidth}

theorem Segment.total_trimLast_le (segs : List Segment) :
    total w (trimLast segs).reverse ≤ total w segs.reverse := by
  induction segs with
  | nil => exact Int.le_refl _
  | cons seg segs ih =>
      rw [List.reverse_cons, total_append, trimLast]
      split
      case h_1 =>
          have hwidth := seg.width_nonneg (w := w)
          rw [total_cons, total_nil]
          omega
      case h_2 =>
          obtain ⟨n, hn⟩ := Text.exists_trimSpaces_append seg.text
          rw [List.reverse_cons, total_append]
          exact Int.add_le_add_left (Int.add_le_add_right
            (displayWidth_le_of_isPrefix w 4 0 ⟨_, hn.symm⟩) _) _

theorem Row.width_trimmed_le (row : Row) : row.trimmed.width w ≤ row.width w := by
  have h := total_trimLast_le (w := w) row.segments.reverse
  rw [List.reverse_reverse] at h
  exact h

/-- A text beside a row takes its own cells and at most one for the blank in front of it. -/
theorem Row.width_beside_le (hspace : w ' ' ≤ 1) (row : Row) (text : Text) (style : Style) :
    (row.beside text style).width w ≤ row.width w + 1 + text.width w := by
  have hblank : (Text.spaces 1).width w ≤ 1 := by
    rw [show Text.spaces 1 = [' '] from rfl, Text.width_singleton (by decide)]
    exact charWidth_le (by decide) hspace none
  refine Int.le_trans (Row.width_trimmed_le _) ?_
  rw [Row.width_eq_total, Row.width_eq_total]
  dsimp only
  rw [total_append, total_append, pad, total_run, total_run]
  omega

end Width

/-- The column at which the text of a label begins: that of its underline, or, for a label over
several lines, the second one behind its end marker. -/
def PlacedLabel.textCol (lab : PlacedLabel) : Int :=
  if lab.span.isMultiline then lab.span.markerCol + 2 else lab.span.startCol

namespace Canvas

/-- A row within the width limit, which is left as it is. -/
structure Uncut (c : Canvas) (limit : Int) (row : Row) : Prop where
  within : row.width c.cells ≤ limit
  kept : Rendering.fitted c.cells c.config row = row

/-- A row that tells pieces of label texts. Each is one of those into which the text is wrapped at
its column, and where there is room enough for wrapping, the row is left as it is. -/
def KeepsPieces (c : Canvas) (limit : Int) (note : Note) (row : Row) : Prop :=
  ∀ lab piece, (lab, piece) ∈ note.pieces → piece ∈ c.wrap lab.message lab.textCol ∧
    (minWrapWidth ≤ limit - c.layout.prefixWidth - lab.textCol → c.Uncut limit row)

variable {c : Canvas}

theorem underlineStart_eq (htrim : c.layout.indentTrim = 0) {line : LineLayout}
    (hline : Stacked line) (rung : Nat) :
    ∀ lab ∈ line.onRung rung, c.underlineStart lab = lab.span.startCol := by
  intro lab hlab
  rw [underlineStart, underlineCols_eq htrim (hline.drawable rung lab hlab)]

theorem starts_rising {line : LineLayout} (hline : Stacked line) (rung : Nat) :
    (line.onRung rung).Pairwise fun a b => a.span.startCol < b.span.startCol := by
  refine (hline.apart rung).imp_of_mem fun {a b} ha _ hab => ?_
  have hwidth := (hline.drawable rung a ha).one_le_width
  simp only [PlacedLabel.columns] at hab
  omega

variable {limit : Int} (hlimit : c.config.limit = some limit)

include hlimit

theorem uncut_of_width_le {row : Row} (h : row.width c.cells ≤ limit) : c.Uncut limit row := by
  refine ⟨h, ?_⟩
  rw [Rendering.fitted, hlimit]
  exact if_pos h

/-! ### Compact rows -/

section Compact

variable (hspace : c.cells ' ' ≤ 1)

include hspace

theorem uncut_beside {row : Row} {text : Text}
    (h : c.fitsInline (row.width c.cells) text = true) (style : Style) :
    c.Uncut limit (row.beside text style) := by
  rw [fitsInline, Bool.and_eq_true, fits, hlimit, decide_eq_true_eq] at h
  exact uncut_of_width_le hlimit (Int.le_trans (Row.width_beside_le hspace row text style) h.2)

theorem uncut_compactRung (active : ActiveLeaders) (line : LineLayout) (rung : Nat) :
    List.Forall₂ (fun note row => note.pieces ≠ [] → c.Uncut limit row)
      (c.rungScript .compact active line rung) (c.rungPicture .compact active line rung) := by
  simp only [rungScript, rungPicture, compactRung]
  rw [← primaries]
  cases (c.primaries line rung).getLast? with
  | none => exact .nil
  | some last =>
      simp only [besideLast]
      split
      case isTrue hfits => exact .cons (fun _ => uncut_beside hlimit hspace hfits.2 _) .nil
      case isFalse => exact .cons (fun hpieces => absurd rfl hpieces) .nil

theorem uncut_compactEnd (active after : ActiveLeaders) (lead : Leader) :
    List.Forall₂ (fun note row => note.pieces ≠ [] → c.Uncut limit row)
      (Note.ending lead (c.endTexts .compact active lead))
      (c.endDrawn .compact active after lead).rows := by
  by_cases htext : lead.message = []
  · rw [endTexts_silent htext, c.endDrawn_silent active after htext]
    exact .cons (fun hpieces => absurd rfl hpieces) .nil
  · rw [endTexts_compact htext, c.endDrawn_compact active after htext]
    split
    case isTrue hfits => exact .cons (fun _ => uncut_beside hlimit hspace hfits _) .nil
    case isFalse => exact .cons (fun hpieces => absurd rfl hpieces) .nil

theorem uncut_compact : List.Forall₂ (fun note row => note.pieces ≠ [] → c.Uncut limit row)
    (c.script .compact) (c.picture .compact).rows :=
  forall₂_picture (fun _ _ hpieces => absurd rfl hpieces)
    (fun line _ active rung => uncut_compactRung hlimit hspace active line rung)
    (fun _ _ hpieces => absurd rfl hpieces)
    (fun _ _ lead _ active after => uncut_compactEnd hlimit hspace active after lead)
    fun _ hpieces => absurd rfl hpieces

end Compact

/-! ### Expanded rows -/

section Expanded

variable (h : OneCell c.cells c.charset)

omit hlimit in
include h in
/-- The bars of a text row rise from left to right and push nothing away, so the piece begins at the
column of its label. -/
theorem total_textRun {lab : PlacedLabel} (piece : Text) {col : Int} {bars : List PlacedLabel}
    (hcol : ∀ bar ∈ bars ++ [lab], col ≤ c.underlineStart bar)
    (hrising : (bars ++ [lab]).Pairwise fun a b => c.underlineStart a < c.underlineStart b) :
    total c.cells (c.textRun lab piece col bars) =
      c.underlineStart lab - col + piece.width c.cells := by
  induction bars generalizing col with
  | nil =>
      have hpad := hcol lab (List.mem_singleton_self lab)
      rw [textRun, total_append, total_run, Int.max_eq_left (by omega),
        (fills_pad h (by omega)).total_eq]
  | cons bar bars ih =>
      obtain ⟨hbar, hrest⟩ := List.pairwise_cons.1 hrising
      have hpad := hcol bar List.mem_cons_self
      have hpending := fills_glyph h (show c.charset.pending ∈ c.charset.glyphs by
        simp [Charset.glyphs]) (some (c.singleStyle bar)) false
      rw [textRun, total_append, total_append, Int.max_eq_left (by omega),
        (fills_pad h (by omega)).total_eq, hpending.total_eq, ih (fun other hother => ?_) hrest]
      · omega
      · exact hbar other hother

variable (hwide : ∀ ch, c.cells ch ≤ 2)

include h hwide

theorem keepsPieces_of_width_le {note : Note} {row : Row} {lab : PlacedLabel} {piece : Text}
    (hpieces : note.pieces = [(lab, piece)]) (hpiece : piece ∈ c.wrap lab.message lab.textCol)
    (hwidth : row.width c.cells ≤ c.layout.prefixWidth + lab.textCol + piece.width c.cells) :
    c.KeepsPieces limit note row := by
  intro other same hmem
  rw [hpieces] at hmem
  cases List.mem_singleton.1 hmem
  refine ⟨hpiece, fun hroom => uncut_of_width_le hlimit ?_⟩
  have hfits := width_wrap_le (Int.le_of_eq h.space) hwide hlimit hroom lab.message piece hpiece
  omega

theorem keepsPieces_textRows (active : ActiveLeaders) {labs : List PlacedLabel}
    (hcols : ∀ lab ∈ labs, c.underlineStart lab = lab.textCol)
    (hfalling : labs.Pairwise fun a b => c.underlineStart b < c.underlineStart a) :
    List.Forall₂ (c.KeepsPieces limit)
      (labs.flatMap fun lab => (c.wrap lab.message (c.underlineStart lab)).map (.text lab))
      (c.textRows active labs) := by
  induction labs with
  | nil => exact .nil
  | cons lab labs ih =>
      obtain ⟨hlab, hlabs⟩ := List.forall_mem_cons.1 hcols
      have hrising : (labs.reverse ++ [lab]).Pairwise fun a b =>
          c.underlineStart a < c.underlineStart b := by
        rw [← List.reverse_cons, List.pairwise_reverse]
        exact hfalling
      rw [List.flatMap_cons, textRows]
      refine List.rel_append (forall₂_map_map fun piece hpiece => ?_)
        (ih hlabs (List.pairwise_cons.1 hfalling).2)
      refine keepsPieces_of_width_le hlimit h hwide rfl (hlab ▸ hpiece) ?_
      refine Int.le_trans (Row.width_trimmed_le _) ?_
      rw [Row.width_eq_total]
      dsimp only
      rw [total_append, (fills_annotated h active).total_eq, total_textRun h piece
        (fun bar _ => Int.le_max_right ..) hrising, hlab]
      omega

variable (htrim : c.layout.indentTrim = 0)

include htrim

theorem keepsPieces_expandedRung {line : LineLayout} (hline : Stacked line)
    (hsingle : ∀ rung, ∀ lab ∈ line.onRung rung, lab.span.isMultiline = false)
    (active : ActiveLeaders) (rung : Nat) :
    List.Forall₂ (c.KeepsPieces limit) (c.rungScript .expanded active line rung)
      (c.rungPicture .expanded active line rung) := by
  have hstart := underlineStart_eq htrim hline rung
  have hrung : ∀ lab ∈ (withText (line.onRung rung)).reverse, lab ∈ line.onRung rung :=
    fun lab hlab => List.mem_of_mem_filter (List.mem_reverse.1 hlab)
  have hnothing : ∀ row, c.KeepsPieces limit (.underline (line.onRung rung) []) row :=
    fun row lab piece hpiece => absurd hpiece List.not_mem_nil
  refine .cons (hnothing _) (keepsPieces_textRows hlimit h hwide active (fun lab hlab => ?_) ?_)
  · rw [hstart lab (hrung lab hlab), PlacedLabel.textCol, hsingle rung lab (hrung lab hlab)]
    rfl
  · rw [List.pairwise_reverse]
    refine ((starts_rising hline rung).imp_of_mem fun {a b} ha hb hab => ?_).filter _
    rw [hstart a ha, hstart b hb]
    exact hab

theorem keepsPieces_expandedEnd {lead : Leader} (hmulti : lead.span.isMultiline = true)
    (active after : ActiveLeaders) :
    List.Forall₂ (c.KeepsPieces limit) (Note.ending lead (c.endTexts .expanded active lead))
      (c.endDrawn .expanded active after lead).rows := by
  have hmarker : 0 ≤ lead.span.markerCol := Int.le_max_right ..
  have hcol : c.drawnCol lead.span.markerCol = lead.span.markerCol := drawnCol_eq htrim hmarker
  have htextCol : lead.toPlacedLabel.textCol = lead.span.markerCol + 2 := if_pos hmulti
  by_cases htext : lead.message = []
  · rw [endTexts_silent htext, c.endDrawn_silent active after htext]
    exact .cons (fun lab piece hpiece => absurd hpiece List.not_mem_nil) .nil
  · obtain ⟨first, rest, hwrap, hdrawn⟩ := c.endDrawn_expanded active after htext
    rw [endTexts_expanded htext, hwrap, hdrawn]
    rw [hcol, ← htextCol] at hwrap
    refine .cons ?_ (forall₂_map_map fun piece hpiece => ?_)
    · refine keepsPieces_of_width_le hlimit h hwide rfl (hwrap ▸ List.mem_cons_self) ?_
      refine Int.le_trans (Row.width_beside_le (Int.le_of_eq h.space) _ _ _) ?_
      have hcaret := fills_repeated h c.underliner_mem (show (0 : Int) ≤ 1 by decide)
        (some (c.multiStyle lead)) true
      rw [endMarker, Row.width_eq_total, hcol, connector_eq, total_append,
        (fills_shaft h (by simp [Charset.glyphs]) hmarker).total_eq, hcaret.total_eq, htextCol]
      omega
    · refine keepsPieces_of_width_le hlimit h hwide rfl (hwrap ▸ List.mem_cons_of_mem _ hpiece) ?_
      refine Int.le_trans (Row.width_trimmed_le _) ?_
      rw [Row.width_eq_total, hcol]
      dsimp only
      rw [total_append, total_append, (fills_annotated h after).total_eq, total_run,
        (fills_pad h (by omega)).total_eq, htextCol]

/-- Where labels stand in an excerpt as they are placed on its lines, those over several lines end
markers and the others underlines. -/
theorem keepsPieces_expanded (hlines : ∀ line ∈ c.layout.lines, Stacked line ∧
      (∀ rung, ∀ lab ∈ line.onRung rung, lab.span.isMultiline = false) ∧
      ∀ lead ∈ line.ending, lead.span.isMultiline = true) :
    List.Forall₂ (c.KeepsPieces limit) (c.script .expanded) (c.picture .expanded).rows := by
  have hnothing : ∀ {note : Note} (row : Row), note.pieces = [] → c.KeepsPieces limit note row :=
    fun _ hpieces lab piece hpiece => absurd (hpieces ▸ hpiece) List.not_mem_nil
  refine forall₂_picture (fun _ _ => hnothing _ rfl) (fun line hline active rung => ?_)
    (fun _ _ => hnothing _ rfl) (fun line hline lead hlead active after => ?_)
    fun _ => hnothing _ rfl
  · obtain ⟨hstacked, hsingle, -⟩ := hlines line hline
    exact keepsPieces_expandedRung hlimit h hwide htrim hstacked hsingle active rung
  · obtain ⟨-, -, hmulti⟩ := hlines line hline
    exact keepsPieces_expandedEnd hlimit h hwide htrim (hmulti lead hlead) active after

end Expanded

end Canvas

open Layout Canvas

/-- Wrapping agrees with the width limit. In a compact rendering every row with a label text beside
an underline or an end marker is left as it is. In an expanded one every row with a piece of a text
is, if there was room enough for wrapping at the column of that text. Characters take at most two
cells, a blank one, and beside expanded texts the glyphs of a built-in charset one each. -/
theorem label_texts_uncut [Platform] {w : CellWidth} {config : Config} {diagnostic : Diagnostic}
    {layout : Layout} {limit : Int} (hspace : w ' ' ≤ 1) (hwide : ∀ ch, w ch ≤ 2)
    (hlimit : config.limit = some limit) (hlayout : build w config diagnostic = .ok layout) :
    let c : Canvas := ⟨w, config, layout⟩
    (Rendering.compactRows w config diagnostic = .ok
        (Rendering.headRows config .compact layout ++ (c.picture .compact).rows ++
          c.items (c.picture .compact).deferred ++
          Rendering.footRows w config .compact layout diagnostic.footnotes) ∧
      List.Forall₂ (fun note row => c.Writes note row ∧ (note.pieces ≠ [] → c.Uncut limit row))
        (c.script .compact) (c.picture .compact).rows) ∧
    (OneCell w config.charset → config.trimIndent = false →
      Rendering.expandedRows w config diagnostic = .ok
          (Rendering.headRows config .expanded layout ++ (c.picture .expanded).rows ++
            Rendering.footRows w config .expanded layout diagnostic.footnotes) ∧
        List.Forall₂ (fun note row => c.Writes note row ∧ c.KeepsPieces limit note row)
          (c.script .expanded) (c.picture .expanded).rows) := by
  have hexpanded := Rendering.rows_eq hlayout .expanded
  have hcompact := Rendering.rows_eq hlayout .compact
  have hnone : ∀ c : Canvas, c.items [] = [] := fun _ => rfl
  rw [picture_expanded_deferred, hnone, List.append_nil] at hexpanded
  obtain ⟨source, placed, -, -, hindex, hwithin, rfl⟩ := exists_of_build_ok hlayout
  refine ⟨⟨hcompact, forall₂_and (writes_picture _ _) (uncut_compact hlimit hspace)⟩, ?_⟩
  intro hcells htrim
  have hindent := @indentTrim_ofPlaced w config source placed htrim diagnostic.title
  refine ⟨hexpanded, forall₂_and (writes_picture _ _)
    (keepsPieces_expanded hlimit hcells hwide hindent fun line hline => ?_)⟩
  obtain ⟨range, -, number, -, rfl⟩ := exists_number_of_mem_lines hline
  refine ⟨stacked_shownLine hindex hwithin number, fun rung lab hlab => ?_, fun lead hlead => ?_⟩
  · exact (mem_singlesOf.1 ((mem_onRung_layLine number _ hindex).1 hlab).1).2.1
  · exact (mem_of_mem_leadersOf ((mem_ending_layLine number _).1 hlead).1).2

/-- Rows of twenty-four cells. -/
def wrapping : Config where
  maxWidth := some 24
  inRange := by
    refine ⟨by decide, by decide, ?_, by decide⟩
    intro limit h
    cases h
    decide

/-- Two labels side by side and one over two lines. The text of one fits beside its underline, the
others have to be wrapped, one of them inside a word of wide characters. -/
def wordy : Diagnostic where
  title := ['t']
  source := some ⟨"let x = 1\nlet y = 2\n".toList, none, none⟩
  labels := [⟨⟨0, 3⟩, some "a name that is never used".toList, none⟩,
    ⟨⟨4, 5⟩, some "unused".toList, none⟩, ⟨⟨0, 13⟩, some "shadows 変数変数変数変数".toList, none⟩]

section

attribute [local instance] Platform.usual

theorem label_texts_uncut_wordy : ∃ layout,
    build Unicode.cellWidth wrapping wordy = .ok layout ∧
      (∀ lab ∈ layout.labels, minWrapWidth ≤ 24 - layout.prefixWidth - lab.textCol) ∧
      ((script ⟨Unicode.cellWidth, wrapping, layout⟩ .compact).flatMap Note.pieces).map Prod.snd =
        ["unused".toList] ∧
      ((script ⟨Unicode.cellWidth, wrapping, layout⟩ .expanded).flatMap Note.pieces).map Prod.snd =
        ["unused", "a name that is", "never used", "shadows", "変数変数変数変", "数"].map
          String.toList ∧
      List.Forall₂ (fun note row => Writes ⟨Unicode.cellWidth, wrapping, layout⟩ note row ∧
          (note.pieces ≠ [] → Uncut ⟨Unicode.cellWidth, wrapping, layout⟩ 24 row))
        (script ⟨Unicode.cellWidth, wrapping, layout⟩ .compact)
        (picture ⟨Unicode.cellWidth, wrapping, layout⟩ .compact).rows ∧
      List.Forall₂ (fun note row => Writes ⟨Unicode.cellWidth, wrapping, layout⟩ note row ∧
          KeepsPieces ⟨Unicode.cellWidth, wrapping, layout⟩ 24 note row)
        (script ⟨Unicode.cellWidth, wrapping, layout⟩ .expanded)
        (picture ⟨Unicode.cellWidth, wrapping, layout⟩ .expanded).rows := by
  obtain ⟨layout, hlayout, hroom, hinline, hwrapped⟩ : ∃ layout,
      build Unicode.cellWidth wrapping wordy = .ok layout ∧
        (∀ lab ∈ layout.labels, minWrapWidth ≤ 24 - layout.prefixWidth - lab.textCol) ∧
        ((script ⟨Unicode.cellWidth, wrapping, layout⟩ .compact).flatMap Note.pieces).map
            Prod.snd = ["unused".toList] ∧
        ((script ⟨Unicode.cellWidth, wrapping, layout⟩ .expanded).flatMap Note.pieces).map
            Prod.snd = ["unused", "a name that is", "never used", "shadows", "変数変数変数変",
              "数"].map String.toList :=
    ⟨_, rfl, by decide +kernel, by decide +kernel, by decide +kernel⟩
  obtain ⟨⟨-, hcompact⟩, hexpanded⟩ := label_texts_uncut (Int.le_of_eq Unicode.cellWidth_space)
    Unicode.cellWidth_le_two (show wrapping.limit = some 24 from rfl) hlayout
  exact ⟨layout, hlayout, hroom, hinline, hwrapped, hcompact,
    (hexpanded (OneCell.of_cellWidth (.inl rfl)) rfl).2⟩

end

end Excerpt
