import Excerpt.Proofs.Connectors

/-!
Both modes draw the same picture. Source rows, elisions and connectors come from the same lines with
the same leaders alive, so only what stands beside a connector differs; and as a compact rung draws
one run for all labels on the same columns, each line has the same carets either way.
-/

namespace Excerpt

open ActiveLeaders Layout

namespace Segment

/-- The segments up to the first caret run, and that run. -/
def upToCaret : List Segment → List Segment
  | [] => []
  | seg :: rest => if seg.caret then [seg] else seg :: upToCaret rest

theorem upToCaret_append {front : List Segment} (hfront : ∀ seg ∈ front, seg.caret = false)
    {seg : Segment} (hseg : seg.caret = true) (rest : List Segment) :
    upToCaret (front ++ seg :: rest) = front ++ [seg] := by
  induction front with
  | nil => exact if_pos hseg
  | cons first front ih =>
      obtain ⟨hfirst, hfront⟩ := List.forall_mem_cons.1 hfront
      rw [List.cons_append, upToCaret, if_neg (by rw [hfirst]; exact Bool.false_ne_true), ih hfront]
      rfl

/-- Nothing is dropped in front of a segment that ends in something else than a space. -/
theorem exists_trimLast_append {seg : Segment} (hkept : seg.text.trimSpaces = seg.text)
    (hne : seg.text ≠ []) (behind front : List Segment) :
    ∃ rest, trimLast (behind ++ seg :: front) = rest ++ seg :: front := by
  induction behind with
  | nil =>
      refine ⟨[], ?_⟩
      rw [List.nil_append, trimLast, hkept]
      split
      · exact absurd ‹_› hne
      · rfl
  | cons last behind ih =>
      rw [List.cons_append, trimLast]
      split
      · exact ih
      · exact ⟨_ :: behind, rfl⟩

end Segment

namespace Row

/-- The segments of a row up to its first caret run. -/
def upToCaret (row : Row) : List Segment := Segment.upToCaret row.segments

/-- Rows that show lines of the source or that lines are hidden. -/
def showsLines (row : Row) : Bool := row.kind == .source || row.kind == .elision

/-- Rows that mark the start or the end of a label over several lines. -/
def connects (row : Row) : Bool := row.kind == .connector

theorem upToCaret_trimmed (kind : RowKind) {front : List Segment}
    (hfront : ∀ seg ∈ front, seg.caret = false) {seg : Segment} (hseg : seg.caret = true)
    (hkept : seg.text.trimSpaces = seg.text) (hne : seg.text ≠ []) (rest : List Segment) :
    (Row.trimmed ⟨kind, front ++ seg :: rest⟩).upToCaret = front ++ [seg] := by
  have hreverse : (front ++ seg :: rest).reverse = rest.reverse ++ seg :: front.reverse := by
    rw [List.reverse_append, List.reverse_cons, List.append_assoc]
    rfl
  obtain ⟨behind, hbehind⟩ := Segment.exists_trimLast_append hkept hne rest.reverse front.reverse
  rw [upToCaret, Row.trimmed]
  dsimp only
  rw [hreverse, hbehind, List.reverse_append, List.reverse_cons, List.reverse_reverse,
    List.append_assoc]
  exact Segment.upToCaret_append hfront hseg _

end Row

namespace Canvas

variable {c : Canvas}

/-! ### Connectors -/

/-- The connectors of labels that end, one after another. -/
def endConnectors (c : Canvas) : ActiveLeaders → List Leader → List (List Segment)
  | _, [] => []
  | active, lead :: rest =>
    c.connector active lead c.charset.bottomCorner (c.drawnCol lead.span.markerCol) ::
      endConnectors c (active.filter (·.slot != lead.slot)) rest

theorem upToCaret_connector (h : OneCell c.cells c.charset) (active : ActiveLeaders)
    (marker : Leader) (corner : Text) (col : Int) (rest : List Segment) :
    (Row.trimmed ⟨.connector, c.connector active marker corner col ++ rest⟩).upToCaret =
      c.connector active marker corner col := by
  have hne := repeated_ne_nil h c.underliner_mem (Int.le_refl 1)
  have hcaret : Segment.run (repeated c.charset.underliner 1) (some (c.multiStyle marker)) true =
      [⟨repeated c.charset.underliner 1, some (c.multiStyle marker), true⟩] := if_neg hne
  have hkept := trimSpaces_of_mem_run h c.underliner_mem (hcaret ▸ List.mem_singleton_self _)
  rw [connector_eq, hcaret, List.append_assoc]
  exact Row.upToCaret_trimmed .connector (fun _ => caret_of_mem_shaft) rfl hkept.1 hkept.2 rest

theorem exists_caret_connector (h : OneCell c.cells c.charset) (active : ActiveLeaders)
    (marker : Leader) (corner : Text) (col : Int) :
    ∃ seg ∈ c.connector active marker corner col, seg.caret = true := by
  have hne := repeated_ne_nil h c.underliner_mem (Int.le_refl 1)
  rw [connector_eq, Segment.run, if_neg hne]
  exact ⟨_, List.mem_append_right _ (List.mem_singleton_self _), rfl⟩

section Connectors

variable (h : OneCell c.cells c.charset)

include h

theorem upToCaret_trimmed_endMarker (active : ActiveLeaders) (lead : Leader) :
    (c.endMarker active lead).trimmed.upToCaret =
      c.connector active lead c.charset.bottomCorner (c.drawnCol lead.span.markerCol) := by
  have hrow := upToCaret_connector h active lead c.charset.bottomCorner
    (c.drawnCol lead.span.markerCol) []
  rwa [List.append_nil] at hrow

theorem upToCaret_beside_endMarker (active : ActiveLeaders) (lead : Leader) (text : Text)
    (style : Style) : ((c.endMarker active lead).beside text style).upToCaret =
      c.connector active lead c.charset.bottomCorner (c.drawnCol lead.span.markerCol) := by
  rw [Row.beside, endMarker, List.append_assoc]
  exact upToCaret_connector h active lead _ _ _

/-- The end of a label has one connector row, whatever text is beside or below it. -/
theorem connectors_endDrawn (mode : Mode) (active after : ActiveLeaders) (lead : Leader) :
    ((c.endDrawn mode active after lead).rows.filter Row.connects).map Row.upToCaret =
      [c.connector active lead c.charset.bottomCorner (c.drawnCol lead.span.markerCol)] := by
  have hbare := upToCaret_trimmed_endMarker h active lead
  have hbeside := upToCaret_beside_endMarker h active lead
  by_cases htext : lead.message = []
  · rw [c.endDrawn_silent active after htext]
    exact congrArg (fun segs => [segs]) hbare
  · cases mode with
    | expanded =>
        obtain ⟨first, rest, -, hdrawn⟩ := c.endDrawn_expanded active after htext
        have hpieces : (rest.map (c.endPiece after lead)).filter Row.connects = [] := by
          refine List.filter_eq_nil_iff.2 fun row hrow => ?_
          obtain ⟨piece, -, rfl⟩ := List.mem_map.1 hrow
          exact Bool.false_ne_true
        rw [hdrawn]
        dsimp only
        rw [List.filter_cons_of_pos rfl, hpieces]
        exact congrArg (fun segs => [segs]) (hbeside first _)
    | compact =>
        rw [c.endDrawn_compact active after htext]
        split
        · exact congrArg (fun segs => [segs]) (hbeside _ _)
        · exact congrArg (fun segs => [segs]) hbare

theorem connectors_endsDrawn (mode : Mode) (active : ActiveLeaders) (leads : List Leader) :
    ((c.endsDrawn mode active leads).rows.filter Row.connects).map Row.upToCaret =
      c.endConnectors active leads := by
  induction leads generalizing active with
  | nil => rfl
  | cons lead leads ih =>
      rw [endsDrawn, append_rows, List.filter_append, List.map_append, connectors_endDrawn h, ih]
      rfl

theorem connectors_picture (mode : Mode) :
    ((c.picture mode).rows.filter Row.connects).map Row.upToCaret =
      c.layout.lines.flatMap fun line =>
        (c.startRows (leadersAbove line) line.starting).1.map Row.upToCaret ++
          c.endConnectors (line.starting.foldl add (leadersAbove line)) line.ending := by
  have hlines : (c.picture mode).rows.filter Row.connects = _ :=
    c.filter_picture mode (p := fun kind => kind == .connector) rfl
  rw [hlines, List.map_flatMap]
  refine List.flatMap_congr fun line _ => ?_
  have hline : (c.lineDrawn mode line).rows.filter Row.connects = _ :=
    filter_lineDrawn_markers (p := fun kind => kind == .connector) line rfl rfl rfl rfl
  rw [← connectors_endsDrawn h mode, ← List.map_append]
  exact congrArg _ hline

theorem exists_caret_startRows {active : ActiveLeaders} {leads : List Leader} {segs : List Segment}
    (hsegs : segs ∈ (c.startRows active leads).1.map Row.upToCaret) :
    ∃ seg ∈ segs, seg.caret = true := by
  induction leads generalizing active with
  | nil => exact absurd hsegs List.not_mem_nil
  | cons lead leads ih =>
      rcases List.mem_cons.1 hsegs with rfl | hsegs
      · have hrow := upToCaret_connector h active lead c.charset.topCorner
          (c.drawnCol lead.span.startCol) []
        rw [List.append_nil] at hrow
        rw [startRow, hrow]
        exact exists_caret_connector h _ _ _ _
      · exact ih hsegs

theorem exists_caret_endConnectors {active : ActiveLeaders} {leads : List Leader}
    {segs : List Segment} (hsegs : segs ∈ c.endConnectors active leads) :
    ∃ seg ∈ segs, seg.caret = true := by
  induction leads generalizing active with
  | nil => exact absurd hsegs List.not_mem_nil
  | cons lead leads ih =>
      rcases List.mem_cons.1 hsegs with rfl | hsegs
      · exact exists_caret_connector h _ _ _ _
      · exact ih hsegs

theorem exists_caret_of_connects {mode : Mode} {row : Row}
    (hrow : row ∈ (c.picture mode).rows.filter Row.connects) :
    ∃ seg ∈ row.upToCaret, seg.caret = true := by
  have hsegs := List.mem_map_of_mem (f := Row.upToCaret) hrow
  rw [connectors_picture h mode] at hsegs
  obtain ⟨line, -, hsegs⟩ := List.mem_flatMap.1 hsegs
  exact (List.mem_append.1 hsegs).elim (exists_caret_startRows h) (exists_caret_endConnectors h)

end Connectors

/-! ### Lines and elisions -/

theorem filter_showsLines (mode : Mode) : (c.picture mode).rows.filter Row.showsLines =
    (passages c.layout.groups).flatMap fun part => match part with
      | .line line => [c.sourceRow (leadersAbove line) line]
      | .elision alive => [c.elisionRow alive] := by
  refine List.filter_flatMap.trans (List.flatMap_congr fun part _ => ?_)
  cases part with
  | elision alive => rfl
  | line line =>
      exact filter_lineDrawn_source (p := fun kind => kind == .source || kind == .elision) line rfl
        rfl rfl rfl

/-! ### Underlines -/

/-- The cells under a label. -/
def runOf (c : Canvas) (lab : PlacedLabel) : Interval :=
  ⟨c.layout.prefixWidth + lab.columns.start, c.layout.prefixWidth + lab.columns.stop⟩

/-- The caret runs on the underline rows of a line. -/
def runs (c : Canvas) (mode : Mode) (line : LineLayout) : List Interval :=
  (c.underlines mode line).flatMap (Row.carets c.cells)

/-- A compact rung without primary labels has no row. Else it has one, on which their underlines are
all that is drawn with carets. -/
theorem rows_compactRung (c : Canvas) (active : ActiveLeaders) (line : LineLayout) (rung : Nat) :
    c.primaries line rung = [] ∧ (c.compactRung active line rung).rows = [] ∨
      ∃ rest : List Segment, (∀ seg ∈ rest, seg.caret = false) ∧
        (c.compactRung active line rung).rows = [Row.trimmed ⟨.underline,
          c.underlineSegments active (c.primaries line rung) ++ rest⟩] := by
  simp only [compactRung]
  rw [← primaries]
  cases hlast : (c.primaries line rung).getLast? with
  | none => exact .inl ⟨List.getLast?_eq_none_iff.1 hlast, rfl⟩
  | some last =>
      right
      dsimp only
      split
      · refine ⟨_, fun seg hseg => ?_, by rw [Row.beside, List.append_assoc]⟩
        exact (List.mem_append.1 hseg).elim caret_of_mem_pad caret_of_mem_run
      · exact ⟨[], fun seg hseg => absurd hseg List.not_mem_nil, by rw [List.append_nil]⟩

section Runs

variable (h : OneCell c.cells c.charset) (htrim : c.layout.indentTrim = 0) {line : LineLayout}
  (hline : Stacked line)

include h htrim hline

theorem runs_expanded : c.runs .expanded line =
    (((List.range line.rungCount).flatMap line.onRung).map c.runOf) := by
  have hrows : c.underlines .expanded line = _ := c.filter_labelRows line
  rw [runs, hrows, List.flatMap_map, List.map_flatMap]
  exact List.flatMap_congr fun rung _ =>
    carets_underlineRow h htrim (hline.drawable rung) (hline.apart rung)

theorem carets_compactRung (rung : Nat) :
    ((c.compactRung (leadersAbove line) line rung).rows.filter Row.showsSource).flatMap
      (Row.carets c.cells) = (c.primaries line rung).map c.runOf := by
  have hsub : (c.primaries line rung).Sublist (line.onRung rung) := List.filter_sublist
  rcases c.rows_compactRung (leadersAbove line) line rung with ⟨hnone, hrows⟩ | ⟨rest, hrest, hrows⟩
  · rw [hrows, hnone]
    rfl
  · rw [hrows]
    refine (List.flatMap_singleton ..).trans ?_
    exact carets_underlined h htrim
      (fun lab hlab => hline.drawable rung lab (hsub.subset hlab))
      ((hline.apart rung).sublist hsub) (leadersAbove line) hrest

theorem runs_compact : c.runs .compact line =
    ((List.range line.rungCount).flatMap (c.primaries line)).map c.runOf := by
  rw [runs, underlines, labelRows_compact]
  dsimp only
  rw [List.filter_flatMap, List.flatMap_assoc, List.map_flatMap]
  exact List.flatMap_congr fun rung _ => carets_compactRung h htrim hline rung

omit h in
theorem runOf_eq_iff {a b : PlacedLabel} (ha : a ∈ line.labels) (hb : b ∈ line.labels) :
    c.runOf a = c.runOf b ↔ c.underlineCols a = c.underlineCols b := by
  rw [underlineCols_eq htrim (hline.drawable_of_mem_labels ha),
    underlineCols_eq htrim (hline.drawable_of_mem_labels hb), Prod.mk.injEq, runOf, runOf,
    Interval.mk.injEq, PlacedLabel.columns, PlacedLabel.columns]
  dsimp only
  omega

/-- Labels on the same columns are drawn once in a compact line, and no columns are left out. -/
theorem runs_same : (∀ run, run ∈ c.runs .expanded line ↔ run ∈ c.runs .compact line) ∧
    (c.runs .compact line).Nodup := by
  have hall := hline.indexed.onRung_perm
  have hfirst := primaries_perm (c := c) hline.indexed
  rw [runs_expanded h htrim hline, runs_compact h htrim hline]
  refine ⟨fun run => ?_, ((hfirst.map c.runOf).nodup_iff).2 ?_⟩
  · rw [(hall.map c.runOf).mem_iff, (hfirst.map c.runOf).mem_iff, List.mem_map, List.mem_map]
    constructor
    · rintro ⟨lab, hlab, rfl⟩
      obtain ⟨primary, hprimary, hisFirst, hcols⟩ := exists_primary (c := c) hline.indexed hlab
      exact ⟨primary, List.mem_filter.2 ⟨hprimary, hisFirst⟩,
        (runOf_eq_iff htrim hline hprimary hlab).2 hcols⟩
    · rintro ⟨lab, hlab, rfl⟩
      exact ⟨lab, (List.mem_filter.1 hlab).1, rfl⟩
  · refine List.Nodup.map_on ?_ (hline.indexed.nodup.filter _)
    intro a ha b hb heq
    rw [List.mem_filter] at ha hb
    exact primary_unique hline.indexed ha.1 hb.1 ha.2 hb.2
      ((runOf_eq_iff htrim hline ha.1 hb.1).1 heq)

end Runs
end Canvas

open Canvas

/-- Both modes draw the same picture. The rows that show lines or elisions are the same, those that
mark the start or the end of a label are the same up to their caret, and below the source row of
each line stand underlines with the same caret runs, of which the compact mode draws each one once.
-/
theorem modes_draw_same_picture [Platform] {w : CellWidth} {config : Config}
    {diagnostic : Diagnostic} {layout : Layout} (hcells : OneCell w config.charset)
    (htrim : config.trimIndent = false) (hlayout : build w config diagnostic = .ok layout) :
    let c : Canvas := ⟨w, config, layout⟩
    ∃ expanded compact, Rendering.expandedRows w config diagnostic = .ok expanded ∧
      Rendering.compactRows w config diagnostic = .ok compact ∧
      expanded.filter Row.showsLines = compact.filter Row.showsLines ∧
      (expanded.filter Row.connects).map Row.upToCaret =
        (compact.filter Row.connects).map Row.upToCaret ∧
      (∀ row ∈ expanded.filter Row.connects, ∃ seg ∈ row.upToCaret, seg.caret = true) ∧
      (∀ row ∈ compact.filter Row.connects, ∃ seg ∈ row.upToCaret, seg.caret = true) ∧
      expanded.filter Row.showsSource = layout.lines.flatMap (fun line =>
        c.sourceRow (leadersAbove line) line :: c.underlines .expanded line) ∧
      compact.filter Row.showsSource = layout.lines.flatMap (fun line =>
        c.sourceRow (leadersAbove line) line :: c.underlines .compact line) ∧
      ∀ line ∈ layout.lines,
        (∀ run, run ∈ c.runs .expanded line ↔ run ∈ c.runs .compact line) ∧
        (c.runs .compact line).Nodup := by
  intro c
  obtain ⟨expanded, hexpanded, hkindse⟩ := Rendering.filter_rows hlayout .expanded
  obtain ⟨compact, hcompact, hkindsc⟩ := Rendering.filter_rows hlayout .compact
  -- what is looked for is a kind of row that neither head nor foot nor the items have
  have hlines : ∀ kind ∈ [RowKind.title, .blank, .header, .footnote, .item],
      (kind == .source || kind == .elision) = false := by decide
  have hconnects : ∀ kind ∈ [RowKind.title, .blank, .header, .footnote, .item],
      (kind == .connector) = false := by decide
  have hsource : ∀ kind ∈ [RowKind.title, .blank, .header, .footnote, .item],
      (kind == .source || kind == .underline) = false := by decide
  have hconnectse : expanded.filter Row.connects = _ := hkindse _ hconnects
  have hconnectsc : compact.filter Row.connects = _ := hkindsc _ hconnects
  have hcarets : ∀ mode, ∀ row ∈ (c.picture mode).rows.filter Row.connects,
      ∃ seg ∈ row.upToCaret, seg.caret = true :=
    fun mode row hrow => exists_caret_of_connects hcells hrow
  refine ⟨expanded, compact, hexpanded, hcompact, ?_, ?_, ?_, ?_, ?_, ?_, ?_⟩
  · exact (hkindse _ hlines).trans ((filter_showsLines .expanded).trans
      ((filter_showsLines .compact).symm.trans (hkindsc _ hlines).symm))
  · rw [hconnectse, hconnectsc]
    exact (connectors_picture hcells .expanded).trans (connectors_picture hcells .compact).symm
  · rw [hconnectse]
    exact hcarets .expanded
  · rw [hconnectsc]
    exact hcarets .compact
  · exact (hkindse _ hsource).trans (c.filter_showsSource .expanded)
  · exact (hkindsc _ hsource).trans (c.filter_showsSource .compact)
  · obtain ⟨source, placed, -, -, hindex, hwithin, rfl⟩ := exists_of_build_ok hlayout
    intro line hline
    obtain ⟨-, -, number, -, rfl⟩ := exists_number_of_mem_lines hline
    exact runs_same hcells (indentTrim_ofPlaced htrim _) (stacked_shownLine hindex hwithin number)

/-- Two labels on the same columns, one that overlaps them, and one over both lines. -/
def merging : Diagnostic where
  title := ['t']
  source := some ⟨"let x = 1\nlet y = 2\n".toList, none, none⟩
  labels := [⟨⟨4, 5⟩, some ['a'], none⟩, ⟨⟨4, 5⟩, some ['b'], none⟩, ⟨⟨0, 9⟩, none, none⟩,
    ⟨⟨6, 14⟩, some ['d'], none⟩]

section

attribute [local instance] Platform.usual

theorem modes_draw_same_picture_merging : ∃ layout : Layout,
    build (fun _ => 1) .default merging = .ok layout ∧
      layout.lines.map (runs ⟨fun _ => 1, .default, layout⟩ .expanded) =
        [[⟨10, 11⟩, ⟨10, 11⟩, ⟨6, 15⟩], []] ∧
      layout.lines.map (runs ⟨fun _ => 1, .default, layout⟩ .compact) =
        [[⟨10, 11⟩, ⟨6, 15⟩], []] ∧
      ∃ expanded compact, Rendering.expandedRows (fun _ => 1) .default merging = .ok expanded ∧
        Rendering.compactRows (fun _ => 1) .default merging = .ok compact ∧
        expanded.filter Row.showsLines = compact.filter Row.showsLines := by
  have hcells : OneCell (fun _ => 1) Config.default.charset :=
    ⟨.inl rfl, rfl, fun _ _ => rfl, fun _ _ _ _ => rfl⟩
  obtain ⟨layout, hlayout, hrunse, hrunsc⟩ : ∃ layout : Layout,
      build (fun _ => 1) .default merging = .ok layout ∧
        layout.lines.map (runs ⟨fun _ => 1, .default, layout⟩ .expanded) =
          [[⟨10, 11⟩, ⟨10, 11⟩, ⟨6, 15⟩], []] ∧
        layout.lines.map (runs ⟨fun _ => 1, .default, layout⟩ .compact) =
          [[⟨10, 11⟩, ⟨6, 15⟩], []] := ⟨_, rfl, rfl, rfl⟩
  obtain ⟨expanded, compact, hexpanded, hcompact, hlines, -⟩ :=
    modes_draw_same_picture hcells rfl hlayout
  exact ⟨layout, hlayout, hrunse, hrunsc, expanded, compact, hexpanded, hcompact, hlines⟩

end

end Excerpt
