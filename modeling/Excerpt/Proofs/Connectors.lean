import Excerpt.Proofs.Underlines

/-!
Connector rows point at a column of the source. A row that is drawn for a view shows in each leader
slot what the view says, and its pointer, if it has one, is one caret at the column of its corner.
-/

namespace Excerpt

/-- The leader that a row points for, and the column of the source it points at. -/
def View.pointer? : View → Option (Leader × Int)
  | .top lead _ => some (lead, lead.span.startCol)
  | .bottom lead _ => some (lead, lead.span.markerCol)
  | .source _ _ | .underline _ | .text _ | .elision _ => none

namespace Canvas

variable {c : Canvas}

open Segment

theorem caret_of_mem_connectorCell {active : ActiveLeaders} {marker : Leader} {corner : Text}
    {slot : Nat} {seg : Segment} (h : seg ∈ c.connectorCell active marker corner slot) :
    seg.caret = false := by
  have hruns : ∀ (a b : Text) (style other : Option Style), seg ∈ run a style ++ run b other →
      seg.caret = false := by
    intro a b style other hseg
    exact (List.mem_append.1 hseg).elim caret_of_mem_run caret_of_mem_run
  simp only [connectorCell] at h
  split at h
  · exact caret_of_mem_leaderCell h
  · split at h
    · exact hruns _ _ _ _ h
    · cases hheld : active.held slot with
      | none =>
          rw [hheld] at h
          exact hruns _ _ _ _ h
      | some held =>
          rw [hheld] at h
          exact hruns _ _ _ _ h

/-- What a connector row has in front of its caret. -/
def shaft (c : Canvas) (active : ActiveLeaders) (marker : Leader) (corner : Text) (col : Int) :
    List Segment :=
  c.glyphGutter c.charset.separator ++ c.connectorMargin active marker corner ++
    run (repeated c.charset.horizontalBar col) (some (c.multiStyle marker))

theorem caret_of_mem_shaft {active : ActiveLeaders} {marker : Leader} {corner : Text} {col : Int}
    {seg : Segment} (h : seg ∈ c.shaft active marker corner col) : seg.caret = false := by
  rw [shaft, List.mem_append, List.mem_append] at h
  rcases h with (h | h) | h
  · exact caret_of_mem_glyphGutter h
  · obtain ⟨slot, -, h⟩ := List.mem_flatMap.1 h
    exact caret_of_mem_connectorCell h
  · exact caret_of_mem_run h

theorem repeated_one (text : Text) : repeated text 1 = text := List.append_nil text

theorem connector_eq (active : ActiveLeaders) (marker : Leader) (corner : Text) (col : Int) :
    c.connector active marker corner col = c.shaft active marker corner col ++
      run (repeated c.charset.underliner 1) (some (c.multiStyle marker)) true := by
  rw [repeated_one]
  rfl

section Pointer

variable (h : OneCell c.cells c.charset) {active : ActiveLeaders} {marker : Leader} {corner : Text}
  (hcorner : corner ∈ c.charset.glyphs) {col : Int} (hcol : 0 ≤ col) {rest : List Segment}

include h hcorner hcol

theorem fills_shaft :
    Fills c.cells (c.shaft active marker corner col) (c.layout.prefixWidth + col) := by
  have hgutter := fills_glyphGutter h (show c.charset.separator ∈ c.charset.glyphs by
    simp [Charset.glyphs])
  have hmargin : Fills c.cells (c.connectorMargin active marker corner) (2 * c.layout.slotCount) :=
    fills_slots (fills_connectorCell h active marker hcorner) _
  have hbars := fills_repeated h (show c.charset.horizontalBar ∈ c.charset.glyphs by
    simp [Charset.glyphs]) hcol (some (c.multiStyle marker)) false
  exact (hgutter.append hmargin (by omega)).append hbars hcol

/-- A connector has one caret, in front of which everything is as wide as it should be. -/
theorem carets_connector (hrest : ∀ seg ∈ rest, seg.caret = false) :
    carets c.cells 0 (c.connector active marker corner col ++ rest) =
      [⟨c.layout.prefixWidth + col, c.layout.prefixWidth + col + 1⟩] := by
  rw [connector_eq, List.append_assoc, carets_append, carets_append,
    carets_of_none _ fun _ => caret_of_mem_shaft, carets_of_none _ hrest,
    carets_repeated h c.underliner_mem (Int.le_refl 1), (fills_shaft h hcorner hcol).total_eq,
    Int.zero_add, List.append_nil, List.nil_append]

theorem glyphs_connector : glyphs c.cells (c.layout.prefixWidth + col)
    (c.connector active marker corner col ++ rest) =
      mark c.charset.underliner (c.multiStyle marker) := by
  have hshaft : Fills c.cells (c.shaft active marker corner col) _ := fills_shaft h hcorner hcol
  have hcaret := fills_repeated h c.underliner_mem (show (0 : Int) ≤ 1 by decide)
    (some (c.multiStyle marker)) true
  rw [connector_eq, List.append_assoc, glyphs_append, hshaft.beyond _ (Int.le_refl _),
    hshaft.total_eq, Int.sub_self, List.nil_append, glyphs_append, hcaret.total_eq,
    glyphs_repeated h c.underliner_mem (by decide), if_pos (by decide), glyphs_of_neg (by decide),
    List.append_nil]

end Pointer

theorem drawnCol_eq (htrim : c.layout.indentTrim = 0) {col : Int} (hcol : 0 ≤ col) :
    c.drawnCol col = col := by
  rw [drawnCol, htrim, Int.sub_zero, Int.max_eq_left hcol]

theorem exists_front_eq_connector (htrim : c.layout.indentTrim = 0) {view : View} {lead : Leader}
    {col : Int} (hpointer : view.pointer? = some (lead, col)) (hcol : 0 ≤ col) :
    ∃ alive, ∃ corner ∈ c.charset.glyphs, c.front view = c.connector alive lead corner col ∧
      view.kind = .connector := by
  cases view with
  | top marker alive =>
      cases hpointer
      refine ⟨alive, c.charset.topCorner, by simp [Charset.glyphs], ?_, rfl⟩
      rw [front, drawnCol_eq htrim hcol]
  | bottom marker alive =>
      cases hpointer
      refine ⟨alive, c.charset.bottomCorner, by simp [Charset.glyphs], ?_, rfl⟩
      rw [front, drawnCol_eq htrim hcol]
  | source _ _ | underline _ | text _ | elision _ => cases hpointer

/-- A row that is drawn for a view and shows what the view says: in each slot its mark, and for a
corner one caret, at the column that the corner points at. -/
structure Shows (c : Canvas) (view : View) (row : Row) : Prop where
  drawn : c.Draws view row
  slots : ∀ slot < c.layout.slotCount,
    row.glyphsAt c.cells (c.slotCell slot) = c.slotMark view slot
  pointer : ∀ lead col, view.pointer? = some (lead, col) →
    row.carets c.cells = [⟨c.layout.prefixWidth + col, c.layout.prefixWidth + col + 1⟩] ∧
    row.glyphsAt c.cells (c.layout.prefixWidth + col) =
      mark c.charset.underliner (c.multiStyle lead)

theorem shows_of_draws (h : OneCell c.cells c.charset) (htrim : c.layout.indentTrim = 0)
    {view : View} {row : Row} (hwidth : ∀ number alive, view = .source number alive →
      (toString (number + 1)).length ≤ c.layout.numberWidth)
    (hcol : ∀ lead col, view.pointer? = some (lead, col) → 0 ≤ col) (hdraws : c.Draws view row) :
    c.Shows view row := by
  have hdrawn := hdraws
  obtain ⟨rest, rfl, hrest⟩ := hdrawn
  refine ⟨hdraws, fun slot hslot => ?_, fun lead col hpointer => ?_⟩
  · rw [Row.glyphsAt_trimmed, Row.glyphsAt]
    exact glyphs_front h hwidth hslot rest
  · have hnonneg := hcol lead col hpointer
    obtain ⟨alive, corner, hcorner, hfront, hkind⟩ :=
      exists_front_eq_connector htrim hpointer hnonneg
    have hplain := hrest (hkind ▸ by decide)
    constructor
    · rw [Row.carets_trimmed, Row.carets, hfront, carets_connector h hcorner hnonneg hplain]
      intro seg hseg hcaret
      rw [hfront, connector_eq, List.mem_append, List.mem_append] at hseg
      rcases hseg with (hseg | hseg) | hseg
      · exact absurd (caret_of_mem_shaft hseg) (by rw [hcaret]; decide)
      · exact trimSpaces_of_mem_run h c.underliner_mem hseg
      · exact absurd (hplain seg hseg) (by rw [hcaret]; decide)
    · rw [Row.glyphsAt_trimmed, Row.glyphsAt, hfront]
      exact glyphs_connector h hcorner hnonneg

end Canvas

namespace Layout

variable {w : CellWidth} {config : Config} {source : Source} {placed : List PlacedLabel}

/-- In the trace of a layout, markers are of labels that have a leader. -/
theorem mem_leadersOf_of_pointer {title : Text} {views : List View}
    (h : Trace (ofPlaced w config title source placed).groups views) {view : View}
    (hview : view ∈ views) {lead : Leader} {col : Int}
    (hpointer : view.pointer? = some (lead, col)) :
    lead ∈ leadersOf placed ∧ (col = lead.span.startCol ∨ col = lead.span.markerCol) := by
  have hshown : ∀ line ∈ (ofPlaced w config title source placed).lines,
      ∃ number, line = shownLine w config source placed number := by
    intro line hline
    obtain ⟨range, -, number, -, heq⟩ := exists_number_of_mem_lines hline
    exact ⟨number, heq⟩
  rcases exists_of_mem_trace h view hview with hkind | ⟨line, hline, rfl | hbeside⟩
  · cases view with
    | top _ _ | bottom _ _ | source _ _ | underline _ | text _ => cases hkind
    | elision _ => cases hpointer
  · cases hpointer
  · obtain ⟨number, rfl⟩ := hshown line hline
    cases hbeside with
    | top alive hlead =>
        cases hpointer
        exact ⟨((mem_starting_layLine number _).1 hlead).1, .inl rfl⟩
    | bottom alive hlead =>
        cases hpointer
        exact ⟨((mem_ending_layLine number _).1 hlead).1, .inr rfl⟩
    | underline _ | text _ => cases hpointer

theorem shows_of_trace {title : Text} (hcells : OneCell w config.charset)
    (htrim : config.trimIndent = false)
    (hwithin : ∀ lab ∈ placed, lab.span.Within source.lineCount) {views : List View}
    (h : Trace (ofPlaced w config title source placed).groups views) {view : View} {row : Row}
    (hview : view ∈ views)
    (hdraws : Canvas.Draws ⟨w, config, ofPlaced w config title source placed⟩ view row) :
    Canvas.Shows ⟨w, config, ofPlaced w config title source placed⟩ view row := by
  have hindent := @indentTrim_ofPlaced w config source placed htrim title
  refine Canvas.shows_of_draws hcells hindent ?_ ?_ hdraws
  · rintro number alive rfl
    rcases exists_of_mem_trace h _ hview with hkind | ⟨line, hline, heq | hbeside⟩
    · cases hkind
    · cases heq
      exact digits_le_numberWidth hwithin title hline
    · cases hbeside
  · intro lead col hpointer
    obtain ⟨hlead, rfl | rfl⟩ := mem_leadersOf_of_pointer h hview hpointer
    · exact (hwithin _ (mem_of_mem_leadersOf hlead).1).startCol_nonneg
    · exact Int.le_max_right ..

end Layout
end Excerpt
