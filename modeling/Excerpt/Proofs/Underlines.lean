import Excerpt.Proofs.Coverage
import Excerpt.Proofs.Script

/-!
Underlines stand under the columns of their labels. The runs of one rung are written from left to
right with padding in between; as the labels of a rung stand apart, no run is ever pushed to the
right by the one before it.
-/

namespace Excerpt

namespace Canvas

def underlineRow (c : Canvas) (line : LineLayout) (rung : Nat) : Row :=
  Row.trimmed ⟨.underline, c.underlineSegments (leadersAbove line) (line.onRung rung)⟩

def spanRows (c : Canvas) (line : LineLayout) : List Row :=
  c.sourceRow (leadersAbove line) line :: (List.range line.rungCount).map (c.underlineRow line)

variable {c : Canvas}

open Segment

theorem fills_margin (h : OneCell c.cells c.charset) (active : ActiveLeaders) :
    Fills c.cells (c.margin active) (2 * c.layout.slotCount) :=
  fills_slots (fills_leaderCell h active) _

theorem fills_annotated (h : OneCell c.cells c.charset) (active : ActiveLeaders) :
    Fills c.cells (c.annotation active) c.layout.prefixWidth := by
  have hseparator : c.charset.separator ∈ c.charset.glyphs := by simp [Charset.glyphs]
  exact (fills_glyphGutter h hseparator).append (fills_margin h active) (by omega)

theorem caret_of_mem_glyphGutter {glyph : Text} {seg : Segment} (h : seg ∈ c.glyphGutter glyph) :
    seg.caret = false := by
  rw [glyphGutter, List.mem_append, List.mem_append] at h
  rcases h with (h | h) | h
  · exact caret_of_mem_pad h
  · exact caret_of_mem_run h
  · exact caret_of_mem_pad h

theorem caret_of_mem_leaderCell {active : ActiveLeaders} {slot : Nat} {seg : Segment}
    (h : seg ∈ c.leaderCell active slot) : seg.caret = false := by
  rw [leaderCell] at h
  cases hheld : active.held slot with
  | none =>
      rw [hheld] at h
      exact caret_of_mem_pad h
  | some held =>
      rw [hheld] at h
      exact (List.mem_append.1 h).elim caret_of_mem_run caret_of_mem_pad

theorem caret_of_mem_annotated {active : ActiveLeaders} {seg : Segment}
    (h : seg ∈ c.annotation active) : seg.caret = false := by
  rcases List.mem_append.1 h with h | h
  · exact caret_of_mem_glyphGutter h
  · obtain ⟨slot, -, h⟩ := List.mem_flatMap.1 h
    exact caret_of_mem_leaderCell h

/-- A label on one line whose columns are where the source has them. -/
structure Drawable (lab : PlacedLabel) : Prop where
  start_nonneg : 0 ≤ lab.span.startCol
  one_le_width : 1 ≤ lab.span.displayWidth

/-- What the labels underlined on a line are like: each has its own index and its columns, and on
one rung they stand apart. -/
structure Stacked (line : LineLayout) : Prop where
  indexed : line.Indexed
  drawable : ∀ rung, ∀ lab ∈ line.onRung rung, Drawable lab
  apart : ∀ rung, (line.onRung rung).Pairwise fun a b => a.columns.stop ≤ b.columns.start

theorem Stacked.drawable_of_mem_labels {line : LineLayout} (h : Stacked line) {lab : PlacedLabel}
    (hlab : lab ∈ line.labels) : Drawable lab := by
  obtain ⟨rung, -, hrung⟩ := LineLayout.mem_labels_iff.1 hlab
  exact h.drawable rung lab hrung

theorem underlineCols_eq (htrim : c.layout.indentTrim = 0) {lab : PlacedLabel}
    (h : Drawable lab) : c.underlineCols lab = (lab.span.startCol, lab.span.displayWidth) := by
  have hstart := h.start_nonneg
  have hwidth := h.one_le_width
  simp only [underlineCols, htrim, Int.sub_zero]
  refine Prod.ext ?_ ?_ <;> dsimp only <;> omega

/-- The columns over which a label is underlined. They are counted behind the trimmed indentation,
and a label inside it is still underlined by one caret. -/
def drawnColumns (c : Canvas) (lab : PlacedLabel) : Interval :=
  ⟨(c.underlineCols lab).1, (c.underlineCols lab).1 + (c.underlineCols lab).2⟩

theorem drawnColumns_start_nonneg (lab : PlacedLabel) : 0 ≤ (c.drawnColumns lab).start :=
  Int.le_max_right ..

theorem drawnColumns_start_lt_stop (lab : PlacedLabel) :
    (c.drawnColumns lab).start < (c.drawnColumns lab).stop := by
  have hwidth : 1 ≤ (c.underlineCols lab).2 := Int.le_max_right ..
  simp only [drawnColumns]
  omega

theorem drawnColumns_eq (htrim : c.layout.indentTrim = 0) {lab : PlacedLabel} (h : Drawable lab) :
    c.drawnColumns lab = lab.columns := by
  rw [drawnColumns, underlineCols_eq htrim h, PlacedLabel.columns]

theorem caretRuns_eq (col : Int) (lab : PlacedLabel) (rest : List PlacedLabel) :
    c.caretRuns col (lab :: rest) = pad (max ((c.underlineCols lab).1 - col) 0) ++
      run (repeated c.charset.underliner (c.underlineCols lab).2) (some (c.singleStyle lab)) true ++
      c.caretRuns (max col ((c.underlineCols lab).1 + (c.underlineCols lab).2)) rest := rfl

/-- A run is written at the columns of its label when those before it end in time. -/
theorem caretRuns_cons {lab : PlacedLabel} {col : Int} (hcol : col ≤ (c.drawnColumns lab).start)
    (rest : List PlacedLabel) : c.caretRuns col (lab :: rest) =
      pad ((c.drawnColumns lab).start - col) ++
        (run (repeated c.charset.underliner (c.underlineCols lab).2) (some (c.singleStyle lab))
            true ++
          c.caretRuns (c.drawnColumns lab).stop rest) := by
  have hlt := @drawnColumns_start_lt_stop c lab
  simp only [drawnColumns] at hcol hlt ⊢
  rw [caretRuns_eq, List.append_assoc,
    show max ((c.underlineCols lab).1 - col) 0 = (c.underlineCols lab).1 - col by omega,
    show max col ((c.underlineCols lab).1 + (c.underlineCols lab).2) =
      (c.underlineCols lab).1 + (c.underlineCols lab).2 by omega]

theorem underliner_mem (c : Canvas) : c.charset.underliner ∈ c.charset.glyphs := by
  simp [Charset.glyphs]

theorem repeated_ne_nil (h : OneCell c.cells c.charset) {text : Text}
    (htext : text ∈ c.charset.glyphs) {times : Int} (htimes : 1 ≤ times) :
    repeated text times ≠ [] := by
  obtain ⟨g, -, -, -, hrepeated⟩ := repeated_glyph h htext times
  rw [hrepeated]
  intro hnil
  have hlength := congrArg List.length hnil
  rw [List.length_replicate, List.length_nil] at hlength
  omega

theorem carets_repeated (h : OneCell c.cells c.charset) {text : Text}
    (htext : text ∈ c.charset.glyphs) {times : Int} (htimes : 1 ≤ times)
    (style : Option Style) (col : Int) :
    carets c.cells col (run (repeated text times) style true) = [⟨col, col + times⟩] := by
  have htotal := (fills_repeated h htext (Int.le_trans (by decide) htimes) style true).total_eq
  rw [run, if_neg (repeated_ne_nil h htext htimes)] at htotal ⊢
  rw [total_cons, total_nil, Int.add_zero] at htotal
  rw [carets, htotal]
  rfl

theorem glyphs_repeated (h : OneCell c.cells c.charset) {text : Text}
    (htext : text ∈ c.charset.glyphs) {times : Int} (htimes : 0 ≤ times) (style : Style)
    (caret : Bool) (x : Int) :
    glyphs c.cells x (run (repeated text times) (some style) caret) =
      if 0 ≤ x ∧ x < times then mark text style else [] := by
  obtain ⟨g, rfl, hspace, hunit, hrepeated⟩ := repeated_glyph h htext times
  have hnone : none ≠ some zeroWidthJoiner := fun heq => by cases heq
  rw [glyphs_run, hrepeated, UnitText.glyphsAt_replicate hunit hspace hnone, Int.zero_add,
    Int.toNat_of_nonneg htimes]
  split
  · rfl
  · rfl

/-- One label of a rung: its run takes its own columns, and the others follow behind it. -/
theorem carets_caretRuns_cons (h : OneCell c.cells c.charset) {lab : PlacedLabel} {col : Int}
    (hcol : col ≤ (c.drawnColumns lab).start) (rest : List PlacedLabel) (base : Int) :
    carets c.cells (base + col) (c.caretRuns col (lab :: rest)) =
      ⟨base + (c.drawnColumns lab).start, base + (c.drawnColumns lab).stop⟩ ::
        carets c.cells (base + (c.drawnColumns lab).stop)
          (c.caretRuns (c.drawnColumns lab).stop rest) := by
  have hwidth : 1 ≤ (c.underlineCols lab).2 := Int.le_max_right ..
  have hpad := fills_pad h (show 0 ≤ (c.drawnColumns lab).start - col by omega)
  have hrun := fills_repeated h c.underliner_mem (Int.le_trans (by decide) hwidth)
    (some (c.singleStyle lab)) true
  have hstop : (c.drawnColumns lab).stop =
      (c.drawnColumns lab).start + (c.underlineCols lab).2 := rfl
  rw [caretRuns_cons hcol, carets_append, carets_of_none _ fun _ => caret_of_mem_pad,
    List.nil_append, carets_append, carets_repeated h c.underliner_mem hwidth,
    hpad.total_eq, hrun.total_eq, List.singleton_append, hstop]
  congr 2 <;> omega

theorem glyphs_caretRuns_cons (h : OneCell c.cells c.charset) {lab : PlacedLabel} {col : Int}
    (hcol : col ≤ (c.drawnColumns lab).start) (rest : List PlacedLabel) (x : Int) :
    glyphs c.cells (x - col) (c.caretRuns col (lab :: rest)) =
      (if (c.drawnColumns lab).start ≤ x ∧ x < (c.drawnColumns lab).stop then
        mark c.charset.underliner (c.singleStyle lab) else []) ++
        glyphs c.cells (x - (c.drawnColumns lab).stop)
          (c.caretRuns (c.drawnColumns lab).stop rest) := by
  have hwidth : 1 ≤ (c.underlineCols lab).2 := Int.le_max_right ..
  have hnonneg : 0 ≤ (c.underlineCols lab).2 := Int.le_trans (by decide) hwidth
  have hpad := fills_pad h (show 0 ≤ (c.drawnColumns lab).start - col by omega)
  have hrun := fills_repeated h c.underliner_mem hnonneg (some (c.singleStyle lab)) true
  have hstop : (c.drawnColumns lab).stop =
      (c.drawnColumns lab).start + (c.underlineCols lab).2 := rfl
  rw [caretRuns_cons hcol, glyphs_append, glyphs_pad, List.nil_append, glyphs_append,
    hpad.total_eq, hrun.total_eq, glyphs_repeated h c.underliner_mem hnonneg]
  congr 1
  · by_cases hx : (c.drawnColumns lab).start ≤ x ∧ x < (c.drawnColumns lab).stop
    · rw [if_pos hx, if_pos (by omega)]
    · rw [if_neg hx, if_neg (by omega)]
  · congr 1
    omega

section Runs

variable (h : OneCell c.cells c.charset) {labs : List PlacedLabel}
  (hapart : labs.Pairwise fun a b => (c.drawnColumns a).stop ≤ (c.drawnColumns b).start)

include h hapart

theorem carets_caretRuns {col : Int} (hcol : ∀ lab ∈ labs, col ≤ (c.drawnColumns lab).start)
    (base : Int) : carets c.cells (base + col) (c.caretRuns col labs) = labs.map fun lab =>
      ⟨base + (c.drawnColumns lab).start, base + (c.drawnColumns lab).stop⟩ := by
  -- On the labels still to be underlined; the last run ended at `col`.
  induction labs generalizing col with
  | nil => rfl
  | cons lab labs ih =>
      obtain ⟨hafter, hapart⟩ := List.pairwise_cons.1 hapart
      rw [carets_caretRuns_cons h (hcol lab List.mem_cons_self), ih hapart hafter, List.map_cons]

theorem glyphs_caretRuns_of_mem {col : Int} (hcol : ∀ lab ∈ labs, col ≤ (c.drawnColumns lab).start)
    {lab : PlacedLabel} (hlab : lab ∈ labs) {x : Int} (hlow : (c.drawnColumns lab).start ≤ x)
    (hhigh : x < (c.drawnColumns lab).stop) :
    glyphs c.cells (x - col) (c.caretRuns col labs) =
      mark c.charset.underliner (c.singleStyle lab) := by
  induction labs generalizing col with
  | nil => exact absurd hlab List.not_mem_nil
  | cons first labs ih =>
      obtain ⟨hafter, hapart⟩ := List.pairwise_cons.1 hapart
      rw [glyphs_caretRuns_cons h (hcol first List.mem_cons_self)]
      rcases List.mem_cons.1 hlab with rfl | hlab
      · rw [if_pos ⟨hlow, hhigh⟩, glyphs_of_neg (by omega), List.append_nil]
      · have hbehind := hafter lab hlab
        rw [if_neg (by omega), List.nil_append, ih hapart hafter hlab]

theorem glyphs_caretRuns_of_not_mem {col : Int}
    (hcol : ∀ lab ∈ labs, col ≤ (c.drawnColumns lab).start) {x : Int}
    (hx : ∀ lab ∈ labs, ¬((c.drawnColumns lab).start ≤ x ∧ x < (c.drawnColumns lab).stop)) :
    glyphs c.cells (x - col) (c.caretRuns col labs) = [] := by
  induction labs generalizing col with
  | nil => rfl
  | cons first labs ih =>
      obtain ⟨hafter, hapart⟩ := List.pairwise_cons.1 hapart
      obtain ⟨hxfirst, hxrest⟩ := List.forall_mem_cons.1 hx
      rw [glyphs_caretRuns_cons h (hcol first List.mem_cons_self), if_neg hxfirst,
        List.nil_append, ih hapart hafter hxrest]

end Runs

theorem trimSpaces_of_mem_caretRuns (h : OneCell c.cells c.charset) {col : Int}
    {labs : List PlacedLabel} {seg : Segment} (hseg : seg ∈ c.caretRuns col labs)
    (hcaret : seg.caret = true) : seg.text.trimSpaces = seg.text ∧ seg.text ≠ [] := by
  induction labs generalizing col with
  | nil => exact absurd hseg List.not_mem_nil
  | cons lab labs ih =>
      rw [caretRuns_eq, List.mem_append, List.mem_append] at hseg
      rcases hseg with (hseg | hseg) | hseg
      · rw [caret_of_mem_pad hseg] at hcaret
        cases hcaret
      · exact trimSpaces_of_mem_run h c.underliner_mem hseg
      · exact ih hseg

/-- A rung with labels ends in a caret, so nothing is trimmed off its row. -/
theorem exists_concat_caretRuns (h : OneCell c.cells c.charset) {labs : List PlacedLabel}
    (hlabs : labs ≠ []) (col : Int) :
    ∃ init seg, c.caretRuns col labs = init ++ [seg] ∧ seg.caret = true := by
  induction labs generalizing col with
  | nil => exact absurd rfl hlabs
  | cons lab labs ih =>
      by_cases hrest : labs = []
      · subst hrest
        have hne : repeated c.charset.underliner (c.underlineCols lab).2 ≠ [] :=
          repeated_ne_nil h c.underliner_mem (Int.le_max_right ..)
        refine ⟨pad (max (c.underlineStart lab - col) 0),
          ⟨repeated c.charset.underliner (c.underlineCols lab).2, some (c.singleStyle lab), true⟩,
          ?_, rfl⟩
        have hnil : ∀ col, c.caretRuns col [] = [] := fun _ => rfl
        rw [caretRuns_eq, hnil, List.append_nil, run, if_neg hne]
        rfl
      · obtain ⟨init, seg, hinit, hseg⟩ := ih hrest
          (max col ((c.underlineCols lab).1 + (c.underlineCols lab).2))
        rw [caretRuns_eq, hinit, ← List.append_assoc]
        exact ⟨_, seg, rfl, hseg⟩

theorem underlineRow_segments (h : OneCell c.cells c.charset) {line : LineLayout} {rung : Nat}
    (hlabs : line.onRung rung ≠ []) : (c.underlineRow line rung).segments =
      c.annotation (leadersAbove line) ++ c.caretRuns 0 (line.onRung rung) := by
  obtain ⟨init, seg, hruns, hcaret⟩ := exists_concat_caretRuns h hlabs 0
  have hkept := trimSpaces_of_mem_caretRuns h
    (hruns ▸ List.mem_append_right init (List.mem_singleton_self seg)) hcaret
  have hne : seg.text.trimSpaces ≠ [] := by
    rw [hkept.1]
    exact hkept.2
  simp only [underlineRow, underlineSegments, Row.trimmed]
  rw [hruns, ← List.append_assoc, trimLast_concat hne, hkept.1]

theorem sourceRow_segments {line : LineLayout} (htext : (c.shownText line).trimSpaces ≠ [])
    (active : ActiveLeaders) : (c.sourceRow active line).segments =
      (c.numberGutter line.number ++ c.margin active) ++
        [⟨(c.shownText line).trimSpaces, some (c.layout.source.style.getD c.styles.source),
          false⟩] := by
  have hne : c.shownText line ≠ [] := by
    intro hnil
    rw [hnil] at htext
    exact htext rfl
  have hrow : c.sourceRow active line = Row.trimmed ⟨.source, c.numberGutter line.number ++
      c.margin active ++ run (c.shownText line)
        (some (c.layout.source.style.getD c.styles.source))⟩ := rfl
  simp only [hrow, Row.trimmed, run, if_neg hne]
  exact trimLast_concat htext

theorem shownText_eq (htrim : c.layout.indentTrim = 0) (line : LineLayout) :
    c.shownText line = line.text := by
  rw [shownText, htrim]
  split <;> rfl

/-- Whatever stands beside them, the carets of an underline row begin behind the margin. -/
theorem carets_underlineSegments (h : OneCell c.cells c.charset) (labs : List PlacedLabel)
    (active : ActiveLeaders) {rest : List Segment} (hrest : ∀ seg ∈ rest, seg.caret = false) :
    (Row.trimmed ⟨.underline, c.underlineSegments active labs ++ rest⟩).carets c.cells =
      carets c.cells c.layout.prefixWidth (c.caretRuns 0 labs) := by
  have hkept : ∀ seg ∈ c.underlineSegments active labs ++ rest,
      seg.caret = true → seg.text.trimSpaces = seg.text ∧ seg.text ≠ [] := by
    intro seg hseg hcaret
    rw [underlineSegments, List.mem_append, List.mem_append] at hseg
    rcases hseg with (hseg | hseg) | hseg
    · rw [caret_of_mem_annotated hseg] at hcaret
      cases hcaret
    · exact trimSpaces_of_mem_caretRuns h hseg hcaret
    · rw [hrest seg hseg] at hcaret
      cases hcaret
  rw [Row.carets_trimmed _ _ hkept, Row.carets, underlineSegments]
  dsimp only
  rw [carets_append, carets_append, carets_of_none _ fun _ => caret_of_mem_annotated,
    carets_of_none _ hrest, List.nil_append, List.append_nil, (fills_annotated h _).total_eq,
    Int.zero_add]

theorem carets_underlineRow_eq (h : OneCell c.cells c.charset) (line : LineLayout) (rung : Nat) :
    (c.underlineRow line rung).carets c.cells =
      carets c.cells c.layout.prefixWidth (c.caretRuns 0 (line.onRung rung)) := by
  have hnone : ∀ seg ∈ ([] : List Segment), seg.caret = false :=
    fun seg hseg => absurd hseg List.not_mem_nil
  have hcarets := carets_underlineSegments h (line.onRung rung) (leadersAbove line) hnone
  rw [List.append_nil] at hcarets
  exact hcarets

section Columns

variable (h : OneCell c.cells c.charset) (htrim : c.layout.indentTrim = 0)
  {labs : List PlacedLabel} (hlabs : ∀ lab ∈ labs, Drawable lab)
  (hapart : labs.Pairwise fun a b => a.columns.stop ≤ b.columns.start)

include htrim hlabs hapart

theorem drawnColumns_apart :
    labs.Pairwise fun a b => (c.drawnColumns a).stop ≤ (c.drawnColumns b).start := by
  refine hapart.imp_of_mem fun {a b} ha hb hab => ?_
  rw [drawnColumns_eq htrim (hlabs a ha), drawnColumns_eq htrim (hlabs b hb)]
  exact hab

include h

theorem carets_columns (base : Int) : carets c.cells base (c.caretRuns 0 labs) =
    labs.map fun lab => ⟨base + lab.columns.start, base + lab.columns.stop⟩ := by
  have hruns := carets_caretRuns h (drawnColumns_apart htrim hlabs hapart)
    (fun lab _ => drawnColumns_start_nonneg lab) base
  rw [Int.add_zero] at hruns
  rw [hruns]
  exact List.map_congr_left fun lab hlab => by rw [drawnColumns_eq htrim (hlabs lab hlab)]

/-- The carets of an underline row stand on the columns of its labels, whatever is beside them. -/
theorem carets_underlined (active : ActiveLeaders) {rest : List Segment}
    (hrest : ∀ seg ∈ rest, seg.caret = false) :
    (Row.trimmed ⟨.underline, c.underlineSegments active labs ++ rest⟩).carets c.cells =
      labs.map fun lab => ⟨c.layout.prefixWidth + lab.columns.start,
        c.layout.prefixWidth + lab.columns.stop⟩ := by
  rw [carets_underlineSegments h labs active hrest]
  exact carets_columns h htrim hlabs hapart _

end Columns

section Row

variable (h : OneCell c.cells c.charset) (htrim : c.layout.indentTrim = 0) {line : LineLayout}
  {rung : Nat} (hlabs : ∀ lab ∈ line.onRung rung, Drawable lab)
  (hapart : (line.onRung rung).Pairwise fun a b => a.columns.stop ≤ b.columns.start)

include h htrim hlabs hapart

theorem carets_underlineRow : (c.underlineRow line rung).carets c.cells =
    (line.onRung rung).map fun lab => ⟨c.layout.prefixWidth + lab.columns.start,
      c.layout.prefixWidth + lab.columns.stop⟩ := by
  rw [carets_underlineRow_eq h]
  exact carets_columns h htrim hlabs hapart _

omit hlabs hapart htrim in
private theorem glyphsAt_underlineRow {x : Int} (hx : 0 ≤ x) :
    (c.underlineRow line rung).glyphsAt c.cells (c.layout.prefixWidth + x) =
      glyphs c.cells (x - 0) (c.caretRuns 0 (line.onRung rung)) := by
  have hfills := fills_annotated h (leadersAbove line)
  rw [underlineRow, Row.glyphsAt_trimmed, Row.glyphsAt]
  simp only [underlineSegments]
  rw [glyphs_append, hfills.beyond _ (by omega), hfills.total_eq, List.nil_append]
  congr 1
  omega

theorem glyphsAt_underlineRow_of_mem {lab : PlacedLabel} (hlab : lab ∈ line.onRung rung) {x : Int}
    (hlow : lab.columns.start ≤ x) (hhigh : x < lab.columns.stop) :
    (c.underlineRow line rung).glyphsAt c.cells (c.layout.prefixWidth + x) =
      mark c.charset.underliner (c.singleStyle lab) := by
  have hx : 0 ≤ x := Int.le_trans (hlabs lab hlab).start_nonneg hlow
  rw [← drawnColumns_eq htrim (hlabs lab hlab)] at hlow hhigh
  rw [glyphsAt_underlineRow h hx]
  exact glyphs_caretRuns_of_mem h (drawnColumns_apart htrim hlabs hapart)
    (fun lab _ => drawnColumns_start_nonneg lab) hlab hlow hhigh

theorem glyphsAt_underlineRow_of_not_mem {x : Int} (hx : 0 ≤ x)
    (hout : ∀ lab ∈ line.onRung rung, ¬(lab.columns.start ≤ x ∧ x < lab.columns.stop)) :
    (c.underlineRow line rung).glyphsAt c.cells (c.layout.prefixWidth + x) = [] := by
  rw [glyphsAt_underlineRow h hx]
  refine glyphs_caretRuns_of_not_mem h (drawnColumns_apart htrim hlabs hapart)
    (fun lab _ => drawnColumns_start_nonneg lab) fun lab hlab => ?_
  rw [drawnColumns_eq htrim (hlabs lab hlab)]
  exact hout lab hlab

end Row

end Canvas

/-- Rows that show a line of the source or underline it. -/
def Row.showsSource (row : Row) : Bool := row.kind == .source || row.kind == .underline

namespace Canvas

variable (c : Canvas)

theorem filter_expandedRung (active : ActiveLeaders) (line : LineLayout) (rung : Nat) :
    (c.expandedRung active line rung).filter Row.showsSource =
      [Row.trimmed ⟨.underline, c.underlineSegments active (line.onRung rung)⟩] := by
  have htexts : (c.textRows active (withText (line.onRung rung)).reverse).filter
      Row.showsSource = [] := by
    refine List.filter_eq_nil_iff.2 fun row hrow => ?_
    rw [Row.showsSource, c.kind_of_draws (c.draws_textRows row hrow)]
    exact Bool.false_ne_true
  exact (List.filter_cons_of_pos rfl).trans (congrArg _ htexts)

theorem filter_labelRows (line : LineLayout) :
    (c.labelRows .expanded (leadersAbove line) line).rows.filter Row.showsSource =
      (List.range line.rungCount).map (c.underlineRow line) := by
  simp only [labelRows]
  rw [List.filter_flatMap, List.map_eq_flatMap]
  exact List.flatMap_congr fun rung _ => c.filter_expandedRung _ line rung

/-- The underline rows of a line. -/
def underlines (mode : Mode) (line : LineLayout) : List Row :=
  (c.labelRows mode (leadersAbove line) line).rows.filter Row.showsSource

/-- Of an excerpt, source rows and underlines are those of its lines, one after another. -/
theorem filter_showsSource (mode : Mode) : (c.picture mode).rows.filter Row.showsSource =
    c.layout.lines.flatMap fun line =>
      c.sourceRow (leadersAbove line) line :: c.underlines mode line := by
  have hlines := c.filter_picture mode (p := fun kind => kind == .source || kind == .underline) rfl
  refine hlines.trans (List.flatMap_congr fun line _ => ?_)
  exact filter_lineDrawn_labels (p := fun kind => kind == .source || kind == .underline) line rfl
    rfl rfl

/-- The text of a line, its tabs expanded, begins right behind the margin of its source row. -/
structure SourceShown (c : Canvas) (line : LineLayout) : Prop where
  expanded : ∃ text, c.layout.source.line line.number = .ok text ∧
    line.text = expandTabs c.cells c.config.tab text
  begins : line.text.trimSpaces ≠ [] → ∃ front style,
    (c.sourceRow (leadersAbove line) line).segments =
        front ++ [⟨line.text.trimSpaces, style, false⟩] ∧
      Segment.total c.cells front = c.layout.prefixWidth

/-- The underline row of a rung has its carets, behind the margin, on the columns of the labels that
are scheduled there: one run to a label, the runs apart, and nothing beside them. -/
structure Underlined (c : Canvas) (line : LineLayout) (rung : Nat) : Prop where
  labels : ∀ lab, lab ∈ line.onRung rung ↔ lab ∈ c.layout.labels ∧
    lab.span.isMultiline = false ∧ lab.span.startLine = line.number ∧
    line.schedule.lookup lab.index = some (some rung)
  apart : (line.onRung rung).Pairwise fun a b => a.columns.stop ≤ b.columns.start
  margin : ∃ front runs, (c.underlineRow line rung).segments = front ++ runs ∧
    Segment.total c.cells front = c.layout.prefixWidth ∧ ∀ seg ∈ front, seg.caret = false
  carets : (c.underlineRow line rung).carets c.cells = (line.onRung rung).map fun lab =>
    ⟨c.layout.prefixWidth + lab.columns.start, c.layout.prefixWidth + lab.columns.stop⟩
  under : ∀ lab ∈ line.onRung rung, ∀ x, lab.columns.start ≤ x → x < lab.columns.stop →
    (c.underlineRow line rung).glyphsAt c.cells (c.layout.prefixWidth + x) =
      mark c.charset.underliner (c.singleStyle lab)
  blank : ∀ x, 0 ≤ x →
    (∀ lab ∈ line.onRung rung, ¬(lab.columns.start ≤ x ∧ x < lab.columns.stop)) →
    (c.underlineRow line rung).glyphsAt c.cells (c.layout.prefixWidth + x) = []

end Canvas

open Layout Canvas

theorem filter_expandedRows [Platform] {w : CellWidth} {config : Config} {diagnostic : Diagnostic}
    {layout : Layout} (hlayout : build w config diagnostic = .ok layout) :
    ∃ rows, Rendering.expandedRows w config diagnostic = .ok rows ∧
      rows.filter Row.showsSource = layout.lines.flatMap (Canvas.spanRows ⟨w, config, layout⟩) := by
  obtain ⟨rows, hrows, hfilter⟩ := Rendering.filter_rows hlayout .expanded
  have hspan := hfilter (fun kind => kind == .source || kind == .underline) (by decide)
  refine ⟨rows, hrows, hspan.trans ((filter_showsSource _ .expanded).trans ?_)⟩
  exact List.flatMap_congr fun line _ => congrArg _ (filter_labelRows _ line)

theorem stacked_shownLine {w : CellWidth} {config : Config} {source : Source}
    {placed : List PlacedLabel} (hindex : (placed.map PlacedLabel.index).Nodup)
    (hwithin : ∀ lab ∈ placed, lab.span.Within source.lineCount) (number : Nat) :
    Stacked (shownLine w config source placed number) where
  indexed := indexed_shownLine hindex number
  drawable := by
    intro rung lab hlab
    obtain ⟨hplaced, hsingle, -⟩ :=
      mem_singlesOf.1 ((mem_onRung_layLine number _ hindex).1 hlab).1
    exact ⟨(hwithin lab hplaced).startCol_nonneg, PlacedLabel.one_le_displayWidth hsingle⟩
  apart := onRung_layLine_pairwise number _ hindex

section Line

variable {w : CellWidth} {config : Config} {source : Source} {placed : List PlacedLabel}
  {number : Nat} (title : Text) (hcells : OneCell w config.charset)
  (htrim : config.trimIndent = false)

include hcells htrim

private theorem sourceShown_shownLine
    (hwithin : ∀ lab ∈ placed, lab.span.Within source.lineCount)
    (h : shownLine w config source placed number ∈ (ofPlaced w config title source placed).lines) :
    SourceShown ⟨w, config, ofPlaced w config title source placed⟩
      (shownLine w config source placed number) := by
  have hdigits := digits_le_numberWidth hwithin title h
  refine ⟨text_eq_of_mem_lines hwithin h, fun htext => ?_⟩
  have hindent := @indentTrim_ofPlaced w config source placed htrim title
  have hshown := shownText_eq (c := ⟨w, config, ofPlaced w config title source placed⟩) hindent
    (shownLine w config source placed number)
  have hsegments := sourceRow_segments (hshown.symm ▸ htext)
    (leadersAbove (shownLine w config source placed number))
  rw [hshown] at hsegments
  refine ⟨_, _, hsegments, ?_⟩
  rw [Segment.total_append, (fills_numberGutter hcells hdigits).total_eq,
    (fills_margin hcells _).total_eq]
  rfl

private theorem underlined_shownLine (hindex : (placed.map PlacedLabel.index).Nodup)
    (hwithin : ∀ lab ∈ placed, lab.span.Within source.lineCount) {rung : Nat}
    (hrung : rung < (shownLine w config source placed number).rungCount) :
    Underlined ⟨w, config, ofPlaced w config title source placed⟩
      (shownLine w config source placed number) rung := by
  have hindent := @indentTrim_ofPlaced w config source placed htrim title
  have hmem : ∀ lab, lab ∈ (shownLine w config source placed number).onRung rung ↔
      lab ∈ singlesOf placed number ∧ (shownLine w config source placed number).schedule.lookup
        lab.index = some (some rung) := fun lab => mem_onRung_layLine number _ hindex
  simp only [mem_singlesOf, and_assoc] at hmem
  obtain ⟨-, hdrawable, hapart⟩ :=
    @stacked_shownLine w config source placed hindex hwithin number
  obtain ⟨first, hfirst⟩ := exists_mem_onRung_layLine number _ hindex hrung
  exact {
    labels := hmem
    apart := hapart rung
    margin := ⟨_, _, underlineRow_segments hcells (List.ne_nil_of_mem hfirst),
      (fills_annotated hcells _).total_eq, fun seg => caret_of_mem_annotated⟩
    carets := carets_underlineRow hcells hindent (hdrawable rung) (hapart rung)
    under := fun lab hlab x hlow hhigh =>
      glyphsAt_underlineRow_of_mem hcells hindent (hdrawable rung) (hapart rung) hlab hlow hhigh
    blank := fun x hx hout =>
      glyphsAt_underlineRow_of_not_mem hcells hindent (hdrawable rung) (hapart rung) hx hout }

end Line

/-- Of the rows of an expanded rendering, those that show or underline the source are the source row
of each line with its underline rows. The text begins behind the margin, every single-line label of
the line is on one of the rungs, and each rung is underlined exactly at their columns. -/
theorem underlines_under_columns [Platform] {w : CellWidth} {config : Config}
    {diagnostic : Diagnostic} {layout : Layout} (hcells : OneCell w config.charset)
    (htrim : config.trimIndent = false) (hlayout : build w config diagnostic = .ok layout) :
    ∃ rows, Rendering.expandedRows w config diagnostic = .ok rows ∧
      rows.filter Row.showsSource =
        layout.lines.flatMap (Canvas.spanRows ⟨w, config, layout⟩) ∧
      ∀ line ∈ layout.lines, SourceShown ⟨w, config, layout⟩ line ∧
        (∀ lab ∈ layout.labels, lab.span.isMultiline = false →
          lab.span.startLine = line.number → ∃ rung < line.rungCount, lab ∈ line.onRung rung) ∧
        ∀ rung < line.rungCount, Underlined ⟨w, config, layout⟩ line rung := by
  obtain ⟨rows, hrows, hfilter⟩ := filter_expandedRows hlayout
  refine ⟨rows, hrows, hfilter, fun line hline => ?_⟩
  obtain ⟨source, placed, -, -, hindex, hwithin, rfl⟩ := exists_of_build_ok hlayout
  obtain ⟨range, -, number, -, rfl⟩ := exists_number_of_mem_lines hline
  refine ⟨sourceShown_shownLine _ hcells htrim hwithin hline, ?_, fun rung hrung =>
    underlined_shownLine _ hcells htrim hindex hwithin hrung⟩
  intro lab hlab hsingle hstart
  obtain ⟨rung, hrung⟩ := exists_onRung_of_mem_singlesOf number _ hindex
    (mem_singlesOf.2 ⟨hlab, hsingle, hstart⟩)
  exact ⟨rung, lt_rungCount hrung, hrung⟩

/-- Two labels that overlap on the first line, and one that goes on to the second. -/
def overlapping : Diagnostic where
  title := ['t']
  source := some ⟨"let x = 1\nlet y = 2\n".toList, none, none⟩
  labels := [⟨⟨4, 5⟩, some ['a'], none⟩, ⟨⟨4, 9⟩, none, none⟩, ⟨⟨6, 14⟩, none, none⟩]

section

attribute [local instance] Platform.usual

theorem underlines_under_columns_overlapping :
    ∃ layout rows, build (fun _ => 1) .default overlapping = .ok layout ∧
      layout.lines.map LineLayout.rungCount = [2, 0] ∧
      Rendering.expandedRows (fun _ => 1) .default overlapping = .ok rows ∧
      ∀ line ∈ layout.lines, ∀ rung < line.rungCount,
        Underlined ⟨fun _ => 1, .default, layout⟩ line rung := by
  have hcells : OneCell (fun _ => 1) Config.default.charset :=
    ⟨.inl rfl, rfl, fun _ _ => rfl, fun _ _ _ _ => rfl⟩
  obtain ⟨layout, hlayout, hrungs⟩ : ∃ layout,
      build (fun _ => 1) .default overlapping = .ok layout ∧
        layout.lines.map LineLayout.rungCount = [2, 0] := ⟨_, rfl, rfl⟩
  obtain ⟨rows, hrows, -, hlines⟩ := underlines_under_columns hcells rfl hlayout
  exact ⟨layout, rows, hlayout, hrungs, hrows, fun line hline => (hlines line hline).2.2⟩

end

end Excerpt
