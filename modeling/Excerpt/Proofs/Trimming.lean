import Excerpt.Proofs.Columns
import Excerpt.Proofs.Underlines

/-!
Underlines below trimmed lines. What is trimmed off a line that shows something is spaces only, so
the text moves to the left as a whole. Underlines move with it as long as no label lies inside the
trimmed indentation: such a label still takes a caret, and the carets of several of them push the
underlines behind them to the right.
-/

namespace Excerpt

/-- Without tabs a text looks the same wherever it begins. -/
theorem Text.glyphsAt_add {w : CellWidth} {s : Text} (htab : '\t' ∉ s) (x col shift : Int)
    {a b : Option Char} (h : a = some zeroWidthJoiner ↔ b = some zeroWidthJoiner) :
    glyphsAt w (x + shift) (col + shift) a s = glyphsAt w x col b s := by
  induction s generalizing col a b with
  | nil => rfl
  | cons c s ih =>
      rw [List.mem_cons, not_or] at htab
      have hnext : advance w 4 (col + shift) a c = advance w 4 col b c + shift := by
        rw [advance, advance, if_neg (Ne.symm htab.1), if_neg (Ne.symm htab.1),
          charWidth_congr w c h]
        omega
      have hsame : col + shift = x + shift ↔ col = x := by omega
      rw [glyphsAt, glyphsAt, hnext, ih htab.2 _ Iff.rfl]
      simp only [hsame]

section Indent

variable {w : CellWidth}

/-- A line without tabs begins with as many spaces as its indentation is wide, and no more. -/
theorem exists_spaces_of_indentWidth (hspace : UnitChar w ' ') {s : Text} (htab : '\t' ∉ s)
    (tab : Int) : ∃ n rest, indentWidth w tab s = (n : Nat) ∧ s = List.replicate n ' ' ++ rest ∧
      rest.head? ≠ some ' ' := by
  obtain ⟨n, hspaces⟩ : ∃ n, s.takeWhile (fun c => c == ' ' || c == '\t') =
      List.replicate n ' ' := by
    refine ⟨_, List.eq_replicate_of_mem fun c hc => ?_⟩
    have hmem := (List.takeWhile_prefix fun c => c == ' ' || c == '\t').subset hc
    have hblank := List.all_eq_true.1 List.all_takeWhile c hc
    rw [Bool.or_eq_true, beq_iff_eq, beq_iff_eq] at hblank
    exact hblank.resolve_right fun heq => htab (heq ▸ hmem)
  refine ⟨n, s.dropWhile fun c => c == ' ' || c == '\t', ?_, ?_, fun hhead => ?_⟩
  · have hnone : none ≠ some zeroWidthJoiner := fun heq => by cases heq
    rw [indentWidth, hspaces, displayWidth,
      (UnitText.replicate hspace n).columnAfter_eq hnone, List.length_replicate]
    omega
  · rw [← hspaces]
    exact List.takeWhile_append_dropWhile.symm
  · have hstop := List.head?_dropWhile_not (fun c => c == ' ' || c == '\t') s
    rw [hhead] at hstop
    exact absurd hstop (by decide)

theorem drop_of_le_indentWidth (hspace : UnitChar w ' ') {s : Text} (htab : '\t' ∉ s) (tab : Int)
    {trim : Nat} (htrim : trim ≤ indentWidth w tab s) :
    s = List.replicate trim ' ' ++ s.drop trim := by
  obtain ⟨n, rest, hwidth, heq, -⟩ := exists_spaces_of_indentWidth hspace htab tab
  obtain ⟨more, rfl⟩ : ∃ more, n = trim + more := ⟨n - trim, by omega⟩
  rw [← List.replicate_append_replicate, List.append_assoc] at heq
  conv => rhs; rw [heq, List.drop_left' List.length_replicate]
  exact heq

namespace Layout

theorem commonIndent_nonneg (lines : List LineLayout) : 0 ≤ commonIndent w lines := by
  rw [commonIndent]
  cases hmin : ((lines.filter fun line => !line.isBlank).map
      fun line => indentWidth w 4 line.text).min? with
  | none => exact Int.le_refl 0
  | some indent =>
      obtain ⟨line, -, rfl⟩ := List.mem_map.1 (List.min?_mem hmin)
      exact displayWidth_nonneg ..

theorem commonIndent_le {lines : List LineLayout} {line : LineLayout} (hline : line ∈ lines)
    (hblank : line.isBlank = false) : commonIndent w lines ≤ indentWidth w 4 line.text := by
  have hmem : indentWidth w 4 line.text ∈ (lines.filter fun line => !line.isBlank).map
      fun line => indentWidth w 4 line.text :=
    List.mem_map_of_mem (List.mem_filter.2 ⟨hline, by rw [hblank]; rfl⟩)
  rw [commonIndent]
  cases hmin : ((lines.filter fun line => !line.isBlank).map
      fun line => indentWidth w 4 line.text).min? with
  | none =>
      rw [List.min?_eq_none_iff.1 hmin] at hmem
      exact absurd hmem List.not_mem_nil
  | some indent => exact (List.min?_eq_some_iff.1 hmin).2 _ hmem

end Layout
end Indent

namespace Canvas

open Segment

variable (c : Canvas)

/-- The labels that lie inside the trimmed indentation. -/
def inside (labs : List PlacedLabel) : List PlacedLabel :=
  labs.filter fun lab => lab.columns.stop ≤ c.layout.indentTrim

/-- The labels that reach beyond the trimmed indentation. -/
def beyond (labs : List PlacedLabel) : List PlacedLabel :=
  labs.filter fun lab => c.layout.indentTrim < lab.columns.stop

/-- Whether one of the labels covers the first column that is shown. -/
def CoversFirst (labs : List PlacedLabel) : Prop :=
  ∃ lab ∈ labs, lab.columns.start ≤ c.layout.indentTrim ∧ c.layout.indentTrim < lab.columns.stop

instance (labs : List PlacedLabel) : Decidable (c.CoversFirst labs) :=
  inferInstanceAs (Decidable (∃ lab ∈ labs, _))

/-- How far the underlines of the other labels are pushed to the right: by one cell for each label
inside the trimmed indentation, the first of which costs nothing while its cell is free. -/
def displacement (labs : List PlacedLabel) : Nat :=
  if c.CoversFirst labs then (c.inside labs).length else (c.inside labs).length - 1

variable {c}

theorem underlineCols_of_inside {lab : PlacedLabel} (hlab : Drawable lab)
    (h : lab.columns.stop ≤ c.layout.indentTrim) : c.underlineCols lab = (0, 1) := by
  have hwidth := hlab.one_le_width
  simp only [PlacedLabel.columns] at h
  simp only [underlineCols]
  refine Prod.ext ?_ ?_ <;> dsimp only <;> omega

theorem drawnColumns_of_beyond {lab : PlacedLabel} (hlab : Drawable lab)
    (h : c.layout.indentTrim < lab.columns.stop) :
    c.drawnColumns lab = ⟨max (lab.columns.start - c.layout.indentTrim) 0,
      lab.columns.stop - c.layout.indentTrim⟩ := by
  have hwidth := hlab.one_le_width
  simp only [PlacedLabel.columns] at h
  simp only [drawnColumns, underlineCols, PlacedLabel.columns, Interval.mk.injEq, true_and]
  omega

/-- Labels that stand apart are those inside the trimmed indentation, then the others. -/
theorem inside_append_beyond {labs : List PlacedLabel} (hlabs : ∀ lab ∈ labs, Drawable lab)
    (hapart : labs.Pairwise fun a b => a.columns.stop ≤ b.columns.start) :
    c.inside labs ++ c.beyond labs = labs := by
  induction labs with
  | nil => rfl
  | cons lab labs ih =>
      obtain ⟨-, hrest⟩ := List.forall_mem_cons.1 hlabs
      obtain ⟨hafter, hapart⟩ := List.pairwise_cons.1 hapart
      rw [inside, beyond]
      by_cases h : lab.columns.stop ≤ c.layout.indentTrim
      · rw [List.filter_cons_of_pos (by simpa using h), List.filter_cons_of_neg (by simpa using h),
          List.cons_append]
        exact congrArg _ (ih hrest hapart)
      · have hall : ∀ other ∈ labs, c.layout.indentTrim < other.columns.stop := by
          intro other hother
          have hwidth := (hrest other hother).one_le_width
          have hbehind := hafter other hother
          simp only [PlacedLabel.columns] at h hbehind ⊢
          omega
        rw [List.filter_cons_of_neg (by simpa using h), List.filter_cons_of_pos (by simpa using h),
          List.filter_eq_self.2 fun other hother => decide_eq_true (hall other hother),
          List.filter_eq_nil_iff.2 fun other hother => by simpa using hall other hother]
        rfl

theorem drawnColumns_beyond_apart {labs : List PlacedLabel} (hlabs : ∀ lab ∈ labs, Drawable lab)
    (hapart : labs.Pairwise fun a b => a.columns.stop ≤ b.columns.start) :
    (c.beyond labs).Pairwise fun a b => (c.drawnColumns a).stop ≤ (c.drawnColumns b).start := by
  refine (hapart.sublist List.filter_sublist).imp_of_mem fun {a b} ha hb hab => ?_
  obtain ⟨ha, habeyond⟩ := List.mem_filter.1 ha
  obtain ⟨hb, hbbeyond⟩ := List.mem_filter.1 hb
  rw [drawnColumns_of_beyond (hlabs a ha) (of_decide_eq_true habeyond),
    drawnColumns_of_beyond (hlabs b hb) (of_decide_eq_true hbbeyond)]
  dsimp only
  omega

/-- A run at the first column starts where the runs before it have ended. -/
theorem caretRuns_one {lab : PlacedLabel} (hstart : (c.drawnColumns lab).start = 0)
    (rest : List PlacedLabel) : c.caretRuns 1 (lab :: rest) = c.caretRuns 0 (lab :: rest) := by
  have hlt := @drawnColumns_start_lt_stop c lab
  simp only [drawnColumns] at hstart hlt
  rw [caretRuns_eq, caretRuns_eq, hstart]
  rw [hstart] at hlt
  rw [show max (1 : Int) (0 + (c.underlineCols lab).2) = 0 + (c.underlineCols lab).2 by omega,
    show max (0 : Int) (0 + (c.underlineCols lab).2) = 0 + (c.underlineCols lab).2 by omega]
  rfl

theorem mem_beyond {labs : List PlacedLabel} {lab : PlacedLabel} :
    lab ∈ c.beyond labs ↔ lab ∈ labs ∧ c.layout.indentTrim < lab.columns.stop := by
  rw [beyond, List.mem_filter, decide_eq_true_eq]

section Covers

variable {labs : List PlacedLabel} (hlabs : ∀ lab ∈ labs, Drawable lab)

include hlabs

theorem one_le_start_of_not_coversFirst (hcovers : ¬c.CoversFirst labs) :
    ∀ lab ∈ c.beyond labs, 1 ≤ (c.drawnColumns lab).start := by
  intro lab hlab
  obtain ⟨hlab, hbeyond⟩ := mem_beyond.1 hlab
  have hstart : ¬lab.columns.start ≤ c.layout.indentTrim :=
    fun hle => hcovers ⟨lab, hlab, hle, hbeyond⟩
  rw [drawnColumns_of_beyond (hlabs lab hlab) hbeyond]
  dsimp only
  omega

theorem caretRuns_one_of_coversFirst
    (hapart : labs.Pairwise fun a b => a.columns.stop ≤ b.columns.start)
    (hcovers : c.CoversFirst labs) :
    c.caretRuns 1 (c.beyond labs) = c.caretRuns 0 (c.beyond labs) := by
  obtain ⟨lab, hlab, hstart, hstop⟩ := hcovers
  have hbeyond := mem_beyond.2 ⟨hlab, hstop⟩
  have hzero : (c.drawnColumns lab).start = 0 := by
    rw [drawnColumns_of_beyond (hlabs lab hlab) hstop]
    dsimp only
    omega
  have happart := drawnColumns_beyond_apart (c := c) hlabs hapart
  cases hfirst : c.beyond labs with
  | nil => rfl
  | cons first rest =>
      rw [hfirst] at hbeyond happart
      rcases List.mem_cons.1 hbeyond with rfl | hrest
      · exact caretRuns_one hzero rest
      · have hbefore := (List.pairwise_cons.1 happart).1 lab hrest
        have hnonneg := @drawnColumns_start_nonneg c first
        have hlt := @drawnColumns_start_lt_stop c first
        omega

end Covers

section Runs

variable (h : OneCell c.cells c.charset) {labs : List PlacedLabel}

include h

/-- Labels inside the trimmed indentation are underlined side by side, each by one caret. -/
theorem carets_inside (hlabs : ∀ lab ∈ labs, c.underlineCols lab = (0, 1)) (base : Int)
    (rest : List PlacedLabel) : carets c.cells base (c.caretRuns 1 (labs ++ rest)) =
      ((List.range labs.length).map fun (i : Nat) => ⟨base + i, base + i + 1⟩) ++
        carets c.cells (base + labs.length) (c.caretRuns 1 rest) := by
  induction labs generalizing base with
  | nil => exact congrArg (carets c.cells · _) (Int.add_zero base).symm
  | cons lab labs ih =>
      obtain ⟨hlab, hlabs⟩ := List.forall_mem_cons.1 hlabs
      have hcols : c.drawnColumns lab = ⟨0, 1⟩ := by
        rw [drawnColumns, hlab]
        rfl
      have hfirst := carets_caretRuns_cons h (drawnColumns_start_nonneg lab) (labs ++ rest) base
      rw [Int.add_zero, hcols, Int.add_zero] at hfirst
      have hlength : base + 1 + (labs.length : Int) = base + ((lab :: labs).length : Nat) := by
        rw [List.length_cons]
        omega
      rw [List.cons_append, caretRuns_one (by rw [hcols]), hfirst, ih hlabs, hlength,
        List.length_cons, List.range_succ_eq_map, List.map_cons, List.map_map, List.cons_append]
      refine congrArg₂ List.cons ?_ (congrArg (· ++ _) (List.map_congr_left fun i _ => ?_))
      · simp only [Int.natCast_zero, Int.add_zero]
      · simp only [Function.comp, Interval.mk.injEq]
        omega

/-- Behind carets of labels inside the trimmed indentation, the others keep their distances but may
be pushed to the right as a whole. -/
theorem carets_beyond (hlabs : ∀ lab ∈ labs, Drawable lab)
    (hapart : labs.Pairwise fun a b => a.columns.stop ≤ b.columns.start)
    (hne : c.inside labs ≠ []) (base : Int) :
    carets c.cells (base + (c.inside labs).length) (c.caretRuns 1 (c.beyond labs)) =
      (c.beyond labs).map fun lab => ⟨base + c.displacement labs + (c.drawnColumns lab).start,
        base + c.displacement labs + (c.drawnColumns lab).stop⟩ := by
  have hbeyond := drawnColumns_beyond_apart (c := c) hlabs hapart
  have hpos := List.length_pos_iff.2 hne
  rw [displacement]
  split
  case isTrue hcovers =>
      have hshift := carets_caretRuns h hbeyond (fun lab _ => drawnColumns_start_nonneg lab)
        (base + (c.inside labs).length)
      rw [Int.add_zero] at hshift
      rw [caretRuns_one_of_coversFirst hlabs hapart hcovers, hshift]
  case isFalse hcovers =>
      have hshift := carets_caretRuns h hbeyond (one_le_start_of_not_coversFirst hlabs hcovers)
        (base + ((c.inside labs).length - 1 : Nat))
      have hfirst : base + ((c.inside labs).length - 1 : Nat) + 1 =
          base + (c.inside labs).length := by omega
      rw [← hfirst, hshift]

/-- The carets of a rung: those of the labels inside the trimmed indentation side by side, then
those of the others. -/
theorem carets_trimmed (hlabs : ∀ lab ∈ labs, Drawable lab)
    (hapart : labs.Pairwise fun a b => a.columns.stop ≤ b.columns.start) (base : Int) :
    carets c.cells base (c.caretRuns 0 labs) =
      ((List.range (c.inside labs).length).map fun (i : Nat) => ⟨base + i, base + i + 1⟩) ++
        (c.beyond labs).map fun lab => ⟨base + c.displacement labs + (c.drawnColumns lab).start,
          base + c.displacement labs + (c.drawnColumns lab).stop⟩ := by
  have hsplit := inside_append_beyond (c := c) hlabs hapart
  have hinside : ∀ lab ∈ c.inside labs, c.underlineCols lab = (0, 1) := by
    intro lab hlab
    obtain ⟨hlab, hstop⟩ := List.mem_filter.1 hlab
    exact underlineCols_of_inside (hlabs lab hlab) (of_decide_eq_true hstop)
  cases hfirst : c.inside labs with
  | nil =>
      have hnone : c.displacement labs = 0 := by
        rw [displacement, hfirst]
        exact ite_self 0
      have hruns := carets_caretRuns h (drawnColumns_beyond_apart (c := c) hlabs hapart)
        (fun lab _ => drawnColumns_start_nonneg lab) base
      rw [hfirst, List.nil_append] at hsplit
      rw [Int.add_zero, hsplit] at hruns
      rw [hruns, hsplit, hnone, Int.natCast_zero, Int.add_zero]
      rfl
  | cons first others =>
      have hstart : (c.drawnColumns first).start = 0 := by
        rw [drawnColumns, hinside first (hfirst ▸ List.mem_cons_self)]
      have hne : c.inside labs ≠ [] := hfirst ▸ List.cons_ne_nil first others
      have hruns := carets_inside h hinside base (c.beyond labs)
      rw [hfirst, List.cons_append, caretRuns_one hstart, ← List.cons_append, ← hfirst,
        hsplit, carets_beyond h hlabs hapart hne] at hruns
      rw [← hfirst, hruns]

end Runs

theorem displacement_eq_zero_iff (labs : List PlacedLabel) : c.displacement labs = 0 ↔
    c.inside labs = [] ∨ (c.inside labs).length = 1 ∧ ¬c.CoversFirst labs := by
  rw [displacement, ← List.length_eq_zero_iff]
  split
  case isTrue hcovers => exact ⟨.inl, fun h => h.resolve_right fun hone => hone.2 hcovers⟩
  case isFalse hcovers =>
      simp only [hcovers, not_false_eq_true, and_true]
      omega

/-- The style in which the lines of the source are shown. -/
def sourceStyle (c : Canvas) : Style := c.layout.source.style.getD c.styles.source

/-- How a line looks below which nothing but spaces is trimmed: behind the margin its source row
shows at each cell what the line has at the column as far behind the trimmed indentation. -/
structure ShownTrimmed (c : Canvas) (line : LineLayout) : Prop where
  spaces : line.text = Text.spaces c.layout.indentTrim ++ c.shownText line
  shown : ∀ x, 0 ≤ x →
    (c.sourceRow (leadersAbove line) line).glyphsAt c.cells (c.layout.prefixWidth + x) =
      (Text.glyphsAt c.cells (c.layout.indentTrim + x) 0 none line.text).map (·, some c.sourceStyle)

theorem glyphsAt_sourceRow (h : OneCell c.cells c.charset) {line : LineLayout}
    (hdigits : (toString (line.number + 1)).length ≤ c.layout.numberWidth) (active : ActiveLeaders)
    {x : Int} (hx : 0 ≤ x) :
    (c.sourceRow active line).glyphsAt c.cells (c.layout.prefixWidth + x) =
      (Text.glyphsAt c.cells x 0 none (c.shownText line)).map (·, some c.sourceStyle) := by
  have hrow : c.sourceRow active line = Row.trimmed ⟨.source, c.numberGutter line.number ++
      c.margin active ++ run (c.shownText line) (some c.sourceStyle)⟩ := rfl
  have hfront : Fills c.cells (c.numberGutter line.number ++ c.margin active)
      c.layout.prefixWidth :=
    (fills_numberGutter h hdigits).append (fills_margin h active) (by omega)
  have hbehind : c.layout.prefixWidth + x - c.layout.prefixWidth = x := by omega
  rw [hrow, Row.glyphsAt_trimmed, Row.glyphsAt]
  dsimp only
  rw [glyphs_append, hfront.beyond _ (by omega), hfront.total_eq, List.nil_append, glyphs_run,
    hbehind]

theorem glyphsAt_spaces_append (hspace : UnitChar c.cells ' ') {text : Text} (htab : '\t' ∉ text)
    {trim : Int} (htrim : 0 ≤ trim) (x : Int) :
    Text.glyphsAt c.cells (trim + x) 0 none (Text.spaces trim ++ text) =
      Text.glyphsAt c.cells x 0 none text := by
  have hnone : none ≠ some zeroWidthJoiner := fun heq => by cases heq
  have hcol : columnAfter c.cells 4 0 none (Text.spaces trim) = 0 + trim := by
    rw [Text.spaces, (UnitText.replicate hspace _).columnAfter_eq hnone, List.length_replicate]
    omega
  have hlast : lastChar none (Text.spaces trim) = some zeroWidthJoiner ↔
      none = some zeroWidthJoiner := by
    rw [lastChar, Text.spaces, List.getLast?_replicate]
    split
    · rfl
    · decide
  rw [Text.glyphsAt_append, hcol, Int.add_comm trim x, Text.glyphsAt_add htab x 0 trim hlast,
    Text.spaces, Text.glyphsAt_spaces, List.nil_append]

theorem shownTrimmed_of_spaces (h : OneCell c.cells c.charset) {line : LineLayout}
    (hdigits : (toString (line.number + 1)).length ≤ c.layout.numberWidth)
    (htab : '\t' ∉ line.text) (htrim : 0 ≤ c.layout.indentTrim)
    (hspaces : line.text = Text.spaces c.layout.indentTrim ++ c.shownText line) :
    c.ShownTrimmed line where
  spaces := hspaces
  shown := by
    intro x hx
    have hshown : '\t' ∉ c.shownText line :=
      fun hmem => htab (hspaces ▸ List.mem_append_right _ hmem)
    rw [glyphsAt_sourceRow h hdigits _ hx]
    conv => rhs; rw [hspaces, glyphsAt_spaces_append h.unit_space hshown htrim]

/-- How a rung looks below a trimmed line: one caret for each label inside the trimmed indentation,
then the others over as many carets as they have columns left, in place or pushed to the right. -/
structure UnderlinedTrimmed (c : Canvas) (line : LineLayout) (rung : Nat) : Prop where
  split : c.inside (line.onRung rung) ++ c.beyond (line.onRung rung) = line.onRung rung
  carets : (c.underlineRow line rung).carets c.cells =
    ((List.range (c.inside (line.onRung rung)).length).map fun (i : Nat) =>
        ⟨c.layout.prefixWidth + i, c.layout.prefixWidth + i + 1⟩) ++
      (c.beyond (line.onRung rung)).map fun lab =>
        ⟨c.layout.prefixWidth + c.displacement (line.onRung rung) + (c.drawnColumns lab).start,
          c.layout.prefixWidth + c.displacement (line.onRung rung) + (c.drawnColumns lab).stop⟩
  moved : ∀ lab ∈ line.onRung rung, c.layout.indentTrim ≤ lab.span.startCol →
    lab ∈ c.beyond (line.onRung rung) ∧ c.drawnColumns lab =
      ⟨lab.columns.start - c.layout.indentTrim, lab.columns.stop - c.layout.indentTrim⟩
  kept : c.displacement (line.onRung rung) = 0 ↔ c.inside (line.onRung rung) = [] ∨
    (c.inside (line.onRung rung)).length = 1 ∧ ¬c.CoversFirst (line.onRung rung)

theorem underlinedTrimmed_of_stacked (h : OneCell c.cells c.charset) {line : LineLayout}
    (hline : Stacked line) (rung : Nat) : c.UnderlinedTrimmed line rung where
  split := inside_append_beyond (hline.drawable rung) (hline.apart rung)
  carets := by
    rw [carets_underlineRow_eq h, carets_trimmed h (hline.drawable rung) (hline.apart rung)]
  moved := by
    intro lab hlab hstart
    have hdrawable := hline.drawable rung lab hlab
    have hwidth := hdrawable.one_le_width
    have hbeyond : c.layout.indentTrim < lab.columns.stop := by
      simp only [PlacedLabel.columns]
      omega
    have hcolumn : c.layout.indentTrim ≤ lab.columns.start := hstart
    refine ⟨mem_beyond.2 ⟨hlab, hbeyond⟩, ?_⟩
    rw [drawnColumns_of_beyond hdrawable hbeyond, Int.max_eq_left (by omega)]
  kept := displacement_eq_zero_iff _

end Canvas

open Layout Canvas

section Layout

variable {w : CellWidth} {config : Config} {source : Source} {placed : List PlacedLabel}
  {title : Text}

theorem indentTrim_nonneg : 0 ≤ (ofPlaced w config title source placed).indentTrim := by
  simp only [ofPlaced]
  split
  · exact commonIndent_nonneg _
  · exact Int.le_refl 0

theorem indentTrim_le {line : LineLayout}
    (hline : line ∈ (ofPlaced w config title source placed).lines)
    (hblank : line.isBlank = false) :
    (ofPlaced w config title source placed).indentTrim ≤ indentWidth w 4 line.text := by
  simp only [ofPlaced]
  split
  · exact commonIndent_le hline hblank
  · exact displayWidth_nonneg ..

theorem text_eq_spaces_append (hspace : UnitChar w ' ') {line : LineLayout}
    (hline : line ∈ (ofPlaced w config title source placed).lines)
    (hblank : line.isBlank = false) :
    line.text = Text.spaces (ofPlaced w config title source placed).indentTrim ++
      Canvas.shownText ⟨w, config, ofPlaced w config title source placed⟩ line := by
  have hle := indentTrim_le hline hblank
  rw [shownText, hblank]
  apply drop_of_le_indentWidth hspace (tab_not_mem_of_mem_lines hline) 4
  rwa [Int.toNat_of_nonneg indentTrim_nonneg]

theorem shownTrimmed_of_mem_lines (hcells : OneCell w config.charset)
    (hwithin : ∀ lab ∈ placed, lab.span.Within source.lineCount) {line : LineLayout}
    (hline : line ∈ (ofPlaced w config title source placed).lines)
    (hblank : line.isBlank = false) :
    ShownTrimmed ⟨w, config, ofPlaced w config title source placed⟩ line := by
  have hdigits := digits_le_numberWidth hwithin title hline
  exact shownTrimmed_of_spaces hcells hdigits (tab_not_mem_of_mem_lines hline) indentTrim_nonneg
    (text_eq_spaces_append hcells.unit_space hline hblank)

end Layout

/-- Underlines move to the left with a trimmed text, unless labels inside the trimmed indentation
push them back. Of the rows of an expanded rendering, those that show or underline the source are
the source row of each line with its underline rows. What a line shows moves as a whole, and every
single-line label is on one of the rungs of its line. A rung is in place if no label lies inside the
indentation, or only one does and no other covers the first column that is shown; else the labels
behind the indentation are underlined to the right of their characters. -/
theorem underlines_below_trimmed_lines [Platform] {w : CellWidth} {config : Config}
    {diagnostic : Diagnostic} {layout : Layout} (hcells : OneCell w config.charset)
    (hlayout : build w config diagnostic = .ok layout) :
    ∃ rows, Rendering.expandedRows w config diagnostic = .ok rows ∧
      rows.filter Row.showsSource =
        layout.lines.flatMap (Canvas.spanRows ⟨w, config, layout⟩) ∧
      ∀ line ∈ layout.lines,
        (line.isBlank = false → ShownTrimmed ⟨w, config, layout⟩ line) ∧
        (∀ lab ∈ layout.labels, lab.span.isMultiline = false →
          lab.span.startLine = line.number → ∃ rung < line.rungCount, lab ∈ line.onRung rung) ∧
        ∀ rung < line.rungCount, UnderlinedTrimmed ⟨w, config, layout⟩ line rung := by
  obtain ⟨rows, hrows, hfilter⟩ := filter_expandedRows hlayout
  refine ⟨rows, hrows, hfilter, fun line hline => ?_⟩
  obtain ⟨source, placed, -, -, hindex, hwithin, rfl⟩ := exists_of_build_ok hlayout
  refine ⟨shownTrimmed_of_mem_lines hcells hwithin hline,
    fun lab hlab => exists_rung_of_mem_lines hindex hline hlab, fun rung _ => ?_⟩
  obtain ⟨-, -, number, -, rfl⟩ := exists_number_of_mem_lines hline
  exact underlinedTrimmed_of_stacked hcells (stacked_shownLine hindex hwithin number) rung

/-- The settings of a rendering that trims the common indentation. -/
def trimming : Config where
  colorEnabled := false
  trimIndent := true
  inRange := by
    refine ⟨by decide, by decide, ?_, by decide⟩
    intro limit h
    cases h

/-- Two labels inside the indentation and one behind it. -/
def indented : Diagnostic where
  title := ['t']
  source := some ⟨"    abcd".toList, none, none⟩
  labels := [⟨⟨0, 1⟩, none, none⟩, ⟨⟨1, 2⟩, none, none⟩, ⟨⟨6, 7⟩, none, none⟩]

section

attribute [local instance] Platform.usual

theorem underlines_below_trimmed_lines_indented : ∃ layout : Layout,
    build (fun _ => 1) trimming indented = .ok layout ∧ layout.indentTrim = 4 ∧
      ∀ line ∈ layout.lines, line.isBlank = false ∧
        ShownTrimmed ⟨fun _ => 1, trimming, layout⟩ line ∧
        UnderlinedTrimmed ⟨fun _ => 1, trimming, layout⟩ line 0 := by
  have hcells : OneCell (fun _ => 1) trimming.charset :=
    ⟨.inl rfl, rfl, fun _ _ => rfl, fun _ _ _ _ => rfl⟩
  obtain ⟨layout, hlayout, htrim, hlines⟩ : ∃ layout : Layout,
      build (fun _ => 1) trimming indented = .ok layout ∧ layout.indentTrim = 4 ∧
        ∀ line ∈ layout.lines, line.isBlank = false ∧ 0 < line.rungCount :=
    ⟨_, rfl, rfl, by decide⟩
  obtain ⟨rows, -, -, hall⟩ := underlines_below_trimmed_lines hcells hlayout
  refine ⟨layout, hlayout, htrim, fun line hline => ?_⟩
  obtain ⟨hblank, hrung⟩ := hlines line hline
  obtain ⟨hshown, -, hrungs⟩ := hall line hline
  exact ⟨hblank, hshown hblank, hrungs 0 hrung⟩

/-- The label behind the indentation starts two columns behind it, but its underline does not start
at the second cell behind the margin: no caret is there. -/
theorem indented_underline_pushed : ∃ layout rows,
    build (fun _ => 1) trimming indented = .ok layout ∧
      Rendering.expandedRows (fun _ => 1) trimming indented = .ok rows ∧
      layout.prefixWidth = 4 ∧ layout.indentTrim = 4 ∧
      (∃ lab ∈ layout.labels, lab.span.isMultiline = false ∧ lab.span.startCol = 6) ∧
      (rows.filter fun row => row.kind == .underline).map (Row.carets (fun _ => 1)) =
        [[⟨4, 5⟩, ⟨5, 6⟩, ⟨7, 8⟩]] :=
  ⟨_, _, rfl, rfl, rfl, rfl, by decide, by decide⟩

end

end Excerpt
