import Mathlib.Data.List.Forall2
import Excerpt.Proofs.Passages

/-!
What an expanded drawing reads. Two layouts are alike when they differ only in the positions of
their labels and in the order in which a line lists the leaders that pass it; their expanded
drawings are the same, row for row and segment for segment.
-/

namespace Excerpt

/-- The same label at the same place, at any position among the labels. -/
structure PlacedLabel.Alike (a b : PlacedLabel) : Prop where
  label : a.label = b.label
  span : a.span = b.span

structure Leader.Alike (a b : Leader) : Prop extends
    PlacedLabel.Alike a.toPlacedLabel b.toPlacedLabel where
  slot : a.slot = b.slot

/-- Slot by slot, the leaders alive are alike. -/
def ActiveLeaders.Alike (active other : ActiveLeaders) : Prop :=
  ∀ slot, Option.Rel Leader.Alike (active.held slot) (other.held slot)

structure LineLayout.Alike (line other : LineLayout) : Prop where
  number : line.number = other.number
  text : line.text = other.text
  rungCount : line.rungCount = other.rungCount
  onRung : ∀ rung, List.Forall₂ PlacedLabel.Alike (line.onRung rung) (other.onRung rung)
  starting : List.Forall₂ Leader.Alike line.starting other.starting
  ending : List.Forall₂ Leader.Alike line.ending other.ending
  above : (Canvas.leadersAbove line).Alike (Canvas.leadersAbove other)

structure Layout.Alike (layout other : Layout) : Prop where
  title : layout.title = other.title
  source : layout.source = other.source
  slotCount : layout.slotCount = other.slotCount
  numberWidth : layout.numberWidth = other.numberWidth
  indentTrim : layout.indentTrim = other.indentTrim
  groups : List.Forall₂ (List.Forall₂ LineLayout.Alike) layout.groups other.groups

structure Canvas.Alike (c d : Canvas) : Prop where
  cells : c.cells = d.cells
  config : c.config = d.config
  layout : c.layout.Alike d.layout

theorem PlacedLabel.Alike.message {a b : PlacedLabel} (h : a.Alike b) : a.message = b.message :=
  congrArg Label.message h.label

namespace ActiveLeaders

variable {active other : ActiveLeaders}

/-- A slot is free in both, or holds leaders that are alike. -/
theorem Alike.held (h : active.Alike other) (slot : Nat) :
    active.held slot = none ∧ other.held slot = none ∨
      ∃ lead lead', active.held slot = some lead ∧ other.held slot = some lead' ∧
        lead.Alike lead' := by
  have hslot := h slot
  generalize active.held slot = mine at hslot ⊢
  generalize other.held slot = theirs at hslot ⊢
  cases hslot with
  | none => exact .inl ⟨rfl, rfl⟩
  | some hlead => exact .inr ⟨_, _, rfl, rfl, hlead⟩

theorem Alike.add (h : active.Alike other) {a b : Leader} (hlead : a.Alike b) :
    (active.add a).Alike (other.add b) := by
  intro slot
  rw [held_add, held_add, hlead.slot]
  split
  · exact .some hlead
  · exact h slot

theorem Alike.filter (h : active.Alike other) (freed : Nat) :
    Alike (active.filter (·.slot != freed)) (other.filter (·.slot != freed)) := by
  intro slot
  rw [held_filter, held_filter]
  split
  · exact .none
  · exact h slot

theorem Alike.foldl_add (h : active.Alike other) {leads leads' : List Leader}
    (hleads : List.Forall₂ Leader.Alike leads leads') :
    Alike (leads.foldl ActiveLeaders.add active) (leads'.foldl ActiveLeaders.add other) := by
  induction hleads generalizing active other with
  | nil => exact h
  | cons hlead _ ih => exact ih (h.add hlead)

theorem Alike.foldl_filter (h : active.Alike other) {leads leads' : List Leader}
    (hleads : List.Forall₂ Leader.Alike leads leads') :
    Alike (leads.foldl (fun active lead => active.filter (·.slot != lead.slot)) active)
      (leads'.foldl (fun active lead => active.filter (·.slot != lead.slot)) other) := by
  induction hleads generalizing active other with
  | nil => exact h
  | cons hlead _ ih =>
      rw [List.foldl_cons, List.foldl_cons, hlead.slot]
      exact ih (h.filter _)

theorem alike_nil : Alike [] [] := fun _ => .none

end ActiveLeaders

namespace Canvas

open ActiveLeaders

variable {c d : Canvas} (h : c.Alike d) {active other : ActiveLeaders}
  (hactive : active.Alike other) {a b : PlacedLabel} (hlab : a.Alike b)

include h

section Styles

include hlab in
theorem singleStyle_congr : c.singleStyle a = d.singleStyle b := by
  rw [singleStyle, singleStyle, styles, styles, h.config, hlab.label]

theorem multiStyle_congr {lead lead' : Leader} (hlead : lead.Alike lead') :
    c.multiStyle lead = d.multiStyle lead' := by
  rw [multiStyle, multiStyle, styles, styles, h.config, hlead.label]

theorem drawnCol_congr (col : Int) : c.drawnCol col = d.drawnCol col := by
  rw [drawnCol, drawnCol, h.layout.indentTrim]

theorem wrap_congr (text : Text) (col : Int) : c.wrap text col = d.wrap text col := by
  have hline : c.wrapLine = d.wrapLine := by
    funext available line
    simp only [wrapLine, h.cells]
  simp only [wrap, hline, Layout.prefixWidth, h.config, h.layout.numberWidth, h.layout.slotCount]

theorem glyphGutter_congr (glyph : Text) : c.glyphGutter glyph = d.glyphGutter glyph := by
  simp only [glyphGutter, styles, h.config, h.layout.numberWidth]

theorem numberGutter_congr (number : Nat) : c.numberGutter number = d.numberGutter number := by
  simp only [numberGutter, styles, charset, h.config, h.layout.numberWidth]

end Styles

section Margins

include hactive

theorem leaderCell_congr (slot : Nat) : c.leaderCell active slot = d.leaderCell other slot := by
  simp only [leaderCell, charset, h.config]
  obtain ⟨hnone, hnone'⟩ | ⟨lead, lead', hsome, hsome', hlead⟩ := hactive.held slot
  · rw [hnone, hnone']
  · simp only [hsome, hsome', multiStyle_congr h hlead]

theorem margin_congr : c.margin active = d.margin other := by
  rw [margin, margin, slots, slots, h.layout.slotCount]
  exact congrArg (List.flatMap · _) (funext (leaderCell_congr h hactive))

theorem annotation_congr : c.annotation active = d.annotation other := by
  unfold annotation
  rw [margin_congr h hactive, charset, charset, h.config, glyphGutter_congr h]

theorem connectorMargin_congr {marker marker' : Leader} (hmarker : marker.Alike marker')
    (corner : Text) :
    c.connectorMargin active marker corner = d.connectorMargin other marker' corner := by
  rw [connectorMargin, connectorMargin, slots, slots, h.layout.slotCount]
  refine congrArg (List.flatMap · _) (funext fun slot => ?_)
  simp only [connectorCell, leaderCell_congr h hactive slot, multiStyle_congr h hmarker, charset,
    h.config, hmarker.slot]
  obtain ⟨hnone, hnone'⟩ | ⟨lead, lead', hsome, hsome', hlead⟩ := hactive.held slot
  · rw [hnone, hnone']
  · simp only [hsome, hsome', multiStyle_congr h hlead]

theorem connector_congr {marker marker' : Leader} (hmarker : marker.Alike marker') (corner : Text)
    (col : Int) : c.connector active marker corner col = d.connector other marker' corner col := by
  simp only [connector, connectorMargin_congr h hactive hmarker, multiStyle_congr h hmarker,
    glyphGutter_congr h, charset, h.config]

theorem elisionRow_congr : c.elisionRow active = d.elisionRow other := by
  simp only [elisionRow, margin_congr h hactive, glyphGutter_congr h, charset, h.config]

end Margins

section Underlines

include hlab in
theorem underlineCols_congr : c.underlineCols a = d.underlineCols b := by
  rw [underlineCols, underlineCols, h.layout.indentTrim, hlab.span]

include hlab in
theorem underlineStart_congr : c.underlineStart a = d.underlineStart b := by
  rw [underlineStart, underlineStart, underlineCols_congr h hlab]

variable {labs labs' : List PlacedLabel} (hlabs : List.Forall₂ PlacedLabel.Alike labs labs')

include hlabs

theorem caretRuns_congr (col : Int) : c.caretRuns col labs = d.caretRuns col labs' := by
  induction hlabs generalizing col with
  | nil => rfl
  | cons hlab _ ih =>
      simp only [caretRuns, underlineCols_congr h hlab, singleStyle_congr h hlab, charset,
        h.config, ih]

include hlab in
theorem textRun_congr (piece : Text) (col : Int) :
    c.textRun a piece col labs = d.textRun b piece col labs' := by
  induction hlabs generalizing col with
  | nil => simp only [textRun, underlineStart_congr h hlab, singleStyle_congr h hlab]
  | cons hbar _ ih =>
      simp only [textRun, underlineStart_congr h hbar, singleStyle_congr h hbar, charset,
        h.config, ih]

include hactive

theorem textRows_congr : c.textRows active labs = d.textRows other labs' := by
  induction hlabs with
  | nil => rfl
  | cons hlab hwaiting ih =>
      simp only [textRows, hlab.message, underlineStart_congr h hlab, wrap_congr h,
        annotation_congr h hactive, ih]
      congr 1
      refine List.map_congr_left fun piece _ => ?_
      rw [textRun_congr h hlab (List.forall₂_reverse_iff.2 hwaiting)]

end Underlines

section Lines

variable {line line' : LineLayout} (hline : line.Alike line')

include hactive hline in
theorem expandedRung_congr (rung : Nat) :
    c.expandedRung active line rung = d.expandedRung other line' rung := by
  have hlabs := hline.onRung rung
  have htold := List.rel_filter (p := (!·.message.isEmpty)) (q := (!·.message.isEmpty))
    (fun a b hlab => by simp only [hlab.message]) hlabs
  simp only [expandedRung, underlineSegments, annotation_congr h hactive,
    caretRuns_congr h hlabs, textRows_congr h hactive (List.forall₂_reverse_iff.2 htold)]

include hactive hline in
theorem sourceRow_congr : c.sourceRow active line = d.sourceRow other line' := by
  rw [sourceRow, sourceRow, LineLayout.isBlank, LineLayout.isBlank, hline.text, hline.number,
    h.layout.indentTrim, h.layout.source, numberGutter_congr h, margin_congr h hactive, styles,
    styles, h.config]

include hactive in
theorem startRows_congr {leads leads' : List Leader}
    (hleads : List.Forall₂ Leader.Alike leads leads') :
    (c.startRows active leads).1 = (d.startRows other leads').1 := by
  induction hleads generalizing active other with
  | nil => rfl
  | cons hlead _ ih =>
      simp only [startRows, startRow, ih (hactive.add hlead), charset, h.config, hlead.span,
        connector_congr h hactive hlead, drawnCol_congr h]

include hactive in
theorem endDrawn_congr {after after' : ActiveLeaders} (hafter : after.Alike after')
    {lead lead' : Leader} (hlead : lead.Alike lead') :
    c.endDrawn .expanded active after lead = d.endDrawn .expanded other after' lead' := by
  simp only [endDrawn, endRows, multiStyle_congr h hlead, drawnCol_congr h, hlead.span,
    hlead.message, charset, h.config, connector_congr h hactive hlead, wrap_congr h,
    annotation_congr h hafter]

include hactive in
theorem endsDrawn_congr {leads leads' : List Leader}
    (hleads : List.Forall₂ Leader.Alike leads leads') :
    c.endsDrawn .expanded active leads = d.endsDrawn .expanded other leads' := by
  induction hleads generalizing active other with
  | nil => rfl
  | cons hlead _ ih =>
      simp only [endsDrawn, hlead.slot, ih (hactive.filter _),
        endDrawn_congr h hactive (hactive.filter _) hlead]

include hline in
theorem lineDrawn_congr : c.lineDrawn .expanded line = d.lineDrawn .expanded line' := by
  have habove := hline.above
  simp only [lineDrawn, labelRows, sourceRow_congr h habove hline, hline.rungCount,
    startRows_congr h habove hline.starting,
    endsDrawn_congr h (habove.foldl_add hline.starting) hline.ending,
    funext (expandedRung_congr h habove hline)]

end Lines

section Passages

omit h

/-- Passages that are drawn alike. -/
inductive PassageAlike : Passage → Passage → Prop
  | line {line other} : line.Alike other → PassageAlike (.line line) (.line other)
  | elision {alive other : ActiveLeaders} :
      alive.Alike other → PassageAlike (.elision alive) (.elision other)

theorem leadersBelow_alike {line line' : LineLayout} (hline : line.Alike line') :
    (leadersBelow line).Alike (leadersBelow line') :=
  (hline.above.foldl_add hline.starting).foldl_filter hline.ending

include hactive in
theorem leadersAfter_alike {lines lines' : List LineLayout}
    (hlines : List.Forall₂ LineLayout.Alike lines lines') :
    (leadersAfter active lines).Alike (leadersAfter other lines') := by
  induction hlines generalizing active other with
  | nil => exact hactive
  | cons hline _ ih => exact ih (leadersBelow_alike hline)

theorem passagesAfter_alike {groups groups' : List (List LineLayout)}
    (hgroups : List.Forall₂ (List.Forall₂ LineLayout.Alike) groups groups')
    {active other : ActiveLeaders} (hactive : active.Alike other) :
    List.Forall₂ PassageAlike (passagesAfter active groups) (passagesAfter other groups') := by
  induction hgroups generalizing active other with
  | nil => exact .nil
  | cons hgroup _ ih =>
      refine .cons (.elision hactive) (List.rel_append ?_ (ih (leadersAfter_alike hactive hgroup)))
      exact List.rel_map (fun _ _ => .line) hgroup

theorem passages_alike {groups groups' : List (List LineLayout)}
    (hgroups : List.Forall₂ (List.Forall₂ LineLayout.Alike) groups groups') :
    List.Forall₂ PassageAlike (passages groups) (passages groups') := by
  cases hgroups with
  | nil => exact .nil
  | cons hgroup hrest =>
      refine List.rel_append (List.rel_map (fun _ _ => .line) hgroup) ?_
      exact passagesAfter_alike hrest (leadersAfter_alike alike_nil hgroup)

include h in
theorem passageDrawn_congr {part part' : Passage} (hpart : PassageAlike part part') :
    c.passageDrawn .expanded part = d.passageDrawn .expanded part' := by
  cases hpart with
  | line hline => exact lineDrawn_congr h hline
  | elision halive => rw [passageDrawn, passageDrawn, elisionRow_congr h halive]

include h in
theorem drawnOf_congr {parts parts' : List Passage}
    (hparts : List.Forall₂ PassageAlike parts parts') :
    c.drawnOf .expanded parts = d.drawnOf .expanded parts' := by
  induction hparts with
  | nil => simp only [drawnOf, List.flatMap_nil]
  | cons hpart _ ih => rw [drawnOf_cons, drawnOf_cons, passageDrawn_congr h hpart, ih]

include h in
/-- Layouts that are alike are drawn alike. -/
theorem picture_congr : c.picture .expanded = d.picture .expanded :=
  drawnOf_congr h (passages_alike h.layout.groups)

end Passages

end Canvas
end Excerpt
