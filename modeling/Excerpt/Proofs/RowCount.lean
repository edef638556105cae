import Mathlib.Algebra.Order.BigOperators.Group.List
import Mathlib.Algebra.Order.Group.Nat
import Excerpt.Proofs.Texts

/-!
A compact rendering is shorter than an expanded one. Its rows are paid for one by one: an underline
by the underlines of the same rung, an item by the rows that the text of its label takes below them.
What it saves in any case is the blank row below the title and the one above the footnotes.
-/

namespace Excerpt

open ActiveLeaders Layout

namespace Canvas

/-- The rows that a drawing takes with the items for what it defers: the text of a deferred label
takes a row for each of its lines. -/
def Drawn.height (drawn : Drawn) : Nat := drawn.rows.length + (linesOf drawn.deferred).length

@[simp] theorem height_append (a b : Drawn) : (a ++ b).height = a.height + b.height := by
  have hrows : (a ++ b).rows = a.rows ++ b.rows := rfl
  simp only [Drawn.height, hrows, append_deferred, linesOf_append, List.length_append]
  omega

@[simp] theorem height_rows (rows : List Row) : Drawn.height ⟨rows, []⟩ = rows.length := rfl

theorem length_linesOf_perm {a b : List PlacedLabel} (h : a.Perm b) :
    (linesOf a).length = (linesOf b).length := (h.flatMap_right _).length_eq

variable {c : Canvas}

theorem length_items (labs : List PlacedLabel) :
    (c.items labs).length = (linesOf labs).length := by
  have hitem : ∀ lab, (c.itemRows lab).length = lab.message.lines.length := by
    intro lab
    obtain ⟨-, first, rest, indent, hlines, hrows⟩ := itemizes_itemRows (c := c) lab
    simp [hlines, hrows]
  have hsorted : (c.items labs).length = (labs.flatMap c.itemRows).length :=
    ((sortBy_perm PlacedLabel.earlier labs).flatMap_right c.itemRows).length_eq
  rw [hsorted]
  simp [linesOf, List.length_flatMap, hitem]

/-! ### The rungs of a line -/

/-- Expanded, a rung takes a row for its underlines and a row for each line of its texts. -/
theorem length_expandedRung (hlimit : c.config.limit = none) (active : ActiveLeaders)
    (line : LineLayout) (rung : Nat) : (c.expandedRung active line rung).length =
      1 + (linesOf (withText (line.onRung rung))).length := by
  have hrows : c.rungPicture .expanded active line rung = c.expandedRung active line rung := rfl
  have hwrites : List.Forall₂ c.Writes (c.rungScript .expanded active line rung)
      (c.rungPicture .expanded active line rung) := writes_rungPicture active line rung
  have hnotes := hwrites.length_eq
  rw [← hrows, ← hnotes]
  simp [rungScript, wrap_of_no_limit hlimit, linesOf, List.length_flatMap, Nat.add_comm]

/-- Compact, a rung takes one row at most. -/
theorem length_compactRung_le (active : ActiveLeaders) (line : LineLayout) (rung : Nat) :
    (c.compactRung active line rung).rows.length ≤ 1 := by
  simp only [compactRung]
  split
  · exact Nat.zero_le 1
  · split <;> exact Nat.le_refl 1

theorem height_labelRows_expanded (hlimit : c.config.limit = none) {line : LineLayout}
    (h : line.Indexed) (active : ActiveLeaders) : (c.labelRows .expanded active line).height =
      line.rungCount + (linesOf (withText line.labels)).length := by
  have hlabels := length_linesOf_perm (withText_perm h.onRung_perm)
  have hrows : c.labelRows .expanded active line =
      ⟨(List.range line.rungCount).flatMap (c.expandedRung active line), []⟩ := rfl
  rw [hrows, height_rows, ← hlabels, withText_flatMap, linesOf_flatMap]
  simp [List.length_flatMap, length_expandedRung hlimit, List.sum_map_add]

theorem height_labelRows_compact_le {line : LineLayout} (h : line.Indexed)
    (active : ActiveLeaders) : (c.labelRows .compact active line).height ≤
      line.rungCount + (linesOf (withText line.labels)).length := by
  have hrows : (c.labelRows .compact active line).rows.length ≤ line.rungCount := by
    rw [labelRows_compact, List.length_flatMap]
    refine (List.sum_le_card_nsmul _ 1 fun length hlength => ?_).trans (by simp)
    obtain ⟨rung, -, rfl⟩ := List.mem_map.1 hlength
    exact length_compactRung_le active line rung
  have hdeferred := length_linesOf_perm (told_labelRows (c := c) h active)
  rw [linesOf_append, List.length_append] at hdeferred
  rw [Drawn.height]
  omega

/-! ### The ends of labels -/

/-- The text of a label over several lines always has its place beside the end marker when there is
no limit and no line feed in it. -/
theorem height_endDrawn_le (hlimit : c.config.limit = none) {lead : Leader}
    (hfeed : '\n' ∉ lead.message) (active after : ActiveLeaders) :
    (c.endDrawn .compact active after lead).height ≤
      (c.endDrawn .expanded active after lead).height := by
  by_cases htext : lead.message = []
  · simp [c.endDrawn_silent active after htext]
  · have hfits : c.fitsInline ((c.endMarker active lead).width c.cells) lead.message = true := by
      simp [fitsInline, fits, hlimit, hfeed]
    obtain ⟨first, rest, -, hexpanded⟩ := c.endDrawn_expanded active after htext
    rw [c.endDrawn_compact active after htext, if_pos hfits, hexpanded]
    simp

theorem height_endsDrawn_le (hlimit : c.config.limit = none) {leads : List Leader}
    (hfeeds : ∀ lead ∈ leads, '\n' ∉ lead.message) (active : ActiveLeaders) :
    (c.endsDrawn .compact active leads).height ≤ (c.endsDrawn .expanded active leads).height := by
  induction leads generalizing active with
  | nil => exact Nat.le_refl _
  | cons lead leads ih =>
      obtain ⟨hlead, hleads⟩ := List.forall_mem_cons.1 hfeeds
      simp only [endsDrawn, height_append]
      exact Nat.add_le_add (height_endDrawn_le hlimit hlead active _) (ih hleads _)

/-! ### The whole excerpt -/

theorem height_lineDrawn_le (hlimit : c.config.limit = none) {line : LineLayout}
    (h : line.Indexed) (hfeeds : ∀ lead ∈ line.ending, '\n' ∉ lead.message) :
    (c.lineDrawn .compact line).height ≤ (c.lineDrawn .expanded line).height := by
  have hlabels : (c.labelRows .compact (leadersAbove line) line).height ≤
      (c.labelRows .expanded (leadersAbove line) line).height :=
    (height_labelRows_compact_le h _).trans (height_labelRows_expanded hlimit h _).ge
  have hends := height_endsDrawn_le hlimit hfeeds (line.starting.foldl add (leadersAbove line))
  simp only [lineDrawn, height_append, height_rows]
  omega

theorem height_drawnOf_le (hlimit : c.config.limit = none) {parts : List Passage}
    (hindexed : ∀ line, .line line ∈ parts → line.Indexed)
    (hfeeds : ∀ line, .line line ∈ parts → ∀ lead ∈ line.ending, '\n' ∉ lead.message) :
    (c.drawnOf .compact parts).height ≤ (c.drawnOf .expanded parts).height := by
  induction parts with
  | nil => exact Nat.le_refl _
  | cons part parts ih =>
      have hparts := ih (fun line hline => hindexed line (List.mem_cons_of_mem _ hline))
        fun line hline => hfeeds line (List.mem_cons_of_mem _ hline)
      have hpart : (c.passageDrawn .compact part).height ≤
          (c.passageDrawn .expanded part).height := by
        cases part with
        | elision alive => exact Nat.le_refl _
        | line line =>
            exact height_lineDrawn_le hlimit (hindexed line List.mem_cons_self)
              (hfeeds line List.mem_cons_self)
      rw [drawnOf_cons, drawnOf_cons, height_append, height_append]
      exact Nat.add_le_add hpart hparts

end Canvas

namespace Rendering

variable {w : CellWidth} {config : Config} {diagnostic : Diagnostic} {layout : Layout}

theorem length_headRows : (headRows config .expanded layout).length =
    (headRows config .compact layout).length + 1 := by simp [headRows]

theorem length_footnoteRows (indent : Int) (footnote : Footnote) :
    (footnoteRows w config indent footnote).length = footnote.text.lines.length := by
  simp only [footnoteRows]
  cases footnote.text.lines <;> simp

theorem length_footRows_le (footnotes : List Footnote) :
    (footRows w config .compact layout footnotes).length ≤
      (footRows w config .expanded layout footnotes).length := by
  simp only [footRows]
  split
  case isTrue hnone => simp [hnone]
  case isFalse => simp [List.length_flatMap, length_footnoteRows]

theorem exists_rows_of_build_ok [Platform] (hlayout : build w config diagnostic = .ok layout)
    (mode : Mode) :
    ∃ all, rows w config mode diagnostic = .ok all ∧
      all.length = (headRows config mode layout).length +
        (Canvas.picture ⟨w, config, layout⟩ mode).height +
        (footRows w config mode layout diagnostic.footnotes).length := by
  refine ⟨_, rows_eq hlayout mode, ?_⟩
  simp only [List.length_append, Canvas.length_items, Canvas.Drawn.height, Nat.add_assoc]

end Rendering

open Canvas

/-- Without a width limit a compact rendering has fewer rows than an expanded one, whatever labels
overlap, share their columns or are deferred, unless the text of a label over several lines has a
line feed in it. -/
theorem compact_rows_fewer [Platform] {w : CellWidth} {config : Config} {diagnostic : Diagnostic}
    {layout : Layout} (hlimit : config.limit = none)
    (hlayout : build w config diagnostic = .ok layout)
    (hfeeds : ∀ lab ∈ layout.labels, lab.span.isMultiline = true → '\n' ∉ lab.message) :
    ∃ expanded compact, Rendering.expandedRows w config diagnostic = .ok expanded ∧
      Rendering.compactRows w config diagnostic = .ok compact ∧
      compact.length < expanded.length := by
  obtain ⟨expanded, hexpanded, hlengthe⟩ := Rendering.exists_rows_of_build_ok hlayout .expanded
  obtain ⟨compact, hcompact, hlengthc⟩ := Rendering.exists_rows_of_build_ok hlayout .compact
  refine ⟨expanded, compact, hexpanded, hcompact, ?_⟩
  have hpicture : (picture ⟨w, config, layout⟩ .compact).height ≤
      (picture ⟨w, config, layout⟩ .expanded).height := by
    obtain ⟨source, placed, -, -, hindex, -, rfl⟩ := exists_of_build_ok hlayout
    refine height_drawnOf_le hlimit (fun line hline => ?_) fun line hline lead hlead => ?_
    · exact indexed_of_mem_lines hindex (mem_passages_iff.1 hline)
    · obtain ⟨-, -, number, -, rfl⟩ := exists_number_of_mem_lines (mem_passages_iff.1 hline)
      obtain ⟨hplaced, hmulti⟩ := mem_of_mem_leadersOf ((mem_ending_layLine number _).1 hlead).1
      exact hfeeds lead.toPlacedLabel hplaced hmulti
  have hhead := @Rendering.length_headRows config layout
  have hfoot := @Rendering.length_footRows_le w config layout diagnostic.footnotes
  omega

section

attribute [local instance] Platform.usual

/-- Both labels on one line are deferred, to three rows of items. -/
theorem compact_rows_fewer_talkative : ∃ layout expanded compact,
    build (fun _ => 1) .default talkative = .ok layout ∧
      (picture ⟨fun _ => 1, .default, layout⟩ .compact).deferred.length = 2 ∧
      Rendering.expandedRows (fun _ => 1) .default talkative = .ok expanded ∧
      Rendering.compactRows (fun _ => 1) .default talkative = .ok compact ∧
      compact.length < expanded.length := by
  obtain ⟨layout, hlayout, hdeferred, hfeeds⟩ : ∃ layout : Layout,
      build (fun _ => 1) .default talkative = .ok layout ∧
        (picture ⟨fun _ => 1, .default, layout⟩ .compact).deferred.length = 2 ∧
        ∀ lab ∈ layout.labels, lab.span.isMultiline = true → '\n' ∉ lab.message :=
    ⟨_, rfl, rfl, by decide⟩
  obtain ⟨expanded, compact, hexpanded, hcompact, hfewer⟩ :=
    compact_rows_fewer (show Config.default.limit = none from rfl) hlayout hfeeds
  exact ⟨layout, expanded, compact, hlayout, hdeferred, hexpanded, hcompact, hfewer⟩

end

end Excerpt
