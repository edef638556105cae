import Excerpt.Rendering
import Excerpt.Proofs.Trace

/-!
How a rendering ends. It fails without a source, on the first label that does not fit the source,
and on a tab that stands for too many spaces; else it gives a text.
-/

namespace Excerpt

open Layout

theorem nextTabStop_sub_le (col : Int) {tab : Int} (htab : 1 ≤ tab) :
    nextTabStop col tab - col ≤ tab := by
  rw [nextTabStop, if_neg (by omega), Int.add_mul, Int.one_mul]
  have := Int.ediv_mul_le col (show tab ≠ 0 by omega)
  omega

theorem le_tab_of_mem_tabRuns {w : CellWidth} {tab : Int} (htab : 1 ≤ tab) {col : Int}
    {previous : Option Char} {s : Text} {cells : Int} (h : cells ∈ tabRuns w tab col previous s) :
    cells ≤ tab := by
  induction s generalizing col previous with
  | nil => exact absurd h List.not_mem_nil
  | cons c s ih =>
      rw [tabRuns, List.mem_append] at h
      rcases h with h | h
      · split at h
        case isTrue hc =>
            rw [List.mem_singleton.1 h, hc, advance, if_pos rfl]
            exact nextTabStop_sub_le col htab
        case isFalse => exact absurd h List.not_mem_nil
      · exact ih h

/-- Tab stops that are no further apart than a text can be long never make one too long. -/
theorem sizeFault?_of_le [Platform] (w : CellWidth) {config : Config} (source : Source)
    (placed : List PlacedLabel) (htab : config.tab ≤ Platform.maxLength) :
    sizeFault? w config source placed = none := by
  refine List.findSome?_eq_none_iff.2 fun range _ => List.findSome?_eq_none_iff.2 fun number _ =>
    List.findSome?_eq_none_iff.2 fun cells hcells => ?_
  have hle := le_tab_of_mem_tabRuns config.one_le_tab hcells
  have hindex : Platform.maxLength ≤ maxIndex := Platform.maxLength_le
  rw [sizeError?, if_neg (by omega), if_neg (by omega)]

theorem slotsApart_of_build_ok [Platform] {w : CellWidth} {config : Config}
    {diagnostic : Diagnostic} {layout : Layout} (h : build w config diagnostic = .ok layout) :
    ∀ line ∈ layout.lines, line.SlotsApart := by
  obtain ⟨source, placed, -, -, hindex, hwithin, rfl⟩ := exists_of_build_ok h
  intro line hline
  obtain ⟨-, -, number, -, rfl⟩ := exists_number_of_mem_lines hline
  exact slotsApart_layLine number _ hindex fun lab hlab => (hwithin lab hlab).rising

theorem draw_of_build_ok [Platform] {w : CellWidth} {config : Config} {diagnostic : Diagnostic}
    {layout : Layout} (h : build w config diagnostic = .ok layout) (mode : Mode) :
    ∃ drawn, Canvas.draw ⟨w, config, layout⟩ mode = .ok drawn := by
  obtain ⟨drawn, -, hdrawn, -, -⟩ :=
    Canvas.draws_draw ⟨w, config, layout⟩ mode (slotsApart_of_build_ok h)
  exact ⟨drawn, hdrawn⟩

namespace Diagnostic

theorem render_of_build_ok [Platform] {w : CellWidth} {config : Config} {diagnostic : Diagnostic}
    {layout : Layout} (h : build w config diagnostic = .ok layout) (mode : Mode) :
    ∃ text, diagnostic.render w config mode = .ok text := by
  obtain ⟨drawn, hdrawn⟩ := draw_of_build_ok h mode
  cases mode with
  | expanded =>
      simp only [render, Rendering.rows, Rendering.expandedRows, h, hdrawn, ok_bind]
      exact ⟨_, rfl⟩
  | compact =>
      simp only [render, Rendering.rows, Rendering.compactRows, h, hdrawn, ok_bind]
      exact ⟨_, rfl⟩

theorem render_of_build_error [Platform] {w : CellWidth} {config : Config} {diagnostic : Diagnostic}
    {e : RenderError} (h : build w config diagnostic = .error e) (mode : Mode) :
    diagnostic.render w config mode = .error e := by
  cases mode with
  | expanded =>
      simp only [render, Rendering.rows, Rendering.expandedRows, h, error_bind]
      rfl
  | compact =>
      simp only [render, Rendering.rows, Rendering.compactRows, h, error_bind]
      rfl

end Diagnostic

theorem FirstMisfit.unique {labels : List Label} {length : Nat} {e e' : InvalidSpan}
    (h : FirstMisfit labels length e) (h' : FirstMisfit labels length e') : e = e' := by
  obtain ⟨k, label, hk, hmisfit, hearlier, rfl⟩ := h
  obtain ⟨k', label', hk', hmisfit', hearlier', rfl⟩ := h'
  rcases Nat.lt_trichotomy k k' with hlt | rfl | hlt
  · exact absurd (hearlier' k hlt label hk) hmisfit
  · rw [hk] at hk'
    cases hk'
    rfl
  · exact absurd (hearlier k' hlt label' hk') hmisfit'

theorem FirstMisfit.exists_misfit {labels : List Label} {length : Nat} {e : InvalidSpan}
    (h : FirstMisfit labels length e) : ∃ label ∈ labels, ¬label.span.Fits length := by
  obtain ⟨k, label, hk, hmisfit, -⟩ := h
  exact ⟨label, List.mem_of_getElem? hk, hmisfit⟩

namespace Diagnostic

theorem render_misfit [Platform] (w : CellWidth) (config : Config) (mode : Mode)
    {diagnostic : Diagnostic} {source : Source} (hsource : diagnostic.source = some source)
    (h : ∃ label ∈ diagnostic.labels, ¬label.span.Fits source.length) :
    ∃ e, FirstMisfit diagnostic.labels source.length e ∧
      diagnostic.render w config mode = .error (.invalidSpan e) := by
  obtain ⟨e, hfirst, herror⟩ := build_misfit w config hsource h
  exact ⟨e, hfirst, render_of_build_error herror mode⟩

theorem render_fits [Platform] (w : CellWidth) (config : Config) (mode : Mode)
    {diagnostic : Diagnostic} {source : Source} (hsource : diagnostic.source = some source)
    (h : ∀ label ∈ diagnostic.labels, label.span.Fits source.length) :
    ∃ placed, placeLabels w config.tab source.index 0 diagnostic.labels = .ok placed ∧
      (∀ e, sizeFault? w config source placed = some e →
        diagnostic.render w config mode = .error (.oversized e)) ∧
      (sizeFault? w config source placed = none →
        ∃ text, diagnostic.render w config mode = .ok text) := by
  obtain ⟨placed, hlabels, -, hwithin⟩ := exists_placed w config.tab source h
  have hbuild := build_of_placed w hsource hlabels hwithin
  refine ⟨placed, hlabels, fun e hfault => ?_, fun hfault => ?_⟩
  · rw [hfault] at hbuild
    exact render_of_build_error hbuild mode
  · rw [hfault] at hbuild
    exact render_of_build_ok hbuild mode

/-- How a rendering ends, whatever the labels, the settings and the widths of characters are. With
a source it fails on the first label that does not fit, and on none else. When all labels fit, the
only other fault is a tab on a shown line that stands for more spaces than a text can have, which
takes tab stops that far apart. -/
theorem render_outcome [Platform] (w : CellWidth) (config : Config) (mode : Mode)
    (diagnostic : Diagnostic) :
    (diagnostic.source = none → diagnostic.render w config mode = .error .noSource) ∧
    ∀ source, diagnostic.source = some source →
      (∀ e, diagnostic.render w config mode = .error (.invalidSpan e) ↔
        FirstMisfit diagnostic.labels source.length e) ∧
      ((∃ e, FirstMisfit diagnostic.labels source.length e) ↔
        ∃ label ∈ diagnostic.labels, ¬label.span.Fits source.length) ∧
      ((∀ label ∈ diagnostic.labels, label.span.Fits source.length) →
        ∃ placed, placeLabels w config.tab source.index 0 diagnostic.labels = .ok placed ∧
          (∀ e, sizeFault? w config source placed = some e →
            diagnostic.render w config mode = .error (.oversized e)) ∧
          (sizeFault? w config source placed = none →
            ∃ text, diagnostic.render w config mode = .ok text) ∧
          (config.tab ≤ Platform.maxLength → sizeFault? w config source placed = none)) := by
  refine ⟨fun hsource => render_of_build_error (build_noSource w config hsource) mode, ?_⟩
  intro source hsource
  have hmisfit : (∃ e, FirstMisfit diagnostic.labels source.length e) ↔
      ∃ label ∈ diagnostic.labels, ¬label.span.Fits source.length := by
    constructor
    · rintro ⟨e, hfirst⟩
      exact hfirst.exists_misfit
    · intro h
      obtain ⟨e, hfirst, -⟩ := render_misfit w config mode hsource h
      exact ⟨e, hfirst⟩
  refine ⟨fun e => ⟨fun hrender => ?_, fun hfirst => ?_⟩, hmisfit, fun hfits => ?_⟩
  · by_cases hfits : ∀ label ∈ diagnostic.labels, label.span.Fits source.length
    · obtain ⟨placed, -, hover, hok⟩ := render_fits w config mode hsource hfits
      cases hfault : sizeFault? w config source placed with
      | some fault =>
          rw [hover fault hfault] at hrender
          cases hrender
      | none =>
          obtain ⟨text, htext⟩ := hok hfault
          rw [htext] at hrender
          cases hrender
    · simp only [not_forall, exists_prop] at hfits
      obtain ⟨e', hfirst, herror⟩ := render_misfit w config mode hsource hfits
      rw [herror] at hrender
      cases hrender
      exact hfirst
  · obtain ⟨e', hfirst', herror⟩ := render_misfit w config mode hsource hfirst.exists_misfit
    rw [hfirst.unique hfirst', herror]
  · obtain ⟨placed, hlabels, hover, hok⟩ := render_fits w config mode hsource hfits
    exact ⟨placed, hlabels, hover, hok, sizeFault?_of_le w source placed⟩

/-- A tab at the start of the line on which its only label stands. -/
def tabbed : Diagnostic where
  title := ['t']
  source := some ⟨['\t', 'x'], none, none⟩
  labels := [⟨⟨0, 0⟩, none, none⟩]

section

attribute [local instance] Platform.usual

theorem render_outcome_tabbed :
    ({ tabbed with source := none }).render (fun _ => 1) .default .expanded = .error .noSource ∧
      ({ tabbed with labels := [⟨⟨0, 1⟩, none, none⟩, ⟨⟨1, 9⟩, none, none⟩] }).render
        (fun _ => 1) .default .compact =
          .error (.invalidSpan ⟨⟨1, 9⟩, some 1, .outOfBounds ⟨9, 2⟩⟩) ∧
      ∃ text, tabbed.render (fun _ => 1) .default .expanded = .ok text := by
  refine ⟨(render_outcome _ .default .expanded { tabbed with source := none }).1 rfl, ?_, ?_⟩
  · refine (((render_outcome _ .default .compact
      { tabbed with labels := [⟨⟨0, 1⟩, none, none⟩, ⟨⟨1, 9⟩, none, none⟩] }).2 _ rfl).1 _).2 ?_
    refine ⟨1, _, rfl, by decide, fun j hj earlier hearlier => ?_, rfl⟩
    cases j with
    | zero =>
        cases hearlier
        decide
    | succ j => omega
  · obtain ⟨placed, -, -, hok, hsmall⟩ :=
      ((render_outcome (fun _ => 1) .default .expanded tabbed).2 _ rfl).2.2 (by decide)
    exact hok (hsmall (by decide))

/-- Tab stops further apart than any index. -/
def wideTabs : Config where
  colorEnabled := false
  tabWidth := .number 1000000000000000000000000000000
  maxWidth := some 20
  inRange := by
    refine ⟨by decide, by decide, ?_, by decide⟩
    intro limit h
    cases h
    decide

/-- A label that fits is not enough for a text. -/
theorem tabbed_not_rendered : (∀ label ∈ tabbed.labels, label.span.Fits 2) ∧
    ∀ mode, ¬∃ text, tabbed.render (fun _ => 1) wideTabs mode = .ok text := by
  refine ⟨by decide, ?_⟩
  intro mode
  have herror : tabbed.render (fun _ => 1) wideTabs mode = .error (.oversized .notAnIndex) := by
    cases mode <;> rfl
  rintro ⟨text, htext⟩
  rw [herror] at htext
  cases htext

end

end Diagnostic
end Excerpt
