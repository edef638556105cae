import Excerpt.Proofs.Groups
import Excerpt.Proofs.Placement
import Excerpt.Proofs.Stacking

/-!
A layout as a value. Once the labels are placed, only a tab that stands for too many spaces on a
shown line keeps a layout from being made; the layout that is made then is written down here, and
what its lines know of their labels is read off it.
-/

namespace Excerpt

/-- A value, unless a text is too long. -/
def unlessOversized {α : Type} (fault : Option SizeError) (value : α) : Except RenderError α :=
  match fault with
  | some e => .error (.oversized e)
  | none => .ok value

/-- Working through a list stops at the first fault. -/
theorem mapM_unlessOversized {α β : Type} {f : α → Except RenderError β}
    {fault : α → Option SizeError} {g : α → β} {l : List α}
    (h : ∀ a ∈ l, f a = unlessOversized (fault a) (g a)) :
    l.mapM f = unlessOversized (l.findSome? fault) (l.map g) := by
  induction l with
  | nil => rfl
  | cons a l ih =>
      obtain ⟨ha, hl⟩ := List.forall_mem_cons.1 h
      rw [List.mapM_cons, ha, List.findSome?_cons, ih hl]
      cases fault a with
      | some e => rfl
      | none => cases l.findSome? fault <;> rfl

namespace Layout

def lineRange (lab : PlacedLabel) : LineRange := ⟨lab.span.startLine, lab.span.endLine⟩

/-- The ranges of lines that are shown for placed labels. -/
def shownRanges (config : Config) (source : Source) (placed : List PlacedLabel) :
    List LineRange :=
  groupLines (placed.map lineRange) source.lineCount config.context config.gap

/-- The text of a line of a source, which is empty for a line that there is not. -/
def lineText (source : Source) (number : Nat) : Text :=
  match source.line number with
  | .ok text => text
  | .error _ => []

/-- What is wrong with the first tab on a shown line that stands for too many spaces. -/
def sizeFault? [Platform] (w : CellWidth) (config : Config) (source : Source)
    (placed : List PlacedLabel) :
    Option SizeError :=
  (shownRanges config source placed).findSome? fun range =>
    (lineNumbers range).findSome? fun number =>
      (tabRuns w config.tab 0 none (lineText source number)).findSome? sizeError?

def shownLine (w : CellWidth) (config : Config) (source : Source) (placed : List PlacedLabel)
    (number : Nat) : LineLayout :=
  layLine placed (leadersOf placed) number (expandTabs w config.tab (lineText source number))

/-- The layout of placed labels. -/
def ofPlaced (w : CellWidth) (config : Config) (title : Text) (source : Source)
    (placed : List PlacedLabel) : Layout :=
  let groups := (shownRanges config source placed).map fun range =>
    (lineNumbers range).map (shownLine w config source placed)
  { title, source, groups
    labels := placed
    leaders := leadersOf placed
    slotCount := (leadersOf placed).foldl (fun count lead => max count (lead.slot + 1)) 0
    numberWidth := (toString ((((shownRanges config source placed).getLast?).map
      LineRange.last).getD 0 + 1)).length
    indentTrim := if config.trimIndent then commonIndent w groups.flatten else 0 }

theorem mem_lineNumbers {range : LineRange} {number : Nat} (hfirst : 0 ≤ range.first) :
    number ∈ lineNumbers range ↔ range.first ≤ number ∧ number ≤ range.last := by
  simp only [lineNumbers, List.mem_map, List.mem_range]
  constructor
  · rintro ⟨k, hk, rfl⟩
    omega
  · rintro ⟨hlow, hhigh⟩
    exact ⟨number - range.first.toNat, by omega, by omega⟩

variable {w : CellWidth} {config : Config} {source : Source} {placed : List PlacedLabel}

theorem indentTrim_ofPlaced (htrim : config.trimIndent = false) (title : Text) :
    (ofPlaced w config title source placed).indentTrim = 0 := by
  rw [ofPlaced, htrim]
  rfl

theorem shownRanges_within (hplaced : ∀ lab ∈ placed, lab.span.Within source.lineCount) :
    ∀ range ∈ shownRanges config source placed, range.Within source.lineCount := by
  refine groupLines_within _ ?_ config.context_nonneg
  intro range hrange
  obtain ⟨lab, hlab, rfl⟩ := List.mem_map.1 hrange
  obtain ⟨hrising, hbelow, -⟩ := hplaced lab hlab
  refine ⟨?_, ?_, ?_⟩ <;> simp only [lineRange] <;> omega

/-- All lines of a label are shown in one group. -/
theorem exists_range_of_mem (hplaced : ∀ lab ∈ placed, lab.span.Within source.lineCount)
    {lab : PlacedLabel} (hlab : lab ∈ placed) :
    ∃ range ∈ shownRanges config source placed, range.first ≤ lab.span.startLine ∧
      lab.span.endLine ≤ range.last := by
  have hranges : ∀ range ∈ placed.map lineRange, range.Within source.lineCount := by
    intro range hrange
    obtain ⟨lab, hlab, rfl⟩ := List.mem_map.1 hrange
    obtain ⟨hrising, hbelow, -⟩ := hplaced lab hlab
    refine ⟨?_, ?_, ?_⟩ <;> simp only [lineRange] <;> omega
  exact groupLines_holds config.gap hranges config.context_nonneg _ (List.mem_map_of_mem hlab)

theorem shown_line_ok (hplaced : ∀ lab ∈ placed, lab.span.Within source.lineCount)
    {range : LineRange} (hrange : range ∈ shownRanges config source placed) {number : Nat}
    (hnumber : number ∈ lineNumbers range) :
    number < source.lineCount ∧ source.line number = .ok (lineText source number) := by
  obtain ⟨hfirst, hle, hlast⟩ := shownRanges_within hplaced range hrange
  have hlt : number < source.lineCount := by
    have := (mem_lineNumbers hfirst).1 hnumber
    omega
  obtain ⟨text, htext⟩ := LineIndex.line_ofText_of_lt (s := source.text) hlt
  have hline : source.line number = .ok text := htext
  exact ⟨hlt, by simp only [lineText, hline]⟩

private theorem layLine_expandTabs? [Platform] (w : CellWidth) (tab : Int) (text : Text)
    (lay : Text → LineLayout) :
    ((expandTabs? w tab text).map lay).mapError RenderError.oversized =
      unlessOversized ((tabRuns w tab 0 none text).findSome? sizeError?)
        (lay (expandTabs w tab text)) := by
  simp only [expandTabs?]
  cases (tabRuns w tab 0 none text).findSome? sizeError? <;> rfl

/-- Placed labels have a layout unless a tab on a shown line is too wide. -/
theorem build_of_placed [Platform] (w : CellWidth) {config : Config} {diagnostic : Diagnostic}
    {source : Source} {placed : List PlacedLabel} (hsource : diagnostic.source = some source)
    (hlabels : placeLabels w config.tab source.index 0 diagnostic.labels = .ok placed)
    (hplaced : ∀ lab ∈ placed, lab.span.Within source.lineCount) :
    build w config diagnostic = unlessOversized (sizeFault? w config source placed)
      (ofPlaced w config diagnostic.title source placed) := by
  simp only [build, hsource]
  rw [hlabels, ok_bind]
  have hline : ∀ range ∈ shownRanges config source placed, ∀ number ∈ lineNumbers range,
      source.index.line (number : Nat) = .ok (lineText source number) :=
    fun range hrange number hnumber => (shown_line_ok hplaced hrange hnumber).2
  refine Eq.trans (congrArg (fun groups => groups >>= _)
    (mapM_unlessOversized fun range hrange => mapM_unlessOversized fun number hnumber =>
      Eq.trans ?_ (layLine_expandTabs? w config.tab (lineText source number)
        (layLine placed (leadersOf placed) number)))) ?_
  · rw [hline range hrange number hnumber]
  · change unlessOversized (sizeFault? w config source placed) _ >>= _ = _
    cases sizeFault? w config source placed <;> rfl

theorem build_noSource [Platform] (w : CellWidth) (config : Config) {diagnostic : Diagnostic}
    (hsource : diagnostic.source = none) : build w config diagnostic = .error .noSource := by
  simp only [build, hsource]
  rfl

/-- The first label that does not fit keeps a layout from being made. -/
theorem build_misfit [Platform] (w : CellWidth) (config : Config) {diagnostic : Diagnostic}
    {source : Source} (hsource : diagnostic.source = some source)
    (h : ∃ label ∈ diagnostic.labels, ¬label.span.Fits source.length) :
    ∃ e, FirstMisfit diagnostic.labels source.length e ∧
      build w config diagnostic = .error (.invalidSpan e) := by
  obtain ⟨e, hfirst, herror⟩ := placeLabels_firstMisfit w config.tab h
  have hlabels : placeLabels w config.tab source.index 0 diagnostic.labels =
      .error (.invalidSpan e) := herror
  refine ⟨e, hfirst, ?_⟩
  simp only [build, hsource, hlabels]
  rfl

theorem exists_placed (w : CellWidth) (tab : Int) (source : Source) {labels : List Label}
    (h : ∀ label ∈ labels, label.span.Fits source.length) :
    ∃ placed, placeLabels w tab source.index 0 labels = .ok placed ∧
      (placed.map PlacedLabel.index).Nodup ∧
      ∀ lab ∈ placed, lab.span.Within source.lineCount := by
  obtain ⟨placed, hplaced, hindex, hall⟩ := placeLabels_ok w tab 0 h
  refine ⟨placed, hplaced, ?_, fun lab hlab => (hall lab hlab).within⟩
  rw [hindex]
  exact List.nodup_range'

theorem exists_of_build_ok [Platform] {w : CellWidth} {config : Config} {diagnostic : Diagnostic}
    {layout : Layout} (h : build w config diagnostic = .ok layout) :
    ∃ source placed, diagnostic.source = some source ∧
      placeLabels w config.tab source.index 0 diagnostic.labels = .ok placed ∧
      (placed.map PlacedLabel.index).Nodup ∧ (∀ lab ∈ placed, lab.span.Within source.lineCount) ∧
      layout = ofPlaced w config diagnostic.title source placed := by
  cases hsource : diagnostic.source with
  | none =>
      rw [build_noSource w config hsource] at h
      cases h
  | some source =>
      by_cases hfits : ∀ label ∈ diagnostic.labels, label.span.Fits source.length
      · obtain ⟨placed, hlabels, hindex, hwithin⟩ := exists_placed w config.tab source hfits
        refine ⟨source, placed, rfl, hlabels, hindex, hwithin, ?_⟩
        rw [build_of_placed w hsource hlabels hwithin] at h
        cases hfault : sizeFault? w config source placed with
        | some e =>
            rw [hfault] at h
            cases h
        | none =>
            rw [hfault] at h
            exact (Except.ok.inj h).symm
      · obtain ⟨label, hmem⟩ := not_forall.1 hfits
        obtain ⟨hlabel, hmisfit⟩ := Classical.not_imp.1 hmem
        obtain ⟨e, -, herror⟩ := build_misfit w config hsource ⟨label, hlabel, hmisfit⟩
        rw [herror] at h
        cases h

theorem exists_number_of_mem_lines {title : Text} {line : LineLayout}
    (h : line ∈ (ofPlaced w config title source placed).lines) :
    ∃ range ∈ shownRanges config source placed, ∃ number ∈ lineNumbers range,
      line = shownLine w config source placed number := by
  obtain ⟨group, hgroup, hline⟩ := List.mem_flatten.1 h
  obtain ⟨range, hrange, rfl⟩ := List.mem_map.1 hgroup
  obtain ⟨number, hnumber, rfl⟩ := List.mem_map.1 hline
  exact ⟨range, hrange, number, hnumber, rfl⟩

theorem text_eq_of_mem_lines (hplaced : ∀ lab ∈ placed, lab.span.Within source.lineCount)
    {title : Text} {line : LineLayout}
    (h : line ∈ (ofPlaced w config title source placed).lines) :
    ∃ text, source.line line.number = .ok text ∧ line.text = expandTabs w config.tab text := by
  obtain ⟨range, hrange, number, hnumber, rfl⟩ := exists_number_of_mem_lines h
  exact ⟨_, (shown_line_ok hplaced hrange hnumber).2, rfl⟩

theorem tab_not_mem_of_mem_lines {title : Text} {line : LineLayout}
    (h : line ∈ (ofPlaced w config title source placed).lines) : '\t' ∉ line.text := by
  obtain ⟨-, -, number, -, rfl⟩ := exists_number_of_mem_lines h
  exact not_mem_expandFrom w config.tab 0 none _

end Layout
end Excerpt
