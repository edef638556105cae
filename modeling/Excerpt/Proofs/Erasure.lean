import Excerpt.Proofs.Passages

/-!
What a drawing reads of its labels. A label keeps the span that it was given in bytes, but once it
is placed only its lines and columns are looked at: labels that differ in their given spans alone
are laid out alike and drawn as the same rows, in both modes.
-/

namespace Excerpt

/-! ### Labels without their given spans -/

def Label.erase (label : Label) : Label := { label with span := ⟨0, 0⟩ }

def PlacedLabel.erase (lab : PlacedLabel) : PlacedLabel := { lab with label := lab.label.erase }

def Leader.erase (lead : Leader) : Leader := { lead with label := lead.label.erase }

def LineLayout.erase (line : LineLayout) : LineLayout :=
  { line with
    singles := line.singles.map fun (lab, rung) => (lab.erase, rung)
    starting := line.starting.map Leader.erase
    ending := line.ending.map Leader.erase
    through := line.through.map Leader.erase }

def Layout.erase (layout : Layout) : Layout :=
  { layout with
    labels := layout.labels.map PlacedLabel.erase
    leaders := layout.leaders.map Leader.erase
    groups := layout.groups.map fun group => group.map LineLayout.erase }

def Passage.erase : Passage → Passage
  | .line shown => .line shown.erase
  | .elision alive => .elision (alive.map Leader.erase)

@[simp] theorem Leader.erase_slot (lead : Leader) : lead.erase.slot = lead.slot := rfl

@[simp] theorem LineLayout.erase_starting (line : LineLayout) :
    line.erase.starting = line.starting.map Leader.erase := rfl

@[simp] theorem LineLayout.erase_ending (line : LineLayout) :
    line.erase.ending = line.ending.map Leader.erase := rfl

/-! ### Layouts -/

namespace Layout

variable (placed : List PlacedLabel)

theorem leadersOf_erase :
    leadersOf (placed.map PlacedLabel.erase) = (leadersOf placed).map Leader.erase := by
  have hfilter : (placed.map PlacedLabel.erase).filter (·.span.isMultiline) =
      (placed.filter (·.span.isMultiline)).map PlacedLabel.erase := List.filter_map
  simp only [leadersOf, hfilter, List.map_map, List.zip_map_left]
  rfl

theorem scheduleLine_erase (singles : List PlacedLabel) (through : List Nat) :
    scheduleLine (singles.map PlacedLabel.erase) through = scheduleLine singles through := by
  have hcolumns : (singles.map PlacedLabel.erase).map PlacedLabel.columns =
      singles.map PlacedLabel.columns := List.map_map
  simp only [scheduleLine, hcolumns, List.zip_map_left, List.foldl_map]
  rfl

theorem layLine_erase (leaders : List Leader) (number : Nat) (text : Text) :
    layLine (placed.map PlacedLabel.erase) (leaders.map Leader.erase) number text =
      (layLine placed leaders number text).erase := by
  simp only [layLine, LineLayout.erase, List.filter_map, scheduleLine_erase, List.map_map]
  rw [sortBy_map fun _ _ => rfl, sortBy_map fun _ _ => rfl]
  rfl

theorem commonIndent_erase (w : CellWidth) (lines : List LineLayout) :
    commonIndent w (lines.map LineLayout.erase) = commonIndent w lines := by
  simp only [commonIndent, List.filter_map, List.map_map]
  rfl

theorem shownRanges_erase (config : Config) (source : Source) :
    shownRanges config source (placed.map PlacedLabel.erase) =
      shownRanges config source placed := by
  simp only [shownRanges, List.map_map]
  rfl

theorem sizeFault?_erase [Platform] (w : CellWidth) (config : Config) (source : Source) :
    sizeFault? w config source (placed.map PlacedLabel.erase) =
      sizeFault? w config source placed := by
  rw [sizeFault?, sizeFault?, shownRanges_erase]

theorem ofPlaced_erase (w : CellWidth) (config : Config) (title : Text) (source : Source) :
    ofPlaced w config title source (placed.map PlacedLabel.erase) =
      (ofPlaced w config title source placed).erase := by
  have hline : shownLine w config source (placed.map PlacedLabel.erase) =
      LineLayout.erase ∘ shownLine w config source placed := by
    funext number
    simp only [shownLine, leadersOf_erase, layLine_erase, Function.comp]
  have hgroups : ((shownRanges config source placed).map fun range =>
      (lineNumbers range).map (LineLayout.erase ∘ shownLine w config source placed)) =
      ((shownRanges config source placed).map fun range =>
        (lineNumbers range).map (shownLine w config source placed)).map
          (List.map LineLayout.erase) := by
    simp only [List.map_map, Function.comp_def]
  simp only [ofPlaced, erase, shownRanges_erase, leadersOf_erase, hline, hgroups,
    ← List.map_flatten, commonIndent_erase, List.foldl_map]
  rfl

end Layout

/-! ### Margins -/

namespace Canvas

def erase (c : Canvas) : Canvas := { c with layout := c.layout.erase }

variable (c : Canvas) (active : ActiveLeaders)

theorem held_erase (slot : Nat) : ActiveLeaders.held (active.map Leader.erase) slot =
    (active.held slot).map Leader.erase := List.find?_map

theorem add_erase (lead : Leader) :
    ActiveLeaders.add (active.map Leader.erase) lead.erase =
      (active.add lead).map Leader.erase := by
  simp only [ActiveLeaders.add, List.map_cons, List.filter_map]
  rfl

theorem foldl_add_erase (leads : List Leader) :
    (leads.map Leader.erase).foldl ActiveLeaders.add (active.map Leader.erase) =
      (leads.foldl ActiveLeaders.add active).map Leader.erase := by
  induction leads generalizing active with
  | nil => rfl
  | cons lead leads ih => simp only [List.map_cons, List.foldl_cons, add_erase, ih]

theorem filter_erase (slot : Nat) :
    (active.map Leader.erase).filter (·.slot != slot) =
      (active.filter (·.slot != slot)).map Leader.erase := List.filter_map

theorem leaderCell_erase (slot : Nat) :
    c.erase.leaderCell (active.map Leader.erase) slot = c.leaderCell active slot := by
  simp only [leaderCell, held_erase]
  cases active.held slot <;> rfl

theorem margin_erase : c.erase.margin (active.map Leader.erase) = c.margin active := by
  simp only [margin, funext (leaderCell_erase c active)]
  rfl

theorem connectorCell_erase (marker : Leader) (corner : Text) (slot : Nat) :
    c.erase.connectorCell (active.map Leader.erase) marker.erase corner slot =
      c.connectorCell active marker corner slot := by
  simp only [connectorCell, leaderCell_erase, held_erase]
  cases active.held slot <;> rfl

theorem connector_erase (marker : Leader) (corner : Text) (col : Int) :
    c.erase.connector (active.map Leader.erase) marker.erase corner col =
      c.connector active marker corner col := by
  simp only [connector, connectorMargin, funext (connectorCell_erase c active marker corner)]
  rfl

theorem annotation_erase : c.erase.annotation (active.map Leader.erase) = c.annotation active := by
  simp only [ annotation, margin_erase]
  rfl

/-! ### Rows of one line -/

theorem leadersAbove_erase (line : LineLayout) :
    leadersAbove line.erase = (leadersAbove line).map Leader.erase := by
  have hpassing : line.erase.passing = line.passing.map Leader.erase := List.filter_map
  rw [leadersAbove, leadersAbove, hpassing, LineLayout.erase, ← List.map_append,
    ← foldl_add_erase, List.map_nil]

theorem sourceRow_erase (line : LineLayout) :
    c.erase.sourceRow (active.map Leader.erase) line.erase = c.sourceRow active line := by
  simp only [sourceRow, margin_erase]
  rfl

theorem caretRuns_erase (col : Int) (labs : List PlacedLabel) :
    c.erase.caretRuns col (labs.map PlacedLabel.erase) = c.caretRuns col labs := by
  induction labs generalizing col with
  | nil => rfl
  | cons lab labs ih =>
      simp only [List.map_cons, caretRuns, ih]
      rfl

theorem underlineSegments_erase (labs : List PlacedLabel) :
    c.erase.underlineSegments (active.map Leader.erase) (labs.map PlacedLabel.erase) =
      c.underlineSegments active labs := by
  simp only [underlineSegments, annotation_erase, caretRuns_erase]

theorem textRun_erase (lab : PlacedLabel) (piece : Text) (col : Int) (bars : List PlacedLabel) :
    c.erase.textRun lab.erase piece col (bars.map PlacedLabel.erase) =
      c.textRun lab piece col bars := by
  induction bars generalizing col with
  | nil => rfl
  | cons bar bars ih =>
      simp only [List.map_cons, textRun, ← ih]
      rfl

theorem textRows_erase (labs : List PlacedLabel) :
    c.erase.textRows (active.map Leader.erase) (labs.map PlacedLabel.erase) =
      c.textRows active labs := by
  induction labs with
  | nil => rfl
  | cons lab labs ih =>
      simp only [List.map_cons, textRows, ih, annotation_erase, ← List.map_reverse, textRun_erase]
      rfl

theorem onRung_erase (line : LineLayout) (rung : Nat) :
    line.erase.onRung rung = (line.onRung rung).map PlacedLabel.erase := by
  have hlabels : (line.erase.singles.filter (·.2 == rung)).map (·.1) =
      ((line.singles.filter (·.2 == rung)).map (·.1)).map PlacedLabel.erase := by
    simp only [LineLayout.erase, List.filter_map, List.map_map]
    rfl
  rw [LineLayout.onRung, LineLayout.onRung, hlabels, sortBy_map fun _ _ => rfl]
  rfl

theorem rungCount_erase (line : LineLayout) : line.erase.rungCount = line.rungCount := by
  simp only [LineLayout.rungCount, LineLayout.erase, List.foldl_map]

theorem expandedRung_erase (line : LineLayout) (rung : Nat) :
    c.erase.expandedRung (active.map Leader.erase) line.erase rung =
      c.expandedRung active line rung := by
  have htold : ((line.onRung rung).map PlacedLabel.erase).filter (!·.message.isEmpty) =
      ((line.onRung rung).filter (!·.message.isEmpty)).map PlacedLabel.erase := List.filter_map
  simp only [expandedRung, onRung_erase, underlineSegments_erase, htold, ← List.map_reverse,
    textRows_erase]

def Drawn.erase (drawn : Drawn) : Drawn :=
  { drawn with deferred := drawn.deferred.map PlacedLabel.erase }

theorem Drawn.erase_append (a b : Drawn) : (a ++ b).erase = a.erase ++ b.erase :=
  congrArg (Drawn.mk (a.rows ++ b.rows)) List.map_append

theorem sharing_erase (line : LineLayout) (lab : PlacedLabel) :
    c.erase.sharing line.erase lab.erase = (c.sharing line lab).map PlacedLabel.erase := by
  have hlabels : line.erase.singles.map (·.1) = (line.singles.map (·.1)).map PlacedLabel.erase := by
    simp only [LineLayout.erase, List.map_map]
    rfl
  rw [sharing, sharing, hlabels, sortBy_map fun _ _ => rfl, List.filter_map]
  rfl

theorem isPrimary_erase (line : LineLayout) (lab : PlacedLabel) :
    c.erase.isPrimary line.erase lab.erase = c.isPrimary line lab := by
  simp only [isPrimary, sharing_erase, List.head?_map, Option.map_map]
  rfl

theorem deferredOf_erase (labs : List PlacedLabel) :
    deferredOf (labs.map PlacedLabel.erase) = (deferredOf labs).map PlacedLabel.erase :=
  List.filter_map

theorem fusedText_erase (labs : List PlacedLabel) :
    fusedText (labs.map PlacedLabel.erase) = fusedText labs := by
  simp only [fusedText, List.map_map]
  rfl

theorem compactRung_erase (line : LineLayout) (rung : Nat) :
    c.erase.compactRung (active.map Leader.erase) line.erase rung =
      (c.compactRung active line rung).erase := by
  have hprimary : ((line.onRung rung).map PlacedLabel.erase).filter (c.erase.isPrimary line.erase) =
      ((line.onRung rung).filter (c.isPrimary line)).map PlacedLabel.erase := by
    rw [List.filter_map]
    simp only [Function.comp_def, isPrimary_erase]
  simp only [compactRung, onRung_erase, hprimary, List.getLast?_map, underlineSegments_erase,
    ← List.map_dropLast, List.flatMap_map, sharing_erase, deferredOf_erase]
  cases ((line.onRung rung).filter (c.isPrimary line)).getLast? with
  | none => rfl
  | some last =>
      simp only [Option.map_some, sharing_erase, fusedText_erase, deferredOf_erase,
        ← List.map_flatMap, ← List.map_append]
      rw [apply_ite Drawn.erase]
      rfl

theorem labelRows_erase (mode : Mode) (line : LineLayout) :
    c.erase.labelRows mode (active.map Leader.erase) line.erase =
      (c.labelRows mode active line).erase := by
  cases mode with
  | expanded =>
      simp only [labelRows, rungCount_erase, funext (expandedRung_erase c active line)]
      rfl
  | compact =>
      have hrungs : ∀ (rungs : List Nat) (drawn : Drawn),
          rungs.foldl (fun drawn rung => drawn ++ (c.compactRung active line rung).erase)
            drawn.erase =
            (rungs.foldl (fun drawn rung => drawn ++ c.compactRung active line rung)
              drawn).erase := by
        intro rungs drawn
        induction rungs generalizing drawn with
        | nil => rfl
        | cons rung rungs ih => rw [List.foldl_cons, List.foldl_cons, ← ih, Drawn.erase_append]
      simp only [labelRows, rungCount_erase, compactRung_erase]
      exact hrungs _ {}

theorem startRows_erase (leads : List Leader) :
    (c.erase.startRows (active.map Leader.erase) (leads.map Leader.erase)).1 =
      (c.startRows active leads).1 := by
  induction leads generalizing active with
  | nil => rfl
  | cons lead leads ih =>
      simp only [List.map_cons, startRows, startRow, add_erase, ih, connector_erase]
      rfl

theorem endMarker_erase (lead : Leader) :
    c.erase.endMarker (active.map Leader.erase) lead.erase = c.endMarker active lead := by
  simp only [endMarker, connector_erase]
  rfl

theorem endPiece_erase (lead : Leader) :
    c.erase.endPiece (active.map Leader.erase) lead.erase = c.endPiece active lead := by
  funext piece
  simp only [endPiece, annotation_erase]
  rfl

theorem endDrawn_erase (mode : Mode) (after : ActiveLeaders) (lead : Leader) :
    c.erase.endDrawn mode (active.map Leader.erase) (after.map Leader.erase) lead.erase =
      (c.endDrawn mode active after lead).erase := by
  by_cases htext : lead.message = []
  · rw [c.erase.endDrawn_silent _ _ (show lead.erase.message = [] from htext),
      c.endDrawn_silent active after htext, endMarker_erase]
    rfl
  · have htext' : lead.erase.message ≠ [] := htext
    cases mode with
    | expanded =>
        obtain ⟨first, rest, hwrap, hdrawn⟩ := c.endDrawn_expanded active after htext
        obtain ⟨first', rest', hwrap', hdrawn'⟩ := c.erase.endDrawn_expanded
          (active.map Leader.erase) (after.map Leader.erase) htext'
        obtain ⟨rfl, rfl⟩ := List.cons.inj (hwrap'.symm.trans hwrap)
        rw [hdrawn, hdrawn', endMarker_erase, endPiece_erase]
        rfl
    | compact =>
        rw [c.erase.endDrawn_compact _ _ htext', c.endDrawn_compact active after htext,
          endMarker_erase, apply_ite Drawn.erase]
        exact congrArg (ite _ _) (congrArg (Drawn.mk _) (deferredOf_erase [lead.toPlacedLabel]))

theorem endsDrawn_erase (mode : Mode) (leads : List Leader) :
    c.erase.endsDrawn mode (active.map Leader.erase) (leads.map Leader.erase) =
      (c.endsDrawn mode active leads).erase := by
  induction leads generalizing active with
  | nil => rfl
  | cons lead leads ih =>
      simp only [List.map_cons, endsDrawn, Leader.erase_slot, filter_erase, ih, endDrawn_erase,
        Drawn.erase_append]

theorem lineDrawn_erase (mode : Mode) (line : LineLayout) :
    c.erase.lineDrawn mode line.erase = (c.lineDrawn mode line).erase := by
  simp only [lineDrawn, leadersAbove_erase, sourceRow_erase, labelRows_erase,
    LineLayout.erase_starting, LineLayout.erase_ending, startRows_erase, foldl_add_erase,
    endsDrawn_erase, Drawn.erase_append]
  rfl

/-! ### The whole picture -/

theorem leadersBelow_erase (line : LineLayout) :
    leadersBelow line.erase = (leadersBelow line).map Leader.erase := by
  have hfree : ∀ (leads : List Leader) (active : ActiveLeaders),
      (leads.map Leader.erase).foldl (fun active lead => active.filter (·.slot != lead.slot))
        (active.map Leader.erase) =
      (leads.foldl (fun active lead => active.filter (·.slot != lead.slot)) active).map
        Leader.erase := by
    intro leads active
    induction leads generalizing active with
    | nil => rfl
    | cons lead leads ih =>
        simp only [List.map_cons, List.foldl_cons, Leader.erase_slot, filter_erase, ih]
  simp only [leadersBelow, leadersAbove_erase, LineLayout.erase_starting,
    LineLayout.erase_ending, foldl_add_erase, hfree]

theorem leadersAfter_erase (lines : List LineLayout) :
    leadersAfter (active.map Leader.erase) (lines.map LineLayout.erase) =
      (leadersAfter active lines).map Leader.erase := by
  induction lines generalizing active with
  | nil => rfl
  | cons line lines ih =>
      simp only [leadersAfter, List.map_cons, List.foldl_cons, leadersBelow_erase] at ih ⊢
      exact ih _

theorem passagesAfter_erase (groups : List (List LineLayout)) :
    passagesAfter (active.map Leader.erase) (groups.map (List.map LineLayout.erase)) =
      (passagesAfter active groups).map Passage.erase := by
  induction groups generalizing active with
  | nil => rfl
  | cons group groups ih =>
      simp only [List.map_cons, passagesAfter, leadersAfter_erase, ih, List.map_append,
        List.map_map]
      rfl

theorem passages_erase (groups : List (List LineLayout)) :
    passages (groups.map (List.map LineLayout.erase)) = (passages groups).map Passage.erase := by
  cases groups with
  | nil => rfl
  | cons group groups =>
      have hafter := leadersAfter_erase [] group
      rw [List.map_nil] at hafter
      simp only [List.map_cons, passages, hafter, passagesAfter_erase, List.map_append,
        List.map_map]
      rfl

theorem passageDrawn_erase (mode : Mode) (part : Passage) :
    c.erase.passageDrawn mode part.erase = (c.passageDrawn mode part).erase := by
  cases part with
  | line line => exact c.lineDrawn_erase mode line
  | elision alive =>
      simp only [Passage.erase, passageDrawn, elisionRow, margin_erase]
      rfl

/-- The same rows, with the same labels left over. -/
theorem picture_erase (mode : Mode) : c.erase.picture mode = (c.picture mode).erase := by
  have hgroups : c.erase.layout.groups = c.layout.groups.map (List.map LineLayout.erase) := rfl
  simp only [picture, drawnOf, hgroups, passages_erase, List.flatMap_map, passageDrawn_erase,
    Drawn.erase, List.map_flatMap]

theorem items_erase (labs : List PlacedLabel) :
    c.erase.items (labs.map PlacedLabel.erase) = c.items labs := by
  rw [items, items, sortBy_map fun _ _ => rfl, List.flatMap_map]
  rfl

end Canvas
/-! ### Renderings -/

/-- Labels that differ in their given spans alone, and are placed alike, are placed at once. -/
theorem Layout.placeLabels_congr {w : CellWidth} {tab : Int} {index : LineIndex}
    {labels others : List Label} (h : List.Forall₂ (fun a b => a.erase = b.erase ∧
      resolveSpan w tab index a.span = resolveSpan w tab index b.span) labels others)
    (position : Nat) {placed : List PlacedLabel}
    (hplaced : placeLabels w tab index position labels = .ok placed) :
    ∃ placed', placeLabels w tab index position others = .ok placed' ∧
      placed'.map PlacedLabel.erase = placed.map PlacedLabel.erase := by
  induction h generalizing position placed with
  | nil => exact ⟨placed, hplaced, rfl⟩
  | @cons a b labels others hab _ ih =>
      obtain ⟨herase, hspan⟩ := hab
      simp only [placeLabels] at hplaced ⊢
      rw [← hspan]
      cases hresolved : resolveSpan w tab index a.span with
      | error e =>
          rw [hresolved] at hplaced
          cases e <;> cases hplaced
      | ok span =>
          rw [hresolved] at hplaced
          cases hrest : placeLabels w tab index (position + 1) labels with
          | error e =>
              rw [hrest] at hplaced
              cases hplaced
          | ok rest =>
              rw [hrest] at hplaced
              cases hplaced
              obtain ⟨rest', hrest', hsame⟩ := ih (position + 1) hrest
              refine ⟨⟨position, b, span⟩ :: rest', by rw [hrest']; rfl, ?_⟩
              simp only [List.map_cons, hsame, PlacedLabel.erase, herase]

namespace Diagnostic

variable {w : CellWidth} {config : Config} {diagnostic : Diagnostic} {layout : Layout}

theorem rows_erase [Platform] (hlayout : Layout.build w config diagnostic = .ok layout)
    (mode : Mode) :
    Rendering.rows w config mode diagnostic = .ok (Rendering.headRows config mode layout.erase ++
      (Canvas.picture ⟨w, config, layout.erase⟩ mode).rows ++
      Canvas.items ⟨w, config, layout.erase⟩
        (Canvas.picture ⟨w, config, layout.erase⟩ mode).deferred ++
      Rendering.footRows w config mode layout.erase diagnostic.footnotes) := by
  have hpicture := Canvas.picture_erase ⟨w, config, layout⟩ mode
  have hitems := Canvas.items_erase ⟨w, config, layout⟩
    (Canvas.picture ⟨w, config, layout⟩ mode).deferred
  rw [Canvas.erase] at hpicture hitems
  rw [Rendering.rows_eq hlayout mode, hpicture, Canvas.Drawn.erase, hitems]
  cases mode <;> rfl

/-- Diagnostics whose labels are placed alike are rendered alike. -/
theorem render_congr [Platform] {other : Diagnostic} {source : Source}
    {placed placed' : List PlacedLabel} (hsource : diagnostic.source = some source)
    (hsource' : other.source = some source) (htitle : diagnostic.title = other.title)
    (hfootnotes : diagnostic.footnotes = other.footnotes)
    (hlabels : Layout.placeLabels w config.tab source.index 0 diagnostic.labels = .ok placed)
    (hlabels' : Layout.placeLabels w config.tab source.index 0 other.labels = .ok placed')
    (hplaced : ∀ lab ∈ placed, lab.span.Within source.lineCount)
    (hplaced' : ∀ lab ∈ placed', lab.span.Within source.lineCount)
    (h : placed.map PlacedLabel.erase = placed'.map PlacedLabel.erase) (mode : Mode) :
    diagnostic.render w config mode = other.render w config mode := by
  have hbuild := Layout.build_of_placed w hsource hlabels hplaced
  have hbuild' := Layout.build_of_placed w hsource' hlabels' hplaced'
  have hfault : Layout.sizeFault? w config source placed' =
      Layout.sizeFault? w config source placed := by
    rw [← Layout.sizeFault?_erase, ← h, Layout.sizeFault?_erase]
  rw [hfault] at hbuild'
  cases hfault : Layout.sizeFault? w config source placed with
  | some e =>
      rw [hfault] at hbuild hbuild'
      rw [render_of_build_error hbuild, render_of_build_error hbuild']
  | none =>
      rw [hfault] at hbuild hbuild'
      rw [render, render, rows_erase hbuild, rows_erase hbuild', ← Layout.ofPlaced_erase,
        ← Layout.ofPlaced_erase, h, htitle, hfootnotes]

end Diagnostic
end Excerpt
