import Excerpt.Proofs.Outcome

/-!
A drawing as one expression. When no two leaders of a line are in one slot the drawing cannot fail,
and its rows are those of its lines and of the elisions between groups, one after another. Which
lines and elisions there are, and which leaders are alive on them, is the same in both modes.
-/

namespace Excerpt

open ActiveLeaders

/-- A line with all that belongs to it, or the gap between two groups. -/
inductive Passage where
  | line (line : LineLayout)
  | elision (alive : ActiveLeaders)

/-- The line of a passage that has one. -/
def Passage.toList : Passage → List LineLayout
  | .line shown => [shown]
  | .elision _ => []

namespace Canvas

/-- The leaders alive below a line. -/
def leadersBelow (line : LineLayout) : ActiveLeaders :=
  line.ending.foldl (fun active lead => active.filter (·.slot != lead.slot))
    (line.starting.foldl add (leadersAbove line))

/-- The leaders alive below lines, of which only the last one matters. -/
def leadersAfter (active : ActiveLeaders) (lines : List LineLayout) : ActiveLeaders :=
  lines.foldl (fun _ line => leadersBelow line) active

/-- The groups after the first, each below an elision. -/
def passagesAfter : ActiveLeaders → List (List LineLayout) → List Passage
  | _, [] => []
  | active, group :: rest =>
    .elision active :: (group.map .line ++ passagesAfter (leadersAfter active group) rest)

def passages : List (List LineLayout) → List Passage
  | [] => []
  | group :: rest => group.map .line ++ passagesAfter (leadersAfter [] group) rest

variable (c : Canvas) (mode : Mode)

/-- The marker and the text at the end of a label. -/
def endDrawn (active after : ActiveLeaders) (lead : Leader) : Drawn :=
  (c.endRows mode active after lead).toOption.getD {}

def endsDrawn : ActiveLeaders → List Leader → Drawn
  | _, [] => {}
  | active, lead :: rest =>
    let after := active.filter (·.slot != lead.slot)
    c.endDrawn mode active after lead ++ endsDrawn after rest

def lineDrawn (line : LineLayout) : Drawn :=
  { rows := [c.sourceRow (leadersAbove line) line] } ++ c.labelRows mode (leadersAbove line) line ++
    { rows := (c.startRows (leadersAbove line) line.starting).1 } ++
    c.endsDrawn mode (line.starting.foldl add (leadersAbove line)) line.ending

def passageDrawn : Passage → Drawn
  | .line line => c.lineDrawn mode line
  | .elision alive => { rows := [c.elisionRow alive] }

def drawnOf (parts : List Passage) : Drawn :=
  ⟨parts.flatMap fun part => (c.passageDrawn mode part).rows,
    parts.flatMap fun part => (c.passageDrawn mode part).deferred⟩

/-- The whole excerpt. -/
def picture : Drawn := c.drawnOf mode (passages c.layout.groups)

theorem append_deferred (a b : Drawn) : (a ++ b).deferred = a.deferred ++ b.deferred := rfl

theorem Drawn.append_assoc (a b d : Drawn) : a ++ b ++ d = a ++ (b ++ d) := by
  refine congrArg₂ Drawn.mk ?_ ?_
  · exact List.append_assoc a.rows b.rows d.rows
  · exact List.append_assoc a.deferred b.deferred d.deferred

theorem drawnOf_cons (part : Passage) (parts : List Passage) :
    c.drawnOf mode (part :: parts) = c.passageDrawn mode part ++ c.drawnOf mode parts := rfl

theorem drawnOf_append (parts others : List Passage) :
    c.drawnOf mode (parts ++ others) = c.drawnOf mode parts ++ c.drawnOf mode others := by
  refine congrArg₂ Drawn.mk ?_ ?_
  · exact List.flatMap_append
  · exact List.flatMap_append

theorem endRows_eq (active after : ActiveLeaders) (lead : Leader) :
    c.endRows mode active after lead = .ok (c.endDrawn mode active after lead) := by
  obtain ⟨drawn, -, hdrawn, -⟩ := c.draws_endRows mode active after lead
  rw [endDrawn, hdrawn]
  rfl

theorem endAll_eq {active : ActiveLeaders} {leads : List Leader}
    (halive : ∀ lead ∈ leads, active.Holds lead) (hslots : (leads.map Leader.slot).Nodup) :
    c.endAll mode active leads = .ok (c.endsDrawn mode active leads,
      leads.foldl (fun active lead => active.filter (·.slot != lead.slot)) active) := by
  induction leads generalizing active with
  | nil => rfl
  | cons lead leads ih =>
      obtain ⟨hlead, hleads⟩ := List.forall_mem_cons.1 halive
      obtain ⟨hout, hrest⟩ := List.nodup_cons.1 hslots
      have hfree := free_of_holds hlead
      have hstill : ∀ other ∈ leads, Holds (active.filter (·.slot != lead.slot)) other := by
        intro other hother
        refine (holds_of_free hfree).2 ⟨fun heq => hout ?_, hleads other hother⟩
        exact heq ▸ List.mem_map_of_mem hother
      simp only [endAll, hfree, c.endRows_eq, ih hstill hrest, ok_bind]
      rfl

theorem startRows_snd (active : ActiveLeaders) (leads : List Leader) :
    (c.startRows active leads).2 = leads.foldl add active := (c.draws_startRows active leads).2

theorem drawLine_eq {line : LineLayout} (h : line.SlotsApart) :
    c.drawLine mode line = .ok (c.lineDrawn mode line, leadersBelow line) := by
  have hslots := h
  rw [LineLayout.SlotsApart, LineLayout.leaders, List.map_append, List.map_append,
    List.nodup_append, List.nodup_append] at hslots
  obtain ⟨⟨-, hending, -⟩, hstarting, hacross⟩ := hslots
  have halive : ∀ lead ∈ line.ending,
      Holds (line.starting.foldl add (leadersAbove line)) lead := by
    intro lead hlead
    refine (holds_foldl_add hstarting).2 (.inr ⟨(holds_leadersAbove h).2 (.inr hlead), ?_⟩)
    intro hmem
    exact hacross _ (List.mem_append_right _ (List.mem_map_of_mem hlead)) _ hmem rfl
  simp only [drawLine, c.startRows_snd, c.endAll_eq mode halive hending, ok_bind]
  rfl

theorem drawGroup_eq {lines : List LineLayout} (active : ActiveLeaders)
    (h : ∀ line ∈ lines, line.SlotsApart) :
    c.drawGroup mode active lines =
      .ok (c.drawnOf mode (lines.map .line), leadersAfter active lines) := by
  induction lines generalizing active with
  | nil => rfl
  | cons line lines ih =>
      obtain ⟨hline, hlines⟩ := List.forall_mem_cons.1 h
      simp only [drawGroup, c.drawLine_eq mode hline, ih _ hlines, ok_bind]
      rfl

theorem drawRest_eq {groups : List (List LineLayout)} (active : ActiveLeaders)
    (h : ∀ group ∈ groups, ∀ line ∈ group, line.SlotsApart) :
    c.drawRest mode active groups = .ok (c.drawnOf mode (passagesAfter active groups)) := by
  induction groups generalizing active with
  | nil => rfl
  | cons group groups ih =>
      obtain ⟨hgroup, hgroups⟩ := List.forall_mem_cons.1 h
      simp only [drawRest, c.drawGroup_eq mode active hgroup, ih _ hgroups, ok_bind]
      rw [passagesAfter, drawnOf_cons, drawnOf_append, ← Drawn.append_assoc]
      rfl

/-- When no two leaders of a line are in one slot, the drawing is that of its passages. -/
theorem draw_eq (h : ∀ line ∈ c.layout.lines, line.SlotsApart) :
    c.draw mode = .ok (c.picture mode) := by
  have hlines : ∀ group ∈ c.layout.groups, ∀ line ∈ group, line.SlotsApart :=
    fun group hgroup line hline => h line (List.mem_flatten_of_mem hgroup hline)
  rw [draw, picture]
  cases hgroups : c.layout.groups with
  | nil => rfl
  | cons group groups =>
      rw [hgroups] at hlines
      obtain ⟨hgroup, hrest⟩ := List.forall_mem_cons.1 hlines
      simp only [c.drawGroup_eq mode [] hgroup, c.drawRest_eq mode _ hrest, ok_bind]
      rw [passages, drawnOf_append]
      rfl

theorem flatMap_passagesAfter {β : Type} (f : Passage → List β)
    (hf : ∀ alive, f (.elision alive) = []) (active : ActiveLeaders)
    (groups : List (List LineLayout)) :
    (passagesAfter active groups).flatMap f =
      groups.flatten.flatMap fun line => f (.line line) := by
  induction groups generalizing active with
  | nil => rfl
  | cons group groups ih =>
      rw [passagesAfter, List.flatMap_cons, hf, List.nil_append, List.flatMap_append, ih,
        List.flatMap_map, List.flatten_cons, List.flatMap_append]

/-- What elisions add nothing to is read off the lines alone. -/
theorem flatMap_passages {β : Type} (f : Passage → List β) (hf : ∀ alive, f (.elision alive) = [])
    (groups : List (List LineLayout)) :
    (passages groups).flatMap f = groups.flatten.flatMap fun line => f (.line line) := by
  cases groups with
  | nil => rfl
  | cons group groups =>
      rw [passages, List.flatMap_append, flatMap_passagesAfter f hf, List.flatMap_map,
        List.flatten_cons, List.flatMap_append]

theorem mem_passages_iff {groups : List (List LineLayout)} {line : LineLayout} :
    .line line ∈ passages groups ↔ line ∈ groups.flatten := by
  have hlines : (passages groups).flatMap Passage.toList =
      groups.flatten.flatMap fun line => [line] :=
    flatMap_passages Passage.toList (fun _ => rfl) groups
  rw [List.flatMap_singleton'] at hlines
  rw [← hlines, List.mem_flatMap]
  constructor
  · exact fun h => ⟨_, h, List.mem_singleton_self line⟩
  · rintro ⟨part, hpart, hline⟩
    cases part with
    | line other => exact List.mem_singleton.1 hline ▸ hpart
    | elision alive => exact absurd hline List.not_mem_nil

/-- The rows of some kinds, of which elisions are none, are those of the lines. -/
theorem filter_picture {p : RowKind → Bool} (hp : p .elision = false) :
    (c.picture mode).rows.filter (fun row => p row.kind) =
      c.layout.lines.flatMap fun line =>
        (c.lineDrawn mode line).rows.filter fun row => p row.kind := by
  have hpicture : (c.picture mode).rows.filter (fun row => p row.kind) =
      (passages c.layout.groups).flatMap fun part =>
        (c.passageDrawn mode part).rows.filter fun row => p row.kind := List.filter_flatMap
  rw [hpicture, flatMap_passages _ fun alive => List.filter_cons_of_neg (by simp [elisionRow,
    Row.trimmed, hp])]
  rfl

/-- The row with the marker at the end of a label, before any text. -/
def endMarker (active : ActiveLeaders) (lead : Leader) : Row :=
  ⟨.connector, c.connector active lead c.charset.bottomCorner (c.drawnCol lead.span.markerCol)⟩

/-- A further piece of the text at the end of a label. -/
def endPiece (after : ActiveLeaders) (lead : Leader) (piece : Text) : Row :=
  Row.trimmed ⟨.text, c.annotation after ++ Segment.pad (c.drawnCol lead.span.markerCol + 2) ++
    Segment.run piece (some (c.multiStyle lead))⟩

section End

variable {mode} (active after : ActiveLeaders) {lead : Leader}

theorem endDrawn_silent (h : lead.message = []) :
    c.endDrawn mode active after lead = ⟨[(c.endMarker active lead).trimmed], []⟩ := by
  simp only [endDrawn, endRows, h, if_true]
  rfl

theorem endDrawn_expanded (h : lead.message ≠ []) :
    ∃ first rest, c.wrap lead.message (c.drawnCol lead.span.markerCol + 2) = first :: rest ∧
      c.endDrawn .expanded active after lead =
        ⟨(c.endMarker active lead).beside first (c.multiStyle lead) ::
          rest.map (c.endPiece after lead), []⟩ := by
  cases hwrap : c.wrap lead.message (c.drawnCol lead.span.markerCol + 2) with
  | nil => exact absurd hwrap (c.wrap_ne_nil _ _)
  | cons first rest =>
      refine ⟨first, rest, rfl, ?_⟩
      simp only [endDrawn, endRows, h, if_false, hwrap]
      rfl

theorem endDrawn_compact (h : lead.message ≠ []) : c.endDrawn .compact active after lead =
    if c.fitsInline ((c.endMarker active lead).width c.cells) lead.message then
      ⟨[(c.endMarker active lead).beside lead.message (c.multiStyle lead)], []⟩
    else ⟨[(c.endMarker active lead).trimmed], deferredOf [lead.toPlacedLabel]⟩ := by
  have hrow : c.endRows .compact active after lead =
      if c.fitsInline ((c.endMarker active lead).width c.cells) lead.message then
        .ok ⟨[(c.endMarker active lead).beside lead.message (c.multiStyle lead)], []⟩
      else .ok ⟨[(c.endMarker active lead).trimmed], deferredOf [lead.toPlacedLabel]⟩ := by
    simp only [endRows, h, if_false]
    rfl
  rw [endDrawn, hrow]
  split
  · rfl
  · rfl

end End

theorem endsDrawn_expanded_deferred (active : ActiveLeaders) (leads : List Leader) :
    (c.endsDrawn .expanded active leads).deferred = [] := by
  induction leads generalizing active with
  | nil => rfl
  | cons lead leads ih =>
      rw [endsDrawn, append_deferred, ih, List.append_nil]
      by_cases htext : lead.message = []
      · rw [c.endDrawn_silent active _ htext]
      · obtain ⟨first, rest, -, hdrawn⟩ := c.endDrawn_expanded active
          (active.filter (·.slot != lead.slot)) htext
        rw [hdrawn]

/-- Nothing is deferred where every text has a row. -/
theorem picture_expanded_deferred : (c.picture .expanded).deferred = [] := by
  refine List.flatMap_eq_nil_iff.2 fun part _ => ?_
  cases part with
  | line line => exact c.endsDrawn_expanded_deferred _ line.ending
  | elision alive => rfl

end Canvas

namespace Rendering

/-- The rows above an excerpt. -/
def headRows (config : Config) (mode : Mode) (layout : Layout) : List Row :=
  match mode with
  | .expanded => titleRows layout.title ++ [⟨.blank, []⟩, headerRow config .expanded layout]
  | .compact => titleRows layout.title ++ [headerRow config .compact layout]

/-- The rows below an excerpt and its list of deferred texts. -/
def footRows (w : CellWidth) (config : Config) (mode : Mode) (layout : Layout)
    (footnotes : List Footnote) : List Row :=
  match mode with
  | .expanded =>
    if footnotes = [] then []
    else ⟨.blank, []⟩ :: footnotes.flatMap (footnoteRows w config (layout.numberWidth + 1))
  | .compact => footnotes.flatMap (footnoteRows w config 0)

variable {w : CellWidth} {config : Config} {diagnostic : Diagnostic} {layout : Layout}

theorem rows_eq [Platform] (hlayout : Layout.build w config diagnostic = .ok layout) (mode : Mode) :
    rows w config mode diagnostic = .ok (headRows config mode layout ++
      (Canvas.picture ⟨w, config, layout⟩ mode).rows ++
      Canvas.items ⟨w, config, layout⟩ (Canvas.picture ⟨w, config, layout⟩ mode).deferred ++
      footRows w config mode layout diagnostic.footnotes) := by
  have hdraw := Canvas.draw_eq ⟨w, config, layout⟩ mode (slotsApart_of_build_ok hlayout)
  cases mode with
  | expanded =>
      have hitems : ∀ c : Canvas, c.items [] = [] := fun _ => rfl
      simp only [rows, expandedRows, hlayout, hdraw, ok_bind]
      rw [Canvas.picture_expanded_deferred, hitems, List.append_nil]
      rfl
  | compact =>
      simp only [rows, compactRows, hlayout, hdraw, ok_bind]
      rfl

theorem mem_headRows {mode : Mode} {row : Row} (h : row ∈ headRows config mode layout) :
    row ∈ titleRows layout.title ∨ row = ⟨.blank, []⟩ ∨ row = headerRow config mode layout := by
  cases mode with
  | expanded =>
      rw [headRows, List.mem_append, List.mem_cons, List.mem_singleton] at h
      exact h
  | compact =>
      rw [headRows, List.mem_append, List.mem_singleton] at h
      exact h.imp_right .inr

theorem mem_footRows {mode : Mode} {footnotes : List Footnote} {row : Row}
    (h : row ∈ footRows w config mode layout footnotes) :
    row = ⟨.blank, []⟩ ∨
      ∃ footnote ∈ footnotes, ∃ indent, row ∈ footnoteRows w config indent footnote := by
  cases mode with
  | expanded =>
      rw [footRows] at h
      split at h
      · exact absurd h List.not_mem_nil
      · rcases List.mem_cons.1 h with rfl | h
        · exact .inl rfl
        · obtain ⟨footnote, hfootnote, hrow⟩ := List.mem_flatMap.1 h
          exact .inr ⟨footnote, hfootnote, _, hrow⟩
  | compact =>
      obtain ⟨footnote, hfootnote, hrow⟩ := List.mem_flatMap.1 h
      exact .inr ⟨footnote, hfootnote, _, hrow⟩

/-- Rows around the excerpt. -/
def frames (row : Row) : Bool :=
  row.kind == .title || row.kind == .blank || row.kind == .header || row.kind == .footnote

theorem frames_headRows (mode : Mode) : ∀ row ∈ headRows config mode layout, frames row = true := by
  intro row hrow
  rcases mem_headRows hrow with hrow | rfl | rfl
  · obtain ⟨line, -, rfl⟩ := List.mem_map.1 hrow
    rfl
  · rfl
  · rfl

theorem frames_footRows (mode : Mode) (footnotes : List Footnote) :
    ∀ row ∈ footRows w config mode layout footnotes, frames row = true := by
  intro row hrow
  rcases mem_footRows hrow with rfl | ⟨footnote, -, indent, hrow⟩
  · rfl
  · simp only [footnoteRows] at hrow
    split at hrow
    · exact absurd hrow List.not_mem_nil
    · rcases List.mem_cons.1 hrow with rfl | hrow
      · rfl
      · obtain ⟨line, -, rfl⟩ := List.mem_map.1 hrow
        rfl

theorem kind_of_mem_items {c : Canvas} {labs : List PlacedLabel} {row : Row}
    (h : row ∈ c.items labs) : row.kind = .item := by
  obtain ⟨lab, -, h⟩ := List.mem_flatMap.1 h
  simp only [Canvas.itemRows] at h
  split at h
  · rw [List.mem_singleton.1 h]
    rfl
  · rcases List.mem_cons.1 h with rfl | h
    · rfl
    · obtain ⟨line, -, rfl⟩ := List.mem_map.1 h
      rfl

/-- The rows of kinds that only an excerpt has are those of the excerpt. -/
theorem filter_rows [Platform] (hlayout : Layout.build w config diagnostic = .ok layout)
    (mode : Mode) :
    ∃ all, rows w config mode diagnostic = .ok all ∧ ∀ p : RowKind → Bool,
      (∀ kind ∈ [RowKind.title, .blank, .header, .footnote, .item], p kind = false) →
      all.filter (fun row => p row.kind) =
        (Canvas.picture ⟨w, config, layout⟩ mode).rows.filter fun row => p row.kind := by
  refine ⟨_, rows_eq hlayout mode, fun p hp => ?_⟩
  have hframe : ∀ rows : List Row, (∀ row ∈ rows, frames row = true) →
      rows.filter (fun row => p row.kind) = [] := by
    intro rows hrows
    refine List.filter_eq_nil_iff.2 fun row hrow => ?_
    have hkind := hrows row hrow
    simp only [frames, Bool.or_eq_true, beq_iff_eq] at hkind
    rw [hp row.kind (by rcases hkind with ((h | h) | h) | h <;> rw [h] <;> decide)]
    exact Bool.false_ne_true
  have hitems : ∀ labs, (Canvas.items ⟨w, config, layout⟩ labs).filter
      (fun row => p row.kind) = [] := by
    intro labs
    refine List.filter_eq_nil_iff.2 fun row hrow => ?_
    rw [kind_of_mem_items hrow, hp .item (by decide)]
    exact Bool.false_ne_true
  rw [List.filter_append, List.filter_append, List.filter_append, hframe _ (frames_headRows mode),
    hframe _ (frames_footRows mode diagnostic.footnotes), hitems, List.nil_append,
    List.append_nil, List.append_nil]

end Rendering
end Excerpt
