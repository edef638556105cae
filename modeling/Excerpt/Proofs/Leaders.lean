import Excerpt.Proofs.Connectors
import Excerpt.Proofs.Life

/-!
Every label over several lines is drawn as one unbroken leader: a corner below the line where it
starts, the leader or its crossing on all rows up to the corner below the line where it ends, all in
the cell of its slot, and in that cell no trace of it anywhere else.
-/

namespace Excerpt

namespace View

/-- The line of the source that a row shows. -/
def number? : View → Option Nat
  | .source number _ => some number
  | .underline _ | .text _ | .top _ _ | .bottom _ _ | .elision _ => none

/-- The line of the source that a corner belongs to. -/
def home? : View → Option Nat
  | .top lead _ => some lead.span.startLine
  | .bottom lead _ => some lead.span.endLine
  | .source _ _ | .underline _ | .text _ | .elision _ => none

/-- The connector on the row comes from further away than the leader. -/
def crosses (lead : Leader) (view : View) : Bool :=
  view.marker?.any fun marker => lead.slot < marker.slot

end View

/-- The line of the source above a row, given all rows above it. -/
def lastShown (views : List View) : Option Nat := (views.filterMap View.number?).getLast?

/-- Each corner is below the line it belongs to, with no other line in between. -/
def Anchored (views : List View) : Prop :=
  ∀ before view after number, views = before ++ view :: after → view.home? = some number →
    lastShown before = some number

theorem lastShown_append_of_some {above views : List View} {number : Nat}
    (h : lastShown views = some number) : lastShown (above ++ views) = some number := by
  rw [lastShown] at h
  rw [lastShown, List.filterMap_append, List.getLast?_append, h, Option.some_or]

theorem anchored_nil : Anchored [] := by
  intro before view after number heq
  exact absurd heq.symm (by simp)

theorem anchored_singleton {view : View} (h : view.home? = none) : Anchored [view] := by
  intro before other after number heq hother
  cases before with
  | nil =>
      rw [List.nil_append, List.cons.injEq] at heq
      rw [← heq.1, h] at hother
      cases hother
  | cons first before => exact absurd heq (by simp)

theorem anchored_source {number : Nat} {alive : ActiveLeaders} {rest : List View}
    (hplain : ∀ view ∈ rest, view.number? = none)
    (hhome : ∀ view ∈ rest, ∀ home, view.home? = some home → home = number) :
    Anchored (.source number alive :: rest) := by
  intro before view after home heq hview
  cases before with
  | nil =>
      rw [List.nil_append, List.cons.injEq] at heq
      rw [← heq.1] at hview
      cases hview
  | cons first before =>
      rw [List.cons_append, List.cons.injEq] at heq
      obtain ⟨rfl, rfl⟩ := heq
      have hnone : before.filterMap View.number? = [] := by
        refine List.filterMap_eq_nil_iff.2 fun other hother => ?_
        exact hplain other (List.mem_append_left _ hother)
      have hnumber : View.number? (.source number alive) = some number := rfl
      rw [lastShown, List.filterMap_cons_some hnumber, hnone,
        hhome view (List.mem_append_right _ List.mem_cons_self) home hview]
      rfl

theorem anchored_append {views others : List View} (h : Anchored views) (h' : Anchored others) :
    Anchored (views ++ others) := by
  intro before view after number heq hview
  rcases List.append_eq_append_iff.1 heq with ⟨middle, rfl, hothers⟩ | ⟨middle, rfl, hmiddle⟩
  · exact lastShown_append_of_some (h' middle view after number hothers hview)
  · cases middle with
    | nil =>
        have hnone := h' [] view after number hmiddle.symm hview
        cases hnone
    | cons first middle =>
        rw [List.cons_append, List.cons.injEq] at hmiddle
        obtain ⟨rfl, -⟩ := hmiddle
        exact h before view middle number rfl hview

structure LineLayout.Homes (line : LineLayout) : Prop where
  starting : ∀ lead ∈ line.starting, lead.span.startLine = line.number
  ending : ∀ lead ∈ line.ending, lead.span.endLine = line.number

theorem anchored_lineTrace {line : LineLayout} {views : List View} {below : ActiveLeaders}
    (hline : line.Homes) (h : LineTrace line views below) : Anchored views := by
  obtain ⟨rest, rfl, hrest⟩ := exists_of_lineTrace h
  refine anchored_source (fun view hview => ?_) fun view hview home hhome => ?_
  · cases hrest view hview <;> rfl
  · cases hrest view hview with
    | top alive hlead =>
        cases hhome
        exact hline.starting _ hlead
    | bottom alive hlead =>
        cases hhome
        exact hline.ending _ hlead
    | underline _ | text _ => cases hhome

theorem anchored_groupTrace {active final : ActiveLeaders} {lines : List LineLayout}
    {views : List View} (h : GroupTrace active lines views final)
    (hlines : ∀ line ∈ lines, line.Homes) : Anchored views := by
  induction h with
  | nil => exact anchored_nil
  | cons hline _ ih =>
      obtain ⟨hhomes, hlines⟩ := List.forall_mem_cons.1 hlines
      exact anchored_append (anchored_lineTrace hhomes hline) (ih hlines)

theorem anchored_restTrace {active : ActiveLeaders} {groups : List (List LineLayout)}
    {views : List View} (h : RestTrace active groups views)
    (hlines : ∀ line ∈ groups.flatten, line.Homes) : Anchored views := by
  induction h with
  | nil => exact anchored_nil
  | cons hgroup _ ih =>
      obtain ⟨hgrouplines, hrest⟩ := List.forall_mem_append.1 hlines
      exact anchored_append (anchored_singleton rfl)
        (anchored_append (anchored_groupTrace hgroup hgrouplines) (ih hrest))

theorem anchored_trace {groups : List (List LineLayout)} {views : List View}
    (h : Trace groups views) (hlines : ∀ line ∈ groups.flatten, line.Homes) : Anchored views := by
  cases h with
  | nil => exact anchored_nil
  | cons hgroup hrest =>
      obtain ⟨hgrouplines, hrestlines⟩ := List.forall_mem_append.1 hlines
      exact anchored_append (anchored_groupTrace hgroup hgrouplines)
        (anchored_restTrace hrest hrestlines)

namespace Canvas

variable {c : Canvas} {lead : Leader} {view : View}

/-- In the slot of a leader that runs past a row is the leader, or its crossing with a connector. -/
theorem slotMark_of_runs (h : view.Runs lead) : c.slotMark view lead.slot =
    mark (if view.crosses lead then c.charset.crossing else c.charset.leader)
      (c.multiStyle lead) := by
  obtain ⟨halive, hmarker⟩ := h
  have hconnector : ∀ alive marker corner, ActiveLeaders.Holds alive lead →
      marker.slot ≠ lead.slot → c.connectorMark alive marker corner lead.slot =
        mark (if decide (lead.slot < marker.slot) then c.charset.crossing else c.charset.leader)
          (c.multiStyle lead) := by
    intro alive marker corner hholds hslot
    have hheld : alive.held lead.slot = some lead := hholds
    rw [connectorMark, leaderMark, hheld]
    rcases Nat.lt_or_gt_of_ne hslot with hnear | hfar
    · rw [if_pos hnear, if_neg (by simpa using Nat.le_of_lt hnear)]
    · rw [if_neg (Nat.not_lt_of_gt hfar), if_neg (Nat.ne_of_lt hfar), if_pos (by simpa using hfar)]
  cases view with
  | source number alive | underline alive | text alive | elision alive =>
      have hheld : alive.held lead.slot = some lead := halive
      rw [slotMark, leaderMark, hheld]
      rfl
  | top marker alive | bottom marker alive =>
      exact hconnector alive marker _ halive (hmarker marker rfl)

theorem connectorMark_self (active : ActiveLeaders) (lead : Leader) (corner : Text) :
    c.connectorMark active lead corner lead.slot = mark corner (c.multiStyle lead) := by
  rw [connectorMark, if_neg (Nat.lt_irrefl _), if_pos rfl]

theorem slotMark_eq_nil_or_mark (c : Canvas) (view : View) (slot : Nat) :
    c.slotMark view slot = [] ∨ ∃ shown text,
      (view.alive.held slot = some shown ∨ view.marker? = some shown) ∧
      c.slotMark view slot = mark text (c.multiStyle shown) := by
  have hleader : ∀ alive, c.leaderMark alive slot = [] ∨ ∃ shown text,
      alive.held slot = some shown ∧ c.leaderMark alive slot = mark text (c.multiStyle shown) := by
    intro alive
    rw [leaderMark]
    cases alive.held slot with
    | none => exact .inl rfl
    | some held => exact .inr ⟨held, _, rfl, rfl⟩
  have hconnector : ∀ alive marker corner, c.connectorMark alive marker corner slot = [] ∨
      ∃ shown text, (alive.held slot = some shown ∨ some marker = some shown) ∧
        c.connectorMark alive marker corner slot = mark text (c.multiStyle shown) := by
    intro alive marker corner
    rw [connectorMark]
    split
    · refine (hleader alive).imp_right fun h => ?_
      obtain ⟨shown, text, hheld, hmark⟩ := h
      exact ⟨shown, text, .inl hheld, hmark⟩
    · split
      · exact .inr ⟨marker, corner, .inr rfl, rfl⟩
      · cases alive.held slot with
        | none => exact .inr ⟨marker, _, .inr rfl, rfl⟩
        | some held => exact .inr ⟨held, _, .inl rfl, rfl⟩
  cases view with
  | source number alive | underline alive | text alive | elision alive =>
      refine (hleader alive).imp_right fun h => ?_
      obtain ⟨shown, text, hheld, hmark⟩ := h
      exact ⟨shown, text, .inl hheld, hmark⟩
  | top marker alive | bottom marker alive => exact hconnector alive marker _

/-- How one leader is drawn in rows of which each comes with what it is about. -/
structure Course (c : Canvas) (lead : Leader) (before : List (View × Row)) (top : View × Row)
    (between : List (View × Row)) (bottom : View × Row) (after : List (View × Row)) : Prop where
  top_view : ∃ alive, top.1 = .top lead alive
  top_kind : top.2.kind = .connector
  top_line : lastShown (before.map Prod.fst) = some lead.span.startLine
  top_corner : top.2.glyphsAt c.cells (c.slotCell lead.slot) =
    mark c.charset.topCorner (c.multiStyle lead)
  top_caret : top.2.carets c.cells = [⟨c.layout.prefixWidth + lead.span.startCol,
    c.layout.prefixWidth + lead.span.startCol + 1⟩]
  bottom_view : ∃ alive, bottom.1 = .bottom lead alive
  bottom_kind : bottom.2.kind = .connector
  bottom_line : lastShown ((before ++ top :: between).map Prod.fst) = some lead.span.endLine
  bottom_corner : bottom.2.glyphsAt c.cells (c.slotCell lead.slot) =
    mark c.charset.bottomCorner (c.multiStyle lead)
  bottom_caret : bottom.2.carets c.cells = [⟨c.layout.prefixWidth + lead.span.markerCol,
    c.layout.prefixWidth + lead.span.markerCol + 1⟩]
  /-- In between there is the leader, crossed exactly where a marker from a higher slot passes. -/
  inside : ∀ step ∈ between, step.1.Runs lead ∧
    step.2.glyphsAt c.cells (c.slotCell lead.slot) =
      mark (if step.1.crosses lead then c.charset.crossing else c.charset.leader)
        (c.multiStyle lead)
  /-- Elsewhere the leader is not drawn: its cell is empty, or belongs to another label. -/
  outside : ∀ step ∈ before ++ after, step.1.Lacks lead ∧
    (step.2.glyphsAt c.cells (c.slotCell lead.slot) = [] ∨ ∃ other text, other ≠ lead ∧
      (step.1.alive.held lead.slot = some other ∨ step.1.marker? = some other) ∧
      step.2.glyphsAt c.cells (c.slotCell lead.slot) = mark text (c.multiStyle other))

def Unbroken (c : Canvas) (lead : Leader) (steps : List (View × Row)) : Prop :=
  ∃ before top between bottom after,
    steps = before ++ top :: (between ++ bottom :: after) ∧
      c.Course lead before top between bottom after

theorem corner_of_shows {row : Row} {alive : ActiveLeaders} {corner : Text} {col : Int}
    (hshows : c.Shows view row) (hslot : lead.slot < c.layout.slotCount)
    (hmark : c.slotMark view lead.slot = c.connectorMark alive lead corner lead.slot)
    (hpointer : view.pointer? = some (lead, col)) :
    row.glyphsAt c.cells (c.slotCell lead.slot) = mark corner (c.multiStyle lead) ∧
      row.carets c.cells = [⟨c.layout.prefixWidth + col, c.layout.prefixWidth + col + 1⟩] := by
  constructor
  · rw [hshows.slots lead.slot hslot, hmark, connectorMark_self]
  · exact (hshows.pointer lead col hpointer).1

theorem inside_of_shows {step : View × Row} (hshows : c.Shows step.1 step.2)
    (hslot : lead.slot < c.layout.slotCount) (hruns : step.1.Runs lead) :
    step.2.glyphsAt c.cells (c.slotCell lead.slot) =
      mark (if step.1.crosses lead then c.charset.crossing else c.charset.leader)
        (c.multiStyle lead) := by
  rw [hshows.slots lead.slot hslot, slotMark_of_runs hruns]

theorem outside_of_shows {step : View × Row} (hshows : c.Shows step.1 step.2)
    (hslot : lead.slot < c.layout.slotCount) (hlacks : step.1.Lacks lead) :
    step.2.glyphsAt c.cells (c.slotCell lead.slot) = [] ∨ ∃ other text, other ≠ lead ∧
      (step.1.alive.held lead.slot = some other ∨ step.1.marker? = some other) ∧
      step.2.glyphsAt c.cells (c.slotCell lead.slot) = mark text (c.multiStyle other) := by
  rw [hshows.slots lead.slot hslot]
  refine (slotMark_eq_nil_or_mark c step.1 lead.slot).imp_right fun h => ?_
  obtain ⟨other, text, hother, hmark⟩ := h
  refine ⟨other, text, ?_, hother, hmark⟩
  rintro rfl
  exact hother.elim hlacks.1 hlacks.2

theorem unbroken_of_life {steps : List (View × Row)}
    (hshows : ∀ step ∈ steps, c.Shows step.1 step.2) (hslot : lead.slot < c.layout.slotCount)
    (hlife : Life lead .ahead (steps.map Prod.fst) .ended)
    (hanchored : Anchored (steps.map Prod.fst)) : c.Unbroken lead steps := by
  obtain ⟨ahead, above, alive, below, ended, hsplit, hahead, halive, hended⟩ := hlife.split
  have htopline := hanchored ahead _ _ lead.span.startLine hsplit rfl
  have hbottomline := hanchored (ahead ++ .top lead above :: alive) (.bottom lead below) ended
    lead.span.endLine (by rw [hsplit, List.append_assoc]; rfl) rfl
  obtain ⟨before, _, rfl, rfl, hfromtop⟩ := List.map_eq_append_iff.1 hsplit
  obtain ⟨top, _, rfl, htop, hbelowtop⟩ := List.map_eq_cons_iff.1 hfromtop
  obtain ⟨between, _, rfl, rfl, hfrombottom⟩ := List.map_eq_append_iff.1 hbelowtop
  obtain ⟨bottom, after, rfl, hbottom, rfl⟩ := List.map_eq_cons_iff.1 hfrombottom
  obtain ⟨hbefore, hrest⟩ := List.forall_mem_append.1 hshows
  obtain ⟨hshowstop, hrest⟩ := List.forall_mem_cons.1 hrest
  obtain ⟨hbetween, hrest⟩ := List.forall_mem_append.1 hrest
  obtain ⟨hshowsbottom, hafter⟩ := List.forall_mem_cons.1 hrest
  rw [htop] at hshowstop
  rw [hbottom] at hshowsbottom
  obtain ⟨htopcorner, htopcaret⟩ := corner_of_shows hshowstop hslot rfl rfl
  obtain ⟨hbottomcorner, hbottomcaret⟩ := corner_of_shows hshowsbottom hslot rfl rfl
  refine ⟨before, top, between, bottom, after, rfl, ?_⟩
  exact {
    top_view := ⟨above, htop⟩
    top_kind := kind_of_draws _ hshowstop.drawn
    top_line := htopline
    top_corner := htopcorner
    top_caret := htopcaret
    bottom_view := ⟨below, hbottom⟩
    bottom_kind := kind_of_draws _ hshowsbottom.drawn
    bottom_line := by rw [List.map_append, List.map_cons, htop, hbottomline]
    bottom_corner := hbottomcorner
    bottom_caret := hbottomcaret
    inside := fun step hstep => by
      have hruns := halive _ (List.mem_map_of_mem hstep)
      exact ⟨hruns, inside_of_shows (hbetween step hstep) hslot hruns⟩
    outside := List.forall_mem_append.2
      ⟨fun step hstep => by
        have hlacks := hahead _ (List.mem_map_of_mem hstep)
        exact ⟨hlacks, outside_of_shows (hbefore step hstep) hslot hlacks⟩,
      fun step hstep => by
        have hlacks := hended _ (List.mem_map_of_mem hstep)
        exact ⟨hlacks, outside_of_shows (hafter step hstep) hslot hlacks⟩⟩ }

end Canvas

open Layout Canvas

theorem homes_of_mem_lines {w : CellWidth} {config : Config} {title : Text} {source : Source}
    {placed : List PlacedLabel} {line : LineLayout}
    (h : line ∈ (ofPlaced w config title source placed).lines) : line.Homes := by
  obtain ⟨range, -, number, -, rfl⟩ := exists_number_of_mem_lines h
  constructor
  · exact fun lead hlead => ((mem_starting_layLine number _).1 hlead).2
  · exact fun lead hlead => ((mem_ending_layLine number _).1 hlead).2.2

/-- In either mode the rows of an excerpt show every label over several lines as one unbroken leader
in the cell of its slot, and no leader on an elision. -/
theorem leaders_unbroken [Platform] {w : CellWidth} {config : Config} {diagnostic : Diagnostic}
    {layout : Layout} (hcells : OneCell w config.charset) (htrim : config.trimIndent = false)
    (hlayout : build w config diagnostic = .ok layout) (mode : Mode) :
    ∃ drawn steps, Canvas.draw ⟨w, config, layout⟩ mode = .ok drawn ∧
      steps.map Prod.snd = drawn.rows ∧
      (∀ step ∈ steps, Shows ⟨w, config, layout⟩ step.1 step.2) ∧
      (∀ step ∈ steps, step.2.kind = .elision → ∀ slot, step.1.alive.held slot = none) ∧
      ∀ lab ∈ layout.labels, lab.span.isMultiline = true → ∃ lead ∈ layout.leaders,
        lead.toPlacedLabel = lab ∧ lead.slot < layout.slotCount ∧
        Unbroken ⟨w, config, layout⟩ lead steps := by
  obtain ⟨drawn, views, hdrawn, htrace, hdraws⟩ :=
    draws_draw ⟨w, config, layout⟩ mode (slotsApart_of_build_ok hlayout)
  obtain ⟨source, placed, -, -, hindex, hwithin, rfl⟩ := exists_of_build_ok hlayout
  have hlength := hdraws.length_eq
  have hfst : (views.zip drawn.rows).map Prod.fst = views :=
    List.map_fst_zip (Nat.le_of_eq hlength)
  have hsnd : (views.zip drawn.rows).map Prod.snd = drawn.rows :=
    List.map_snd_zip (Nat.le_of_eq hlength.symm)
  have hmem : ∀ step ∈ views.zip drawn.rows, step.1 ∈ views := fun step hstep =>
    hfst ▸ List.mem_map_of_mem hstep
  have hshows : ∀ step ∈ views.zip drawn.rows, Shows ⟨w, config, _⟩ step.1 step.2 :=
    fun step hstep => shows_of_trace hcells htrim hwithin htrace (hmem step hstep)
      (List.forall₂_zip hdraws hstep)
  refine ⟨drawn, views.zip drawn.rows, hdrawn, hsnd, hshows, ?_, ?_⟩
  · intro step hstep hkind slot
    rw [kind_of_draws _ (hshows step hstep).drawn] at hkind
    rw [Option.eq_none_iff_forall_ne_some]
    intro held hheld
    refine not_holds_of_elision hindex hwithin htrace step.1 (hmem step hstep) hkind held ?_
    rw [ActiveLeaders.Holds, ActiveLeaders.slot_eq_of_held hheld, hheld]
  · intro lab hlab hmulti
    obtain ⟨lead, hlead, heq⟩ := exists_mem_leadersOf hlab hmulti
    have hslot : lead.slot < (ofPlaced w config diagnostic.title source placed).slotCount :=
      lt_foldl_max _ hlead 0
    refine ⟨lead, hlead, heq, hslot, unbroken_of_life hshows hslot ?_ ?_⟩
    · rw [hfst]
      exact life_trace hindex hwithin htrace hlead
    · rw [hfst]
      exact anchored_trace htrace fun line hline => homes_of_mem_lines hline

/-- Two labels over several lines, of which each starts before the other one ends. -/
def crossing : Diagnostic where
  title := ['t']
  source := some ⟨"one\ntwo\nthree\nfour\n".toList, none, none⟩
  labels := [⟨⟨0, 9⟩, some ['a'], none⟩, ⟨⟨5, 16⟩, some ['b'], none⟩]

section

attribute [local instance] Platform.usual

theorem leaders_unbroken_crossing :
    ∃ layout drawn steps, build (fun _ => 1) .default crossing = .ok layout ∧
      layout.leaders.map Leader.slot = [0, 1] ∧
      Canvas.draw ⟨fun _ => 1, .default, layout⟩ .expanded = .ok drawn ∧
      steps.map Prod.snd = drawn.rows ∧
      ∀ lab ∈ layout.labels, ∃ lead ∈ layout.leaders, lead.toPlacedLabel = lab ∧
        Unbroken ⟨fun _ => 1, .default, layout⟩ lead steps := by
  have hcells : OneCell (fun _ => 1) Config.default.charset :=
    ⟨.inl rfl, rfl, fun _ _ => rfl, fun _ _ _ _ => rfl⟩
  obtain ⟨layout, hlayout, hslots, hmulti⟩ : ∃ layout,
      build (fun _ => 1) .default crossing = .ok layout ∧
        layout.leaders.map Leader.slot = [0, 1] ∧
        ∀ lab ∈ layout.labels, lab.span.isMultiline = true := ⟨_, rfl, rfl, by decide⟩
  obtain ⟨drawn, steps, hdrawn, hrows, -, -, hleaders⟩ :=
    leaders_unbroken hcells rfl hlayout .expanded
  refine ⟨layout, drawn, steps, hlayout, hslots, hdrawn, hrows, fun lab hlab => ?_⟩
  obtain ⟨lead, hlead, heq, -, hunbroken⟩ := hleaders lab hlab (hmulti lab hlab)
  exact ⟨lead, hlead, heq, hunbroken⟩

end

end Excerpt
