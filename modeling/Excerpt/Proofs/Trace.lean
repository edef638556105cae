import Excerpt.Drawing.Lines
import Excerpt.Proofs.Schedule

/-!
What a drawing goes through. A trace lists, row by row, which leaders are alive and which marker is
set, without a glyph. As long as no two leaders of a line are in one slot, every drawing follows a
trace of its layout, so it frees only slots that are held and does not fail.
-/

namespace Excerpt

namespace ActiveLeaders

/-- A leader is alive in its own slot. -/
def Holds (active : ActiveLeaders) (lead : Leader) : Prop := active.held lead.slot = some lead

theorem slot_eq_of_held {active : ActiveLeaders} {slot : Nat} {lead : Leader}
    (h : active.held slot = some lead) : lead.slot = slot := by
  rw [held] at h
  have hslot := List.find?_some h
  exact eq_of_beq hslot

theorem held_filter (active : ActiveLeaders) (freed slot : Nat) :
    held (active.filter (·.slot != freed)) slot =
      if slot = freed then none else active.held slot := by
  simp only [held, List.find?_filter]
  split
  case isTrue h =>
      subst h
      refine List.find?_eq_none.2 fun lead _ => ?_
      simp
  case isFalse h =>
      congr 1
      funext lead
      by_cases hslot : lead.slot = slot
      · simp [hslot, h]
      · simp [hslot]

theorem held_add (active : ActiveLeaders) (lead : Leader) (slot : Nat) :
    (active.add lead).held slot = if slot = lead.slot then some lead else active.held slot := by
  split
  case isTrue h =>
      exact List.find?_cons_of_pos (by simp [h])
  case isFalse h =>
      refine (List.find?_cons_of_neg (by simpa using Ne.symm h)).trans ?_
      exact (held_filter active lead.slot slot).trans (if_neg h)

theorem not_holds_nil (lead : Leader) : ¬Holds [] lead := by
  intro h
  cases h

theorem holds_add_iff {active : ActiveLeaders} {added lead : Leader} :
    (active.add added).Holds lead ↔
      lead = added ∨ lead.slot ≠ added.slot ∧ active.Holds lead := by
  rw [Holds, held_add]
  by_cases h : lead.slot = added.slot
  · rw [if_pos h, Option.some.injEq]
    constructor
    · exact fun heq => .inl heq.symm
    · exact fun hor => hor.elim Eq.symm fun hne => absurd h hne.1
  · rw [if_neg h]
    constructor
    · exact fun hholds => .inr ⟨h, hholds⟩
    · rintro (rfl | hne)
      · exact absurd rfl h
      · exact hne.2

theorem holds_foldl_add {active : ActiveLeaders} {leads : List Leader} {lead : Leader}
    (hslots : (leads.map Leader.slot).Nodup) : (leads.foldl add active).Holds lead ↔
      lead ∈ leads ∨ active.Holds lead ∧ lead.slot ∉ leads.map Leader.slot := by
  induction leads generalizing active with
  | nil => simp
  | cons first leads ih =>
      obtain ⟨hfirst, hrest⟩ := List.nodup_cons.1 hslots
      rw [List.foldl_cons, ih hrest, holds_add_iff, List.map_cons, List.mem_cons, List.mem_cons]
      by_cases heq : lead = first
      · subst heq
        simp [hfirst]
      · simp only [heq, false_or, not_or]
        rw [and_assoc, and_comm (a := lead.slot ≠ first.slot), and_assoc,
          and_comm (a := lead.slot ∉ leads.map Leader.slot)]

theorem free_of_holds {active : ActiveLeaders} {lead : Leader} (h : active.Holds lead) :
    active.free lead.slot = .ok (active.filter (·.slot != lead.slot)) := by
  rw [free, h]

theorem holds_of_free {active after : ActiveLeaders} {slot : Nat} {lead : Leader}
    (h : active.free slot = .ok after) :
    after.Holds lead ↔ lead.slot ≠ slot ∧ active.Holds lead := by
  have hafter : after = active.filter (·.slot != slot) := by
    rw [free] at h
    split at h
    · cases h
    · exact (Except.ok.inj h).symm
  rw [Holds, Holds, hafter, held_filter]
  split
  case isTrue hslot => simp [hslot]
  case isFalse hslot => simp [hslot]

end ActiveLeaders

/-- What a row of the excerpt is about: a line of the source, an underline or text below it, the
corner of a leader, or hidden lines. The leaders are those alive on the row. -/
inductive View where
  | source (number : Nat) (alive : ActiveLeaders)
  | underline (alive : ActiveLeaders)
  | text (alive : ActiveLeaders)
  | top (lead : Leader) (alive : ActiveLeaders)
  | bottom (lead : Leader) (alive : ActiveLeaders)
  | elision (alive : ActiveLeaders)

namespace View

def kind : View → RowKind
  | source _ _ => .source
  | underline _ => .underline
  | text _ => .text
  | top _ _ | bottom _ _ => .connector
  | elision _ => .elision

def alive : View → ActiveLeaders
  | source _ alive | underline alive | text alive | top _ alive | bottom _ alive
  | elision alive => alive

def marker? : View → Option Leader
  | top lead _ | bottom lead _ => some lead
  | source _ _ | underline _ | text _ | elision _ => none

end View

open ActiveLeaders

/-- The rows of labels that start on a line. -/
def startViews : ActiveLeaders → List Leader → List View
  | _, [] => []
  | active, lead :: rest => .top lead active :: startViews (active.add lead) rest

/-- The rows of labels that end on a line. Once a leader has ended, rows of text may follow. -/
inductive EndTrace : ActiveLeaders → List Leader → List View → ActiveLeaders → Prop
  | nil (active) : EndTrace active [] [] active
  | cons {active after final lead rest views} (texts : Nat) :
      active.free lead.slot = .ok after → EndTrace after rest views final →
      EndTrace active (lead :: rest)
        (.bottom lead active :: (List.replicate texts (.text after) ++ views)) final

/-- The rows of a line, and the leaders alive below it. -/
inductive LineTrace : LineLayout → List View → ActiveLeaders → Prop
  | mk {line below labels ends} :
      (∀ view ∈ labels, view = .underline (Canvas.leadersAbove line) ∨
        view = .text (Canvas.leadersAbove line)) →
      EndTrace (line.starting.foldl add (Canvas.leadersAbove line)) line.ending ends below →
      LineTrace line (.source line.number (Canvas.leadersAbove line) ::
        (labels ++ (startViews (Canvas.leadersAbove line) line.starting ++ ends))) below

inductive GroupTrace : ActiveLeaders → List LineLayout → List View → ActiveLeaders → Prop
  | nil (active) : GroupTrace active [] [] active
  | cons {active below final line rest views others} :
      LineTrace line views below → GroupTrace below rest others final →
      GroupTrace active (line :: rest) (views ++ others) final

/-- The rows of the groups after the first, each below an elision. -/
inductive RestTrace : ActiveLeaders → List (List LineLayout) → List View → Prop
  | nil (active) : RestTrace active [] []
  | cons {active below group rest views others} :
      GroupTrace active group views below → RestTrace below rest others →
      RestTrace active (group :: rest) (.elision active :: (views ++ others))

inductive Trace : List (List LineLayout) → List View → Prop
  | nil : Trace [] []
  | cons {below group rest views others} :
      GroupTrace [] group views below → RestTrace below rest others →
      Trace (group :: rest) (views ++ others)

theorem exists_of_mem_startViews {active : ActiveLeaders} {leads : List Leader} {view : View}
    (h : view ∈ startViews active leads) : ∃ lead ∈ leads, ∃ alive, view = .top lead alive := by
  induction leads generalizing active with
  | nil => exact absurd h List.not_mem_nil
  | cons lead leads ih =>
      rcases List.mem_cons.1 h with rfl | h
      · exact ⟨lead, List.mem_cons_self, active, rfl⟩
      · obtain ⟨other, hother, alive, rfl⟩ := ih h
        exact ⟨other, List.mem_cons_of_mem lead hother, alive, rfl⟩

theorem exists_of_mem_endTrace {active final : ActiveLeaders} {leads : List Leader}
    {views : List View} (h : EndTrace active leads views final) :
    ∀ view ∈ views,
      (∃ lead ∈ leads, ∃ alive, view = .bottom lead alive) ∨ ∃ alive, view = .text alive := by
  induction h with
  | nil => exact fun view hview => absurd hview List.not_mem_nil
  | @cons active after final lead rest views texts _ _ ih =>
      intro view hview
      rcases List.mem_cons.1 hview with rfl | hview
      · exact .inl ⟨lead, List.mem_cons_self, active, rfl⟩
      · rcases List.mem_append.1 hview with hview | hview
        · exact .inr ⟨after, List.eq_of_mem_replicate hview⟩
        · refine (ih view hview).imp_left fun h => ?_
          obtain ⟨other, hother, alive, rfl⟩ := h
          exact ⟨other, List.mem_cons_of_mem lead hother, alive, rfl⟩

/-- A row below the source row of a line that belongs to the line. -/
inductive View.Beside (line : LineLayout) : View → Prop
  | underline (alive) : Beside line (.underline alive)
  | text (alive) : Beside line (.text alive)
  | top {lead} (alive) : lead ∈ line.starting → Beside line (.top lead alive)
  | bottom {lead} (alive) : lead ∈ line.ending → Beside line (.bottom lead alive)

/-- A line begins with its source row, and only with it. -/
theorem exists_of_lineTrace {line : LineLayout} {views : List View} {below : ActiveLeaders}
    (h : LineTrace line views below) : ∃ rest,
      views = .source line.number (Canvas.leadersAbove line) :: rest ∧
        ∀ view ∈ rest, view.Beside line := by
  obtain ⟨hlabels, hends⟩ := h
  refine ⟨_, rfl, List.forall_mem_append.2 ⟨fun view hview => ?_,
    List.forall_mem_append.2 ⟨fun view hview => ?_, fun view hview => ?_⟩⟩⟩
  · rcases hlabels view hview with rfl | rfl
    · exact .underline _
    · exact .text _
  · obtain ⟨lead, hlead, alive, rfl⟩ := exists_of_mem_startViews hview
    exact .top alive hlead
  · rcases exists_of_mem_endTrace hends view hview with ⟨lead, hlead, alive, rfl⟩ | ⟨alive, rfl⟩
    · exact .bottom alive hlead
    · exact .text alive

theorem exists_of_mem_groupTrace {active final : ActiveLeaders} {lines : List LineLayout}
    {views : List View} (h : GroupTrace active lines views final) :
    ∀ view ∈ views, ∃ line ∈ lines,
      view = .source line.number (Canvas.leadersAbove line) ∨ view.Beside line := by
  induction h with
  | nil => exact fun view hview => absurd hview List.not_mem_nil
  | @cons active below final line lines views others hline _ ih =>
      obtain ⟨rest, rfl, hrest⟩ := exists_of_lineTrace hline
      refine List.forall_mem_append.2 ⟨fun view hview => ?_, fun view hview => ?_⟩
      · exact ⟨line, List.mem_cons_self, (List.mem_cons.1 hview).imp_right (hrest view)⟩
      · obtain ⟨other, hother, hof⟩ := ih view hview
        exact ⟨other, List.mem_cons_of_mem line hother, hof⟩

theorem not_elision_of_groupTrace {active final : ActiveLeaders} {lines : List LineLayout}
    {views : List View} (h : GroupTrace active lines views final) :
    ∀ view ∈ views, view.kind ≠ .elision := by
  intro view hview
  obtain ⟨line, -, rfl | hbeside⟩ := exists_of_mem_groupTrace h view hview
  · exact nofun
  · cases hbeside <;> exact nofun

theorem exists_of_mem_restTrace {active : ActiveLeaders} {groups : List (List LineLayout)}
    {views : List View} (h : RestTrace active groups views) :
    ∀ view ∈ views, view.kind = .elision ∨ ∃ line ∈ groups.flatten,
      view = .source line.number (Canvas.leadersAbove line) ∨ view.Beside line := by
  induction h with
  | nil => exact fun view hview => absurd hview List.not_mem_nil
  | @cons active below group groups views others hgroup _ ih =>
      refine List.forall_mem_cons.2 ⟨.inl rfl, List.forall_mem_append.2 ⟨fun view hview => .inr ?_,
        fun view hview => (ih view hview).imp_right ?_⟩⟩
      · obtain ⟨line, hline, hof⟩ := exists_of_mem_groupTrace hgroup view hview
        exact ⟨line, List.mem_append_left _ hline, hof⟩
      · rintro ⟨line, hline, hof⟩
        exact ⟨line, List.mem_append_right _ hline, hof⟩

/-- A trace is one of groups below elisions, but for the first elision. -/
theorem Trace.rest {groups : List (List LineLayout)} {views : List View} (h : Trace groups views)
    (hne : groups ≠ []) : RestTrace [] groups (.elision [] :: views) := by
  cases h with
  | nil => exact absurd rfl hne
  | cons hgroup hrest => exact .cons hgroup hrest

theorem exists_of_mem_trace {groups : List (List LineLayout)} {views : List View}
    (h : Trace groups views) : ∀ view ∈ views, view.kind = .elision ∨ ∃ line ∈ groups.flatten,
      view = .source line.number (Canvas.leadersAbove line) ∨ view.Beside line := by
  by_cases hne : groups = []
  · subst hne
    cases h
    exact fun view hview => absurd hview List.not_mem_nil
  · exact fun view hview => exists_of_mem_restTrace (h.rest hne) view (List.mem_cons_of_mem _ hview)

namespace Canvas

/-- What every row of a kind begins with. -/
def front (c : Canvas) : View → List Segment
  | .source number alive => c.numberGutter number ++ c.margin alive
  | .underline alive | .text alive => c.annotation alive
  | .top lead alive => c.connector alive lead c.charset.topCorner (c.drawnCol lead.span.startCol)
  | .bottom lead alive =>
    c.connector alive lead c.charset.bottomCorner (c.drawnCol lead.span.markerCol)
  | .elision alive => c.glyphGutter c.charset.elision ++ c.margin alive

/-- A row drawn for a view. Beyond what it begins with, only underlines have carets. -/
def Draws (c : Canvas) (view : View) (row : Row) : Prop :=
  ∃ rest, row = Row.trimmed ⟨view.kind, c.front view ++ rest⟩ ∧
    (view.kind ≠ .underline → ∀ seg ∈ rest, seg.caret = false)

variable (c : Canvas)

theorem kind_of_draws {view : View} {row : Row} (h : c.Draws view row) : row.kind = view.kind := by
  obtain ⟨rest, rfl, -⟩ := h
  rfl

theorem caret_of_mem_run {text : Text} {style : Option Style} {seg : Segment}
    (h : seg ∈ Segment.run text style) : seg.caret = false := by
  rw [Segment.run] at h
  split at h
  · exact absurd h List.not_mem_nil
  · rw [List.mem_singleton.1 h]

theorem caret_of_mem_pad {cells : Int} {seg : Segment} (h : seg ∈ Segment.pad cells) :
    seg.caret = false := caret_of_mem_run h

theorem draws_front (view : View) : c.Draws view (Row.trimmed ⟨view.kind, c.front view⟩) :=
  ⟨[], by rw [List.append_nil], fun _ _ hseg => absurd hseg List.not_mem_nil⟩

theorem draws_row_beside (view : View) {rest : List Segment}
    (hrest : view.kind ≠ .underline → ∀ seg ∈ rest, seg.caret = false) (text : Text)
    (style : Style) :
    c.Draws view (Row.beside ⟨view.kind, c.front view ++ rest⟩ text style) := by
  refine ⟨rest ++ (Segment.pad 1 ++ Segment.run text (some style)), ?_, ?_⟩
  · simp only [Row.beside, List.append_assoc]
  · intro hkind seg hseg
    rw [List.mem_append, List.mem_append] at hseg
    rcases hseg with hseg | hseg | hseg
    · exact hrest hkind seg hseg
    · exact caret_of_mem_pad hseg
    · exact caret_of_mem_run hseg

theorem draws_source (line : LineLayout) (active : ActiveLeaders) :
    c.Draws (.source line.number active) (c.sourceRow active line) :=
  ⟨_, rfl, fun _ _ hseg => caret_of_mem_run hseg⟩

theorem draws_elision (active : ActiveLeaders) :
    c.Draws (.elision active) (c.elisionRow active) := c.draws_front (.elision active)

theorem caret_of_mem_textRun {lab : PlacedLabel} {piece : Text} {col : Int}
    {bars : List PlacedLabel} {seg : Segment} (h : seg ∈ c.textRun lab piece col bars) :
    seg.caret = false := by
  induction bars generalizing col with
  | nil =>
      rw [textRun, List.mem_append] at h
      exact h.elim caret_of_mem_pad caret_of_mem_run
  | cons bar bars ih =>
      rw [textRun, List.mem_append, List.mem_append] at h
      rcases h with (h | h) | h
      · exact caret_of_mem_pad h
      · exact caret_of_mem_run h
      · exact ih h

theorem draws_textRows {active : ActiveLeaders} {labs : List PlacedLabel} :
    ∀ row ∈ c.textRows active labs, c.Draws (.text active) row := by
  induction labs with
  | nil => exact fun row hrow => absurd hrow List.not_mem_nil
  | cons lab labs ih =>
      intro row hrow
      rw [textRows, List.mem_append, List.mem_map] at hrow
      rcases hrow with ⟨piece, -, rfl⟩ | hrow
      · exact ⟨_, rfl, fun _ seg hseg => c.caret_of_mem_textRun hseg⟩
      · exact ih row hrow

theorem draws_expandedRung {active : ActiveLeaders} {line : LineLayout} {rung : Nat} :
    ∀ row ∈ c.expandedRung active line rung,
      c.Draws (.underline active) row ∨ c.Draws (.text active) row := by
  intro row hrow
  rcases List.mem_cons.1 hrow with rfl | hrow
  · exact .inl ⟨_, rfl, fun h => absurd rfl h⟩
  · exact .inr (c.draws_textRows row hrow)

theorem draws_compactRung {active : ActiveLeaders} {line : LineLayout} {rung : Nat} :
    ∀ row ∈ (c.compactRung active line rung).rows, c.Draws (.underline active) row := by
  intro row hrow
  simp only [compactRung] at hrow
  split at hrow
  · exact absurd hrow List.not_mem_nil
  · split at hrow
    · rw [List.mem_singleton.1 hrow]
      exact c.draws_row_beside (.underline active) (fun h => absurd rfl h) _ _
    · exact ⟨_, List.mem_singleton.1 hrow, fun h => absurd rfl h⟩

theorem append_rows (a b : Drawn) : (a ++ b).rows = a.rows ++ b.rows := rfl

theorem draws_labelRows (mode : Mode) (active : ActiveLeaders) (line : LineLayout) :
    ∀ row ∈ (c.labelRows mode active line).rows,
      c.Draws (.underline active) row ∨ c.Draws (.text active) row := by
  intro row hrow
  cases mode with
  | expanded =>
      obtain ⟨rung, -, hrow⟩ := List.mem_flatMap.1 hrow
      exact c.draws_expandedRung row hrow
  | compact =>
      simp only [labelRows] at hrow
      suffices h : ∀ (rungs : List Nat) (drawn : Drawn),
          (∀ row ∈ drawn.rows, c.Draws (.underline active) row) →
          ∀ row ∈ (rungs.foldl (fun drawn rung => drawn ++ c.compactRung active line rung)
            drawn).rows, c.Draws (.underline active) row from
        .inl (h _ {} (fun row hrow => absurd hrow List.not_mem_nil) row hrow)
      intro rungs
      induction rungs with
      | nil => exact fun drawn hdrawn => hdrawn
      | cons rung rungs ih =>
          intro drawn hdrawn
          refine ih _ fun row hrow => ?_
          rw [append_rows, List.mem_append] at hrow
          exact hrow.elim (hdrawn row) (c.draws_compactRung row)

theorem exists_views_of_draws {active : ActiveLeaders} {rows : List Row}
    (h : ∀ row ∈ rows, c.Draws (.underline active) row ∨ c.Draws (.text active) row) :
    ∃ views, (∀ view ∈ views, view = .underline active ∨ view = .text active) ∧
      List.Forall₂ c.Draws views rows := by
  induction rows with
  | nil => exact ⟨[], fun view hview => absurd hview List.not_mem_nil, .nil⟩
  | cons row rows ih =>
      obtain ⟨hrow, hrows⟩ := List.forall_mem_cons.1 h
      obtain ⟨views, hviews, hdraws⟩ := ih hrows
      rcases hrow with hrow | hrow
      · exact ⟨_, List.forall_mem_cons.2 ⟨.inl rfl, hviews⟩, .cons hrow hdraws⟩
      · exact ⟨_, List.forall_mem_cons.2 ⟨.inr rfl, hviews⟩, .cons hrow hdraws⟩

theorem draws_startRows (active : ActiveLeaders) (leads : List Leader) :
    List.Forall₂ c.Draws (startViews active leads) (c.startRows active leads).1 ∧
      (c.startRows active leads).2 = leads.foldl add active := by
  induction leads generalizing active with
  | nil => exact ⟨.nil, rfl⟩
  | cons lead leads ih =>
      exact ⟨.cons (c.draws_front (.top lead active)) (ih _).1, (ih _).2⟩

theorem wrapLine_ne_nil (available : Option Int) (line : Text) :
    c.wrapLine available line ≠ [] := by
  cases available with
  | none => exact List.cons_ne_nil _ _
  | some available =>
      rw [wrapLine]
      split
      · exact List.cons_ne_nil _ _
      · split <;> exact List.cons_ne_nil _ _

theorem wrap_ne_nil (text : Text) (col : Int) : c.wrap text col ≠ [] := by
  rw [wrap]
  cases h : text.lines with
  | nil => exact absurd h (Text.lines_ne_nil text)
  | cons line lines =>
      rw [List.flatMap_cons]
      exact fun hnil => c.wrapLine_ne_nil _ line (List.append_eq_nil_iff.1 hnil).1

theorem draws_replicate {view : View} {rows : List Row} (h : ∀ row ∈ rows, c.Draws view row) :
    List.Forall₂ c.Draws (List.replicate rows.length view) rows := by
  induction rows with
  | nil => exact .nil
  | cons row rows ih =>
      obtain ⟨hrow, hrows⟩ := List.forall_mem_cons.1 h
      exact .cons hrow (ih hrows)

/-- The end of a label is drawn as its marker, with a text beside it or not, and rows of text. -/
theorem draws_endRows (mode : Mode) (active after : ActiveLeaders) (lead : Leader) :
    ∃ drawn texts, c.endRows mode active after lead = .ok drawn ∧
      List.Forall₂ c.Draws (.bottom lead active :: List.replicate texts (.text after))
        drawn.rows := by
  have hplain := c.draws_front (.bottom lead active)
  have hnone : ∀ seg ∈ ([] : List Segment), seg.caret = false :=
    fun _ hseg => absurd hseg List.not_mem_nil
  have hbeside := c.draws_row_beside (.bottom lead active) fun _ => hnone
  rw [List.append_nil] at hbeside
  by_cases htext : lead.message = []
  · refine ⟨⟨[Row.trimmed ⟨.connector, c.front (.bottom lead active)⟩], []⟩, 0, ?_,
      .cons hplain .nil⟩
    simp only [endRows, htext, if_true]
    rfl
  · cases mode with
    | compact =>
        simp only [endRows, htext, if_false]
        split
        · exact ⟨_, 0, rfl, .cons (hbeside _ _) .nil⟩
        · exact ⟨_, 0, rfl, .cons hplain .nil⟩
    | expanded =>
        simp only [endRows, htext, if_false]
        cases hwrap : c.wrap lead.message (c.drawnCol lead.span.markerCol + 2) with
        | nil => exact absurd hwrap (c.wrap_ne_nil _ _)
        | cons first rest =>
            refine ⟨_, _, rfl, .cons (hbeside first _) (c.draws_replicate ?_)⟩
            intro row hrow
            obtain ⟨piece, -, rfl⟩ := List.mem_map.1 hrow
            refine ⟨_, by rw [List.append_assoc]; rfl, fun _ seg hseg => ?_⟩
            exact (List.mem_append.1 hseg).elim caret_of_mem_pad caret_of_mem_run

theorem draws_endAll (mode : Mode) {active : ActiveLeaders} {leads : List Leader}
    (halive : ∀ lead ∈ leads, active.Holds lead) (hslots : (leads.map Leader.slot).Nodup) :
    ∃ drawn views final, c.endAll mode active leads = .ok (drawn, final) ∧
      EndTrace active leads views final ∧ List.Forall₂ c.Draws views drawn.rows := by
  induction leads generalizing active with
  | nil => exact ⟨{}, [], active, rfl, .nil active, .nil⟩
  | cons lead leads ih =>
      obtain ⟨hlead, hleads⟩ := List.forall_mem_cons.1 halive
      obtain ⟨hout, hrest⟩ := List.nodup_cons.1 hslots
      have hfree := free_of_holds hlead
      have hstill : ∀ other ∈ leads, Holds (active.filter (·.slot != lead.slot)) other := by
        intro other hother
        refine (holds_of_free hfree).2 ⟨fun heq => hout ?_, hleads other hother⟩
        exact heq ▸ List.mem_map_of_mem hother
      obtain ⟨others, views, final, hothers, htrace, hdraws⟩ := ih hstill hrest
      obtain ⟨drawn, texts, hdrawn, hrows⟩ := c.draws_endRows mode active
        (active.filter (·.slot != lead.slot)) lead
      refine ⟨drawn ++ others, _, final, ?_, .cons texts hfree htrace, ?_⟩
      · simp only [endAll, hfree, hdrawn, hothers, ok_bind]
        rfl
      · rw [append_rows, ← List.cons_append]
        exact List.rel_append hrows hdraws

theorem holds_leadersAbove {line : LineLayout} (h : line.SlotsApart) {lead : Leader} :
    (leadersAbove line).Holds lead ↔ lead ∈ line.passing ∨ lead ∈ line.ending := by
  have hslots : ((line.passing ++ line.ending).map Leader.slot).Nodup := by
    rw [LineLayout.SlotsApart, LineLayout.leaders, List.map_append] at h
    exact (List.nodup_append.1 h).1
  rw [leadersAbove, holds_foldl_add hslots, List.mem_append, or_iff_left]
  exact fun hnil => not_holds_nil lead hnil.1

/-- The labels that end on a line are ended one after another, whatever starts there. -/
theorem draws_endAll_line (mode : Mode) {line : LineLayout} (h : line.SlotsApart) :
    ∃ drawn views below, c.endAll mode (line.starting.foldl add (leadersAbove line)) line.ending =
        .ok (drawn, below) ∧
      EndTrace (line.starting.foldl add (leadersAbove line)) line.ending views below ∧
      List.Forall₂ c.Draws views drawn.rows := by
  have hslots := h
  rw [LineLayout.SlotsApart, LineLayout.leaders, List.map_append, List.map_append,
    List.nodup_append, List.nodup_append] at hslots
  obtain ⟨⟨-, hending, -⟩, hstarting, hacross⟩ := hslots
  refine c.draws_endAll mode (fun lead hlead => ?_) hending
  refine (holds_foldl_add hstarting).2 (.inr ⟨(holds_leadersAbove h).2 (.inr hlead), ?_⟩)
  intro hmem
  exact hacross _ (List.mem_append_right _ (List.mem_map_of_mem hlead)) _ hmem rfl

theorem draws_drawLine (mode : Mode) {line : LineLayout} (h : line.SlotsApart) :
    ∃ drawn views below, c.drawLine mode line = .ok (drawn, below) ∧
      LineTrace line views below ∧ List.Forall₂ c.Draws views drawn.rows := by
  obtain ⟨labels, hlabels, hdrawlabels⟩ :=
    c.exists_views_of_draws (c.draws_labelRows mode (leadersAbove line) line)
  obtain ⟨hdrawstart, hstarted⟩ := c.draws_startRows (leadersAbove line) line.starting
  obtain ⟨ending, ends, below, hendAll, htrace, hdrawend⟩ := c.draws_endAll_line mode h
  refine ⟨{ rows := [c.sourceRow (leadersAbove line) line] } ++
    c.labelRows mode (leadersAbove line) line ++
    { rows := (c.startRows (leadersAbove line) line.starting).1 } ++ ending, _, below, ?_,
    .mk hlabels htrace, ?_⟩
  · simp only [drawLine, hstarted, hendAll, ok_bind]
    rfl
  · simp only [append_rows, List.append_assoc]
    exact .cons (c.draws_source line _)
      (List.rel_append hdrawlabels (List.rel_append hdrawstart hdrawend))

theorem draws_drawGroup (mode : Mode) {lines : List LineLayout} (active : ActiveLeaders)
    (h : ∀ line ∈ lines, line.SlotsApart) :
    ∃ drawn views final, c.drawGroup mode active lines = .ok (drawn, final) ∧
      GroupTrace active lines views final ∧ List.Forall₂ c.Draws views drawn.rows := by
  induction lines generalizing active with
  | nil => exact ⟨{}, [], active, rfl, .nil active, .nil⟩
  | cons line lines ih =>
      obtain ⟨hline, hlines⟩ := List.forall_mem_cons.1 h
      obtain ⟨drawn, views, below, hdrawn, htrace, hdraws⟩ := c.draws_drawLine mode hline
      obtain ⟨others, more, final, hothers, htraces, hdrawmore⟩ := ih below hlines
      refine ⟨drawn ++ others, _, final, ?_, .cons htrace htraces, ?_⟩
      · simp only [drawGroup, hdrawn, hothers, ok_bind]
        rfl
      · rw [append_rows]
        exact List.rel_append hdraws hdrawmore

theorem draws_drawRest (mode : Mode) {groups : List (List LineLayout)} (active : ActiveLeaders)
    (h : ∀ group ∈ groups, ∀ line ∈ group, line.SlotsApart) :
    ∃ drawn views, c.drawRest mode active groups = .ok drawn ∧ RestTrace active groups views ∧
      List.Forall₂ c.Draws views drawn.rows := by
  induction groups generalizing active with
  | nil => exact ⟨{}, [], rfl, .nil active, .nil⟩
  | cons group groups ih =>
      obtain ⟨hgroup, hgroups⟩ := List.forall_mem_cons.1 h
      obtain ⟨drawn, views, below, hdrawn, htrace, hdraws⟩ := c.draws_drawGroup mode active hgroup
      obtain ⟨others, more, hothers, htraces, hdrawmore⟩ := ih below hgroups
      refine ⟨{ rows := [c.elisionRow active] } ++ drawn ++ others, _, ?_,
        .cons htrace htraces, ?_⟩
      · simp only [drawRest, hdrawn, hothers, ok_bind]
        rfl
      · rw [append_rows, append_rows]
        exact .cons (c.draws_elision active) (List.rel_append hdraws hdrawmore)

/-- When no two leaders of a line are in one slot, the drawing succeeds and follows a trace. -/
theorem draws_draw (mode : Mode) (h : ∀ line ∈ c.layout.lines, line.SlotsApart) :
    ∃ drawn views, c.draw mode = .ok drawn ∧ Trace c.layout.groups views ∧
      List.Forall₂ c.Draws views drawn.rows := by
  have hlines : ∀ group ∈ c.layout.groups, ∀ line ∈ group, line.SlotsApart :=
    fun group hgroup line hline => h line (List.mem_flatten_of_mem hgroup hline)
  rw [draw]
  cases hgroups : c.layout.groups with
  | nil => exact ⟨{}, [], rfl, .nil, .nil⟩
  | cons group groups =>
      rw [hgroups] at hlines
      obtain ⟨hgroup, hrest⟩ := List.forall_mem_cons.1 hlines
      obtain ⟨drawn, views, below, hdrawn, htrace, hdraws⟩ := c.draws_drawGroup mode [] hgroup
      obtain ⟨others, more, hothers, htraces, hdrawmore⟩ := c.draws_drawRest mode below hrest
      refine ⟨drawn ++ others, _, ?_, .cons htrace htraces, ?_⟩
      · simp only [hdrawn, hothers, ok_bind]
        rfl
      · rw [append_rows]
        exact List.rel_append hdraws hdrawmore

end Canvas
end Excerpt
