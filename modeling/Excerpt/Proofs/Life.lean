import Excerpt.Proofs.Outcome

/-!
The life of a leader in a trace. It is ahead until the marker of its start, then alive on every row
up to the marker of its end, and has ended from there on. Line numbers alone say which of the three
it is between two lines, so the lines of a layout compose without looking at the slots again.
-/

namespace Excerpt

open ActiveLeaders

namespace View

/-- The leader has no part in the row. -/
def Lacks (lead : Leader) (view : View) : Prop :=
  ¬view.alive.Holds lead ∧ view.marker? ≠ some lead

/-- The leader runs past the row, whatever is marked on it. -/
def Runs (lead : Leader) (view : View) : Prop :=
  view.alive.Holds lead ∧ ∀ marker, view.marker? = some marker → marker.slot ≠ lead.slot

end View

inductive Stage where
  | ahead
  | alive
  | ended
deriving DecidableEq

/-- Rows that take a leader from one stage of its life to another. -/
inductive Life (lead : Leader) : Stage → List View → Stage → Prop
  | nil (stage) : Life lead stage [] stage
  | ahead {view views stage} :
      view.Lacks lead → Life lead .ahead views stage → Life lead .ahead (view :: views) stage
  | top {active views stage} :
      Life lead .alive views stage → Life lead .ahead (.top lead active :: views) stage
  | run {view views stage} :
      view.Runs lead → Life lead .alive views stage → Life lead .alive (view :: views) stage
  | bottom {active views stage} :
      Life lead .ended views stage → Life lead .alive (.bottom lead active :: views) stage
  | ended {view views stage} :
      view.Lacks lead → Life lead .ended views stage → Life lead .ended (view :: views) stage

namespace Life

variable {lead : Leader} {views others : List View}

theorem append {first middle last : Stage} (h : Life lead first views middle)
    (h' : Life lead middle others last) : Life lead first (views ++ others) last := by
  induction h with
  | nil => exact h'
  | ahead hview _ ih => exact .ahead hview (ih h')
  | top _ ih => exact .top (ih h')
  | run hview _ ih => exact .run hview (ih h')
  | bottom _ ih => exact .bottom (ih h')
  | ended hview _ ih => exact .ended hview (ih h')

theorem of_lacks {stage : Stage} (hstage : stage ≠ .alive) (h : ∀ view ∈ views, view.Lacks lead) :
    Life lead stage views stage := by
  induction views with
  | nil => exact .nil stage
  | cons view views ih =>
      obtain ⟨hview, hviews⟩ := List.forall_mem_cons.1 h
      cases stage with
      | ahead => exact .ahead hview (ih hviews)
      | alive => exact absurd rfl hstage
      | ended => exact .ended hview (ih hviews)

theorem of_runs (h : ∀ view ∈ views, view.Runs lead) : Life lead .alive views .alive := by
  induction views with
  | nil => exact .nil .alive
  | cons view views ih =>
      obtain ⟨hview, hviews⟩ := List.forall_mem_cons.1 h
      exact .run hview (ih hviews)

theorem lacks_of_ended {stage : Stage} (h : Life lead .ended views stage) :
    ∀ view ∈ views, view.Lacks lead := by
  induction views with
  | nil => exact fun view hview => absurd hview List.not_mem_nil
  | cons view views ih =>
      cases h with
      | ended hview hviews => exact List.forall_mem_cons.2 ⟨hview, ih hviews⟩

theorem split_of_alive (h : Life lead .alive views .ended) : ∃ between active after,
    views = between ++ .bottom lead active :: after ∧ (∀ view ∈ between, view.Runs lead) ∧
      ∀ view ∈ after, view.Lacks lead := by
  induction views with
  | nil => cases h
  | cons view views ih =>
      cases h with
      | run hview hviews =>
          obtain ⟨between, active, after, rfl, hbetween, hafter⟩ := ih hviews
          exact ⟨view :: between, active, after, rfl, List.forall_mem_cons.2 ⟨hview, hbetween⟩,
            hafter⟩
      | bottom hviews =>
          exact ⟨[], _, views, rfl, fun view hview => absurd hview List.not_mem_nil,
            hviews.lacks_of_ended⟩

/-- A whole life has one start, one end, and nothing but the leader in between. -/
theorem split (h : Life lead .ahead views .ended) : ∃ before above between below after,
    views = before ++ .top lead above :: (between ++ .bottom lead below :: after) ∧
      (∀ view ∈ before, view.Lacks lead) ∧ (∀ view ∈ between, view.Runs lead) ∧
      ∀ view ∈ after, view.Lacks lead := by
  induction views with
  | nil => cases h
  | cons view views ih =>
      cases h with
      | ahead hview hviews =>
          obtain ⟨before, above, between, below, after, rfl, hbefore, hrest⟩ := ih hviews
          exact ⟨view :: before, above, between, below, after, rfl,
            List.forall_mem_cons.2 ⟨hview, hbefore⟩, hrest⟩
      | top hviews =>
          obtain ⟨between, below, after, rfl, hrest⟩ := hviews.split_of_alive
          exact ⟨[], _, between, below, after, rfl,
            fun view hview => absurd hview List.not_mem_nil, hrest⟩

end Life

section Markers

variable {lead : Leader} {active final : ActiveLeaders} {leads : List Leader} {views : List View}

theorem lacks_startViews (hactive : ¬active.Holds lead) (hout : lead ∉ leads) :
    ∀ view ∈ startViews active leads, view.Lacks lead := by
  induction leads generalizing active with
  | nil => exact fun view hview => absurd hview List.not_mem_nil
  | cons first leads ih =>
      obtain ⟨hne, hout⟩ := not_or.1 (mt List.mem_cons.2 hout)
      refine List.forall_mem_cons.2 ⟨⟨hactive, fun heq => hne (Option.some.inj heq).symm⟩, ?_⟩
      refine ih (fun h => ?_) hout
      exact (holds_add_iff.1 h).elim hne fun h => hactive h.2

theorem runs_startViews (hactive : active.Holds lead) (hslots : lead.slot ∉ leads.map Leader.slot) :
    ∀ view ∈ startViews active leads, view.Runs lead := by
  induction leads generalizing active with
  | nil => exact fun view hview => absurd hview List.not_mem_nil
  | cons first leads ih =>
      obtain ⟨hne, hslots⟩ := not_or.1 (mt List.mem_cons.2 hslots)
      refine List.forall_mem_cons.2 ⟨⟨hactive, fun marker heq => ?_⟩, ?_⟩
      · rw [← Option.some.inj heq]
        exact Ne.symm hne
      · exact ih (holds_add_iff.2 (.inr ⟨hne, hactive⟩)) hslots

/-- Those that start before a leader do not touch it, those that start after it run beside it. -/
theorem life_startViews (hactive : ¬active.Holds lead) (hlead : lead ∈ leads)
    (hslots : (leads.map Leader.slot).Nodup) :
    Life lead .ahead (startViews active leads) .alive := by
  induction leads generalizing active with
  | nil => exact absurd hlead List.not_mem_nil
  | cons first leads ih =>
      obtain ⟨hout, hslots⟩ := List.nodup_cons.1 hslots
      by_cases heq : lead = first
      · subst heq
        exact .top (.of_runs (runs_startViews (holds_add_iff.2 (.inl rfl)) hout))
      · refine .ahead ⟨hactive, fun h => heq (Option.some.inj h).symm⟩ (ih (fun h => ?_) ?_ hslots)
        · exact (holds_add_iff.1 h).elim heq fun h => hactive h.2
        · exact (List.mem_cons.1 hlead).resolve_left heq

theorem lacks_texts {after : ActiveLeaders} (hafter : ¬after.Holds lead) (texts : Nat) :
    ∀ view ∈ List.replicate texts (View.text after), view.Lacks lead := by
  intro view hview
  rw [List.eq_of_mem_replicate hview]
  exact ⟨hafter, fun h => by cases h⟩

theorem runs_texts {after : ActiveLeaders} (hafter : after.Holds lead) (texts : Nat) :
    ∀ view ∈ List.replicate texts (View.text after), view.Runs lead := by
  intro view hview
  rw [List.eq_of_mem_replicate hview]
  exact ⟨hafter, fun marker h => by cases h⟩

theorem holds_of_endTrace (h : EndTrace active leads views final) :
    final.Holds lead ↔ active.Holds lead ∧ lead.slot ∉ leads.map Leader.slot := by
  induction h with
  | nil => simp
  | cons texts hfree _ ih =>
      rw [ih, holds_of_free hfree, List.map_cons, List.mem_cons, not_or]
      exact ⟨fun h => ⟨h.1.2, h.1.1, h.2⟩, fun h => ⟨⟨h.2.1, h.1⟩, h.2.2⟩⟩

theorem lacks_endTrace (h : EndTrace active leads views final) (hactive : ¬active.Holds lead)
    (hout : lead ∉ leads) : ∀ view ∈ views, view.Lacks lead := by
  induction h with
  | nil => exact fun view hview => absurd hview List.not_mem_nil
  | cons texts hfree _ ih =>
      obtain ⟨hne, hout⟩ := not_or.1 (mt List.mem_cons.2 hout)
      have hafter := fun h => hactive ((holds_of_free hfree).1 h).2
      refine List.forall_mem_cons.2 ⟨⟨hactive, fun h => hne (Option.some.inj h).symm⟩, ?_⟩
      exact List.forall_mem_append.2 ⟨lacks_texts hafter texts, ih hafter hout⟩

theorem runs_endTrace (h : EndTrace active leads views final) (hactive : active.Holds lead)
    (hslots : lead.slot ∉ leads.map Leader.slot) : ∀ view ∈ views, view.Runs lead := by
  induction h with
  | nil => exact fun view hview => absurd hview List.not_mem_nil
  | cons texts hfree _ ih =>
      obtain ⟨hne, hslots⟩ := not_or.1 (mt List.mem_cons.2 hslots)
      have hafter := (holds_of_free hfree).2 ⟨hne, hactive⟩
      refine List.forall_mem_cons.2 ⟨⟨hactive, fun marker h => ?_⟩, ?_⟩
      · rw [← Option.some.inj h]
        exact Ne.symm hne
      · exact List.forall_mem_append.2 ⟨runs_texts hafter texts, ih hafter hslots⟩

theorem life_endTrace (h : EndTrace active leads views final) (hactive : active.Holds lead)
    (hlead : lead ∈ leads) (hslots : (leads.map Leader.slot).Nodup) :
    Life lead .alive views .ended := by
  induction h with
  | nil => exact absurd hlead List.not_mem_nil
  | @cons active after final first rest views texts hfree hrest ih =>
      obtain ⟨hout, hslots⟩ := List.nodup_cons.1 hslots
      rcases List.mem_cons.1 hlead with rfl | hlead
      · have hafter := fun h => ((holds_of_free hfree).1 h).1 rfl
        refine .bottom (.of_lacks (by decide) (List.forall_mem_append.2
          ⟨lacks_texts hafter texts, lacks_endTrace hrest hafter fun hmem => ?_⟩))
        exact hout (List.mem_map_of_mem hmem)
      · have hne : lead.slot ≠ first.slot := fun h => hout (h ▸ List.mem_map_of_mem hlead)
        have hafter := (holds_of_free hfree).2 ⟨hne, hactive⟩
        refine .run ⟨hactive, fun marker h => ?_⟩ (.append (.of_runs (runs_texts hafter texts))
          (ih hafter hlead hslots))
        rw [← Option.some.inj h]
        exact Ne.symm hne

end Markers

section Line

variable {lead : Leader} {line : LineLayout} {views : List View} {below : ActiveLeaders}

/-- What keeps the slots of the labels on a line apart, one group of labels against another. -/
theorem slots_of_slotsApart (h : line.SlotsApart) :
    (line.starting.map Leader.slot).Nodup ∧ (line.ending.map Leader.slot).Nodup ∧
      (∀ lead ∈ line.passing, lead.slot ∉ line.starting.map Leader.slot ∧
        lead.slot ∉ line.ending.map Leader.slot) ∧
      (∀ lead ∈ line.ending, lead.slot ∉ line.starting.map Leader.slot) ∧
      ∀ lead ∈ line.starting, lead ∉ line.passing ∧ lead ∉ line.ending ∧
        lead.slot ∉ line.ending.map Leader.slot := by
  rw [LineLayout.SlotsApart, LineLayout.leaders, List.map_append, List.map_append,
    List.nodup_append, List.nodup_append] at h
  obtain ⟨⟨-, hending, hpass⟩, hstarting, hstart⟩ := h
  have hslot : ∀ {lead : Leader} {leads : List Leader}, lead ∈ leads →
      lead.slot ∈ leads.map Leader.slot := List.mem_map_of_mem
  refine ⟨hstarting, hending, fun lead hlead => ⟨fun h => ?_, fun h => ?_⟩, fun lead hlead h => ?_,
    fun lead hlead => ⟨fun h => ?_, fun h => ?_, fun h => ?_⟩⟩
  · exact hstart _ (List.mem_append_left _ (hslot hlead)) _ h rfl
  · exact hpass _ (hslot hlead) _ h rfl
  · exact hstart _ (List.mem_append_right _ (hslot hlead)) _ h rfl
  · exact hstart _ (List.mem_append_left _ (hslot h)) _ (hslot hlead) rfl
  · exact hstart _ (List.mem_append_right _ (hslot h)) _ (hslot hlead) rfl
  · exact hstart _ (List.mem_append_right _ h) _ (hslot hlead) rfl

theorem lacks_labels {active : ActiveLeaders} {labels : List View}
    (h : ∀ view ∈ labels, view = .underline active ∨ view = .text active)
    (hactive : ¬active.Holds lead) : ∀ view ∈ labels, view.Lacks lead := by
  intro view hview
  rcases h view hview with rfl | rfl
  · exact ⟨hactive, fun h => by cases h⟩
  · exact ⟨hactive, fun h => by cases h⟩

theorem runs_labels {active : ActiveLeaders} {labels : List View}
    (h : ∀ view ∈ labels, view = .underline active ∨ view = .text active)
    (hactive : active.Holds lead) : ∀ view ∈ labels, view.Runs lead := by
  intro view hview
  rcases h view hview with rfl | rfl
  · exact ⟨hactive, fun marker h => by cases h⟩
  · exact ⟨hactive, fun marker h => by cases h⟩

/-- Below a line are alive the leaders that pass it and those that start on it. -/
theorem holds_of_lineTrace (h : LineTrace line views below) (hline : line.SlotsApart) :
    below.Holds lead ↔ lead ∈ line.passing ∨ lead ∈ line.starting := by
  obtain ⟨-, hends⟩ := h
  obtain ⟨hstarting, -, hpass, hend, hstart⟩ := slots_of_slotsApart hline
  rw [holds_of_endTrace hends, holds_foldl_add hstarting, Canvas.holds_leadersAbove hline]
  constructor
  · rintro ⟨hmem | ⟨hpassing | hending, -⟩, hslot⟩
    · exact .inr hmem
    · exact .inl hpassing
    · exact absurd (List.mem_map_of_mem hending) hslot
  · rintro (hmem | hmem)
    · exact ⟨.inr ⟨.inl hmem, (hpass lead hmem).1⟩, (hpass lead hmem).2⟩
    · exact ⟨.inl hmem, (hstart lead hmem).2.2⟩

theorem lacks_of_lineTrace (h : LineTrace line views below) (hline : line.SlotsApart)
    (hout : lead ∉ line.leaders) : ∀ view ∈ views, view.Lacks lead := by
  obtain ⟨hlabels, hends⟩ := h
  rw [LineLayout.leaders, List.mem_append, List.mem_append, not_or, not_or] at hout
  obtain ⟨⟨hpassing, hending⟩, hstarting⟩ := hout
  have habove : ¬(Canvas.leadersAbove line).Holds lead := by
    rw [Canvas.holds_leadersAbove hline, not_or]
    exact ⟨hpassing, hending⟩
  have hstarted : ¬(line.starting.foldl add (Canvas.leadersAbove line)).Holds lead := by
    rw [holds_foldl_add (slots_of_slotsApart hline).1]
    exact fun h => h.elim hstarting fun h => habove h.1
  refine List.forall_mem_cons.2 ⟨⟨habove, fun h => by cases h⟩, List.forall_mem_append.2
    ⟨lacks_labels hlabels habove, List.forall_mem_append.2
      ⟨lacks_startViews habove hstarting, lacks_endTrace hends hstarted hending⟩⟩⟩

theorem life_starting (h : LineTrace line views below) (hline : line.SlotsApart)
    (hlead : lead ∈ line.starting) : Life lead .ahead views .alive := by
  obtain ⟨hlabels, hends⟩ := h
  obtain ⟨hstarting, -, -, -, hstart⟩ := slots_of_slotsApart hline
  obtain ⟨hpassing, hending, hslot⟩ := hstart lead hlead
  have habove : ¬(Canvas.leadersAbove line).Holds lead := by
    rw [Canvas.holds_leadersAbove hline, not_or]
    exact ⟨hpassing, hending⟩
  refine .ahead ⟨habove, fun h => by cases h⟩ (.append (.of_lacks (by decide)
    (lacks_labels hlabels habove)) (.append (life_startViews habove hlead hstarting) ?_))
  exact .of_runs (runs_endTrace hends ((holds_foldl_add hstarting).2 (.inl hlead)) hslot)

theorem life_passing (h : LineTrace line views below) (hline : line.SlotsApart)
    (hlead : lead ∈ line.passing) : Life lead .alive views .alive := by
  obtain ⟨hlabels, hends⟩ := h
  obtain ⟨hstarting, -, hpass, -, -⟩ := slots_of_slotsApart hline
  obtain ⟨hslot, hslotend⟩ := hpass lead hlead
  have habove : (Canvas.leadersAbove line).Holds lead :=
    (Canvas.holds_leadersAbove hline).2 (.inl hlead)
  refine .run ⟨habove, fun marker h => by cases h⟩ (.append (.of_runs (runs_labels hlabels habove))
    (.append (.of_runs (runs_startViews habove hslot))
      (.of_runs (runs_endTrace hends ?_ hslotend))))
  exact (holds_foldl_add hstarting).2 (.inr ⟨habove, hslot⟩)

theorem life_ending (h : LineTrace line views below) (hline : line.SlotsApart)
    (hlead : lead ∈ line.ending) : Life lead .alive views .ended := by
  obtain ⟨hlabels, hends⟩ := h
  obtain ⟨hstarting, hending, -, hend, -⟩ := slots_of_slotsApart hline
  have hslot := hend lead hlead
  have habove : (Canvas.leadersAbove line).Holds lead :=
    (Canvas.holds_leadersAbove hline).2 (.inr hlead)
  refine .run ⟨habove, fun marker h => by cases h⟩ (.append (.of_runs (runs_labels hlabels habove))
    (.append (.of_runs (runs_startViews habove hslot)) (life_endTrace hends ?_ hlead hending)))
  exact (holds_foldl_add hstarting).2 (.inr ⟨habove, hslot⟩)

end Line

/-- The stage of a leader between the lines above a number and the line of that number. -/
def Leader.stageBefore (lead : Leader) (number : Nat) : Stage :=
  if number ≤ lead.span.startLine then .ahead
  else if number ≤ lead.span.endLine then .alive
  else .ended

namespace Leader

variable {lead : Leader} {number : Nat}

theorem stageBefore_ahead (h : number ≤ lead.span.startLine) : lead.stageBefore number = .ahead :=
  if_pos h

theorem stageBefore_alive (h : lead.span.startLine < number) (h' : number ≤ lead.span.endLine) :
    lead.stageBefore number = .alive := by
  rw [stageBefore, if_neg (by omega), if_pos h']

theorem stageBefore_ended (h : lead.span.startLine ≤ lead.span.endLine)
    (h' : lead.span.endLine < number) : lead.stageBefore number = .ended := by
  rw [stageBefore, if_neg (by omega), if_neg (by omega)]

end Leader

namespace Layout

variable {w : CellWidth} {config : Config} {source : Source} {placed : List PlacedLabel}
  (hindex : (placed.map PlacedLabel.index).Nodup)
  (hwithin : ∀ lab ∈ placed, lab.span.Within source.lineCount)

theorem startLine_lt_endLine (hwithin : ∀ lab ∈ placed, lab.span.Within source.lineCount)
    {lead : Leader} (hlead : lead ∈ leadersOf placed) :
    lead.span.startLine < lead.span.endLine := by
  obtain ⟨hplaced, hmulti⟩ := mem_of_mem_leadersOf hlead
  have hrising := (hwithin _ hplaced).rising
  rw [ResolvedSpan.isMultiline, bne_iff_ne] at hmulti
  omega

theorem not_mem_leaders_layLine {number : Nat} {text : Text} {lead : Leader}
    (hout : number < lead.span.startLine ∨ lead.span.endLine < number)
    (hle : lead.span.startLine ≤ lead.span.endLine) :
    lead ∉ (layLine placed (leadersOf placed) number text).leaders := by
  intro h
  rw [LineLayout.leaders, List.mem_append, List.mem_append, mem_passing_layLine,
    mem_ending_layLine, mem_starting_layLine] at h
  omega

include hindex hwithin

theorem slotsApart_shownLine (number : Nat) :
    (shownLine w config source placed number).SlotsApart :=
  slotsApart_layLine number _ hindex fun lab hlab => (hwithin lab hlab).rising

theorem life_shownLine {number : Nat} {views : List View} {below : ActiveLeaders}
    (h : LineTrace (shownLine w config source placed number) views below) {lead : Leader}
    (hlead : lead ∈ leadersOf placed) :
    Life lead (lead.stageBefore number) views (lead.stageBefore (number + 1)) := by
  have hline := @slotsApart_shownLine w config source placed hindex hwithin number
  have hlt := startLine_lt_endLine hwithin hlead
  rcases Nat.lt_trichotomy number lead.span.startLine with hahead | hstart | hbehind
  · rw [Leader.stageBefore_ahead (by omega), Leader.stageBefore_ahead (by omega)]
    exact .of_lacks (by decide) (lacks_of_lineTrace h hline
      (not_mem_leaders_layLine (.inl hahead) (by omega)))
  · rw [Leader.stageBefore_ahead (by omega), Leader.stageBefore_alive (by omega) (by omega)]
    exact life_starting h hline ((mem_starting_layLine number _).2 ⟨hlead, hstart.symm⟩)
  · rcases Nat.lt_trichotomy number lead.span.endLine with hpass | hend | hover
    · rw [Leader.stageBefore_alive hbehind (by omega),
        Leader.stageBefore_alive (by omega) (by omega)]
      exact life_passing h hline ((mem_passing_layLine number _).2 ⟨hlead, hbehind, hpass⟩)
    · rw [Leader.stageBefore_alive hbehind (by omega),
        Leader.stageBefore_ended (by omega) (by omega)]
      exact life_ending h hline ((mem_ending_layLine number _).2 ⟨hlead, by omega, hend.symm⟩)
    · rw [Leader.stageBefore_ended (by omega) hover, Leader.stageBefore_ended (by omega) (by omega)]
      exact .of_lacks (by decide) (lacks_of_lineTrace h hline
        (not_mem_leaders_layLine (.inr hover) (by omega)))

theorem life_lines {first count : Nat} {active final : ActiveLeaders} {views : List View}
    (h : GroupTrace active ((List.range' first count).map (shownLine w config source placed))
      views final) {lead : Leader} (hlead : lead ∈ leadersOf placed) :
    Life lead (lead.stageBefore first) views (lead.stageBefore (first + count)) := by
  induction count generalizing first active views with
  | zero =>
      cases h
      exact .nil _
  | succ count ih =>
      rw [List.range'_succ, List.map_cons] at h
      cases h with
      | cons hline hrest =>
          rw [← Nat.add_assoc, Nat.add_right_comm]
          exact (life_shownLine hindex hwithin hline hlead).append (ih hrest)

/-- Below lines that follow one another only those leaders are alive that go on behind them. -/
theorem holds_of_lines {first count : Nat} {active final : ActiveLeaders} {views : List View}
    (h : GroupTrace active ((List.range' first (count + 1)).map (shownLine w config source placed))
      views final) {lead : Leader} (hlead : final.Holds lead) :
    lead ∈ leadersOf placed ∧ lead.span.startLine ≤ first + count ∧
      first + count < lead.span.endLine := by
  induction count generalizing first active views with
  | zero =>
      cases h with
      | cons hline hrest =>
          cases hrest
          have hbelow := (holds_of_lineTrace hline
            (slotsApart_shownLine hindex hwithin first)).1 hlead
          rcases hbelow with hmem | hmem
          · obtain ⟨hmem, hstart, hend⟩ := (mem_passing_layLine first _).1 hmem
            exact ⟨hmem, by omega, by omega⟩
          · obtain ⟨hmem, hstart⟩ := (mem_starting_layLine first _).1 hmem
            have hlt := startLine_lt_endLine hwithin hmem
            exact ⟨hmem, by omega, by omega⟩
  | succ count ih =>
      rw [List.range'_succ, List.map_cons] at h
      cases h with
      | cons hline hrest =>
          obtain ⟨hmem, hstart, hend⟩ := ih hrest
          exact ⟨hmem, by omega, by omega⟩

omit hindex hwithin

theorem lineNumbers_eq_range' (range : LineRange) : lineNumbers range =
    List.range' range.first.toNat (range.last + 1 - range.first).toNat := by
  rw [lineNumbers, List.range'_eq_map_range]

def shownGroup (w : CellWidth) (config : Config) (source : Source) (placed : List PlacedLabel)
    (range : LineRange) : List LineLayout :=
  (lineNumbers range).map (shownLine w config source placed)

/-- The groups are apart, so of two of them one is above the other. -/
theorem shownRanges_apart {a b : LineRange} (ha : a ∈ shownRanges config source placed)
    (hb : b ∈ shownRanges config source placed) : a = b ∨ a.last < b.first ∨ b.last < a.first := by
  have hgap := config.gap_nonneg
  rcases eq_or_apart (groupLines_apart (placed.map lineRange) source.lineCount config.context
    config.gap) ha hb with heq | hlt | hlt
  · exact .inl heq
  · exact .inr (.inl (by omega))
  · exact .inr (.inr (by omega))

include hwithin

theorem exists_range_of_leader {lead : Leader} (hlead : lead ∈ leadersOf placed) :
    ∃ range ∈ shownRanges config source placed, range.first ≤ lead.span.startLine ∧
      lead.span.endLine ≤ range.last :=
  exists_range_of_mem hwithin (mem_of_mem_leadersOf hlead).1

include hindex

theorem life_group {range : LineRange} (hrange : range.Within source.lineCount)
    {active final : ActiveLeaders} {views : List View}
    (h : GroupTrace active (shownGroup w config source placed range) views final) {lead : Leader}
    (hlead : lead ∈ leadersOf placed) : Life lead (lead.stageBefore range.first.toNat) views
      (lead.stageBefore (range.last + 1).toNat) := by
  obtain ⟨hfirst, hle, -⟩ := hrange
  rw [shownGroup, lineNumbers_eq_range'] at h
  have hlife := life_lines hindex hwithin h hlead
  rwa [show range.first.toNat + (range.last + 1 - range.first).toNat = (range.last + 1).toNat by
    omega] at hlife

theorem not_holds_below {range : LineRange} (hrange : range ∈ shownRanges config source placed)
    {active final : ActiveLeaders} {views : List View}
    (h : GroupTrace active (shownGroup w config source placed range) views final)
    (lead : Leader) : ¬final.Holds lead := by
  intro hlead
  obtain ⟨hfirst, hle, -⟩ := shownRanges_within hwithin range hrange
  rw [shownGroup, lineNumbers_eq_range', show (range.last + 1 - range.first).toNat =
    (range.last - range.first).toNat + 1 by omega] at h
  obtain ⟨hmem, hstart, hend⟩ := holds_of_lines hindex hwithin h hlead
  obtain ⟨other, hother, hlow, hhigh⟩ :=
    @exists_range_of_leader config source placed hwithin lead hmem
  rcases shownRanges_apart hrange hother with rfl | habove | hbelow
  · omega
  · omega
  · omega

section Ranges

variable {ranges : List LineRange}
  (hranges : ∀ range ∈ ranges, range ∈ shownRanges config source placed)
  {lead : Leader} (hlead : lead ∈ leadersOf placed)

include hranges hlead

theorem life_rest_ended (hover : ∀ range ∈ ranges, lead.span.endLine < range.first)
    {active : ActiveLeaders} (hactive : ∀ lead, ¬active.Holds lead) {views : List View}
    (h : RestTrace active (ranges.map (shownGroup w config source placed)) views) :
    Life lead .ended views .ended := by
  induction ranges generalizing active views with
  | nil =>
      cases h
      exact .nil .ended
  | cons range ranges ih =>
      obtain ⟨hrange, hrest⟩ := List.forall_mem_cons.1 hranges
      obtain ⟨hbehind, hover⟩ := List.forall_mem_cons.1 hover
      have hlt := startLine_lt_endLine hwithin hlead
      have hbounds := shownRanges_within hwithin range hrange
      obtain ⟨hfirst, hle, -⟩ := id hbounds
      cases h with
      | cons hgroup htail =>
          have hlife := life_group hindex hwithin hbounds hgroup hlead
          rw [Leader.stageBefore_ended (by omega) (by omega),
            Leader.stageBefore_ended (by omega) (by omega)] at hlife
          exact .ended ⟨hactive lead, fun h => by cases h⟩ (hlife.append (ih hrest hover
            (not_holds_below hindex hwithin hrange hgroup) htail))

theorem life_rest_ahead (hsorted : ranges.Pairwise fun a b => a.last < b.first)
    (hheld : ∃ range ∈ ranges, range.first ≤ lead.span.startLine ∧
      lead.span.endLine ≤ range.last)
    {active : ActiveLeaders} (hactive : ∀ lead, ¬active.Holds lead) {views : List View}
    (h : RestTrace active (ranges.map (shownGroup w config source placed)) views) :
    Life lead .ahead views .ended := by
  induction ranges generalizing active views with
  | nil =>
      obtain ⟨range, hrange, -⟩ := hheld
      exact absurd hrange List.not_mem_nil
  | cons range ranges ih =>
      obtain ⟨hrange, hrest⟩ := List.forall_mem_cons.1 hranges
      obtain ⟨hbelow, hsorted⟩ := List.pairwise_cons.1 hsorted
      have hlt := startLine_lt_endLine hwithin hlead
      have hbounds := shownRanges_within hwithin range hrange
      obtain ⟨hfirst, hle, -⟩ := id hbounds
      cases h with
      | cons hgroup htail =>
          have hlife := life_group hindex hwithin hbounds hgroup hlead
          have hnone := not_holds_below hindex hwithin hrange hgroup
          refine .ahead ⟨hactive lead, fun h => by cases h⟩ ?_
          obtain ⟨home, hhome, hlow, hhigh⟩ := hheld
          rcases List.mem_cons.1 hhome with rfl | hhome
          · -- The leader lives and dies in this group.
            rw [Leader.stageBefore_ahead (by omega),
              Leader.stageBefore_ended (by omega) (by omega)] at hlife
            refine hlife.append (life_rest_ended hindex hwithin hrest hlead ?_ hnone htail)
            intro other hother
            have := hbelow other hother
            omega
          · have habove := hbelow home hhome
            rw [Leader.stageBefore_ahead (by omega), Leader.stageBefore_ahead (by omega)] at hlife
            exact hlife.append (ih hrest hsorted ⟨home, hhome, hlow, hhigh⟩ hnone htail)

omit hlead

theorem not_holds_of_elision_rest {active : ActiveLeaders}
    (hactive : ∀ lead, ¬active.Holds lead) {views : List View}
    (h : RestTrace active (ranges.map (shownGroup w config source placed)) views) :
    ∀ view ∈ views, view.kind = .elision → ∀ lead, ¬view.alive.Holds lead := by
  induction ranges generalizing active views with
  | nil =>
      cases h
      exact fun view hview => absurd hview List.not_mem_nil
  | cons range ranges ih =>
      obtain ⟨hrange, hrest⟩ := List.forall_mem_cons.1 hranges
      cases h with
      | cons hgroup htail =>
          refine List.forall_mem_cons.2 ⟨fun _ => hactive, List.forall_mem_append.2 ⟨?_, ?_⟩⟩
          · exact fun view hview hkind =>
              absurd hkind (not_elision_of_groupTrace hgroup view hview)
          · exact ih hrest (not_holds_below hindex hwithin hrange hgroup) htail

end Ranges

section Whole

variable {views : List View}
  (h : Trace ((shownRanges config source placed).map (shownGroup w config source placed)) views)

include h

/-- In the trace of a layout every leader lives its life from start to end. -/
theorem life_trace {lead : Leader} (hlead : lead ∈ leadersOf placed) :
    Life lead .ahead views .ended := by
  obtain ⟨home, hhome, hheld⟩ := @exists_range_of_leader config source placed hwithin lead hlead
  have hne : (shownRanges config source placed).map (shownGroup w config source placed) ≠ [] :=
    List.ne_nil_of_mem (List.mem_map_of_mem hhome)
  have hsorted : (shownRanges config source placed).Pairwise fun a b => a.last < b.first := by
    have hgap := config.gap_nonneg
    refine (groupLines_apart (placed.map lineRange) source.lineCount config.context
      config.gap).imp ?_
    intro a b hab
    omega
  have hlife := life_rest_ahead hindex hwithin (fun range hrange => hrange) hlead hsorted
    ⟨home, hhome, hheld⟩ not_holds_nil (h.rest hne)
  cases hlife with
  | ahead _ hviews => exact hviews

theorem not_holds_of_elision :
    ∀ view ∈ views, view.kind = .elision → ∀ lead, ¬view.alive.Holds lead := by
  intro view hview
  have hne : (shownRanges config source placed).map (shownGroup w config source placed) ≠ [] := by
    intro hnil
    rw [hnil] at h
    cases h
    exact List.not_mem_nil hview
  exact not_holds_of_elision_rest hindex hwithin (fun range hrange => hrange) not_holds_nil
    (h.rest hne) view (List.mem_cons_of_mem _ hview)

end Whole

end Layout
end Excerpt
