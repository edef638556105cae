import Excerpt.Proofs.Coverage
import Excerpt.Proofs.Glyphs
import Excerpt.Proofs.Life
import Excerpt.Proofs.Outcome

/-!
Which lines know of which labels. A layout shows lines of the file in rising order, each at most
once. A label on one line is underlined on that line and nowhere else; a label over several lines
starts on its first line, ends on its last and passes those between, all of them in one group.
-/

namespace Excerpt

namespace LineLayout

/-- The labels that a line knows of, list by list. -/
def known (line : LineLayout) : List PlacedLabel :=
  line.labels ++ (line.through ++ line.ending ++ line.starting).map Leader.toPlacedLabel

end LineLayout

namespace Layout

/-- The shown lines: those of a group follow one another, a later group is further down, all of them
are in a file of `lineCount` lines, and their numbers fit in the gutter. -/
structure InOrder (layout : Layout) (lineCount : Nat) : Prop where
  nodup : (layout.lines.map LineLayout.number).Nodup
  consecutive : ∀ group ∈ layout.groups,
    ∃ first, group.map LineLayout.number = List.range' first group.length
  rising : layout.groups.Pairwise fun a b => ∀ above ∈ a, ∀ below ∈ b, above.number < below.number
  below : ∀ line ∈ layout.lines, line.number < lineCount
  digits : ∀ line ∈ layout.lines, (toString (line.number + 1)).length ≤ layout.numberWidth

/-- A label on one line is underlined on that line, on the rung that is scheduled, and is in no list
of any other line. -/
structure OnOwnLine (layout : Layout) (lab : PlacedLabel) : Prop where
  shown : ∃! line, line ∈ layout.lines ∧ lab ∈ line.labels
  rung : ∀ line ∈ layout.lines, lab ∈ line.labels →
    ∃ rung, line.schedule.lookup lab.index = some (some rung) ∧
      ∀ other, (lab, other) ∈ line.singles ↔ other = rung
  known : ∀ line ∈ layout.lines, lab ∈ line.known ↔ line.number = lab.span.startLine

/-- A label over several lines starts on its first line, ends on its last one, passes the lines
between, and is in no list of any other line. -/
structure OnAllLines (layout : Layout) (lead : Leader) : Prop where
  starting : ∀ line ∈ layout.lines, lead ∈ line.starting ↔ line.number = lead.span.startLine
  ending : ∀ line ∈ layout.lines, lead ∈ line.ending ↔ line.number = lead.span.endLine
  through : ∀ line ∈ layout.lines,
    lead ∈ line.through ↔ lead.span.startLine < line.number ∧ line.number < lead.span.endLine
  passing : ∀ line ∈ layout.lines, lead ∈ line.passing ↔ lead ∈ line.through
  known : ∀ line ∈ layout.lines, lead.toPlacedLabel ∈ line.known ↔
    lead.span.startLine ≤ line.number ∧ line.number ≤ lead.span.endLine

/-- Every label is laid out on all of its lines, and in one list of a line at most. -/
structure LaidOut (layout : Layout) (lineCount : Nat) : Prop where
  inOrder : layout.InOrder lineCount
  once : ∀ line ∈ layout.lines, (line.known.map PlacedLabel.index).Nodup
  scheduled : ∀ line ∈ layout.lines,
    line.schedule = scheduleLine line.labels (line.through.map (·.index))
  together : ∀ lab ∈ layout.labels, ∃ group ∈ layout.groups, ∀ number,
    lab.span.startLine ≤ number → number ≤ lab.span.endLine →
      ∃ line ∈ group, line.number = number
  single : ∀ lab ∈ layout.labels, lab.span.isMultiline = false → layout.OnOwnLine lab
  multiline : ∀ lab ∈ layout.labels, lab.span.isMultiline = true →
    ∃ lead ∈ layout.leaders, lead.toPlacedLabel = lab ∧ layout.OnAllLines lead

variable {w : CellWidth} {config : Config} {source : Source} {placed : List PlacedLabel}

theorem groups_ofPlaced (title : Text) : (ofPlaced w config title source placed).groups =
    (shownRanges config source placed).map (shownGroup w config source placed) := rfl

theorem numbers_shownGroup (range : LineRange) :
    (shownGroup w config source placed range).map LineLayout.number = lineNumbers range := by
  rw [shownGroup, List.map_map]
  exact List.map_id _

theorem numbers_ofPlaced (title : Text) :
    (ofPlaced w config title source placed).lines.map LineLayout.number =
      shownNumbers config source placed := by
  rw [lines_ofPlaced, List.map_map]
  exact List.map_id _

section Within

variable (title : Text) (hwithin : ∀ lab ∈ placed, lab.span.Within source.lineCount)

include hwithin

theorem inOrder_ofPlaced :
    (ofPlaced w config title source placed).InOrder source.lineCount where
  nodup := by
    rw [numbers_ofPlaced]
    exact (shownNumbers_pairwise hwithin).imp Nat.ne_of_lt
  consecutive := by
    intro group hgroup
    rw [groups_ofPlaced] at hgroup
    obtain ⟨range, -, rfl⟩ := List.mem_map.1 hgroup
    refine ⟨range.first.toNat, ?_⟩
    rw [← List.length_map (f := LineLayout.number), numbers_shownGroup, lineNumbers_eq_range',
      List.length_range']
  rising := by
    rw [groups_ofPlaced, List.pairwise_map]
    apply (lineNumbers_rising hwithin).imp
    intro a b hrising above habove below hbelow
    have hmem := fun {range line} (h : line ∈ shownGroup w config source placed range) =>
      numbers_shownGroup range ▸ List.mem_map_of_mem (f := LineLayout.number) h
    exact hrising _ (hmem habove) _ (hmem hbelow)
  below := by
    intro line hline
    obtain ⟨range, hrange, number, hnumber, rfl⟩ := exists_number_of_mem_lines hline
    exact (shown_line_ok hwithin hrange hnumber).1
  digits := fun line hline => digits_le_numberWidth hwithin title hline

theorem together_ofPlaced {lab : PlacedLabel} (hlab : lab ∈ placed) :
    ∃ group ∈ (ofPlaced w config title source placed).groups, ∀ number,
      lab.span.startLine ≤ number → number ≤ lab.span.endLine →
        ∃ line ∈ group, line.number = number := by
  obtain ⟨range, hrange, hfirst, hlast⟩ :=
    @exists_range_of_mem config source placed hwithin lab hlab
  refine ⟨shownGroup w config source placed range, List.mem_map_of_mem hrange, ?_⟩
  intro number hlow hhigh
  have hnumber : number ∈ lineNumbers range :=
    (mem_lineNumbers (shownRanges_within hwithin range hrange).1).2 ⟨by omega, by omega⟩
  exact ⟨shownLine w config source placed number, List.mem_map_of_mem hnumber, rfl⟩

end Within

section Known

variable (hindex : (placed.map PlacedLabel.index).Nodup)

include hindex

theorem scheduled_shownLine (number : Nat) :
    (shownLine w config source placed number).schedule =
      scheduleLine (shownLine w config source placed number).labels
        ((shownLine w config source placed number).through.map (·.index)) := by
  rw [labels_shownLine hindex]
  rfl

theorem mem_labels_shownLine {number : Nat} {lab : PlacedLabel} :
    lab ∈ (shownLine w config source placed number).labels ↔
      lab ∈ placed ∧ lab.span.isMultiline = false ∧ lab.span.startLine = number := by
  rw [labels_shownLine hindex, mem_singlesOf]

omit hindex in
theorem passing_shownLine (number : Nat) : (shownLine w config source placed number).passing =
    (shownLine w config source placed number).through := passing_layLine number _

omit hindex in
theorem known_shownLine (number : Nat) : (shownLine w config source placed number).known =
    (shownLine w config source placed number).labels ++
      (shownLine w config source placed number).leaders.map Leader.toPlacedLabel := by
  rw [LineLayout.known, LineLayout.leaders, passing_shownLine]

variable (hwithin : ∀ lab ∈ placed, lab.span.Within source.lineCount)

include hwithin

omit hindex in
theorem mem_leaders_shownLine {number : Nat} {lead : Leader} :
    lead ∈ (shownLine w config source placed number).leaders ↔
      lead ∈ leadersOf placed ∧ lead.span.startLine ≤ number ∧ number ≤ lead.span.endLine :=
  mem_leaders_layLine number _ fun lab hlab => (hwithin lab hlab).rising

/-- A line knows of the labels that have it among their lines. -/
theorem mem_known_shownLine {number : Nat} {lab : PlacedLabel} :
    lab ∈ (shownLine w config source placed number).known ↔
      lab ∈ placed ∧ lab.span.startLine ≤ number ∧ number ≤ lab.span.endLine := by
  rw [known_shownLine, List.mem_append, mem_labels_shownLine hindex, List.mem_map]
  constructor
  · rintro (⟨hlab, hsingle, rfl⟩ | ⟨lead, hlead, rfl⟩)
    · exact ⟨hlab, Nat.le_refl _, (hwithin lab hlab).rising⟩
    · obtain ⟨hlead, hlines⟩ := (mem_leaders_shownLine hwithin).1 hlead
      exact ⟨(mem_of_mem_leadersOf hlead).1, hlines⟩
  · rintro ⟨hlab, hlow, hhigh⟩
    cases hmulti : lab.span.isMultiline with
    | false =>
        rw [ResolvedSpan.isMultiline, bne_eq_false_iff_eq] at hmulti
        exact .inl ⟨hlab, rfl, by omega⟩
    | true =>
        obtain ⟨lead, hlead, rfl⟩ := exists_mem_leadersOf hlab hmulti
        exact .inr ⟨lead, (mem_leaders_shownLine hwithin).2 ⟨hlead, hlow, hhigh⟩, rfl⟩

/-- No label is twice among those that a line knows of. -/
theorem nodup_known_shownLine (number : Nat) :
    ((shownLine w config source placed number).known.map PlacedLabel.index).Nodup := by
  refine List.Nodup.map_on ?_ ?_
  · intro a ha b hb hab
    have ha := ((mem_known_shownLine hindex hwithin).1 ha).1
    have hb := ((mem_known_shownLine hindex hwithin).1 hb).1
    exact List.inj_on_of_nodup_map hindex ha hb hab
  · rw [known_shownLine]
    refine List.nodup_append.2 ⟨(indexed_shownLine hindex number).nodup, ?_, ?_⟩
    · refine List.Nodup.map_on ?_
        (nodup_leaders_layLine number _ (index_nodup_leadersOf hindex).of_map)
      intro a ha b hb hab
      have ha := ((mem_leaders_shownLine hwithin).1 ha).1
      have hb := ((mem_leaders_shownLine hwithin).1 hb).1
      exact List.inj_on_of_nodup_map (index_nodup_leadersOf hindex) ha hb
        (congrArg PlacedLabel.index hab)
    · intro single hsingle lab hlab heq
      subst heq
      obtain ⟨lead, hlead, rfl⟩ := List.mem_map.1 hlab
      have hmulti := (mem_of_mem_leadersOf ((mem_leaders_shownLine hwithin).1 hlead).1).2
      rw [((mem_labels_shownLine hindex).1 hsingle).2.1] at hmulti
      cases hmulti

section OfPlaced

variable (title : Text)

theorem onOwnLine_ofPlaced {lab : PlacedLabel} (hlab : lab ∈ placed)
    (hsingle : lab.span.isMultiline = false) :
    (ofPlaced w config title source placed).OnOwnLine lab where
  shown := by
    have hsame := hsingle
    rw [ResolvedSpan.isMultiline, bne_eq_false_iff_eq] at hsame
    refine ⟨shownLine w config source placed lab.span.startLine, ⟨?_, ?_⟩, ?_⟩
    · exact shownLine_mem_lines w config title hwithin hlab (Nat.le_refl _) (Nat.le_of_eq hsame)
    · exact (mem_labels_shownLine hindex).2 ⟨hlab, hsingle, rfl⟩
    · rintro line ⟨hline, hmem⟩
      obtain ⟨-, -, number, -, rfl⟩ := exists_number_of_mem_lines hline
      rw [((mem_labels_shownLine hindex).1 hmem).2.2]
  rung := by
    intro line hline hmem
    obtain ⟨-, -, number, -, rfl⟩ := exists_number_of_mem_lines hline
    rw [labels_shownLine hindex] at hmem
    obtain ⟨rung, hrung⟩ := exists_onRung_of_mem_singlesOf number _ hindex hmem
    have hlookup := ((mem_onRung_layLine number _ hindex).1 hrung).2
    refine ⟨rung, hlookup, fun other => ?_⟩
    rw [← mem_onRung_iff, shownLine, mem_onRung_layLine number _ hindex, hlookup]
    constructor
    · rintro ⟨-, h⟩
      exact (Option.some.inj (Option.some.inj h)).symm
    · rintro rfl
      exact ⟨hmem, rfl⟩
  known := by
    intro line hline
    obtain ⟨-, -, number, -, rfl⟩ := exists_number_of_mem_lines hline
    rw [ResolvedSpan.isMultiline, bne_eq_false_iff_eq] at hsingle
    rw [mem_known_shownLine hindex hwithin]
    change _ ↔ number = _
    constructor
    · rintro ⟨-, hlow, hhigh⟩
      omega
    · rintro rfl
      exact ⟨hlab, Nat.le_refl _, Nat.le_of_eq hsingle⟩

theorem onAllLines_ofPlaced {lead : Leader} (hlead : lead ∈ leadersOf placed) :
    (ofPlaced w config title source placed).OnAllLines lead where
  starting := by
    intro line hline
    obtain ⟨-, -, number, -, rfl⟩ := exists_number_of_mem_lines hline
    rw [shownLine, mem_starting_layLine]
    exact ⟨fun h => h.2.symm, fun h => ⟨hlead, h.symm⟩⟩
  ending := by
    have hlt := startLine_lt_endLine hwithin hlead
    intro line hline
    obtain ⟨-, -, number, -, rfl⟩ := exists_number_of_mem_lines hline
    rw [shownLine, mem_ending_layLine]
    change _ ↔ number = _
    exact ⟨fun h => h.2.2.symm, fun h => ⟨hlead, by omega, h.symm⟩⟩
  through := by
    intro line hline
    obtain ⟨-, -, number, -, rfl⟩ := exists_number_of_mem_lines hline
    rw [← passing_shownLine, shownLine, mem_passing_layLine]
    exact ⟨fun h => h.2, fun h => ⟨hlead, h⟩⟩
  passing := by
    intro line hline
    obtain ⟨-, -, number, -, rfl⟩ := exists_number_of_mem_lines hline
    rw [passing_shownLine]
  known := by
    intro line hline
    obtain ⟨-, -, number, -, rfl⟩ := exists_number_of_mem_lines hline
    rw [mem_known_shownLine hindex hwithin]
    exact ⟨fun h => h.2, fun h => ⟨(mem_of_mem_leadersOf hlead).1, h⟩⟩

theorem laidOut_ofPlaced : (ofPlaced w config title source placed).LaidOut source.lineCount where
  inOrder := inOrder_ofPlaced title hwithin
  once := by
    intro line hline
    obtain ⟨-, -, number, -, rfl⟩ := exists_number_of_mem_lines hline
    exact nodup_known_shownLine hindex hwithin number
  scheduled := by
    intro line hline
    obtain ⟨-, -, number, -, rfl⟩ := exists_number_of_mem_lines hline
    exact scheduled_shownLine hindex number
  together := fun lab hlab => together_ofPlaced title hwithin hlab
  single := fun lab hlab hsingle => onOwnLine_ofPlaced hindex hwithin title hlab hsingle
  multiline := by
    intro lab hlab hmulti
    obtain ⟨lead, hlead, heq⟩ := exists_mem_leadersOf hlab hmulti
    exact ⟨lead, hlead, heq, onAllLines_ofPlaced hindex hwithin title hlead⟩

end OfPlaced

end Known

end Layout

open Layout

/-- Every label that fits the source is laid out on all of its lines, in one list of each. A tab on
a shown line that stands for more spaces than a text can have is all that keeps a layout from being
made, which takes tab stops that far apart. -/
theorem labels_laid_out_once [Platform] (w : CellWidth) (config : Config) {diagnostic : Diagnostic}
    {source : Source} (hsource : diagnostic.source = some source)
    (hfits : ∀ label ∈ diagnostic.labels, label.span.Fits source.length) :
    ∃ placed, placeLabels w config.tab source.index 0 diagnostic.labels = .ok placed ∧
      placed.map PlacedLabel.label = diagnostic.labels ∧
      placed.map PlacedLabel.index = List.range' 0 diagnostic.labels.length ∧
      (∀ lab ∈ placed, resolveSpan w config.tab source.index lab.label.span = .ok lab.span) ∧
      (sizeFault? w config source placed = none →
        ∃ layout : Layout, build w config diagnostic = .ok layout ∧ layout.labels = placed ∧
          layout.LaidOut source.lineCount) ∧
      (∀ e, sizeFault? w config source placed = some e →
        build w config diagnostic = .error (.oversized e)) ∧
      (config.tab ≤ Platform.maxLength → sizeFault? w config source placed = none) := by
  obtain ⟨placed, hlabels, hindices, hplaced⟩ := placeLabels_ok w config.tab 0 hfits
  have hindex : (placed.map PlacedLabel.index).Nodup := by
    rw [hindices]
    exact List.nodup_range'
  have hwithin : ∀ lab ∈ placed, lab.span.Within source.lineCount :=
    fun lab hlab => (hplaced lab hlab).within
  have hbuild := build_of_placed w hsource hlabels hwithin
  refine ⟨placed, hlabels, map_label_of_placeLabels hlabels, hindices,
    fun lab hlab => (hplaced lab hlab).resolved, ?_, ?_, sizeFault?_of_le w source placed⟩
  · intro hfault
    rw [hfault] at hbuild
    exact ⟨_, hbuild, rfl, laidOut_ofPlaced hindex hwithin diagnostic.title⟩
  · intro e hfault
    rwa [hfault] at hbuild

/-- Two labels that overlap on one line, two over several lines, and one far below them. -/
def scattered : Diagnostic where
  title := ['t']
  source := some ⟨"let x = 1\nlet y = 2\n\n\n\n\n\nend\n".toList, none, none⟩
  labels := [⟨⟨4, 5⟩, some ['a'], none⟩, ⟨⟨4, 9⟩, none, none⟩, ⟨⟨6, 14⟩, none, none⟩,
    ⟨⟨8, 21⟩, some ['b'], none⟩, ⟨⟨25, 28⟩, none, none⟩]

section

attribute [local instance] Platform.usual

theorem labels_laid_out_once_scattered : ∃ layout : Layout,
    build (fun _ => 1) .default scattered = .ok layout ∧
      layout.groups.map (·.map LineLayout.number) = [[0, 1, 2], [7]] ∧
      layout.labels.map PlacedLabel.label = scattered.labels ∧ layout.LaidOut 9 := by
  obtain ⟨placed, -, hlabels, -, -, hok, -, hsmall⟩ :=
    labels_laid_out_once (fun _ => 1) .default (show scattered.source = some _ from rfl) (by decide)
  obtain ⟨layout, hlayout, rfl, hlaid⟩ := hok (hsmall (by decide))
  obtain ⟨shown, hshown, hgroups⟩ : ∃ shown, build (fun _ => 1) .default scattered = .ok shown ∧
      shown.groups.map (·.map LineLayout.number) = [[0, 1, 2], [7]] := ⟨_, rfl, rfl⟩
  rw [hlayout] at hshown
  cases hshown
  exact ⟨layout, hlayout, hgroups, hlabels, hlaid⟩

/-- A label that stands before a tab. -/
def beforeTab : Diagnostic where
  title := ['t']
  source := some ⟨['x', '\t', 'y'], none, none⟩
  labels := [⟨⟨0, 1⟩, none, none⟩]

/-- A label that fits is not enough for a layout. -/
theorem before_tab_not_laid_out : (∀ label ∈ beforeTab.labels, label.span.Fits 3) ∧
    ¬∃ layout, build (fun _ => 1) Diagnostic.wideTabs beforeTab = .ok layout := by
  refine ⟨by decide, ?_⟩
  have herror : build (fun _ => 1) Diagnostic.wideTabs beforeTab =
      .error (.oversized .notAnIndex) := rfl
  rintro ⟨layout, hlayout⟩
  rw [herror] at hlayout
  cases hlayout

end

end Excerpt
