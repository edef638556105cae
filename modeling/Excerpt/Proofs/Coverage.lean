import Mathlib.Data.List.Nodup
import Excerpt.Proofs.Merging

/-!
Every label is told on one line. The shown lines have rising numbers, a label's own lines are among
them, and the line on which it ends is the one where its text belongs.
-/

namespace Excerpt

/-- The labels whose texts belong to a line: those underlined on it and those that end on it. -/
def LineLayout.told (line : LineLayout) : List PlacedLabel :=
  line.labels ++ line.ending.map Leader.toPlacedLabel

namespace Layout

variable {w : CellWidth} {config : Config} {source : Source} {placed : List PlacedLabel}

theorem exists_of_placeLabels_cons {tab : Int} {index : LineIndex} {position : Nat} {label : Label}
    {labels : List Label} (h : placeLabels w tab index position (label :: labels) = .ok placed) :
    ∃ span others, placeLabels w tab index (position + 1) labels = .ok others ∧
      placed = ⟨position, label, span⟩ :: others := by
  simp only [placeLabels] at h
  split at h
  · cases h
  · cases h
  · cases hrest : placeLabels w tab index (position + 1) labels with
    | error e =>
        rw [hrest] at h
        cases h
    | ok others =>
        rw [hrest] at h
        exact ⟨_, others, rfl, (Except.ok.inj h).symm⟩

/-- The placed labels are the given ones, in their order. -/
theorem map_label_of_placeLabels {tab : Int} {index : LineIndex} {position : Nat}
    {labels : List Label} (h : placeLabels w tab index position labels = .ok placed) :
    placed.map PlacedLabel.label = labels := by
  induction labels generalizing position placed with
  | nil =>
      cases h
      rfl
  | cons label labels ih =>
      obtain ⟨span, others, hothers, rfl⟩ := exists_of_placeLabels_cons h
      rw [List.map_cons, ih hothers]

/-- They are counted from the position of the first. -/
theorem map_index_of_placeLabels {tab : Int} {index : LineIndex} {position : Nat}
    {labels : List Label} (h : placeLabels w tab index position labels = .ok placed) :
    placed.map PlacedLabel.index = List.range' position labels.length := by
  induction labels generalizing position placed with
  | nil =>
      cases h
      rfl
  | cons label labels ih =>
      obtain ⟨span, others, hothers, rfl⟩ := exists_of_placeLabels_cons h
      rw [List.map_cons, ih hothers, List.length_cons, List.range'_succ]

/-- The numbers of the lines that are shown. -/
def shownNumbers (config : Config) (source : Source) (placed : List PlacedLabel) : List Nat :=
  (shownRanges config source placed).flatMap lineNumbers

theorem lines_ofPlaced (title : Text) : (ofPlaced w config title source placed).lines =
    (shownNumbers config source placed).map (shownLine w config source placed) := by
  rw [shownNumbers, List.map_flatMap, List.flatMap_def]
  rfl

/-- All lines of a group are above those of the next. -/
theorem lineNumbers_rising (hwithin : ∀ lab ∈ placed, lab.span.Within source.lineCount) :
    (shownRanges config source placed).Pairwise fun a b =>
      ∀ above ∈ lineNumbers a, ∀ below ∈ lineNumbers b, above < below := by
  have hranges := @shownRanges_within config source placed hwithin
  have hgap := config.gap_nonneg
  have hapart := groupLines_apart (placed.map lineRange) source.lineCount config.context
    config.gap
  refine List.Pairwise.imp_of_mem ?_ hapart
  intro a b ha hb hab above habove below hbelow
  have hlast := ((mem_lineNumbers (hranges a ha).1).1 habove).2
  have hfirst := ((mem_lineNumbers (hranges b hb).1).1 hbelow).1
  omega

theorem shownNumbers_pairwise (hwithin : ∀ lab ∈ placed, lab.span.Within source.lineCount) :
    (shownNumbers config source placed).Pairwise (· < ·) := by
  refine List.pairwise_flatMap.2 ⟨fun range _ => ?_, lineNumbers_rising hwithin⟩
  rw [lineNumbers, List.pairwise_map]
  exact List.pairwise_lt_range.imp fun h => Nat.add_lt_add_left h _

theorem mem_shownNumbers (hwithin : ∀ lab ∈ placed, lab.span.Within source.lineCount)
    {lab : PlacedLabel} (hlab : lab ∈ placed) {number : Nat} (hlow : lab.span.startLine ≤ number)
    (hhigh : number ≤ lab.span.endLine) : number ∈ shownNumbers config source placed := by
  obtain ⟨range, hrange, hfirst, hlast⟩ :=
    @exists_range_of_mem config source placed hwithin lab hlab
  refine List.mem_flatMap.2 ⟨range, hrange, (mem_lineNumbers ?_).2 ⟨by omega, by omega⟩⟩
  exact (shownRanges_within hwithin range hrange).1

theorem shownLine_mem_lines (w : CellWidth) (config : Config) (title : Text)
    (hwithin : ∀ lab ∈ placed, lab.span.Within source.lineCount) {lab : PlacedLabel}
    (hlab : lab ∈ placed) {number : Nat} (hlow : lab.span.startLine ≤ number)
    (hhigh : number ≤ lab.span.endLine) :
    shownLine w config source placed number ∈ (ofPlaced w config title source placed).lines := by
  rw [lines_ofPlaced]
  exact List.mem_map_of_mem (mem_shownNumbers hwithin hlab hlow hhigh)

section Told

variable (hindex : (placed.map PlacedLabel.index).Nodup)

include hindex

theorem labels_shownLine (number : Nat) :
    (shownLine w config source placed number).labels = singlesOf placed number := by
  rw [LineLayout.labels, shownLine, singles_layLine number _ hindex]
  exact map_fst_zip_rungsOf placed number

theorem indexed_shownLine (number : Nat) :
    (shownLine w config source placed number).Indexed := by
  rw [LineLayout.Indexed, labels_shownLine hindex]
  exact hindex.sublist (List.filter_sublist.map _)

theorem indexed_of_mem_lines {title : Text} {line : LineLayout}
    (hline : line ∈ (ofPlaced w config title source placed).lines) : line.Indexed := by
  obtain ⟨-, -, number, -, rfl⟩ := exists_number_of_mem_lines hline
  exact indexed_shownLine hindex number

/-- A label on one shown line is on one of its rungs. -/
theorem exists_rung_of_mem_lines {title : Text} {line : LineLayout}
    (hline : line ∈ (ofPlaced w config title source placed).lines) {lab : PlacedLabel}
    (hlab : lab ∈ placed) (hsingle : lab.span.isMultiline = false)
    (hstart : lab.span.startLine = line.number) :
    ∃ rung < line.rungCount, lab ∈ line.onRung rung := by
  obtain ⟨-, -, number, -, rfl⟩ := exists_number_of_mem_lines hline
  obtain ⟨rung, hrung⟩ := exists_onRung_of_mem_singlesOf number _ hindex
    (mem_singlesOf.2 ⟨hlab, hsingle, hstart⟩)
  exact ⟨rung, lt_rungCount hrung, hrung⟩

theorem mem_told_shownLine {number : Nat} {lab : PlacedLabel} :
    lab ∈ (shownLine w config source placed number).told ↔
      lab ∈ placed ∧ lab.span.endLine = number := by
  rw [LineLayout.told, List.mem_append, labels_shownLine hindex, mem_singlesOf, List.mem_map]
  constructor
  · rintro (⟨hlab, hsingle, hstart⟩ | ⟨lead, hlead, rfl⟩)
    · rw [ResolvedSpan.isMultiline, bne_eq_false_iff_eq] at hsingle
      exact ⟨hlab, hsingle ▸ hstart⟩
    · obtain ⟨hlead, -, hend⟩ := (mem_ending_layLine number _).1 hlead
      exact ⟨(mem_of_mem_leadersOf hlead).1, hend⟩
  · rintro ⟨hlab, hend⟩
    cases hmulti : lab.span.isMultiline with
    | true =>
        obtain ⟨lead, hlead, rfl⟩ := exists_mem_leadersOf hlab hmulti
        rw [ResolvedSpan.isMultiline, bne_iff_ne] at hmulti
        exact .inr ⟨lead, (mem_ending_layLine number _).2 ⟨hlead, by omega, hend⟩, rfl⟩
    | false =>
        have hsame := hmulti
        rw [ResolvedSpan.isMultiline, bne_eq_false_iff_eq] at hsame
        exact .inl ⟨hlab, rfl, hsame.trans hend⟩

theorem nodup_told_shownLine (number : Nat) :
    (shownLine w config source placed number).told.Nodup := by
  have hending : ((shownLine w config source placed number).ending.map
      Leader.toPlacedLabel).Nodup := by
    refine List.Nodup.of_map PlacedLabel.index ?_
    rw [List.map_map]
    refine ((sortBy_perm Leader.nearer _).map _).nodup_iff.2 ?_
    exact (index_nodup_leadersOf hindex).sublist (List.filter_sublist.map _)
  refine List.nodup_append.2 ⟨(indexed_shownLine hindex number).nodup, hending, ?_⟩
  intro single hsingle lab hlab heq
  subst heq
  obtain ⟨lead, hlead, rfl⟩ := List.mem_map.1 hlab
  rw [labels_shownLine hindex, mem_singlesOf] at hsingle
  have hmulti := (mem_of_mem_leadersOf ((mem_ending_layLine number _).1 hlead).1).2
  rw [hsingle.2.1] at hmulti
  cases hmulti

/-- Line by line, every label is told once. -/
theorem told_perm (hwithin : ∀ lab ∈ placed, lab.span.Within source.lineCount) (title : Text) :
    ((ofPlaced w config title source placed).lines.flatMap LineLayout.told).Perm placed := by
  rw [lines_ofPlaced, List.flatMap_map]
  have hnodup : ((shownNumbers config source placed).flatMap fun number =>
      (shownLine w config source placed number).told).Nodup := by
    refine List.nodup_flatMap.2 ⟨fun number _ => nodup_told_shownLine hindex number, ?_⟩
    refine (shownNumbers_pairwise hwithin).imp fun {a b} hlt lab ha hb => ?_
    have hend := ((mem_told_shownLine hindex).1 ha).2
    have hend' := ((mem_told_shownLine hindex).1 hb).2
    omega
  refine (List.perm_ext_iff_of_nodup hnodup (List.Nodup.of_map _ hindex)).2 fun lab => ?_
  rw [List.mem_flatMap]
  constructor
  · rintro ⟨number, -, hlab⟩
    exact ((mem_told_shownLine hindex).1 hlab).1
  · intro hlab
    refine ⟨lab.span.endLine, ?_, (mem_told_shownLine hindex).2 ⟨hlab, rfl⟩⟩
    exact mem_shownNumbers hwithin hlab (hwithin lab hlab).rising (Nat.le_refl _)

end Told
end Layout
end Excerpt
