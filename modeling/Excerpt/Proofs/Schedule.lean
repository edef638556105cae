import Mathlib.Data.List.Nodup
import Excerpt.Proofs.Counting
import Excerpt.Proofs.Layout

/-!
What a line of a layout knows of its labels. The leaders that meet on a line have slots of their
own, and the underlines on one rung stand apart, so a line can be drawn label by label.
-/

namespace Excerpt

theorem Interval.overlaps_eq_false_iff (a b : Interval) :
    a.overlaps b = false ↔ b.stop ≤ a.start ∨ a.stop ≤ b.start := by
  rw [← Bool.not_eq_true, overlaps, Bool.and_eq_true, decide_eq_true_eq, decide_eq_true_eq]
  omega

namespace Schedule

variable {s : Schedule} {k label : Nat} {place : Option Nat}

theorem lookup_set_self : (s.set label place).lookup label = some place := by
  rw [set, List.lookup_cons, beq_self_eq_true]

theorem lookup_filter_ne (h : k ≠ label) :
    List.lookup k (s.filter (·.1 ≠ label)) = s.lookup k := by
  induction s with
  | nil => rfl
  | cons entry s ih =>
      obtain ⟨other, value⟩ := entry
      rw [List.lookup_cons]
      by_cases hother : other = label
      · rw [List.filter_cons_of_neg (by simpa using hother), ih,
          beq_false_of_ne (hother.symm ▸ h)]
      · rw [List.filter_cons_of_pos (by simpa using hother), List.lookup_cons, ih]

theorem lookup_set_of_ne (h : k ≠ label) : (s.set label place).lookup k = s.lookup k := by
  rw [set, List.lookup_cons, beq_false_of_ne h]
  exact lookup_filter_ne h

/-- A label that passes through is noted so, whatever was noted before. -/
theorem lookup_through {through : List Nat} (h : k ∈ through ∨ s.lookup k = some none) :
    (through.foldl (fun s label => s.set label none) s).lookup k = some none := by
  induction through generalizing s with
  | nil => exact h.resolve_left List.not_mem_nil
  | cons first through ih =>
      refine ih ?_
      by_cases hk : k = first
      · subst hk
        exact .inr lookup_set_self
      · rw [lookup_set_of_ne hk]
        exact h.imp_left fun hmem => (List.mem_cons.1 hmem).resolve_left hk

theorem lookup_not_through {through : List Nat} (h : k ∉ through) :
    (through.foldl (fun s label => s.set label none) s).lookup k = s.lookup k := by
  induction through generalizing s with
  | nil => rfl
  | cons first through ih =>
      obtain ⟨hfirst, hrest⟩ := not_or.1 (mt List.mem_cons.2 h)
      rw [List.foldl_cons, ih hrest, lookup_set_of_ne hfirst]

/-- A label of its own index keeps the rung that it was noted with. -/
theorem lookup_stacked {pairs : List (PlacedLabel × Nat)}
    (hindex : (pairs.map fun p => p.1.index).Nodup) {lab : PlacedLabel} {rung : Nat}
    (h : (lab, rung) ∈ pairs ∨
      lab.index ∉ pairs.map (fun p => p.1.index) ∧ s.lookup lab.index = some (some rung)) :
    (pairs.foldl (fun s p => s.set p.1.index (some p.2)) s).lookup lab.index =
      some (some rung) := by
  induction pairs generalizing s with
  | nil => exact (h.resolve_left List.not_mem_nil).2
  | cons first pairs ih =>
      obtain ⟨hfirst, hrest⟩ := List.nodup_cons.1 hindex
      refine ih hrest ?_
      rcases h with h | ⟨hout, hold⟩
      · rcases List.mem_cons.1 h with rfl | h
        · exact .inr ⟨hfirst, lookup_set_self⟩
        · exact .inl h
      · obtain ⟨hne, hout⟩ := not_or.1 (mt List.mem_cons.2 hout)
        exact .inr ⟨hout, by rw [lookup_set_of_ne hne, hold]⟩

end Schedule

namespace PlacedLabel

theorem sortBy_leftOf_pairwise (labs : List PlacedLabel) :
    (sortBy leftOf labs).Pairwise fun a b => a.span.startCol ≤ b.span.startCol := by
  refine sortBy_lex_pairwise (fun lab => lab.span.startCol) (fun lab => lab.index) (fun a b => ?_)
    labs
  simp only [leftOf, Bool.or_eq_true, Bool.and_eq_true, decide_eq_true_eq, beq_iff_eq,
    Int.ofNat_le]

theorem one_le_displayWidth {lab : PlacedLabel} (h : lab.span.isMultiline = false) :
    1 ≤ lab.span.displayWidth := by
  rw [ResolvedSpan.displayWidth, if_neg (by simp [h])]
  exact Int.le_max_right ..

end PlacedLabel

namespace Layout

variable {placed : List PlacedLabel}

theorem leadersOf_toPlacedLabel (placed : List PlacedLabel) :
    (leadersOf placed).map Leader.toPlacedLabel = placed.filter (·.span.isMultiline) := by
  simp only [leadersOf, List.map_map]
  refine Eq.trans (List.map_congr_left fun p _ => rfl) (List.map_fst_zip ?_)
  exact Nat.le_of_eq (by rw [length_assignLeaderSlots, List.length_map])

theorem mem_of_mem_leadersOf {lead : Leader} (h : lead ∈ leadersOf placed) :
    lead.toPlacedLabel ∈ placed ∧ lead.span.isMultiline = true := by
  have hmem := List.mem_map_of_mem (f := Leader.toPlacedLabel) h
  rw [leadersOf_toPlacedLabel, List.mem_filter] at hmem
  exact hmem

theorem exists_mem_leadersOf {lab : PlacedLabel} (hlab : lab ∈ placed)
    (hmulti : lab.span.isMultiline = true) :
    ∃ lead ∈ leadersOf placed, lead.toPlacedLabel = lab := by
  have hmem : lab ∈ placed.filter (·.span.isMultiline) := List.mem_filter.2 ⟨hlab, hmulti⟩
  rw [← leadersOf_toPlacedLabel] at hmem
  exact List.mem_map.1 hmem

theorem leadersOf_apart {a b : Leader} (ha : a ∈ leadersOf placed) (hb : b ∈ leadersOf placed)
    (hne : a ≠ b) (hslot : a.slot = b.slot) :
    a.span.endLine < b.span.startLine ∨ b.span.endLine < a.span.startLine := by
  obtain ⟨i, hi, rfl⟩ := List.mem_iff_getElem.1 ha
  obtain ⟨j, hj, rfl⟩ := List.mem_iff_getElem.1 hb
  have hij : i ≠ j := by
    intro h
    subst h
    exact hne rfl
  have hlength : (leadersOf placed).length = (placed.filter (·.span.isMultiline)).length := by
    rw [← leadersOf_toPlacedLabel, List.length_map]
  have hilen := hlength ▸ hi
  have hjlen := hlength ▸ hj
  simp only [leadersOf, List.getElem_map, List.getElem_zip] at hslot ⊢
  have hapart := @assignLeaderSlots_apart ((placed.filter (·.span.isMultiline)).map lineRange)
    i j _ _ _ hij (List.getElem?_eq_getElem (by simpa using hilen))
    (List.getElem?_eq_getElem (by simpa using hjlen))
    (List.getElem?_eq_getElem (by simpa using hilen))
    (by rw [List.getElem?_eq_getElem (by simpa using hjlen)]; exact congrArg some hslot.symm)
  simp only [List.getElem_map, lineRange] at hapart
  omega

theorem index_nodup_leadersOf (h : (placed.map PlacedLabel.index).Nodup) :
    ((leadersOf placed).map (·.index)).Nodup := by
  have hsub : (((leadersOf placed).map Leader.toPlacedLabel).map PlacedLabel.index).Sublist
      (placed.map PlacedLabel.index) := by
    rw [leadersOf_toPlacedLabel]
    exact List.filter_sublist.map _
  rw [List.map_map] at hsub
  exact h.sublist hsub

end Layout

namespace LineLayout

/-- The leaders that meet on a line. -/
def leaders (line : LineLayout) : List Leader := line.passing ++ line.ending ++ line.starting

/-- No two of them are in one slot. -/
def SlotsApart (line : LineLayout) : Prop := (line.leaders.map Leader.slot).Nodup

end LineLayout

namespace Layout

section Line

variable (number : Nat) (text : Text)

theorem mem_starting_layLine {lead : Leader} :
    lead ∈ (layLine placed (leadersOf placed) number text).starting ↔
      lead ∈ leadersOf placed ∧ lead.span.startLine = number := by
  simp only [layLine, mem_sortBy, List.mem_filter, beq_iff_eq]

theorem mem_ending_layLine {lead : Leader} :
    lead ∈ (layLine placed (leadersOf placed) number text).ending ↔
      lead ∈ leadersOf placed ∧ lead.span.startLine ≠ number ∧ lead.span.endLine = number := by
  simp only [layLine, mem_sortBy, List.mem_filter, Bool.and_eq_true, bne_iff_ne, beq_iff_eq]

private theorem lookup_through_layLine {lead : Leader}
    (h : lead ∈ (layLine placed (leadersOf placed) number text).through) :
    (layLine placed (leadersOf placed) number text).schedule.lookup lead.index = some none := by
  simp only [layLine, scheduleLine]
  exact Schedule.lookup_through (.inl (List.mem_map_of_mem h))

theorem passing_layLine :
    (layLine placed (leadersOf placed) number text).passing =
      (leadersOf placed).filter fun lead =>
        lead.span.startLine < number && number < lead.span.endLine := by
  refine List.filter_eq_self.2 fun lead hlead => ?_
  rw [lookup_through_layLine number text hlead]
  rfl

theorem mem_passing_layLine {lead : Leader} :
    lead ∈ (layLine placed (leadersOf placed) number text).passing ↔
      lead ∈ leadersOf placed ∧ lead.span.startLine < number ∧ number < lead.span.endLine := by
  rw [passing_layLine, List.mem_filter, Bool.and_eq_true, decide_eq_true_eq, decide_eq_true_eq]

theorem nodup_leaders_layLine (hnodup : (leadersOf placed).Nodup) :
    (layLine placed (leadersOf placed) number text).leaders.Nodup := by
  have hpassing : (layLine placed (leadersOf placed) number text).passing.Nodup := by
    rw [passing_layLine]
    exact hnodup.filter _
  have hending : (layLine placed (leadersOf placed) number text).ending.Nodup :=
    (sortBy_perm ..).nodup_iff.2 (hnodup.filter _)
  have hstarting : (layLine placed (leadersOf placed) number text).starting.Nodup :=
    (sortBy_perm ..).nodup_iff.2 (hnodup.filter _)
  rw [LineLayout.leaders, List.nodup_append, List.nodup_append]
  refine ⟨⟨hpassing, hending, ?_⟩, hstarting, ?_⟩
  · intro a ha b hb heq
    subst heq
    rw [mem_passing_layLine] at ha
    rw [mem_ending_layLine] at hb
    omega
  · intro a ha b hb heq
    subst heq
    rw [List.mem_append, mem_passing_layLine, mem_ending_layLine] at ha
    rw [mem_starting_layLine] at hb
    omega

/-- The leaders that meet on a line are those of which it is a line. -/
theorem mem_leaders_layLine (hrising : ∀ lab ∈ placed, lab.span.startLine ≤ lab.span.endLine)
    {lead : Leader} : lead ∈ (layLine placed (leadersOf placed) number text).leaders ↔
      lead ∈ leadersOf placed ∧ lead.span.startLine ≤ number ∧ number ≤ lead.span.endLine := by
  simp only [LineLayout.leaders, List.mem_append, mem_passing_layLine, mem_ending_layLine,
    mem_starting_layLine]
  constructor
  · intro hlead
    have hmem : lead ∈ leadersOf placed := by
      rcases hlead with (h | h) | h <;> exact h.1
    have hle := hrising _ (mem_of_mem_leadersOf hmem).1
    exact ⟨hmem, by omega, by omega⟩
  · rintro ⟨hmem, hlow, hhigh⟩
    rcases Nat.lt_or_eq_of_le hlow with hlow | hstart
    · rcases Nat.lt_or_eq_of_le hhigh with hhigh | hend
      · exact .inl (.inl ⟨hmem, hlow, hhigh⟩)
      · exact .inl (.inr ⟨hmem, by omega, hend.symm⟩)
    · exact .inr ⟨hmem, hstart⟩

theorem slotsApart_layLine (hindex : (placed.map PlacedLabel.index).Nodup)
    (hrising : ∀ lab ∈ placed, lab.span.startLine ≤ lab.span.endLine) :
    (layLine placed (leadersOf placed) number text).SlotsApart := by
  have hnodup : (leadersOf placed).Nodup := (index_nodup_leadersOf hindex).of_map
  refine List.Nodup.map_on ?_ (nodup_leaders_layLine number text hnodup)
  intro a ha b hb hslot
  obtain ⟨ha, halow, hahigh⟩ := (mem_leaders_layLine number text hrising).1 ha
  obtain ⟨hb, hblow, hbhigh⟩ := (mem_leaders_layLine number text hrising).1 hb
  by_contra hne
  have hapart := leadersOf_apart ha hb hne hslot
  omega

def singlesOf (placed : List PlacedLabel) (number : Nat) : List PlacedLabel :=
  placed.filter fun lab => !lab.span.isMultiline && lab.span.startLine == number

theorem mem_singlesOf {number : Nat} {lab : PlacedLabel} : lab ∈ singlesOf placed number ↔
    lab ∈ placed ∧ lab.span.isMultiline = false ∧ lab.span.startLine = number := by
  rw [singlesOf, List.mem_filter, Bool.and_eq_true, Bool.not_eq_true', beq_iff_eq]

def rungsOf (placed : List PlacedLabel) (number : Nat) : List Nat :=
  assignRungs ((singlesOf placed number).map PlacedLabel.columns)

theorem length_rungsOf (placed : List PlacedLabel) (number : Nat) :
    (rungsOf placed number).length = (singlesOf placed number).length := by
  rw [rungsOf, length_assignRungs, List.length_map]

theorem map_fst_zip_rungsOf (placed : List PlacedLabel) (number : Nat) :
    ((singlesOf placed number).zip (rungsOf placed number)).map Prod.fst =
      singlesOf placed number :=
  List.map_fst_zip (Nat.le_of_eq (length_rungsOf placed number).symm)

private theorem lookup_single_layLine (hindex : (placed.map PlacedLabel.index).Nodup)
    {lab : PlacedLabel} {rung : Nat}
    (h : (lab, rung) ∈ (singlesOf placed number).zip (rungsOf placed number)) :
    (layLine placed (leadersOf placed) number text).schedule.lookup lab.index =
      some (some rung) := by
  obtain ⟨hlab, hsingle, -⟩ := mem_singlesOf.1 (List.of_mem_zip h).1
  have hout : lab.index ∉ ((layLine placed (leadersOf placed) number text).through.map
      (·.index)) := by
    intro hmem
    obtain ⟨lead, hlead, heq⟩ := List.mem_map.1 hmem
    obtain ⟨hplaced, hmulti⟩ := mem_of_mem_leadersOf (List.mem_filter.1 hlead).1
    have hsame := List.inj_on_of_nodup_map hindex hplaced hlab heq
    rw [hsame, hsingle] at hmulti
    cases hmulti
  refine (Schedule.lookup_not_through hout).trans ?_
  refine Schedule.lookup_stacked ?_ (.inl h)
  refine List.Nodup.sublist ?_ hindex
  have hsub : ((singlesOf placed number).map PlacedLabel.index).Sublist
    (placed.map PlacedLabel.index) := List.filter_sublist.map _
  rw [← map_fst_zip_rungsOf, List.map_map] at hsub
  exact hsub

theorem singles_layLine (hindex : (placed.map PlacedLabel.index).Nodup) :
    (layLine placed (leadersOf placed) number text).singles =
      (singlesOf placed number).zip (rungsOf placed number) := by
  refine List.ext_getElem ?_ ?_
  · rw [List.length_zip, length_rungsOf, Nat.min_self]
    exact List.length_map _
  · intro i hi hi'
    have hmem := List.getElem_mem hi'
    rw [List.getElem_zip] at hmem ⊢
    have hlookup := lookup_single_layLine number text hindex hmem
    change List.lookup _ (scheduleLine _ _) = _ at hlookup
    simp only [layLine, List.getElem_map]
    refine Prod.ext rfl ?_
    simp only [singlesOf] at hlookup
    rw [hlookup]
    rfl

theorem mem_onRung_iff {line : LineLayout} {lab : PlacedLabel} {rung : Nat} :
    lab ∈ line.onRung rung ↔ (lab, rung) ∈ line.singles := by
  simp only [LineLayout.onRung, mem_sortBy, List.mem_map, List.mem_filter, beq_iff_eq]
  constructor
  · rintro ⟨⟨other, place⟩, ⟨hmem, rfl⟩, rfl⟩
    exact hmem
  · intro hmem
    exact ⟨(lab, rung), ⟨hmem, rfl⟩, rfl⟩

theorem lt_rungCount {line : LineLayout} {lab : PlacedLabel} {rung : Nat}
    (h : lab ∈ line.onRung rung) : rung < line.rungCount :=
  lt_foldl_max (fun p : PlacedLabel × Nat => p.2) (mem_onRung_iff.1 h) 0

/-- A rung holds the labels for whose positions it was assigned. -/
theorem mem_onRung_iff_getElem? (hindex : (placed.map PlacedLabel.index).Nodup)
    {lab : PlacedLabel} {rung : Nat} :
    lab ∈ (layLine placed (leadersOf placed) number text).onRung rung ↔
      ∃ i : Nat, (singlesOf placed number)[i]? = some lab ∧
        (rungsOf placed number)[i]? = some rung := by
  rw [mem_onRung_iff, singles_layLine number text hindex, List.mem_iff_getElem?]
  simp only [List.getElem?_zip_eq_some]

theorem exists_columns_of_mem_onRung (hindex : (placed.map PlacedLabel.index).Nodup)
    {lab : PlacedLabel} {rung : Nat}
    (h : lab ∈ (layLine placed (leadersOf placed) number text).onRung rung) :
    ∃ i : Nat, (singlesOf placed number)[i]? = some lab ∧
      ((singlesOf placed number).map PlacedLabel.columns)[i]? = some lab.columns ∧
      (rungsOf placed number)[i]? = some rung := by
  obtain ⟨i, hi, hrung⟩ := (mem_onRung_iff_getElem? number text hindex).1 h
  refine ⟨i, hi, ?_, hrung⟩
  rw [List.getElem?_map, hi, Option.map_some]

theorem exists_onRung_of_mem_singlesOf (hindex : (placed.map PlacedLabel.index).Nodup)
    {lab : PlacedLabel} (h : lab ∈ singlesOf placed number) :
    ∃ rung, lab ∈ (layLine placed (leadersOf placed) number text).onRung rung := by
  obtain ⟨i, hi, rfl⟩ := List.mem_iff_getElem.1 h
  have hrung : i < (rungsOf placed number).length := by rwa [length_rungsOf]
  refine ⟨(rungsOf placed number)[i], (mem_onRung_iff_getElem? number text hindex).2 ?_⟩
  exact ⟨i, List.getElem?_eq_getElem hi, List.getElem?_eq_getElem hrung⟩

theorem mem_onRung_layLine (hindex : (placed.map PlacedLabel.index).Nodup) {lab : PlacedLabel}
    {rung : Nat} : lab ∈ (layLine placed (leadersOf placed) number text).onRung rung ↔
      lab ∈ singlesOf placed number ∧
        (layLine placed (leadersOf placed) number text).schedule.lookup lab.index =
          some (some rung) := by
  have hforth : ∀ place, lab ∈ (layLine placed (leadersOf placed) number text).onRung place →
      lab ∈ singlesOf placed number ∧
        (layLine placed (leadersOf placed) number text).schedule.lookup lab.index =
          some (some place) := by
    intro place h
    rw [mem_onRung_iff, singles_layLine number text hindex] at h
    exact ⟨(List.of_mem_zip h).1, lookup_single_layLine number text hindex h⟩
  refine ⟨hforth rung, ?_⟩
  rintro ⟨hlab, hlookup⟩
  obtain ⟨place, hplace⟩ := exists_onRung_of_mem_singlesOf number text hindex hlab
  have hsame := (hforth place hplace).2
  rw [hlookup] at hsame
  rwa [Option.some.inj (Option.some.inj hsame)]

/-- No rung is left out: below a label there is always one that it overlaps. -/
theorem exists_mem_onRung_layLine (hindex : (placed.map PlacedLabel.index).Nodup) {rung : Nat}
    (h : rung < (layLine placed (leadersOf placed) number text).rungCount) :
    ∃ lab, lab ∈ (layLine placed (leadersOf placed) number text).onRung rung := by
  obtain hlt | ⟨⟨lab, top⟩, hmem, hle⟩ := exists_of_lt_foldl_max
    (fun p : PlacedLabel × Nat => p.2) h
  · exact absurd hlt (Nat.not_lt_zero rung)
  · have honTop := mem_onRung_iff.2 hmem
    rcases Nat.lt_or_eq_of_le hle with hlt | rfl
    · obtain ⟨i, -, hcolumns, htop⟩ := exists_columns_of_mem_onRung number text hindex honTop
      obtain ⟨j, other, hother, -, hrung, -⟩ := exists_on_lower_rung hcolumns htop hlt
      rw [List.getElem?_map, Option.map_eq_some_iff] at hother
      obtain ⟨below, hbelow, -⟩ := hother
      exact ⟨below, (mem_onRung_iff_getElem? number text hindex).2 ⟨j, hbelow, hrung⟩⟩
    · exact ⟨lab, honTop⟩

theorem not_overlaps_onRung_layLine (hindex : (placed.map PlacedLabel.index).Nodup)
    {a b : PlacedLabel} {rung : Nat} (hne : a ≠ b)
    (ha : a ∈ (layLine placed (leadersOf placed) number text).onRung rung)
    (hb : b ∈ (layLine placed (leadersOf placed) number text).onRung rung) :
    a.columns.overlaps b.columns = false := by
  obtain ⟨i, hi, hicolumns, hirung⟩ := exists_columns_of_mem_onRung number text hindex ha
  obtain ⟨j, hj, hjcolumns, hjrung⟩ := exists_columns_of_mem_onRung number text hindex hb
  refine assignRungs_apart ?_ hicolumns hjcolumns hirung hjrung
  intro h
  rw [h, hj] at hi
  exact hne (Option.some.inj hi).symm

theorem onRung_layLine_pairwise (hindex : (placed.map PlacedLabel.index).Nodup) (rung : Nat) :
    ((layLine placed (leadersOf placed) number text).onRung rung).Pairwise
      fun a b => a.columns.stop ≤ b.columns.start := by
  have hnodup : ((layLine placed (leadersOf placed) number text).onRung rung).Nodup := by
    refine (sortBy_perm ..).nodup_iff.2 ?_
    have hsub : (((layLine placed (leadersOf placed) number text).singles.filter
        (·.2 == rung)).map (·.1)).Sublist
          ((layLine placed (leadersOf placed) number text).singles.map (·.1)) :=
      List.filter_sublist.map _
    rw [singles_layLine number text hindex, map_fst_zip_rungsOf] at hsub
    rw [singles_layLine number text hindex]
    exact ((List.Nodup.of_map _ hindex).filter _).sublist hsub
  have hsorted := PlacedLabel.sortBy_leftOf_pairwise
    (((layLine placed (leadersOf placed) number text).singles.filter (·.2 == rung)).map (·.1))
  refine (hsorted.and hnodup).imp_of_mem ?_
  intro a b ha hb hab
  have hfree := not_overlaps_onRung_layLine number text hindex hab.2 ha hb
  have hwide := PlacedLabel.one_le_displayWidth
    (mem_singlesOf.1 ((mem_onRung_layLine number text hindex).1 hb).1).2.1
  rw [Interval.overlaps_eq_false_iff] at hfree
  simp only [PlacedLabel.columns] at hfree ⊢
  omega

end Line
end Layout
end Excerpt
