import Excerpt.Proofs.Alike
import Excerpt.Proofs.Coverage
import Excerpt.Proofs.Life
import Excerpt.Proofs.Positions

/-!
The order of labels. Positions of labels decide between labels that tie and nothing else: when none
do, every order of the labels has the same groups of lines, rungs and slots, hence layouts that are
alike and the same expanded rows.
-/

namespace Excerpt

/-- The label at no particular position among the labels. -/
def PlacedLabel.unnumbered (lab : PlacedLabel) : PlacedLabel := { lab with index := 0 }

def Leader.unnumbered (lead : Leader) : Leader := { lead with index := 0 }

/-- Between two labels only their order decides: they underline the same columns of one line, or
go on from one line to others. -/
def PlacedLabel.Ties (a b : PlacedLabel) : Prop :=
  a.span.startLine = b.span.startLine ∧ a.span.isMultiline = b.span.isMultiline ∧
    (a.span.isMultiline = false → a.columns = b.columns)

instance (a b : PlacedLabel) : Decidable (a.Ties b) :=
  inferInstanceAs (Decidable (_ ∧ _ ∧ (_ → _)))

theorem PlacedLabel.alike_of_unnumbered {a b : PlacedLabel} (h : a.unnumbered = b.unnumbered) :
    a.Alike b := ⟨congrArg (·.label) h, congrArg (·.span) h⟩

theorem Leader.alike_of_unnumbered {a b : Leader} (h : a.unnumbered = b.unnumbered) :
    a.Alike b := ⟨⟨congrArg (·.label) h, congrArg (·.span) h⟩, congrArg (·.slot) h⟩

section Lists

variable {α β γ : Type} {e : α → β} {xs ys : List α}

/-- Lists that are permutations of one another as far as `e` tells are so for whatever `e` keeps. -/
theorem map_perm_of_factor {f : α → γ} (g : β → γ) (hf : ∀ a, g (e a) = f a)
    (h : (ys.map e).Perm (xs.map e)) : (ys.map f).Perm (xs.map f) := by
  have hmap := h.map g
  rw [List.map_map, List.map_map] at hmap
  rwa [show g ∘ e = f from funext hf] at hmap

theorem filter_perm_of_factor {p : α → Bool} (q : β → Bool) (hp : ∀ a, q (e a) = p a)
    (h : (ys.map e).Perm (xs.map e)) : ((ys.filter p).map e).Perm ((xs.filter p).map e) := by
  have hfilter := h.filter q
  rw [List.filter_map, List.filter_map] at hfilter
  rwa [show q ∘ e = p from funext hp] at hfilter

/-- Of a list whose keys rise there is only one order. -/
theorem map_eq_of_rising (key : β → Int) (hxs : xs.Pairwise fun a b => key (e a) < key (e b))
    (hys : ys.Pairwise fun a b => key (e a) < key (e b)) (h : (ys.map e).Perm (xs.map e)) :
    ys.map e = xs.map e := by
  have hrising : (ys.map e).Pairwise fun a b => key a < key b := List.pairwise_map.2 hys
  refine List.Perm.eq_of_pairwise ?_ hrising (List.pairwise_map.2 hxs) h
  intro a b _ _ hab hba
  exact absurd hab (Int.lt_asymm hba)

theorem foldl_max_perm {f : α → Nat} (h : (ys.map f).Perm (xs.map f)) :
    ys.foldl (fun count a => max count (f a + 1)) 0 =
      xs.foldl (fun count a => max count (f a + 1)) 0 := by
  have hvalues : ∀ zs : List α, zs.foldl (fun count a => max count (f a + 1)) 0 =
      (zs.map f).foldl (fun count n => max count (n + 1)) 0 := by
    intro zs
    rw [List.foldl_map]
  rw [hvalues, hvalues]
  exact h.foldl_eq' (fun a _ b _ count => by omega) 0

theorem forall₂_of_map_eq {r : α → α → Prop} (hr : ∀ a b, e a = e b → r a b)
    (h : ys.map e = xs.map e) : List.Forall₂ r ys xs := by
  rw [← List.forall₂_eq_eq_eq, List.forall₂_map_left_iff, List.forall₂_map_right_iff] at h
  exact h.imp hr

end Lists

namespace Layout

/-- What is placed for a label, its position aside, does not depend on the other labels. -/
theorem unnumbered_of_placeLabels {w : CellWidth} {tab : Int} {index : LineIndex} {position : Nat}
    {labels : List Label} {placed : List PlacedLabel}
    (h : placeLabels w tab index position labels = .ok placed) :
    placed.map PlacedLabel.unnumbered = labels.filterMap fun label =>
      (resolveSpan w tab index label.span).toOption.map fun span => ⟨0, label, span⟩ := by
  induction labels generalizing position placed with
  | nil =>
      cases h
      rfl
  | cons label labels ih =>
      simp only [placeLabels] at h
      split at h
      · cases h
      · cases h
      next span hspan =>
        cases hrest : placeLabels w tab index (position + 1) labels with
        | error e =>
            rw [hrest] at h
            cases h
        | ok others =>
            rw [hrest] at h
            cases h
            rw [List.map_cons, ih hrest, List.filterMap_cons, hspan]
            rfl

theorem groupLines_perm {ranges others : List LineRange} (h : others.Perm ranges)
    (lineCount context gap : Int) :
    groupLines others lineCount context gap = groupLines ranges lineCount context gap := by
  have hle : ∀ a b : LineRange, a.before b = true ↔
      a.first < b.first ∨ a.first = b.first ∧ a.last ≤ b.last := by
    intro a b
    simp only [LineRange.before, Bool.or_eq_true, Bool.and_eq_true, decide_eq_true_eq, beq_iff_eq]
  have hsorted : sortBy LineRange.before (others.map (·.widen lineCount context)) =
      sortBy LineRange.before (ranges.map (·.widen lineCount context)) := by
    refine sortBy_congr (fun a b => ?_) (fun a b c hab hbc => ?_) (fun a _ b _ hab hba => ?_)
      (h.map _)
    · rw [hle, hle]
      omega
    · rw [hle] at hab hbc ⊢
      omega
    · obtain ⟨first, last⟩ := a
      obtain ⟨first', last'⟩ := b
      simp only [hle, LineRange.mk.injEq] at hab hba ⊢
      omega
  rw [groupLines, groupLines, hsorted]

variable {w : CellWidth} {config : Config} {source : Source} {placed others : List PlacedLabel}
  (hperm : (others.map PlacedLabel.unnumbered).Perm (placed.map PlacedLabel.unnumbered))
  (huntied : placed.Pairwise fun a b => ¬a.Ties b)

include hperm

theorem shownRanges_perm : shownRanges config source others = shownRanges config source placed :=
  groupLines_perm (map_perm_of_factor lineRange (fun _ => rfl) hperm) ..

/-- The slot of a label over several lines, wherever it stands among the labels. -/
def slotOf (placed : List PlacedLabel) (lab : PlacedLabel) : Nat :=
  slotAmong ((placed.filter (·.span.isMultiline)).map lineRange) (lineRange lab)

include huntied

theorem leadersOf_eq_map : leadersOf others = (others.filter (·.span.isMultiline)).map
    fun lab => { lab with slot := slotOf placed lab } := by
  have hmulti := filter_perm_of_factor (p := (·.span.isMultiline)) (·.span.isMultiline)
    (fun _ => rfl) hperm
  have hstarts : (((placed.filter (·.span.isMultiline)).map lineRange).map
      LineRange.first).Nodup := by
    rw [List.map_map]
    refine List.pairwise_map.2 ((huntied.filter _).imp_of_mem ?_)
    intro a b ha hb hab hsame
    have ha := (List.mem_filter.1 ha).2
    have hb := (List.mem_filter.1 hb).2
    refine hab ⟨Int.ofNat_inj.1 hsame, ha.trans hb.symm, fun hsingle => ?_⟩
    rw [ha] at hsingle
    cases hsingle
  have hslots := assignLeaderSlots_eq_map hstarts
    (map_perm_of_factor (e := PlacedLabel.unnumbered) lineRange (fun _ => rfl) hmulti)
  simp only [leadersOf]
  change List.map _ (List.zip _ (assignLeaderSlots (List.map lineRange _))) = _
  rw [hslots, List.map_map, ← List.map_prod_left_eq_zip, List.map_map]
  rfl

theorem leadersOf_perm : ((leadersOf others).map Leader.unnumbered).Perm
    ((leadersOf placed).map Leader.unnumbered) := by
  rw [leadersOf_eq_map hperm huntied, leadersOf_eq_map (.refl _) huntied, List.map_map,
    List.map_map]
  refine map_perm_of_factor (fun lab : PlacedLabel => { lab with slot := slotOf placed lab })
    (fun _ => rfl) ?_
  exact filter_perm_of_factor (·.span.isMultiline) (fun _ => rfl) hperm

/-- The rung of a label on one line, wherever it stands among the labels. -/
def rungOf (placed : List PlacedLabel) (number : Nat) (lab : PlacedLabel) : Nat :=
  rungAmong ((singlesOf placed number).map PlacedLabel.columns) lab.columns

omit huntied in
theorem singlesOf_perm (number : Nat) :
    ((singlesOf others number).map PlacedLabel.unnumbered).Perm
      ((singlesOf placed number).map PlacedLabel.unnumbered) :=
  filter_perm_of_factor (fun lab => !lab.span.isMultiline && lab.span.startLine == number)
    (fun _ => rfl) hperm

theorem rungsOf_eq_map (number : Nat) :
    rungsOf others number = (singlesOf others number).map (rungOf placed number) := by
  have hcolumns : ((singlesOf placed number).map PlacedLabel.columns).Nodup := by
    refine List.pairwise_map.2 ((huntied.filter _).imp_of_mem ?_)
    intro a b ha hb hab hsame
    obtain ⟨-, ha, hastart⟩ := mem_singlesOf.1 ha
    obtain ⟨-, hb, hbstart⟩ := mem_singlesOf.1 hb
    exact hab ⟨hastart.trans hbstart.symm, ha.trans hb.symm, fun _ => hsame⟩
  rw [rungsOf, assignRungs_eq_map hcolumns (map_perm_of_factor (e := PlacedLabel.unnumbered)
    PlacedLabel.columns (fun _ => rfl) (singlesOf_perm hperm number)), List.map_map]
  rfl

section Line

variable (hindex : (others.map PlacedLabel.index).Nodup) (number : Nat)

include hindex

theorem singles_eq_map : (shownLine w config source others number).singles =
    (singlesOf others number).map fun lab => (lab, rungOf placed number lab) := by
  rw [shownLine, singles_layLine number _ hindex, rungsOf_eq_map hperm huntied,
    ← List.map_prod_left_eq_zip]

theorem onRung_perm_filter (rung : Nat) :
    ((shownLine w config source others number).onRung rung).Perm
      ((singlesOf others number).filter fun lab => rungOf placed number lab == rung) := by
  refine (sortBy_perm ..).trans ?_
  rw [singles_eq_map hperm huntied hindex, List.filter_map, List.map_map]
  exact .of_eq (List.map_id _)

omit hperm huntied in
theorem onRung_rising (rung : Nat) :
    ((shownLine w config source others number).onRung rung).Pairwise fun a b =>
      a.unnumbered.span.startCol < b.unnumbered.span.startCol := by
  refine (onRung_layLine_pairwise number _ hindex rung).imp_of_mem ?_
  intro a b ha _ hab
  have hwide := PlacedLabel.one_le_displayWidth
    (mem_singlesOf.1 ((mem_onRung_layLine number _ hindex).1 ha).1).2.1
  simp only [PlacedLabel.columns] at hab
  change a.span.startCol < b.span.startCol
  omega

end Line

section Lines

variable (hindex : (placed.map PlacedLabel.index).Nodup)
  (hindex' : (others.map PlacedLabel.index).Nodup) (number : Nat)

include hindex hindex'

theorem onRung_alike (rung : Nat) : List.Forall₂ PlacedLabel.Alike
    ((shownLine w config source others number).onRung rung)
    ((shownLine w config source placed number).onRung rung) := by
  refine forall₂_of_map_eq (e := PlacedLabel.unnumbered)
    (fun _ _ => PlacedLabel.alike_of_unnumbered) ?_
  refine map_eq_of_rising (fun lab => lab.span.startCol) (onRung_rising hindex number rung)
    (onRung_rising hindex' number rung) ?_
  refine ((onRung_perm_filter hperm huntied hindex' number rung).map _).trans ?_
  refine List.Perm.trans ?_ ((onRung_perm_filter (.refl _) huntied hindex number rung).map _).symm
  exact filter_perm_of_factor (fun lab => rungOf placed number lab == rung) (fun _ => rfl)
    (singlesOf_perm hperm number)

theorem rungCount_perm : (shownLine w config source others number).rungCount =
    (shownLine w config source placed number).rungCount := by
  refine foldl_max_perm (f := fun p : PlacedLabel × Nat => p.2) ?_
  rw [singles_eq_map hperm huntied hindex', singles_eq_map (.refl _) huntied hindex,
    List.map_map, List.map_map]
  exact map_perm_of_factor (e := PlacedLabel.unnumbered) (rungOf placed number) (fun _ => rfl)
    (singlesOf_perm hperm number)

end Lines

omit hperm huntied

theorem sortBy_nearer_rising {leads : List Leader}
    (h : ((sortBy Leader.nearer leads).map Leader.slot).Nodup) :
    (sortBy Leader.nearer leads).Pairwise fun a b =>
      (a.unnumbered.slot : Int) < b.unnumbered.slot := by
  have hle : ∀ a b : Leader, a.nearer b = true ↔ a.slot ≤ b.slot := by
    intro a b
    rw [Leader.nearer, decide_eq_true_eq]
  have hsorted : (sortBy Leader.nearer leads).Pairwise (Leader.nearer · ·) := by
    refine sortBy_pairwise (fun a b => ?_) (fun a b c hab hbc => ?_) leads
    · rw [hle, hle]
      omega
    · rw [hle] at hab hbc ⊢
      omega
  refine (hsorted.and (List.pairwise_map.1 h)).imp ?_
  rintro a b ⟨hab, hne⟩
  rw [hle] at hab
  change (a.slot : Int) < b.slot
  omega

/-- Leaders in different slots, from the nearest to the furthest, are listed in one order only. -/
theorem nearer_alike {leads leads' : List Leader}
    (hperm : (leads'.map Leader.unnumbered).Perm (leads.map Leader.unnumbered))
    (hslots : ((sortBy Leader.nearer leads).map Leader.slot).Nodup)
    (hslots' : ((sortBy Leader.nearer leads').map Leader.slot).Nodup) :
    List.Forall₂ Leader.Alike (sortBy Leader.nearer leads') (sortBy Leader.nearer leads) := by
  refine forall₂_of_map_eq (e := Leader.unnumbered) (fun _ _ => Leader.alike_of_unnumbered) ?_
  refine map_eq_of_rising (fun lead => lead.slot) (sortBy_nearer_rising hslots)
    (sortBy_nearer_rising hslots') ?_
  exact (((sortBy_perm ..).map _).trans hperm).trans ((sortBy_perm ..).map _).symm

theorem exists_held_of_perm {line other : LineLayout} (hline : line.SlotsApart)
    (hother : other.SlotsApart)
    (hperm : ((line.passing ++ line.ending).map Leader.unnumbered).Perm
      ((other.passing ++ other.ending).map Leader.unnumbered)) {slot : Nat} {lead : Leader}
    (hheld : (Canvas.leadersAbove line).held slot = some lead) :
    ∃ lead', (Canvas.leadersAbove other).held slot = some lead' ∧ lead.Alike lead' := by
  have hslot := ActiveLeaders.slot_eq_of_held hheld
  subst hslot
  have hmem := (Canvas.holds_leadersAbove hline).1 hheld
  rw [← List.mem_append] at hmem
  obtain ⟨lead', hmem', heq⟩ := List.mem_map.1 (hperm.mem_iff.1 (List.mem_map_of_mem hmem))
  have halike := Leader.alike_of_unnumbered heq.symm
  rw [List.mem_append, ← Canvas.holds_leadersAbove hother] at hmem'
  refine ⟨lead', ?_, halike⟩
  rw [halike.slot]
  exact hmem'

/-- Above a line are alive the leaders that pass it and those that end on it, in any order. -/
theorem leadersAbove_alike {line other : LineLayout} (hline : line.SlotsApart)
    (hother : other.SlotsApart)
    (hperm : ((line.passing ++ line.ending).map Leader.unnumbered).Perm
      ((other.passing ++ other.ending).map Leader.unnumbered)) :
    (Canvas.leadersAbove line).Alike (Canvas.leadersAbove other) := by
  intro slot
  cases hheld : (Canvas.leadersAbove line).held slot with
  | some lead =>
      obtain ⟨lead', hheld', halike⟩ := exists_held_of_perm hline hother hperm hheld
      rw [hheld']
      exact .some halike
  | none =>
      cases hheld' : (Canvas.leadersAbove other).held slot with
      | none => exact .none
      | some lead' =>
          obtain ⟨lead, hlead, -⟩ := exists_held_of_perm hother hline hperm.symm hheld'
          rw [hheld] at hlead
          cases hlead

include hperm huntied

section Layouts

variable (hindex : (placed.map PlacedLabel.index).Nodup)
  (hindex' : (others.map PlacedLabel.index).Nodup)
  (hwithin : ∀ lab ∈ placed, lab.span.Within source.lineCount)
  (hwithin' : ∀ lab ∈ others, lab.span.Within source.lineCount)

include hindex hindex' hwithin hwithin'

theorem shownLine_alike (number : Nat) :
    (shownLine w config source others number).Alike (shownLine w config source placed number) := by
  have hline := @slotsApart_shownLine w config source placed hindex hwithin number
  have hline' := @slotsApart_shownLine w config source others hindex' hwithin' number
  have hleaders := leadersOf_perm hperm huntied
  obtain ⟨hstarts, hends, -⟩ := slots_of_slotsApart hline
  obtain ⟨hstarts', hends', -⟩ := slots_of_slotsApart hline'
  have hending : ((shownLine w config source others number).ending.map Leader.unnumbered).Perm
      ((shownLine w config source placed number).ending.map Leader.unnumbered) := by
    refine ((sortBy_perm ..).map _).trans (.trans ?_ ((sortBy_perm ..).map _).symm)
    exact filter_perm_of_factor (fun lead => lead.span.startLine != number &&
      lead.span.endLine == number) (fun _ => rfl) hleaders
  have hpassing : ((shownLine w config source others number).passing.map Leader.unnumbered).Perm
      ((shownLine w config source placed number).passing.map Leader.unnumbered) := by
    rw [shownLine, shownLine, passing_layLine, passing_layLine]
    exact filter_perm_of_factor (fun lead => lead.span.startLine < number &&
      number < lead.span.endLine) (fun _ => rfl) hleaders
  exact {
    number := rfl
    text := rfl
    rungCount := rungCount_perm hperm huntied hindex hindex' number
    onRung := onRung_alike hperm huntied hindex hindex' number
    starting := nearer_alike (filter_perm_of_factor (fun lead => lead.span.startLine == number)
      (fun _ => rfl) hleaders) hstarts hstarts'
    ending := nearer_alike (filter_perm_of_factor (fun lead => lead.span.startLine != number &&
      lead.span.endLine == number) (fun _ => rfl) hleaders) hends hends'
    above := by
      refine leadersAbove_alike hline' hline ?_
      rw [List.map_append, List.map_append]
      exact hpassing.append hending }

theorem ofPlaced_alike (title : Text) : (ofPlaced w config title source others).Alike
    (ofPlaced w config title source placed) := by
  have hranges := @shownRanges_perm config source placed others hperm
  have hline := @shownLine_alike w config source placed others hperm huntied hindex hindex' hwithin
    hwithin'
  have hindent : ∀ placed : List PlacedLabel, (ofPlaced w config title source placed).indentTrim =
      if config.trimIndent then commonIndent w (ofPlaced w config title source placed).lines
      else 0 := fun _ => rfl
  exact {
    title := rfl
    source := rfl
    slotCount := by
      refine foldl_max_perm (f := Leader.slot) ?_
      exact map_perm_of_factor (e := Leader.unnumbered) Leader.slot (fun _ => rfl)
        (leadersOf_perm hperm huntied)
    numberWidth := by rw [ofPlaced, ofPlaced, hranges]
    indentTrim := by
      rw [hindent, hindent, lines_ofPlaced, lines_ofPlaced, shownNumbers, shownNumbers, hranges,
        commonIndent, commonIndent, List.filter_map, List.filter_map, List.map_map, List.map_map]
      rfl
    groups := by
      rw [ofPlaced, ofPlaced, hranges, List.forall₂_map_left_iff, List.forall₂_map_right_iff]
      refine List.forall₂_same.2 fun range _ => ?_
      rw [List.forall₂_map_left_iff, List.forall₂_map_right_iff]
      exact List.forall₂_same.2 fun number _ => hline number }

end Layouts

end Layout

open Layout

namespace Rendering

variable {w : CellWidth} {config : Config}

/-- Layouts that are alike have the same expanded rows around and inside the excerpt. -/
theorem expandedRows_congr [Platform] {diagnostic other : Diagnostic} {layout layout' : Layout}
    (hlayout : build w config diagnostic = .ok layout)
    (hlayout' : build w config other = .ok layout') (halike : layout.Alike layout')
    (hnotes : diagnostic.footnotes = other.footnotes) :
    expandedRows w config diagnostic = expandedRows w config other := by
  have hpicture := Canvas.picture_congr (c := ⟨w, config, layout⟩) (d := ⟨w, config, layout'⟩)
    ⟨rfl, rfl, halike⟩
  have hdraw := Canvas.draw_eq ⟨w, config, layout⟩ .expanded (slotsApart_of_build_ok hlayout)
  have hdraw' := Canvas.draw_eq ⟨w, config, layout'⟩ .expanded (slotsApart_of_build_ok hlayout')
  simp only [expandedRows, hlayout, hlayout', hdraw, hdraw', hpicture, ok_bind, halike.title,
    halike.numberWidth, hnotes, headerRow, halike.source]

end Rendering

/-- The order in which labels are added does not show in the expanded rows, as long as no two labels
tie. Labels that fit always have rows, except that a tab on a shown line may be too wide. -/
theorem expanded_rows_order_free [Platform] (w : CellWidth) (config : Config)
    {diagnostic : Diagnostic} {source : Source} (hsource : diagnostic.source = some source)
    (hfits : ∀ label ∈ diagnostic.labels, label.span.Fits source.length) :
    ∃ placed, placeLabels w config.tab source.index 0 diagnostic.labels = .ok placed ∧
      (placed.Pairwise (fun a b => ¬a.Ties b) → ∀ labels, labels.Perm diagnostic.labels →
        Rendering.expandedRows w config { diagnostic with labels := labels } =
          Rendering.expandedRows w config diagnostic) ∧
      (config.tab ≤ Platform.maxLength →
        ∃ rows, Rendering.expandedRows w config diagnostic = .ok rows) := by
  obtain ⟨placed, hplaced, hindex, hwithin⟩ := exists_placed w config.tab source hfits
  have hbuild := build_of_placed w hsource hplaced hwithin
  refine ⟨placed, hplaced, ?_, ?_⟩
  · intro huntied labels hlabels
    have hfits' : ∀ label ∈ labels, label.span.Fits source.length :=
      fun label hlabel => hfits label (hlabels.mem_iff.1 hlabel)
    obtain ⟨others, hothers, hindex', hwithin'⟩ := exists_placed w config.tab source hfits'
    have hsource' : { diagnostic with labels := labels }.source = some source := hsource
    have hbuild' := build_of_placed w hsource' hothers hwithin'
    have hperm : (others.map PlacedLabel.unnumbered).Perm (placed.map PlacedLabel.unnumbered) := by
      rw [unnumbered_of_placeLabels hplaced, unnumbered_of_placeLabels hothers]
      exact hlabels.filterMap _
    have hfault : sizeFault? w config source others = sizeFault? w config source placed := by
      rw [sizeFault?, sizeFault?, shownRanges_perm hperm]
    rw [hfault] at hbuild'
    cases hsize : sizeFault? w config source placed with
    | some e =>
        rw [hsize] at hbuild hbuild'
        simp only [Rendering.expandedRows, hbuild, hbuild', unlessOversized, error_bind]
    | none =>
        rw [hsize] at hbuild hbuild'
        exact Rendering.expandedRows_congr hbuild' hbuild
          (ofPlaced_alike hperm huntied hindex hindex' hwithin hwithin' diagnostic.title) rfl
  · intro htab
    rw [sizeFault?_of_le w source placed htab] at hbuild
    exact ⟨_, Rendering.rows_eq hbuild .expanded⟩

/-- Two labels that overlap on one line, and two over several lines that start on different ones. -/
def intertwined : Diagnostic where
  title := ['t']
  source := some ⟨"let x = 1\nlet y = 2\nend\n".toList, none, none⟩
  labels := [⟨⟨4, 9⟩, some ['a'], none⟩, ⟨⟨4, 5⟩, some ['b'], none⟩, ⟨⟨6, 22⟩, none, none⟩,
    ⟨⟨14, 21⟩, some ['c'], none⟩]

section

attribute [local instance] Platform.usual

theorem expanded_rows_order_free_intertwined :
    Rendering.expandedRows (fun _ => 1) .default
        { intertwined with labels := intertwined.labels.reverse } =
      Rendering.expandedRows (fun _ => 1) .default intertwined ∧
      ∃ rows, Rendering.expandedRows (fun _ => 1) .default intertwined = .ok rows := by
  obtain ⟨placed, hplaced, hsame, hrows⟩ := expanded_rows_order_free (fun _ => 1) .default
    (show intertwined.source = some _ from rfl) (by decide)
  have huntied : placed.Pairwise fun a b => ¬a.Ties b := by
    cases hplaced
    decide
  exact ⟨hsame huntied _ (List.reverse_perm _), hrows (by decide)⟩

end

end Excerpt
