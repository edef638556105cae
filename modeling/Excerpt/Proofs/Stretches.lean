import Mathlib.Data.List.Perm.Basic
import Excerpt.Proofs.Groups

/-!
Which lines are shown, told without the ranges in their order. A line is wanted when it is in one
of the ranges or near enough to it; a gap between wanted lines is filled when it is narrow enough;
the groups are the longest stretches of wanted and filled lines.
-/

namespace Excerpt

/-- The line is in the file, and in a range or at most `context` lines from it. -/
def Wanted (ranges : List LineRange) (lineCount context line : Int) : Prop :=
  0 ≤ line ∧ line < lineCount ∧ ∃ r ∈ ranges, r.first - context ≤ line ∧ line ≤ r.last + context

/-- The lines between two that have a property, where none of them has it. -/
structure Gap (P : Int → Prop) (above below : Int) : Prop where
  wanted_above : P above
  wanted_below : P below
  hidden : ∀ line, above < line → line < below → ¬P line

/-- The line has a property, or it is in a gap of at most `gap` lines. -/
def Filled (P : Int → Prop) (gap line : Int) : Prop :=
  P line ∨ ∃ above below, Gap P above below ∧ above < line ∧ line < below ∧ below - above - 1 ≤ gap

namespace LineRange

/-- Lines with a property, from one in front of which there is no further one to one behind which
there is none. -/
structure Stretch (P : Int → Prop) (r : LineRange) : Prop where
  rising : r.first ≤ r.last
  all : ∀ line, r.has line = true → P line
  stops_above : ¬P (r.first - 1)
  stops_below : ¬P (r.last + 1)

/-- Stretches of the same lines are equal if they share a line. -/
theorem Stretch.eq_of_has {P : Int → Prop} {a b : LineRange} (ha : a.Stretch P) (hb : b.Stretch P)
    {line : Int} (hline : a.has line = true) (hline' : b.has line = true) : a = b := by
  have hends : ∀ {x y : LineRange}, x.Stretch P → y.Stretch P → x.has line = true →
      y.has line = true → y.first ≤ x.first ∧ x.last ≤ y.last := by
    intro x y hx hy hinx hiny
    rw [has_iff] at hinx hiny
    constructor
    · by_contra hlt
      exact hy.stops_above (hx.all _ (has_iff.2 ⟨by omega, by omega⟩))
    · by_contra hlt
      exact hy.stops_below (hx.all _ (has_iff.2 ⟨by omega, by omega⟩))
  have hab := hends ha hb hline hline'
  have hba := hends hb ha hline' hline
  obtain ⟨first, last⟩ := a
  obtain ⟨first', last'⟩ := b
  simp only [LineRange.mk.injEq]
  dsimp only at hab hba
  omega

end LineRange

open LineRange

variable {P : Int → Prop} {gap lineCount context : Int} {group r : LineRange}
  {rest ranges groups : List LineRange}

/-- What holds of the open group while sorted ranges of lines with a property are joined to it: it
begins and ends with such a line, it has no wide gap, and all such lines behind it are in the
ranges that are still to come. -/
structure Joining (P : Int → Prop) (gap : Int) (group : LineRange) (rest : List LineRange) :
    Prop where
  ends : P group.first ∧ P group.last
  filled : ∀ line, group.has line = true → Filled P gap line
  rising : ∀ r ∈ rest, r.first ≤ r.last
  wanted : ∀ r ∈ rest, ∀ line, r.has line = true → P line
  ahead : ∀ line, P line → group.last < line → ∃ r ∈ rest, r.has line = true
  sorted : rest.Pairwise fun a b => a.first ≤ b.first

/-- Between the open group and the next range there is a gap. -/
theorem Joining.hidden (h : Joining P gap group (r :: rest)) {line : Int}
    (hlow : group.last < line) (hhigh : line < r.first) : ¬P line := by
  intro hline
  obtain ⟨next, hnext, hhas⟩ := h.ahead line hline hlow
  rw [has_iff] at hhas
  rcases List.mem_cons.1 hnext with rfl | hnext
  · omega
  · have := (List.pairwise_cons.1 h.sorted).1 next hnext
    omega

theorem Joining.range (h : Joining P gap group (r :: rest)) : r.first ≤ r.last ∧
    P r.first ∧ P r.last := by
  have hrising := h.rising r List.mem_cons_self
  have hwanted := h.wanted r List.mem_cons_self
  exact ⟨hrising, hwanted _ (has_iff.2 ⟨Int.le_refl _, hrising⟩),
    hwanted _ (has_iff.2 ⟨hrising, Int.le_refl _⟩)⟩

/-- A line behind a range that comes first among the ranges is in one of the others. -/
theorem Joining.ahead_of_lt (h : Joining P gap group (r :: rest)) {line : Int} (hline : P line)
    (hgroup : group.last < line) (hrange : r.last < line) :
    ∃ next ∈ rest, next.has line = true := by
  obtain ⟨next, hnext, hhas⟩ := h.ahead line hline hgroup
  rcases List.mem_cons.1 hnext with rfl | hnext
  · rw [has_iff] at hhas
    omega
  · exact ⟨next, hnext, hhas⟩

theorem Joining.join (h : Joining P gap group (r :: rest))
    (hnear : r.first - group.last - 1 ≤ gap) :
    Joining P gap ⟨group.first, max group.last r.last⟩ rest where
  ends := by
    refine ⟨h.ends.1, ?_⟩
    rcases Int.le_total group.last r.last with hle | hle
    · rw [Int.max_eq_right hle]
      exact h.range.2.2
    · rw [Int.max_eq_left hle]
      exact h.ends.2
  filled := by
    intro line hhas
    rw [has_iff] at hhas
    dsimp only at hhas
    by_cases hgroup : line ≤ group.last
    · exact h.filled line (has_iff.2 ⟨hhas.1, hgroup⟩)
    · by_cases hrange : r.first ≤ line
      · exact .inl (h.wanted r List.mem_cons_self line (has_iff.2 ⟨hrange, by omega⟩))
      · refine .inr ⟨group.last, r.first, ⟨h.ends.2, h.range.2.1, ?_⟩, by omega, by omega, hnear⟩
        exact fun line => h.hidden
  rising := (List.forall_mem_cons.1 h.rising).2
  wanted := (List.forall_mem_cons.1 h.wanted).2
  ahead := by
    intro line hline hlt
    dsimp only at hlt
    exact h.ahead_of_lt hline (by omega) (by omega)
  sorted := (List.pairwise_cons.1 h.sorted).2

theorem Joining.next (hgap : 0 ≤ gap) (h : Joining P gap group (r :: rest))
    (hfar : ¬r.first - group.last - 1 ≤ gap) : Joining P gap r rest where
  ends := h.range.2
  filled := fun line hhas => .inl (h.wanted r List.mem_cons_self line hhas)
  rising := (List.forall_mem_cons.1 h.rising).2
  wanted := (List.forall_mem_cons.1 h.wanted).2
  ahead := by
    intro line hline hlt
    have hrising := h.range.1
    exact h.ahead_of_lt hline (by omega) hlt
  sorted := (List.pairwise_cons.1 h.sorted).2

theorem Joining.joinRanges (hgap : 0 ≤ gap) (h : Joining P gap group rest) :
    ∀ g ∈ joinRanges gap group rest,
      (P g.first ∧ P g.last) ∧ ∀ line, g.has line = true → Filled P gap line := by
  induction rest generalizing group with
  | nil => exact List.forall_mem_singleton.2 ⟨h.ends, h.filled⟩
  | cons r rest ih =>
      rw [Excerpt.joinRanges]
      split
      case isTrue hnear => exact ih (h.join hnear)
      case isFalse hfar => exact List.forall_mem_cons.2 ⟨⟨h.ends, h.filled⟩, ih (h.next hgap hfar)⟩

/-- Groups that hold all lines with a property, begin and end with one, and have all narrow gaps
in them and all wide ones between them. -/
structure Grouped (P : Int → Prop) (gap : Int) (groups : List LineRange) : Prop where
  rising : ∀ g ∈ groups, g.first ≤ g.last
  ends : ∀ g ∈ groups, P g.first ∧ P g.last
  filled : ∀ g ∈ groups, ∀ line, g.has line = true → Filled P gap line
  covers : ∀ line, P line → ∃ g ∈ groups, g.has line = true
  apart : groups.Pairwise fun a b => a.last + gap + 1 < b.first

namespace Grouped

/-- Lines of groups that are not far from each other are in one group. -/
theorem eq_of_near (h : Grouped P gap groups) {a b : LineRange} (ha : a ∈ groups)
    (hb : b ∈ groups) {above below : Int} (habove : a.has above = true)
    (hbelow : b.has below = true) (hle : above ≤ below) (hnear : below - above - 1 ≤ gap) :
    a = b := by
  have harising := h.rising a ha
  rw [has_iff] at habove hbelow
  rcases eq_or_apart h.apart ha hb with heq | hlt | hlt
  · exact heq
  · omega
  · omega

/-- A gap is filled in the group of the lines that it is between. -/
theorem covers_filled (h : Grouped P gap groups) {line : Int}
    (hline : Filled P gap line) : ∃ g ∈ groups, g.has line = true := by
  rcases hline with hline | ⟨above, below, hbetween, hlow, hhigh, hnarrow⟩
  · exact h.covers line hline
  · obtain ⟨a, ha, hhas⟩ := h.covers above hbetween.wanted_above
    obtain ⟨b, hb, hhas'⟩ := h.covers below hbetween.wanted_below
    obtain rfl := h.eq_of_near ha hb hhas hhas' (by omega) hnarrow
    rw [has_iff] at hhas hhas'
    exact ⟨a, ha, has_iff.2 ⟨by omega, by omega⟩⟩

theorem stretch (hgap : 0 ≤ gap) (h : Grouped P gap groups) {g : LineRange} (hg : g ∈ groups) :
    g.Stretch (Filled P gap) := by
  have hrising := h.rising g hg
  -- A filled line next to a group would be in another group, which is too near.
  have hnext : ∀ line, Filled P gap line → ¬(line = g.first - 1 ∨ line = g.last + 1) := by
    intro line hline hnear
    obtain ⟨other, hother, hhas⟩ := h.covers_filled hline
    rw [has_iff] at hhas
    rcases eq_or_apart h.apart hg hother with rfl | hlt | hlt
    · omega
    · omega
    · omega
  exact ⟨hrising, h.filled g hg, fun hline => hnext _ hline (.inl rfl),
    fun hline => hnext _ hline (.inr rfl)⟩

/-- The groups are the stretches of the filled lines. -/
theorem mem_iff (hgap : 0 ≤ gap) (h : Grouped P gap groups) (g : LineRange) :
    g ∈ groups ↔ g.Stretch (Filled P gap) := by
  refine ⟨h.stretch hgap, fun hstretch => ?_⟩
  have hfirst : g.has g.first = true := has_iff.2 ⟨Int.le_refl _, hstretch.rising⟩
  obtain ⟨other, hother, hhas⟩ := h.covers_filled (hstretch.all _ hfirst)
  rwa [hstretch.eq_of_has (h.stretch hgap hother) hfirst hhas]

/-- There is one way to group the lines with a property. -/
theorem unique (hgap : 0 ≤ gap) {others : List LineRange} (h : Grouped P gap groups)
    (h' : Grouped P gap others) : others = groups := by
  have hnodup : ∀ {xs : List LineRange}, Grouped P gap xs → xs.Nodup := by
    intro xs hxs
    refine hxs.apart.imp_of_mem fun {a b} ha hb hab heq => ?_
    have hrising := hxs.rising a ha
    rw [heq] at hrising hab
    omega
  have hperm : others.Perm groups := (List.perm_ext_iff_of_nodup (hnodup h') (hnodup h)).2
    fun g => (h'.mem_iff hgap g).trans (h.mem_iff hgap g).symm
  refine List.Perm.eq_of_pairwise (fun a b ha hb hab hba => ?_) h'.apart h.apart hperm
  have hrising := h'.rising a ha
  have hrising' := h.rising b hb
  omega

end Grouped

section Lines

variable (hranges : ∀ r ∈ ranges, r.Within lineCount)

include hranges

/-- The lines that are wanted are those of the widened ranges. -/
theorem wanted_iff {line : Int} : Wanted ranges lineCount context line ↔
    ∃ r ∈ sortBy before (ranges.map (·.widen lineCount context)), r.has line = true := by
  constructor
  · rintro ⟨hlow, hhigh, r, hr, hfirst, hlast⟩
    refine ⟨r.widen lineCount context, mem_sortBy.2 (List.mem_map_of_mem hr), has_iff.2 ?_⟩
    simp only [widen]
    omega
  · rintro ⟨wide, hwide, hhas⟩
    obtain ⟨r, hr, rfl⟩ := List.mem_map.1 (mem_sortBy.1 hwide)
    obtain ⟨hfirst, hle, hlast⟩ := hranges r hr
    rw [has_iff] at hhas
    simp only [widen] at hhas
    exact ⟨by omega, by omega, r, hr, by omega, by omega⟩

theorem joining_of_sorted (hcontext : 0 ≤ context)
    (h : sortBy before (ranges.map (·.widen lineCount context)) = group :: rest) :
    Joining (Wanted ranges lineCount context) gap group rest := by
  have hwithin := widened_within hranges hcontext
  have hsorted := sortBy_before_pairwise (ranges.map (·.widen lineCount context))
  have hwanted := fun line => @wanted_iff lineCount context ranges hranges line
  rw [h] at hwithin hsorted
  simp only [h] at hwanted
  have hline : ∀ r ∈ group :: rest, ∀ line, r.has line = true →
      Wanted ranges lineCount context line := fun r hr line hhas => (hwanted line).2 ⟨r, hr, hhas⟩
  obtain ⟨hgroup, hrest⟩ := List.forall_mem_cons.1 hwithin
  obtain ⟨hgroupline, hrestline⟩ := List.forall_mem_cons.1 hline
  refine ⟨⟨hgroupline _ ?_, hgroupline _ ?_⟩, fun line hhas => .inl (hgroupline line hhas),
    fun r hr => (hrest r hr).2.1, hrestline, fun line hline hlt => ?_,
    (List.pairwise_cons.1 hsorted).2⟩
  · exact has_iff.2 ⟨Int.le_refl _, hgroup.2.1⟩
  · exact has_iff.2 ⟨hgroup.2.1, Int.le_refl _⟩
  · obtain ⟨r, hr, hhas⟩ := (hwanted line).1 hline
    rcases List.mem_cons.1 hr with rfl | hr
    · rw [has_iff] at hhas
      omega
    · exact ⟨r, hr, hhas⟩

theorem groupLines_grouped (hcontext : 0 ≤ context) (hgap : 0 ≤ gap) :
    Grouped (Wanted ranges lineCount context) gap (groupLines ranges lineCount context gap) := by
  have hjoined : ∀ g ∈ groupLines ranges lineCount context gap,
      (Wanted ranges lineCount context g.first ∧ Wanted ranges lineCount context g.last) ∧
        ∀ line, g.has line = true → Filled (Wanted ranges lineCount context) gap line := by
    simp only [groupLines]
    split
    case h_1 => exact fun g hg => absurd hg List.not_mem_nil
    case h_2 first rest heq => exact (joining_of_sorted hranges hcontext heq).joinRanges hgap
  refine ⟨fun g hg => (groupLines_within gap hranges hcontext g hg).2.1,
    fun g hg => (hjoined g hg).1, fun g hg => (hjoined g hg).2, fun line hline => ?_,
    groupLines_apart ranges lineCount context gap⟩
  obtain ⟨r, hr, hhas⟩ := (wanted_iff hranges).1 hline
  obtain ⟨range, hrange, rfl⟩ := List.mem_map.1 (mem_sortBy.1 hr)
  obtain ⟨g, hg, hholds⟩ := groupLines_holds_widen lineCount context gap hrange
  rw [has_iff] at hhas
  exact ⟨g, hg, has_iff.2
    ⟨Int.le_trans hholds.1 hhas.1, Int.le_trans hhas.2 hholds.2⟩⟩

end Lines

/-- The groups of shown lines are, from the top of the file down, the longest stretches of lines
that are wanted or in a narrow gap between such lines. So more than `gap` lines are hidden between
two groups, a range is in one group with its lines of context, a group begins and ends with a wanted
line, and neither the order of the ranges nor how often one is given matters. -/
theorem groups_are_longest_stretches (hranges : ∀ r ∈ ranges, r.Within lineCount)
    (hcontext : 0 ≤ context) (hgap : 0 ≤ gap) :
    ((groupLines ranges lineCount context gap).Pairwise fun a b => a.last < b.first) ∧
    (∀ g, g ∈ groupLines ranges lineCount context gap ↔
      g.Stretch (Filled (Wanted ranges lineCount context) gap)) ∧
    ((groupLines ranges lineCount context gap).Pairwise fun a b => gap < b.first - a.last - 1) ∧
    (∀ r ∈ ranges, ∃! g, g ∈ groupLines ranges lineCount context gap ∧
      g.Holds (r.widen lineCount context)) ∧
    (∀ g ∈ groupLines ranges lineCount context gap,
      Wanted ranges lineCount context g.first ∧ Wanted ranges lineCount context g.last) ∧
    ∀ others, (∀ r, r ∈ others ↔ r ∈ ranges) →
      groupLines others lineCount context gap = groupLines ranges lineCount context gap := by
  have hgrouped := groupLines_grouped hranges hcontext hgap
  refine ⟨hgrouped.apart.imp fun h => by omega, hgrouped.mem_iff hgap,
    hgrouped.apart.imp fun h => by omega, fun r hr => ?_, hgrouped.ends, fun others hsame => ?_⟩
  · obtain ⟨g, hg, hholds⟩ := groupLines_holds_widen lineCount context gap hr
    obtain ⟨-, hrising, -⟩ := (hranges r hr).widen hcontext
    have hfirst : ∀ {x : LineRange}, x.Holds (r.widen lineCount context) →
        x.has (r.widen lineCount context).first = true := fun hx =>
      has_iff.2 ⟨hx.1, Int.le_trans hrising hx.2⟩
    refine ⟨g, ⟨hg, hholds⟩, fun other hother => ?_⟩
    exact hgrouped.eq_of_near hother.1 hg (hfirst hother.2) (hfirst hholds) (Int.le_refl _)
      (by omega)
  · have hothers : ∀ r ∈ others, r.Within lineCount := fun r hr => hranges r ((hsame r).1 hr)
    have hwanted : Wanted others lineCount context = Wanted ranges lineCount context := by
      funext line
      simp only [Wanted, hsame]
    have hgrouped' := groupLines_grouped hothers hcontext hgap
    rw [hwanted] at hgrouped'
    exact hgrouped.unique hgap hgrouped'

/-- With one line of context, a gap of one line is filled and one of three lines is not. -/
theorem groups_are_longest_stretches_narrow_gap :
    groupLines [⟨6, 6⟩, ⟨0, 2⟩, ⟨1, 1⟩, ⟨12, 13⟩] 14 1 1 = [⟨0, 7⟩, ⟨11, 13⟩] ∧
      (⟨0, 7⟩ : LineRange).Stretch
        (Filled (Wanted [⟨6, 6⟩, ⟨0, 2⟩, ⟨1, 1⟩, ⟨12, 13⟩] 14 1) 1) ∧
      groupLines [⟨12, 13⟩, ⟨1, 1⟩, ⟨6, 6⟩, ⟨1, 1⟩, ⟨0, 2⟩] 14 1 1 = [⟨0, 7⟩, ⟨11, 13⟩] := by
  have hgroups : groupLines [⟨6, 6⟩, ⟨0, 2⟩, ⟨1, 1⟩, ⟨12, 13⟩] 14 1 1 =
      [⟨0, 7⟩, ⟨11, 13⟩] := by decide
  have hranges : ∀ r ∈ ([⟨6, 6⟩, ⟨0, 2⟩, ⟨1, 1⟩, ⟨12, 13⟩] : List LineRange), r.Within 14 := by
    intro r hr
    simp only [List.mem_cons, List.not_mem_nil, or_false] at hr
    rcases hr with rfl | rfl | rfl | rfl <;> exact ⟨by decide, by decide, by decide⟩
  obtain ⟨-, hmem, -, -, -, hsame⟩ :=
    groups_are_longest_stretches hranges (show (0 : Int) ≤ 1 by decide)
      (show (0 : Int) ≤ 1 by decide)
  refine ⟨hgroups, (hmem _).1 (hgroups ▸ List.mem_cons_self), (hsame _ fun r => ?_).trans hgroups⟩
  simp only [List.mem_cons, List.not_mem_nil, or_false]
  tauto

end Excerpt
