import Excerpt.Layout.Groups

/-!
The groups of shown lines stay in the file, hold every range that asked to be shown, and follow
one another with hidden lines between them.
-/

namespace Excerpt

namespace LineRange

def has (r : LineRange) (line : Int) : Bool := r.first ≤ line && line ≤ r.last

theorem has_iff {r : LineRange} {line : Int} :
    r.has line = true ↔ r.first ≤ line ∧ line ≤ r.last := by
  simp only [has, Bool.and_eq_true, decide_eq_true_eq]

/-- The range is not empty and lies in a file of `lineCount` lines. -/
def Within (lineCount : Int) (r : LineRange) : Prop :=
  0 ≤ r.first ∧ r.first ≤ r.last ∧ r.last < lineCount

def Holds (outer inner : LineRange) : Prop := outer.first ≤ inner.first ∧ inner.last ≤ outer.last

theorem Holds.refl (r : LineRange) : r.Holds r := ⟨Int.le_refl _, Int.le_refl _⟩

theorem Holds.trans {a b c : LineRange} (hab : a.Holds b) (hbc : b.Holds c) : a.Holds c :=
  ⟨Int.le_trans hab.1 hbc.1, Int.le_trans hbc.2 hab.2⟩

theorem Within.widen {r : LineRange} {lineCount context : Int} (h : r.Within lineCount)
    (hcontext : 0 ≤ context) : (r.widen lineCount context).Within lineCount := by
  obtain ⟨hfirst, hle, hlast⟩ := h
  refine ⟨?_, ?_, ?_⟩ <;> simp only [LineRange.widen] <;> omega

theorem widen_holds {r : LineRange} {lineCount context : Int} (h : r.Within lineCount)
    (hcontext : 0 ≤ context) : (r.widen lineCount context).Holds r := by
  obtain ⟨hfirst, hle, hlast⟩ := h
  constructor <;> simp only [LineRange.widen] <;> omega

theorem sortBy_before_pairwise (ranges : List LineRange) :
    (sortBy before ranges).Pairwise fun a b => a.first ≤ b.first := by
  refine sortBy_lex_pairwise first last (fun a b => ?_) ranges
  simp only [before, Bool.or_eq_true, Bool.and_eq_true, decide_eq_true_eq, beq_iff_eq]

end LineRange

open LineRange

variable {gap lineCount context : Int} {group : LineRange} {rest ranges : List LineRange}

theorem joinRanges_within (hgroup : group.Within lineCount)
    (hrest : ∀ r ∈ rest, r.Within lineCount) :
    ∀ g ∈ joinRanges gap group rest, g.Within lineCount := by
  induction rest generalizing group with
  | nil => simpa only [joinRanges, List.forall_mem_singleton] using hgroup
  | cons r rest ih =>
      obtain ⟨hr, hrest⟩ := List.forall_mem_cons.1 hrest
      simp only [joinRanges]
      split
      · refine ih ?_ hrest
        obtain ⟨hfirst, hle, hlast⟩ := hgroup
        obtain ⟨-, -, hr⟩ := hr
        exact ⟨hfirst, by dsimp only; omega, by dsimp only; omega⟩
      · exact List.forall_mem_cons.2 ⟨hgroup, ih hr hrest⟩

/-- Joining keeps the order of sorted ranges, so nothing joined starts before the open group. -/
theorem le_first_of_mem_joinRanges (hrest : ∀ r ∈ rest, group.first ≤ r.first)
    (hsorted : rest.Pairwise fun a b => a.first ≤ b.first) :
    ∀ g ∈ joinRanges gap group rest, group.first ≤ g.first := by
  induction rest generalizing group with
  | nil => simp [joinRanges]
  | cons r rest ih =>
      obtain ⟨hr, hrest⟩ := List.forall_mem_cons.1 hrest
      obtain ⟨hfirst, hsorted⟩ := List.pairwise_cons.1 hsorted
      simp only [joinRanges]
      split
      · exact ih hrest hsorted
      · refine List.forall_mem_cons.2 ⟨Int.le_refl _, fun g hg => ?_⟩
        exact Int.le_trans hr (ih hfirst hsorted g hg)

theorem joinRanges_holds (hrest : ∀ r ∈ rest, group.first ≤ r.first)
    (hsorted : rest.Pairwise fun a b => a.first ≤ b.first) :
    ∀ r ∈ group :: rest, ∃ g ∈ joinRanges gap group rest, g.Holds r := by
  induction rest generalizing group with
  | nil => simpa [joinRanges] using Holds.refl group
  | cons r rest ih =>
      obtain ⟨hr, hrest⟩ := List.forall_mem_cons.1 hrest
      obtain ⟨hfirst, hsorted⟩ := List.pairwise_cons.1 hsorted
      simp only [joinRanges]
      split
      case isTrue =>
        have hjoined := @ih ⟨group.first, max group.last r.last⟩ hrest hsorted
        obtain ⟨g, hg, hheld⟩ := hjoined _ (List.mem_cons_self ..)
        refine List.forall_mem_cons.2 ⟨⟨g, hg, hheld.trans ?_⟩, List.forall_mem_cons.2
          ⟨⟨g, hg, hheld.trans ?_⟩, fun x hx => hjoined x (List.mem_cons_of_mem _ hx)⟩⟩
        · exact ⟨Int.le_refl _, Int.le_max_left ..⟩
        · exact ⟨hr, Int.le_max_right ..⟩
      case isFalse =>
        refine List.forall_mem_cons.2 ⟨⟨group, List.mem_cons_self .., Holds.refl group⟩, ?_⟩
        intro x hx
        obtain ⟨g, hg, hheld⟩ := ih hfirst hsorted x hx
        exact ⟨g, List.mem_cons_of_mem _ hg, hheld⟩

theorem joinRanges_apart (hrest : ∀ r ∈ rest, group.first ≤ r.first)
    (hsorted : rest.Pairwise fun a b => a.first ≤ b.first) :
    (joinRanges gap group rest).Pairwise fun a b => a.last + gap + 1 < b.first := by
  induction rest generalizing group with
  | nil => exact List.pairwise_singleton ..
  | cons r rest ih =>
      obtain ⟨hr, hrest⟩ := List.forall_mem_cons.1 hrest
      obtain ⟨hfirst, hsorted⟩ := List.pairwise_cons.1 hsorted
      simp only [joinRanges]
      split
      case isTrue => exact ih hrest hsorted
      case isFalse hwide =>
        refine List.pairwise_cons.2 ⟨fun g hg => ?_, ih hfirst hsorted⟩
        have := le_first_of_mem_joinRanges hfirst hsorted g hg
        omega

/-- Of two groups that are apart, one is above the other. -/
theorem eq_or_apart {groups : List LineRange}
    (hapart : groups.Pairwise fun a b => a.last + gap + 1 < b.first) {a b : LineRange}
    (ha : a ∈ groups) (hb : b ∈ groups) :
    a = b ∨ a.last + gap + 1 < b.first ∨ b.last + gap + 1 < a.first := by
  obtain ⟨i, hi, rfl⟩ := List.mem_iff_getElem.1 ha
  obtain ⟨j, hj, rfl⟩ := List.mem_iff_getElem.1 hb
  rw [List.pairwise_iff_getElem] at hapart
  rcases Nat.lt_trichotomy i j with hij | rfl | hij
  · exact .inr (.inl (hapart i j hi hj hij))
  · exact .inl rfl
  · exact .inr (.inr (hapart j i hj hi hij))

theorem widened_within (hranges : ∀ r ∈ ranges, r.Within lineCount)
    (hcontext : 0 ≤ context) :
    ∀ r ∈ sortBy before (ranges.map (·.widen lineCount context)), r.Within lineCount := by
  intro r hr
  obtain ⟨r, hmem, rfl⟩ := List.mem_map.1 (mem_sortBy.1 hr)
  exact (hranges r hmem).widen hcontext

theorem groupLines_within (gap : Int) (hranges : ∀ r ∈ ranges, r.Within lineCount)
    (hcontext : 0 ≤ context) :
    ∀ g ∈ groupLines ranges lineCount context gap, g.Within lineCount := by
  have hwithin := widened_within hranges hcontext
  simp only [groupLines]
  split
  case h_1 => exact fun g hg => absurd hg List.not_mem_nil
  case h_2 first rest heq =>
    rw [heq] at hwithin
    obtain ⟨hfirst, hrest⟩ := List.forall_mem_cons.1 hwithin
    exact joinRanges_within hfirst hrest

/-- Every range is in a group together with its lines of context. -/
theorem groupLines_holds_widen (lineCount context gap : Int) {r : LineRange} (hr : r ∈ ranges) :
    ∃ g ∈ groupLines ranges lineCount context gap, g.Holds (r.widen lineCount context) := by
  have hmem : r.widen lineCount context ∈ sortBy before (ranges.map (·.widen lineCount context)) :=
    mem_sortBy.2 (List.mem_map_of_mem hr)
  have hsorted := sortBy_before_pairwise (ranges.map (·.widen lineCount context))
  simp only [groupLines]
  split
  case h_1 heq => rw [heq] at hmem; exact absurd hmem List.not_mem_nil
  case h_2 first rest heq =>
    rw [heq] at hmem hsorted
    obtain ⟨hfirst, hsorted⟩ := List.pairwise_cons.1 hsorted
    exact joinRanges_holds hfirst hsorted _ hmem

theorem groupLines_holds (gap : Int) (hranges : ∀ r ∈ ranges, r.Within lineCount)
    (hcontext : 0 ≤ context) :
    ∀ r ∈ ranges, ∃ g ∈ groupLines ranges lineCount context gap, g.Holds r := by
  intro r hr
  obtain ⟨g, hg, hheld⟩ := groupLines_holds_widen lineCount context gap hr
  exact ⟨g, hg, hheld.trans (widen_holds (hranges r hr) hcontext)⟩

theorem groupLines_apart (ranges : List LineRange) (lineCount context gap : Int) :
    (groupLines ranges lineCount context gap).Pairwise fun a b => a.last + gap + 1 < b.first := by
  have hsorted := sortBy_before_pairwise (ranges.map (·.widen lineCount context))
  simp only [groupLines]
  split
  case h_1 => exact .nil
  case h_2 first rest heq =>
    rw [heq] at hsorted
    obtain ⟨hfirst, hsorted⟩ := List.pairwise_cons.1 hsorted
    exact joinRanges_apart hfirst hsorted

end Excerpt
