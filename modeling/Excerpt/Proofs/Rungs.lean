import Mathlib.Order.Bounds.Basic
import Excerpt.Proofs.Counting
import Excerpt.Proofs.Stacking

/-!
The rung of an interval is the lowest one that no overlapping interval placed before it has. Hence
overlapping intervals are on different rungs, no rung is left out, and of two intervals, one inside
the other, the inner one is on the lower rung, whatever else is stacked with them.
-/

namespace Excerpt

namespace Interval

/-- All columns of one interval are columns of the other. -/
def Inside (a b : Interval) : Prop := b.start ≤ a.start ∧ a.stop ≤ b.stop

instance (a b : Interval) : Decidable (a.Inside b) := inferInstanceAs (Decidable (_ ∧ _))

theorem overlaps_iff {a b : Interval} :
    a.overlaps b = true ↔ a.start < b.stop ∧ b.start < a.stop := by
  simp only [overlaps, Bool.and_eq_true, decide_eq_true_eq]

theorem Inside.overlaps {a b : Interval} (h : a.Inside b) (hwide : a.start < a.stop) :
    a.overlaps b = true := by
  obtain ⟨hstart, hstop⟩ := h
  rw [overlaps_iff]
  omega

/-- What overlaps the inner interval overlaps the outer one. -/
theorem Inside.overlaps_of_overlaps {a b c : Interval} (h : a.Inside b)
    (hover : a.overlaps c = true) : b.overlaps c = true := by
  obtain ⟨hstart, hstop⟩ := h
  rw [overlaps_iff] at hover ⊢
  omega

theorem placedBefore_trans {a b c : Interval × Nat} (hab : placedBefore a b = true)
    (hbc : placedBefore b c = true) : placedBefore a c = true := by
  rw [placedBefore_iff] at hab hbc ⊢
  omega

theorem placedBefore_antisymm {a b : Interval × Nat} (hab : placedBefore a b = true)
    (hba : placedBefore b a = true) : a = b := by
  obtain ⟨⟨start, stop⟩, i⟩ := a
  obtain ⟨⟨start', stop'⟩, j⟩ := b
  rw [placedBefore_iff] at hab hba
  simp only [width, Prod.mk.injEq, Interval.mk.injEq] at hab hba ⊢
  omega

/-- An inner interval is placed before an outer one, of two equal ones the first. -/
theorem Inside.placedBefore {a b : Interval} {i j : Nat} (h : a.Inside b) (hfirst : a = b → i < j) :
    placedBefore (a, i) (b, j) = true := by
  obtain ⟨start, stop⟩ := a
  obtain ⟨start', stop'⟩ := b
  obtain ⟨hstart, hstop⟩ := h
  rw [placedBefore_iff]
  simp only [width, Interval.mk.injEq] at hstart hstop hfirst ⊢
  omega

end Interval

/-- A rung is free for the interval at a position if no overlapping one that is placed before it is
on that rung. -/
def FreeFor (intervals : List Interval) (i : Nat) (a : Interval) (rung : Nat) : Prop :=
  ∀ j b, intervals[j]? = some b → j ≠ i → Interval.placedBefore (b, j) (a, i) = true →
    a.overlaps b = true → (assignRungs intervals)[j]? ≠ some rung

section Rungs

variable {intervals : List Interval} {i j rung other : Nat} {a b : Interval}

theorem rungs_ne_of_overlaps (hij : i ≠ j) (ha : intervals[i]? = some a)
    (hb : intervals[j]? = some b) (hover : a.overlaps b = true) :
    (assignRungs intervals)[i]? ≠ (assignRungs intervals)[j]? := by
  intro heq
  obtain ⟨rung, hrung⟩ := exists_number_of_entry (length_assignRungs intervals) ha
  have hfree := assignRungs_apart hij ha hb hrung (heq ▸ hrung)
  rw [hover] at hfree
  cases hfree

theorem isLeast_freeFor (ha : intervals[i]? = some a)
    (hi : (assignRungs intervals)[i]? = some rung) :
    IsLeast {r | FreeFor intervals i a r} rung := by
  constructor
  · intro j b hb hji _ hover heq
    exact rungs_ne_of_overlaps hji.symm ha hb hover (hi.trans heq.symm)
  · intro lower hfree
    by_contra hlt
    obtain ⟨j, b, hb, hover, hj, hbefore⟩ := exists_on_lower_rung ha hi (Nat.lt_of_not_le hlt)
    refine hfree j b hb ?_ hbefore hover hj
    rintro rfl
    rw [hi] at hj
    exact hlt (Nat.le_of_eq (Option.some.inj hj))

/-- An interval inside another one is on a lower rung: what keeps the inner one from a rung keeps
the outer one from it, too. -/
theorem rung_lt_of_inside (hwide : a.start < a.stop) (ha : intervals[i]? = some a)
    (hb : intervals[j]? = some b) (hi : (assignRungs intervals)[i]? = some rung)
    (hj : (assignRungs intervals)[j]? = some other) (hinside : a.Inside b)
    (hfirst : a = b → i < j) : rung < other := by
  have hij : i ≠ j := by
    rintro rfl
    exact Nat.lt_irrefl i (hfirst (Option.some.inj (ha.symm.trans hb)))
  have hbefore := hinside.placedBefore hfirst
  have hover := hinside.overlaps hwide
  rcases Nat.lt_trichotomy rung other with hlt | heq | hgt
  · exact hlt
  · exact absurd (hi.trans (heq ▸ hj.symm)) (rungs_ne_of_overlaps hij ha hb hover)
  · obtain ⟨k, c, hc, hblocks, hk, hfront⟩ := exists_on_lower_rung ha hi hgt
    have hjk : j ≠ k := by
      rintro rfl
      rw [hb] at hc
      cases hc
      exact hij (congrArg Prod.snd (Interval.placedBefore_antisymm hbefore hfront))
    exact absurd (hj.trans hk.symm)
      (rungs_ne_of_overlaps hjk hb hc (hinside.overlaps_of_overlaps hblocks))

/-- The rungs that are used are the lowest ones. -/
theorem mem_assignRungs_iff :
    rung ∈ assignRungs intervals ↔ rung < numberCount (assignRungs intervals) := by
  apply mem_iff_lt_numberCount
  intro rung hrung lower hlt
  obtain ⟨i, a, ha, hi⟩ := exists_entry_of_mem (length_assignRungs intervals) hrung
  obtain ⟨j, b, -, -, hj, -⟩ := exists_on_lower_rung ha hi hlt
  exact List.mem_of_getElem? hj

end Rungs

/-- Overlapping intervals never share a rung, and each interval has the lowest rung that is free of
overlapping intervals placed before it: every rung below holds one of these. The rungs that are used
are those below some number. -/
theorem intervals_take_lowest_rungs (intervals : List Interval) :
    (assignRungs intervals).length = intervals.length ∧
    (∀ (i j : Nat) (a b : Interval), i ≠ j → intervals[i]? = some a → intervals[j]? = some b →
      a.overlaps b = true → (assignRungs intervals)[i]? ≠ (assignRungs intervals)[j]?) ∧
    (∀ (i : Nat) (a : Interval) (rung : Nat), intervals[i]? = some a →
      (assignRungs intervals)[i]? = some rung →
        IsLeast {r | FreeFor intervals i a r} rung ∧
        ∀ lower < rung, ∃ (j : Nat) (b : Interval), intervals[j]? = some b ∧
          a.overlaps b = true ∧ (assignRungs intervals)[j]? = some lower ∧
          Interval.placedBefore (b, j) (a, i) = true) ∧
    ∃ count, ∀ rung, rung ∈ assignRungs intervals ↔ rung < count := by
  refine ⟨length_assignRungs intervals, ?_, ?_, ?_⟩
  · intro i j a b hij ha hb hover
    exact rungs_ne_of_overlaps hij ha hb hover
  · intro i a rung ha hi
    exact ⟨isLeast_freeFor ha hi, fun lower hlower => exists_on_lower_rung ha hi hlower⟩
  · exact ⟨numberCount (assignRungs intervals), fun rung => mem_assignRungs_iff⟩

/-- Intervals that cross, touch, repeat and lie inside one another. -/
def piled : List Interval :=
  [⟨0, 5⟩, ⟨3, 9⟩, ⟨4, 6⟩, ⟨8, 12⟩, ⟨10, 11⟩, ⟨1, 2⟩, ⟨4, 6⟩]

theorem intervals_take_lowest_rungs_piled :
    assignRungs piled = [2, 3, 0, 1, 0, 0, 1] ∧
      (assignRungs piled)[2]? ≠ (assignRungs piled)[6]? ∧
      IsLeast {r | FreeFor piled 1 ⟨3, 9⟩ r} 3 ∧
      ∃ (j : Nat) (b : Interval), piled[j]? = some b ∧ (⟨3, 9⟩ : Interval).overlaps b = true ∧
        (assignRungs piled)[j]? = some 2 ∧ Interval.placedBefore (b, j) (⟨3, 9⟩, 1) = true := by
  obtain ⟨-, hapart, hlowest, -⟩ := intervals_take_lowest_rungs piled
  obtain ⟨hleast, hbelow⟩ := hlowest 1 ⟨3, 9⟩ 3 rfl (by decide)
  exact ⟨by decide, hapart 2 6 ⟨4, 6⟩ ⟨4, 6⟩ (by decide) rfl rfl (by decide), hleast,
    hbelow 2 (by decide)⟩

end Excerpt
