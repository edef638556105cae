import Excerpt.Proofs.Stacking
import Mathlib.Data.List.Nodup

/-!
Rungs and slots by value. Positions decide between entries that compare equal and nothing else:
where there are none, the rung of an interval and the slot of a range are functions of the interval
and the range, the same ones for every order in which they are given.
-/

namespace Excerpt

/-- Sorting gives one list for all orders of the entries if no two of them compare equal. -/
theorem sortBy_congr {le : α → α → Bool} (total : ∀ a b, le a b = true ∨ le b a = true)
    (trans : ∀ a b c, le a b = true → le b c = true → le a c = true) {xs ys : List α}
    (antisymm : ∀ a ∈ xs, ∀ b ∈ xs, le a b = true → le b a = true → a = b) (h : ys.Perm xs) :
    sortBy le ys = sortBy le xs := by
  have hperm : (sortBy le ys).Perm (sortBy le xs) :=
    ((sortBy_perm le ys).trans h).trans (sortBy_perm le xs).symm
  refine List.Perm.eq_of_pairwise ?_ (sortBy_pairwise total trans ys)
    (sortBy_pairwise total trans xs) hperm
  intro a b ha hb
  exact antisymm a (h.mem_iff.1 (mem_sortBy.1 ha)) b (mem_sortBy.1 hb)

section Answers

variable {α : Type} {xs ys : List α}

/-- Entries in the order of placing, apart from their positions. -/
theorem map_fst_sortBy_congr {le : α × Nat → α × Nat → Bool} {r : α → α → Prop}
    (hsorted : ∀ entries, (sortBy le entries).Pairwise fun a b => r a.1 b.1)
    (antisymm : ∀ a ∈ xs, ∀ b ∈ xs, r a b → r b a → a = b) (h : ys.Perm xs) :
    (sortBy le ys.zipIdx).map Prod.fst = (sortBy le xs.zipIdx).map Prod.fst := by
  have hvalues : ∀ zs : List α, ((sortBy le zs.zipIdx).map Prod.fst).Perm zs := by
    intro zs
    refine ((sortBy_perm le zs.zipIdx).map Prod.fst).trans ?_
    rw [List.zipIdx_map_fst]
  have hperm := ((hvalues ys).trans h).trans (hvalues xs).symm
  refine List.Perm.eq_of_pairwise ?_ (List.pairwise_map.2 (hsorted _))
    (List.pairwise_map.2 (hsorted _)) hperm
  intro a b ha hb
  exact antisymm a (h.mem_iff.1 ((hvalues ys).mem_iff.1 ha)) b ((hvalues xs).mem_iff.1 hb)

/-- Answers by position are answers by value when no value is given twice. -/
theorem answers_eq_map [BEq α] [LawfulBEq α] {entries : List (α × Nat)} {values : List Nat}
    (hperm : entries.Perm xs.zipIdx) (hlength : values.length = entries.length)
    (hnodup : xs.Nodup) :
    ((List.range xs.length).map fun i => (((entries.map Prod.snd).zip values).lookup i).getD 0) =
      xs.map fun a => (((entries.map Prod.fst).zip values).lookup a).getD 0 := by
  have hpositions : ((entries.map Prod.snd).zip values).map Prod.fst = entries.map Prod.snd :=
    List.map_fst_zip (Nat.le_of_eq (by rw [List.length_map, hlength]))
  have hkeys : ((entries.map Prod.fst).zip values).map Prod.fst = entries.map Prod.fst :=
    List.map_fst_zip (Nat.le_of_eq (by rw [List.length_map, hlength]))
  have hdistinct : (((entries.map Prod.fst).zip values).map Prod.fst).Nodup := by
    rw [hkeys, (hperm.map Prod.fst).nodup_iff, List.zipIdx_map_fst]
    exact hnodup
  refine List.ext_getElem (by simp only [List.length_map, List.length_range]) ?_
  intro i hi hxs
  have hlt : i < xs.length := by rwa [List.length_map] at hxs
  -- What stands at a position is placed somewhere, and its answer stands at the same place.
  have hmem := mem_zip_of_answer hperm hpositions (List.getElem?_eq_getElem hlt)
    (List.getElem?_eq_getElem hi)
  obtain ⟨k, hk, hpair⟩ := List.mem_iff_getElem.1 hmem
  rw [List.length_zip] at hk
  simp only [List.getElem_zip, Prod.mk.injEq] at hpair
  obtain ⟨hentry, -, hvalue⟩ := hpair
  have hanswer : (xs[i], values[k]) ∈ (entries.map Prod.fst).zip values := by
    refine List.mem_iff_getElem.2 ⟨k, by rw [List.length_zip, List.length_map]; omega, ?_⟩
    rw [List.getElem_zip, List.getElem_map, hentry]
  rw [← hvalue, List.getElem_map, lookup_of_mem hdistinct hanswer, Option.getD_some]

end Answers

/-! ### Rungs -/

/-- The rungs that intervals take one after another. -/
def rungsInOrder : List (Interval × Nat) → List Interval → List Nat
  | _, [] => []
  | placed, interval :: rest =>
    freeRung placed interval :: rungsInOrder ((interval, freeRung placed interval) :: placed) rest

theorem placeAll_eq (placed entries : List (Interval × Nat)) : placeAll placed entries =
    (entries.map Prod.snd).zip (rungsInOrder placed (entries.map Prod.fst)) := by
  induction entries generalizing placed with
  | nil => rfl
  | cons entry entries ih =>
      simp only [placeAll, ih, List.map_cons, rungsInOrder, List.zip_cons_cons]

theorem length_rungsInOrder (placed : List (Interval × Nat)) (intervals : List Interval) :
    (rungsInOrder placed intervals).length = intervals.length := by
  induction intervals generalizing placed with
  | nil => rfl
  | cons interval rest ih => simp only [rungsInOrder, List.length_cons, ih]

theorem sortBy_placedBefore_pairwise (entries : List (Interval × Nat)) :
    (sortBy Interval.placedBefore entries).Pairwise fun a b =>
      a.1.width < b.1.width ∨ a.1.width = b.1.width ∧ a.1.start ≤ b.1.start := by
  refine (Interval.sortBy_placedBefore entries).imp fun {a b} hab => ?_
  rw [Interval.placedBefore_iff] at hab
  omega

/-- The rung of an interval among others, wherever it stands. -/
def rungAmong (intervals : List Interval) (interval : Interval) : Nat :=
  let sorted := (sortBy Interval.placedBefore intervals.zipIdx).map Prod.fst
  ((sorted.zip (rungsInOrder [] sorted)).lookup interval).getD 0

/-- Where no interval is given twice, each has its rung in every order. -/
theorem assignRungs_eq_map {intervals others : List Interval} (h : intervals.Nodup)
    (hperm : others.Perm intervals) : assignRungs others = others.map (rungAmong intervals) := by
  have hsorted := map_fst_sortBy_congr
    (r := fun a b => a.width < b.width ∨ a.width = b.width ∧ a.start ≤ b.start)
    sortBy_placedBefore_pairwise (fun a _ b _ hab hba => ?_) hperm
  · rw [assignRungs, placeAll_eq, answers_eq_map (sortBy_perm _ _) ?_ (hperm.nodup_iff.2 h),
      hsorted]
    · rfl
    · rw [length_rungsInOrder, List.length_map]
  · obtain ⟨start, stop⟩ := a
    obtain ⟨start', stop'⟩ := b
    simp only [Interval.width, Interval.mk.injEq] at hab hba ⊢
    omega

/-! ### Leader slots -/

/-- The slots that ranges take one after another. -/
def slotsInOrder : List Int → List LineRange → List Nat
  | _, [] => []
  | busyUntil, range :: rest =>
    freeSlot busyUntil range.first ::
      slotsInOrder (occupy busyUntil (freeSlot busyUntil range.first) range.last) rest

theorem registerAll_eq (busyUntil : List Int) (entries : List (LineRange × Nat)) :
    registerAll busyUntil entries =
      (entries.map Prod.snd).zip (slotsInOrder busyUntil (entries.map Prod.fst)) := by
  induction entries generalizing busyUntil with
  | nil => rfl
  | cons entry entries ih =>
      simp only [registerAll, ih, List.map_cons, slotsInOrder, List.zip_cons_cons]

theorem length_slotsInOrder (busyUntil : List Int) (ranges : List LineRange) :
    (slotsInOrder busyUntil ranges).length = ranges.length := by
  induction ranges generalizing busyUntil with
  | nil => rfl
  | cons range rest ih => simp only [slotsInOrder, List.length_cons, ih]

/-- The slot of a range among others, wherever it stands. -/
def slotAmong (ranges : List LineRange) (range : LineRange) : Nat :=
  let sorted := (sortBy LineRange.startsBefore ranges.zipIdx).map Prod.fst
  ((sorted.zip (slotsInOrder [] sorted)).lookup range).getD 0

/-- Where no two ranges start on one line, each has its slot in every order. -/
theorem assignLeaderSlots_eq_map {ranges others : List LineRange}
    (h : (ranges.map LineRange.first).Nodup) (hperm : others.Perm ranges) :
    assignLeaderSlots others = others.map (slotAmong ranges) := by
  have hsorted := map_fst_sortBy_congr (r := fun a b => a.first ≤ b.first)
    sortBy_startsBefore_pairwise
    (fun a ha b hb hab hba => List.inj_on_of_nodup_map h ha hb (Int.le_antisymm hab hba)) hperm
  rw [assignLeaderSlots, registerAll_eq, answers_eq_map (sortBy_perm _ _) ?_
    (hperm.nodup_iff.2 h.of_map), hsorted]
  · rfl
  · rw [length_slotsInOrder, List.length_map]

end Excerpt
