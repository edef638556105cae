import Excerpt.Layout.Rungs
import Excerpt.Layout.Slots
import Mathlib.Data.List.Pairwise

/-!
What is placed on one rung or in one slot never meets. Intervals and ranges are placed one after
another in an order of their own and answered by position; a fact about the order of placing is
therefore proved for neighbours in a list of pairs, then read off for any two positions.
-/

namespace Excerpt

theorem lookup_of_mem {κ β : Type} [BEq κ] [LawfulBEq κ] {l : List (κ × β)} {k : κ} {v : β}
    (hnodup : (l.map Prod.fst).Nodup) (h : (k, v) ∈ l) : l.lookup k = some v := by
  induction l with
  | nil => exact absurd h List.not_mem_nil
  | cons p l ih =>
      obtain ⟨key, value⟩ := p
      obtain ⟨hkey, htail⟩ := List.nodup_cons.1 hnodup
      rcases List.mem_cons.1 h with heq | hmem
      · cases heq
        rw [List.lookup_cons_self]
      · have hne : k ≠ key := by
          rintro rfl
          exact hkey (List.mem_map.2 ⟨_, hmem, rfl⟩)
        rw [List.lookup_cons, beq_false_of_ne hne]
        exact ih htail hmem

variable {α : Type} {xs : List α} {entries : List (α × Nat)} {answers : List (Nat × Nat)}

theorem answer_of_mem_zip (hperm : entries.Perm xs.zipIdx)
    (hpositions : answers.map Prod.fst = entries.map Prod.snd) {y : (α × Nat) × (Nat × Nat)}
    (hy : y ∈ entries.zip answers) :
    xs[y.1.2]? = some y.1.1 ∧ y.2.1 = y.1.2 ∧
      ((List.range xs.length).map fun i => (answers.lookup i).getD 0)[y.1.2]? = some y.2.2 := by
  have hxs : xs[y.1.2]? = some y.1.1 :=
    List.mk_mem_zipIdx_iff_getElem?.1 (hperm.mem_iff.1 (List.of_mem_zip hy).1)
  have hkey : y.2.1 = y.1.2 := by
    obtain ⟨k, hk, rfl⟩ := List.mem_iff_getElem.1 hy
    rw [List.length_zip] at hk
    have := List.getElem_of_eq hpositions (i := k) (by rw [List.length_map]; omega)
    rw [List.getElem_map, List.getElem_map] at this
    rw [List.getElem_zip, this]
  have hnodup : (answers.map Prod.fst).Nodup := by
    rw [hpositions, (hperm.map Prod.snd).nodup_iff, List.zipIdx_map_snd]
    exact List.nodup_range' ..
  have hlookup : answers.lookup y.1.2 = some y.2.2 :=
    lookup_of_mem hnodup (by rw [← hkey]; exact (List.of_mem_zip hy).2)
  refine ⟨hxs, hkey, ?_⟩
  rw [List.getElem?_map, List.getElem?_range (List.getElem?_eq_some_iff.1 hxs).1, Option.map_some,
    hlookup, Option.getD_some]

/-- An answer by position belongs to what was placed for that position. -/
theorem mem_zip_of_answer (hperm : entries.Perm xs.zipIdx)
    (hpositions : answers.map Prod.fst = entries.map Prod.snd) {i v : Nat} {a : α}
    (ha : xs[i]? = some a)
    (hv : ((List.range xs.length).map fun i => (answers.lookup i).getD 0)[i]? = some v) :
    ((a, i), (i, v)) ∈ entries.zip answers := by
  have hmem : (a, i) ∈ entries := hperm.mem_iff.2 (List.mk_mem_zipIdx_iff_getElem?.2 ha)
  obtain ⟨k, hk, hentry⟩ := List.mem_iff_getElem.1 hmem
  have hlen : answers.length = entries.length := by
    simpa only [List.length_map] using congrArg List.length hpositions
  have hzip : ((a, i), answers[k]) ∈ entries.zip answers := by
    rw [← hentry, ← List.getElem_zip (h := by rw [List.length_zip]; omega)]
    exact List.getElem_mem _
  obtain ⟨-, hkey, hanswer⟩ := answer_of_mem_zip hperm hpositions hzip
  have hpair : answers[k] = (i, v) := Prod.ext hkey (Option.some_inj.1 (hanswer.symm.trans hv))
  rwa [hpair] at hzip

/-! ### Leader slots -/

theorem registerAll_positions (busyUntil : List Int) (entries : List (LineRange × Nat)) :
    (registerAll busyUntil entries).map Prod.fst = entries.map Prod.snd := by
  induction entries generalizing busyUntil with
  | nil => rfl
  | cons e entries ih => simp only [registerAll, List.map_cons, ih]

theorem getElem?_occupy_self (busyUntil : List Int) {slot : Nat} (last : Int)
    (h : slot ≤ busyUntil.length) : (occupy busyUntil slot last)[slot]? = some last := by
  simp only [occupy]
  split
  case isTrue hlt => rw [List.getElem?_set_self hlt]
  case isFalse hge =>
    obtain rfl : slot = busyUntil.length := by omega
    rw [List.getElem?_append_right (Nat.le_refl _), Nat.sub_self, List.getElem?_cons_zero]

theorem getElem?_occupy_of_ne {busyUntil : List Int} {slot other : Nat} {last until' : Int}
    (hne : other ≠ slot) (h : busyUntil[other]? = some until') :
    (occupy busyUntil slot last)[other]? = some until' := by
  simp only [occupy]
  split
  case isTrue => rw [List.getElem?_set_ne hne.symm, h]
  case isFalse =>
    rw [List.getElem?_append_left (List.getElem?_eq_some_iff.1 h).1, h]

theorem freeSlot_le (busyUntil : List Int) (line : Int) :
    freeSlot busyUntil line ≤ busyUntil.length := List.findIdx_le_length

theorem lt_of_getElem?_freeSlot {busyUntil : List Int} {line until' : Int}
    (h : busyUntil[freeSlot busyUntil line]? = some until') : until' < line := by
  obtain ⟨hlt, rfl⟩ := List.getElem?_eq_some_iff.1 h
  exact of_decide_eq_true (List.findIdx_getElem (p := (· < line)) (w := hlt))

/-- Whoever takes a slot starts after the slot's holder has ended. -/
theorem busy_lt_of_mem_registerAll {busyUntil : List Int} {entries : List (LineRange × Nat)}
    (hsorted : entries.Pairwise fun a b => a.1.first ≤ b.1.first) {until' : Int}
    {x : (LineRange × Nat) × (Nat × Nat)} (hx : x ∈ entries.zip (registerAll busyUntil entries))
    (h : busyUntil[x.2.2]? = some until') : until' < x.1.1.first := by
  induction entries generalizing busyUntil until' with
  | nil => exact absurd hx List.not_mem_nil
  | cons e entries ih =>
      obtain ⟨hfirst, hsorted⟩ := List.pairwise_cons.1 hsorted
      simp only [registerAll, List.zip_cons_cons] at hx
      rcases List.mem_cons.1 hx with rfl | hx
      · exact lt_of_getElem?_freeSlot h
      · have hle : e.1.first ≤ x.1.1.first := hfirst _ (List.of_mem_zip hx).1
        by_cases hslot : x.2.2 = freeSlot busyUntil e.1.first
        · rw [hslot] at h
          exact Int.lt_of_lt_of_le (lt_of_getElem?_freeSlot h) hle
        · exact ih hsorted hx (getElem?_occupy_of_ne hslot h)

theorem registerAll_apart (busyUntil : List Int) {entries : List (LineRange × Nat)}
    (hsorted : entries.Pairwise fun a b => a.1.first ≤ b.1.first) :
    (entries.zip (registerAll busyUntil entries)).Pairwise fun x y =>
      x.2.2 = y.2.2 → x.1.1.last < y.1.1.first := by
  induction entries generalizing busyUntil with
  | nil => exact .nil
  | cons e entries ih =>
      obtain ⟨-, htail⟩ := List.pairwise_cons.1 hsorted
      simp only [registerAll, List.zip_cons_cons]
      refine List.pairwise_cons.2 ⟨fun y hy hslot => ?_, ih _ htail⟩
      refine busy_lt_of_mem_registerAll htail hy ?_
      rw [← hslot]
      exact getElem?_occupy_self _ _ (freeSlot_le _ _)

theorem sortBy_startsBefore_pairwise (entries : List (LineRange × Nat)) :
    (sortBy LineRange.startsBefore entries).Pairwise fun a b => a.1.first ≤ b.1.first := by
  refine sortBy_lex_pairwise (fun entry => entry.1.first) (fun entry => entry.2) (fun a b => ?_)
    entries
  simp only [LineRange.startsBefore, Bool.or_eq_true, Bool.and_eq_true, decide_eq_true_eq,
    beq_iff_eq, Int.ofNat_le]

theorem assignLeaderSlots_apart {ranges : List LineRange} {i j slot : Nat} {a b : LineRange}
    (hij : i ≠ j) (ha : ranges[i]? = some a) (hb : ranges[j]? = some b)
    (hi : (assignLeaderSlots ranges)[i]? = some slot)
    (hj : (assignLeaderSlots ranges)[j]? = some slot) : a.last < b.first ∨ b.last < a.first := by
  have hpairs := registerAll_apart [] (sortBy_startsBefore_pairwise ranges.zipIdx)
  have hboth := hpairs.imp
    (S := fun x y => x.2.2 = y.2.2 → x.1.1.last < y.1.1.first ∨ y.1.1.last < x.1.1.first)
    fun h heq => .inl (h heq)
  have hsymm : Std.Symm fun x y : (LineRange × Nat) × (Nat × Nat) =>
      x.2.2 = y.2.2 → x.1.1.last < y.1.1.first ∨ y.1.1.last < x.1.1.first :=
    ⟨fun x y h heq => (h heq.symm).symm⟩
  have hmem := fun {k : Nat} {r : LineRange} => mem_zip_of_answer (i := k) (a := r) (v := slot)
    (sortBy_perm LineRange.startsBefore ranges.zipIdx) (registerAll_positions [] _)
  exact hboth.forall (hmem ha hi) (hmem hb hj) (fun heq => hij (by cases heq; rfl)) rfl

/-! ### Rungs -/

theorem placeAll_positions (placed : List (Interval × Nat)) (entries : List (Interval × Nat)) :
    (placeAll placed entries).map Prod.fst = entries.map Prod.snd := by
  induction entries generalizing placed with
  | nil => rfl
  | cons e entries ih => simp only [placeAll, List.map_cons, ih]

theorem freeRung_le (placed : List (Interval × Nat)) (interval : Interval) :
    freeRung placed interval ≤ placed.length := by
  have h : freeRung placed interval ≤ (List.range placed.length).length := List.findIdx_le_length
  rwa [List.length_range] at h

/-- Below the rung that an interval takes, every rung is blocked. -/
theorem blocks_of_lt_freeRung {placed : List (Interval × Nat)} {interval : Interval} {rung : Nat}
    (h : rung < freeRung placed interval) : blocks placed interval rung = true := by
  have hlt := Nat.lt_of_lt_of_le h (freeRung_le placed interval)
  have := List.not_of_lt_findIdx h
  rw [List.getElem_range] at this
  simpa using this

theorem blocks_iff {placed : List (Interval × Nat)} {interval : Interval} {rung : Nat} :
    blocks placed interval rung = true ↔
      ∃ other, (other, rung) ∈ placed ∧ interval.overlaps other = true := by
  simp only [blocks, List.any_eq_true, Bool.and_eq_true, beq_iff_eq]
  constructor
  · rintro ⟨⟨other, _⟩, hmem, rfl, hover⟩
    exact ⟨other, hmem, hover⟩
  · rintro ⟨other, hmem, hover⟩
    exact ⟨_, hmem, rfl, hover⟩

/-- Rungs are taken from below, so there are never more of them than intervals. -/
def RungsBelow (placed : List (Interval × Nat)) : Prop := ∀ p ∈ placed, p.2 < placed.length

theorem RungsBelow.cons {placed : List (Interval × Nat)} (h : RungsBelow placed)
    (interval : Interval) : RungsBelow ((interval, freeRung placed interval) :: placed) := by
  refine List.forall_mem_cons.2 ⟨Nat.lt_succ_of_le (freeRung_le placed interval), fun p hp => ?_⟩
  exact Nat.lt_succ_of_lt (h p hp)

theorem not_blocks_freeRung {placed : List (Interval × Nat)} (hbelow : RungsBelow placed)
    (interval : Interval) : blocks placed interval (freeRung placed interval) = false := by
  rcases Nat.lt_or_eq_of_le (freeRung_le placed interval) with hlt | heq
  · have hlt' : (List.range placed.length).findIdx (fun rung => !blocks placed interval rung) <
        (List.range placed.length).length := by rwa [List.length_range]
    have hfree := List.findIdx_getElem (w := hlt')
    rwa [List.getElem_range, Bool.not_eq_true'] at hfree
  · rw [heq, ← Bool.not_eq_true, blocks_iff]
    rintro ⟨other, hmem, -⟩
    exact absurd (hbelow _ hmem) (Nat.lt_irrefl _)

/-- Whoever takes a rung overlaps none of those on it. -/
theorem not_overlaps_of_mem_placeAll {placed entries : List (Interval × Nat)}
    (hbelow : RungsBelow placed) {x : (Interval × Nat) × (Nat × Nat)}
    (hx : x ∈ entries.zip (placeAll placed entries)) {other : Interval}
    (hother : (other, x.2.2) ∈ placed) : x.1.1.overlaps other = false := by
  induction entries generalizing placed with
  | nil => exact absurd hx List.not_mem_nil
  | cons e entries ih =>
      simp only [placeAll, List.zip_cons_cons] at hx
      rcases List.mem_cons.1 hx with rfl | hx
      · rw [← Bool.not_eq_true]
        intro hover
        have hblocked := blocks_iff.2 ⟨other, hother, hover⟩
        rw [not_blocks_freeRung hbelow] at hblocked
        cases hblocked
      · exact ih (hbelow.cons e.1) hx (List.mem_cons_of_mem _ hother)

theorem placeAll_apart {placed : List (Interval × Nat)} (hbelow : RungsBelow placed)
    (entries : List (Interval × Nat)) :
    (entries.zip (placeAll placed entries)).Pairwise fun x y =>
      x.2.2 = y.2.2 → y.1.1.overlaps x.1.1 = false := by
  induction entries generalizing placed with
  | nil => exact .nil
  | cons e entries ih =>
      simp only [placeAll, List.zip_cons_cons]
      refine List.pairwise_cons.2 ⟨fun y hy hrung => ?_, ih (hbelow.cons e.1)⟩
      refine not_overlaps_of_mem_placeAll (hbelow.cons e.1) hy ?_
      rw [← hrung]
      exact List.mem_cons_self ..

/-- Below the rung of an interval, every rung holds one that it overlaps and that was placed before
it, so any relation in which the entries stand holds between the two. -/
theorem exists_overlap_of_lt_rung {r : Interval × Nat → Interval × Nat → Prop}
    {placed entries : List (Interval × Nat)} (hsorted : entries.Pairwise r)
    {x : (Interval × Nat) × (Nat × Nat)} (hx : x ∈ entries.zip (placeAll placed entries))
    {rung : Nat} (h : rung < x.2.2) :
    ∃ other, x.1.1.overlaps other = true ∧ ((other, rung) ∈ placed ∨
      ∃ y ∈ entries.zip (placeAll placed entries), y.1.1 = other ∧ y.2.2 = rung ∧ r y.1 x.1) := by
  induction entries generalizing placed with
  | nil => exact absurd hx List.not_mem_nil
  | cons e entries ih =>
      obtain ⟨hfirst, hsorted⟩ := List.pairwise_cons.1 hsorted
      simp only [placeAll, List.zip_cons_cons] at hx ⊢
      rcases List.mem_cons.1 hx with rfl | hx
      · obtain ⟨other, hmem, hover⟩ := blocks_iff.1 (blocks_of_lt_freeRung h)
        exact ⟨other, hover, .inl hmem⟩
      · obtain ⟨other, hover, hmem | ⟨y, hy, hother, hrung, hbefore⟩⟩ := ih hsorted hx
        · rcases List.mem_cons.1 hmem with heq | hmem
          · cases heq
            exact ⟨_, hover,
              .inr ⟨_, List.mem_cons_self .., rfl, rfl, hfirst _ (List.of_mem_zip hx).1⟩⟩
          · exact ⟨other, hover, .inl hmem⟩
        · exact ⟨other, hover, .inr ⟨y, List.mem_cons_of_mem _ hy, hother, hrung, hbefore⟩⟩

namespace Interval

theorem placedBefore_iff {a b : Interval × Nat} : placedBefore a b = true ↔
    a.1.width < b.1.width ∨ a.1.width = b.1.width ∧
      (a.1.start < b.1.start ∨ a.1.start = b.1.start ∧ a.2 ≤ b.2) := by
  simp only [placedBefore, Bool.or_eq_true, Bool.and_eq_true, decide_eq_true_eq, beq_iff_eq]

theorem sortBy_placedBefore (entries : List (Interval × Nat)) :
    (sortBy placedBefore entries).Pairwise fun a b => placedBefore a b = true := by
  apply sortBy_pairwise
  · intro a b
    rw [placedBefore_iff, placedBefore_iff]
    omega
  · intro a b c hab hbc
    rw [placedBefore_iff] at hab hbc ⊢
    omega

end Interval

theorem assignRungs_apart {intervals : List Interval} {i j rung : Nat} {a b : Interval}
    (hij : i ≠ j) (ha : intervals[i]? = some a) (hb : intervals[j]? = some b)
    (hi : (assignRungs intervals)[i]? = some rung) (hj : (assignRungs intervals)[j]? = some rung) :
    a.overlaps b = false := by
  have hpairs := @placeAll_apart [] (fun p hp => absurd hp List.not_mem_nil)
    (sortBy Interval.placedBefore intervals.zipIdx)
  have hsymm : Std.Symm fun x y : (Interval × Nat) × (Nat × Nat) =>
      x.2.2 = y.2.2 → y.1.1.overlaps x.1.1 = false :=
    ⟨fun x y h heq => by rw [Interval.overlaps_comm]; exact h heq.symm⟩
  have hmem := fun {k : Nat} {r : Interval} => mem_zip_of_answer (i := k) (a := r) (v := rung)
    (sortBy_perm Interval.placedBefore intervals.zipIdx) (placeAll_positions [] _)
  exact hpairs.forall (hmem hb hj) (hmem ha hi) (fun heq => hij (by cases heq; rfl)) rfl

theorem exists_on_lower_rung {intervals : List Interval} {i rung lower : Nat} {a : Interval}
    (ha : intervals[i]? = some a) (hi : (assignRungs intervals)[i]? = some rung)
    (h : lower < rung) : ∃ (j : Nat) (b : Interval), intervals[j]? = some b ∧ a.overlaps b = true ∧
      (assignRungs intervals)[j]? = some lower ∧ Interval.placedBefore (b, j) (a, i) = true := by
  have hperm := sortBy_perm Interval.placedBefore intervals.zipIdx
  have hx := mem_zip_of_answer hperm (placeAll_positions [] _) ha hi
  obtain ⟨b, hover, hmem | ⟨y, hy, rfl, rfl, hbefore⟩⟩ :=
    exists_overlap_of_lt_rung (Interval.sortBy_placedBefore _) hx h
  · exact absurd hmem List.not_mem_nil
  · obtain ⟨hinterval, -, hanswer⟩ := answer_of_mem_zip hperm (placeAll_positions [] _) hy
    exact ⟨_, _, hinterval, hover, hanswer, hbefore⟩

end Excerpt
