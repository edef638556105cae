import Mathlib.Data.List.Nodup
import Mathlib.Data.List.Perm.Subperm
import Mathlib.Order.Lattice.Nat

/-!
Counting entries against the numbers that they are given. Entries with different numbers are at
least as many as the numbers, and entries that all have numbers of their own are at most as many.
-/

namespace Excerpt

theorem lt_foldl_max {α : Type} (f : α → Nat) {a : α} {l : List α} (h : a ∈ l) (start : Nat) :
    f a < l.foldl (fun count x => max count (f x + 1)) start := by
  have hgrow : ∀ (l : List α) (start : Nat),
      start ≤ l.foldl (fun count x => max count (f x + 1)) start := by
    intro l
    induction l with
    | nil => exact fun start => Nat.le_refl start
    | cons b l ih => exact fun start => Nat.le_trans (Nat.le_max_left ..) (ih _)
  induction l generalizing start with
  | nil => exact absurd h List.not_mem_nil
  | cons b l ih =>
      rcases List.mem_cons.1 h with rfl | h
      · exact Nat.lt_of_lt_of_le (Nat.le_max_right start _) (hgrow l _)
      · exact ih h _

theorem exists_of_lt_foldl_max {α : Type} (f : α → Nat) {l : List α} {n start : Nat}
    (h : n < l.foldl (fun count x => max count (f x + 1)) start) :
    n < start ∨ ∃ a ∈ l, n ≤ f a := by
  induction l generalizing start with
  | nil => exact .inl h
  | cons b l ih =>
      rcases ih h with hlt | ⟨a, ha, hle⟩
      · have hmax : n < max start (f b + 1) := hlt
        by_cases hstart : n < start
        · exact .inl hstart
        · exact .inr ⟨b, List.mem_cons_self, by omega⟩
      · exact .inr ⟨a, List.mem_cons_of_mem b ha, hle⟩

/-- One more than the largest number. -/
def numberCount (numbers : List Nat) : Nat :=
  numbers.foldl (fun count number => max count (number + 1)) 0

/-- Numbers below which none is left out are those below their count. -/
theorem mem_iff_lt_numberCount {numbers : List Nat}
    (h : ∀ number ∈ numbers, ∀ lower < number, lower ∈ numbers) {number : Nat} :
    number ∈ numbers ↔ number < numberCount numbers := by
  constructor
  · intro hnumber
    exact lt_foldl_max id hnumber 0
  · intro hlt
    obtain hlt | ⟨top, htop, hle⟩ := exists_of_lt_foldl_max id hlt
    · exact absurd hlt (Nat.not_lt_zero number)
    · rcases Nat.lt_or_eq_of_le hle with hlt | heq
      · exact h top htop number hlt
      · exact heq ▸ htop

section CountP

variable {α : Type} {p q : α → Bool} {l : List α}

theorem countP_or_le (p q : α → Bool) (l : List α) :
    l.countP (fun a => p a || q a) ≤ l.countP p + l.countP q := by
  induction l with
  | nil => exact Nat.le_refl 0
  | cons a l ih =>
      simp only [List.countP_cons]
      cases p a <;> cases q a <;> simp <;> omega

/-- One entry more makes a larger count. -/
theorem countP_lt_countP (himp : ∀ a ∈ l, p a = true → q a = true) {a : α} (ha : a ∈ l)
    (hp : p a = false) (hq : q a = true) : l.countP p < l.countP q := by
  have hfilter : l.filter p = (l.filter q).filter p := by
    rw [List.filter_filter]
    refine List.filter_congr fun b hb => ?_
    have hb := himp b hb
    cases hpb : p b <;> simp [hb, hpb]
  rw [List.countP_eq_length_filter, List.countP_eq_length_filter, hfilter]
  refine List.length_filter_lt_length_iff_exists.2 ⟨a, List.mem_filter.2 ⟨ha, hq⟩, ?_⟩
  rw [hp]
  exact Bool.false_ne_true

end CountP

section Numbered

variable {α : Type} {xs : List α} {numbers : List Nat} {p : α × Nat → Bool}

theorem nodup_zipIdx (xs : List α) : xs.zipIdx.Nodup := by
  apply List.Nodup.of_map Prod.snd
  rw [List.zipIdx_map_snd]
  exact List.nodup_range'

theorem exists_number_of_entry (hlength : numbers.length = xs.length) {i : Nat} {a : α}
    (h : xs[i]? = some a) : ∃ number, numbers[i]? = some number := by
  obtain ⟨hlt, -⟩ := List.getElem?_eq_some_iff.1 h
  rw [← hlength] at hlt
  exact ⟨_, List.getElem?_eq_getElem hlt⟩

theorem exists_entry_of_mem (hlength : numbers.length = xs.length) {number : Nat}
    (h : number ∈ numbers) :
    ∃ (i : Nat) (a : α), xs[i]? = some a ∧ numbers[i]? = some number := by
  obtain ⟨i, hi⟩ := List.mem_iff_getElem?.1 h
  obtain ⟨hlt, -⟩ := List.getElem?_eq_some_iff.1 hi
  rw [hlength] at hlt
  exact ⟨i, xs[i], List.getElem?_eq_getElem hlt, hi⟩

/-- Entries that have the wanted numbers among them are at least as many as these. -/
theorem length_le_countP {wanted : List Nat} (hnodup : wanted.Nodup)
    (h : ∀ number ∈ wanted, ∃ i a, xs[i]? = some a ∧ p (a, i) = true ∧
      numbers[i]? = some number) : wanted.length ≤ xs.zipIdx.countP p := by
  have hsubset : wanted.map some ⊆ (xs.zipIdx.filter p).map fun e => numbers[e.2]? := by
    intro number hnumber
    obtain ⟨number, hwanted, rfl⟩ := List.mem_map.1 hnumber
    obtain ⟨i, a, ha, hp, hanswer⟩ := h number hwanted
    have hmem : (a, i) ∈ xs.zipIdx := List.mk_mem_zipIdx_iff_getElem?.2 ha
    exact List.mem_map.2 ⟨(a, i), List.mem_filter.2 ⟨hmem, hp⟩, hanswer⟩
  have hsubperm := List.subperm_of_subset (hnodup.map (Option.some_injective Nat)) hsubset
  have hlength := hsubperm.length_le
  rwa [List.length_map, List.length_map, ← List.countP_eq_length_filter] at hlength

/-- How many entries hold a point. -/
def countAt (holds : α → Int → Bool) (xs : List α) (x : Int) : Nat := xs.countP (holds · x)

variable {holds : α → Int → Bool}

theorem countAt_eq_countP (holds : α → Int → Bool) (xs : List α) (x : Int) :
    countAt holds xs x = xs.zipIdx.countP fun e => holds e.1 x := by
  have hvalues := List.countP_map (p := (holds · x)) (f := Prod.fst) (l := xs.zipIdx)
  rw [List.zipIdx_map_fst] at hvalues
  exact hvalues

/-- Some point is held by the most entries. -/
theorem exists_isGreatest_countAt (holds : α → Int → Bool) (xs : List α) :
    ∃ most, IsGreatest (Set.range (countAt holds xs)) most := by
  have hbounded : BddAbove (Set.range (countAt holds xs)) := by
    refine ⟨xs.length, ?_⟩
    rintro _ ⟨x, rfl⟩
    exact List.countP_le_length
  exact ⟨_, Nat.sSup_mem (Set.range_nonempty _) hbounded, fun _ h => le_csSup hbounded h⟩

/-- Where the entries that hold a common point have different numbers, no point is held by more
entries than there are numbers. -/
theorem countAt_le {count : Nat} (hlength : numbers.length = xs.length)
    (hbelow : ∀ number ∈ numbers, number < count)
    (hapart : ∀ {i j : Nat} {a b : α} {x : Int}, i ≠ j → xs[i]? = some a → xs[j]? = some b →
      holds a x = true → holds b x = true → numbers[i]? ≠ numbers[j]?) (x : Int) :
    countAt holds xs x ≤ count := by
  have hnodup : ((xs.zipIdx.filter fun e => holds e.1 x).map fun e => numbers[e.2]?).Nodup := by
    refine List.Nodup.map_on ?_ ((nodup_zipIdx xs).filter _)
    intro e he other hother hsame
    obtain ⟨he, hholds⟩ := List.mem_filter.1 he
    obtain ⟨hother, hotherHolds⟩ := List.mem_filter.1 hother
    have ha := List.mem_zipIdx_iff_getElem?.1 he
    have hb := List.mem_zipIdx_iff_getElem?.1 hother
    by_contra hne
    refine hapart (fun hposition => hne ?_) ha hb hholds hotherHolds hsame
    refine Prod.ext ?_ hposition
    rw [hposition, hb] at ha
    exact (Option.some.inj ha).symm
  have hsubset : ((xs.zipIdx.filter fun e => holds e.1 x).map fun e => numbers[e.2]?) ⊆
      (List.range count).map some := by
    intro number hnumber
    obtain ⟨e, he, rfl⟩ := List.mem_map.1 hnumber
    have ha := List.mem_zipIdx_iff_getElem?.1 (List.mem_filter.1 he).1
    have hlt : e.2 < numbers.length := hlength ▸ (List.getElem?_eq_some_iff.1 ha).1
    refine List.mem_map.2 ⟨numbers[e.2], ?_, (List.getElem?_eq_getElem hlt).symm⟩
    exact List.mem_range.2 (hbelow _ (List.getElem_mem hlt))
  have hle := (List.subperm_of_subset hnodup hsubset).length_le
  rw [List.length_map, List.length_map, List.length_range, ← List.countP_eq_length_filter] at hle
  rwa [countAt_eq_countP]

end Numbered

end Excerpt
