/-!
Stable sorting by insertion. The result holds the same entries, neighbours are in order, and
entries that compare equal both ways keep theirs.
-/

namespace Excerpt

/-- Inserts an entry before the first one that it may stand in front of. -/
def insertBy (le : α → α → Bool) (a : α) : List α → List α
  | [] => [a]
  | b :: rest => if le a b then a :: b :: rest else b :: insertBy le a rest

def sortBy (le : α → α → Bool) : List α → List α
  | [] => []
  | a :: rest => insertBy le a (sortBy le rest)

theorem insertBy_perm (le : α → α → Bool) (a : α) (xs : List α) :
    (insertBy le a xs).Perm (a :: xs) := by
  induction xs with
  | nil => exact .refl _
  | cons b rest ih =>
      unfold insertBy
      split
      · exact .refl _
      · exact (ih.cons b).trans (.swap a b rest)

theorem sortBy_perm (le : α → α → Bool) (xs : List α) : (sortBy le xs).Perm xs := by
  induction xs with
  | nil => exact .refl _
  | cons a rest ih => exact (insertBy_perm le a _).trans (ih.cons a)

@[simp] theorem mem_sortBy {le : α → α → Bool} {xs : List α} {a : α} :
    a ∈ sortBy le xs ↔ a ∈ xs := (sortBy_perm le xs).mem_iff

/-- What is sorted by may be read through a map. -/
theorem insertBy_map {le : α → α → Bool} {le' : β → β → Bool} {f : α → β}
    (h : ∀ a b, le' (f a) (f b) = le a b) (a : α) (xs : List α) :
    insertBy le' (f a) (xs.map f) = (insertBy le a xs).map f := by
  induction xs with
  | nil => rfl
  | cons b rest ih =>
      simp only [List.map_cons, insertBy, h, ih]
      split <;> rfl

theorem sortBy_map {le : α → α → Bool} {le' : β → β → Bool} {f : α → β}
    (h : ∀ a b, le' (f a) (f b) = le a b) (xs : List α) :
    sortBy le' (xs.map f) = (sortBy le xs).map f := by
  induction xs with
  | nil => rfl
  | cons a rest ih => simp only [List.map_cons, sortBy, ih, insertBy_map h]

theorem insertBy_pairwise {le : α → α → Bool} (total : ∀ a b, le a b = true ∨ le b a = true)
    (trans : ∀ a b c, le a b = true → le b c = true → le a c = true) {a : α} {xs : List α}
    (h : xs.Pairwise (le · ·)) : (insertBy le a xs).Pairwise (le · ·) := by
  induction xs with
  | nil => exact List.pairwise_singleton _ _
  | cons b rest ih =>
      obtain ⟨hb, hrest⟩ := List.pairwise_cons.1 h
      unfold insertBy
      split
      case isTrue hab =>
        refine List.pairwise_cons.2 ⟨?_, h⟩
        intro c hc
        rcases List.mem_cons.1 hc with rfl | hc
        · exact hab
        · exact trans _ _ _ hab (hb c hc)
      case isFalse hab =>
        refine List.pairwise_cons.2 ⟨?_, ih hrest⟩
        intro c hc
        rcases List.mem_cons.1 ((insertBy_perm le a rest).mem_iff.1 hc) with rfl | hc
        · exact (total c b).resolve_left hab
        · exact hb c hc

theorem sortBy_pairwise {le : α → α → Bool} (total : ∀ a b, le a b = true ∨ le b a = true)
    (trans : ∀ a b c, le a b = true → le b c = true → le a c = true) (xs : List α) :
    (sortBy le xs).Pairwise (le · ·) := by
  induction xs with
  | nil => exact .nil
  | cons a rest ih => exact insertBy_pairwise total trans ih

/-- Sorting by one number, and by a second one where the first is the same. -/
theorem sortBy_lex_pairwise {le : α → α → Bool} (key tie : α → Int)
    (h : ∀ a b, le a b = true ↔ key a < key b ∨ key a = key b ∧ tie a ≤ tie b) (xs : List α) :
    (sortBy le xs).Pairwise fun a b => key a ≤ key b := by
  have hsorted : (sortBy le xs).Pairwise (le · ·) := by
    refine sortBy_pairwise (fun a b => ?_) (fun a b c hab hbc => ?_) xs
    · rw [h, h]
      omega
    · rw [h] at hab hbc ⊢
      omega
  refine hsorted.imp fun {a b} hab => ?_
  rw [h] at hab
  omega

end Excerpt
