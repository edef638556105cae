/-!
Sets of code points as rising lists of inclusive ranges.
-/

namespace Excerpt.Unicode

abbrev Ranges := List (Nat × Nat)

/-- Whether a rising list of ranges covers `n`; the search ends at the first range above it. -/
def Ranges.covers : Ranges → Nat → Bool
  | [], _ => false
  | (low, high) :: rest, n => if n < low then false else n ≤ high || Ranges.covers rest n

theorem Ranges.covers_of_mem {rs : Ranges} {n : Nat} (h : ∀ r ∈ rs, r.1 ≤ n) {r : Nat × Nat}
    (hr : r ∈ rs) (hn : n ≤ r.2) : rs.covers n = true := by
  induction rs with
  | nil => exact absurd hr List.not_mem_nil
  | cons first rest ih =>
      obtain ⟨hfirst, hrest⟩ := List.forall_mem_cons.1 h
      rw [covers, if_neg (Nat.not_lt.2 hfirst), Bool.or_eq_true, decide_eq_true_eq]
      rcases List.mem_cons.1 hr with rfl | hr
      · exact .inl hn
      · exact .inr (ih hrest hr)

end Excerpt.Unicode
