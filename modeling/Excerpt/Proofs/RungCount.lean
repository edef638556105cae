import Mathlib.Data.Finset.Range
import Excerpt.Proofs.Rungs

/-!
How many rungs intervals take, against how many of them cover one column. There are never fewer
rungs. Placing the narrow intervals first can take more, as what keeps an interval from one rung
need not share a column with what keeps it from another. But it lies inside the interval or covers
one of its two end columns, so the rungs are at most the square.
-/

namespace Excerpt

namespace Interval

def covers (a : Interval) (column : Int) : Bool := a.start ≤ column && column < a.stop

theorem covers_iff {a : Interval} {column : Int} :
    a.covers column = true ↔ a.start ≤ column ∧ column < a.stop := by
  simp only [covers, Bool.and_eq_true, decide_eq_true_eq]

theorem overlaps_of_covers {a b : Interval} {column : Int} (ha : a.covers column = true)
    (hb : b.covers column = true) : a.overlaps b = true := by
  rw [covers_iff] at ha hb
  rw [overlaps_iff]
  omega

theorem Inside.covers {a b : Interval} (h : a.Inside b) {column : Int}
    (ha : a.covers column = true) : b.covers column = true := by
  obtain ⟨hstart, hstop⟩ := h
  rw [covers_iff] at ha ⊢
  omega

/-- Whatever overlaps an interval covers one of its end columns or lies inside it. -/
theorem covers_end_or_inside {a b : Interval} (hover : a.overlaps b = true) :
    b.covers a.start = true ∨ b.covers (a.stop - 1) = true ∨ b.Inside a := by
  rw [overlaps_iff] at hover
  rw [covers_iff, covers_iff, Inside]
  omega

end Interval

/-- Whether an entry is placed before another one and covers a column. -/
def coversBefore (entry : Interval × Nat) (column : Int) (e : Interval × Nat) : Bool :=
  Interval.placedBefore e entry && e != entry && e.1.covers column

/-- How many intervals that are placed before an entry cover a column. -/
def depthBefore (intervals : List Interval) (entry : Interval × Nat) (column : Int) : Nat :=
  intervals.zipIdx.countP (coversBefore entry column)

theorem coversBefore_iff {a b : Interval} {i j : Nat} {column : Int} :
    coversBefore (a, i) column (b, j) = true ↔
      Interval.placedBefore (b, j) (a, i) = true ∧ (b, j) ≠ (a, i) ∧ b.covers column = true := by
  simp only [coversBefore, Bool.and_eq_true, bne_iff_ne, and_assoc]

theorem coversBefore_self (a : Interval) (i : Nat) (column : Int) :
    coversBefore (a, i) column (a, i) = false := by
  simp only [coversBefore, bne_self_eq_false, Bool.and_false, Bool.false_and]

section Depth

variable {intervals : List Interval} {i j : Nat} {a b : Interval} {column : Int}

/-- An interval adds to the depth of its columns. -/
theorem depthBefore_lt_countAt (ha : intervals[i]? = some a) (hcovers : a.covers column = true) :
    depthBefore intervals (a, i) column < countAt Interval.covers intervals column := by
  rw [countAt_eq_countP]
  refine countP_lt_countP ?_ (List.mk_mem_zipIdx_iff_getElem?.2 ha) (coversBefore_self a i column)
    hcovers
  rintro ⟨b, j⟩ _ hbefore
  exact (coversBefore_iff.1 hbefore).2.2

theorem depthBefore_lt (hb : intervals[j]? = some b) (hne : (b, j) ≠ (a, i))
    (hbefore : Interval.placedBefore (b, j) (a, i) = true) (hcovers : b.covers column = true) :
    depthBefore intervals (b, j) column < depthBefore intervals (a, i) column := by
  refine countP_lt_countP ?_ (List.mk_mem_zipIdx_iff_getElem?.2 hb) (coversBefore_self b j column)
    (coversBefore_iff.2 ⟨hbefore, hne, hcovers⟩)
  rintro ⟨c, k⟩ _ hc
  obtain ⟨hfront, -, hcovers⟩ := coversBefore_iff.1 hc
  refine coversBefore_iff.2 ⟨Interval.placedBefore_trans hfront hbefore, ?_, hcovers⟩
  intro heq
  rw [heq] at hfront
  exact hne (Interval.placedBefore_antisymm hbefore hfront)

end Depth

section Count

variable {intervals : List Interval} {i rung : Nat} {a : Interval}

theorem exists_before_on_lower_rung {lower : Nat} (ha : intervals[i]? = some a)
    (hi : (assignRungs intervals)[i]? = some rung) (h : lower < rung) :
    ∃ (j : Nat) (b : Interval), intervals[j]? = some b ∧ (assignRungs intervals)[j]? = some lower ∧
      a.overlaps b = true ∧ Interval.placedBefore (b, j) (a, i) = true ∧ (b, j) ≠ (a, i) := by
  obtain ⟨j, b, hb, hover, hj, hbefore⟩ := exists_on_lower_rung ha hi h
  refine ⟨j, b, hb, hj, hover, hbefore, fun heq => ?_⟩
  cases heq
  rw [hi] at hj
  exact Nat.lt_irrefl rung (Option.some.inj hj ▸ h)

/-- Rungs that are held by intervals which cover an end column of another one, and are placed before
it, are no more than the depths at both ends. -/
theorem length_le_depthBefore_ends {rungs : List Nat} (hnodup : rungs.Nodup)
    (h : ∀ r ∈ rungs, ∃ (j : Nat) (b : Interval), intervals[j]? = some b ∧
      (assignRungs intervals)[j]? = some r ∧ Interval.placedBefore (b, j) (a, i) = true ∧
      (b, j) ≠ (a, i) ∧ (b.covers a.start = true ∨ b.covers (a.stop - 1) = true)) :
    rungs.length ≤
      depthBefore intervals (a, i) a.start + depthBefore intervals (a, i) (a.stop - 1) := by
  refine Nat.le_trans ?_ (countP_or_le _ _ _)
  refine @length_le_countP _ intervals (assignRungs intervals) _ rungs hnodup fun r hr => ?_
  obtain ⟨j, b, hb, hj, hbefore, hne, hends⟩ := h r hr
  refine ⟨j, b, hb, ?_, hj⟩
  rw [Bool.or_eq_true, coversBefore_iff, coversBefore_iff]
  exact hends.imp (fun hcovers => ⟨hbefore, hne, hcovers⟩) fun hcovers => ⟨hbefore, hne, hcovers⟩

section Wide

variable (hwide : ∀ a ∈ intervals, a.start < a.stop)

include hwide

theorem covers_ends (ha : intervals[i]? = some a) :
    a.covers a.start = true ∧ a.covers (a.stop - 1) = true := by
  have hlt := hwide a (List.mem_of_getElem? ha)
  rw [Interval.covers_iff, Interval.covers_iff]
  omega

/-- An interval whose columns are not deep is on a low rung: the rungs from the square of `depth` on
are kept from it at its ends, as all intervals inside it are below that square. -/
theorem rung_lt_sq {depth : Nat} (ha : intervals[i]? = some a)
    (hi : (assignRungs intervals)[i]? = some rung)
    (hdepth : ∀ column, a.covers column = true → depthBefore intervals (a, i) column < depth) :
    rung < depth ^ 2 := by
  induction depth generalizing i a rung with
  | zero => exact absurd (hdepth _ (covers_ends hwide ha).1) (Nat.not_lt_zero _)
  | succ depth ih =>
      have hsquare : (depth + 1) ^ 2 = depth ^ 2 + (2 * depth + 1) := by
        rw [Nat.pow_two, Nat.pow_two, Nat.add_one_mul, Nat.mul_add_one]
        omega
      obtain ⟨hstart, hstop⟩ := covers_ends hwide ha
      have hatStart := hdepth _ hstart
      have hatStop := hdepth _ hstop
      by_contra hge
      have hends : ∀ lower ∈ List.range' (depth ^ 2) (2 * depth + 1),
          ∃ (j : Nat) (b : Interval), intervals[j]? = some b ∧
            (assignRungs intervals)[j]? = some lower ∧
            Interval.placedBefore (b, j) (a, i) = true ∧ (b, j) ≠ (a, i) ∧
            (b.covers a.start = true ∨ b.covers (a.stop - 1) = true) := by
        intro lower hlower
        rw [List.mem_range'_1] at hlower
        obtain ⟨j, b, hb, hj, hover, hbefore, hne⟩ :=
          exists_before_on_lower_rung ha hi (show lower < rung by omega)
        refine ⟨j, b, hb, hj, hbefore, hne, ?_⟩
        rcases Interval.covers_end_or_inside hover with hend | hend | hinside
        · exact .inl hend
        · exact .inr hend
        · have hlow : lower < depth ^ 2 := by
            apply ih hb hj
            intro column hcolumn
            have hless := depthBefore_lt hb hne hbefore hcolumn
            have hmost := hdepth column (hinside.covers hcolumn)
            omega
          omega
      have hcount := length_le_depthBefore_ends List.nodup_range' hends
      rw [List.length_range'] at hcount
      omega

/-- Where overlapping intervals are nested, below an interval there is a chain of inner ones. -/
theorem exists_column_of_nested
    (hnested : ∀ a ∈ intervals, ∀ b ∈ intervals, a.overlaps b = true → a.Inside b ∨ b.Inside a)
    (ha : intervals[i]? = some a) (hi : (assignRungs intervals)[i]? = some rung) :
    ∃ column, a.covers column = true ∧ rung ≤ depthBefore intervals (a, i) column := by
  induction rung generalizing i a with
  | zero => exact ⟨a.start, (covers_ends hwide ha).1, Nat.zero_le _⟩
  | succ rung ih =>
      obtain ⟨j, b, hb, hj, hover, hbefore, hne⟩ :=
        exists_before_on_lower_rung ha hi (Nat.lt_succ_self rung)
      obtain ⟨column, hcovers, hdeep⟩ := ih hb hj
      have hinside : b.Inside a := by
        rcases hnested a (List.mem_of_getElem? ha) b (List.mem_of_getElem? hb) hover with
          hinside | hinside
        · -- the wider one is placed later, so both are the same interval
          obtain ⟨hstart, hstop⟩ := hinside
          rw [Interval.placedBefore_iff] at hbefore
          simp only [Interval.width] at hbefore
          exact ⟨by omega, by omega⟩
        · exact hinside
      exact ⟨column, hinside.covers hcovers,
        Nat.lt_of_le_of_lt hdeep (depthBefore_lt hb hne hbefore hcovers)⟩

omit hwide in
/-- Where overlapping intervals are equally wide, all that keeps one from lower rungs covers its
first column. -/
theorem le_depthBefore_start
    (hequal : ∀ a ∈ intervals, ∀ b ∈ intervals, a.overlaps b = true → a.width = b.width)
    (ha : intervals[i]? = some a) (hi : (assignRungs intervals)[i]? = some rung) :
    rung ≤ depthBefore intervals (a, i) a.start := by
  have hcovers : ∀ lower ∈ List.range rung, ∃ (j : Nat) (b : Interval), intervals[j]? = some b ∧
      coversBefore (a, i) a.start (b, j) = true ∧ (assignRungs intervals)[j]? = some lower := by
    intro lower hlower
    obtain ⟨j, b, hb, hj, hover, hbefore, hne⟩ :=
      exists_before_on_lower_rung ha hi (List.mem_range.1 hlower)
    have hwidth := hequal a (List.mem_of_getElem? ha) b (List.mem_of_getElem? hb) hover
    refine ⟨j, b, hb, coversBefore_iff.2 ⟨hbefore, hne, ?_⟩, hj⟩
    rw [Interval.overlaps_iff] at hover
    rw [Interval.placedBefore_iff] at hbefore
    rw [Interval.covers_iff]
    dsimp only at hbefore
    omega
  have hcount := length_le_countP List.nodup_range hcovers
  rwa [List.length_range] at hcount

end Wide

theorem card_assignRungs (intervals : List Interval) :
    (assignRungs intervals).toFinset.card = numberCount (assignRungs intervals) := by
  have hrange :
      (assignRungs intervals).toFinset = Finset.range (numberCount (assignRungs intervals)) := by
    ext rung
    rw [List.mem_toFinset, Finset.mem_range, mem_assignRungs_iff]
  rw [hrange, Finset.card_range]

/-- What bounds every rung bounds their number. -/
theorem card_assignRungs_le {bound : Nat} (h : ∀ {i rung : Nat} {a : Interval},
    intervals[i]? = some a → (assignRungs intervals)[i]? = some rung → rung < bound) :
    (assignRungs intervals).toFinset.card ≤ bound := by
  rw [card_assignRungs]
  by_contra hlt
  have hmem := mem_assignRungs_iff.2 (Nat.lt_of_not_le hlt)
  obtain ⟨i, a, ha, hi⟩ := exists_entry_of_mem (length_assignRungs intervals) hmem
  exact Nat.lt_irrefl bound (h ha hi)

/-- Intervals that cover one column are on rungs of their own. -/
theorem countAt_covers_le (intervals : List Interval) (column : Int) :
    countAt Interval.covers intervals column ≤ (assignRungs intervals).toFinset.card := by
  rw [card_assignRungs]
  apply countAt_le (length_assignRungs intervals) (fun rung => mem_assignRungs_iff.1)
  intro i j a b column hij ha hb hacovers hbcovers
  exact rungs_ne_of_overlaps hij ha hb (Interval.overlaps_of_covers hacovers hbcovers)

end Count

/-- There are at least as many rungs as intervals cover one column, and at most the square of that
number. There are no more than needed where overlapping intervals are nested, and where they are
equally wide. -/
theorem rungs_within_square {intervals : List Interval}
    (hwide : ∀ a ∈ intervals, a.start < a.stop) :
    ∃ most, IsGreatest (Set.range (countAt Interval.covers intervals)) most ∧
      most ≤ (assignRungs intervals).toFinset.card ∧
      (assignRungs intervals).toFinset.card ≤ most ^ 2 ∧
      ((∀ a ∈ intervals, ∀ b ∈ intervals, a.overlaps b = true → a.Inside b ∨ b.Inside a) →
        (assignRungs intervals).toFinset.card = most) ∧
      ((∀ a ∈ intervals, ∀ b ∈ intervals, a.overlaps b = true → a.width = b.width) →
        (assignRungs intervals).toFinset.card = most) := by
  obtain ⟨most, hmost⟩ := exists_isGreatest_countAt Interval.covers intervals
  have hdepth : ∀ {i : Nat} {a : Interval} {column : Int}, intervals[i]? = some a →
      a.covers column = true → depthBefore intervals (a, i) column < most :=
    fun ha hcovers => Nat.lt_of_lt_of_le (depthBefore_lt_countAt ha hcovers)
      (hmost.2 (Set.mem_range_self _))
  have hlow : most ≤ (assignRungs intervals).toFinset.card := by
    obtain ⟨column, hcolumn⟩ := hmost.1
    rw [← hcolumn]
    exact countAt_covers_le intervals column
  refine ⟨most, hmost, hlow, ?_, ?_, ?_⟩
  · apply card_assignRungs_le
    intro i rung a ha hi
    exact rung_lt_sq hwide ha hi fun column hcovers => hdepth ha hcovers
  · intro hnested
    refine Nat.le_antisymm (card_assignRungs_le ?_) hlow
    intro i rung a ha hi
    obtain ⟨column, hcovers, hdeep⟩ := exists_column_of_nested hwide hnested ha hi
    exact Nat.lt_of_le_of_lt hdeep (hdepth ha hcovers)
  · intro hequal
    refine Nat.le_antisymm (card_assignRungs_le ?_) hlow
    intro i rung a ha hi
    exact Nat.lt_of_le_of_lt (le_depthBefore_start hequal ha hi)
      (hdepth ha (covers_ends hwide ha).1)

/-- Four rungs where no column is covered more than twice. -/
example : (assignRungs [⟨1, 2⟩, ⟨0, 4⟩, ⟨3, 9⟩, ⟨5, 6⟩, ⟨8, 20⟩, ⟨12, 13⟩, ⟨19, 23⟩,
    ⟨21, 22⟩]).toFinset.card = 2 ^ 2 := by decide

/-- Four intervals of which each overlaps the next. -/
def chained : List Interval := [⟨0, 2⟩, ⟨1, 4⟩, ⟨3, 6⟩, ⟨5, 7⟩]

/-- Intervals inside one another. -/
def nested : List Interval := [⟨0, 12⟩, ⟨2, 8⟩, ⟨4, 5⟩, ⟨9, 11⟩]

/-- Equally wide intervals. -/
def staggered : List Interval := [⟨2, 5⟩, ⟨0, 3⟩, ⟨4, 7⟩]

theorem rungs_within_square_chained :
    (∃ most, most ≤ 3 ∧ 3 ≤ most ^ 2 ∧
      IsGreatest (Set.range (countAt Interval.covers chained)) most) ∧
    IsGreatest (Set.range (countAt Interval.covers nested)) 3 ∧
    IsGreatest (Set.range (countAt Interval.covers staggered)) 2 := by
  have hchained : (assignRungs chained).toFinset.card = 3 := by decide
  have hnested : (assignRungs nested).toFinset.card = 3 := by decide
  have hstaggered : (assignRungs staggered).toFinset.card = 2 := by decide
  obtain ⟨most, hmost, hlow, hhigh, -, -⟩ :=
    rungs_within_square (show ∀ a ∈ chained, a.start < a.stop by decide)
  obtain ⟨inner, hinner, -, -, hsame, -⟩ :=
    rungs_within_square (show ∀ a ∈ nested, a.start < a.stop by decide)
  obtain ⟨equal, hequal, -, -, -, hwidth⟩ :=
    rungs_within_square (show ∀ a ∈ staggered, a.start < a.stop by decide)
  rw [hchained] at hlow hhigh
  rw [← hsame (by decide), hnested] at hinner
  rw [← hwidth (by decide), hstaggered] at hequal
  exact ⟨⟨most, hlow, hhigh, hmost⟩, hinner, hequal⟩

/-- No column is covered by more than two of them, but they take three rungs. -/
theorem chained_rungs_not_fewest : (∀ a ∈ chained, a.start < a.stop) ∧
    IsGreatest (Set.range (countAt Interval.covers chained)) 2 ∧
    (assignRungs chained).toFinset.card = 3 := by
  refine ⟨by decide, ⟨⟨1, by decide⟩, ?_⟩, by decide⟩
  rintro _ ⟨column, rfl⟩
  simp only [countAt, chained, List.countP_cons, List.countP_nil, Interval.covers_iff]
  split <;> split <;> split <;> split <;> omega

end Excerpt
