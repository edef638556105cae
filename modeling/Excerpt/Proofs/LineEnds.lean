import Excerpt.File.Access
import Excerpt.Proofs.Lines

/-!
Texts whose line ends have been made alike. A carriage return in front of a line feed is dropped,
and any other one becomes a line feed. So offsets move to the front by the pairs before them, and
what they locate stays the same until a carriage return that stands alone begins a line of its own.
-/

namespace Excerpt

/-- How many carriage returns stand in front of a line feed. -/
def returnPairs : Text → Nat
  | [] => 0
  | '\r' :: '\n' :: s => returnPairs s + 1
  | _ :: s => returnPairs s

/-- Every carriage return stands in front of a line feed. -/
def Paired : Text → Prop
  | [] => True
  | '\r' :: '\n' :: s => Paired s
  | c :: s => c ≠ '\r' ∧ Paired s

/-- A text by its line ends: it is empty, begins with a carriage return and a line feed, or with
a character that is not the first of such a pair. -/
@[elab_as_elim]
theorem lineEnds_induction {motive : Text → Prop} (nil : motive [])
    (pair : ∀ s, motive s → motive ('\r' :: '\n' :: s))
    (single : ∀ c s, (∀ t, c = '\r' → s = '\n' :: t → False) → motive s → motive (c :: s))
    (s : Text) : motive s :=
  unifyLineEnds.induct motive nil pair single s

section Single

variable {c : Char} {s : Text} (h : ∀ t, c = '\r' → s = '\n' :: t → False)

include h

theorem unifyLineEnds_single :
    unifyLineEnds (c :: s) = (if c = '\r' then '\n' else c) :: unifyLineEnds s :=
  unifyLineEnds.eq_3 c s h

theorem returnPairs_single : returnPairs (c :: s) = returnPairs s := returnPairs.eq_3 c s h

theorem paired_single : Paired (c :: s) ↔ c ≠ '\r' ∧ Paired s := Iff.of_eq (Paired.eq_3 c s h)

end Single

theorem unifyLineEnds_pair (s : Text) :
    unifyLineEnds ('\r' :: '\n' :: s) = '\n' :: unifyLineEnds s := rfl

theorem not_mem_unifyLineEnds (s : Text) : '\r' ∉ unifyLineEnds s := by
  induction s using lineEnds_induction with
  | nil => exact List.not_mem_nil
  | pair s ih => simp [unifyLineEnds_pair, ih]
  | single c s hpair ih =>
      rw [unifyLineEnds_single hpair, List.mem_cons, not_or]
      refine ⟨?_, ih⟩
      split
      case isTrue => decide
      case isFalse hc => exact Ne.symm hc

theorem unifyLineEnds_of_not_mem {s : Text} (h : '\r' ∉ s) : unifyLineEnds s = s := by
  induction s using lineEnds_induction with
  | nil => rfl
  | pair s => simp at h
  | single c s hpair ih =>
      simp only [List.mem_cons, not_or] at h
      rw [unifyLineEnds_single hpair, if_neg (Ne.symm h.1), ih h.2]

theorem unifyLineEnds_eq_self_iff {s : Text} : unifyLineEnds s = s ↔ '\r' ∉ s :=
  ⟨fun h => h ▸ not_mem_unifyLineEnds s, unifyLineEnds_of_not_mem⟩

/-- The bytes that are missing are those of the dropped carriage returns. -/
theorem length_encode_unifyLineEnds (s : Text) :
    (Utf8.encode (unifyLineEnds s)).length + returnPairs s = (Utf8.encode s).length := by
  induction s using lineEnds_induction with
  | nil => rfl
  | pair s ih =>
      have hreturn : (Utf8.encodeChar '\r').length = 1 := rfl
      have hpairs : returnPairs ('\r' :: '\n' :: s) = returnPairs s + 1 := rfl
      rw [unifyLineEnds_pair, hpairs, Utf8.encode_cons, Utf8.encode_cons, Utf8.encode_cons,
        List.length_append, List.length_append, List.length_append]
      omega
  | single c s hpair ih =>
      have hunified : (Utf8.encodeChar (if c = '\r' then '\n' else c)).length =
          (Utf8.encodeChar c).length := by
        split
        case isTrue hc => rw [hc]; rfl
        case isFalse => rfl
      rw [unifyLineEnds_single hpair, returnPairs_single hpair, Utf8.encode_cons,
        Utf8.encode_cons, List.length_append, List.length_append, hunified]
      omega

/-- Whatever comes first is as long as it was. -/
theorem exists_unifyLineEnds_cons (c : Char) (s : Text) : ∃ d rest,
    unifyLineEnds (c :: s) = d :: rest ∧
      (Utf8.encodeChar d).length = (Utf8.encodeChar c).length := by
  by_cases hpair : ∃ t, c = '\r' ∧ s = '\n' :: t
  · obtain ⟨t, rfl, rfl⟩ := hpair
    exact ⟨_, _, rfl, rfl⟩
  · refine ⟨_, _, unifyLineEnds_single fun t hc hs => hpair ⟨t, hc, hs⟩, ?_⟩
    split
    case isTrue hc => rw [hc]; rfl
    case isFalse => rfl

namespace Paired

theorem not_mem {s : Text} (h : Paired s) (hfeed : '\n' ∉ s) : '\r' ∉ s := by
  induction s using lineEnds_induction with
  | nil => exact List.not_mem_nil
  | pair s => simp at hfeed
  | single c s hpair ih =>
      rw [paired_single hpair] at h
      simp only [List.mem_cons, not_or] at hfeed ⊢
      exact ⟨Ne.symm h.1, ih h.2 hfeed.2⟩

/-- No pair is parted in front of a line without its line feed. -/
theorem of_append {p q : Text} (h : Paired (p ++ q)) (hq : '\n' ∉ q) : Paired p ∧ Paired q := by
  induction p using lineEnds_induction with
  | nil => exact ⟨trivial, h⟩
  | pair p ih => exact ih h
  | single c p hpair ih =>
      have hpair' : ∀ s, c = '\r' → p ++ q = '\n' :: s → False := by
        intro s hc hs
        cases p with
        | nil => exact hq (by rw [← List.nil_append q, hs]; exact List.mem_cons_self)
        | cons d p =>
            obtain ⟨rfl, -⟩ := List.cons.inj hs
            exact hpair p hc rfl
      rw [List.cons_append, paired_single hpair'] at h
      rw [paired_single hpair]
      exact ⟨⟨h.1, (ih h.2).1⟩, (ih h.2).2⟩

theorem unifyLineEnds_append {p : Text} (h : Paired p) (q : Text) :
    unifyLineEnds (p ++ q) = unifyLineEnds p ++ unifyLineEnds q := by
  induction p using lineEnds_induction with
  | nil => rfl
  | pair p ih => exact congrArg ('\n' :: ·) (ih h)
  | single c p hpair ih =>
      rw [paired_single hpair] at h
      rw [List.cons_append, unifyLineEnds_single fun _ hc _ => h.1 hc,
        unifyLineEnds_single hpair, ih h.2]
      rfl

theorem count_unifyLineEnds {p : Text} (h : Paired p) :
    (unifyLineEnds p).count '\n' = p.count '\n' := by
  induction p using lineEnds_induction with
  | nil => rfl
  | pair p ih => simp [unifyLineEnds_pair, ih h]
  | single c p hpair ih =>
      rw [paired_single hpair] at h
      rw [unifyLineEnds_single hpair, if_neg h.1, List.count_cons, List.count_cons, ih h.2]

end Paired

theorem unifyLineEnds_ends {s : Text} (h : s = [] ∨ ∃ a, s = a ++ ['\n']) :
    unifyLineEnds s = [] ∨ ∃ a, unifyLineEnds s = a ++ ['\n'] := by
  rcases h with rfl | ⟨a, rfl⟩
  · exact .inl rfl
  · right
    induction a using lineEnds_induction with
    | nil => exact ⟨[], rfl⟩
    | pair a ih =>
        obtain ⟨b, hb⟩ := ih
        exact ⟨'\n' :: b, congrArg ('\n' :: ·) hb⟩
    | single c a hpair ih =>
        by_cases hlast : c = '\r' ∧ a = []
        · obtain ⟨rfl, rfl⟩ := hlast
          exact ⟨[], rfl⟩
        · obtain ⟨b, hb⟩ := ih
          refine ⟨(if c = '\r' then '\n' else c) :: b, ?_⟩
          rw [List.cons_append, unifyLineEnds_single, hb]
          · rfl
          · intro s hc hs
            cases a with
            | nil => exact hlast ⟨hc, rfl⟩
            | cons d a =>
                obtain ⟨rfl, -⟩ := List.cons.inj hs
                exact hpair a hc rfl

/-- Offsets that do not part a pair move to the front by the pairs before them. -/
theorem before_unifyLineEnds {s : Text} {offset : Nat} (hle : offset ≤ (Utf8.encode s).length)
    (h : Paired (Utf8.before offset s)) :
    offset - returnPairs (Utf8.before offset s) ≤ (Utf8.encode (unifyLineEnds s)).length ∧
      Utf8.before (offset - returnPairs (Utf8.before offset s)) (unifyLineEnds s) =
        unifyLineEnds (Utf8.before offset s) := by
  obtain ⟨q, hq, hstart, hend⟩ := Utf8.exists_before_append offset s
  generalize Utf8.before offset s = p at h hq hstart hend ⊢
  subst hq
  have hlength := length_encode_unifyLineEnds p
  rw [Utf8.encode_append, List.length_append] at hle
  rw [h.unifyLineEnds_append q, Utf8.encode_append, List.length_append]
  cases q with
  | nil =>
      have hnil : (Utf8.encode []).length = 0 := rfl
      exact ⟨by omega, Utf8.before_append (by omega) fun c rest hc => nomatch hc⟩
  | cons c q =>
      obtain ⟨d, rest, hd, hdc⟩ := exists_unifyLineEnds_cons c q
      have hoffset := hend c q rfl
      rw [hd, Utf8.encode_cons, List.length_append]
      refine ⟨by omega, Utf8.before_append (by omega) fun d' rest' hcons => ?_⟩
      obtain ⟨rfl, -⟩ := List.cons.inj hcons
      omega

namespace LineIndex

variable (w : CellWidth) (tab : Int)

/-- The location of an offset without carriage returns in front of it on its line. -/
theorem locate_of_before {s above front : Text} {offset : Nat}
    (hbefore : Utf8.before offset s = above ++ front)
    (habove : above = [] ∨ ∃ a, above = a ++ ['\n']) (hfeed : '\n' ∉ front)
    (hreturn : '\r' ∉ front) (hle : offset ≤ (Utf8.encode s).length) :
    (ofText s).locate w tab offset = .ok ⟨above.count '\n', (Utf8.encode front).length,
      displayWidth w tab 0 front⟩ := by
  obtain ⟨above', front', back, below, hbefore', hcut, hlocate⟩ :=
    locate_ofText w tab s (Int.natCast_nonneg offset) (Int.ofNat_le.2 hle)
  rw [Int.toNat_natCast, hbefore] at hbefore'
  have hfeed' : '\n' ∉ front' := fun hmem => hcut.feedless (List.mem_append_left _ hmem)
  obtain ⟨rfl, rfl⟩ := lastLine_unique hbefore' habove hcut.above_ends hfeed hfeed'
  rw [hlocate, List.take_of_length_le (Text.length_le_dropReturn_append hreturn back),
    List.count_append, List.count_eq_zero.2 hfeed, Nat.add_zero]

/-- What an offset locates stays where it is when line ends are made alike, if no carriage return
in front of it stands alone. -/
theorem locate_unifyLineEnds {s : Text} {offset : Nat} (hle : offset ≤ (Utf8.encode s).length)
    (h : Paired (Utf8.before offset s)) :
    (ofText (unifyLineEnds s)).locate w tab
        (offset - returnPairs (Utf8.before offset s) : Nat) =
      (ofText s).locate w tab offset := by
  obtain ⟨above, front, hp, hfeed, habove⟩ := exists_lastLine (Utf8.before offset s)
  obtain ⟨hinside, hbefore⟩ := before_unifyLineEnds hle h
  rw [hp] at h hinside hbefore
  obtain ⟨hpaired, hfront⟩ := h.of_append hfeed
  have hreturn := hfront.not_mem hfeed
  rw [hpaired.unifyLineEnds_append, unifyLineEnds_of_not_mem hreturn] at hbefore
  rw [hp, locate_of_before w tab hbefore (unifyLineEnds_ends habove) hfeed hreturn hinside,
    locate_of_before w tab hp habove hfeed hreturn hle, hpaired.count_unifyLineEnds]

end LineIndex
end Excerpt
