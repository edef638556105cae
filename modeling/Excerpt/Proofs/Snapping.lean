import Excerpt.Proofs.Erasure

/-!
Spans whose ends point into characters. Such an end is located where its character begins, and
moving it there changes nothing, with one exception: a span from above a line that ends inside the
first character of that line, behind its first byte, reaches the line, while the moved span ends
where the line starts and so is taken to end with the line before.
-/

namespace Excerpt

open LineIndex

/-- The span with both ends moved to where the characters that they point into begin. -/
def Span.snapped (index : LineIndex) (span : Span) : Span :=
  ⟨index.snap span.start, index.snap span.stop⟩

/-- The span starts above a line, and its end points into the first character of that line, or to
the end of the text if there is none. -/
def Span.MeetsLine (s : Text) (span : Span) : Prop :=
  (Utf8.before span.stop.toNat s).getLast? = some '\n' ∧
    span.start < (Utf8.encode (Utf8.before span.stop.toNat s)).length

/-- The end of such a span, where the line starts. -/
def Span.EndsAtLine (s : Text) (span : Span) : Prop :=
  span.MeetsLine s ∧ (Utf8.encode (Utf8.before span.stop.toNat s)).length = span.stop

/-- The end of such a span, inside the character and behind its first byte. -/
def Span.Straddles (s : Text) (span : Span) : Prop :=
  span.MeetsLine s ∧ (Utf8.encode (Utf8.before span.stop.toNat s)).length < span.stop

namespace LineIndex

variable {s : Text} {offset other : Int}

theorem snap_ofText (hlow : 0 ≤ offset) (hhigh : offset ≤ (Utf8.encode s).length) :
    (ofText s).snap offset = (Utf8.encode (Utf8.before offset.toNat s)).length := by
  rw [snap, if_neg (by omega)]
  exact congrArg Nat.cast (snapDown_encode (by omega))

theorem before_snap (hlow : 0 ≤ offset) (hhigh : offset ≤ (Utf8.encode s).length) :
    Utf8.before ((ofText s).snap offset).toNat s = Utf8.before offset.toNat s := by
  rw [snap_ofText hlow hhigh, Int.toNat_natCast, Utf8.before_length_encode_before]

theorem snap_nonneg (hlow : 0 ≤ offset) (hhigh : offset ≤ (Utf8.encode s).length) :
    0 ≤ (ofText s).snap offset := by
  rw [snap_ofText hlow hhigh]
  exact Int.natCast_nonneg _

theorem snap_le (hlow : 0 ≤ offset) (hhigh : offset ≤ (Utf8.encode s).length) :
    (ofText s).snap offset ≤ offset := by
  have := Utf8.length_encode_before_le offset.toNat s
  rw [snap_ofText hlow hhigh]
  omega

theorem snap_mono (hlow : 0 ≤ offset) (hle : offset ≤ other)
    (hhigh : other ≤ (Utf8.encode s).length) : (ofText s).snap offset ≤ (ofText s).snap other := by
  obtain ⟨t, ht⟩ := Utf8.before_mono (show offset.toNat ≤ other.toNat by omega) s
  have hlength : (Utf8.encode (Utf8.before offset.toNat s)).length +
      (Utf8.encode t).length = (Utf8.encode (Utf8.before other.toNat s)).length := by
    rw [← ht, Utf8.encode_append, List.length_append]
  rw [snap_ofText hlow (by omega), snap_ofText (by omega) hhigh]
  omega

/-- Offsets into one character have one location. -/
theorem locate_congr (w : CellWidth) (tab : Int) (hlow : 0 ≤ offset)
    (hhigh : offset ≤ (Utf8.encode s).length) (hlow' : 0 ≤ other)
    (hhigh' : other ≤ (Utf8.encode s).length)
    (h : (ofText s).snap offset = (ofText s).snap other) :
    (ofText s).locate w tab offset = (ofText s).locate w tab other := by
  have hcheck : (ofText s).check offset = .ok () := if_pos ⟨hlow, hhigh⟩
  have hcheck' : (ofText s).check other = .ok () := if_pos ⟨hlow', hhigh'⟩
  have hdown : snapDown (ofText s).data offset.toNat = snapDown (ofText s).data other.toNat := by
    rw [snap, snap, if_neg (by omega), if_neg (by omega)] at h
    exact Int.ofNat_inj.1 h
  simp only [locate, hcheck, hcheck', hdown]

/-- The line of an offset starts where the character of the offset does, if only a line feed is in
front of that, and else before. -/
theorem exists_lineStart (s : Text) (offset : Nat) : ∃ start,
    (ofText s).starts[(Utf8.before offset s).count '\n']? = some start ∧
      start ≤ (Utf8.encode (Utf8.before offset s)).length ∧
      (start = (Utf8.encode (Utf8.before offset s)).length ↔
        Utf8.before offset s = [] ∨ (Utf8.before offset s).getLast? = some '\n') := by
  obtain ⟨q, hq⟩ := Utf8.before_isPrefix offset s
  obtain ⟨above, front, back, below, hp, -, hcut⟩ := LineCut.exists_at (Utf8.before offset s) q
  rw [hq] at hcut
  rw [hp] at hcut ⊢
  have hfeed : '\n' ∉ front := fun hmem => hcut.feedless (List.mem_append_left _ hmem)
  have hlength : (Utf8.encode (above ++ front)).length =
      (Utf8.encode above).length + (Utf8.encode front).length := by
    rw [Utf8.encode_append, List.length_append]
  refine ⟨_, getElem?_starts hcut, by omega, ?_⟩
  rw [← lastLine_eq_nil_iff hcut.above_ends hfeed]
  constructor
  · intro hsame
    by_contra hfront
    have := length_encode_pos hfront
    omega
  · rintro rfl
    rw [List.append_nil]

end LineIndex

namespace Span

variable {s : Text} {a b span : Span}

instance (s : Text) (span : Span) : Decidable (span.MeetsLine s) :=
  inferInstanceAs (Decidable (_ ∧ _))

instance (s : Text) (span : Span) : Decidable (span.Straddles s) :=
  inferInstanceAs (Decidable (_ ∧ _))

theorem MeetsLine.endsAtLine_or_straddles (hmeets : span.MeetsLine s)
    (h : span.Fits (Utf8.encode s).length) : span.EndsAtLine s ∨ span.Straddles s := by
  have hbefore := Utf8.length_encode_before_le span.stop.toNat s
  obtain ⟨hlow, hle, -⟩ := h
  by_cases hat : (Utf8.encode (Utf8.before span.stop.toNat s)).length = span.stop
  · exact .inl ⟨hmeets, hat⟩
  · exact .inr ⟨hmeets, by omega⟩

theorem Straddles.not_endsAtLine (h : span.Straddles s) : ¬span.EndsAtLine s :=
  fun hends => absurd hends.2 (Int.ne_of_lt h.2)

/-- The line that a span meets is below the one on which it starts. -/
theorem MeetsLine.count_before_lt (hmeets : span.MeetsLine s) (hlow : 0 ≤ span.start) :
    (Utf8.before span.start.toNat s).count '\n' < (Utf8.before span.stop.toNat s).count '\n' := by
  obtain ⟨hlast, hlt⟩ := hmeets
  have hlength := Utf8.lt_length_before_iff.1
    (show span.start.toNat < (Utf8.encode (Utf8.before span.stop.toNat s)).length by omega)
  obtain ⟨t, ht⟩ := List.getLast?_eq_some_iff.1 hlast
  rcases List.prefix_or_prefix_of_prefix (Utf8.before_isPrefix span.start.toNat s)
    (Utf8.before_isPrefix span.stop.toNat s) with hprefix | ⟨u, hu⟩
  · rw [ht] at hlength hprefix ⊢
    rcases List.prefix_concat_iff.1 hprefix with heq | hprefix
    · rw [heq] at hlength
      omega
    · have := hprefix.sublist.count_le '\n'
      rw [List.count_append, List.count_singleton_self]
      omega
  · rw [← hu, Utf8.encode_append, List.length_append] at hlength
    omega

theorem endsAtLine_iff (h : span.Fits (Utf8.encode s).length) : span.EndsAtLine s ↔
    span.start < span.stop ∧
      (Utf8.before span.start.toNat s).count '\n' < (Utf8.before span.stop.toNat s).count '\n' ∧
      (ofText s).starts[(Utf8.before span.stop.toNat s).count '\n']?.map
        (fun (m : Nat) => (m : Int)) = some span.stop := by
  obtain ⟨start, hstart, hle, hiff⟩ := exists_lineStart s span.stop.toNat
  have hbefore := Utf8.length_encode_before_le span.stop.toNat s
  obtain ⟨hlow, -, -⟩ := h
  rw [hstart, Option.map_some, Option.some_inj]
  constructor
  · rintro ⟨hmeets, hstop⟩
    have hlt := hmeets.2
    refine ⟨by omega, hmeets.count_before_lt hlow, ?_⟩
    rw [hiff.2 (.inr hmeets.1), hstop]
  · rintro ⟨hlt, hcount, hstop⟩
    refine ⟨⟨(hiff.1 (by omega)).resolve_left fun hnil => ?_, by omega⟩, by omega⟩
    rw [hnil] at hcount
    exact absurd hcount (Nat.not_lt_zero _)

/-- A span that ends where a line starts is taken to end with the line above. -/
theorem effectiveEnd_of_endsAtLine (h : span.Fits (Utf8.encode s).length)
    (hends : span.EndsAtLine s) :
    effectiveEnd (ofText s) ((Utf8.before span.start.toNat s).count '\n') span =
      match (ofText s).lineBounds? ((Utf8.before span.stop.toNat s).count '\n' - 1 : Nat) with
      | none => .error .noSuchLine
      | some (_, stop) => .ok stop := by
  obtain ⟨hlt, hat⟩ := (endsAtLine_iff h).1 hends
  obtain ⟨hlow, hle, hhigh⟩ := h
  exact (effectiveEnd_eq _ hlt (lineOf_ofText s (by omega) hhigh)).trans (if_pos hat)

theorem effectiveEnd_of_not_endsAtLine (h : span.Fits (Utf8.encode s).length)
    (hends : ¬span.EndsAtLine s) :
    effectiveEnd (ofText s) ((Utf8.before span.start.toNat s).count '\n') span =
      .ok span.stop := by
  rw [endsAtLine_iff h] at hends
  obtain ⟨hlow, hle, hhigh⟩ := h
  by_cases hlt : span.start < span.stop
  · rw [effectiveEnd_eq _ hlt (lineOf_ofText s (by omega) hhigh),
      if_neg fun hat => hends ⟨hlt, hat⟩]
  · simp only [effectiveEnd, hlt, if_false]
    rfl

/-- Spans whose ends point into the same characters. -/
theorem before_eq_of_snapped_eq (ha : a.Fits (Utf8.encode s).length)
    (hb : b.Fits (Utf8.encode s).length) (h : a.snapped (ofText s) = b.snapped (ofText s)) :
    Utf8.before a.start.toNat s = Utf8.before b.start.toNat s ∧
      Utf8.before a.stop.toNat s = Utf8.before b.stop.toNat s := by
  obtain ⟨hstart, hstop⟩ := Span.mk.inj h
  obtain ⟨hlow, hle, hhigh⟩ := ha
  obtain ⟨hlow', hle', hhigh'⟩ := hb
  constructor
  · rw [← before_snap hlow (by omega), hstart, before_snap hlow' (by omega)]
  · rw [← before_snap (by omega) hhigh, hstop, before_snap (by omega) hhigh']

/-- Spans whose ends point into the same characters meet the same lines. -/
theorem MeetsLine.of_snapped_eq (hmeets : a.MeetsLine s) (ha : a.Fits (Utf8.encode s).length)
    (hb : b.Fits (Utf8.encode s).length) (h : a.snapped (ofText s) = b.snapped (ofText s)) :
    b.MeetsLine s := by
  obtain ⟨hstart, hstop⟩ := before_eq_of_snapped_eq ha hb h
  obtain ⟨hlast, hlt⟩ := hmeets
  obtain ⟨hlow, -, -⟩ := ha
  obtain ⟨hlow', -, -⟩ := hb
  have hfront : b.start.toNat < (Utf8.encode (Utf8.before b.stop.toNat s)).length := by
    rw [Utf8.lt_length_before_iff, ← hstart, ← hstop, ← Utf8.lt_length_before_iff]
    omega
  exact ⟨hstop ▸ hlast, by omega⟩

theorem endsAtLine_congr (ha : a.Fits (Utf8.encode s).length)
    (hb : b.Fits (Utf8.encode s).length) (h : a.snapped (ofText s) = b.snapped (ofText s))
    (hstraddles : a.Straddles s ↔ b.Straddles s) : a.EndsAtLine s ↔ b.EndsAtLine s := by
  constructor
  · intro hends
    refine ((hends.1.of_snapped_eq ha hb h).endsAtLine_or_straddles hb).resolve_right fun hb' => ?_
    exact (hstraddles.2 hb').not_endsAtLine hends
  · intro hends
    refine ((hends.1.of_snapped_eq hb ha h.symm).endsAtLine_or_straddles ha).resolve_right
      fun ha' => ?_
    exact (hstraddles.1 ha').not_endsAtLine hends

/-- The line of a start and the effective end are all that places a span. -/
theorem resolveSpan_of_located {w : CellWidth} {tab : Int} {first last : Location} {stop : Int}
    (hle : span.start ≤ span.stop) (hfirst : locate w tab (ofText s) span.start = .ok first)
    (hstop : effectiveEnd (ofText s) first.line span = .ok stop)
    (hlast : locate w tab (ofText s) stop = .ok last) :
    resolveSpan w tab (ofText s) span = .ok
      (if last.line = first.line ∧ last.col < first.col then
        ⟨first.line, first.col, first.line, first.col⟩
      else ⟨first.line, first.col, last.line, last.col⟩) := by
  have hordered : ¬span.stop < span.start := by omega
  simp only [resolveSpan, hordered, if_false, hfirst, hstop, hlast, ok_mapError, ok_bind]
  split <;> rfl

/-- A span is placed by the characters that its ends point into, and by whether it straddles. -/
theorem resolveSpan_congr (w : CellWidth) (tab : Int) (ha : a.Fits (Utf8.encode s).length)
    (hb : b.Fits (Utf8.encode s).length) (h : a.snapped (ofText s) = b.snapped (ofText s))
    (hstraddles : a.Straddles s ↔ b.Straddles s) :
    resolveSpan w tab (ofText s) a = resolveSpan w tab (ofText s) b := by
  obtain ⟨hstart, hstop⟩ := before_eq_of_snapped_eq ha hb h
  obtain ⟨hsnapstart, hsnapstop⟩ := Span.mk.inj h
  obtain ⟨last, hlast, hlow, hhigh, -⟩ := effectiveEnd_ofText ha
  obtain ⟨last', hlast', hlow', hhigh', -⟩ := effectiveEnd_ofText hb
  -- Either both are taken to end with the line above, or each ends in its own character.
  have hsame : (ofText s).snap last = (ofText s).snap last' := by
    have hiff := endsAtLine_congr ha hb h hstraddles
    by_cases hends : a.EndsAtLine s
    · rw [effectiveEnd_of_endsAtLine ha hends, hstop,
        ← effectiveEnd_of_endsAtLine hb (hiff.1 hends), hlast'] at hlast
      rw [Except.ok.inj hlast]
    · rw [effectiveEnd_of_not_endsAtLine ha hends] at hlast
      rw [effectiveEnd_of_not_endsAtLine hb fun hb' => hends (hiff.2 hb')] at hlast'
      rw [← Except.ok.inj hlast, ← Except.ok.inj hlast', hsnapstop]
  obtain ⟨halow, hale, hahigh⟩ := ha
  obtain ⟨hblow, hble, hbhigh⟩ := hb
  obtain ⟨first, hfirst, -, hline⟩ := exists_locate_ofText w tab s halow (by omega)
  obtain ⟨final, hfinal, -, -⟩ := exists_locate_ofText w tab s hlow hhigh
  have hfirst' := locate_congr w tab halow (by omega) hblow (by omega) hsnapstart
  have hfinal' := locate_congr w tab hlow hhigh hlow' hhigh' hsame
  rw [hfirst] at hfirst'
  rw [hfinal] at hfinal'
  rw [← hline] at hlast
  rw [← hstart, ← hline] at hlast'
  rw [resolveSpan_of_located hale hfirst hlast hfinal,
    resolveSpan_of_located hble hfirst'.symm hlast' hfinal'.symm]

/-- Behind a line feed there are no columns. -/
theorem exists_locate_behind_lineFeed (w : CellWidth) (tab : Int) {offset : Int}
    (hlow : 0 ≤ offset) (hhigh : offset ≤ (Utf8.encode s).length)
    (hlast : (Utf8.before offset.toNat s).getLast? = some '\n') :
    ∃ location, locate w tab (ofText s) offset = .ok location ∧ location.col = 0 ∧
      location.line = (Utf8.before offset.toNat s).count '\n' := by
  obtain ⟨above, front, back, below, hbefore, hcut, hlocate⟩ :=
    locate_ofText w tab s hlow hhigh
  have hfeed : '\n' ∉ front := fun hmem => hcut.feedless (List.mem_append_left _ hmem)
  have hfront : front = [] := by
    rw [lastLine_eq_nil_iff hcut.above_ends hfeed, ← hbefore]
    exact .inr hlast
  subst hfront
  exact ⟨_, hlocate, by simp [displayWidth], by rw [hbefore]⟩

/-- A span that straddles reaches into the line above which the moved span stays. -/
theorem resolveSpan_of_straddles (w : CellWidth) (tab : Int) (ha : a.Fits (Utf8.encode s).length)
    (hb : b.Fits (Utf8.encode s).length) (h : a.snapped (ofText s) = b.snapped (ofText s))
    (hstraddles : a.Straddles s) (hnot : ¬b.Straddles s) :
    ∃ r r', resolveSpan w tab (ofText s) a = .ok r ∧ resolveSpan w tab (ofText s) b = .ok r' ∧
      r.isMultiline = true ∧ r.endCol = 0 ∧ r.startLine = r'.startLine ∧ r.startCol = r'.startCol ∧
      r.endLine = r'.endLine + 1 := by
  have hends := ((hstraddles.1.of_snapped_eq ha hb h).endsAtLine_or_straddles hb).resolve_right hnot
  obtain ⟨hstart, hstop⟩ := before_eq_of_snapped_eq ha hb h
  obtain ⟨hsnapstart, -⟩ := Span.mk.inj h
  have hlast := effectiveEnd_of_not_endsAtLine ha hstraddles.not_endsAtLine
  have hlast' := effectiveEnd_of_endsAtLine hb hends
  obtain ⟨halow, hale, hahigh⟩ := ha
  obtain ⟨hblow, hble, hbhigh⟩ := hb
  have hcount := hstraddles.1.count_before_lt halow
  obtain ⟨first, hfirst, -, hline⟩ := exists_locate_ofText w tab s halow (by omega)
  have hfirst' := locate_congr w tab halow (by omega) hblow (by omega) hsnapstart
  obtain ⟨final, hfinal, hcol, hbelow⟩ :=
    exists_locate_behind_lineFeed w tab (by omega) hahigh hstraddles.1.1
  have hlines : (Utf8.before a.stop.toNat s).count '\n' - 1 ≤ s.count '\n' := by
    have := (Utf8.before_isPrefix a.stop.toNat s).sublist.count_le '\n'
    omega
  obtain ⟨start, stop, hbounds, hinside, habove⟩ := exists_lineBounds?_ofText hlines
  obtain ⟨other, hother, -, hupper⟩ :=
    exists_locate_ofText w tab s (Int.natCast_nonneg stop) (Int.ofNat_le.2 hinside)
  rw [hfirst] at hfirst'
  rw [← hline] at hlast
  rw [← hstop, hbounds, ← hstart, ← hline] at hlast'
  rw [Int.toNat_natCast, habove] at hupper
  refine ⟨_, _, resolveSpan_of_located hale hfirst hlast hfinal,
    resolveSpan_of_located hble hfirst'.symm hlast' hother, ?_⟩
  have hdifferent : ¬(final.line = first.line ∧ final.col < first.col) := by
    rintro ⟨hsame, -⟩
    omega
  have hmultiline : first.line ≠ final.line := by omega
  have hnext : final.line = other.line + 1 := by omega
  rw [if_neg hdifferent]
  split
  case isTrue hreversed =>
    exact ⟨bne_iff_ne.2 hmultiline, hcol, rfl, rfl, hnext.trans (by rw [hreversed.1])⟩
  case isFalse => exact ⟨bne_iff_ne.2 hmultiline, hcol, rfl, rfl, hnext⟩

theorem Fits.snapped (h : span.Fits (Utf8.encode s).length) :
    (span.snapped (ofText s)).Fits (Utf8.encode s).length := by
  obtain ⟨hlow, hle, hhigh⟩ := h
  refine ⟨snap_nonneg hlow (by omega), snap_mono hlow hle hhigh, ?_⟩
  exact Int.le_trans (snap_le (by omega) hhigh) hhigh

theorem snapped_snapped (h : span.Fits (Utf8.encode s).length) :
    (span.snapped (ofText s)).snapped (ofText s) = span.snapped (ofText s) := by
  have hsnap : ∀ offset : Int, 0 ≤ offset → offset ≤ (Utf8.encode s).length →
      (ofText s).snap ((ofText s).snap offset) = (ofText s).snap offset := by
    intro offset hlow hhigh
    rw [snap_ofText (snap_nonneg hlow hhigh) (Int.le_trans (snap_le hlow hhigh) hhigh),
      before_snap hlow hhigh, ← snap_ofText hlow hhigh]
  obtain ⟨hlow, hle, hhigh⟩ := h
  exact congrArg₂ Span.mk (hsnap _ hlow (by omega)) (hsnap _ (by omega) hhigh)

theorem not_straddles_snapped (h : span.Fits (Utf8.encode s).length) :
    ¬(span.snapped (ofText s)).Straddles s := by
  obtain ⟨hlow, hle, hhigh⟩ := h
  intro hstraddles
  have hinside : (Utf8.encode (Utf8.before ((ofText s).snap span.stop).toNat s)).length <
      (ofText s).snap span.stop := hstraddles.2
  rw [before_snap (by omega) hhigh, snap_ofText (by omega) hhigh] at hinside
  omega

end Span

/-- The same label with its ends elsewhere in the characters that they point into. -/
structure Label.Moved (s : Text) (a b : Label) : Prop where
  text : a.text = b.text
  style : a.style = b.style
  fits : a.span.Fits (Utf8.encode s).length
  fits' : b.span.Fits (Utf8.encode s).length
  snapped : a.span.snapped (ofText s) = b.span.snapped (ofText s)
  straddles : a.span.Straddles s ↔ b.span.Straddles s

theorem Label.Moved.erase_eq {s : Text} {a b : Label} (h : a.Moved s b) : a.erase = b.erase := by
  rw [erase, erase, h.text, h.style]

/-- What becomes of ends inside characters. A span is placed as if both its ends were where their
characters begin, unless it straddles. If it does it covers several lines, down to the one that it
ends in, but nothing of that one, while the moved span ends a line higher. So a diagnostic whose
labels are moved within characters is rendered as it was, if those that straddle still do and no
others. -/
theorem spans_within_characters [Platform] (w : CellWidth) (source : Source) :
    (∀ tab, ∀ span : Span, span.Fits source.length →
      (span.snapped source.index).Fits source.length ∧
      (resolveSpan w tab source.index span =
        resolveSpan w tab source.index (span.snapped source.index) ↔
          ¬span.Straddles source.text) ∧
      (span.Straddles source.text → ∃ r r', resolveSpan w tab source.index span = .ok r ∧
        resolveSpan w tab source.index (span.snapped source.index) = .ok r' ∧
        r.isMultiline = true ∧ r.endCol = 0 ∧ r.startLine = r'.startLine ∧
        r.startCol = r'.startCol ∧ r.endLine = r'.endLine + 1)) ∧
    ∀ (diagnostic : Diagnostic) (labels : List Label), diagnostic.source = some source →
      List.Forall₂ (Label.Moved source.text) diagnostic.labels labels → ∀ config mode,
        (diagnostic.withLabels labels).render w config mode =
          diagnostic.render w config mode := by
  refine ⟨fun tab span hfits => ?_, fun diagnostic labels hsource hmoved config mode => ?_⟩
  · have hsnapped := Span.Fits.snapped hfits
    have hsame := (Span.snapped_snapped hfits).symm
    have hnot := Span.not_straddles_snapped hfits
    have hstraddling := Span.resolveSpan_of_straddles w tab hfits hsnapped hsame
    refine ⟨hsnapped, ⟨fun heq hstraddles => ?_, fun hspan => ?_⟩, fun h => hstraddling h hnot⟩
    · obtain ⟨r, r', hr, hr', -, -, -, -, hlines⟩ := hstraddling hstraddles hnot
      have hrr' : r = r' := Except.ok.inj (hr.symm.trans (heq.trans hr'))
      rw [hrr'] at hlines
      omega
    · exact Span.resolveSpan_congr w tab hfits hsnapped hsame (iff_of_false hspan hnot)
  · have hfits : ∀ label ∈ diagnostic.labels, label.span.Fits source.length :=
      ((List.forall₂_and_left _ _).1 (hmoved.imp fun a b h => ⟨h.fits, h⟩)).1
    have hfits' : ∀ label ∈ labels, label.span.Fits source.length :=
      ((List.forall₂_and_left _ _).1 (hmoved.flip.imp fun a b h => ⟨h.fits', h⟩)).1
    obtain ⟨placed, hplaced, -, hwithin⟩ := Layout.exists_placed w config.tab source hfits
    obtain ⟨placed', hplaced', -, hwithin'⟩ := Layout.exists_placed w config.tab source hfits'
    obtain ⟨again, hagain, hsame⟩ := Layout.placeLabels_congr (hmoved.imp fun a b h =>
      ⟨h.erase_eq, Span.resolveSpan_congr w config.tab h.fits h.fits' h.snapped h.straddles⟩)
      0 hplaced
    obtain rfl : placed' = again := Except.ok.inj (hplaced'.symm.trans hagain)
    have hsource' : (diagnostic.withLabels labels).source = some source := hsource
    exact Diagnostic.render_congr hsource' hsource rfl rfl hplaced' hplaced hwithin' hwithin
      hsame mode

/-- Two lines, the second of which is a character of two bytes. -/
def accented : Source := ⟨['a', '\n', 'é'], none, none⟩

/-- A label that begins inside that character, and one that begins above it and straddles. -/
def reaching : Diagnostic where
  title := ['t']
  source := some accented
  labels := [⟨⟨3, 4⟩, some ['x'], none⟩, ⟨⟨0, 3⟩, none, none⟩]

section

attribute [local instance] Platform.usual

theorem spans_within_characters_accented :
    resolveSpan (fun _ => 1) 4 accented.index ⟨3, 4⟩ =
        resolveSpan (fun _ => 1) 4 accented.index ⟨2, 4⟩ ∧
      (∃ r, resolveSpan (fun _ => 1) 4 accented.index ⟨0, 3⟩ = .ok r ∧ r.isMultiline = true) ∧
      (reaching.withLabels [⟨⟨2, 4⟩, some ['x'], none⟩, ⟨⟨0, 3⟩, none, none⟩]).render (fun _ => 1)
        .default .compact = reaching.render (fun _ => 1) .default .compact := by
  obtain ⟨hspans, hlabels⟩ := spans_within_characters (fun _ => 1) accented
  obtain ⟨-, hsame, -⟩ := hspans 4 ⟨3, 4⟩ (by decide)
  obtain ⟨-, -, hstraddles⟩ := hspans 4 ⟨0, 3⟩ (by decide)
  obtain ⟨r, -, hr, -, hmultiline, -⟩ := hstraddles (by decide)
  refine ⟨hsame.2 (by decide), ⟨r, hr, hmultiline⟩, hlabels reaching _ rfl ?_ .default .compact⟩
  refine .cons ⟨rfl, rfl, by decide, by decide, by decide, by decide⟩ (.cons ?_ .nil)
  exact ⟨rfl, rfl, by decide, by decide, rfl, Iff.rfl⟩

end

/-- An end inside a character need not behave like the start of that character. -/
theorem straddling_span_not_snapped : (⟨0, 3⟩ : Span).Fits accented.length ∧
    (⟨0, 3⟩ : Span).snapped accented.index = ⟨0, 2⟩ ∧
    resolveSpan (fun _ => 1) 4 accented.index ⟨0, 3⟩ ≠
      resolveSpan (fun _ => 1) 4 accented.index ⟨0, 2⟩ := by
  decide +kernel

end Excerpt
