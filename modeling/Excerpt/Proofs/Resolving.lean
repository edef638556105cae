import Excerpt.Proofs.Locations
import Excerpt.Proofs.Snapping

/-!
Spans as two places in order. The end of a span is never located in front of its start, neither
when it is moved to the end of the line above nor when both are in one character, and the lines that
a span goes down are counted by the line feeds in it, of which its last byte is none.
-/

namespace Excerpt

open LineIndex

/-- The bytes of a span without the last one. -/
def Span.butLast (data : Bytes) (span : Span) : Bytes :=
  (data.take (span.stop - 1).toNat).drop span.start.toNat

variable {s : Text} {span : Span} {w : CellWidth} {tab : Int}

/-- A span ends where a line starts when its last byte is a line feed. -/
theorem Span.endsAtLine_iff_before (h : span.Fits (Utf8.encode s).length)
    (hlt : span.start < span.stop) : span.EndsAtLine s ↔
      Utf8.before span.stop.toNat s = Utf8.before (span.stop - 1).toNat s ++ ['\n'] := by
  obtain ⟨hlow, -, -⟩ := h
  have hshort := Utf8.length_encode_before_le (span.stop - 1).toNat s
  have hnext := Utf8.before_succ (span.stop - 1).toNat s
  rw [show (span.stop - 1).toNat + 1 = span.stop.toNat by omega] at hnext
  rcases hnext with hsame | ⟨c, hbefore, hlength⟩
  · refine iff_of_false (fun hends => ?_) (fun hfeed => ?_)
    · have hstop := hends.2
      rw [hsame] at hstop
      omega
    · rw [hsame] at hfeed
      simp at hfeed
  · rw [hbefore, List.append_right_inj, List.singleton_inj]
    constructor
    · intro hends
      have hlast := hends.1.1
      rwa [hbefore, List.getLast?_concat, Option.some_inj] at hlast
    · rintro rfl
      refine ⟨⟨?_, by omega⟩, by omega⟩
      rw [hbefore, List.getLast?_concat]

/-- A line feed that ends a span is the only one that is in the span and not in its inner bytes. -/
theorem Span.count_before_stop (h : span.Fits (Utf8.encode s).length)
    (hlt : span.start < span.stop) [Decidable (span.EndsAtLine s)] :
    (Utf8.before span.stop.toNat s).count '\n' =
      (Utf8.before (span.stop - 1).toNat s).count '\n' + if span.EndsAtLine s then 1 else 0 := by
  split
  case isTrue hends =>
    rw [(Span.endsAtLine_iff_before h hlt).1 hends, List.count_append, List.count_singleton_self]
  case isFalse hends =>
    have hfeed := mt (Span.endsAtLine_iff_before h hlt).2 hends
    have hnext := Utf8.before_succ (span.stop - 1).toNat s
    obtain ⟨hlow, -, -⟩ := h
    rw [show (span.stop - 1).toNat + 1 = span.stop.toNat by omega] at hnext
    rcases hnext with hsame | ⟨c, hbefore, -⟩
    · rw [hsame, Nat.add_zero]
    · have hc : c ≠ '\n' := by
        rintro rfl
        exact hfeed hbefore
      rw [hbefore, List.count_append, List.count_singleton]
      simp [hc]

theorem Span.count_butLast (h : span.Fits (Utf8.encode s).length) (hlt : span.start < span.stop) :
    (Utf8.before (span.stop - 1).toNat s).count '\n' =
      (Utf8.before span.start.toNat s).count '\n' +
        (span.butLast (Utf8.encode s)).count lineFeed := by
  obtain ⟨hlow, -, -⟩ := h
  have hsplit := List.take_append_drop span.start.toNat
    ((Utf8.encode s).take (span.stop - 1).toNat)
  rw [List.take_take, Nat.min_eq_left (by omega)] at hsplit
  rw [← count_lineFeed_take, ← count_lineFeed_take, ← List.count_append, Span.butLast, hsplit]

theorem Span.butLast_of_le (data : Bytes) (h : span.stop ≤ span.start) :
    span.butLast data = [] := by
  rw [Span.butLast, List.drop_eq_nil_iff, List.length_take]
  omega

/-- The place at which a span is taken to end, and the line feeds in front of it. -/
theorem exists_ends (w : CellWidth) (tab : Int) (h : span.Fits (Utf8.encode s).length) :
    ∃ first stop last, locate w tab (ofText s) span.start = .ok first ∧
      Located w tab s span.start first ∧
      effectiveEnd (ofText s) first.line span = .ok stop ∧
      locate w tab (ofText s) stop = .ok last ∧
      InOrder first.line first.col last.line last.col ∧
      last.line = first.line + (span.butLast (Utf8.encode s)).count lineFeed := by
  classical
  obtain ⟨hlow, hle, hhigh⟩ := id h
  obtain ⟨first, hfirst, hstart⟩ := exists_located w tab hlow (Int.le_trans hle hhigh)
  obtain ⟨final, hfinal, hend⟩ := exists_located w tab (show 0 ≤ span.stop by omega) hhigh
  have hfirstline : first.line = (Utf8.before span.start.toNat s).count '\n' := by
    rw [hstart.line_eq, count_lineFeed_take]
  have hfinalline : final.line = (Utf8.before span.stop.toNat s).count '\n' := by
    rw [hend.line_eq, count_lineFeed_take]
  rcases Int.lt_or_eq_of_le hle with hlt | heq
  · have hstop := Span.count_before_stop h hlt
    have hinner := Span.count_butLast h hlt
    by_cases hends : span.EndsAtLine s
    · -- The end moves to the end of the line above, all of which is in front of it.
      rw [if_pos hends] at hstop
      have hlines : (Utf8.before span.stop.toNat s).count '\n' - 1 ≤ s.count '\n' := by
        have := (Utf8.before_isPrefix span.stop.toNat s).sublist.count_le '\n'
        omega
      obtain ⟨start, stop, text, last, hbounds, htext, hlast, -, hline, hcol⟩ :=
        exists_located_lineEnd w tab hlines
      have heffective := Span.effectiveEnd_of_endsAtLine h hends
      rw [hbounds, ← hfirstline] at heffective
      have hdown : last.line = first.line + (span.butLast (Utf8.encode s)).count lineFeed := by
        omega
      refine ⟨first, stop, last, hfirst, hstart, heffective, hlast, ?_, hdown⟩
      rcases Nat.lt_or_eq_of_le (show first.line ≤ last.line by omega) with hbelow | hsame
      · exact .inl hbelow
      · refine .inr ⟨hsame, ?_⟩
        rw [hcol]
        refine hstart.col_le_width ?_
        rw [hsame, hline, htext]
    · rw [if_neg hends] at hstop
      have heffective := Span.effectiveEnd_of_not_endsAtLine h hends
      rw [← hfirstline] at heffective
      exact ⟨first, span.stop, final, hfirst, hstart, heffective, hfinal,
        (hstart.inOrder hend hle).2, by omega⟩
  · have hnone := Span.butLast_of_le (Utf8.encode s) (Int.le_of_eq heq.symm)
    have hends : ¬span.EndsAtLine s := by
      rw [Span.endsAtLine_iff h]
      omega
    have heffective := Span.effectiveEnd_of_not_endsAtLine h hends
    rw [← hfirstline] at heffective
    rw [← heq, hfirst] at hfinal
    obtain rfl := Except.ok.inj hfinal
    rw [← heq] at heffective
    refine ⟨first, span.start, first, hfirst, hstart, heffective, hfirst,
      .inr ⟨rfl, Int.le_refl _⟩, ?_⟩
    rw [hnone, List.count_nil, Nat.add_zero]

/-- A span that fits its text has a start and an end in order, so that the end never has to be put
right. It starts on the line that the line feeds in front of it give, and goes down as many lines
as there are line feeds in it in front of its last byte. -/
theorem spans_resolved_in_order (w : CellWidth) (tab : Int)
    (h : span.Fits (Utf8.encode s).length) :
    ∃ first stop last, locate w tab (ofText s) span.start = .ok first ∧
      effectiveEnd (ofText s) first.line span = .ok stop ∧
      locate w tab (ofText s) stop = .ok last ∧
      ¬(last.line = first.line ∧ last.col < first.col) ∧
      ∃ r, resolveSpan w tab (ofText s) span = .ok r ∧
        r = ⟨first.line, first.col, last.line, last.col⟩ ∧
        InOrder r.startLine r.startCol r.endLine r.endCol ∧
        r.startLine < (ofText s).lineCount ∧ r.endLine < (ofText s).lineCount ∧
        r.startLine = ((Utf8.encode s).take span.start.toNat).count lineFeed ∧
        (r.isMultiline = true ↔ lineFeed ∈ span.butLast (Utf8.encode s)) ∧
        (span.isEmpty = true → r.isMultiline = false) ∧
        r.endLine = r.startLine + (span.butLast (Utf8.encode s)).count lineFeed := by
  obtain ⟨first, stop, last, hfirst, hstart, hstop, hlast, horder, hdown⟩ := exists_ends w tab h
  have hunrepaired : ¬(last.line = first.line ∧ last.col < first.col) := by
    rcases horder with hlt | ⟨-, hle⟩
    · omega
    · omega
  have hbelow : last.line < (ofText s).lineCount := by
    obtain ⟨-, -, hlocated⟩ := located_of_locate hlast
    rw [hlocated.line_eq, lineCount_eq_count]
    exact Nat.lt_succ_of_le ((List.take_sublist _ _).count_le lineFeed)
  have hresolved := Span.resolveSpan_of_located h.2.1 hfirst hstop hlast
  rw [if_neg hunrepaired] at hresolved
  have hmultiline : (⟨first.line, first.col, last.line, last.col⟩ : ResolvedSpan).isMultiline =
      true ↔ lineFeed ∈ span.butLast (Utf8.encode s) := by
    rw [← List.count_pos_iff, ResolvedSpan.isMultiline, bne_iff_ne]
    dsimp only
    omega
  refine ⟨first, stop, last, hfirst, hstop, hlast, hunrepaired, _, hresolved, rfl, horder, ?_,
    hbelow, hstart.line_eq, hmultiline, fun hempty => ?_, ?_⟩
  · dsimp only
    omega
  · rw [← Bool.not_eq_true, hmultiline,
      Span.butLast_of_le _ (Int.le_of_eq (beq_iff_eq.1 hempty).symm)]
    exact List.not_mem_nil
  · exact hdown

/-- A span of one line feed that has a carriage return in front of it: it begins behind the last
character that its line shows, and that is where it is taken to end. The other one begins inside
that character and goes down to the next line. -/
theorem spans_resolved_in_order_terminator :
    (∃ r, resolveSpan (fun _ => 1) 4 (ofText ['é', '\r', '\n', 'b']) ⟨3, 4⟩ = .ok r ∧
      r = ⟨0, 1, 0, 1⟩ ∧ r.isMultiline = false) ∧
    ∃ r, resolveSpan (fun _ => 1) 4 (ofText ['é', '\r', '\n', 'b']) ⟨1, 5⟩ = .ok r ∧
      r = ⟨0, 0, 1, 1⟩ ∧ r.isMultiline = true ∧
        InOrder r.startLine r.startCol r.endLine r.endCol := by
  have hshort : resolveSpan (fun _ => 1) 4 (ofText ['é', '\r', '\n', 'b']) ⟨3, 4⟩ =
      .ok ⟨0, 1, 0, 1⟩ := by decide +kernel
  have hlong : resolveSpan (fun _ => 1) 4 (ofText ['é', '\r', '\n', 'b']) ⟨1, 5⟩ =
      .ok ⟨0, 0, 1, 1⟩ := by decide +kernel
  have hfits : (⟨3, 4⟩ : Span).Fits (Utf8.encode ['é', '\r', '\n', 'b']).length := by decide
  have hfits' : (⟨1, 5⟩ : Span).Fits (Utf8.encode ['é', '\r', '\n', 'b']).length := by decide
  obtain ⟨-, -, -, -, -, -, -, r, hr, -, -, -, -, -, hmultiline, -, -⟩ :=
    spans_resolved_in_order (fun _ => 1) 4 hfits
  obtain ⟨-, -, -, -, -, -, -, r', hr', -, horder, -, -, -, hmultiline', -, -⟩ :=
    spans_resolved_in_order (fun _ => 1) 4 hfits'
  refine ⟨⟨r, hr, Except.ok.inj (hr.symm.trans hshort), ?_⟩,
    r', hr', Except.ok.inj (hr'.symm.trans hlong), hmultiline'.2 (by decide), horder⟩
  rw [← Bool.not_eq_true, hmultiline]
  decide

end Excerpt
