import Excerpt.Proofs.Fitting
import Excerpt.Proofs.Trace

/-!
What is left of a row that is too wide. It loses a tail: its first segments stay, and of the first
one that does not fit beside the ellipsis a beginning, unless that is a caret run, which is left out
whole. Where no segment has a tab in it, what is left is within the limit, so nothing is lost when
the row is fitted again.
-/

namespace Excerpt

open Segment

/-- What can be left of a segment: nothing, or a beginning of its text in its style. Nothing is left
of a caret run. -/
inductive Segment.Remainder (seg : Segment) : List Segment → Prop
  | nothing : Remainder seg []
  | beginning {text : Text} : seg.caret = false → text ≠ [] → text <+: seg.text →
      Remainder seg [⟨text, seg.style, false⟩]

namespace Segment.Remainder

variable {seg : Segment} {part : List Segment}

theorem flatMap_text_isPrefix (h : seg.Remainder part) :
    part.flatMap Segment.text <+: seg.text := by
  cases h with
  | nothing => exact List.nil_prefix
  | beginning _ _ hprefix =>
      rw [List.flatMap_singleton]
      exact hprefix

theorem filter_caret (h : seg.Remainder part) : part.filter (·.caret) = [] := by
  cases h with
  | nothing => rfl
  | beginning _ _ _ => rfl

end Segment.Remainder

namespace Row

variable {w : CellWidth} {limit room : Int} {ellipsis : Text} {row : Row}

theorem remainder_cutSegment (cells : Int) (seg : Segment) :
    seg.Remainder (cutSegment w cells seg) := by
  rw [cutSegment]
  split
  case isTrue => exact .nothing
  case isFalse hcaret =>
      rw [run]
      split
      case isTrue => exact .nothing
      case isFalse hne =>
          exact .beginning (Bool.eq_false_iff.2 hcaret) hne (cutToWidth_isPrefix w seg.text cells)

/-- A row for which there is too little room falls into the segments that are kept, one of which
`part` is left, and the rest. As much is kept as there is room for: all that stands in front of the
first segment that does not fit, and of that one, unless it is a caret run or has a tab in it, the
longest beginning that fits in the cells left. -/
structure Shortened (w : CellWidth) (room : Int) (row : Row) (kept : List Segment) (seg : Segment)
    (rest part : List Segment) : Prop where
  split : row.segments = kept ++ seg :: rest
  fits : total w kept ≤ room
  full : room < total w kept + seg.width w
  remainder : seg.Remainder part
  longest : total w kept < room → seg.caret = false → '\t' ∉ seg.text →
    ∀ text : Text, text <+: seg.text → total w kept + text.width w ≤ room →
      text <+: part.flatMap Segment.text

theorem longest_cutSegment {cells : Int} (hcells : 0 < cells) {seg : Segment}
    (hcaret : seg.caret = false) (htab : '\t' ∉ seg.text) {text : Text} (htext : text <+: seg.text)
    (hfits : text.width w ≤ cells) : text <+: (cutSegment w cells seg).flatMap Segment.text := by
  obtain ⟨-, -, hlongest⟩ := cutToWidth_longest (w := w) hcells htab
  rw [cutSegment, hcaret, if_neg Bool.false_ne_true, Canvas.flatMap_text_run]
  exact hlongest text htext hfits

theorem exists_shortened (hroom : 0 ≤ room) (hwide : room < row.width w) :
    ∃ kept seg rest part, Shortened w room row kept seg rest part ∧
      takeFitting w room 0 row.segments = kept ++ part := by
  rcases takeFitting_cases hroom row.segments (w := w) with
    ⟨hall, -⟩ | ⟨kept, seg, rest, hsplit, hfits, hfull, hkept⟩
  · rw [Row.width_eq_total] at hwide
    omega
  · rw [Int.zero_add] at hfits hfull hkept
    refine ⟨kept, seg, rest, _, ⟨hsplit, hfits, hfull, remainder_cutSegment _ seg, ?_⟩, hkept⟩
    intro hleft hcaret htab text htext hwidth
    exact longest_cutSegment (by omega) hcaret htab htext (by omega)

namespace Shortened

variable {kept rest part : List Segment} {seg : Segment}

theorem isPrefix_plain (h : Shortened w room row kept seg rest part) :
    (kept ++ part).flatMap Segment.text <+: row.plain := by
  rw [plain, h.split, List.flatMap_append, List.flatMap_append, List.flatMap_cons,
    List.prefix_append_right_inj]
  exact h.remainder.flatMap_text_isPrefix.trans (List.prefix_append _ _)

/-- Caret runs are kept as a whole or not at all. -/
theorem isPrefix_carets (h : Shortened w room row kept seg rest part) (ellipsis : Text) :
    (kept ++ part ++ run ellipsis).filter (·.caret) <+: row.segments.filter (·.caret) := by
  have hellipsis : (run ellipsis).filter (·.caret) = [] := by
    refine List.filter_eq_nil_iff.2 fun seg hseg => ?_
    rw [Canvas.caret_of_mem_run hseg]
    exact Bool.false_ne_true
  rw [h.split, List.filter_append, List.filter_append, List.filter_append, hellipsis,
    h.remainder.filter_caret, List.append_nil, List.append_nil]
  exact List.prefix_append _ _

end Shortened

theorem fit_of_width_le (h : row.width w ≤ limit) : row.fit w limit ellipsis = row := if_pos h

theorem fit_of_lt_width (h : limit < row.width w) : row.fit w limit ellipsis =
    ⟨row.kind, takeFitting w (max (limit - ellipsis.width w) 0) 0 row.segments ++ run ellipsis⟩ :=
  if_neg (Int.not_le.2 h)

theorem width_fit_le_of_untabbed (htab : ∀ seg ∈ row.segments, '\t' ∉ seg.text)
    (hellipsis : ellipsis.width w ≤ limit) : (row.fit w limit ellipsis).width w ≤ limit := by
  have hmade : MadeOf (· ≠ '\t') row.segments :=
    fun seg hseg ch hch heq => htab seg hseg (heq ▸ hch)
  exact width_fit_le hellipsis row (not_cutAtTab hmade fun h => h rfl)

/-- Fitting a row leaves it alone if it is narrow enough. Of a row that is too wide it drops a tail
and puts the ellipsis in its place: what is shown of the row is a beginning of it, and its caret
runs are shown from the first to some last one, each as a whole. Without tabs a row is within the
limit after that, and fitting it again changes nothing. -/
theorem fit_drops_tail (hlimit : 0 ≤ limit) (row : Row) (ellipsis : Text) :
    (row.width w ≤ limit → row.fit w limit ellipsis = row) ∧
    (limit < row.width w → ∃ kept seg rest part,
      Shortened w (max (limit - ellipsis.width w) 0) row kept seg rest part ∧
      row.fit w limit ellipsis = ⟨row.kind, kept ++ part ++ run ellipsis⟩ ∧
      (∃ shown, shown <+: row.plain ∧ (row.fit w limit ellipsis).plain = shown ++ ellipsis) ∧
      (row.fit w limit ellipsis).segments.filter (·.caret) <+: row.segments.filter (·.caret)) ∧
    ((∀ seg ∈ row.segments, '\t' ∉ seg.text) → ellipsis.width w ≤ limit →
      (row.fit w limit ellipsis).width w ≤ limit ∧
      (row.fit w limit ellipsis).fit w limit ellipsis = row.fit w limit ellipsis) := by
  refine ⟨fit_of_width_le, fun hwide => ?_, fun htab hellipsis => ?_⟩
  · have hnonneg : 0 ≤ ellipsis.width w := displayWidth_nonneg ..
    have hroom : max (limit - ellipsis.width w) 0 < row.width w := by omega
    obtain ⟨kept, seg, rest, part, hshort, hkept⟩ := exists_shortened (Int.le_max_right ..) hroom
    have hfit : row.fit w limit ellipsis = ⟨row.kind, kept ++ part ++ run ellipsis⟩ := by
      rw [fit_of_lt_width hwide, hkept]
    refine ⟨kept, seg, rest, part, hshort, hfit, ⟨_, hshort.isPrefix_plain, ?_⟩, ?_⟩
    · rw [hfit, plain, List.flatMap_append, Canvas.flatMap_text_run]
    · rw [hfit]
      exact hshort.isPrefix_carets ellipsis
  · have hwithin := width_fit_le_of_untabbed htab hellipsis
    exact ⟨hwithin, fit_of_width_le hwithin⟩

/-- An underline with a text beside it, whose characters take two cells each. -/
def captioned : Row where
  kind := .underline
  segments := [⟨"  : ".toList, none, false⟩, ⟨"^^".toList, none, true⟩,
    ⟨" 変数名".toList, none, false⟩]

theorem fit_drops_tail_captioned :
    (11 < captioned.width Unicode.cellWidth ∧ (∀ seg ∈ captioned.segments, '\t' ∉ seg.text) ∧
      Text.width Unicode.cellWidth ['…'] ≤ 11) ∧
    (captioned.fit Unicode.cellWidth 11 ['…']).plain = "  : ^^ 変…".toList ∧
    (∃ kept seg rest part, Shortened Unicode.cellWidth 10 captioned kept seg rest part ∧
      captioned.fit Unicode.cellWidth 11 ['…'] = ⟨.underline, kept ++ part ++ run ['…']⟩) ∧
    (captioned.fit Unicode.cellWidth 11 ['…']).width Unicode.cellWidth ≤ 11 ∧
    (captioned.fit Unicode.cellWidth 11 ['…']).fit Unicode.cellWidth 11 ['…'] =
      captioned.fit Unicode.cellWidth 11 ['…'] := by
  have hwide : 11 < captioned.width Unicode.cellWidth := by decide +kernel
  have htab : ∀ seg ∈ captioned.segments, '\t' ∉ seg.text := by decide +kernel
  have hellipsis : Text.width Unicode.cellWidth ['…'] = 1 := by decide +kernel
  obtain ⟨-, hshort, hwithin⟩ :=
    fit_drops_tail (w := Unicode.cellWidth) (show 0 ≤ 11 by decide) captioned ['…']
  obtain ⟨kept, seg, rest, part, hshortened, hfit, -⟩ := hshort hwide
  rw [hellipsis] at hshortened hwithin
  exact ⟨⟨hwide, htab, by omega⟩, by decide +kernel, ⟨kept, seg, rest, part, hshortened, hfit⟩,
    hwithin htab (by decide)⟩

/-- Where the cut would fall inside the carets, they are left out. -/
example : (captioned.fit Unicode.cellWidth 6 ['…']).plain = "  : …".toList := by
  decide +kernel

end Row
end Excerpt
