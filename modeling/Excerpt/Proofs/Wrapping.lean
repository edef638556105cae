import Excerpt.Proofs.Fitting

/-!
Wrapped texts stay within their width. A word has no blank in it, so no tab either, and is as wide
at the end of a line as it is alone: what is added up word by word is the width of the line. What is
broken off an overlong word fits as soon as every character alone does.
-/

namespace Excerpt

/-- No piece has one of the characters at which the text was taken apart. -/
theorem Text.eq_false_of_mem_pieces {p : Char → Bool} {s piece : Text} (h : piece ∈ pieces p s)
    {ch : Char} (hch : ch ∈ piece) : p ch = false := by
  induction s generalizing piece with
  | nil =>
      rw [List.mem_singleton.1 h] at hch
      exact absurd hch List.not_mem_nil
  | cons c s ih =>
      rw [pieces] at h
      split at h
      case isTrue =>
          rcases List.mem_cons.1 h with rfl | h
          · exact absurd hch List.not_mem_nil
          · exact ih h hch
      case isFalse hc =>
          rcases mem_of_mem_consHead h hch with rfl | ⟨other, hother, hch⟩
          · exact Bool.eq_false_iff.2 hc
          · exact ih hother hch

theorem Text.tab_not_mem_of_mem_words {s word : Text} (h : word ∈ words s) : '\t' ∉ word := by
  intro htab
  have hblank := eq_false_of_mem_pieces (List.mem_filter.1 h).1 htab
  exact absurd hblank (by decide)

/-- Without a tab a text takes as many cells wherever it begins. Of what stands in front of it, only
a joiner matters. -/
theorem columnAfter_add {w : CellWidth} {s : Text} (htab : '\t' ∉ s) {a b : Option Char}
    (h : a = some zeroWidthJoiner ↔ b = some zeroWidthJoiner) (tab tab' col cells : Int) :
    columnAfter w tab (col + cells) a s = col + columnAfter w tab' cells b s := by
  induction s generalizing cells a b with
  | nil => rfl
  | cons c s ih =>
      obtain ⟨hc, hs⟩ := not_or.1 (mt List.mem_cons.2 htab)
      rw [columnAfter_cons, columnAfter_cons, advance, advance, if_neg (Ne.symm hc),
        if_neg (Ne.symm hc), charWidth_congr w c h, Int.add_assoc]
      exact ih hs Iff.rfl _

theorem charWidth_le {w : CellWidth} {c : Char} {cells : Int} (hcells : 0 ≤ cells)
    (h : w c ≤ cells) (previous : Option Char) : charWidth w c previous ≤ cells := by
  rw [charWidth]
  repeat' split
  all_goals omega

theorem Text.width_singleton {w : CellWidth} {c : Char} (hc : c ≠ '\t') :
    Text.width w [c] = charWidth w c none := by
  rw [Text.width, displayWidth, columnAfter_cons, columnAfter_nil, advance, if_neg hc]
  omega

/-- A word behind a line and a blank. -/
theorem width_append_word_le {w : CellWidth} (hspace : w ' ' ≤ 1) (line : Text) {word : Text}
    (htab : '\t' ∉ word) : (line ++ ' ' :: word).width w ≤ line.width w + 1 + word.width w := by
  have hblank := charWidth_le (by decide) hspace (lastChar none line)
  have hnone : some ' ' = some zeroWidthJoiner ↔ none = some zeroWidthJoiner := by decide
  have hword := columnAfter_add (w := w) htab hnone 4 4
    (columnAfter w 4 0 none line + charWidth w ' ' (lastChar none line)) 0
  rw [Int.add_zero] at hword
  simp only [Text.width, displayWidth, Int.sub_zero]
  rw [columnAfter_append, columnAfter_cons, advance, if_neg (by decide), hword]
  omega

section Break

variable {w : CellWidth} {limit : Nat} (hchar : ∀ ch, w ch ≤ limit)

include hchar

theorem width_headPiece_le {s : Text} (htab : '\t' ∉ s) :
    (headPiece w limit s).width w ≤ limit := by
  rw [headPiece]
  split
  case h_1 =>
      cases s with
      | nil => exact Int.natCast_nonneg limit
      | cons c s =>
          have hc : c ≠ '\t' := Ne.symm (not_or.1 (mt List.mem_cons.2 htab)).1
          rw [List.take_succ_cons, List.take_zero, Text.width_singleton hc]
          exact charWidth_le (Int.natCast_nonneg limit) (hchar c) none
  case h_2 first rest hcut =>
      rw [← hcut]
      refine width_cutToWidth_le (Int.natCast_nonneg limit) fun hmem => htab ?_
      exact (cutToWidth_isPrefix w s limit).subset hmem

/-- Everything that is broken off a word fits, and so does what is left of it. -/
theorem width_chop_le {s : Text} (htab : '\t' ∉ s) :
    (∀ piece ∈ (chop w limit s).1, piece.width w ≤ limit) ∧
      (chop w limit s).2.width w ≤ limit := by
  induction s using chop.induct w limit with
  | case1 s hfits =>
      rw [chop, if_pos hfits]
      exact ⟨fun piece hpiece => absurd hpiece List.not_mem_nil, hfits⟩
  | case2 s hwide head ih =>
      obtain ⟨hpieces, hrest⟩ := ih (mt List.mem_of_mem_drop htab)
      rw [chop, if_neg hwide]
      exact ⟨List.forall_mem_cons.2 ⟨width_headPiece_le hchar htab, hpieces⟩, hrest⟩

theorem width_fillLines_le (hspace : w ' ' ≤ 1) {words : List Text}
    (htab : ∀ word ∈ words, '\t' ∉ word) {current : Text} (h : current.width w ≤ limit) :
    ∀ line ∈ fillLines w limit current words, line.width w ≤ limit := by
  refine forall_mem_fillLines (fun s hs _ => hs) (fun word hword s _ _ hfits => ?_)
    (fun word hword => width_chop_le hchar (htab word hword)) h
  exact Int.le_trans (width_append_word_le hspace s (htab word hword)) hfits

/-- No line of a wrapped text is wider than the limit. -/
theorem width_wrapLines_le (hspace : w ' ' ≤ 1) (s : Text) :
    ∀ line ∈ wrapLines w limit s, line.width w ≤ limit := by
  refine width_fillLines_le hchar hspace (fun word hword => Text.tab_not_mem_of_mem_words hword) ?_
  rw [Text.width_nil]
  exact Int.natCast_nonneg limit

end Break

namespace Canvas

variable {c : Canvas} (hspace : c.cells ' ' ≤ 1) (hwide : ∀ ch, c.cells ch ≤ 2)

include hspace hwide

theorem width_wrapLine_le {available : Int} (h : minWrapWidth ≤ available) (line : Text) :
    ∀ piece ∈ c.wrapLine (some available) line, piece.width c.cells ≤ available := by
  have hmin : minWrapWidth = 12 := rfl
  have hcast : (available.toNat : Int) = available := Int.toNat_of_nonneg (by omega)
  intro piece hpiece
  simp only [wrapLine] at hpiece
  split at hpiece
  case isTrue hwhole =>
      rw [List.mem_singleton.1 hpiece]
      exact hwhole.resolve_left (Int.not_lt.2 h)
  case isFalse =>
      have hchar : ∀ ch, c.cells ch ≤ available.toNat :=
        fun ch => Int.le_trans (hwide ch) (by omega)
      have hlines := width_wrapLines_le hchar hspace line
      rw [hcast] at hlines
      cases hwrap : wrapLines c.cells available.toNat line with
      | nil =>
          rw [hwrap] at hpiece
          rw [List.mem_singleton.1 hpiece, Text.width_nil]
          omega
      | cons first rest =>
          rw [hwrap] at hpiece hlines
          exact hlines piece hpiece

/-- Where there is enough room for wrapping, every piece of a text fits in it. -/
theorem width_wrap_le {limit : Int} (hlimit : c.config.limit = some limit) {col : Int}
    (hroom : minWrapWidth ≤ limit - c.layout.prefixWidth - col) (text : Text) :
    ∀ piece ∈ c.wrap text col, piece.width c.cells ≤ limit - c.layout.prefixWidth - col := by
  intro piece hpiece
  rw [wrap, hlimit] at hpiece
  obtain ⟨line, -, hpiece⟩ := List.mem_flatMap.1 hpiece
  exact width_wrapLine_le hspace hwide hroom line piece hpiece

end Canvas
end Excerpt
