import Excerpt.Source
import Excerpt.Proofs.Described
import Excerpt.Proofs.Lines

/-!
The lines of a source are the pieces of its text between line feeds, without a carriage return at
their ends. In bytes they tile the buffer: with the terminators behind them, one after the other,
they are all of it, and the index has the bounds of each.
-/

namespace Excerpt

section SplitOn

variable {α : Type}

theorem flatMap_append_eq_nil_or (a : α) (pieces : List (List α)) :
    pieces.flatMap (· ++ [a]) = [] ∨ ∃ front, pieces.flatMap (· ++ [a]) = front ++ [a] := by
  rcases List.eq_nil_or_concat pieces with rfl | ⟨pieces, last, rfl⟩
  · exact .inl rfl
  · exact .inr ⟨pieces.flatMap (· ++ [a]) ++ last, by simp⟩

theorem intercalate_cons_eq (a : α) (piece : List α) (back : List (List α)) :
    [a].intercalate (piece :: back) = piece ++ back.flatMap (a :: ·) := by
  induction back generalizing piece with
  | nil => simp
  | cons next back ih =>
      rw [List.intercalate_cons_of_ne_nil (List.cons_ne_nil next back), ih next]
      simp

theorem intercalate_append_cons (a : α) (front : List (List α)) (piece : List α)
    (back : List (List α)) : [a].intercalate (front ++ piece :: back) =
      front.flatMap (· ++ [a]) ++ piece ++ back.flatMap (a :: ·) := by
  induction front with
  | nil => exact intercalate_cons_eq a piece back
  | cons first front ih =>
      rw [List.cons_append, List.intercalate_cons_of_ne_nil (by simp), ih]
      simp

variable [BEq α] [LawfulBEq α] {a : α}

theorem not_mem_of_mem_splitOn {xs piece : List α} (h : piece ∈ xs.splitOn a) : a ∉ piece := by
  induction xs generalizing piece with
  | nil =>
      rw [List.splitOn_nil, List.mem_singleton] at h
      simp [h]
  | cons x xs ih =>
      rw [List.splitOn, List.splitOnP_cons_eq_if_modifyHead] at h
      change piece ∈ if (x == a) = true then [] :: xs.splitOn a
        else (xs.splitOn a).modifyHead (x :: ·) at h
      split at h
      case isTrue =>
          rcases List.mem_cons.1 h with rfl | h
          · exact List.not_mem_nil
          · exact ih h
      case isFalse hx =>
          cases hpieces : xs.splitOn a with
          | nil => exact absurd hpieces (List.splitOn_ne_nil a xs)
          | cons first rest =>
              rw [hpieces] at h ih
              rcases List.mem_cons.1 h with rfl | h
              · have hne : x ≠ a := by simpa using hx
                simpa [hne.symm] using ih List.mem_cons_self
              · exact ih (List.mem_cons_of_mem first h)

theorem count_flatMap_append {pieces : List (List α)} (h : ∀ piece ∈ pieces, a ∉ piece) :
    (pieces.flatMap (· ++ [a])).count a = pieces.length := by
  induction pieces with
  | nil => rfl
  | cons piece pieces ih =>
      obtain ⟨hpiece, hpieces⟩ := List.forall_mem_cons.1 h
      simp [ih hpieces, List.count_eq_zero.2 hpiece]

end SplitOn

/-- A text is cut around each of the pieces between its line feeds. -/
theorem LineCut.of_splitOn {s piece : Text} {front back : List Text}
    (h : s.splitOn '\n' = front ++ piece :: back) :
    LineCut s front.length (front.flatMap (· ++ ['\n'])) piece (back.flatMap ('\n' :: ·)) where
  text_eq := by
    rw [← intercalate_append_cons, ← h, List.intercalate_splitOn]
  number_eq := by
    apply count_flatMap_append
    intro piece hpiece
    exact not_mem_of_mem_splitOn (h ▸ List.mem_append_left _ hpiece)
  above_ends := flatMap_append_eq_nil_or '\n' front
  feedless := not_mem_of_mem_splitOn (h ▸ List.mem_append_right _ List.mem_cons_self)
  below_begins := by
    cases back with
    | nil => exact .inl rfl
    | cons next back => exact .inr ⟨next ++ back.flatMap ('\n' :: ·), rfl⟩

theorem length_splitOn_lineFeed (s : Text) :
    (s.splitOn '\n').length = (LineIndex.ofText s).lineCount := by
  obtain ⟨front, last, h⟩ :=
    (List.eq_nil_or_concat (s.splitOn '\n')).resolve_left (List.splitOn_ne_nil '\n' s)
  rw [List.concat_eq_append] at h
  have hcut := LineCut.of_splitOn h
  rw [h, List.length_append, LineIndex.lineCount_ofText, hcut.text_eq, List.count_append,
    List.count_append, hcut.number_eq, List.count_eq_zero.2 hcut.feedless]
  rfl

theorem Source.lines_eq (source : Source) :
    source.lines = .ok ((source.text.splitOn '\n').map Text.dropReturn) := by
  have hcount : (source.text.splitOn '\n').length = source.lineCount :=
    length_splitOn_lineFeed source.text
  rw [lines, mapM_eq_ok_iff, List.forall₂_map_right_iff, List.forall₂_iff_get]
  refine ⟨by simp [hcount], fun n _ hn => ?_⟩
  have hpieces : source.text.splitOn '\n' = (source.text.splitOn '\n').take n ++
      (source.text.splitOn '\n')[n] :: (source.text.splitOn '\n').drop (n + 1) := by
    rw [List.getElem_cons_drop, List.take_append_drop]
  have hline := LineIndex.line_ofText (LineCut.of_splitOn hpieces)
  rw [List.length_take, Nat.min_eq_left (Nat.le_of_lt hn)] at hline
  rw [List.get_eq_getElem, List.get_eq_getElem, List.getElem_range]
  exact hline

/-- A line of a buffer and what ends it. -/
structure ByteLine where
  bytes : Bytes
  terminator : Bytes

namespace ByteLine

def whole (line : ByteLine) : Bytes := line.bytes ++ line.terminator

/-- The line holds no line feed, and it is ended by `ending` or by a carriage return and that. A
carriage return stands at the end of the line only if the terminator has another one. -/
structure EndedBy (line : ByteLine) (ending : Bytes) : Prop where
  feedless : lineFeed ∉ line.bytes
  terminated : line.terminator = ending ∨ line.terminator = carriageReturn :: ending
  returned : line.bytes.getLast? = some carriageReturn →
    line.terminator.head? = some carriageReturn

/-- The line of a piece between line feeds. A carriage return at its end is in the terminator. -/
def ofPiece (ending piece : Bytes) : ByteLine :=
  if piece.getLast? = some carriageReturn then ⟨piece.dropLast, carriageReturn :: ending⟩
  else ⟨piece, ending⟩

variable {line : ByteLine} {ending piece : Bytes}

theorem whole_ofPiece : (ofPiece ending piece).whole = piece ++ ending := by
  rw [ofPiece]
  split
  case isTrue h =>
      obtain ⟨front, rfl⟩ := List.getLast?_eq_some_iff.1 h
      simp [whole]
  case isFalse => rfl

theorem endedBy_ofPiece (h : lineFeed ∉ piece) : (ofPiece ending piece).EndedBy ending := by
  rw [ofPiece]
  split
  case isTrue =>
      exact ⟨fun hmem => h (List.dropLast_subset piece hmem), .inr rfl, fun _ => rfl⟩
  case isFalse hlast => exact ⟨h, .inl rfl, fun hreturn => absurd hreturn hlast⟩

/-- What a line is in front of the line feed, if any, that ends it. -/
theorem EndedBy.exists_piece (h : line.EndedBy ending)
    (hending : ending.head? ≠ some carriageReturn) :
    ∃ piece, lineFeed ∉ piece ∧ line.whole = piece ++ ending ∧ piece.dropReturn = line.bytes := by
  rcases h.terminated with hterminator | hterminator
  · have hlast : line.bytes.getLast? ≠ some carriageReturn :=
      fun hreturn => hending (hterminator ▸ h.returned hreturn)
    exact ⟨line.bytes, h.feedless, by rw [whole, hterminator], if_neg hlast⟩
  · refine ⟨line.bytes ++ [carriageReturn], ?_, by simp [whole, hterminator], ?_⟩
    · simpa using ⟨h.feedless, by decide⟩
    · simp [Bytes.dropReturn]

end ByteLine

open ByteLine

/-- Lines that make up a buffer, `last` the one behind the last line feed. -/
structure Tiling (data : Bytes) (lines : List ByteLine) (last : ByteLine) : Prop where
  whole : lines.flatMap ByteLine.whole ++ last.whole = data
  ended : ∀ line ∈ lines, line.EndedBy [lineFeed]
  last : last.EndedBy []

theorem exists_tiling (data : Bytes) : ∃ lines last, Tiling data lines last := by
  obtain ⟨front, last, h⟩ :=
    (List.eq_nil_or_concat (data.splitOn lineFeed)).resolve_left (List.splitOn_ne_nil lineFeed data)
  rw [List.concat_eq_append] at h
  have hfeedless : ∀ piece ∈ front ++ [last], lineFeed ∉ piece :=
    fun piece hpiece => not_mem_of_mem_splitOn (h ▸ hpiece)
  refine ⟨front.map (ofPiece [lineFeed]), ofPiece [] last, ?_, ?_, ?_⟩
  · calc (front.map (ofPiece [lineFeed])).flatMap ByteLine.whole ++ (ofPiece [] last).whole
        = front.flatMap (· ++ [lineFeed]) ++ last ++ ([] : List Bytes).flatMap (lineFeed :: ·) := by
          simp [List.flatMap_map, whole_ofPiece]
      _ = [lineFeed].intercalate (data.splitOn lineFeed) := by
          rw [h, intercalate_append_cons]
      _ = data := List.intercalate_splitOn lineFeed
  · intro line hline
    obtain ⟨piece, hpiece, rfl⟩ := List.mem_map.1 hline
    exact endedBy_ofPiece (hfeedless piece (List.mem_append_left _ hpiece))
  · exact endedBy_ofPiece (hfeedless last (by simp))

/-- Lines that are ended by line feeds, as pieces with line feeds behind them. -/
theorem exists_pieces {lines : List ByteLine} (h : ∀ line ∈ lines, line.EndedBy [lineFeed]) :
    ∃ pieces : List Bytes, pieces.length = lines.length ∧ (∀ piece ∈ pieces, lineFeed ∉ piece) ∧
      lines.flatMap ByteLine.whole = pieces.flatMap (· ++ [lineFeed]) := by
  induction lines with
  | nil => exact ⟨[], rfl, by simp, rfl⟩
  | cons line lines ih =>
      obtain ⟨hline, hlines⟩ := List.forall_mem_cons.1 h
      obtain ⟨piece, hpiece, hwhole, -⟩ := hline.exists_piece (by decide)
      obtain ⟨pieces, hlength, hpieces, heq⟩ := ih hlines
      refine ⟨piece :: pieces, by simp [hlength], List.forall_mem_cons.2 ⟨hpiece, hpieces⟩, ?_⟩
      rw [List.flatMap_cons, List.flatMap_cons, hwhole, heq]

theorem byteCut_of_endedBy {front : List ByteLine} {piece below : Bytes}
    (hfront : ∀ line ∈ front, line.EndedBy [lineFeed]) (hpiece : lineFeed ∉ piece)
    (hbelow : below = [] ∨ ∃ b, below = lineFeed :: b) :
    ByteCut (front.flatMap ByteLine.whole ++ piece ++ below) front.length
      (front.flatMap ByteLine.whole) piece below := by
  obtain ⟨pieces, hlength, hpieces, hwhole⟩ := exists_pieces hfront
  refine ⟨rfl, ?_, ?_, hpiece, hbelow⟩
  · rw [hwhole, count_flatMap_append hpieces, hlength]
  · rw [hwhole]
    exact flatMap_append_eq_nil_or lineFeed pieces

namespace Tiling

variable {data : Bytes} {lines front back : List ByteLine} {last line : ByteLine}

theorem lineCount_eq (h : Tiling data lines last) :
    (LineIndex.ofBytes data).lineCount = lines.length + 1 := by
  obtain ⟨piece, hpiece, hlast, -⟩ := h.last.exists_piece (by decide)
  have hcut := byteCut_of_endedBy h.ended hpiece (.inl rfl)
  rw [LineIndex.lineCount_eq_count, ← h.whole, hlast, List.append_nil, List.count_append,
    hcut.number_eq, List.count_eq_zero.2 hpiece, Nat.add_zero]

/-- The buffer is cut around each of the lines. -/
theorem exists_byteCut (h : Tiling data lines last)
    (hlines : lines ++ [last] = front ++ line :: back) :
    ∃ piece below, ByteCut data front.length (front.flatMap ByteLine.whole) piece below ∧
      piece.dropReturn = line.bytes := by
  rcases List.eq_nil_or_concat back with rfl | ⟨back, final, rfl⟩
  · obtain ⟨rfl, hline⟩ := List.append_inj' hlines rfl
    obtain ⟨rfl, -⟩ := List.cons.inj hline
    obtain ⟨piece, hpiece, hwhole, hreturn⟩ := h.last.exists_piece (by decide)
    refine ⟨piece, [], ?_, hreturn⟩
    rw [← h.whole, hwhole, ← List.append_assoc]
    exact byteCut_of_endedBy h.ended hpiece (.inl rfl)
  · rw [List.concat_eq_append, ← List.cons_append, ← List.append_assoc] at hlines
    obtain ⟨rfl, -⟩ := List.append_inj' hlines rfl
    obtain ⟨hfront, hrest⟩ := List.forall_mem_append.1 h.ended
    obtain ⟨hline, -⟩ := List.forall_mem_cons.1 hrest
    obtain ⟨piece, hpiece, hwhole, hreturn⟩ := hline.exists_piece (by decide)
    refine ⟨piece, lineFeed :: (back.flatMap ByteLine.whole ++ last.whole), ?_, hreturn⟩
    have hdata : data = front.flatMap ByteLine.whole ++ piece ++
        lineFeed :: (back.flatMap ByteLine.whole ++ last.whole) := by
      simp [← h.whole, hwhole]
    rw [hdata]
    exact byteCut_of_endedBy hfront hpiece (.inr ⟨_, rfl⟩)

theorem lineBounds?_eq (h : Tiling data lines last)
    (hlines : lines ++ [last] = front ++ line :: back) :
    (LineIndex.ofBytes data).lineBounds? front.length =
      some ((front.flatMap ByteLine.whole).length,
        (((front.flatMap ByteLine.whole).length + line.bytes.length : Nat) : Int)) := by
  obtain ⟨piece, below, hcut, hbytes⟩ := h.exists_byteCut hlines
  rw [LineIndex.lineBounds?_ofBytes hcut, hbytes]

theorem whole_eq_append (h : Tiling data lines last)
    (hlines : lines ++ [last] = front ++ line :: back) :
    data = front.flatMap ByteLine.whole ++ line.bytes ++
      (line.terminator ++ back.flatMap ByteLine.whole) := by
  have hall : data = (lines ++ [last]).flatMap ByteLine.whole := by simp [← h.whole]
  rw [hall, hlines]
  simp [ByteLine.whole]

end Tiling

/-- The lines of a source are its text split at the line feeds, each piece without the carriage
return at its end, the last one included. The lines of any buffer tile it: their bytes with their
terminators, a line feed or a carriage return and a line feed, at most a carriage return behind the
last one, are the buffer, and in the bounds of each line are its bytes. -/
theorem lines_tile :
    (∀ source : Source,
      source.lines = .ok ((source.text.splitOn '\n').map Text.dropReturn)) ∧
    ∀ data : Bytes, ∃ lines last, Tiling data lines last ∧
      (LineIndex.ofBytes data).lineCount = lines.length + 1 ∧
      ∀ front line back, lines ++ [last] = front ++ line :: back →
        ∃ start stop : Nat, start = (front.flatMap ByteLine.whole).length ∧
          stop = start + line.bytes.length ∧ stop ≤ data.length ∧
          (LineIndex.ofBytes data).lineBounds? front.length = some (start, (stop : Int)) ∧
          LineIndex.slice data start stop = line.bytes := by
  refine ⟨Source.lines_eq, fun data => ?_⟩
  obtain ⟨lines, last, h⟩ := exists_tiling data
  refine ⟨lines, last, h, h.lineCount_eq, fun front line back hlines => ?_⟩
  have hdata := h.whole_eq_append hlines
  refine ⟨_, _, rfl, rfl, ?_, h.lineBounds?_eq hlines, ?_⟩
  · rw [hdata, List.length_append, List.length_append]
    omega
  · rw [hdata]
    exact LineIndex.slice_append _ _ _

/-- One carriage return is dropped from a line, at the end of the text as well. -/
example : Source.lines ⟨"a\r\r\n\n\r".toList, none, none⟩ = .ok [['a', '\r'], [], []] := rfl

end Excerpt
