import Excerpt.Row
import Excerpt.Proofs.Placement

/-!
Rows seen cell by cell: which characters begin at a cell, and which cells the caret runs take.
Neither changes when the spaces at the end of a row are dropped.
-/

namespace Excerpt

/-- The characters, spaces apart, that begin at cell `x` of a text written at `col`. -/
def Text.glyphsAt (w : CellWidth) (x : Int) : Int → Option Char → Text → Text
  | _, _, [] => []
  | col, previous, c :: s =>
    (if col = x ∧ c ≠ ' ' then [c] else []) ++ glyphsAt w x (advance w 4 col previous c) (some c) s

theorem le_advance (w : CellWidth) (tab col : Int) (previous : Option Char) (c : Char) :
    col ≤ advance w tab col previous c := le_columnAfter w tab col previous [c]

namespace Text

variable {w : CellWidth} {x col : Int} {previous : Option Char} {s : Text}

theorem glyphsAt_of_lt (h : x < col) : glyphsAt w x col previous s = [] := by
  induction s generalizing col previous with
  | nil => rfl
  | cons c s ih =>
      rw [glyphsAt, if_neg (by omega), ih (Int.lt_of_lt_of_le h (le_advance ..))]
      rfl

theorem glyphsAt_append (a b : Text) : glyphsAt w x col previous (a ++ b) =
    glyphsAt w x col previous a ++
      glyphsAt w x (columnAfter w 4 col previous a) (lastChar previous a) b := by
  induction a generalizing col previous with
  | nil => rfl
  | cons c a ih =>
      rw [List.cons_append, glyphsAt, ih, glyphsAt, columnAfter_cons, lastChar_cons,
        List.append_assoc]

theorem glyphsAt_spaces (n : Nat) :
    glyphsAt w x col previous (List.replicate n ' ') = [] := by
  induction n generalizing col previous with
  | zero => rfl
  | succ n ih =>
      rw [List.replicate_succ, glyphsAt, if_neg (fun h => h.2 rfl), ih]
      rfl

theorem exists_trimSpaces_append (s : Text) :
    ∃ n, s = s.trimSpaces ++ List.replicate n ' ' := by
  refine ⟨(s.reverse.takeWhile (· == ' ')).length, ?_⟩
  have hspaces : s.reverse.takeWhile (· == ' ') =
      List.replicate (s.reverse.takeWhile (· == ' ')).length ' ' := by
    refine List.eq_replicate_of_mem fun c hc => ?_
    have hall : (s.reverse.takeWhile (· == ' ')).all (· == ' ') = true := List.all_takeWhile
    exact eq_of_beq (List.all_eq_true.1 hall c hc)
  have hsplit := congrArg List.reverse
    (List.takeWhile_append_dropWhile (p := (· == ' ')) (l := s.reverse))
  rw [List.reverse_append, List.reverse_reverse, hspaces, List.reverse_replicate] at hsplit
  exact hsplit.symm

theorem glyphsAt_trimSpaces (s : Text) :
    glyphsAt w x col previous s.trimSpaces = glyphsAt w x col previous s := by
  obtain ⟨n, hn⟩ := exists_trimSpaces_append s
  conv => rhs; rw [hn]
  rw [glyphsAt_append, glyphsAt_spaces, List.append_nil]

theorem trimSpaces_eq_self {c : Char} (hc : c ≠ ' ') (s : Text) :
    trimSpaces (s ++ [c]) = s ++ [c] := by
  rw [trimSpaces, List.reverse_append, List.reverse_singleton, List.singleton_append,
    List.dropWhile_cons_of_neg (by simpa using hc), List.reverse_cons, List.reverse_reverse]

end Text

/-- Characters that take one cell each, whatever stands before them. -/
structure UnitChar (w : CellWidth) (c : Char) : Prop where
  width : w c = 1
  not_tab : c ≠ '\t'
  alone : ¬(c = zeroWidthJoiner ∨ c = variationSelector16 ∨ isSkinTone c = true)

def UnitText (w : CellWidth) (s : Text) : Prop := ∀ c ∈ s, UnitChar w c

section Unit

variable {w : CellWidth} {x col tab : Int} {previous : Option Char}

theorem UnitChar.advance_eq {c : Char} (h : UnitChar w c)
    (hprevious : previous ≠ some zeroWidthJoiner) : advance w tab col previous c = col + 1 := by
  rw [advance, if_neg h.not_tab, charWidth, if_neg h.alone, if_neg hprevious, h.width]
  rfl

theorem UnitChar.ne_joiner {c : Char} (h : UnitChar w c) : some c ≠ some zeroWidthJoiner :=
  fun heq => h.alone (.inl (Option.some.inj heq))

theorem UnitText.append {a b : Text} (ha : UnitText w a) (hb : UnitText w b) :
    UnitText w (a ++ b) := by
  intro c hc
  exact (List.mem_append.1 hc).elim (ha c) (hb c)

theorem UnitText.replicate {c : Char} (hc : UnitChar w c) (n : Nat) :
    UnitText w (List.replicate n c) := by
  intro d hd
  rw [List.eq_of_mem_replicate hd]
  exact hc

theorem UnitText.columnAfter_eq {s : Text} (h : UnitText w s)
    (hprevious : previous ≠ some zeroWidthJoiner) :
    columnAfter w tab col previous s = col + s.length := by
  induction s generalizing col previous with
  | nil => simp
  | cons c s ih =>
      obtain ⟨hc, hs⟩ := List.forall_mem_cons.1 h
      rw [columnAfter_cons, hc.advance_eq hprevious, ih hs hc.ne_joiner, List.length_cons]
      omega

theorem UnitText.width_eq {s : Text} (h : UnitText w s) : s.width w = s.length := by
  have hnone : none ≠ some zeroWidthJoiner := fun heq => by cases heq
  rw [Text.width, displayWidth, h.columnAfter_eq hnone]
  omega

theorem UnitText.glyphsAt_of_le {s : Text} (h : UnitText w s)
    (hprevious : previous ≠ some zeroWidthJoiner) (hx : col + s.length ≤ x) :
    Text.glyphsAt w x col previous s = [] := by
  induction s generalizing col previous with
  | nil => rfl
  | cons c s ih =>
      obtain ⟨hc, hs⟩ := List.forall_mem_cons.1 h
      rw [List.length_cons] at hx
      rw [Text.glyphsAt, if_neg (by omega), hc.advance_eq hprevious,
        ih hs hc.ne_joiner (by omega)]
      rfl

theorem UnitText.glyphsAt_replicate {c : Char} (hc : UnitChar w c) (hspace : c ≠ ' ')
    (hprevious : previous ≠ some zeroWidthJoiner) (n : Nat) :
    Text.glyphsAt w x col previous (List.replicate n c) =
      if col ≤ x ∧ x < col + n then [c] else [] := by
  induction n generalizing col previous with
  | zero => rw [if_neg (by omega)]; rfl
  | succ n ih =>
      rw [List.replicate_succ, Text.glyphsAt, hc.advance_eq hprevious, ih hc.ne_joiner]
      by_cases hx : col = x
      · rw [if_pos ⟨hx, hspace⟩, if_neg (by omega), if_pos (by omega)]
        rfl
      · rw [if_neg (fun h => hx h.1)]
        by_cases hin : col ≤ x ∧ x < col + (n + 1 : Nat)
        · rw [if_pos (by omega), if_pos hin]
          rfl
        · rw [if_neg (by omega), if_neg hin]
          rfl

end Unit

namespace Segment

def total (w : CellWidth) (segs : List Segment) : Int :=
  segs.foldr (fun seg total => seg.width w + total) 0

/-- The characters, spaces apart, that begin at a cell, with their styles. -/
def glyphs (w : CellWidth) : Int → List Segment → List (Char × Option Style)
  | _, [] => []
  | x, seg :: rest =>
    (Text.glyphsAt w x 0 none seg.text).map (·, seg.style) ++ glyphs w (x - seg.width w) rest

/-- The cells of the caret runs when the segments are written at `col`. -/
def carets (w : CellWidth) : Int → List Segment → List Interval
  | _, [] => []
  | col, seg :: rest =>
    (if seg.caret then [⟨col, col + seg.width w⟩] else []) ++ carets w (col + seg.width w) rest

variable (w : CellWidth) (x col : Int)

theorem total_nil : total w [] = 0 := rfl

theorem total_cons (seg : Segment) (segs : List Segment) :
    total w (seg :: segs) = seg.width w + total w segs := rfl

theorem total_append (a b : List Segment) : total w (a ++ b) = total w a + total w b := by
  induction a with
  | nil => exact (Int.zero_add _).symm
  | cons seg a ih => rw [List.cons_append, total_cons, ih, total_cons, Int.add_assoc]

theorem glyphs_append (a b : List Segment) :
    glyphs w x (a ++ b) = glyphs w x a ++ glyphs w (x - total w a) b := by
  induction a generalizing x with
  | nil => rw [total_nil, Int.sub_zero]; rfl
  | cons seg a ih =>
      rw [List.cons_append, glyphs, ih, glyphs, List.append_assoc, total_cons, Int.sub_sub]

theorem carets_append (a b : List Segment) :
    carets w col (a ++ b) = carets w col a ++ carets w (col + total w a) b := by
  induction a generalizing col with
  | nil => rw [total_nil, Int.add_zero]; rfl
  | cons seg a ih =>
      rw [List.cons_append, carets, ih, carets, List.append_assoc, total_cons, Int.add_assoc]

variable {w x}

theorem width_nonneg (seg : Segment) : 0 ≤ seg.width w := displayWidth_nonneg ..

theorem glyphs_of_neg {segs : List Segment} (h : x < 0) : glyphs w x segs = [] := by
  induction segs generalizing x with
  | nil => rfl
  | cons seg segs ih =>
      have hwidth := seg.width_nonneg (w := w)
      rw [glyphs, Text.glyphsAt_of_lt h, ih (by omega)]
      rfl

theorem carets_of_none {segs : List Segment} (h : ∀ seg ∈ segs, seg.caret = false) :
    carets w col segs = [] := by
  induction segs generalizing col with
  | nil => rfl
  | cons seg segs ih =>
      obtain ⟨hseg, hsegs⟩ := List.forall_mem_cons.1 h
      rw [carets, hseg, ih _ hsegs]
      rfl

theorem glyphs_trimLast (segs : List Segment) :
    glyphs w x (trimLast segs).reverse = glyphs w x segs.reverse := by
  induction segs generalizing x with
  | nil => rfl
  | cons seg segs ih =>
      rw [List.reverse_cons, glyphs_append, trimLast]
      have hseg : ∀ y, glyphs w y [seg] =
          (Text.glyphsAt w y 0 none seg.text.trimSpaces).map (·, seg.style) := by
        intro y
        rw [Text.glyphsAt_trimSpaces, glyphs, glyphs, List.append_nil]
      rw [hseg]
      split
      case h_1 htrim =>
          rw [ih, htrim, Text.glyphsAt, List.map_nil, List.append_nil]
      case h_2 =>
          rw [List.reverse_cons, glyphs_append, glyphs, glyphs, List.append_nil]

/-- Trimming leaves caret runs alone that end in something other than a space. -/
theorem carets_trimLast (segs : List Segment)
    (h : ∀ seg ∈ segs, seg.caret = true → seg.text.trimSpaces = seg.text ∧ seg.text ≠ []) :
    carets w col (trimLast segs).reverse = carets w col segs.reverse := by
  induction segs generalizing col with
  | nil => rfl
  | cons seg segs ih =>
      obtain ⟨hseg, hsegs⟩ := List.forall_mem_cons.1 h
      obtain ⟨text, style, caret⟩ := seg
      rw [List.reverse_cons, carets_append, trimLast]
      cases caret with
      | true =>
          obtain ⟨hkept, hne⟩ := hseg rfl
          dsimp only at hkept hne ⊢
          rw [hkept]
          split
          case h_1 => exact absurd rfl hne
          case h_2 => rw [List.reverse_cons, carets_append]
      | false =>
          split
          case h_1 => rw [ih _ hsegs]; exact (List.append_nil _).symm
          case h_2 => rw [List.reverse_cons, carets_append]; rfl

theorem trimLast_concat {segs : List Segment} {seg : Segment} (h : seg.text.trimSpaces ≠ []) :
    (trimLast (segs ++ [seg]).reverse).reverse =
      segs ++ [{ seg with text := seg.text.trimSpaces }] := by
  rw [List.reverse_append, List.reverse_singleton, List.singleton_append, trimLast]
  split
  case h_1 hnil => exact absurd hnil h
  case h_2 => rw [List.reverse_cons, List.reverse_reverse]

theorem glyphs_run (text : Text) (style : Option Style) (caret : Bool) :
    glyphs w x (run text style caret) = (Text.glyphsAt w x 0 none text).map (·, style) := by
  rw [run]
  split
  case isTrue h => rw [h]; rfl
  case isFalse => rw [glyphs, glyphs, List.append_nil]

theorem total_run (text : Text) (style : Option Style) (caret : Bool) :
    total w (run text style caret) = text.width w := by
  rw [run]
  split
  case isTrue h => rw [h, Text.width_nil]; rfl
  case isFalse => exact Int.add_zero _

theorem glyphs_pad (cells : Int) : glyphs w x (pad cells) = [] := by
  rw [pad, glyphs_run, Text.spaces, Text.glyphsAt_spaces, List.map_nil]

/-- Segments that fill a number of cells, with nothing beginning beyond them. -/
structure Fills (w : CellWidth) (segs : List Segment) (cells : Int) : Prop where
  total_eq : total w segs = cells
  beyond : ∀ x, cells ≤ x → glyphs w x segs = []

theorem fills_nil : Fills w [] 0 := ⟨rfl, fun _ _ => rfl⟩

theorem Fills.append {a b : List Segment} {m n : Int} (ha : Fills w a m) (hb : Fills w b n)
    (hn : 0 ≤ n) : Fills w (a ++ b) (m + n) := by
  refine ⟨by rw [total_append, ha.total_eq, hb.total_eq], fun x hx => ?_⟩
  rw [glyphs_append, ha.beyond x (by omega), hb.beyond _ (by rw [ha.total_eq]; omega)]
  rfl

theorem fills_run {text : Text} (h : UnitText w text) (style : Option Style) (caret : Bool) :
    Fills w (run text style caret) text.length := by
  have hnone : none ≠ some zeroWidthJoiner := fun heq => by cases heq
  refine ⟨by rw [total_run, h.width_eq], fun x hx => ?_⟩
  rw [glyphs_run, h.glyphsAt_of_le hnone (by omega), List.map_nil]

end Segment

namespace Row

def glyphsAt (w : CellWidth) (row : Row) (x : Int) : List (Char × Option Style) :=
  Segment.glyphs w x row.segments

def carets (w : CellWidth) (row : Row) : List Interval := Segment.carets w 0 row.segments

theorem glyphsAt_trimmed (w : CellWidth) (row : Row) (x : Int) :
    row.trimmed.glyphsAt w x = row.glyphsAt w x := by
  have h := Segment.glyphs_trimLast (w := w) (x := x) row.segments.reverse
  rw [List.reverse_reverse] at h
  exact h

theorem carets_trimmed (w : CellWidth) (row : Row) (h : ∀ seg ∈ row.segments,
    seg.caret = true → seg.text.trimSpaces = seg.text ∧ seg.text ≠ []) :
    row.trimmed.carets w = row.carets w := by
  have hrow := Segment.carets_trimLast (w := w) 0 row.segments.reverse
    fun seg hseg => h seg (List.mem_reverse.1 hseg)
  rw [List.reverse_reverse] at hrow
  exact hrow

end Row
end Excerpt
