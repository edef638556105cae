import Excerpt.Unicode.Width
import Excerpt.Proofs.Cells
import Excerpt.Proofs.Trace

/-!
What stands in front of the source text, cell by cell. With a built-in charset in which every glyph
takes one cell, gutter and margin have the same width on all rows, and each leader slot is shown at
a cell of its own.
-/

namespace Excerpt

def Charset.glyphs (charset : Charset) : List Text :=
  [charset.verticalBar, charset.separator, charset.elision, charset.underliner,
    charset.horizontalBar, charset.topCorner, charset.bottomCorner, charset.leader,
    charset.crossing, charset.pending, charset.ellipsis, charset.footnote]

/-- A built-in charset on a terminal that gives its glyphs, digits and the space one cell each. -/
structure OneCell (w : CellWidth) (charset : Charset) : Prop where
  builtIn : charset = .unicode ∨ charset = .ascii
  space : w ' ' = 1
  digit : ∀ c : Char, c.isDigit = true → w c = 1
  glyph : ∀ text ∈ charset.glyphs, ∀ c ∈ text, w c = 1

theorem toNat_of_isDigit {c : Char} (hc : c.isDigit = true) : 48 ≤ c.toNat ∧ c.toNat ≤ 57 := by
  rw [Char.isDigit, Bool.and_eq_true, decide_eq_true_eq, decide_eq_true_eq] at hc
  exact hc

namespace OneCell

variable {w : CellWidth} {charset : Charset}

/-- The widths of terminals are such. -/
theorem of_cellWidth (h : charset = .unicode ∨ charset = .ascii) :
    OneCell Unicode.cellWidth charset where
  builtIn := h
  space := Unicode.cellWidth_space
  digit c hc := by
    have hdigits : ∀ n ∈ List.range' 48 10,
        Unicode.zeroWidth.covers n = false ∧ Unicode.doubleWidth.covers n = false := by
      decide +kernel
    have hbounds := toNat_of_isDigit hc
    obtain ⟨hzero, hdouble⟩ := hdigits c.toNat (List.mem_range'_1.2 (by omega))
    rw [Unicode.cellWidth, hzero, hdouble]
    rfl
  glyph text htext c hc := by
    have hglyphs : charset.glyphs.all (·.all fun c => Unicode.cellWidth c == 1) = true := by
      rcases h with rfl | rfl
      · decide +kernel
      · decide +kernel
    exact eq_of_beq (List.all_eq_true.1 (List.all_eq_true.1 hglyphs text htext) c hc)

theorem unit_space (h : OneCell w charset) : UnitChar w ' ' := ⟨h.space, by decide, by decide⟩

theorem unit_digit (h : OneCell w charset) {c : Char} (hc : c.isDigit = true) : UnitChar w c := by
  have hbounds := toNat_of_isDigit hc
  refine ⟨h.digit c hc, ?_, ?_⟩
  · intro heq
    rw [heq] at hbounds
    exact absurd hbounds (by decide)
  · rintro (heq | heq | htone)
    · rw [heq] at hbounds
      exact absurd hbounds (by decide)
    · rw [heq] at hbounds
      exact absurd hbounds (by decide)
    · rw [isSkinTone, Bool.and_eq_true, decide_eq_true_eq, decide_eq_true_eq] at htone
      omega

/-- One character, which is seen and stands for itself. -/
def isGlyph : Text → Bool
  | [g] =>
    g != ' ' && g != '\t' && g != zeroWidthJoiner && g != variationSelector16 && !isSkinTone g
  | _ => false

theorem isGlyph_of_mem (h : OneCell w charset) : ∀ text ∈ charset.glyphs, isGlyph text = true := by
  rw [← List.all_eq_true]
  rcases h.builtIn with rfl | rfl
  · rfl
  · rfl

theorem glyph_eq (h : OneCell w charset) {text : Text} (htext : text ∈ charset.glyphs) :
    ∃ g, text = [g] ∧ g ≠ ' ' ∧ UnitChar w g := by
  have hglyph := h.isGlyph_of_mem text htext
  match text, htext, hglyph with
  | [g], htext, hglyph =>
    simp only [isGlyph, Bool.and_eq_true, bne_iff_ne, Bool.not_eq_true'] at hglyph
    obtain ⟨⟨⟨⟨hspace, htab⟩, hjoiner⟩, hselector⟩, htone⟩ := hglyph
    refine ⟨g, rfl, hspace, h.glyph [g] htext g List.mem_cons_self, htab, ?_⟩
    rw [htone]
    exact fun hor => hor.elim hjoiner fun hor => hor.elim hselector Bool.false_ne_true

end OneCell

namespace Segment

variable {w : CellWidth} {charset : Charset}

theorem fills_pad (h : OneCell w charset) {cells : Int} (hcells : 0 ≤ cells) :
    Fills w (pad cells) cells := by
  have hfills := fills_run (UnitText.replicate h.unit_space cells.toNat) none false
  rw [List.length_replicate, Int.toNat_of_nonneg hcells] at hfills
  exact hfills

theorem fills_glyph (h : OneCell w charset) {text : Text} (htext : text ∈ charset.glyphs)
    (style : Option Style) (caret : Bool) : Fills w (run text style caret) 1 := by
  obtain ⟨g, rfl, -, hunit⟩ := h.glyph_eq htext
  exact fills_run (fun c hc => List.mem_singleton.1 hc ▸ hunit) style caret

theorem glyphs_glyph (h : OneCell w charset) {text : Text} (htext : text ∈ charset.glyphs)
    (style : Option Style) (caret : Bool) :
    glyphs w 0 (run text style caret) = text.map (·, style) := by
  obtain ⟨g, rfl, hspace, -⟩ := h.glyph_eq htext
  rw [glyphs_run, Text.glyphsAt, if_pos ⟨rfl, hspace⟩]
  rfl

/-- The slots of a margin stand side by side, two cells each. -/
theorem fills_slots {cell : Nat → List Segment} (hcell : ∀ slot, Fills w (cell slot) 2)
    (count : Nat) : Fills w ((List.range count).reverse.flatMap cell) (2 * count) := by
  induction count with
  | zero => exact fills_nil
  | succ count ih =>
      rw [List.range_succ, List.reverse_append, List.reverse_singleton, List.singleton_append,
        List.flatMap_cons]
      have hfills := (hcell count).append ih (by omega)
      rwa [show (2 : Int) + 2 * count = 2 * (count + 1 : Nat) by omega] at hfills

theorem glyphs_slots {cell : Nat → List Segment} (hcell : ∀ slot, Fills w (cell slot) 2)
    {count slot : Nat} (h : slot < count) (rest : List Segment) :
    glyphs w (2 * (count - 1 - slot)) ((List.range count).reverse.flatMap cell ++ rest) =
      glyphs w 0 (cell slot) := by
  induction count with
  | zero => exact absurd h (Nat.not_lt_zero _)
  | succ count ih =>
      rw [List.range_succ, List.reverse_append, List.reverse_singleton, List.singleton_append,
        List.flatMap_cons, List.append_assoc, glyphs_append, (hcell count).total_eq]
      rcases Nat.lt_succ_iff_lt_or_eq.1 h with hlt | rfl
      · rw [(hcell count).beyond _ (by omega), List.nil_append, ← ih hlt]
        congr 1
        omega
      · rw [@glyphs_of_neg w _ (_ ++ rest) (by omega), List.append_nil]
        congr 1
        omega

end Segment

theorem toList_toString (n : Nat) : (toString n).toList = Nat.toDigits 10 n := by
  rw [Nat.toString_eq_ofList_toDigits, String.toList_ofList]

theorem isDigit_of_mem_toString {n : Nat} {ch : Char} (h : ch ∈ (toString n).toList) :
    ch.isDigit = true := by
  rw [toList_toString] at h
  exact Nat.isDigit_of_mem_toDigits (by decide) (by decide) h

theorem length_toString_mono {a b : Nat} (h : a ≤ b) :
    (toString a).length ≤ (toString b).length := by
  rw [← String.length_toList, ← String.length_toList, toList_toString, toList_toString]
  have hpos : 0 < (Nat.toDigits 10 b).length := Nat.length_toDigits_pos
  rw [Nat.length_toDigits_le_iff (by decide) hpos]
  exact Nat.lt_of_le_of_lt h ((Nat.length_toDigits_le_iff (by decide) hpos).1 (Nat.le_refl _))

namespace Layout

variable {config : Config} {source : Source} {placed : List PlacedLabel}

theorem exists_getLast_shownRanges
    (hplaced : ∀ lab ∈ placed, lab.span.Within source.lineCount) {range : LineRange}
    (h : range ∈ shownRanges config source placed) :
    ∃ last, (shownRanges config source placed).getLast? = some last ∧
      range.last ≤ last.last ∧ 0 ≤ last.last := by
  have hwithin := @shownRanges_within config source placed hplaced
  have hapart := groupLines_apart (placed.map lineRange) source.lineCount config.context config.gap
  have hgap := config.gap_nonneg
  rw [← shownRanges] at hapart
  rcases List.eq_nil_or_concat (shownRanges config source placed) with hnil | ⟨init, last, hlast⟩
  · rw [hnil] at h
    exact absurd h List.not_mem_nil
  · rw [List.concat_eq_append] at hlast
    rw [hlast] at h hapart hwithin ⊢
    obtain ⟨hfirst, hrising, -⟩ := hwithin last
      (List.mem_append_right _ (List.mem_singleton_self _))
    refine ⟨last, List.getLast?_concat, ?_, by omega⟩
    rcases List.mem_append.1 h with hinit | hsingle
    · have hbefore := (List.pairwise_append.1 hapart).2.2 range hinit last
        (List.mem_singleton_self last)
      omega
    · exact Int.le_of_eq (by rw [List.mem_singleton.1 hsingle])

/-- The numbers of shown lines fit in the gutter. -/
theorem digits_le_numberWidth {w : CellWidth}
    (hplaced : ∀ lab ∈ placed, lab.span.Within source.lineCount) (title : Text)
    {line : LineLayout} (h : line ∈ (ofPlaced w config title source placed).lines) :
    (toString (line.number + 1)).length ≤ (ofPlaced w config title source placed).numberWidth := by
  obtain ⟨range, hrange, number, hnumber, rfl⟩ := exists_number_of_mem_lines h
  have hle := ((mem_lineNumbers (shownRanges_within hplaced range hrange).1).1 hnumber).2
  obtain ⟨last, hlast, hbelow, hnonneg⟩ := exists_getLast_shownRanges hplaced hrange
  have hcast : last.last + 1 = ((last.last.toNat + 1 : Nat) : Int) := by omega
  have hwidth : (ofPlaced w config title source placed).numberWidth =
      (toString (last.last.toNat + 1)).length := by
    simp only [ofPlaced, hlast, Option.map_some, Option.getD_some]
    rw [hcast]
    rfl
  rw [hwidth]
  exact length_toString_mono (show number + 1 ≤ _ by omega)

end Layout

namespace Canvas

variable {c : Canvas} (h : OneCell c.cells c.charset)

open Segment

include h

theorem fills_glyphGutter {text : Text} (htext : text ∈ c.charset.glyphs) :
    Fills c.cells (c.glyphGutter text) (c.layout.numberWidth + 3) := by
  have hfills := ((fills_pad h (show 0 ≤ (c.layout.numberWidth : Int) + 1 by omega)).append
    (fills_glyph h htext (some c.styles.leftColumn) false) (by decide)).append
      (fills_pad h (show 0 ≤ (1 : Int) by decide)) (by decide)
  rwa [Int.add_assoc, Int.add_assoc] at hfills

theorem fills_numberGutter {number : Nat}
    (hwidth : (toString (number + 1)).length ≤ c.layout.numberWidth) :
    Fills c.cells (c.numberGutter number) (c.layout.numberWidth + 3) := by
  have hdigits : UnitText c.cells (toString (number + 1)).toList := by
    intro d hd
    rw [toList_toString] at hd
    exact h.unit_digit (Nat.isDigit_of_mem_toDigits (by decide) (by decide) hd)
  have htext : UnitText c.cells (alignRight c.layout.numberWidth (number + 1)) :=
    (UnitText.replicate h.unit_space _).append hdigits
  have hlength : (alignRight c.layout.numberWidth (number + 1)).length = c.layout.numberWidth := by
    simp only [alignRight, List.length_append, Text.length_spaces, String.length_toList]
    omega
  have hbar : c.charset.verticalBar ∈ c.charset.glyphs := List.mem_cons_self ..
  have hpad := fills_pad h (show 0 ≤ (1 : Int) by decide)
  have hfills := (((fills_run htext (some c.styles.leftColumn) false).append hpad
    (by decide)).append (fills_glyph h hbar (some c.styles.leftColumn) false) (by decide)).append
      hpad (by decide)
  rwa [hlength, Int.add_assoc, Int.add_assoc] at hfills

theorem fills_leaderCell (active : ActiveLeaders) (slot : Nat) :
    Fills c.cells (c.leaderCell active slot) 2 := by
  rw [leaderCell]
  cases active.held slot with
  | none => exact fills_pad h (by decide)
  | some held =>
      exact (fills_glyph h (by simp [Charset.glyphs]) _ false).append (fills_pad h (by decide))
        (by decide)

theorem fills_connectorCell (active : ActiveLeaders) (marker : Leader) {corner : Text}
    (hcorner : corner ∈ c.charset.glyphs) (slot : Nat) :
    Fills c.cells (c.connectorCell active marker corner slot) 2 := by
  have hbar : Fills c.cells (run c.charset.horizontalBar (some (c.multiStyle marker))) 1 :=
    fills_glyph h (by simp [Charset.glyphs]) _ false
  simp only [connectorCell]
  split
  · exact fills_leaderCell h active slot
  · split
    · exact (fills_glyph h hcorner _ false).append hbar (by decide)
    · cases active.held slot with
      | none => exact hbar.append hbar (by decide)
      | some held =>
          exact (fills_glyph h (by simp [Charset.glyphs]) _ false).append hbar (by decide)

omit h

def mark (text : Text) (style : Style) : List (Char × Option Style) := text.map (·, some style)

/-- What a slot shows beside the source. -/
def leaderMark (c : Canvas) (active : ActiveLeaders) (slot : Nat) : List (Char × Option Style) :=
  match active.held slot with
  | none => []
  | some held => mark c.charset.leader (c.multiStyle held)

/-- What a slot shows beside a marker: further away a leader as usual, in the marker's own slot its
corner, nearer to the text a bar or the crossing of a leader and a bar. -/
def connectorMark (c : Canvas) (active : ActiveLeaders) (marker : Leader) (corner : Text)
    (slot : Nat) : List (Char × Option Style) :=
  if marker.slot < slot then c.leaderMark active slot
  else if slot = marker.slot then mark corner (c.multiStyle marker)
  else
    match active.held slot with
    | none => mark c.charset.horizontalBar (c.multiStyle marker)
    | some held => mark c.charset.crossing (c.multiStyle held)

def slotMark (c : Canvas) : View → Nat → List (Char × Option Style)
  | .source _ alive, slot | .underline alive, slot | .text alive, slot
  | .elision alive, slot => c.leaderMark alive slot
  | .top lead alive, slot => c.connectorMark alive lead c.charset.topCorner slot
  | .bottom lead alive, slot => c.connectorMark alive lead c.charset.bottomCorner slot

/-- The cell of a slot. -/
def slotCell (c : Canvas) (slot : Nat) : Int :=
  c.layout.numberWidth + 3 + 2 * (c.layout.slotCount - 1 - slot)

include h

theorem glyphs_leaderCell (active : ActiveLeaders) (slot : Nat) :
    glyphs c.cells 0 (c.leaderCell active slot) = c.leaderMark active slot := by
  rw [leaderCell, leaderMark]
  cases active.held slot with
  | none => exact glyphs_pad 2
  | some held =>
      dsimp only
      rw [glyphs_append, glyphs_pad, List.append_nil,
        glyphs_glyph h (by simp [Charset.glyphs]) _ false]
      rfl

theorem glyphs_glyph_bar {text : Text} (htext : text ∈ c.charset.glyphs) (style other : Style) :
    glyphs c.cells 0 (run text (some style) ++ run c.charset.horizontalBar (some other)) =
      mark text style := by
  rw [glyphs_append, (fills_glyph h htext (some style) false).total_eq,
    glyphs_glyph h htext (some style) false, @glyphs_of_neg _ (0 - 1) _ (by decide),
    List.append_nil]
  rfl

theorem glyphs_connectorCell (active : ActiveLeaders) (marker : Leader) {corner : Text}
    (hcorner : corner ∈ c.charset.glyphs) (slot : Nat) :
    glyphs c.cells 0 (c.connectorCell active marker corner slot) =
      c.connectorMark active marker corner slot := by
  simp only [connectorCell, connectorMark]
  split
  · exact glyphs_leaderCell h active slot
  · split
    · exact glyphs_glyph_bar h hcorner _ _
    · cases active.held slot with
      | none => exact glyphs_glyph_bar h (by simp [Charset.glyphs]) _ _
      | some held => exact glyphs_glyph_bar h (by simp [Charset.glyphs]) _ _

omit h

/-- Behind a gutter, a slot is found at its cell, whatever follows the margin. -/
theorem glyphs_slotCell {gutter : List Segment}
    (hgutter : Fills c.cells gutter (c.layout.numberWidth + 3)) {cell : Nat → List Segment}
    (hcell : ∀ slot, Fills c.cells (cell slot) 2) {slot : Nat} (hslot : slot < c.layout.slotCount)
    (rest : List Segment) :
    glyphs c.cells (c.slotCell slot) (gutter ++ (c.slots.flatMap cell ++ rest)) =
      glyphs c.cells 0 (cell slot) := by
  have hx : c.slotCell slot - (c.layout.numberWidth + 3) =
      2 * ((c.layout.slotCount : Int) - 1 - slot) := by
    rw [slotCell]
    omega
  rw [glyphs_append, hgutter.beyond _ (by rw [slotCell]; omega), hgutter.total_eq, hx,
    List.nil_append, slots, glyphs_slots hcell hslot]

include h

theorem glyphs_connector_slotCell (active : ActiveLeaders) (marker : Leader) {corner : Text}
    (hcorner : corner ∈ c.charset.glyphs) (col : Int) {slot : Nat}
    (hslot : slot < c.layout.slotCount) (rest : List Segment) :
    glyphs c.cells (c.slotCell slot) (c.connector active marker corner col ++ rest) =
      c.connectorMark active marker corner slot := by
  have hseparator : c.charset.separator ∈ c.charset.glyphs := by simp [Charset.glyphs]
  simp only [connector, List.append_assoc, connectorMargin]
  rw [glyphs_slotCell (fills_glyphGutter h hseparator)
    (fills_connectorCell h active marker hcorner) hslot]
  exact glyphs_connectorCell h active marker hcorner slot

theorem glyphs_front {view : View} (hwidth : ∀ number alive, view = .source number alive →
      (toString (number + 1)).length ≤ c.layout.numberWidth)
    {slot : Nat} (hslot : slot < c.layout.slotCount) (rest : List Segment) :
    glyphs c.cells (c.slotCell slot) (c.front view ++ rest) = c.slotMark view slot := by
  have hseparator : c.charset.separator ∈ c.charset.glyphs := by simp [Charset.glyphs]
  cases view with
  | source number alive =>
      rw [front, List.append_assoc, margin, glyphs_slotCell
        (fills_numberGutter h (hwidth number alive rfl)) (fills_leaderCell h alive) hslot]
      exact glyphs_leaderCell h alive slot
  | underline alive | text alive =>
      rw [front, annotation, List.append_assoc, margin, glyphs_slotCell
        (fills_glyphGutter h hseparator) (fills_leaderCell h alive) hslot]
      exact glyphs_leaderCell h alive slot
  | top lead alive =>
      exact glyphs_connector_slotCell h alive lead (by simp [Charset.glyphs]) _ hslot rest
  | bottom lead alive =>
      exact glyphs_connector_slotCell h alive lead (by simp [Charset.glyphs]) _ hslot rest
  | elision alive =>
      rw [front, List.append_assoc, margin, glyphs_slotCell
        (fills_glyphGutter h (by simp [Charset.glyphs])) (fills_leaderCell h alive) hslot]
      exact glyphs_leaderCell h alive slot

theorem repeated_glyph {text : Text} (htext : text ∈ c.charset.glyphs) (times : Int) :
    ∃ g, text = [g] ∧ g ≠ ' ' ∧ UnitChar c.cells g ∧
      repeated text times = List.replicate times.toNat g := by
  obtain ⟨g, rfl, hspace, hunit⟩ := h.glyph_eq htext
  exact ⟨g, rfl, hspace, hunit, List.flatten_replicate_singleton⟩

theorem fills_repeated {text : Text} (htext : text ∈ c.charset.glyphs) {times : Int}
    (htimes : 0 ≤ times) (style : Option Style) (caret : Bool) :
    Fills c.cells (run (repeated text times) style caret) times := by
  obtain ⟨g, -, -, hunit, hrepeated⟩ := repeated_glyph h htext times
  have hfills := fills_run (UnitText.replicate hunit times.toNat) style caret
  rw [List.length_replicate, Int.toNat_of_nonneg htimes] at hfills
  rw [hrepeated]
  exact hfills

theorem trimSpaces_of_mem_run {text : Text} (htext : text ∈ c.charset.glyphs) {times : Int}
    {style : Option Style} {seg : Segment} (hseg : seg ∈ run (repeated text times) style true) :
    seg.text.trimSpaces = seg.text ∧ seg.text ≠ [] := by
  obtain ⟨g, -, hspace, -, hrepeated⟩ := repeated_glyph h htext times
  rw [run] at hseg
  split at hseg
  case isTrue => exact absurd hseg List.not_mem_nil
  case isFalse hne =>
      rw [List.mem_singleton.1 hseg]
      refine ⟨?_, hne⟩
      rw [hrepeated] at hne ⊢
      cases htimes : times.toNat with
      | zero =>
          rw [htimes] at hne
          exact absurd rfl hne
      | succ n =>
          rw [List.replicate_succ']
          exact Text.trimSpaces_eq_self hspace _

end Canvas
end Excerpt
