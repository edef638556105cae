import Mathlib.Order.Bounds.Basic
import Excerpt.Proofs.Placement

/-!
Where an offset is located. Its line and its byte column name the last place at or in front of it
where a character begins, its display column measures what the line shows in front of that place,
and of two offsets the one further back is never located in front of the other one.
-/

namespace Excerpt

open LineIndex

namespace Utf8

/-- A character of the text begins at the offset, or the text ends there. -/
def IsBoundary (s : Text) (offset : Int) : Prop :=
  ∃ p, p <+: s ∧ offset = (encode p).length

/-- Beginnings of one text are compared by their bytes. -/
theorem isPrefix_of_length_encode_le {p q s : Text} (hp : p <+: s) (hq : q <+: s)
    (h : (encode p).length ≤ (encode q).length) : p <+: q := by
  rcases List.prefix_or_prefix_of_prefix hp hq with hpq | ⟨t, rfl⟩
  · exact hpq
  · rw [encode_append, List.length_append] at h
    by_cases ht : t = []
    · exact ⟨[], by rw [ht, List.append_nil, List.append_nil]⟩
    · have := length_encode_pos ht
      omega

theorem isGreatest_length_encode_before {s : Text} {offset : Int} (hlow : 0 ≤ offset) :
    IsGreatest {b | IsBoundary s b ∧ b ≤ offset} (encode (before offset.toNat s)).length := by
  constructor
  · have := length_encode_before_le offset.toNat s
    exact ⟨⟨_, before_isPrefix offset.toNat s, rfl⟩, by omega⟩
  · rintro b ⟨⟨p, ⟨q, rfl⟩, rfl⟩, hle⟩
    obtain ⟨t, ht⟩ := before_mono (show (encode p).length ≤ offset.toNat by omega) (p ++ q)
    rw [before_length_encode] at ht
    rw [← ht, encode_append, List.length_append]
    omega

end Utf8

/-- Of two places, each a line and a column, the first is not behind the second. -/
def InOrder (line : Nat) (col : Int) (line' : Nat) (col' : Int) : Prop :=
  line < line' ∨ line = line' ∧ col ≤ col'

/-- What a location says of an offset. It is on the line that the line feeds in front of it give;
the start of the line and the byte column make up the last boundary that is not behind it; and the
display column is the width of what the line, without its terminator, shows in front of that. -/
structure Located (w : CellWidth) (tab : Int) (s : Text) (offset : Int) (location : Location) :
    Prop where
  line_eq : location.line = ((Utf8.encode s).take offset.toNat).count lineFeed
  lineOf_eq : (ofText s).lineOf offset = .ok location.line
  boundary : ∃ start, (ofText s).starts[location.line]? = some start ∧
    IsGreatest {b | Utf8.IsBoundary s b ∧ b ≤ offset} (start + location.byteCol)
  column : ∃ text shown, (ofText s).line location.line = .ok text ∧ shown <+: text ∧
    ((Utf8.encode shown).length : Int) = min location.byteCol (Utf8.encode text).length ∧
    location.col = displayWidth w tab 0 shown

variable {w : CellWidth} {tab : Int} {s : Text} {offset other : Int} {location location' : Location}

theorem count_lineFeed_take (s : Text) (offset : Nat) :
    ((Utf8.encode s).take offset).count lineFeed = (Utf8.before offset s).count '\n' := by
  rw [← lineAt_eq_count, lineAt_ofText]

theorem exists_located (w : CellWidth) (tab : Int) (hlow : 0 ≤ offset)
    (hhigh : offset ≤ (Utf8.encode s).length) :
    ∃ location, locate w tab (ofText s) offset = .ok location ∧
      Located w tab s offset location := by
  obtain ⟨above, front, back, below, hbefore, hcut, hlocate⟩ := locate_ofText w tab s hlow hhigh
  refine ⟨_, hlocate, ?_, ?_, ⟨_, getElem?_starts hcut, ?_⟩, ⟨_, _, line_ofText hcut,
    take_isPrefix (List.prefix_append front back) (front ++ back).dropReturn_isPrefix, ?_, rfl⟩⟩
  · rw [count_lineFeed_take, hbefore]
  · rw [lineOf_ofText s hlow hhigh, hbefore]
  · have hgreatest := Utf8.isGreatest_length_encode_before (s := s) hlow
    rw [hbefore, Utf8.encode_append, List.length_append, Int.natCast_add] at hgreatest
    exact hgreatest
  · rw [length_encode_take (List.prefix_append front back) (front ++ back).dropReturn_isPrefix]
    dsimp only
    omega

theorem located_of_locate (h : locate w tab (ofText s) offset = .ok location) :
    0 ≤ offset ∧ offset ≤ (Utf8.encode s).length ∧ Located w tab s offset location := by
  by_cases hinside : 0 ≤ offset ∧ offset ≤ (Utf8.encode s).length
  · obtain ⟨found, hfound, hlocated⟩ := exists_located w tab hinside.1 hinside.2
    rw [hfound] at h
    exact ⟨hinside.1, hinside.2, Except.ok.inj h ▸ hlocated⟩
  · rw [locate_error w tab hinside] at h
    cases h

/-- What is in front of a place is no wider than what is in front of a place further right. -/
theorem Located.col_le_col (h : Located w tab s offset location)
    (h' : Located w tab s other location') (hline : location.line = location'.line)
    (hle : location.byteCol ≤ location'.byteCol) : location.col ≤ location'.col := by
  obtain ⟨text, shown, htext, hshown, hlength, hcol⟩ := h.column
  obtain ⟨text', shown', htext', hshown', hlength', hcol'⟩ := h'.column
  rw [← hline, htext] at htext'
  obtain rfl : text = text' := Except.ok.inj htext'
  rw [hcol, hcol']
  exact displayWidth_le_of_isPrefix w tab 0
    (Utf8.isPrefix_of_length_encode_le hshown hshown' (by omega))

theorem Located.col_le_width (h : Located w tab s offset location) {text : Text}
    (htext : (ofText s).line location.line = .ok text) :
    location.col ≤ displayWidth w tab 0 text := by
  obtain ⟨text', shown, htext', hshown, -, hcol⟩ := h.column
  rw [htext] at htext'
  obtain rfl : text = text' := Except.ok.inj htext'
  rw [hcol]
  exact displayWidth_le_of_isPrefix w tab 0 hshown

/-- The end of a line without its terminator is located on the line, behind all that it shows. -/
theorem exists_located_lineEnd (w : CellWidth) (tab : Int) {n : Nat} (h : n ≤ s.count '\n') :
    ∃ start stop text location, (ofText s).lineBounds? n = some (start, stop) ∧
      (ofText s).line n = .ok text ∧ locate w tab (ofText s) stop = .ok location ∧
      Located w tab s stop location ∧ location.line = n ∧
      location.col = displayWidth w tab 0 text := by
  obtain ⟨above, line, below, hcut⟩ := LineCut.exists_of_le h
  obtain ⟨rest, hs⟩ := hcut.exists_append
  obtain ⟨start, stop, hbounds, hinside, hcount⟩ := exists_lineBounds?_ofText h
  obtain ⟨location, hlocate, hlocated⟩ :=
    exists_located w tab (Int.natCast_nonneg stop) (Int.ofNat_le.2 hinside)
  have hline : location.line = n := by
    rw [hlocated.line_eq, Int.toNat_natCast, count_lineFeed_take, hcount]
  have htext := line_ofText hcut
  refine ⟨start, stop, _, location, hbounds, htext, hlocate, hlocated, hline, ?_⟩
  refine Int.le_antisymm (hlocated.col_le_width (hline ▸ htext)) ?_
  -- The end of the line is a boundary, so nothing the line shows is behind the location.
  have hstop : (stop : Int) = (Utf8.encode (above ++ line.dropReturn)).length := by
    rw [lineBounds?_ofText hcut, Option.some_inj, Prod.mk.injEq] at hbounds
    rw [← hbounds.2, Utf8.encode_append, List.length_append]
  obtain ⟨start', hstart', -, hgreatest⟩ := hlocated.boundary
  rw [hline, getElem?_starts hcut] at hstart'
  obtain rfl := Option.some.inj hstart'
  have hbehind := hgreatest ⟨⟨_, ⟨rest, hs.symm⟩, hstop⟩, Int.le_refl _⟩
  rw [hstop, Utf8.encode_append, List.length_append] at hbehind
  obtain ⟨text', shown, htext', hshown, hlength, hcol⟩ := hlocated.column
  rw [hline, htext] at htext'
  obtain rfl := Except.ok.inj htext'
  rw [hcol]
  exact displayWidth_le_of_isPrefix w tab 0
    (Utf8.isPrefix_of_length_encode_le List.prefix_rfl hshown (by omega))

theorem Located.inOrder (h : Located w tab s offset location)
    (h' : Located w tab s other location') (hle : offset ≤ other) :
    InOrder location.line location.byteCol location'.line location'.byteCol ∧
      InOrder location.line location.col location'.line location'.col := by
  have hlines : location.line ≤ location'.line := by
    rw [h.line_eq, h'.line_eq]
    exact ((List.take_prefix_take_left (by omega)).sublist).count_le lineFeed
  rcases Nat.lt_or_eq_of_le hlines with hlt | hline
  · exact ⟨.inl hlt, .inl hlt⟩
  · obtain ⟨start, hstart, ⟨hboundary, hbehind⟩, -⟩ := h.boundary
    obtain ⟨start', hstart', -, hgreatest⟩ := h'.boundary
    rw [← hline, hstart] at hstart'
    obtain rfl : start = start' := Option.some.inj hstart'
    have hbytes := hgreatest ⟨hboundary, Int.le_trans hbehind hle⟩
    have hbyteCol : location.byteCol ≤ location'.byteCol := by omega
    exact ⟨.inr ⟨hline, hbyteCol⟩, .inr ⟨hline, h.col_le_col h' hline hbyteCol⟩⟩

/-- Locating fails for offsets outside the text and for no other reason. Every other offset has a
location that says the truth about it, and which does not come behind that of a further offset. -/
theorem offsets_located (w : CellWidth) (tab : Int) (s : Text) (offset : Int) :
    (∀ e, locate w tab (ofText s) offset = .error e ↔
      (offset < 0 ∨ (Utf8.encode s).length < offset) ∧
        e = .outOfBounds ⟨offset, (Utf8.encode s).length⟩) ∧
    (0 ≤ offset → offset ≤ (Utf8.encode s).length →
      ∃ location, locate w tab (ofText s) offset = .ok location ∧
        Located w tab s offset location) ∧
    ∀ other location location', offset ≤ other →
      locate w tab (ofText s) offset = .ok location →
      locate w tab (ofText s) other = .ok location' →
      InOrder location.line location.byteCol location'.line location'.byteCol ∧
        InOrder location.line location.col location'.line location'.col := by
  refine ⟨fun e => ⟨fun herror => ?_, fun ⟨houtside, he⟩ => ?_⟩, exists_located w tab,
    fun other location location' hle hlocate hlocate' => ?_⟩
  · by_cases hinside : 0 ≤ offset ∧ offset ≤ (Utf8.encode s).length
    · obtain ⟨location, hlocate, -⟩ := exists_located w tab hinside.1 hinside.2
      rw [hlocate] at herror
      cases herror
    · rw [locate_error w tab hinside] at herror
      exact ⟨by omega, (Except.error.inj herror).symm⟩
  · rw [he, locate_error w tab (by omega)]
  · obtain ⟨-, -, hlocated⟩ := located_of_locate hlocate
    obtain ⟨-, -, hlocated'⟩ := located_of_locate hlocate'
    exact hlocated.inOrder hlocated' hle

/-- A tab, a character of two bytes and a line that ends in a carriage return and a line feed. One
offset is inside the character, the other one between the two bytes of the line's end. -/
theorem offsets_located_terminated : ∃ location location',
    locate (fun _ => 1) 4 (ofText ['\t', 'é', '\r', '\n', 'b']) 2 = .ok location ∧
      location = ⟨0, 1, 4⟩ ∧
      locate (fun _ => 1) 4 (ofText ['\t', 'é', '\r', '\n', 'b']) 4 = .ok location' ∧
      location' = ⟨0, 4, 5⟩ ∧
      Located (fun _ => 1) 4 ['\t', 'é', '\r', '\n', 'b'] 2 location ∧
      InOrder location.line location.col location'.line location'.col := by
  obtain ⟨-, hlocated, horder⟩ :=
    offsets_located (fun _ => 1) 4 ['\t', 'é', '\r', '\n', 'b'] 2
  obtain ⟨location, hlocate, hsays⟩ := hlocated (by decide) (by decide)
  have hlocate' : locate (fun _ => 1) 4 (ofText ['\t', 'é', '\r', '\n', 'b']) 4 =
      .ok ⟨0, 4, 5⟩ := by decide +kernel
  refine ⟨location, _, hlocate, ?_, hlocate', rfl, hsays,
    (horder 4 _ _ (by decide) hlocate hlocate').2⟩
  have hfound : locate (fun _ => 1) 4 (ofText ['\t', 'é', '\r', '\n', 'b']) 2 =
      .ok ⟨0, 1, 4⟩ := by decide +kernel
  exact Except.ok.inj (hlocate.symm.trans hfound)

end Excerpt
