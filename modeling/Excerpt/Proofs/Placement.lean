import Excerpt.Layout
import Excerpt.Proofs.Columns
import Excerpt.Proofs.Results

/-!
Which spans have a place in a source, and what is reported of those that have none. A span that
fits gets lines of the source in rising order; of a list of labels the first misfit is named.
-/

namespace Excerpt

open LineIndex

theorem le_nextTabStop (col tab : Int) : col ≤ nextTabStop col tab := by
  by_cases htab : tab ≤ 0
  · exact Int.le_of_eq (by rw [nextTabStop, if_pos htab])
  · exact Int.le_of_lt (lt_nextTabStop col (by omega))

theorem le_columnAfter (w : CellWidth) (tab col : Int) (previous : Option Char) (s : Text) :
    col ≤ columnAfter w tab col previous s := by
  induction s generalizing col previous with
  | nil => exact Int.le_refl _
  | cons c s ih =>
      refine Int.le_trans ?_ (ih _ _)
      rw [advance]
      split
      · exact le_nextTabStop col tab
      · have := charWidth_nonneg w c previous
        omega

theorem displayWidth_nonneg (w : CellWidth) (tab start : Int) (s : Text) :
    0 ≤ displayWidth w tab start s := by
  have := le_columnAfter w tab start none s
  rw [displayWidth]
  omega

theorem displayWidth_le_of_isPrefix (w : CellWidth) (tab start : Int) {p q : Text} (h : p <+: q) :
    displayWidth w tab start p ≤ displayWidth w tab start q := by
  obtain ⟨t, rfl⟩ := h
  have := le_columnAfter w tab (columnAfter w tab start none p) (lastChar none p) t
  rw [displayWidth, displayWidth, columnAfter_append]
  omega

/-- An offset has the line feeds of the characters in front of its own above it. -/
theorem lineAt_ofText {s : Text} {offset : Nat} :
    (ofText s).lineAt offset = (Utf8.before offset s).count '\n' := by
  obtain ⟨q, hq, hle, hlt⟩ := Utf8.exists_before_append offset s
  generalize Utf8.before offset s = p at hq hle hlt ⊢
  subst hq
  rw [lineAt_eq_count, Utf8.encode_append, List.take_append, List.count_append,
    List.take_of_length_le hle, count_lineFeed_encode]
  suffices h : ((Utf8.encode q).take (offset - (Utf8.encode p).length)).count lineFeed = 0 by
    rw [h, Nat.add_zero]
  cases q with
  | nil => rw [Utf8.encode_nil, List.take_nil, List.count_nil]
  | cons c rest =>
      have hend := hlt c rest rfl
      rw [Utf8.encode_cons, List.take_append_of_le_length (by omega), List.count_eq_zero]
      intro hmem
      have hnat := Utf8.toNat_eq_of_mem_encodeChar (List.mem_of_mem_take hmem) (by decide)
      have hc : c = '\n' := Char.toNat_inj.1 hnat.symm
      have hlen : offset - (Utf8.encode p).length = 0 := by
        rw [hc] at hend
        change offset < _ + 1 at hend
        omega
      rw [hlen, List.take_zero] at hmem
      exact absurd hmem List.not_mem_nil

theorem count_before_mono {a b : Nat} (h : a ≤ b) (s : Text) (c : Char) :
    (Utf8.before a s).count c ≤ (Utf8.before b s).count c :=
  (Utf8.before_mono h s).sublist.count_le c

theorem lineOf_ofText (s : Text) {offset : Int} (hlow : 0 ≤ offset)
    (hhigh : offset ≤ (Utf8.encode s).length) :
    (ofText s).lineOf offset = .ok ((Utf8.before offset.toNat s).count '\n') := by
  have hcheck : (ofText s).check offset = .ok () := if_pos ⟨hlow, hhigh⟩
  simp only [lineOf, hcheck, lineAt_ofText]
  rfl

/-- A location without its columns: every offset of a text is on the line that the line feeds in
front of its character give. -/
theorem exists_locate_ofText (w : CellWidth) (tab : Int) (s : Text) {offset : Int}
    (hlow : 0 ≤ offset) (hhigh : offset ≤ (Utf8.encode s).length) :
    ∃ location, locate w tab (ofText s) offset = .ok location ∧ 0 ≤ location.col ∧
      location.line = (Utf8.before offset.toNat s).count '\n' := by
  obtain ⟨above, front, back, below, hbefore, -, hlocate⟩ := locate_ofText w tab s hlow hhigh
  exact ⟨_, hlocate, displayWidth_nonneg .., by rw [hbefore]⟩

theorem effectiveEnd_eq {index : LineIndex} {span : Span} {n : Nat} (startLine : Nat)
    (hle : span.start < span.stop) (hline : index.lineOf span.stop = .ok n) :
    effectiveEnd index startLine span =
      if startLine < n ∧ index.starts[n]?.map (fun (m : Nat) => (m : Int)) = some span.stop then
        match index.lineBounds? (n - 1 : Nat) with
        | none => .error .noSuchLine
        | some (_, stop) => .ok stop
      else .ok span.stop := by
  cases hstart : index.starts[n]? <;>
    simp only [effectiveEnd, hle, if_true, hline, ok_mapError, ok_bind, hstart] <;>
    rfl

/-- The end of a line without its terminator is an offset of that line. -/
theorem exists_lineBounds?_ofText {s : Text} {n : Nat} (h : n ≤ s.count '\n') :
    ∃ start stop : Nat, (ofText s).lineBounds? n = some (start, (stop : Int)) ∧
      stop ≤ (Utf8.encode s).length ∧ (Utf8.before stop s).count '\n' = n := by
  obtain ⟨above, line, below, hcut⟩ := LineCut.exists_of_le h
  obtain ⟨rest, hs⟩ := hcut.exists_append
  have hbefore : Utf8.before (Utf8.encode (above ++ line.dropReturn)).length s =
      above ++ line.dropReturn := by
    rw [hs]
    exact Utf8.before_length_encode _ _
  have hfeedless : '\n' ∉ line.dropReturn := fun hmem =>
    hcut.feedless (line.dropReturn_isPrefix.subset hmem)
  have hbounds := lineBounds?_ofText hcut
  rw [← List.length_append, ← Utf8.encode_append] at hbounds
  refine ⟨_, _, hbounds, ?_, ?_⟩
  · have hlen := congrArg (fun t => (Utf8.encode t).length) hs
    simp only [Utf8.encode_append, List.length_append] at hlen ⊢
    omega
  · rw [hbefore, List.count_append, hcut.number_eq, List.count_eq_zero.2 hfeedless, Nat.add_zero]

/-- The effective end of a span is an offset of the text on a line not above the first one. -/
theorem effectiveEnd_ofText {s : Text} {span : Span} (h : span.Fits (Utf8.encode s).length) :
    ∃ stop, effectiveEnd (ofText s) ((Utf8.before span.start.toNat s).count '\n') span =
        .ok stop ∧ 0 ≤ stop ∧ stop ≤ (Utf8.encode s).length ∧
      (Utf8.before span.start.toNat s).count '\n' ≤ (Utf8.before stop.toNat s).count '\n' := by
  obtain ⟨hlow, hle, hhigh⟩ := h
  have hrising := count_before_mono (show span.start.toNat ≤ span.stop.toNat by omega) s '\n'
  by_cases hempty : span.start < span.stop
  · have hline := lineOf_ofText s (show 0 ≤ span.stop by omega) hhigh
    generalize hn : (Utf8.before span.stop.toNat s).count '\n' = n at hline hrising
    by_cases hstart : (Utf8.before span.start.toNat s).count '\n' < n ∧
        (ofText s).starts[n]?.map (fun (m : Nat) => (m : Int)) = some span.stop
    · -- The span ends where a line starts, so it is taken to end with the line above.
      have hcount : n ≤ s.count '\n' := by
        rw [← hn]
        exact (Utf8.before_isPrefix _ s).sublist.count_le _
      obtain ⟨start, stop, hbounds, hstop, habove⟩ :=
        exists_lineBounds?_ofText (show n - 1 ≤ s.count '\n' by omega)
      refine ⟨stop, ?_, by omega, by omega, ?_⟩
      · rw [effectiveEnd_eq _ hempty hline, if_pos hstart]
        simp only [hbounds]
      · rw [Int.toNat_natCast, habove]
        omega
    · refine ⟨span.stop, ?_, by omega, hhigh, by omega⟩
      rw [effectiveEnd_eq _ hempty hline, if_neg hstart]
  · refine ⟨span.stop, ?_, by omega, hhigh, hrising⟩
    simp only [effectiveEnd, hempty, if_false]
    rfl

/-- A place in a source of `lineCount` lines. -/
structure ResolvedSpan.Within (r : ResolvedSpan) (lineCount : Nat) : Prop where
  rising : r.startLine ≤ r.endLine
  below : r.endLine < lineCount
  startCol_nonneg : 0 ≤ r.startCol

theorem resolveSpan_ok (w : CellWidth) (tab : Int) {s : Text} {span : Span}
    (h : span.Fits (Utf8.encode s).length) :
    ∃ r, resolveSpan w tab (ofText s) span = .ok r ∧ r.Within (ofText s).lineCount := by
  obtain ⟨stop, hstop, hlow, hhigh, hrising⟩ := effectiveEnd_ofText h
  obtain ⟨hstartlow, hle, hstophigh⟩ := h
  obtain ⟨first, hfirst, hcol, hfirstline⟩ :=
    exists_locate_ofText w tab s hstartlow (show span.start ≤ _ by omega)
  obtain ⟨last, hlast, -, hlastline⟩ := exists_locate_ofText w tab s hlow hhigh
  rw [← hfirstline] at hstop
  rw [← hfirstline, ← hlastline] at hrising
  have hbelow : last.line < (ofText s).lineCount := by
    rw [lineCount_ofText, hlastline]
    exact Nat.lt_succ_of_le ((Utf8.before_isPrefix _ s).sublist.count_le _)
  have hordered : ¬span.stop < span.start := by omega
  simp only [resolveSpan, hordered, if_false, hfirst, hstop, hlast, ok_mapError, ok_bind]
  split
  · exact ⟨_, rfl, Nat.le_refl _, Nat.lt_of_le_of_lt hrising hbelow, hcol⟩
  · exact ⟨_, rfl, hrising, hbelow, hcol⟩

theorem resolveSpan_reversed (w : CellWidth) (tab : Int) (index : LineIndex) {span : Span}
    (h : span.stop < span.start) : resolveSpan w tab index span = .error .reversed := by
  simp only [resolveSpan, h, if_true]
  rfl

/-- Of the two ends of a span the one that is out of bounds, the start if both are. -/
def Span.strayEnd (span : Span) (length : Nat) : Int :=
  if 0 ≤ span.start ∧ span.start ≤ length then span.stop else span.start

theorem resolveSpan_outOfBounds (w : CellWidth) (tab : Int) {s : Text} {span : Span}
    (hle : span.start ≤ span.stop) (h : ¬span.Fits (Utf8.encode s).length) :
    resolveSpan w tab (ofText s) span = .error (.unlocated (.outOfBounds
      ⟨span.strayEnd (Utf8.encode s).length, (Utf8.encode s).length⟩)) := by
  have hordered : ¬span.stop < span.start := by omega
  by_cases hstart : 0 ≤ span.start ∧ span.start ≤ (Utf8.encode s).length
  · obtain ⟨first, hfirst, -, hfirstline⟩ :=
      exists_locate_ofText w tab s hstart.1 hstart.2
    have hstop : ¬(0 ≤ span.stop ∧ span.stop ≤ (Utf8.encode s).length) :=
      fun hstop => h ⟨hstart.1, hle, hstop.2⟩
    have hlt : span.start < span.stop := by omega
    have hend : effectiveEnd (ofText s) first.line span =
        .error (.outOfBounds ⟨span.stop, (Utf8.encode s).length⟩) := by
      simp only [effectiveEnd, hlt, if_true, lineOf, check_error hstop]
      rfl
    simp only [resolveSpan, hordered, if_false, hfirst, ok_mapError, error_mapError, ok_bind, hend,
      Span.strayEnd, hstart, and_self, if_true]
    rfl
  · simp only [resolveSpan, hordered, if_false, locate_error w tab hstart, Span.strayEnd, hstart]
    rfl

/-- What is wrong with a span that does not fit a source of `length` bytes. -/
def Span.fault (span : Span) (length : Nat) : SpanFault :=
  if span.stop < span.start then .reversed else .outOfBounds ⟨span.strayEnd length, length⟩

/-- The report on the first label of a list whose span does not fit a source. -/
def FirstMisfit (labels : List Label) (length : Nat) (e : InvalidSpan) : Prop :=
  ∃ k label, labels[k]? = some label ∧ ¬label.span.Fits length ∧
    (∀ j < k, ∀ earlier, labels[j]? = some earlier → earlier.span.Fits length) ∧
    e = ⟨label.span, some k, label.span.fault length⟩

namespace Layout

variable (w : CellWidth) (tab : Int) {s : Text}

theorem placeLabels_cons_ok {label : Label} {r : ResolvedSpan} (rest : List Label) (position : Nat)
    (h : resolveSpan w tab (ofText s) label.span = .ok r) :
    placeLabels w tab (ofText s) position (label :: rest) =
      (placeLabels w tab (ofText s) (position + 1) rest).map (⟨position, label, r⟩ :: ·) := by
  simp only [placeLabels, h]

theorem placeLabels_cons_error {label : Label} (rest : List Label) (position : Nat)
    (h : ¬label.span.Fits (Utf8.encode s).length) :
    placeLabels w tab (ofText s) position (label :: rest) = .error (.invalidSpan
      ⟨label.span, some position, label.span.fault (Utf8.encode s).length⟩) := by
  by_cases hreversed : label.span.stop < label.span.start
  · simp only [placeLabels, resolveSpan_reversed w tab _ hreversed, Span.fault, hreversed, if_true]
  · simp only [placeLabels, resolveSpan_outOfBounds w tab (by omega) h, Span.fault, hreversed,
      if_false, RenderError.ofLocate]

/-- What is known of a placed label: its position, and that its span has been resolved. -/
structure Placed (index : LineIndex) (labels : List Label) (position : Nat) (lab : PlacedLabel) :
    Prop where
  label_eq : position ≤ lab.index ∧ labels[lab.index - position]? = some lab.label
  resolved : resolveSpan w tab index lab.label.span = .ok lab.span
  within : lab.span.Within index.lineCount

theorem placeLabels_ok {labels : List Label} (position : Nat)
    (h : ∀ label ∈ labels, label.span.Fits (Utf8.encode s).length) :
    ∃ placed, placeLabels w tab (ofText s) position labels = .ok placed ∧
      placed.map PlacedLabel.index = List.range' position labels.length ∧
      ∀ lab ∈ placed, Placed w tab (ofText s) labels position lab := by
  induction labels generalizing position with
  | nil => exact ⟨[], rfl, rfl, fun lab hlab => absurd hlab List.not_mem_nil⟩
  | cons label rest ih =>
      obtain ⟨hfits, hrest⟩ := List.forall_mem_cons.1 h
      obtain ⟨r, hr, hwithin⟩ := resolveSpan_ok w tab hfits
      obtain ⟨placed, hplaced, hindex, hall⟩ := ih (position + 1) hrest
      refine ⟨⟨position, label, r⟩ :: placed, ?_, ?_, List.forall_mem_cons.2 ⟨?_, ?_⟩⟩
      · rw [placeLabels_cons_ok w tab rest position hr, hplaced]
        rfl
      · rw [List.map_cons, hindex, List.length_cons, List.range'_succ]
      · refine ⟨⟨Nat.le_refl _, ?_⟩, hr, hwithin⟩
        rw [Nat.sub_self, List.getElem?_cons_zero]
      · intro lab hlab
        obtain ⟨⟨hle, hlabel⟩, hresolved, hinside⟩ := hall lab hlab
        refine ⟨⟨by omega, ?_⟩, hresolved, hinside⟩
        rw [show lab.index - position = lab.index - (position + 1) + 1 by omega,
          List.getElem?_cons_succ, hlabel]

theorem placeLabels_error {labels : List Label} (position : Nat)
    (h : ∃ label ∈ labels, ¬label.span.Fits (Utf8.encode s).length) :
    ∃ k label, labels[k]? = some label ∧ ¬label.span.Fits (Utf8.encode s).length ∧
      (∀ j < k, ∀ earlier, labels[j]? = some earlier →
        earlier.span.Fits (Utf8.encode s).length) ∧
      placeLabels w tab (ofText s) position labels = .error (.invalidSpan
        ⟨label.span, some (position + k), label.span.fault (Utf8.encode s).length⟩) := by
  induction labels generalizing position with
  | nil =>
      obtain ⟨label, hlabel, -⟩ := h
      exact absurd hlabel List.not_mem_nil
  | cons first rest ih =>
      by_cases hfits : first.span.Fits (Utf8.encode s).length
      · have hrest : ∃ label ∈ rest, ¬label.span.Fits (Utf8.encode s).length := by
          obtain ⟨label, hlabel, hmisfit⟩ := h
          rcases List.mem_cons.1 hlabel with rfl | hlabel
          · exact absurd hfits hmisfit
          · exact ⟨label, hlabel, hmisfit⟩
        obtain ⟨k, label, hk, hmisfit, hearlier, herror⟩ := ih (position + 1) hrest
        obtain ⟨r, hr, -⟩ := resolveSpan_ok w tab hfits
        refine ⟨k + 1, label, hk, hmisfit, ?_, ?_⟩
        · intro j hj earlier hearly
          cases j with
          | zero =>
              cases hearly
              exact hfits
          | succ j => exact hearlier j (by omega) earlier hearly
        · rw [placeLabels_cons_ok w tab rest position hr, herror, Nat.add_right_comm,
            Nat.add_assoc]
          rfl
      · refine ⟨0, first, rfl, hfits, fun j hj => absurd hj (Nat.not_lt_zero j), ?_⟩
        rw [placeLabels_cons_error w tab rest position hfits, Nat.add_zero]

theorem placeLabels_firstMisfit {labels : List Label}
    (h : ∃ label ∈ labels, ¬label.span.Fits (Utf8.encode s).length) :
    ∃ e, FirstMisfit labels (Utf8.encode s).length e ∧
      placeLabels w tab (ofText s) 0 labels = .error (.invalidSpan e) := by
  obtain ⟨k, label, hk, hmisfit, hearlier, herror⟩ := placeLabels_error w tab 0 h
  rw [Nat.zero_add] at herror
  exact ⟨_, ⟨k, label, hk, hmisfit, hearlier, rfl⟩, herror⟩

end Layout
end Excerpt
