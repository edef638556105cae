import Excerpt.Proofs.Breaks
import Excerpt.Proofs.Characters

/-!
Texts of several lines. Titles, footnotes, items and expanded label texts are told line by line,
each line in rows of its own, so what they show never breaks a row. Only beside an underline or an
end marker of a compact excerpt a label text stands as a whole. It is kept from there by a line
feed, but not by any other boundary.
-/

namespace Excerpt

open Segment

namespace Text

/-- A text on one line. -/
def Unbroken (s : Text) : Prop := ∀ ch ∈ s, Unicode.isLineBoundary ch = false

theorem unbroken_nil : Unbroken [] := fun _ hch => absurd hch List.not_mem_nil

theorem unbroken_of_mem_splitLines {s line : Text} (h : line ∈ splitLines s) : Unbroken line := by
  induction s using splitLines.induct generalizing line with
  | case1 => exact absurd h List.not_mem_nil
  | case2 s ih =>
      rw [splitLines] at h
      rcases List.mem_cons.1 h with rfl | h
      · exact unbroken_nil
      · exact ih h
  | case3 c s hreturn hboundary ih =>
      rw [splitLines, if_pos hboundary] at h
      · rcases List.mem_cons.1 h with rfl | h
        · exact unbroken_nil
        · exact ih h
      · exact hreturn
  | case4 c s hreturn hboundary ih =>
      rw [splitLines, if_neg hboundary] at h
      · intro ch hch
        rcases mem_of_mem_consHead h hch with rfl | ⟨other, hother, hch⟩
        · exact Bool.eq_false_iff.2 hboundary
        · exact ih hother ch hch
      · exact hreturn

theorem unbroken_of_mem_lines {s line : Text} (h : line ∈ lines s) : Unbroken line := by
  cases hlines : splitLines s with
  | nil =>
      rw [lines, hlines] at h
      rw [List.mem_singleton.1 h]
      exact unbroken_nil
  | cons first rest =>
      rw [lines, hlines] at h
      exact unbroken_of_mem_splitLines (hlines ▸ h : line ∈ splitLines s)

theorem infix_joinWith (separator : Text) {texts : List Text} {text : Text} (h : text ∈ texts) :
    text <:+: joinWith separator texts := by
  induction texts with
  | nil => exact absurd h List.not_mem_nil
  | cons first texts ih =>
      cases texts with
      | nil =>
          rw [joinWith, List.intercalate_singleton, List.mem_singleton.1 h]
      | cons second texts =>
          rw [joinWith, List.intercalate_cons_cons]
          rcases List.mem_cons.1 h with rfl | h
          · rw [List.append_assoc]
            exact (List.prefix_append _ _).isInfix
          · exact (ih h).trans (List.suffix_append _ _).isInfix

theorem unbroken_joinWith {separator : Text} (hseparator : separator.Unbroken)
    {texts : List Text} (h : ∀ text ∈ texts, text.Unbroken) :
    (joinWith separator texts).Unbroken := by
  intro ch hch
  rcases mem_of_mem_joinWith hch with hch | ⟨text, htext, hch⟩
  · exact hseparator ch hch
  · exact h text htext ch hch

theorem flatten_pieces (p : Char → Bool) (s : Text) :
    (pieces p s).flatten = s.filter fun ch => !p ch := by
  have hhead : ∀ (c : Char) (rest : List Text), (consHead c rest).flatten = c :: rest.flatten := by
    intro c rest
    cases rest with
    | nil => rfl
    | cons first rest => rfl
  induction s with
  | nil => rfl
  | cons c s ih =>
      rw [pieces]
      split
      case isTrue hc => rw [List.filter_cons_of_neg (by simp [hc]), List.flatten_cons, ih]; rfl
      case isFalse hc => rw [List.filter_cons_of_pos (by simp [hc]), hhead, ih]

theorem flatten_words (s : Text) : (words s).flatten = ink s := by
  rw [words, List.flatten_filter_not_isEmpty, flatten_pieces]
  rfl

end Text

/-- What relates two lists relates every part of the one to a part of the other. -/
theorem exists_infix_of_forall₂ {α β : Type} {R : α → β → Prop} {as part : List α} {bs : List β}
    (h : List.Forall₂ R as bs) (hpart : part <:+: as) :
    ∃ cut, cut <:+: bs ∧ List.Forall₂ R part cut := by
  obtain ⟨front, back, rfl⟩ := hpart
  have hfront := List.forall₂_take (front ++ part).length h
  have hcut := List.forall₂_drop front.length hfront
  rw [List.take_left, List.drop_left] at hcut
  exact ⟨_, (List.drop_suffix _ _).isInfix.trans (List.take_prefix _ _).isInfix, hcut⟩

namespace Canvas

variable {c : Canvas}

/-- The pieces of a line: at least one, and all its characters but blanks. -/
def Wraps (line : Text) (pieces : List Text) : Prop :=
  pieces ≠ [] ∧ Text.ink pieces.flatten = line.ink

theorem wraps_wrapLine (available : Option Int) (line : Text) :
    Wraps line (c.wrapLine available line) := by
  refine ⟨c.wrapLine_ne_nil available line, ?_⟩
  cases available with
  | none => rw [wrapLine, List.flatten_singleton]
  | some available =>
      simp only [wrapLine]
      split
      · rw [List.flatten_singleton]
      · have hink : Text.ink (wrapLines c.cells available.toNat line).flatten = _ :=
          ink_fillLines (fun word => Text.isWord_of_mem_words) []
        rw [Text.flatten_words] at hink
        cases hwrap : wrapLines c.cells available.toNat line with
        | nil =>
            rw [hwrap] at hink
            exact hink
        | cons first rest =>
            rw [hwrap] at hink
            exact hink

theorem exists_wraps (text : Text) (col : Int) :
    ∃ parts, List.Forall₂ Wraps text.lines parts ∧ parts.flatten = c.wrap text col := by
  refine ⟨text.lines.map (c.wrapLine _), ?_, List.flatMap_def.symm⟩
  rw [List.forall₂_map_right_iff, List.forall₂_same]
  exact fun line _ => wraps_wrapLine _ line

theorem unbroken_of_mem_wrap {text piece : Text} {col : Int} (h : piece ∈ c.wrap text col) :
    piece.Unbroken := by
  obtain ⟨line, hline, hpiece⟩ := List.mem_flatMap.1 h
  intro ch hch
  rcases mem_of_mem_wrapLine hpiece hch with rfl | hch
  · rfl
  · exact Text.unbroken_of_mem_lines hline ch hch

/-! ### The pieces of texts in a script -/

theorem newline_not_mem_of_fitsInline {used : Int} {text : Text}
    (h : c.fitsInline used text = true) : '\n' ∉ text := by
  rw [fitsInline, Bool.and_eq_true, Bool.not_eq_true', List.contains_eq_mem,
    decide_eq_false_iff_not] at h
  exact h.1

section Pieces

variable {mode : Mode} {P : PlacedLabel × Text → Prop}

theorem forall_pieces_endsScript (hend : ∀ active lead, ∀ piece ∈ c.endTexts mode active lead,
      P (lead.toPlacedLabel, piece)) (active : ActiveLeaders) (leads : List Leader) :
    ∀ p ∈ (c.endsScript mode active leads).flatMap Note.pieces, P p := by
  induction leads generalizing active with
  | nil => exact fun p hp => absurd hp List.not_mem_nil
  | cons lead leads ih =>
      rw [endsScript, List.flatMap_append, Note.pieces_ending, List.forall_mem_append,
        List.forall_mem_map]
      exact ⟨hend active lead, ih _⟩

/-- What holds of the pieces on every rung and at every end holds of all pieces. -/
theorem forall_pieces_script
    (hrung : ∀ line active rung, ∀ note ∈ c.rungScript mode active line rung,
      ∀ p ∈ note.pieces, P p)
    (hend : ∀ active lead, ∀ piece ∈ c.endTexts mode active lead, P (lead.toPlacedLabel, piece)) :
    ∀ note ∈ c.script mode, ∀ p ∈ note.pieces, P p := by
  intro note hnote p hp
  have hmem : p ∈ (c.script mode).flatMap Note.pieces := List.mem_flatMap.2 ⟨note, hnote, hp⟩
  rw [flatMap_script _ _ rfl] at hmem
  obtain ⟨line, -, hmem⟩ := List.mem_flatMap.1 hmem
  rw [flatMap_lineScript _ _ (fun _ => rfl) (fun _ => rfl), List.mem_append] at hmem
  rcases hmem with hmem | hmem
  · obtain ⟨rung, -, hmem⟩ := List.mem_flatMap.1 hmem
    obtain ⟨note, hnote, hp⟩ := List.mem_flatMap.1 hmem
    exact hrung line _ rung note hnote p hp
  · exact forall_pieces_endsScript hend _ _ p hmem

end Pieces

theorem unbroken_of_mem_pieces :
    ∀ note ∈ c.script .expanded, ∀ p ∈ note.pieces, p.2.Unbroken := by
  refine forall_pieces_script (fun line active rung note hnote p hp => ?_)
    fun active lead piece hpiece => ?_
  · rcases List.mem_cons.1 hnote with rfl | hnote
    · exact absurd hp List.not_mem_nil
    · obtain ⟨lab, -, hnote⟩ := List.mem_flatMap.1 hnote
      obtain ⟨piece, hpiece, rfl⟩ := List.mem_map.1 hnote
      rw [List.mem_singleton.1 hp]
      exact unbroken_of_mem_wrap hpiece
  · by_cases htext : lead.message = []
    · rw [endTexts_silent htext] at hpiece
      exact absurd hpiece List.not_mem_nil
    · rw [endTexts_expanded htext] at hpiece
      exact unbroken_of_mem_wrap hpiece

/-- Compact, a text is told as a whole, and only if there is no line feed in it. -/
theorem whole_of_mem_pieces :
    ∀ note ∈ c.script .compact, ∀ p ∈ note.pieces, p.2 = p.1.message ∧ '\n' ∉ p.2 := by
  refine forall_pieces_script (fun line active rung note hnote p hp => ?_)
    fun active lead piece hpiece => ?_
  · simp only [rungScript] at hnote
    split at hnote
    · exact absurd hnote List.not_mem_nil
    · rw [List.mem_singleton.1 hnote, besideLast] at hp
      obtain ⟨lab, hlab, rfl⟩ := List.mem_map.1 hp
      refine ⟨rfl, ?_⟩
      split at hlab
      case isTrue hfits =>
          have hfeed := newline_not_mem_of_fitsInline hfits.2
          rw [fusedText_eq] at hfeed
          have hmessage : lab.message ∈ (withText _).map PlacedLabel.message :=
            List.mem_map_of_mem hlab
          exact fun hmem => hfeed ((Text.infix_joinWith _ hmessage).subset hmem)
      case isFalse => exact absurd hlab List.not_mem_nil
  · by_cases htext : lead.message = []
    · rw [endTexts_silent htext] at hpiece
      exact absurd hpiece List.not_mem_nil
    · rw [endTexts_compact htext] at hpiece
      split at hpiece
      case isTrue hfits =>
          rw [List.mem_singleton.1 hpiece]
          exact ⟨rfl, newline_not_mem_of_fitsInline hfits⟩
      case isFalse => exact absurd hpiece List.not_mem_nil

end Canvas

namespace Rendering

/-- A row that shows a text, all in front of it framing. -/
def ShowsText (config : Config) (text : Text) (row : Row) : Prop :=
  ∃ front style, MadeOf (Framing config) front ∧
    (row = ⟨row.kind, front ++ run text style⟩ ∨
      row = Row.trimmed ⟨row.kind, front ++ run text style⟩)

/-- A row that shows a text on one line. -/
def OneLine (config : Config) (row : Row) : Prop :=
  ∃ text : Text, text.Unbroken ∧ ShowsText config text row

/-- A row beside whose underline or end marker a label text stands as a whole, in a text without a
line feed. -/
def Inline (config : Config) (message : Text) (row : Row) : Prop :=
  (row.kind = .underline ∨ row.kind = .connector) ∧
    ∃ text, ShowsText config text row ∧ message <:+: text ∧ '\n' ∉ text

/-- Texts that are shown one below the other, in rows of certain kinds. -/
def Spread (config : Config) (all : List Row) (kinds : List RowKind) (texts : List Text) : Prop :=
  ∃ told, told <:+: all ∧ (∀ row ∈ told, row.kind ∈ kinds) ∧
    List.Forall₂ (ShowsText config) texts told

/-- How the text of a label is told. Expanded, the pieces of its lines are shown one below the
other; compact, its lines are, as an item, unless it is shown as a whole. -/
def Tells (config : Config) (all : List Row) (message : Text) : Mode → Prop
  | .expanded => ∃ parts, List.Forall₂ Canvas.Wraps message.lines parts ∧
      Spread config all [.connector, .text] parts.flatten
  | .compact => Spread config all [.item] message.lines ∨
      ∃ row ∈ all, Inline config message row

/-- Rows that tell texts line by line. Apart from those of the source and the header each shows a
text on one line, but for broken label texts that are shown as a whole in compact mode. -/
structure LineByLine (config : Config) (mode : Mode) (diagnostic : Diagnostic) (all : List Row) :
    Prop where
  rows : ∀ row ∈ all, row.kind = .source ∨ row.kind = .header ∨ OneLine config row ∨
    mode = .compact ∧ ∃ label ∈ diagnostic.labels, ¬label.message.Unbroken ∧
      Inline config label.message row
  title : Spread config all [.title] diagnostic.title.lines
  footnotes : ∀ footnote ∈ diagnostic.footnotes,
    Spread config all [.footnote] footnote.text.lines
  labels : ∀ label ∈ diagnostic.labels, label.message ≠ [] →
    Tells config all label.message mode

variable {w : CellWidth} {config : Config} {diagnostic : Diagnostic} {layout : Layout}
  {all part : List Row} {message : Text} {mode : Mode}

theorem framing_pad (cells : Int) : MadeOf (Framing config) (pad cells) :=
  madeOf_pad framing_space cells

theorem showsText_trimmed {front : List Segment} (h : MadeOf (Framing config) front)
    (kind : RowKind) (text : Text) (style : Option Style) :
    ShowsText config text (Row.trimmed ⟨kind, front ++ run text style⟩) :=
  ⟨front, style, h, .inr rfl⟩

theorem oneLine_blank : OneLine config ⟨.blank, []⟩ :=
  ⟨[], Text.unbroken_nil, [], none, madeOf_nil, .inl rfl⟩

theorem oneLine_of_lines {s : Text} {rows : List Row}
    (h : List.Forall₂ (ShowsText config) s.lines rows) : ∀ row ∈ rows, OneLine config row := by
  intro row hrow
  obtain ⟨line, hline, hshows⟩ := Canvas.exists_mem_of_forall₂ h row hrow
  exact ⟨line, Text.unbroken_of_mem_lines hline, hshows⟩

/-- A text with a line feed is never shown as a whole. -/
theorem Tells.spread_of_newline (h : Tells config all message .compact) (hfeed : '\n' ∈ message) :
    Spread config all [.item] message.lines := by
  refine h.resolve_right ?_
  rintro ⟨row, -, -, text, -, hwhole, hfeedless⟩
  exact hfeedless (hwhole.subset hfeed)

/-! ### Titles, footnotes and items -/

theorem showsText_titleRows (title : Text) :
    List.Forall₂ (ShowsText config) title.lines (titleRows title) := by
  rw [titleRows, List.forall₂_map_right_iff, List.forall₂_same]
  exact fun line _ => ⟨[], none, madeOf_nil, .inl rfl⟩

theorem showsText_footnoteRows (indent : Int) (footnote : Footnote) :
    List.Forall₂ (ShowsText config) footnote.text.lines
      (footnoteRows w config indent footnote) := by
  have hmarker : config.charset.footnote ∈ config.charset.glyphs := by simp [Charset.glyphs]
  simp only [footnoteRows]
  split
  case h_1 hlines => exact absurd hlines (Text.lines_ne_nil _)
  case h_2 first rest hlines =>
      rw [hlines]
      refine .cons (showsText_trimmed ?_ _ _ _) ?_
      · exact madeOf_append.2 ⟨madeOf_append.2 ⟨framing_pad _, framing_glyph hmarker _⟩,
          framing_pad 1⟩
      · rw [List.forall₂_map_right_iff, List.forall₂_same]
        exact fun line _ => showsText_trimmed (framing_pad _) _ _ _

theorem kind_of_mem_footnoteRows {indent : Int} {footnote : Footnote} :
    ∀ row ∈ footnoteRows w config indent footnote, row.kind = .footnote := by
  simp only [footnoteRows]
  split
  · exact fun row hrow => absurd hrow List.not_mem_nil
  · rw [List.forall_mem_cons, List.forall_mem_map]
    exact ⟨rfl, fun line _ => rfl⟩

theorem showsText_itemRows (lab : PlacedLabel) :
    List.Forall₂ (ShowsText config) lab.message.lines (Canvas.itemRows ⟨w, config, layout⟩ lab) ∧
      ∀ row ∈ Canvas.itemRows ⟨w, config, layout⟩ lab, row.kind = .item := by
  obtain ⟨-, first, rest, indent, hlines, hrows⟩ :=
    Canvas.itemizes_itemRows (c := ⟨w, config, layout⟩) lab
  rw [hlines, hrows, List.forall_mem_cons, List.forall_mem_map]
  refine ⟨.cons (showsText_trimmed (framing_itemFront lab) _ _ _) ?_, rfl, fun line _ => rfl⟩
  rw [List.forall₂_map_right_iff, List.forall₂_same]
  exact fun line _ => showsText_trimmed (framing_pad _) _ _ _

/-! ### Rows of an excerpt -/

theorem framing_of_ornament {ch : Char} (h : Canvas.Ornament ⟨w, config, layout⟩ ch) :
    Framing config ch := by
  rcases h with rfl | h
  · exact framing_space
  · exact .inr h

theorem showsText_of_writes {note : Note} {row : Row}
    (h : Canvas.Writes ⟨w, config, layout⟩ note row) :
    ShowsText config (Canvas.words ⟨w, config, layout⟩ note) row := by
  obtain ⟨alive, gap, style, hornate, rfl⟩ := h
  exact showsText_trimmed (fun seg hseg ch hch => framing_of_ornament (hornate seg hseg ch hch))
    _ _ _

theorem inline_of_mem_told {note : Note} (hnote : note ∈ Canvas.script ⟨w, config, layout⟩ .compact)
    {row : Row} (hwrites : Canvas.Writes ⟨w, config, layout⟩ note row) {lab : PlacedLabel}
    (hlab : lab ∈ note.told) : Inline config lab.message row := by
  have hkind : note.kind = .underline ∨ note.kind = .connector := by
    rcases Canvas.exists_of_told_script hnote hlab with ⟨-, -, -, -, -, rfl, -⟩ | ⟨-, -, rfl⟩
    · exact .inl rfl
    · exact .inr rfl
  have hother : note.kind ≠ .source := by
    rcases hkind with hkind | hkind <;> rw [hkind] <;> decide
  have hwords := Canvas.words_of_kind (c := ⟨w, config, layout⟩) hother
  have hwhole := Canvas.whole_of_mem_pieces note hnote
  obtain ⟨p, hp, rfl⟩ := List.mem_map.1 hlab
  refine ⟨Canvas.kind_of_writes hwrites ▸ hkind, _, showsText_of_writes hwrites, ?_, ?_⟩
  · rw [hwords, ← (hwhole p hp).1]
    exact Text.infix_joinWith _ (List.mem_map_of_mem hp)
  · rw [hwords]
    intro hfeed
    rcases Text.mem_of_mem_joinWith hfeed with hfeed | ⟨piece, hpiece, hfeed⟩
    · exact absurd hfeed (by decide)
    · obtain ⟨q, hq, rfl⟩ := List.mem_map.1 hpiece
      exact (hwhole q hq).2 hfeed

/-- Texts in a row are on one line if each of them is. -/
theorem oneLine_of_writes {note : Note} {row : Row}
    (hwrites : Canvas.Writes ⟨w, config, layout⟩ note row) (hkind : note.kind ≠ .source)
    (h : ∀ p ∈ note.pieces, p.2.Unbroken) : OneLine config row := by
  refine ⟨_, ?_, showsText_of_writes hwrites⟩
  rw [Canvas.words_of_kind hkind]
  refine Text.unbroken_joinWith ?_ (List.forall_mem_map.2 h)
  exact List.forall_mem_cons.2 ⟨rfl, List.forall_mem_singleton.2 rfl⟩

theorem oneLine_or_inline {note : Note} (hnote : note ∈ Canvas.script ⟨w, config, layout⟩ mode)
    (hkind : note.kind ≠ .source) {row : Row}
    (hwrites : Canvas.Writes ⟨w, config, layout⟩ note row) :
    OneLine config row ∨ mode = .compact ∧
      ∃ lab ∈ note.told, ¬lab.message.Unbroken ∧ Inline config lab.message row := by
  cases mode with
  | expanded =>
      exact .inl (oneLine_of_writes hwrites hkind (Canvas.unbroken_of_mem_pieces note hnote))
  | compact =>
      by_cases hbroken : ∃ p ∈ note.pieces, ¬p.2.Unbroken
      · obtain ⟨p, hp, hbreak⟩ := hbroken
        have htold : p.1 ∈ note.told := List.mem_map_of_mem hp
        rw [(Canvas.whole_of_mem_pieces note hnote p hp).1] at hbreak
        exact .inr ⟨rfl, p.1, htold, hbreak, inline_of_mem_told hnote hwrites htold⟩
      · refine .inl (oneLine_of_writes hwrites hkind fun p hp => ?_)
        exact not_not.1 fun hbreak => hbroken ⟨p, hp, hbreak⟩

/-- Rows that are drawn together for notes show their words together. -/
theorem spread_of_infix {notes : List Note} (h : notes <:+: Canvas.script ⟨w, config, layout⟩ mode)
    {kinds : List RowKind} (hkinds : ∀ note ∈ notes, note.kind ∈ kinds) :
    Spread config (Canvas.picture ⟨w, config, layout⟩ mode).rows kinds
      (notes.map (Canvas.words ⟨w, config, layout⟩)) := by
  obtain ⟨told, htold, hwrites⟩ := exists_infix_of_forall₂ (Canvas.writes_picture _ mode) h
  refine ⟨told, htold, fun row hrow => ?_, ?_⟩
  · obtain ⟨note, hnote, hwrites⟩ := Canvas.exists_mem_of_forall₂ hwrites row hrow
    rw [Canvas.kind_of_writes hwrites]
    exact hkinds note hnote
  · rw [List.forall₂_map_left_iff]
    exact hwrites.imp fun note row hwrites => showsText_of_writes hwrites

theorem Spread.mono {kinds : List RowKind} {texts : List Text}
    (h : Spread config part kinds texts) (hpart : part <:+: all) :
    Spread config all kinds texts := by
  obtain ⟨told, htold, hrest⟩ := h
  exact ⟨told, htold.trans hpart, hrest⟩

theorem Tells.mono (h : Tells config part message mode) (hpart : part <:+: all) :
    Tells config all message mode := by
  cases mode with
  | expanded =>
      obtain ⟨parts, hparts, hspread⟩ := h
      exact ⟨parts, hparts, hspread.mono hpart⟩
  | compact =>
      rcases h with hspread | ⟨row, hrow, hinline⟩
      · exact .inl (hspread.mono hpart)
      · exact .inr ⟨row, hpart.subset hrow, hinline⟩

theorem words_texts {c : Canvas} (lab : PlacedLabel) (texts : List Text) :
    (texts.map (Note.text lab)).map c.words = texts := by
  rw [List.map_map]
  exact List.map_id'' (fun text => Canvas.joinWith_singleton [',', ' '] text) texts

theorem words_ending {c : Canvas} (lead : Leader) {texts : List Text} (h : texts ≠ []) :
    (Note.ending lead texts).map c.words = texts := by
  cases texts with
  | nil => exact absurd rfl h
  | cons first rest =>
      exact congrArg₂ List.cons (Canvas.joinWith_singleton _ first) (words_texts _ rest)

theorem kinds_texts (lab : PlacedLabel) (texts : List Text) :
    ∀ note ∈ texts.map (Note.text lab), note.kind ∈ [RowKind.connector, .text] :=
  List.forall_mem_map.2 fun _ _ => List.mem_cons_of_mem _ List.mem_cons_self

theorem kinds_ending (lead : Leader) (texts : List Text) :
    ∀ note ∈ Note.ending lead texts, note.kind ∈ [RowKind.connector, .text] :=
  List.forall_mem_cons.2 ⟨List.mem_cons_self, kinds_texts _ _⟩

/-! ### Label texts -/

section OfPlaced

open Layout

variable {source : Source} {placed : List PlacedLabel}
  (hindex : (placed.map PlacedLabel.index).Nodup)
  (hwithin : ∀ lab ∈ placed, lab.span.Within source.lineCount) (title : Text)

include hindex hwithin

theorem tells_expanded {lab : PlacedLabel} (hlab : lab ∈ placed) (htext : lab.message ≠ []) :
    Tells config (Canvas.picture ⟨w, config, ofPlaced w config title source placed⟩ .expanded).rows
      lab.message .expanded := by
  have hspread : ∃ col, Spread config
      (Canvas.picture ⟨w, config, ofPlaced w config title source placed⟩ .expanded).rows
      [.connector, .text]
      (Canvas.wrap ⟨w, config, ofPlaced w config title source placed⟩ lab.message col) := by
    by_cases hmulti : lab.span.isMultiline = true
    · obtain ⟨lead, rfl, hpart⟩ :=
        @exists_ending_ofPlaced w config source placed hwithin title lab hlab htext hmulti
      have hrows := spread_of_infix hpart (kinds_ending lead _)
      rw [words_ending lead (Canvas.wrap_ne_nil _ _ _)] at hrows
      exact ⟨_, hrows⟩
    · obtain ⟨line, -, -, rung, -, others, -, hpart⟩ := @exists_below_ofPlaced w config source
        placed hindex hwithin title lab hlab htext (Bool.eq_false_iff.2 hmulti)
      have hrows := spread_of_infix ((List.suffix_append _ _).isInfix.trans
        ((List.suffix_cons _ _).isInfix.trans hpart)) (kinds_texts lab _)
      rw [words_texts] at hrows
      exact ⟨_, hrows⟩
  obtain ⟨col, hspread⟩ := hspread
  obtain ⟨parts, hparts, hflat⟩ := Canvas.exists_wraps
    (c := ⟨w, config, ofPlaced w config title source placed⟩) lab.message col
  exact ⟨parts, hparts, hflat ▸ hspread⟩

theorem tells_compact {lab : PlacedLabel} (hlab : lab ∈ placed) (htext : lab.message ≠ []) :
    let c : Canvas := ⟨w, config, ofPlaced w config title source placed⟩
    Tells config ((c.picture .compact).rows ++ c.items (c.picture .compact).deferred)
      lab.message .compact := by
  intro c
  have honce := (@tellsInPlaces_ofPlaced w config source placed hindex hwithin title).once
  rcases List.mem_append.1 (honce.symm.subset (mem_withText.2 ⟨hlab, htext⟩)) with htold | hitem
  · obtain ⟨note, hnote, htold⟩ := List.mem_flatMap.1 htold
    have hpart : [note] <:+: c.script .compact := by
      obtain ⟨front, back, hscript⟩ := List.append_of_mem hnote
      exact ⟨front, back, by rw [hscript, List.append_assoc]; rfl⟩
    obtain ⟨rows, hrows, hwrites⟩ :=
      exists_infix_of_forall₂ (Canvas.writes_picture c .compact) hpart
    cases hwrites with
    | cons hrow _ =>
        refine .inr ⟨_, ?_, inline_of_mem_told hnote hrow htold⟩
        exact List.mem_append_left _ (hrows.subset List.mem_cons_self)
  · obtain ⟨hshows, hkinds⟩ :=
      @showsText_itemRows w config (ofPlaced w config title source placed) lab
    have hrows := infix_flatMap hitem c.itemRows
    refine .inl ⟨_, hrows.trans (List.suffix_append _ _).isInfix, fun row hrow => ?_, hshows⟩
    exact List.mem_singleton.2 (hkinds row hrow)

end OfPlaced

/-! ### Whole renderings -/

theorem titleRows_infix_headRows (config : Config) (mode : Mode) (layout : Layout) :
    titleRows layout.title <:+: headRows config mode layout := by
  cases mode with
  | expanded => exact (List.prefix_append _ _).isInfix
  | compact => exact (List.prefix_append _ _).isInfix

theorem footnoteRows_infix_footRows (config : Config) (mode : Mode) (layout : Layout)
    {footnotes : List Footnote} {footnote : Footnote} (h : footnote ∈ footnotes) :
    ∃ indent, footnoteRows w config indent footnote <:+:
      footRows w config mode layout footnotes := by
  cases mode with
  | expanded =>
      refine ⟨layout.numberWidth + 1, ?_⟩
      rw [footRows, if_neg (List.ne_nil_of_mem h)]
      exact (infix_flatMap h _).trans (List.suffix_cons _ _).isInfix
  | compact => exact ⟨0, infix_flatMap h (footnoteRows w config 0)⟩

theorem oneLine_headRows : ∀ row ∈ headRows config mode layout,
    row.kind = .header ∨ OneLine config row := by
  intro row hrow
  rcases mem_headRows hrow with hrow | rfl | rfl
  · exact .inr (oneLine_of_lines (showsText_titleRows _) row hrow)
  · exact .inr oneLine_blank
  · exact .inl rfl

theorem oneLine_footRows {footnotes : List Footnote} :
    ∀ row ∈ footRows w config mode layout footnotes, OneLine config row := by
  intro row hrow
  rcases mem_footRows hrow with rfl | ⟨footnote, -, indent, hrow⟩
  · exact oneLine_blank
  · exact oneLine_of_lines (showsText_footnoteRows indent footnote) row hrow

theorem oneLine_items (deferred : List PlacedLabel) :
    ∀ row ∈ Canvas.items ⟨w, config, layout⟩ deferred, OneLine config row := by
  intro row hrow
  obtain ⟨lab, -, hrow⟩ := List.mem_flatMap.1 hrow
  exact oneLine_of_lines (showsText_itemRows lab).1 row hrow

end Rendering

open Rendering Layout

/-- Texts are told line by line. No row of the title, of a footnote, of an item or of an expanded
label text shows a text with a line boundary, and several lines take several rows. Beside an
underline or an end marker of a compact rendering a label text without a line feed may be shown as
a whole, and only there its other line boundaries stay in a row. -/
theorem texts_line_by_line [Platform] {w : CellWidth} {config : Config} {diagnostic : Diagnostic}
    {layout : Layout} (hlayout : build w config diagnostic = .ok layout) (mode : Mode) :
    ∃ all, Rendering.rows w config mode diagnostic = .ok all ∧
      LineByLine config mode diagnostic all := by
  refine ⟨_, rows_eq hlayout mode, ?_⟩
  obtain ⟨source, placed, -, hlabels, hindex, hwithin, rfl⟩ := exists_of_build_ok hlayout
  have hgiven := map_label_of_placeLabels hlabels
  constructor
  case rows =>
      rw [List.forall_mem_append, List.forall_mem_append, List.forall_mem_append]
      refine ⟨⟨⟨fun row hrow => ?_, fun row hrow => ?_⟩, fun row hrow => ?_⟩, fun row hrow => ?_⟩
      · exact .inr ((oneLine_headRows row hrow).imp_right .inl)
      · obtain ⟨note, hnote, hwrites⟩ :=
          Canvas.exists_mem_of_forall₂ (Canvas.writes_picture _ mode) row hrow
        by_cases hkind : note.kind = .source
        · exact .inl ((Canvas.kind_of_writes hwrites).trans hkind)
        · refine .inr (.inr ((oneLine_or_inline hnote hkind hwrites).imp_right ?_))
          rintro ⟨rfl, lab, htold, hinline⟩
          have honce :=
            (@tellsInPlaces_ofPlaced w config source placed hindex hwithin diagnostic.title).once
          have hlab : lab ∈ placed := (mem_withText.1 (honce.subset
            (List.mem_append_left _ (List.mem_flatMap.2 ⟨note, hnote, htold⟩)))).1
          exact ⟨rfl, lab.label, hgiven ▸ List.mem_map_of_mem hlab, hinline⟩
      · exact .inr (.inr (.inl (oneLine_items _ row hrow)))
      · exact .inr (.inr (.inl (oneLine_footRows row hrow)))
  case title =>
      have htitle := titleRows_infix_headRows config mode
        (ofPlaced w config diagnostic.title source placed)
      refine ⟨_, htitle.trans ?_, ?_, showsText_titleRows diagnostic.title⟩
      · rw [List.append_assoc, List.append_assoc]
        exact (List.prefix_append _ _).isInfix
      · exact List.forall_mem_map.2 fun _ _ => List.mem_singleton_self _
  case footnotes =>
      intro footnote hfootnote
      obtain ⟨indent, hrows⟩ := footnoteRows_infix_footRows (w := w) config mode
        (ofPlaced w config diagnostic.title source placed) hfootnote
      refine ⟨_, hrows.trans (List.suffix_append _ _).isInfix, fun row hrow => ?_,
        showsText_footnoteRows indent footnote⟩
      exact List.mem_singleton.2 (kind_of_mem_footnoteRows row hrow)
  case labels =>
      intro label hlabel htext
      rw [← hgiven] at hlabel
      obtain ⟨lab, hlab, rfl⟩ := List.mem_map.1 hlabel
      cases mode with
      | expanded =>
          refine Tells.mono (tells_expanded (w := w) hindex hwithin diagnostic.title hlab htext) ?_
          rw [List.append_assoc]
          exact List.infix_append _ _ _
      | compact =>
          refine Tells.mono (tells_compact (w := w) hindex hwithin diagnostic.title hlab htext) ?_
          rw [List.append_assoc (headRows ..)]
          exact List.infix_append _ _ _

/-- A label text with a line feed, and one with a carriage return instead. -/
def fed : Diagnostic where
  title := "t\nu".toList
  source := some ⟨"x\ny".toList, none, none⟩
  labels := [⟨⟨0, 1⟩, some "a\nb".toList, none⟩, ⟨⟨2, 3⟩, some "c\rd".toList, none⟩]
  footnotes := [⟨"e\nf".toList, none⟩]

section

attribute [local instance] Platform.usual

theorem texts_line_by_line_fed :
    (∃ layout, build Unicode.cellWidth .default fed = .ok layout) ∧
      ∃ all, Rendering.rows Unicode.cellWidth .default .compact fed = .ok all ∧
        LineByLine .default .compact fed all ∧ Spread .default all [.item] [['a'], ['b']] := by
  obtain ⟨layout, hlayout⟩ : ∃ layout, build Unicode.cellWidth .default fed = .ok layout :=
    ⟨_, rfl⟩
  obtain ⟨all, hall, hlines⟩ := texts_line_by_line hlayout .compact
  refine ⟨⟨layout, hlayout⟩, all, hall, hlines, ?_⟩
  exact (hlines.labels _ List.mem_cons_self (by decide)).spread_of_newline (by decide)

/-- A label text of two lines between which a carriage return stands. -/
def returning : Diagnostic where
  title := ['t']
  source := some ⟨['x'], none, none⟩
  labels := [⟨⟨0, 1⟩, some ['a', '\r', 'b'], none⟩]

theorem returning_text_in_row : Text.splitLines ['a', '\r', 'b'] = [['a'], ['b']] ∧
    ∃ all, Rendering.rows Unicode.cellWidth .default .compact returning = .ok all ∧
      (∃ row ∈ all, row.kind = .underline ∧ ∃ seg ∈ row.segments, seg.text = ['a', '\r', 'b']) ∧
      ∀ row ∈ all, row.kind ≠ .item :=
  ⟨rfl, _, rfl, by decide, by decide⟩

end

end Excerpt
