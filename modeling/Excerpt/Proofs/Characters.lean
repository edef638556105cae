import Excerpt.Proofs.Texts

/-!
Where the characters of a rendering come from. Taking a text apart into words, lines or pieces adds
no character but the spaces between words, and a row adds to its words only ornaments. So whatever a
row shows is a glyph, belongs to the frame, or stands in one of the texts that were given.
-/

namespace Excerpt

open Segment

namespace Text

variable {ch : Char}

theorem mem_of_mem_consHead {c : Char} {rest : List Text} {piece : Text}
    (h : piece ∈ consHead c rest) (hch : ch ∈ piece) : ch = c ∨ ∃ other ∈ rest, ch ∈ other := by
  cases rest with
  | nil =>
      rw [List.mem_singleton.1 h] at hch
      exact .inl (List.mem_singleton.1 hch)
  | cons first rest =>
      rcases List.mem_cons.1 h with rfl | h
      · exact (List.mem_cons.1 hch).imp_right fun hch => ⟨first, List.mem_cons_self, hch⟩
      · exact .inr ⟨piece, List.mem_cons_of_mem first h, hch⟩

theorem mem_of_mem_pieces {p : Char → Bool} {s piece : Text} (h : piece ∈ pieces p s)
    (hch : ch ∈ piece) : ch ∈ s := by
  induction s generalizing piece with
  | nil =>
      rw [List.mem_singleton.1 h] at hch
      exact hch
  | cons c s ih =>
      rw [pieces] at h
      split at h
      · rcases List.mem_cons.1 h with rfl | h
        · exact absurd hch List.not_mem_nil
        · exact List.mem_cons_of_mem c (ih h hch)
      · rcases mem_of_mem_consHead h hch with rfl | ⟨other, hother, hch⟩
        · exact List.mem_cons_self
        · exact List.mem_cons_of_mem c (ih hother hch)

theorem mem_of_mem_words {s word : Text} (h : word ∈ words s) (hch : ch ∈ word) : ch ∈ s :=
  mem_of_mem_pieces (List.mem_filter.1 h).1 hch

theorem mem_of_mem_splitLines {s line : Text} (h : line ∈ splitLines s) (hch : ch ∈ line) :
    ch ∈ s := by
  induction s using splitLines.induct generalizing line with
  | case1 => exact absurd h List.not_mem_nil
  | case2 s ih =>
      rw [splitLines] at h
      rcases List.mem_cons.1 h with rfl | h
      · exact absurd hch List.not_mem_nil
      · exact List.mem_cons_of_mem _ (List.mem_cons_of_mem _ (ih h hch))
  | case3 c s hreturn hboundary ih =>
      rw [splitLines, if_pos hboundary] at h
      · rcases List.mem_cons.1 h with rfl | h
        · exact absurd hch List.not_mem_nil
        · exact List.mem_cons_of_mem _ (ih h hch)
      · exact hreturn
  | case4 c s hreturn hboundary ih =>
      rw [splitLines, if_neg hboundary] at h
      · rcases mem_of_mem_consHead h hch with rfl | ⟨other, hother, hch⟩
        · exact List.mem_cons_self
        · exact List.mem_cons_of_mem _ (ih hother hch)
      · exact hreturn

theorem mem_of_mem_lines {s line : Text} (h : line ∈ lines s) (hch : ch ∈ line) : ch ∈ s := by
  cases hlines : splitLines s with
  | nil =>
      rw [lines, hlines] at h
      rw [List.mem_singleton.1 h] at hch
      exact absurd hch List.not_mem_nil
  | cons first rest =>
      rw [lines, hlines] at h
      exact mem_of_mem_splitLines (hlines ▸ h) hch

theorem mem_of_mem_trimSpaces {s : Text} (hch : ch ∈ s.trimSpaces) : ch ∈ s := by
  have hsub := (List.dropWhile_suffix (l := s.reverse) (· == ' ')).subset
    (List.mem_reverse.1 hch)
  exact List.mem_reverse.1 hsub

theorem mem_of_mem_joinWith {separator : Text} {texts : List Text}
    (hch : ch ∈ joinWith separator texts) : ch ∈ separator ∨ ∃ text ∈ texts, ch ∈ text := by
  induction texts with
  | nil => exact absurd hch List.not_mem_nil
  | cons first texts ih =>
      cases texts with
      | nil =>
          rw [joinWith, List.intercalate_singleton] at hch
          exact .inr ⟨first, List.mem_cons_self, hch⟩
      | cons second texts =>
          rw [joinWith, List.intercalate_cons_cons, List.mem_append, List.mem_append] at hch
          rcases hch with (hch | hch) | hch
          · exact .inr ⟨first, List.mem_cons_self, hch⟩
          · exact .inl hch
          · refine (ih hch).imp_right fun ⟨text, htext, hch⟩ => ?_
            exact ⟨text, List.mem_cons_of_mem first htext, hch⟩

end Text

section Wrap

variable {w : CellWidth} {limit : Nat} {ch : Char}

theorem mem_of_mem_headPiece {s : Text} (hch : ch ∈ headPiece w limit s) : ch ∈ s := by
  rw [headPiece] at hch
  split at hch
  · exact List.mem_of_mem_take hch
  · exact (cutToWidth_isPrefix w s limit).subset (by rwa [‹cutToWidth w s limit = _›])

theorem mem_of_mem_chop {s : Text} (h : (∃ piece ∈ (chop w limit s).1, ch ∈ piece) ∨
    ch ∈ (chop w limit s).2) : ch ∈ s := by
  induction s using chop.induct w limit with
  | case1 s hfits =>
      rw [chop, if_pos hfits] at h
      exact h.resolve_left fun ⟨piece, hpiece, _⟩ => absurd hpiece List.not_mem_nil
  | case2 s hwide head ih =>
      rw [chop, if_neg hwide] at h
      rcases h with ⟨piece, hpiece, hch⟩ | hch
      · rcases List.mem_cons.1 hpiece with rfl | hpiece
        · exact mem_of_mem_headPiece hch
        · exact List.mem_of_mem_drop (ih (.inl ⟨piece, hpiece, hch⟩))
      · exact List.mem_of_mem_drop (ih (.inr hch))

theorem forall_mem_openLine {P : Text → Prop} {current : Text} (h : current ≠ [] → P current) :
    ∀ line ∈ openLine current, P line := by
  rw [openLine]
  split
  case isTrue => exact fun line hline => absurd hline List.not_mem_nil
  case isFalse hne => exact fun line hline => List.mem_singleton.1 hline ▸ h hne

/-- What the open line keeps, from one word to the next, all lines have in the end. -/
theorem forall_mem_fillLines {P Q : Text → Prop} {words : List Text}
    (hclose : ∀ s, Q s → s ≠ [] → P s)
    (hjoin : ∀ word ∈ words, ∀ s, Q s → s ≠ [] → s.width w + 1 + word.width w ≤ limit →
      Q (s ++ ' ' :: word))
    (hchop : ∀ word ∈ words, (∀ piece ∈ (chop w limit word).1, P piece) ∧
      Q (chop w limit word).2) {current : Text} (h : Q current) :
    ∀ line ∈ fillLines w limit current words, P line := by
  induction words generalizing current with
  | nil => exact forall_mem_openLine (hclose current h)
  | cons word words ih =>
      obtain ⟨hword, hwords⟩ := List.forall_mem_cons.1 hjoin
      obtain ⟨hbroken, hothers⟩ := List.forall_mem_cons.1 hchop
      rw [fillLines]
      split
      case isTrue hfits => exact ih hwords hothers (hword current h hfits.1 hfits.2)
      case isFalse =>
          rw [List.forall_mem_append, List.forall_mem_append]
          exact ⟨⟨forall_mem_openLine (hclose current h), hbroken.1⟩,
            ih hwords hothers hbroken.2⟩

theorem mem_of_mem_fillLines {current line : Text} {words : List Text}
    (h : line ∈ fillLines w limit current words) (hch : ch ∈ line) :
    ch = ' ' ∨ ch ∈ current ∨ ∃ word ∈ words, ch ∈ word := by
  have hfrom : ∀ line ∈ fillLines w limit current words, ch ∈ line →
      ch = ' ' ∨ ch ∈ current ∨ ∃ word ∈ words, ch ∈ word := by
    refine forall_mem_fillLines (fun s hs _ => hs) (fun word hword s hs _ _ hch => ?_)
      (fun word hword => ⟨fun piece hpiece hch => ?_, fun hch => ?_⟩) fun hch => .inr (.inl hch)
    · rcases List.mem_append.1 hch with hch | hch
      · exact hs hch
      · exact (List.mem_cons.1 hch).imp_right fun hch => .inr ⟨word, hword, hch⟩
    · exact .inr (.inr ⟨word, hword, mem_of_mem_chop (.inl ⟨piece, hpiece, hch⟩)⟩)
    · exact .inr (.inr ⟨word, hword, mem_of_mem_chop (.inr hch)⟩)
  exact hfrom line h hch

namespace Canvas

variable {c : Canvas}

theorem mem_of_mem_wrapLine {available : Option Int} {line piece : Text}
    (h : piece ∈ c.wrapLine available line) (hch : ch ∈ piece) : ch = ' ' ∨ ch ∈ line := by
  cases available with
  | none => exact .inr (List.mem_singleton.1 h ▸ hch)
  | some available =>
      simp only [wrapLine] at h
      split at h
      · exact .inr (List.mem_singleton.1 h ▸ hch)
      · cases hwrap : wrapLines c.cells available.toNat line with
        | nil =>
            rw [hwrap] at h
            rw [List.mem_singleton.1 h] at hch
            exact absurd hch List.not_mem_nil
        | cons first rest =>
            rw [hwrap] at h
            have hpiece : piece ∈ wrapLines c.cells available.toNat line := hwrap ▸ h
            rcases mem_of_mem_fillLines hpiece hch with hspace | hnil | ⟨word, hword, hch⟩
            · exact .inl hspace
            · exact absurd hnil List.not_mem_nil
            · exact .inr (Text.mem_of_mem_words hword hch)

theorem mem_of_mem_wrap {text piece : Text} {col : Int} (h : piece ∈ c.wrap text col)
    (hch : ch ∈ piece) : ch = ' ' ∨ ch ∈ text := by
  obtain ⟨line, hline, hpiece⟩ := List.mem_flatMap.1 h
  exact (mem_of_mem_wrapLine hpiece hch).imp_right (Text.mem_of_mem_lines hline)

end Canvas
end Wrap

/-! ### Rows -/

section Rows

variable {P : Char → Prop}

theorem Segment.madeOf_trimLast {segs : List Segment} (h : MadeOf P segs) :
    MadeOf P (trimLast segs) := by
  induction segs with
  | nil => exact h
  | cons first segs ih =>
      obtain ⟨hfirst, hsegs⟩ := List.forall_mem_cons.1 h
      rw [trimLast]
      split
      · exact ih hsegs
      · exact List.forall_mem_cons.2
          ⟨fun ch hch => hfirst ch (Text.mem_of_mem_trimSpaces hch), hsegs⟩

theorem madeOf_trimmed {segs : List Segment} (h : MadeOf P segs) (kind : RowKind) :
    MadeOf P (Row.trimmed ⟨kind, segs⟩).segments := by
  have hreverse : MadeOf P segs.reverse := fun seg hseg => h seg (List.mem_reverse.1 hseg)
  exact fun seg hseg => madeOf_trimLast hreverse seg (List.mem_reverse.1 hseg)

theorem Canvas.madeOf_of_writes {c : Canvas} {note : Note} {row : Row} (h : c.Writes note row)
    (hornament : ∀ ch, c.Ornament ch → P ch) (hwords : ∀ ch ∈ c.words note, P ch) :
    MadeOf P row.segments := by
  obtain ⟨alive, gap, style, hornate, rfl⟩ := h
  refine madeOf_trimmed (madeOf_append.2 ⟨?_, madeOf_run hwords style false⟩) note.kind
  exact fun seg hseg ch hch => hornament ch (hornate seg hseg ch hch)

end Rows

namespace Canvas

variable {c : Canvas} {ch : Char}

theorem told_of_mem_deferred (h : ∀ line ∈ c.layout.lines, line.Indexed) {mode : Mode}
    {lab : PlacedLabel} (hlab : lab ∈ (c.picture mode).deferred) :
    lab ∈ c.layout.lines.flatMap LineLayout.told := by
  cases mode with
  | expanded =>
      rw [picture_expanded_deferred] at hlab
      exact absurd hlab List.not_mem_nil
  | compact => exact (mem_withText.1 ((told_picture h).subset (List.mem_append_right _ hlab))).1

/-- The pieces of a note are pieces of the texts of some labels. -/
def TakenFrom (labs : List PlacedLabel) (note : Note) : Prop :=
  ∀ p ∈ note.pieces, p.1 ∈ labs ∧ ∀ ch ∈ p.2, ch = ' ' ∨ ch ∈ p.1.message

theorem takenFrom_underline {labs beside members : List PlacedLabel}
    (h : ∀ lab ∈ members, lab ∈ labs) : TakenFrom labs (.underline beside members) := by
  intro p hp
  obtain ⟨lab, hlab, rfl⟩ := List.mem_map.1 hp
  exact ⟨h lab (mem_withText.1 hlab).1, fun ch hch => .inr hch⟩

theorem takenFrom_text {labs : List PlacedLabel} {lab : PlacedLabel} (hlab : lab ∈ labs)
    {piece : Text} (h : ∀ ch ∈ piece, ch = ' ' ∨ ch ∈ lab.message) :
    TakenFrom labs (.text lab piece) := by
  intro p hp
  rw [List.mem_singleton.1 hp]
  exact ⟨hlab, h⟩

theorem takenFrom_rungScript {mode : Mode} {active : ActiveLeaders} {line : LineLayout}
    {rung : Nat} : ∀ note ∈ c.rungScript mode active line rung, TakenFrom line.labels note := by
  have honRung : ∀ lab ∈ line.onRung rung, lab ∈ line.labels :=
    fun lab hlab => LineLayout.mem_labels_of_mem_onRung hlab
  intro note hnote
  cases mode with
  | expanded =>
      rcases List.mem_cons.1 hnote with rfl | hnote
      · exact takenFrom_underline fun lab hlab => absurd hlab List.not_mem_nil
      · obtain ⟨lab, hlab, hnote⟩ := List.mem_flatMap.1 hnote
        obtain ⟨piece, hpiece, rfl⟩ := List.mem_map.1 hnote
        exact takenFrom_text (honRung lab (mem_withText.1 (List.mem_reverse.1 hlab)).1)
          fun ch hch => mem_of_mem_wrap hpiece hch
  | compact =>
      simp only [rungScript] at hnote
      split at hnote
      · exact absurd hnote List.not_mem_nil
      · rw [List.mem_singleton.1 hnote]
        refine takenFrom_underline fun lab hlab => ?_
        rw [besideLast] at hlab
        split at hlab
        · exact (mem_sharing.1 hlab).1
        · exact absurd hlab List.not_mem_nil

theorem mem_of_mem_endTexts {mode : Mode} {active : ActiveLeaders} {lead : Leader} {piece : Text}
    (h : piece ∈ c.endTexts mode active lead) : ∀ ch ∈ piece, ch = ' ' ∨ ch ∈ lead.message := by
  intro ch hch
  by_cases htext : lead.message = []
  · rw [endTexts_silent htext] at h
    exact absurd h List.not_mem_nil
  · cases mode with
    | expanded =>
        rw [endTexts_expanded htext] at h
        exact mem_of_mem_wrap h hch
    | compact =>
        rw [endTexts_compact htext] at h
        split at h
        · exact .inr (List.mem_singleton.1 h ▸ hch)
        · exact absurd h List.not_mem_nil

theorem takenFrom_ending {lead : Leader} {texts : List Text}
    (h : ∀ piece ∈ texts, ∀ ch ∈ piece, ch = ' ' ∨ ch ∈ lead.message) :
    ∀ note ∈ Note.ending lead texts, TakenFrom [lead.toPlacedLabel] note := by
  intro note hnote p hp
  have hpieces : p ∈ (Note.ending lead texts).flatMap Note.pieces :=
    List.mem_flatMap.2 ⟨note, hnote, hp⟩
  rw [Note.pieces_ending] at hpieces
  obtain ⟨piece, hpiece, rfl⟩ := List.mem_map.1 hpieces
  exact ⟨List.mem_singleton_self _, h piece hpiece⟩

theorem takenFrom_endsScript {mode : Mode} {active : ActiveLeaders} {leads : List Leader} :
    ∀ note ∈ c.endsScript mode active leads,
      TakenFrom (leads.map Leader.toPlacedLabel) note := by
  induction leads generalizing active with
  | nil => exact fun note hnote => absurd hnote List.not_mem_nil
  | cons lead leads ih =>
      intro note hnote p hp
      rcases List.mem_append.1 hnote with hnote | hnote
      · obtain ⟨hlab, hpiece⟩ := takenFrom_ending (fun piece => mem_of_mem_endTexts) note hnote p hp
        rw [List.mem_singleton.1 hlab] at hpiece ⊢
        exact ⟨List.mem_cons_self, hpiece⟩
      · obtain ⟨hlab, hpiece⟩ := ih note hnote p hp
        exact ⟨List.mem_cons_of_mem _ hlab, hpiece⟩

theorem words_of_kind {note : Note} (h : note.kind ≠ .source) :
    c.words note = Text.joinWith [',', ' '] (note.pieces.map Prod.snd) := by
  cases note with
  | source line => exact absurd rfl h
  | underline _ _ | text _ _ | top _ | bottom _ _ | elision => rfl

theorem mem_of_takenFrom {labs : List PlacedLabel} {note : Note} (h : TakenFrom labs note)
    (hkind : note.kind ≠ .source) (hch : ch ∈ c.words note) :
    ch ∈ [',', ' '] ∨ ∃ lab ∈ labs, ch ∈ lab.message := by
  rw [words_of_kind hkind] at hch
  rcases Text.mem_of_mem_joinWith hch with hch | ⟨piece, hpiece, hch⟩
  · exact .inl hch
  · obtain ⟨p, hp, rfl⟩ := List.mem_map.1 hpiece
    obtain ⟨hlab, hfrom⟩ := h p hp
    rcases hfrom ch hch with rfl | hch
    · exact .inl (by decide)
    · exact .inr ⟨p.1, hlab, hch⟩

/-- The words of a row are a shown line or, separators apart, from the texts told on a line. -/
theorem mem_of_mem_words_script {mode : Mode} {note : Note} (hnote : note ∈ c.script mode)
    (hch : ch ∈ c.words note) : ∃ line ∈ c.layout.lines,
      ch ∈ line.text ∨ ch ∈ [',', ' '] ∨ ∃ lab ∈ line.told, ch ∈ lab.message := by
  obtain ⟨part, hpart, hnote⟩ := List.mem_flatMap.1 hnote
  cases part with
  | elision alive =>
      rw [List.mem_singleton.1 hnote] at hch
      exact absurd hch List.not_mem_nil
  | line line =>
      refine ⟨line, mem_passages_iff.1 hpart, ?_⟩
      rw [passageScript, lineScript, List.mem_cons, List.mem_append, List.mem_append] at hnote
      rcases hnote with rfl | hnote | hnote | hnote
      · refine .inl ?_
        rw [words, shownText] at hch
        split at hch
        · exact hch
        · exact List.mem_of_mem_drop hch
      · obtain ⟨rung, -, hnote⟩ := List.mem_flatMap.1 hnote
        have hkind : note.kind ≠ .source := by
          rcases kind_of_mem_rungScript hnote with hkind | hkind <;> rw [hkind] <;> decide
        refine .inr ((mem_of_takenFrom (takenFrom_rungScript note hnote) hkind hch).imp_right ?_)
        rintro ⟨lab, hlab, hch⟩
        exact ⟨lab, List.mem_append_left _ hlab, hch⟩
      · obtain ⟨lead, -, rfl⟩ := List.mem_map.1 hnote
        exact absurd hch List.not_mem_nil
      · have hkind : note.kind ≠ .source := by
          rcases kind_of_mem_endsScript hnote with hkind | hkind <;> rw [hkind] <;> decide
        refine .inr ((mem_of_takenFrom (takenFrom_endsScript note hnote) hkind hch).imp_right ?_)
        rintro ⟨lab, hlab, hch⟩
        exact ⟨lab, List.mem_append_right _ hlab, hch⟩

end Canvas

namespace Rendering

/-- Whether a character is part of the frame around texts, glyphs and numbers apart. -/
def isFrame (ch : Char) : Bool := " ,@[lines-]:".toList.contains ch

/-- The characters that a rendering can show. -/
inductive Shown (config : Config) (diagnostic : Diagnostic) (layout : Layout) (ch : Char) : Prop
  | glyph {glyph} : glyph ∈ config.charset.glyphs → ch ∈ glyph → Shown config diagnostic layout ch
  | frame : isFrame ch = true → Shown config diagnostic layout ch
  | digit : ch.isDigit = true → Shown config diagnostic layout ch
  | title : ch ∈ diagnostic.title → Shown config diagnostic layout ch
  | name : ch ∈ displayName layout.source → Shown config diagnostic layout ch
  | source {line} : line ∈ layout.lines → ch ∈ line.text → Shown config diagnostic layout ch
  | label {label} : label ∈ diagnostic.labels → ch ∈ label.message →
      Shown config diagnostic layout ch
  | footnote {footnote} : footnote ∈ diagnostic.footnotes → ch ∈ footnote.text →
      Shown config diagnostic layout ch

/-- Segments that show nothing else. -/
abbrev Shows (config : Config) (diagnostic : Diagnostic) (layout : Layout)
    (segs : List Segment) : Prop := MadeOf (Shown config diagnostic layout) segs

variable {w : CellWidth} {config : Config} {diagnostic : Diagnostic} {layout : Layout}

theorem shown_space : Shown config diagnostic layout ' ' := .frame rfl

theorem shows_pad (cells : Int) : Shows config diagnostic layout (pad cells) :=
  madeOf_pad shown_space cells

theorem shows_frame {text : Text} (h : text.all isFrame = true) (style : Option Style) :
    Shows config diagnostic layout (run text style) :=
  madeOf_run (fun ch hch => .frame (List.all_eq_true.1 h ch hch)) style false

theorem shows_glyph {glyph : Text} (h : glyph ∈ config.charset.glyphs) (style : Option Style) :
    Shows config diagnostic layout (run glyph style) :=
  madeOf_run (fun _ hch => .glyph h hch) style false

theorem shown_of_ornament {ch : Char} (h : Canvas.Ornament ⟨w, config, layout⟩ ch) :
    Shown config diagnostic layout ch := by
  rcases h with rfl | hdigit | ⟨glyph, hglyph, hch⟩
  · exact shown_space
  · exact .digit hdigit
  · exact .glyph hglyph hch

theorem shows_headerRow (mode : Mode) :
    Shows config diagnostic layout (headerRow config mode layout).segments := by
  have hname : ∀ style, Shows config diagnostic layout (run (displayName layout.source) style) :=
    fun style => madeOf_run (fun ch hch => .name hch) style false
  simp only [headerRow, Shows, madeOf_append]
  refine ⟨⟨⟨⟨⟨?_, shows_frame rfl _⟩, shows_pad 1⟩, shows_frame rfl _⟩, hname _⟩, ?_⟩
  · cases mode with
    | expanded => exact shows_pad _
    | compact => exact madeOf_nil
  · cases mode with
    | expanded => exact shows_frame rfl _
    | compact => exact shows_frame rfl _

theorem shows_headRows (htitle : layout.title = diagnostic.title) (mode : Mode) :
    ∀ row ∈ headRows config mode layout, Shows config diagnostic layout row.segments := by
  intro row hrow
  rcases mem_headRows hrow with hrow | rfl | rfl
  · obtain ⟨line, hline, rfl⟩ := List.mem_map.1 hrow
    exact madeOf_run (fun ch hch => .title (htitle ▸ Text.mem_of_mem_lines hline hch)) none false
  · exact madeOf_nil
  · exact shows_headerRow mode

theorem shows_footnoteRows {footnote : Footnote} (hfootnote : footnote ∈ diagnostic.footnotes)
    (indent : Int) : ∀ row ∈ footnoteRows w config indent footnote,
      Shows config diagnostic layout row.segments := by
  have hlines : ∀ line ∈ footnote.text.lines, ∀ style,
      Shows config diagnostic layout (run line style) :=
    fun line hline style => madeOf_run
      (fun ch hch => .footnote hfootnote (Text.mem_of_mem_lines hline hch)) style false
  have hmarker : config.charset.footnote ∈ config.charset.glyphs := by simp [Charset.glyphs]
  intro row hrow
  simp only [footnoteRows] at hrow
  cases htext : footnote.text.lines with
  | nil =>
      rw [htext] at hrow
      exact absurd hrow List.not_mem_nil
  | cons first rest =>
      rw [htext] at hrow hlines
      obtain ⟨hfirst, hrest⟩ := List.forall_mem_cons.1 hlines
      rcases List.mem_cons.1 hrow with rfl | hrow
      · exact madeOf_trimmed (madeOf_append.2 ⟨madeOf_append.2 ⟨madeOf_append.2
          ⟨shows_pad _, shows_glyph hmarker _⟩, shows_pad 1⟩, hfirst _⟩) _
      · obtain ⟨line, hline, rfl⟩ := List.mem_map.1 hrow
        exact madeOf_trimmed (madeOf_append.2 ⟨shows_pad _, hrest line hline _⟩) _

theorem shows_footRows (mode : Mode) :
    ∀ row ∈ footRows w config mode layout diagnostic.footnotes,
      Shows config diagnostic layout row.segments := by
  intro row hrow
  rcases mem_footRows hrow with rfl | ⟨footnote, hfootnote, indent, hrow⟩
  · exact madeOf_nil
  · exact shows_footnoteRows hfootnote indent row hrow

theorem mem_whereabouts {span : ResolvedSpan} {ch : Char} (h : ch ∈ Canvas.whereabouts span) :
    isFrame ch = true ∨ ch.isDigit = true := by
  have hframe : ∀ {text : Text}, text.all isFrame = true → ch ∈ text → isFrame ch = true :=
    fun htext => List.all_eq_true.1 htext ch
  rw [Canvas.whereabouts] at h
  split at h
  · have hparts : ch ∈ "lines ".toList ++ (toString (span.startLine + 1)).toList ++ "-".toList ++
        (toString (span.endLine + 1)).toList := by
      simpa [toString, String.toList_append] using h
    rw [List.mem_append, List.mem_append, List.mem_append] at hparts
    rcases hparts with ((h | h) | h) | h
    · exact .inl (hframe rfl h)
    · exact .inr (isDigit_of_mem_toString h)
    · exact .inl (hframe rfl h)
    · exact .inr (isDigit_of_mem_toString h)
  · have hparts : ch ∈ "line ".toList ++ (toString (span.startLine + 1)).toList := by
      simpa [toString, String.toList_append] using h
    rcases List.mem_append.1 hparts with h | h
    · exact .inl (hframe rfl h)
    · exact .inr (isDigit_of_mem_toString h)

/-- A character around the texts that are given: a glyph, a part of the frame or a number. -/
def Framing (config : Config) (ch : Char) : Prop :=
  isFrame ch = true ∨ ch.isDigit = true ∨ ∃ glyph ∈ config.charset.glyphs, ch ∈ glyph

theorem framing_space : Framing config ' ' := .inl rfl

theorem framing_glyph {glyph : Text} (h : glyph ∈ config.charset.glyphs) (style : Option Style) :
    MadeOf (Framing config) (run glyph style) :=
  madeOf_run (fun _ hch => .inr (.inr ⟨glyph, h, hch⟩)) style false

theorem shown_of_framing {ch : Char} (h : Framing config ch) :
    Shown config diagnostic layout ch := by
  rcases h with hframe | hdigit | ⟨glyph, hglyph, hch⟩
  · exact .frame hframe
  · exact .digit hdigit
  · exact .glyph hglyph hch

theorem framing_itemFront (lab : PlacedLabel) :
    MadeOf (Framing config) (Canvas.itemFront ⟨w, config, layout⟩ lab) := by
  have hframe : ∀ {text : Text}, text.all isFrame = true → ∀ style,
      MadeOf (Framing config) (run text style) :=
    fun htext style => madeOf_run (fun ch hch => .inl (List.all_eq_true.1 htext ch hch)) style false
  have hplace : ∀ style, MadeOf (Framing config) (run (Canvas.whereabouts lab.span) style) :=
    fun style => madeOf_run (fun ch hch => (mem_whereabouts hch).imp_right .inl) style false
  simp only [Canvas.itemFront, madeOf_append]
  exact ⟨⟨⟨⟨framing_glyph List.mem_cons_self _, madeOf_pad framing_space 1⟩, hframe rfl _⟩,
    hplace _⟩, hframe rfl _⟩

theorem shows_itemRows {lab : PlacedLabel} (hlab : lab.label ∈ diagnostic.labels) :
    ∀ row ∈ Canvas.itemRows ⟨w, config, layout⟩ lab,
      Shows config diagnostic layout row.segments := by
  have hfront : Shows config diagnostic layout (Canvas.itemFront ⟨w, config, layout⟩ lab) :=
    fun seg hseg ch hch => shown_of_framing (framing_itemFront lab seg hseg ch hch)
  have hlines : ∀ line ∈ lab.message.lines, Shows config diagnostic layout (run line) :=
    fun line hline => madeOf_run
      (fun ch hch => .label hlab (Text.mem_of_mem_lines hline hch)) none false
  obtain ⟨-, first, rest, indent, htext, hrows⟩ :=
    Canvas.itemizes_itemRows (c := ⟨w, config, layout⟩) lab
  rw [htext] at hlines
  obtain ⟨hfirst, hrest⟩ := List.forall_mem_cons.1 hlines
  rw [hrows, List.forall_mem_cons, List.forall_mem_map]
  exact ⟨madeOf_trimmed (madeOf_append.2 ⟨hfront, hfirst⟩) _, fun line hline =>
    madeOf_trimmed (madeOf_append.2 ⟨shows_pad indent, hrest line hline⟩) _⟩

/-- Whatever a rendering shows is a glyph, belongs to the frame, or was given. -/
theorem shown_rows [Platform] (hlayout : Layout.build w config diagnostic = .ok layout)
    (mode : Mode) :
    ∃ all, rows w config mode diagnostic = .ok all ∧
      ∀ row ∈ all, Shows config diagnostic layout row.segments := by
  refine ⟨_, rows_eq hlayout mode, ?_⟩
  obtain ⟨source, placed, -, hlabels, hindex, hwithin, rfl⟩ := Layout.exists_of_build_ok hlayout
  have hgiven : ∀ lab ∈ placed, lab.label ∈ diagnostic.labels := by
    rw [← Layout.map_label_of_placeLabels hlabels]
    exact fun lab hlab => List.mem_map_of_mem hlab
  have htold := @Layout.told_perm w config source placed hindex hwithin diagnostic.title
  rw [List.forall_mem_append, List.forall_mem_append, List.forall_mem_append]
  refine ⟨⟨⟨shows_headRows rfl mode, ?_⟩, ?_⟩, shows_footRows mode⟩
  · intro row hrow
    obtain ⟨note, hnote, hwrites⟩ :=
      Canvas.exists_mem_of_forall₂ (Canvas.writes_picture _ mode) row hrow
    refine Canvas.madeOf_of_writes hwrites (fun ch => shown_of_ornament) fun ch hch => ?_
    obtain ⟨line, hline, hch⟩ := Canvas.mem_of_mem_words_script hnote hch
    rcases hch with hch | hch | ⟨lab, hlab, hch⟩
    · exact .source hline hch
    · exact .frame (List.all_eq_true.1 (show [',', ' '].all isFrame = true from rfl) ch hch)
    · exact .label (hgiven lab (htold.subset (List.mem_flatMap.2 ⟨line, hline, hlab⟩))) hch
  · intro row hrow
    obtain ⟨lab, hlab, hrow⟩ := List.mem_flatMap.1 hrow
    have hdeferred := (sortBy_perm PlacedLabel.earlier _).subset hlab
    refine shows_itemRows (hgiven lab (htold.subset ?_)) row hrow
    exact Canvas.told_of_mem_deferred
      (fun line hline => Layout.indexed_of_mem_lines hindex hline) hdeferred

end Rendering
end Excerpt
