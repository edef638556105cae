import Excerpt.Proofs.Escapes
import Excerpt.Proofs.Fitting

/-!
Colors and the layout. Rows are made, cut and wrapped before anything is painted, and none of it
looks at whether colors are enabled. So a colored text is the plain one with complete sequences put
in, provided that no given text brings escape characters of its own.
-/

namespace Excerpt

open Segment
open Style (escapeChar)

/-- The configuration with colors enabled or disabled. -/
def Config.recolored (config : Config) (enabled : Bool) : Config :=
  { config with colorEnabled := enabled, inRange := config.inRange }

namespace Canvas

def recolored (c : Canvas) (enabled : Bool) : Canvas :=
  { c with config := c.config.recolored enabled }

variable (c : Canvas) (enabled : Bool)

theorem caretRuns_recolored : (c.recolored enabled).caretRuns = c.caretRuns := by
  funext col labs
  induction labs generalizing col with
  | nil => rfl
  | cons lab labs ih =>
      simp only [caretRuns, ih]
      rfl

theorem textRun_recolored : (c.recolored enabled).textRun = c.textRun := by
  funext lab piece col bars
  induction bars generalizing col with
  | nil => rfl
  | cons bar bars ih =>
      simp only [textRun, ih]
      rfl

theorem textRows_recolored : (c.recolored enabled).textRows = c.textRows := by
  funext active labs
  induction labs with
  | nil => rfl
  | cons lab labs ih =>
      simp only [textRows, textRun_recolored, ih]
      rfl

theorem expandedRung_recolored : (c.recolored enabled).expandedRung = c.expandedRung := by
  funext active line rung
  simp only [expandedRung, underlineSegments, caretRuns_recolored, textRows_recolored]
  rfl

theorem compactRung_recolored : (c.recolored enabled).compactRung = c.compactRung := by
  funext active line rung
  simp only [compactRung, underlineSegments, caretRuns_recolored]
  rfl

theorem labelRows_recolored : (c.recolored enabled).labelRows = c.labelRows := by
  funext mode active line
  cases mode with
  | expanded => rw [labelRows, labelRows, expandedRung_recolored]
  | compact => rw [labelRows, labelRows, compactRung_recolored]

theorem startRows_recolored : (c.recolored enabled).startRows = c.startRows := by
  funext active leads
  induction leads generalizing active with
  | nil => rfl
  | cons lead leads ih =>
      simp only [startRows, ih]
      rfl

theorem endsDrawn_recolored : (c.recolored enabled).endsDrawn = c.endsDrawn := by
  funext mode active leads
  induction leads generalizing active with
  | nil => rfl
  | cons lead leads ih =>
      simp only [endsDrawn, ih]
      rfl

theorem lineDrawn_recolored : (c.recolored enabled).lineDrawn = c.lineDrawn := by
  funext mode line
  simp only [lineDrawn, labelRows_recolored, startRows_recolored, endsDrawn_recolored]
  rfl

/-- Whether colors are enabled does not show in the picture. -/
theorem picture_recolored : (c.recolored enabled).picture = c.picture := by
  have hpassage : (c.recolored enabled).passageDrawn = c.passageDrawn := by
    funext mode part
    cases part with
    | line line => rw [passageDrawn, passageDrawn, lineDrawn_recolored]
    | elision alive => rfl
  funext mode
  rw [picture, picture, drawnOf, drawnOf, hpassage]
  rfl

end Canvas

namespace Rendering

variable {w : CellWidth} {config : Config} {diagnostic : Diagnostic}

/-- Rows are made before anything is painted. -/
theorem rows_recolored [Platform] (enabled : Bool) (mode : Mode) :
    rows w (config.recolored enabled) mode diagnostic = rows w config mode diagnostic := by
  have hbuild : Layout.build w (config.recolored enabled) diagnostic =
      Layout.build w config diagnostic := rfl
  cases hlayout : Layout.build w config diagnostic with
  | ok layout =>
      have hpicture : Canvas.picture ⟨w, config.recolored enabled, layout⟩ =
          Canvas.picture ⟨w, config, layout⟩ :=
        Canvas.picture_recolored ⟨w, config, layout⟩ enabled
      rw [rows_eq (hbuild.trans hlayout), rows_eq hlayout, hpicture]
      rfl
  | error e =>
      rw [hlayout] at hbuild
      cases mode with
      | expanded => simp only [rows, expandedRows, hbuild, hlayout, error_bind]
      | compact => simp only [rows, compactRows, hbuild, hlayout, error_bind]

theorem madeOf_fitted {P : Char → Prop} (hellipsis : ∀ ch ∈ config.charset.ellipsis, P ch)
    {row : Row} (h : MadeOf P row.segments) : MadeOf P (fitted w config row).segments := by
  have htake : ∀ {limit col : Int} {segs : List Segment}, MadeOf P segs →
      MadeOf P (Row.takeFitting w limit col segs) := by
    intro limit col segs hsegs
    induction segs generalizing col with
    | nil => exact hsegs
    | cons seg segs ih =>
        obtain ⟨hseg, hsegs⟩ := List.forall_mem_cons.1 hsegs
        rw [Row.takeFitting]
        split
        · exact List.forall_mem_cons.2 ⟨hseg, ih hsegs⟩
        · split
          · exact madeOf_nil
          · exact madeOf_run
              (fun ch hch => hseg ch ((cutToWidth_isPrefix w seg.text _).subset hch)) _ _
  rw [fitted]
  split
  · exact h
  · rw [Row.fit]
    split
    · exact h
    · exact madeOf_append.2 ⟨htake h, madeOf_run hellipsis _ _⟩

end Rendering

theorem mem_of_mem_expandFrom {w : CellWidth} {tab col : Int} {previous : Option Char} {s : Text}
    {ch : Char} (h : ch ∈ expandFrom w tab col previous s) : ch = ' ' ∨ ch ∈ s := by
  induction s generalizing col previous with
  | nil => exact absurd h List.not_mem_nil
  | cons c s ih =>
      rw [expandFrom, List.mem_append] at h
      rcases h with h | h
      · split at h
        · exact .inl (List.eq_of_mem_replicate h)
        · rw [List.mem_singleton.1 h]
          exact .inr List.mem_cons_self
      · exact (ih h).imp_right (List.mem_cons_of_mem c)

theorem Layout.mem_of_mem_lineText {source : Source} {number : Nat}
    (hnumber : number < source.lineCount) {ch : Char} (h : ch ∈ lineText source number) :
    ch ∈ source.text := by
  obtain ⟨above, line, below, hcut⟩ : ∃ above line below,
      LineCut source.text number above line below := by
    have hlines : source.lineCount = source.text.count '\n' + 1 :=
      LineIndex.lineCount_ofText source.text
    exact LineCut.exists_of_le (by omega)
  have hline : source.line number = .ok line.dropReturn := LineIndex.line_ofText hcut
  simp only [lineText, hline] at h
  rw [hcut.text_eq]
  exact List.mem_append_left _ (List.mem_append_right _ (line.dropReturn_isPrefix.subset h))

/-- A character of a text that is given. -/
inductive Diagnostic.Given (diagnostic : Diagnostic) (ch : Char) : Prop
  | title (h : ch ∈ diagnostic.title) : Given diagnostic ch
  | name {source : Source} {name : Text} (hsource : source ∈ diagnostic.source)
      (hname : name ∈ source.name) (h : ch ∈ name) : Given diagnostic ch
  | source {source : Source} (hsource : source ∈ diagnostic.source) (h : ch ∈ source.text) :
      Given diagnostic ch
  | label {label : Label} (hlabel : label ∈ diagnostic.labels) (h : ch ∈ label.message) :
      Given diagnostic ch
  | footnote {footnote : Footnote} (hfootnote : footnote ∈ diagnostic.footnotes)
      (h : ch ∈ footnote.text) : Given diagnostic ch

namespace Rendering

/-- No given text brings an escape character of its own. -/
structure Unescaped (config : Config) (diagnostic : Diagnostic) : Prop where
  glyphs : ∀ glyph ∈ config.charset.glyphs, escapeChar ∉ glyph
  title : escapeChar ∉ diagnostic.title
  name : ∀ source ∈ diagnostic.source, ∀ name ∈ source.name, escapeChar ∉ name
  source : ∀ source ∈ diagnostic.source, escapeChar ∉ source.text
  labels : ∀ label ∈ diagnostic.labels, escapeChar ∉ label.message
  footnotes : ∀ footnote ∈ diagnostic.footnotes, escapeChar ∉ footnote.text

variable {w : CellWidth} {config : Config} {diagnostic : Diagnostic} {layout : Layout}

/-- What a rendering shows is framing, the name of what has none, or given. -/
theorem given_of_shown [Platform] {ch : Char} (hframing : ¬Framing config ch)
    (hunknown : ch ∉ "unknown".toList) (hlayout : Layout.build w config diagnostic = .ok layout)
    (h : Shown config diagnostic layout ch) : diagnostic.Given ch := by
  obtain ⟨source, placed, hsource, -, -, hwithin, rfl⟩ := Layout.exists_of_build_ok hlayout
  cases h with
  | glyph hglyph hch => exact absurd (.inr (.inr ⟨_, hglyph, hch⟩)) hframing
  | frame hch => exact absurd (.inl hch) hframing
  | digit hch => exact absurd (.inr (.inl hch)) hframing
  | title hch => exact .title hch
  | name hch =>
      have hname : ch ∈ displayName source := hch
      rw [displayName] at hname
      split at hname
      · exact absurd hname hunknown
      · exact absurd hname hunknown
      next name _ hgiven => exact .name hsource hgiven hname
  | source hline hch =>
      obtain ⟨range, hrange, number, hnumber, rfl⟩ := Layout.exists_number_of_mem_lines hline
      rcases mem_of_mem_expandFrom hch with rfl | hch
      · exact absurd framing_space hframing
      · have hlt := (Layout.shown_line_ok hwithin hrange hnumber).1
        exact .source hsource (Layout.mem_of_mem_lineText hlt hch)
  | label hlabel hch => exact .label hlabel hch
  | footnote hfootnote hch => exact .footnote hfootnote hch

theorem exists_build_of_rows [Platform] {mode : Mode} {all : List Row}
    (h : rows w config mode diagnostic = .ok all) :
    ∃ layout, Layout.build w config diagnostic = .ok layout := by
  cases mode with
  | expanded =>
      obtain ⟨layout, hlayout, -⟩ := bind_eq_ok h
      exact ⟨layout, hlayout⟩
  | compact =>
      obtain ⟨layout, hlayout, -⟩ := bind_eq_ok h
      exact ⟨layout, hlayout⟩

theorem given_of_mem_rows [Platform] {ch : Char} (hframing : ¬Framing config ch)
    (hunknown : ch ∉ "unknown".toList) {mode : Mode} {all : List Row}
    (hall : rows w config mode diagnostic = .ok all) {row : Row} (hrow : row ∈ all)
    {seg : Segment} (hseg : seg ∈ row.segments) (hch : ch ∈ seg.text) : diagnostic.Given ch := by
  obtain ⟨layout, hlayout⟩ := exists_build_of_rows hall
  obtain ⟨shown, hrows, hshown⟩ := shown_rows hlayout mode
  rw [hall] at hrows
  cases hrows
  exact given_of_shown hframing hunknown hlayout (hshown row hrow seg hseg ch hch)

/-- Rows show no other characters when they are shortened. -/
theorem given_of_mem_fitted [Platform] {ch : Char} (hframing : ¬Framing config ch)
    (hunknown : ch ∉ "unknown".toList) {mode : Mode} {all : List Row}
    (hall : rows w config mode diagnostic = .ok all) {row : Row} (hrow : row ∈ all)
    {seg : Segment} (hseg : seg ∈ (fitted w config row).segments) (hch : ch ∈ seg.text) :
    diagnostic.Given ch := by
  have hellipsis : config.charset.ellipsis ∈ config.charset.glyphs := by simp [Charset.glyphs]
  by_contra hnot
  refine madeOf_fitted (P := (· ≠ ch)) (fun d hd heq => ?_) (fun seg hseg d hd heq => ?_) seg hseg
    ch hch rfl
  · exact hframing (.inr (.inr ⟨_, hellipsis, heq ▸ hd⟩))
  · exact hnot (given_of_mem_rows hframing hunknown hall hrow hseg (heq ▸ hd))

theorem Unescaped.not_framing (h : Unescaped config diagnostic) : ¬Framing config escapeChar := by
  rintro (hframe | hdigit | ⟨glyph, hglyph, hch⟩)
  · exact absurd hframe (by decide)
  · exact absurd hdigit (by decide)
  · exact h.glyphs glyph hglyph hch

theorem Unescaped.not_given (h : Unescaped config diagnostic) : ¬diagnostic.Given escapeChar := by
  intro hgiven
  cases hgiven with
  | title hch => exact h.title hch
  | name hsource hname hch => exact h.name _ hsource _ hname hch
  | source hsource hch => exact h.source _ hsource hch
  | label hlabel hch => exact h.labels _ hlabel hch
  | footnote hfootnote hch => exact h.footnotes _ hfootnote hch

/-- No row brings one either, whether it is shortened or not. -/
theorem Unescaped.not_mem_fitted [Platform] (h : Unescaped config diagnostic) {mode : Mode}
    {all : List Row} (hall : rows w config mode diagnostic = .ok all) :
    ∀ row ∈ all, ∀ seg ∈ (fitted w config row).segments, escapeChar ∉ seg.text :=
  fun _ hrow _ hseg hmem =>
    h.not_given (given_of_mem_fitted h.not_framing (by decide) hall hrow hseg hmem)

/-- Whether colors are enabled decides about escape sequences and nothing else: the rows are the
same, and the colored text without its sequences is the plain text, which has none. When there is no
text the error is the same. -/
theorem colored_text_removes_to_plain [Platform] (w : CellWidth) {config : Config}
    {diagnostic : Diagnostic} (h : Unescaped config diagnostic) (mode : Mode) :
    rows w (config.recolored true) mode diagnostic =
        rows w (config.recolored false) mode diagnostic ∧
      (diagnostic.render w (config.recolored true) mode).map Escape.remove =
        diagnostic.render w (config.recolored false) mode ∧
      ∀ text, diagnostic.render w (config.recolored false) mode = .ok text → escapeChar ∉ text := by
  have hsame : ∀ enabled, rows w (config.recolored enabled) mode diagnostic =
      rows w config mode diagnostic := fun enabled => rows_recolored enabled mode
  rw [Diagnostic.render, Diagnostic.render, hsame, hsame]
  refine ⟨rfl, ?_⟩
  cases hall : rows w config mode diagnostic with
  | error e => exact ⟨rfl, fun text htext => by cases htext⟩
  | ok all =>
      have hplain := h.not_mem_fitted hall
      have hleaves : Escape.Leaves (assemble w (config.recolored true) all)
          (assemble w (config.recolored false) all) := by
        refine (Escape.leaves_joinWith (by decide) ?_).append (Escape.leaves_self (by decide))
        exact fun row hrow => Row.leaves_paint (hplain row hrow)
      refine ⟨congrArg Except.ok hleaves.remove_eq, ?_⟩
      rintro text htext hmem
      cases htext
      rcases List.mem_append.1 hmem with hmem | hmem
      · rcases Text.mem_of_mem_joinWith hmem with hmem | ⟨line, hline, hmem⟩
        · exact absurd hmem (by decide)
        · obtain ⟨row, hrow, rfl⟩ := List.mem_map.1 hline
          obtain ⟨seg, hseg, hmem⟩ := List.mem_flatMap.1 hmem
          have hpaint : seg.paint (config.recolored false).colorEnabled = seg.text :=
            seg.paint_disabled
          exact hplain row hrow seg hseg (hpaint ▸ hmem)
      · exact absurd hmem (by decide)

/-- Texts that look like what stands behind an escape character. -/
def bracketed : Diagnostic where
  title := ['t']
  source := some ⟨"x[31m;\ty = [0m\n".toList, some "0;1m".toList, none⟩
  labels := [⟨⟨1, 5⟩, some "[1m".toList, some { bold := true }⟩, ⟨⟨5, 8⟩, some ['m'], none⟩]
  footnotes := [⟨"1;2m".toList, none⟩]

section

attribute [local instance] Platform.usual

theorem colored_text_removes_to_plain_bracketed : ∃ colored plain,
    bracketed.render (fun _ => 1) (Config.default.recolored true) .expanded = .ok colored ∧
      bracketed.render (fun _ => 1) (Config.default.recolored false) .expanded = .ok plain ∧
      escapeChar ∈ colored ∧ escapeChar ∉ plain ∧ Escape.remove colored = plain := by
  have hunescaped : Unescaped Config.default bracketed := by
    refine ⟨by decide, by decide, ?_, ?_, by decide, by decide⟩
    · rintro source hsource name hname
      cases hsource
      cases hname
      decide
    · rintro source hsource
      cases hsource
      decide
  obtain ⟨-, hremove, hplain⟩ := colored_text_removes_to_plain (fun _ => 1) hunescaped .expanded
  obtain ⟨colored, hcolored, hescape⟩ : ∃ colored,
      bracketed.render (fun _ => 1) (Config.default.recolored true) .expanded = .ok colored ∧
        colored.contains escapeChar = true := ⟨_, rfl, rfl⟩
  rw [hcolored] at hremove
  refine ⟨colored, _, hcolored, hremove.symm, List.contains_iff_mem.1 hescape, ?_, rfl⟩
  exact hplain _ hremove.symm

end

end Rendering
end Excerpt
