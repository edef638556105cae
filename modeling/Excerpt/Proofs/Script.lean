import Mathlib.Data.List.Forall2
import Excerpt.Proofs.Glyphs
import Excerpt.Proofs.Merging
import Excerpt.Proofs.Passages

/-!
What the rows of an excerpt say. A script notes row by row what is shown: a line of the source,
underlines, a piece of a text, a marker. Every row of the excerpt is written for one note of the
script of its mode; apart from the words of its note it holds nothing but spaces, digits of line
numbers and glyphs.
-/

namespace Excerpt

open ActiveLeaders

/-- What one row says: a line of the source, labels that are underlined with others whose texts
stand beside them, a piece of a text, the start or the end of a label with a piece of its text
beside it, or that lines are hidden. -/
inductive Note where
  | source (line : LineLayout)
  | underline (labs beside : List PlacedLabel)
  | text (lab : PlacedLabel) (piece : Text)
  | top (lead : Leader)
  | bottom (lead : Leader) (piece : Option Text)
  | elision

/-- The labels that have a text. -/
def withText (labs : List PlacedLabel) : List PlacedLabel := labs.filter (!·.message.isEmpty)

namespace Note

def kind : Note → RowKind
  | source _ => .source
  | underline _ _ => .underline
  | text _ _ => .text
  | top _ | bottom _ _ => .connector
  | elision => .elision

/-- The pieces of label texts that a row shows, each with its label. -/
def pieces : Note → List (PlacedLabel × Text)
  | underline _ beside => (withText beside).map fun lab => (lab, lab.message)
  | text lab piece => [(lab, piece)]
  | bottom lead piece => piece.toList.map (lead.toPlacedLabel, ·)
  | source _ | top _ | elision => []

/-- The marker at the end of a label, with the first of some texts beside it, the others below. -/
def ending (lead : Leader) (texts : List Text) : List Note :=
  bottom lead texts.head? :: texts.tail.map (text lead.toPlacedLabel)

theorem pieces_ending (lead : Leader) (texts : List Text) :
    (ending lead texts).flatMap pieces = texts.map (lead.toPlacedLabel, ·) := by
  cases texts with
  | nil => rfl
  | cons first rest =>
      rw [ending, List.flatMap_cons, List.tail_cons, List.flatMap_map]
      exact congrArg _ List.map_eq_flatMap.symm

end Note

namespace Segment

/-- Segments whose characters all have a property. -/
def MadeOf (P : Char → Prop) (segs : List Segment) : Prop := ∀ seg ∈ segs, ∀ ch ∈ seg.text, P ch

variable {P : Char → Prop}

theorem madeOf_nil : MadeOf P [] := fun _ hseg => absurd hseg List.not_mem_nil

theorem madeOf_append {a b : List Segment} : MadeOf P (a ++ b) ↔ MadeOf P a ∧ MadeOf P b :=
  List.forall_mem_append

theorem madeOf_flatMap {α : Type} {l : List α} {f : α → List Segment}
    (h : ∀ a ∈ l, MadeOf P (f a)) : MadeOf P (l.flatMap f) := by
  intro seg hseg
  obtain ⟨a, ha, hseg⟩ := List.mem_flatMap.1 hseg
  exact h a ha seg hseg

theorem madeOf_run {text : Text} (h : ∀ ch ∈ text, P ch) (style : Option Style) (caret : Bool) :
    MadeOf P (run text style caret) := by
  intro seg hseg
  rw [run] at hseg
  split at hseg
  · exact absurd hseg List.not_mem_nil
  · rw [List.mem_singleton.1 hseg]
    exact h

theorem madeOf_pad (h : P ' ') (cells : Int) : MadeOf P (pad cells) :=
  madeOf_run (fun _ hch => List.eq_of_mem_replicate hch ▸ h) none false

end Segment

open Segment

namespace Canvas

variable (c : Canvas)

/-- The part of a line that its source row shows. -/
def shownText (line : LineLayout) : Text :=
  if line.isBlank then line.text else line.text.drop c.layout.indentTrim.toNat

/-- The text that a row is written for. -/
def words : Note → Text
  | .source line => c.shownText line
  | note => Text.joinWith [',', ' '] (note.pieces.map Prod.snd)

/-- What a row begins with when the leaders `alive` are. -/
def head (alive : ActiveLeaders) : Note → List Segment
  | .source line => c.numberGutter line.number ++ c.margin alive
  | .underline labs _ => c.underlineSegments alive labs
  | .text _ _ => c.annotation alive
  | .top lead => c.connector alive lead c.charset.topCorner (c.drawnCol lead.span.startCol)
  | .bottom lead _ =>
    c.connector alive lead c.charset.bottomCorner (c.drawnCol lead.span.markerCol)
  | .elision => c.glyphGutter c.charset.elision ++ c.margin alive

/-- A character that is drawn around the texts: a space, a digit or part of a glyph. -/
def Ornament (ch : Char) : Prop :=
  ch = ' ' ∨ ch.isDigit = true ∨ ∃ glyph ∈ c.charset.glyphs, ch ∈ glyph

abbrev Ornate (segs : List Segment) : Prop := MadeOf c.Ornament segs

/-- A row that shows a note: what such a row begins with, ornaments, and the words of the note. -/
def Writes (note : Note) (row : Row) : Prop :=
  ∃ alive gap style, c.Ornate (c.head alive note ++ gap) ∧
    row = Row.trimmed ⟨note.kind, c.head alive note ++ gap ++ Segment.run (c.words note) style⟩

section Ornaments

variable {c}

theorem ornate_pad (cells : Int) : c.Ornate (pad cells) := madeOf_pad (.inl rfl) cells

theorem ornate_glyph {text : Text} (h : text ∈ c.charset.glyphs) (style : Option Style)
    (caret : Bool) : c.Ornate (Segment.run text style caret) :=
  madeOf_run (fun _ hch => .inr (.inr ⟨text, h, hch⟩)) style caret

theorem ornate_repeated {text : Text} (h : text ∈ c.charset.glyphs) (times : Int)
    (style : Option Style) (caret : Bool) :
    c.Ornate (Segment.run (repeated text times) style caret) := by
  refine madeOf_run (fun ch hch => ?_) style caret
  obtain ⟨part, hpart, hch⟩ := List.mem_flatten.1 hch
  exact .inr (.inr ⟨text, h, List.eq_of_mem_replicate hpart ▸ hch⟩)

theorem ornate_glyphGutter {text : Text} (h : text ∈ c.charset.glyphs) :
    c.Ornate (c.glyphGutter text) :=
  madeOf_append.2 ⟨madeOf_append.2 ⟨ornate_pad _, ornate_glyph h _ _⟩, ornate_pad 1⟩

theorem ornate_numberGutter (number : Nat) : c.Ornate (c.numberGutter number) := by
  have hnumber : ∀ ch ∈ alignRight c.layout.numberWidth (number + 1), c.Ornament ch := by
    intro ch hch
    rcases List.mem_append.1 hch with hch | hch
    · exact .inl (List.eq_of_mem_replicate hch)
    · exact .inr (.inl (isDigit_of_mem_toString hch))
  have hbar : c.charset.verticalBar ∈ c.charset.glyphs := List.mem_cons_self
  exact madeOf_append.2 ⟨madeOf_append.2 ⟨madeOf_append.2 ⟨madeOf_run hnumber _ _, ornate_pad 1⟩,
    ornate_glyph hbar _ _⟩, ornate_pad 1⟩

theorem ornate_leaderCell (active : ActiveLeaders) (slot : Nat) :
    c.Ornate (c.leaderCell active slot) := by
  rw [leaderCell]
  cases active.held slot with
  | none => exact ornate_pad 2
  | some held =>
      exact madeOf_append.2 ⟨ornate_glyph (by simp [Charset.glyphs]) _ _, ornate_pad 1⟩

theorem ornate_margin (active : ActiveLeaders) : c.Ornate (c.margin active) :=
  madeOf_flatMap fun slot _ => ornate_leaderCell active slot

theorem ornate_annotated (active : ActiveLeaders) : c.Ornate (c.annotation active) :=
  madeOf_append.2 ⟨ornate_glyphGutter (by simp [Charset.glyphs]), ornate_margin active⟩

theorem ornate_connectorCell (active : ActiveLeaders) (marker : Leader) {corner : Text}
    (h : corner ∈ c.charset.glyphs) (slot : Nat) :
    c.Ornate (c.connectorCell active marker corner slot) := by
  have hbar : ∀ style, c.Ornate (Segment.run c.charset.horizontalBar style) :=
    fun style => ornate_glyph (by simp [Charset.glyphs]) style false
  simp only [connectorCell]
  split
  · exact ornate_leaderCell active slot
  · split
    · exact madeOf_append.2 ⟨ornate_glyph h _ _, hbar _⟩
    · cases active.held slot with
      | none => exact madeOf_append.2 ⟨hbar _, hbar _⟩
      | some held =>
          exact madeOf_append.2 ⟨ornate_glyph (by simp [Charset.glyphs]) _ _, hbar _⟩

theorem ornate_connector (active : ActiveLeaders) (marker : Leader) {corner : Text}
    (h : corner ∈ c.charset.glyphs) (col : Int) :
    c.Ornate (c.connector active marker corner col) := by
  refine madeOf_append.2 ⟨madeOf_append.2 ⟨madeOf_append.2 ⟨?_, ?_⟩, ?_⟩, ?_⟩
  · exact ornate_glyphGutter (by simp [Charset.glyphs])
  · exact madeOf_flatMap fun slot _ => ornate_connectorCell active marker h slot
  · exact ornate_repeated (by simp [Charset.glyphs]) _ _ _
  · exact ornate_glyph (by simp [Charset.glyphs]) _ _

theorem ornate_caretRuns (col : Int) (labs : List PlacedLabel) :
    c.Ornate (c.caretRuns col labs) := by
  induction labs generalizing col with
  | nil => exact madeOf_nil
  | cons lab labs ih =>
      exact madeOf_append.2 ⟨madeOf_append.2 ⟨ornate_pad _,
        ornate_repeated (by simp [Charset.glyphs]) _ _ _⟩, ih _⟩

theorem ornate_head (alive : ActiveLeaders) (note : Note) : c.Ornate (c.head alive note) := by
  cases note with
  | source line => exact madeOf_append.2 ⟨ornate_numberGutter _, ornate_margin _⟩
  | underline labs beside => exact madeOf_append.2 ⟨ornate_annotated _, ornate_caretRuns _ _⟩
  | text lab piece => exact ornate_annotated _
  | top lead => exact ornate_connector _ _ (by simp [Charset.glyphs]) _
  | bottom lead piece => exact ornate_connector _ _ (by simp [Charset.glyphs]) _
  | elision =>
      exact madeOf_append.2 ⟨ornate_glyphGutter (by simp [Charset.glyphs]), ornate_margin _⟩

/-- A piece of a text comes last in its row, behind padding and bars. -/
theorem exists_textRun (lab : PlacedLabel) (col : Int) (bars : List PlacedLabel) :
    ∃ gap, c.Ornate gap ∧ ∀ piece, c.textRun lab piece col bars =
      gap ++ Segment.run piece (some (c.singleStyle lab)) := by
  induction bars generalizing col with
  | nil => exact ⟨_, ornate_pad _, fun piece => rfl⟩
  | cons bar bars ih =>
      obtain ⟨gap, hgap, hrun⟩ := ih (c.underlineStart bar + 1)
      refine ⟨Segment.pad (max (c.underlineStart bar - col) 0) ++
        Segment.run c.charset.pending (some (c.singleStyle bar)) ++ gap, ?_, fun piece => ?_⟩
      · exact madeOf_append.2 ⟨madeOf_append.2 ⟨ornate_pad _,
          ornate_glyph (by simp [Charset.glyphs]) _ _⟩, hgap⟩
      · rw [textRun, hrun, List.append_assoc _ gap]

end Ornaments

/-! ### The script of a mode -/

variable (mode : Mode)

/-- The labels whose texts stand beside the underlines of `labs`, of which `last` is the last. -/
def besideLast (active : ActiveLeaders) (line : LineLayout) (labs : List PlacedLabel)
    (last : PlacedLabel) : List PlacedLabel :=
  if fusedText (c.sharing line last) ≠ [] ∧ c.fitsInline
      (Row.width c.cells ⟨.underline, c.underlineSegments active labs⟩)
      (fusedText (c.sharing line last)) = true then
    c.sharing line last
  else []

def rungScript (active : ActiveLeaders) (line : LineLayout) (rung : Nat) : List Note :=
  match mode with
  | .expanded => .underline (line.onRung rung) [] ::
      (withText (line.onRung rung)).reverse.flatMap fun lab =>
        (c.wrap lab.message (c.underlineStart lab)).map (.text lab)
  | .compact =>
    match (c.primaries line rung).getLast? with
    | none => []
    | some last =>
      [.underline (c.primaries line rung) (c.besideLast active line (c.primaries line rung) last)]

/-- The texts that are written at the end of a label, the first one beside its marker. -/
def endTexts (active : ActiveLeaders) (lead : Leader) : List Text :=
  if lead.message = [] then []
  else
    match mode with
    | .expanded => c.wrap lead.message (c.drawnCol lead.span.markerCol + 2)
    | .compact =>
      if c.fitsInline ((c.endMarker active lead).width c.cells) lead.message then [lead.message]
      else []

def endsScript : ActiveLeaders → List Leader → List Note
  | _, [] => []
  | active, lead :: rest => Note.ending lead (c.endTexts mode active lead) ++
      endsScript (active.filter (·.slot != lead.slot)) rest

def lineScript (line : LineLayout) : List Note :=
  .source line :: ((List.range line.rungCount).flatMap
      (c.rungScript mode (leadersAbove line) line) ++ (line.starting.map .top ++
    c.endsScript mode (line.starting.foldl add (leadersAbove line)) line.ending))

def passageScript : Passage → List Note
  | .line line => c.lineScript mode line
  | .elision _ => [.elision]

/-- The notes of the whole excerpt. -/
def script : List Note := (passages c.layout.groups).flatMap (c.passageScript mode)

variable {c mode}

theorem writes_bare {note : Note} (hwords : c.words note = []) (alive : ActiveLeaders) :
    c.Writes note (Row.trimmed ⟨note.kind, c.head alive note⟩) := by
  refine ⟨alive, [], none, ?_, ?_⟩
  · rw [List.append_nil]
    exact ornate_head alive note
  · rw [hwords, Segment.run, if_pos rfl, List.append_nil, List.append_nil]

theorem writes_beside (note : Note) (alive : ActiveLeaders) (style : Style) :
    c.Writes note (Row.beside ⟨note.kind, c.head alive note⟩ (c.words note) style) :=
  ⟨alive, Segment.pad 1, some style, madeOf_append.2 ⟨ornate_head alive note, ornate_pad 1⟩, rfl⟩

theorem joinWith_singleton (separator text : Text) : Text.joinWith separator [text] = text :=
  List.append_nil text

theorem writes_text {lab : PlacedLabel} {alive : ActiveLeaders} {gap : List Segment}
    (hgap : c.Ornate gap) (piece : Text) (style : Option Style) :
    c.Writes (.text lab piece)
      (Row.trimmed ⟨.text, c.annotation alive ++ gap ++ Segment.run piece style⟩) := by
  refine ⟨alive, gap, style, madeOf_append.2 ⟨ornate_annotated alive, hgap⟩, ?_⟩
  have hwords : c.words (.text lab piece) = piece := joinWith_singleton _ piece
  rw [hwords]
  rfl

theorem writes_source (active : ActiveLeaders) (line : LineLayout) :
    c.Writes (.source line) (c.sourceRow active line) := by
  refine ⟨active, [], some (c.layout.source.style.getD c.styles.source), ?_, ?_⟩
  · rw [List.append_nil]
    exact ornate_head active (.source line)
  · rw [List.append_nil]
    rfl

theorem forall₂_map_map {α β γ : Type} {R : β → γ → Prop} {f : α → β} {g : α → γ} {l : List α}
    (h : ∀ a ∈ l, R (f a) (g a)) : List.Forall₂ R (l.map f) (l.map g) := by
  rw [List.forall₂_map_left_iff, List.forall₂_map_right_iff, List.forall₂_same]
  exact h

theorem forall₂_and {α β : Type} {R S : α → β → Prop} {l : List α} {m : List β}
    (hR : List.Forall₂ R l m) (hS : List.Forall₂ S l m) :
    List.Forall₂ (fun a b => R a b ∧ S a b) l m := by
  induction hR with
  | nil => exact .nil
  | cons hab _ ih =>
      cases hS with
      | cons hab' hS => exact .cons ⟨hab, hab'⟩ (ih hS)

theorem exists_mem_of_forall₂ {α β : Type} {R : α → β → Prop} {l : List α} {m : List β}
    (h : List.Forall₂ R l m) : ∀ b ∈ m, ∃ a ∈ l, R a b := by
  induction h with
  | nil => exact fun b hb => absurd hb List.not_mem_nil
  | cons hab _ ih =>
      refine List.forall_mem_cons.2 ⟨⟨_, List.mem_cons_self, hab⟩, fun b hb => ?_⟩
      obtain ⟨a, ha, hab⟩ := ih b hb
      exact ⟨a, List.mem_cons_of_mem _ ha, hab⟩

theorem forall₂_flatMap {α β γ : Type} {R : β → γ → Prop} {f : α → List β} {g : α → List γ}
    {l : List α} (h : ∀ a ∈ l, List.Forall₂ R (f a) (g a)) :
    List.Forall₂ R (l.flatMap f) (l.flatMap g) := by
  rw [List.flatMap_def, List.flatMap_def]
  exact List.rel_flatten (forall₂_map_map h)

theorem writes_textRows (active : ActiveLeaders) (labs : List PlacedLabel) :
    List.Forall₂ c.Writes
      (labs.flatMap fun lab => (c.wrap lab.message (c.underlineStart lab)).map (.text lab))
      (c.textRows active labs) := by
  induction labs with
  | nil => exact .nil
  | cons lab labs ih =>
      obtain ⟨gap, hgap, hrun⟩ := exists_textRun (c := c) lab 0 labs.reverse
      rw [List.flatMap_cons, textRows]
      refine List.rel_append (forall₂_map_map fun piece _ => ?_) ih
      rw [hrun, ← List.append_assoc]
      exact writes_text hgap piece _

theorem fusedText_eq (labs : List PlacedLabel) :
    fusedText labs = Text.joinWith [',', ' '] ((withText labs).map PlacedLabel.message) := by
  rw [fusedText, List.filter_map]
  rfl

theorem words_underline (labs beside : List PlacedLabel) :
    c.words (.underline labs beside) = fusedText beside := by
  have hmessages : ((withText beside).map fun lab => (lab, lab.message)).map Prod.snd =
      (withText beside).map PlacedLabel.message := List.map_map
  rw [fusedText_eq, ← hmessages]
  rfl

theorem writes_compactRung (active : ActiveLeaders) (line : LineLayout) (rung : Nat) :
    List.Forall₂ c.Writes (c.rungScript .compact active line rung)
      (c.compactRung active line rung).rows := by
  simp only [rungScript, compactRung]
  rw [← primaries]
  cases (c.primaries line rung).getLast? with
  | none => exact .nil
  | some last =>
      simp only [besideLast]
      split
      · have hwords := words_underline (c := c) (c.primaries line rung) (c.sharing line last)
        have hwrites := writes_beside (c := c)
          (.underline (c.primaries line rung) (c.sharing line last)) active (c.singleStyle last)
        rw [hwords] at hwrites
        exact .cons hwrites .nil
      · exact .cons (writes_bare (words_underline _ _) active) .nil

theorem labelRows_compact (active : ActiveLeaders) (line : LineLayout) :
    c.labelRows .compact active line =
      ⟨(List.range line.rungCount).flatMap fun rung => (c.compactRung active line rung).rows,
        (List.range line.rungCount).flatMap fun rung =>
          (c.compactRung active line rung).deferred⟩ := by
  have hfold : ∀ (rungs : List Nat) (drawn : Drawn),
      rungs.foldl (fun drawn rung => drawn ++ c.compactRung active line rung) drawn =
        drawn ++ ⟨rungs.flatMap fun rung => (c.compactRung active line rung).rows,
          rungs.flatMap fun rung => (c.compactRung active line rung).deferred⟩ := by
    intro rungs
    induction rungs with
    | nil =>
        intro drawn
        exact congrArg₂ Drawn.mk (List.append_nil _).symm (List.append_nil _).symm
    | cons rung rungs ih =>
        intro drawn
        rw [List.foldl_cons, ih, Drawn.append_assoc]
        rfl
  exact hfold _ {}

variable (c mode) in
/-- All rows of one rung of a line, the underlines and the texts below them. -/
def rungPicture (active : ActiveLeaders) (line : LineLayout) (rung : Nat) : List Row :=
  match mode with
  | .expanded => c.expandedRung active line rung
  | .compact => (c.compactRung active line rung).rows

theorem rows_labelRows (active : ActiveLeaders) (line : LineLayout) :
    (c.labelRows mode active line).rows =
      (List.range line.rungCount).flatMap (c.rungPicture mode active line) := by
  cases mode with
  | expanded => rfl
  | compact =>
      rw [labelRows_compact]
      rfl

theorem writes_rungPicture (active : ActiveLeaders) (line : LineLayout) (rung : Nat) :
    List.Forall₂ c.Writes (c.rungScript mode active line rung)
      (c.rungPicture mode active line rung) := by
  cases mode with
  | expanded => exact .cons (writes_bare (words_underline _ _) active) (writes_textRows active _)
  | compact => exact writes_compactRung active line rung

theorem endTexts_silent {lead : Leader} (h : lead.message = []) (active : ActiveLeaders) :
    c.endTexts mode active lead = [] := if_pos h

theorem endTexts_expanded {lead : Leader} (h : lead.message ≠ []) (active : ActiveLeaders) :
    c.endTexts .expanded active lead =
      c.wrap lead.message (c.drawnCol lead.span.markerCol + 2) := if_neg h

theorem endTexts_compact {lead : Leader} (h : lead.message ≠ []) (active : ActiveLeaders) :
    c.endTexts .compact active lead =
      if c.fitsInline ((c.endMarker active lead).width c.cells) lead.message then [lead.message]
      else [] := if_neg h

theorem writes_endDrawn (active after : ActiveLeaders) (lead : Leader) :
    List.Forall₂ c.Writes (Note.ending lead (c.endTexts mode active lead))
      (c.endDrawn mode active after lead).rows := by
  have hbare : c.words (.bottom lead none) = [] := rfl
  have hbeside : ∀ piece, c.Writes (.bottom lead (some piece))
      ((c.endMarker active lead).beside piece (c.multiStyle lead)) := by
    intro piece
    have hwords : c.words (.bottom lead (some piece)) = piece := joinWith_singleton _ piece
    have hwrites := writes_beside (c := c) (.bottom lead (some piece)) active (c.multiStyle lead)
    rw [hwords] at hwrites
    exact hwrites
  by_cases htext : lead.message = []
  · rw [endTexts_silent htext, c.endDrawn_silent active after htext]
    exact .cons (writes_bare hbare active) .nil
  · cases mode with
    | expanded =>
        obtain ⟨first, rest, hwrap, hdrawn⟩ := c.endDrawn_expanded active after htext
        rw [endTexts_expanded htext, hwrap, hdrawn]
        refine .cons (hbeside first) (forall₂_map_map fun piece _ => ?_)
        exact writes_text (ornate_pad _) piece _
    | compact =>
        rw [endTexts_compact htext, c.endDrawn_compact active after htext]
        split
        · exact .cons (hbeside _) .nil
        · exact .cons (writes_bare hbare active) .nil

/-! ### Scripts and pictures, part by part -/

section Parts

variable {R : Note → Row → Prop}

theorem forall₂_startRows (h : ∀ active lead, R (.top lead) (c.startRow active lead))
    (active : ActiveLeaders) (leads : List Leader) :
    List.Forall₂ R (leads.map .top) (c.startRows active leads).1 := by
  induction leads generalizing active with
  | nil => exact .nil
  | cons lead leads ih => exact .cons (h active lead) (ih _)

theorem forall₂_endsDrawn {leads : List Leader} (h : ∀ lead ∈ leads, ∀ active after,
      List.Forall₂ R (Note.ending lead (c.endTexts mode active lead))
        (c.endDrawn mode active after lead).rows) (active : ActiveLeaders) :
    List.Forall₂ R (c.endsScript mode active leads) (c.endsDrawn mode active leads).rows := by
  induction leads generalizing active with
  | nil => exact .nil
  | cons lead leads ih =>
      obtain ⟨hlead, hleads⟩ := List.forall_mem_cons.1 h
      rw [endsScript, endsDrawn, append_rows]
      exact List.rel_append (hlead _ _) (ih hleads _)

/-- What relates the notes to the rows of every part of an excerpt relates them all. -/
theorem forall₂_picture (hsource : ∀ active line, R (.source line) (c.sourceRow active line))
    (hrung : ∀ line ∈ c.layout.lines, ∀ active rung, List.Forall₂ R
      (c.rungScript mode active line rung) (c.rungPicture mode active line rung))
    (hstart : ∀ active lead, R (.top lead) (c.startRow active lead))
    (hend : ∀ line ∈ c.layout.lines, ∀ lead ∈ line.ending, ∀ active after, List.Forall₂ R
      (Note.ending lead (c.endTexts mode active lead)) (c.endDrawn mode active after lead).rows)
    (helision : ∀ alive, R .elision (c.elisionRow alive)) :
    List.Forall₂ R (c.script mode) (c.picture mode).rows := by
  refine forall₂_flatMap fun part hpart => ?_
  cases part with
  | elision alive => exact .cons (helision alive) .nil
  | line line =>
      have hline := mem_passages_iff.1 hpart
      simp only [passageScript, lineScript, passageDrawn, lineDrawn, append_rows, rows_labelRows,
        List.append_assoc]
      have hrungs := forall₂_flatMap (l := List.range line.rungCount) fun rung _ =>
        hrung line hline (leadersAbove line) rung
      exact .cons (hsource _ line) (List.rel_append hrungs
        (List.rel_append (forall₂_startRows hstart _ _) (forall₂_endsDrawn (hend line hline) _)))

end Parts

theorem writes_startRow (active : ActiveLeaders) (lead : Leader) :
    c.Writes (.top lead) (c.startRow active lead) :=
  writes_bare (show c.words (.top lead) = [] from rfl) active

/-- Every row of an excerpt is written for one note, in the order of the script. -/
theorem writes_picture (c : Canvas) (mode : Mode) :
    List.Forall₂ c.Writes (c.script mode) (c.picture mode).rows :=
  forall₂_picture writes_source (fun line _ active rung => writes_rungPicture active line rung)
    writes_startRow (fun _ _ lead _ active after => writes_endDrawn active after lead)
    fun alive => writes_bare (show c.words .elision = [] from rfl) alive

/-! ### Rows by kind -/

theorem kind_of_writes {note : Note} {row : Row} (h : c.Writes note row) :
    row.kind = note.kind := by
  obtain ⟨alive, gap, style, -, rfl⟩ := h
  rfl

theorem filter_of_writes {p : RowKind → Bool} {notes : List Note} {rows : List Row}
    (h : List.Forall₂ c.Writes notes rows) (hnotes : ∀ note ∈ notes, p note.kind = false) :
    rows.filter (fun row => p row.kind) = [] := by
  refine List.filter_eq_nil_iff.2 fun row hrow => ?_
  obtain ⟨note, hnote, hwrites⟩ := exists_mem_of_forall₂ h row hrow
  rw [kind_of_writes hwrites, hnotes note hnote]
  exact Bool.false_ne_true

theorem kind_of_mem_rungScript {active : ActiveLeaders} {line : LineLayout} {rung : Nat}
    {note : Note} (h : note ∈ c.rungScript mode active line rung) :
    note.kind = .underline ∨ note.kind = .text := by
  cases mode with
  | expanded =>
      rcases List.mem_cons.1 h with rfl | h
      · exact .inl rfl
      · obtain ⟨lab, -, h⟩ := List.mem_flatMap.1 h
        obtain ⟨piece, -, rfl⟩ := List.mem_map.1 h
        exact .inr rfl
  | compact =>
      simp only [rungScript] at h
      split at h
      · exact absurd h List.not_mem_nil
      · exact .inl (List.mem_singleton.1 h ▸ rfl)

theorem kind_of_mem_endsScript {active : ActiveLeaders} {leads : List Leader} {note : Note}
    (h : note ∈ c.endsScript mode active leads) :
    note.kind = .connector ∨ note.kind = .text := by
  induction leads generalizing active with
  | nil => exact absurd h List.not_mem_nil
  | cons lead leads ih =>
      rcases List.mem_append.1 h with h | h
      · rcases List.mem_cons.1 h with rfl | h
        · exact .inl rfl
        · obtain ⟨piece, -, rfl⟩ := List.mem_map.1 h
          exact .inr rfl
      · exact ih h

variable {p : RowKind → Bool}

theorem filter_lineDrawn (line : LineLayout) :
    (c.lineDrawn mode line).rows.filter (fun row => p row.kind) =
      [c.sourceRow (leadersAbove line) line].filter (fun row => p row.kind) ++
      ((c.labelRows mode (leadersAbove line) line).rows.filter (fun row => p row.kind) ++
      ((c.startRows (leadersAbove line) line.starting).1.filter (fun row => p row.kind) ++
        (c.endsDrawn mode (line.starting.foldl add (leadersAbove line)) line.ending).rows.filter
          fun row => p row.kind)) := by
  simp only [lineDrawn, append_rows, List.filter_append, List.append_assoc]

theorem filter_labelRows_eq_nil (hunderline : p .underline = false) (htext : p .text = false)
    (active : ActiveLeaders) (line : LineLayout) :
    (c.labelRows mode active line).rows.filter (fun row => p row.kind) = [] := by
  rw [rows_labelRows]
  refine filter_of_writes (forall₂_flatMap fun rung _ => writes_rungPicture active line rung) ?_
  intro note hnote
  obtain ⟨rung, -, hnote⟩ := List.mem_flatMap.1 hnote
  rcases kind_of_mem_rungScript hnote with hkind | hkind
  · rw [hkind, hunderline]
  · rw [hkind, htext]

theorem filter_startRows_eq_nil (hconnector : p .connector = false) (active : ActiveLeaders)
    (leads : List Leader) :
    (c.startRows active leads).1.filter (fun row => p row.kind) = [] := by
  refine filter_of_writes (forall₂_startRows writes_startRow active leads) fun note hnote => ?_
  obtain ⟨lead, -, rfl⟩ := List.mem_map.1 hnote
  exact hconnector

theorem filter_endsDrawn_eq_nil (hconnector : p .connector = false) (htext : p .text = false)
    (active : ActiveLeaders) (leads : List Leader) :
    (c.endsDrawn mode active leads).rows.filter (fun row => p row.kind) = [] := by
  have hwrites : List.Forall₂ c.Writes (c.endsScript mode active leads) _ :=
    forall₂_endsDrawn (fun lead _ active after => writes_endDrawn active after lead) active
  refine filter_of_writes hwrites fun note hnote => ?_
  rcases kind_of_mem_endsScript hnote with hkind | hkind
  · rw [hkind, hconnector]
  · rw [hkind, htext]

section Line

variable (line : LineLayout) (htext : p .text = false)

include htext

theorem filter_lineDrawn_labels (hsource : p .source = true) (hconnector : p .connector = false) :
    (c.lineDrawn mode line).rows.filter (fun row => p row.kind) =
      c.sourceRow (leadersAbove line) line ::
        (c.labelRows mode (leadersAbove line) line).rows.filter fun row => p row.kind := by
  have hshown : [c.sourceRow (leadersAbove line) line].filter (fun row => p row.kind) =
      [c.sourceRow (leadersAbove line) line] := List.filter_cons_of_pos hsource
  rw [filter_lineDrawn, hshown, filter_startRows_eq_nil hconnector,
    filter_endsDrawn_eq_nil hconnector htext, List.append_nil, List.append_nil]
  rfl

theorem filter_lineDrawn_source (hsource : p .source = true) (hunderline : p .underline = false)
    (hconnector : p .connector = false) :
    (c.lineDrawn mode line).rows.filter (fun row => p row.kind) =
      [c.sourceRow (leadersAbove line) line] := by
  rw [filter_lineDrawn_labels line htext hsource hconnector,
    filter_labelRows_eq_nil hunderline htext]

theorem filter_lineDrawn_markers (hsource : p .source = false) (hunderline : p .underline = false)
    (hconnector : p .connector = true) :
    (c.lineDrawn mode line).rows.filter (fun row => p row.kind) =
      (c.startRows (leadersAbove line) line.starting).1 ++
        (c.endsDrawn mode (line.starting.foldl add (leadersAbove line)) line.ending).rows.filter
          fun row => p row.kind := by
  have hstarts : (c.startRows (leadersAbove line) line.starting).1.filter (fun row => p row.kind) =
      (c.startRows (leadersAbove line) line.starting).1 := by
    refine List.filter_eq_self.2 fun row hrow => ?_
    obtain ⟨note, hnote, hwrites⟩ :=
      exists_mem_of_forall₂ (forall₂_startRows writes_startRow _ _) row hrow
    obtain ⟨lead, -, rfl⟩ := List.mem_map.1 hnote
    exact (congrArg p (kind_of_writes hwrites)).trans hconnector
  rw [filter_lineDrawn, hstarts, filter_labelRows_eq_nil hunderline htext, List.nil_append,
    List.filter_cons_of_neg (by simp [sourceRow, Row.trimmed, hsource])]
  rfl

end Line

end Canvas
end Excerpt
