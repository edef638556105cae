import Mathlib.Data.List.Perm.Basic
import Excerpt.Proofs.Coverage
import Excerpt.Proofs.Script

/-!
No label text is lost or told twice. Every line tells the labels that are underlined on it and those
that end on it. Expanded, each of their texts is written line by line in the rows; compact, each is
written as a whole beside a marker or left for the list of items, and the law of a compact drawing
is that what it has told and what it has deferred are together the texts there are.
-/

namespace Excerpt

open ActiveLeaders Layout

theorem withText_append (a b : List PlacedLabel) :
    withText (a ++ b) = withText a ++ withText b := List.filter_append a b

theorem withText_flatMap {α : Type} (l : List α) (f : α → List PlacedLabel) :
    withText (l.flatMap f) = l.flatMap fun a => withText (f a) := List.filter_flatMap

theorem mem_withText {labs : List PlacedLabel} {lab : PlacedLabel} :
    lab ∈ withText labs ↔ lab ∈ labs ∧ lab.message ≠ [] := by
  rw [withText, List.mem_filter, Bool.not_eq_true', ← Bool.not_eq_true, List.isEmpty_iff]

theorem withText_perm {a b : List PlacedLabel} (h : a.Perm b) :
    (withText a).Perm (withText b) := h.filter _

/-- The labels that a row tells. -/
def Note.told (note : Note) : List PlacedLabel := note.pieces.map Prod.fst

theorem told_flatMap (notes : List Note) :
    notes.flatMap Note.told = (notes.flatMap Note.pieces).map Prod.fst := List.map_flatMap.symm

theorem told_underline (labs beside : List PlacedLabel) :
    (Note.underline labs beside).told = withText beside :=
  List.map_map.trans (List.map_id _)

/-- The lines of the texts of labels, one text after the other. -/
def linesOf (labs : List PlacedLabel) : List (PlacedLabel × Text) :=
  labs.flatMap fun lab => lab.message.lines.map (lab, ·)

theorem linesOf_append (a b : List PlacedLabel) : linesOf (a ++ b) = linesOf a ++ linesOf b :=
  List.flatMap_append

theorem linesOf_flatMap {α : Type} (l : List α) (f : α → List PlacedLabel) :
    linesOf (l.flatMap f) = l.flatMap fun a => linesOf (f a) := List.flatMap_assoc

theorem infix_flatMap {α β : Type} {a : α} {l : List α} (h : a ∈ l) (f : α → List β) :
    f a <:+: l.flatMap f := List.infix_of_mem_flatten (List.mem_map_of_mem h)

theorem append_append_append_perm {α : Type} (a b c d : List α) :
    ((a ++ b) ++ (c ++ d)).Perm ((a ++ c) ++ (b ++ d)) := by
  rw [List.append_assoc, List.append_assoc]
  exact (List.perm_append_comm_assoc b c d).append_left a

namespace Canvas

variable {c : Canvas}

/-- Without a width limit the pieces of a text are its lines. -/
theorem wrap_of_no_limit (hlimit : c.config.limit = none) (text : Text) (col : Int) :
    c.wrap text col = text.lines := by
  rw [wrap, hlimit]
  exact List.flatMap_singleton' _

theorem flatMap_script {β : Type} (mode : Mode) (f : Note → List β) (hf : f .elision = []) :
    (c.script mode).flatMap f = c.layout.lines.flatMap fun line =>
      (c.lineScript mode line).flatMap f := by
  rw [script, List.flatMap_assoc]
  refine flatMap_passages (fun part => (c.passageScript mode part).flatMap f) (fun alive => ?_) _
  rw [passageScript, List.flatMap_singleton, hf]

theorem flatMap_lineScript {β : Type} (mode : Mode) (f : Note → List β)
    (hsource : ∀ line, f (.source line) = []) (htop : ∀ lead, f (.top lead) = [])
    (line : LineLayout) : (c.lineScript mode line).flatMap f =
      ((List.range line.rungCount).flatMap fun rung =>
        (c.rungScript mode (leadersAbove line) line rung).flatMap f) ++
      (c.endsScript mode (line.starting.foldl add (leadersAbove line)) line.ending).flatMap f := by
  have hstarting : (line.starting.map Note.top).flatMap f = [] := by
    rw [List.flatMap_map]
    exact List.flatMap_eq_nil_iff.2 fun lead _ => htop lead
  rw [lineScript, List.flatMap_cons, hsource, List.nil_append, List.flatMap_append,
    List.flatMap_append, hstarting, List.nil_append, List.flatMap_assoc]

/-! ### Expanded rows -/

/-- The labels of a line in the order in which expanded rows tell them. -/
def tellingOrder (line : LineLayout) : List PlacedLabel :=
  ((List.range line.rungCount).flatMap fun rung => (withText (line.onRung rung)).reverse) ++
    withText (line.ending.map Leader.toPlacedLabel)

theorem tellingOrder_perm {line : LineLayout} (h : line.Indexed) :
    (tellingOrder line).Perm (withText line.told) := by
  rw [tellingOrder, LineLayout.told, withText_append]
  refine List.Perm.append_right _ ?_
  refine (List.Perm.flatMap_left _ fun rung _ => List.reverse_perm _).trans ?_
  rw [← withText_flatMap]
  exact withText_perm h.onRung_perm

section Expanded

variable (hlimit : c.config.limit = none)

include hlimit

theorem pieces_rungScript (active : ActiveLeaders) (line : LineLayout) (rung : Nat) :
    (c.rungScript .expanded active line rung).flatMap Note.pieces =
      linesOf (withText (line.onRung rung)).reverse := by
  simp only [rungScript, wrap_of_no_limit hlimit]
  rw [List.flatMap_cons, List.flatMap_assoc, linesOf]
  refine List.flatMap_congr fun lab _ => ?_
  rw [List.flatMap_map]
  exact List.map_eq_flatMap.symm

theorem pieces_endsScript (active : ActiveLeaders) (leads : List Leader) :
    (c.endsScript .expanded active leads).flatMap Note.pieces =
      linesOf (withText (leads.map Leader.toPlacedLabel)) := by
  induction leads generalizing active with
  | nil => rfl
  | cons lead leads ih =>
      have hlead : (c.endTexts .expanded active lead).map (lead.toPlacedLabel, ·) =
          linesOf (withText [lead.toPlacedLabel]) := by
        by_cases htext : lead.message = []
        · rw [endTexts_silent htext, withText, List.filter_cons_of_neg (by simp [htext])]
          rfl
        · rw [endTexts_expanded htext, wrap_of_no_limit hlimit, withText,
            List.filter_cons_of_pos (by simpa using htext)]
          exact (List.append_nil _).symm
      rw [endsScript, List.flatMap_append, Note.pieces_ending, ih, hlead, ← linesOf_append,
        ← withText_append]
      rfl

theorem pieces_script : (c.script .expanded).flatMap Note.pieces =
    linesOf (c.layout.lines.flatMap tellingOrder) := by
  rw [flatMap_script _ _ rfl, linesOf_flatMap]
  refine List.flatMap_congr fun line _ => ?_
  rw [flatMap_lineScript _ _ (fun _ => rfl) (fun _ => rfl), pieces_endsScript hlimit, tellingOrder,
    linesOf_append, linesOf_flatMap]
  exact congrArg (· ++ _) (List.flatMap_congr fun rung _ => pieces_rungScript hlimit _ _ _)

end Expanded

theorem infix_script {mode : Mode} {line : LineLayout} (hline : line ∈ c.layout.lines)
    {notes : List Note} (h : notes <:+: c.lineScript mode line) : notes <:+: c.script mode :=
  h.trans (infix_flatMap (mem_passages_iff.2 hline) (c.passageScript mode))

theorem rung_infix_lineScript {mode : Mode} {line : LineLayout} {rung : Nat}
    (hrung : rung < line.rungCount) :
    c.rungScript mode (leadersAbove line) line rung <:+: c.lineScript mode line := by
  have hrungs := infix_flatMap (List.mem_range.2 hrung)
    (c.rungScript mode (leadersAbove line) line)
  exact hrungs.trans (List.infix_append' [Note.source line] _ _)

theorem ending_infix_endsScript (mode : Mode) {leads : List Leader} {lead : Leader}
    (hlead : lead ∈ leads) (active : ActiveLeaders) : ∃ alive,
      Note.ending lead (c.endTexts mode alive lead) <:+: c.endsScript mode active leads := by
  induction leads generalizing active with
  | nil => exact absurd hlead List.not_mem_nil
  | cons first leads ih =>
      rw [endsScript]
      rcases List.mem_cons.1 hlead with rfl | hlead
      · exact ⟨active, (List.prefix_append _ _).isInfix⟩
      · obtain ⟨alive, hpart⟩ := ih hlead (active.filter (·.slot != first.slot))
        exact ⟨alive, hpart.trans (List.suffix_append _ _).isInfix⟩

theorem ending_infix_lineScript (mode : Mode) {line : LineLayout} {lead : Leader}
    (hlead : lead ∈ line.ending) : ∃ alive,
      Note.ending lead (c.endTexts mode alive lead) <:+: c.lineScript mode line := by
  obtain ⟨alive, hpart⟩ := ending_infix_endsScript (c := c) mode hlead
    (line.starting.foldl add (leadersAbove line))
  refine ⟨alive, hpart.trans ?_⟩
  rw [lineScript, ← List.append_assoc]
  exact (List.suffix_append (Note.source line :: _) _).isInfix

/-- The text of a label stands below the underlines of its rung, behind texts of other labels of the
rung only. -/
theorem texts_infix_rungScript {line : LineLayout} {rung : Nat} {lab : PlacedLabel}
    (hlab : lab ∈ line.onRung rung) (htext : lab.message ≠ []) (active : ActiveLeaders) :
    ∃ others, (∀ note ∈ others, ∃ other ∈ line.onRung rung, ∃ piece, note = .text other piece) ∧
      .underline (line.onRung rung) [] ::
          (others ++ (c.wrap lab.message (c.underlineStart lab)).map (.text lab)) <:+:
        c.rungScript .expanded active line rung := by
  have hmem : lab ∈ (withText (line.onRung rung)).reverse :=
    List.mem_reverse.2 (mem_withText.2 ⟨hlab, htext⟩)
  obtain ⟨before, after, hsplit⟩ := List.append_of_mem hmem
  refine ⟨before.flatMap fun other =>
    (c.wrap other.message (c.underlineStart other)).map (.text other), ?_, ?_⟩
  · intro note hnote
    obtain ⟨other, hother, hnote⟩ := List.mem_flatMap.1 hnote
    obtain ⟨piece, -, rfl⟩ := List.mem_map.1 hnote
    have hrung : other ∈ (withText (line.onRung rung)).reverse :=
      hsplit ▸ List.mem_append_left _ hother
    exact ⟨other, (mem_withText.1 (List.mem_reverse.1 hrung)).1, piece, rfl⟩
  · simp only [rungScript, hsplit]
    rw [List.flatMap_append, List.flatMap_cons, ← List.append_assoc, ← List.cons_append]
    exact (List.prefix_append _ _).isInfix

/-! ### Compact rows -/

theorem told_compactRung (active : ActiveLeaders) (line : LineLayout) (rung : Nat) :
    ((c.rungScript .compact active line rung).flatMap Note.told ++
      (c.compactRung active line rung).deferred).Perm
        (withText ((c.primaries line rung).flatMap (c.sharing line))) := by
  simp only [rungScript, compactRung]
  rw [← primaries]
  cases hlast : (c.primaries line rung).getLast? with
  | none =>
      rw [List.getLast?_eq_none_iff.1 hlast]
      exact .refl _
  | some last =>
      obtain ⟨init, hinit⟩ := List.getLast?_eq_some_iff.1 hlast
      have hearlier : ((c.primaries line rung).dropLast.flatMap fun lab =>
          deferredOf (c.sharing line lab)) = withText (init.flatMap (c.sharing line)) := by
        rw [hinit, List.dropLast_concat, withText_flatMap]
        rfl
      have hall : withText ((c.primaries line rung).flatMap (c.sharing line)) =
          withText (init.flatMap (c.sharing line)) ++ withText (c.sharing line last) := by
        rw [hinit, List.flatMap_append, List.flatMap_singleton, withText_append]
      dsimp only
      rw [List.flatMap_singleton, told_underline, hearlier, hall, besideLast]
      split
      · exact List.perm_append_comm
      · exact .refl _

theorem told_endDrawn (active after : ActiveLeaders) (lead : Leader) :
    (Note.ending lead (c.endTexts .compact active lead)).flatMap Note.told ++
      (c.endDrawn .compact active after lead).deferred = withText [lead.toPlacedLabel] := by
  rw [told_flatMap, Note.pieces_ending]
  by_cases htext : lead.message = []
  · rw [endTexts_silent htext, c.endDrawn_silent active after htext, withText,
      List.filter_cons_of_neg (by simp [htext])]
    rfl
  · rw [endTexts_compact htext, c.endDrawn_compact active after htext]
    split
    · rw [withText, List.filter_cons_of_pos (by simpa using htext)]
      rfl
    · rfl

theorem told_endsDrawn (active : ActiveLeaders) (leads : List Leader) :
    ((c.endsScript .compact active leads).flatMap Note.told ++
      (c.endsDrawn .compact active leads).deferred).Perm
        (withText (leads.map Leader.toPlacedLabel)) := by
  induction leads generalizing active with
  | nil => exact .refl _
  | cons lead leads ih =>
      rw [endsScript, endsDrawn, List.flatMap_append, append_deferred]
      refine (append_append_append_perm ..).trans ?_
      rw [told_endDrawn, List.map_cons,
        show lead.toPlacedLabel :: leads.map Leader.toPlacedLabel =
          [lead.toPlacedLabel] ++ leads.map Leader.toPlacedLabel from rfl, withText_append]
      exact (ih _).append_left _

/-- The law of the rungs of a line: what is told and what is deferred are the texts on them. -/
theorem told_labelRows {line : LineLayout} (h : line.Indexed) (active : ActiveLeaders) :
    (((List.range line.rungCount).flatMap fun rung =>
        (c.rungScript .compact active line rung).flatMap Note.told) ++
      (c.labelRows .compact active line).deferred).Perm (withText line.labels) := by
  have hrungs : (withText ((List.range line.rungCount).flatMap fun rung =>
      (c.primaries line rung).flatMap (c.sharing line))).Perm (withText line.labels) := by
    rw [← List.flatMap_assoc]
    exact withText_perm (((primaries_perm h).flatMap_right _).trans (sharing_perm h))
  rw [labelRows_compact]
  refine (List.flatMap_append_perm ..).trans (List.Perm.trans ?_ hrungs)
  rw [withText_flatMap]
  exact List.Perm.flatMap_left _ fun rung _ => told_compactRung _ line rung

/-- The law of one line: what is told and what is deferred are its texts. -/
theorem told_lineDrawn {line : LineLayout} (h : line.Indexed) :
    ((c.lineScript .compact line).flatMap Note.told ++ (c.lineDrawn .compact line).deferred).Perm
      (withText line.told) := by
  have hdeferred : (c.lineDrawn .compact line).deferred =
      (c.labelRows .compact (leadersAbove line) line).deferred ++
        (c.endsDrawn .compact (line.starting.foldl add (leadersAbove line))
          line.ending).deferred := by
    simp only [lineDrawn, append_deferred, List.nil_append, List.append_nil]
  rw [flatMap_lineScript _ _ (fun _ => rfl) (fun _ => rfl), hdeferred, LineLayout.told,
    withText_append]
  exact (append_append_append_perm ..).trans
    (List.Perm.append (told_labelRows h _) (told_endsDrawn _ _))

theorem told_picture (h : ∀ line ∈ c.layout.lines, line.Indexed) :
    ((c.script .compact).flatMap Note.told ++ (c.picture .compact).deferred).Perm
      (withText (c.layout.lines.flatMap LineLayout.told)) := by
  have hdeferred : (c.picture .compact).deferred =
      c.layout.lines.flatMap fun line => (c.lineDrawn .compact line).deferred :=
    flatMap_passages (fun part => (c.passageDrawn .compact part).deferred) (fun _ => rfl) _
  rw [flatMap_script _ _ rfl, hdeferred, withText_flatMap]
  refine (List.flatMap_append_perm ..).trans ?_
  exact List.Perm.flatMap_left _ fun line hline => told_lineDrawn (h line hline)

/-- What an item begins with: where its label is. -/
def itemFront (c : Canvas) (lab : PlacedLabel) : List Segment :=
  let left := some c.styles.leftColumn
  Segment.run c.charset.verticalBar left ++ Segment.pad 1 ++ Segment.run ['['] left ++
    Segment.run (whereabouts lab.span) (some c.styles.source) ++ Segment.run [']', ':', ' '] left

theorem flatMap_text_run (text : Text) (style : Option Style) (caret : Bool) :
    (Segment.run text style caret).flatMap Segment.text = text := by
  rw [Segment.run]
  split
  · exact Eq.symm ‹_›
  · exact List.append_nil text

/-- The item of a label: where the label is, then the lines of its text, one below the other. -/
def Itemizes (c : Canvas) (lab : PlacedLabel) (rows : List Row) : Prop :=
  (c.itemFront lab).flatMap Segment.text =
      c.charset.verticalBar ++ [' ', '['] ++ whereabouts lab.span ++ [']', ':', ' '] ∧
    ∃ first rest indent, lab.message.lines = first :: rest ∧
      rows = Row.trimmed ⟨.item, c.itemFront lab ++ Segment.run first⟩ :: rest.map fun line =>
        Row.trimmed ⟨.item, Segment.pad indent ++ Segment.run line⟩

theorem itemizes_itemRows (lab : PlacedLabel) : c.Itemizes lab (c.itemRows lab) := by
  constructor
  · simp only [itemFront, List.flatMap_append, flatMap_text_run, Segment.pad, List.append_assoc]
    rfl
  · cases hlines : lab.message.splitLines with
    | nil =>
        refine ⟨[], [], 0, by rw [Text.lines, hlines], ?_⟩
        have hrun : Segment.run [] = [] := rfl
        simp only [itemRows, hlines]
        rw [hrun, List.append_nil]
        rfl
    | cons first rest =>
        refine ⟨first, rest, 2 + (whereabouts lab.span).length + 4, by rw [Text.lines, hlines], ?_⟩
        simp only [itemRows, hlines]
        rfl

/-- How an expanded excerpt tells the texts of labels. Every text is told once, line by line; the
lines of a label on one line stand below the underlines of its rung, those of a label over several
lines from its end marker on. -/
structure TellsInRows (c : Canvas) (notes : List Note) : Prop where
  once : ∃ order : List PlacedLabel, order.Perm (withText c.layout.labels) ∧
    notes.flatMap Note.pieces = order.flatMap fun lab => lab.message.lines.map (lab, ·)
  below : ∀ lab ∈ withText c.layout.labels, lab.span.isMultiline = false →
    ∃ line ∈ c.layout.lines, line.number = lab.span.startLine ∧
      ∃ rung, lab ∈ line.onRung rung ∧ ∃ others,
        (∀ note ∈ others, ∃ other ∈ line.onRung rung, ∃ piece, note = .text other piece) ∧
        .underline (line.onRung rung) [] :: (others ++ lab.message.lines.map (.text lab)) <:+: notes
  ends : ∀ lab ∈ withText c.layout.labels, lab.span.isMultiline = true →
    ∃ lead : Leader, lead.toPlacedLabel = lab ∧ Note.ending lead lab.message.lines <:+: notes

/-- How a compact excerpt tells the texts of labels. Every text is either told as a whole, beside
the underline of its columns or beside its end marker, or listed as an item. -/
structure TellsInPlaces (c : Canvas) (notes : List Note) (items : List PlacedLabel) : Prop where
  once : (notes.flatMap Note.told ++ items).Perm (withText c.layout.labels)
  beside : ∀ note ∈ notes, ∀ lab ∈ note.told,
    (∃ line ∈ c.layout.lines, ∃ labs, ∃ last ∈ labs, note = .underline labs (c.sharing line last) ∧
      lab ∈ c.sharing line last ∧ c.underlineCols last = c.underlineCols lab) ∨
    ∃ lead : Leader, lead.toPlacedLabel = lab ∧ note = .bottom lead (some lab.message)
  sorted : items.Pairwise fun a b => a.index < b.index
  listed : ∀ lab ∈ items, c.Itemizes lab (c.itemRows lab)

theorem exists_of_told_rungScript {active : ActiveLeaders} {line : LineLayout} {rung : Nat}
    {note : Note} (hnote : note ∈ c.rungScript .compact active line rung) {lab : PlacedLabel}
    (hlab : lab ∈ note.told) : ∃ labs, ∃ last ∈ labs, note = .underline labs (c.sharing line last) ∧
      lab ∈ c.sharing line last ∧ c.underlineCols last = c.underlineCols lab := by
  simp only [rungScript] at hnote
  cases hlast : (c.primaries line rung).getLast? with
  | none =>
      rw [hlast] at hnote
      exact absurd hnote List.not_mem_nil
  | some last =>
      rw [hlast, List.mem_singleton] at hnote
      rw [hnote, told_underline, mem_withText, besideLast] at hlab
      obtain ⟨hlab, -⟩ := hlab
      split at hlab
      case isTrue hfits =>
          refine ⟨_, last, List.mem_of_getLast? hlast, ?_, hlab, (mem_sharing.1 hlab).2.symm⟩
          rw [hnote, besideLast, if_pos hfits]
      case isFalse => exact absurd hlab List.not_mem_nil

theorem exists_of_told_endsScript {active : ActiveLeaders} {leads : List Leader} {note : Note}
    (hnote : note ∈ c.endsScript .compact active leads) {lab : PlacedLabel}
    (hlab : lab ∈ note.told) :
    ∃ lead : Leader, lead.toPlacedLabel = lab ∧ note = .bottom lead (some lab.message) := by
  induction leads generalizing active with
  | nil => exact absurd hnote List.not_mem_nil
  | cons lead leads ih =>
      rcases List.mem_append.1 hnote with hnote | hnote
      · by_cases htext : lead.message = []
        · rw [endTexts_silent htext] at hnote
          rw [List.mem_singleton.1 hnote] at hlab
          exact absurd hlab List.not_mem_nil
        · rw [endTexts_compact htext] at hnote
          split at hnote
          · have heq : note = .bottom lead (some lead.message) := List.mem_singleton.1 hnote
            rw [heq] at hlab
            have hlead : lab = lead.toPlacedLabel := List.mem_singleton.1 hlab
            exact ⟨lead, hlead.symm, hlead ▸ heq⟩
          · rw [List.mem_singleton.1 hnote] at hlab
            exact absurd hlab List.not_mem_nil
      · exact ih hnote

theorem exists_of_told_script {note : Note} (hnote : note ∈ c.script .compact)
    {lab : PlacedLabel} (hlab : lab ∈ note.told) :
    (∃ line ∈ c.layout.lines, ∃ labs, ∃ last ∈ labs, note = .underline labs (c.sharing line last) ∧
      lab ∈ c.sharing line last ∧ c.underlineCols last = c.underlineCols lab) ∨
    ∃ lead : Leader, lead.toPlacedLabel = lab ∧ note = .bottom lead (some lab.message) := by
  obtain ⟨part, hpart, hnote⟩ := List.mem_flatMap.1 hnote
  cases part with
  | elision alive =>
      rw [List.mem_singleton.1 hnote] at hlab
      exact absurd hlab List.not_mem_nil
  | line line =>
      rw [passageScript, lineScript, List.mem_cons, List.mem_append, List.mem_append] at hnote
      rcases hnote with rfl | hnote | hnote | hnote
      · exact absurd hlab List.not_mem_nil
      · obtain ⟨rung, -, hnote⟩ := List.mem_flatMap.1 hnote
        exact .inl ⟨line, mem_passages_iff.1 hpart, exists_of_told_rungScript hnote hlab⟩
      · obtain ⟨lead, -, rfl⟩ := List.mem_map.1 hnote
        exact absurd hlab List.not_mem_nil
      · exact .inr (exists_of_told_endsScript hnote hlab)

end Canvas

open Canvas

section OfPlaced

variable {w : CellWidth} {config : Config} {source : Source} {placed : List PlacedLabel}
  (hindex : (placed.map PlacedLabel.index).Nodup)
  (hwithin : ∀ lab ∈ placed, lab.span.Within source.lineCount) (title : Text)

include hindex hwithin

/-- The text of a label on one line stands below the underlines of a rung of that line. -/
theorem exists_below_ofPlaced {lab : PlacedLabel} (hlab : lab ∈ placed) (htext : lab.message ≠ [])
    (hsingle : lab.span.isMultiline = false) :
    let c : Canvas := ⟨w, config, ofPlaced w config title source placed⟩
    ∃ line ∈ c.layout.lines, line.number = lab.span.startLine ∧
      ∃ rung, lab ∈ line.onRung rung ∧ ∃ others,
        (∀ note ∈ others, ∃ other ∈ line.onRung rung, ∃ piece, note = .text other piece) ∧
        .underline (line.onRung rung) [] ::
            (others ++ (c.wrap lab.message (c.underlineStart lab)).map (.text lab)) <:+:
          c.script .expanded := by
  have hline := shownLine_mem_lines w config title hwithin hlab (Nat.le_refl _)
    (hwithin lab hlab).rising
  obtain ⟨rung, hcount, hrung⟩ := exists_rung_of_mem_lines hindex hline hlab hsingle rfl
  obtain ⟨others, hothers, hpart⟩ := texts_infix_rungScript
    (c := ⟨w, config, ofPlaced w config title source placed⟩) hrung htext _
  exact ⟨_, hline, rfl, rung, hrung, others, hothers, infix_script hline
    (hpart.trans (rung_infix_lineScript hcount))⟩

omit hindex in
/-- The text of a label over several lines stands beside its end marker and below. -/
theorem exists_ending_ofPlaced {lab : PlacedLabel} (hlab : lab ∈ placed) (htext : lab.message ≠ [])
    (hmulti : lab.span.isMultiline = true) :
    let c : Canvas := ⟨w, config, ofPlaced w config title source placed⟩
    ∃ lead : Leader, lead.toPlacedLabel = lab ∧
      Note.ending lead (c.wrap lab.message (c.drawnCol lab.span.markerCol + 2)) <:+:
        c.script .expanded := by
  have hline := shownLine_mem_lines w config title hwithin hlab (hwithin lab hlab).rising
    (Nat.le_refl _)
  obtain ⟨lead, hlead, rfl⟩ := exists_mem_leadersOf hlab hmulti
  rw [ResolvedSpan.isMultiline, bne_iff_ne] at hmulti
  have hending := (mem_ending_layLine lead.span.endLine
    (expandTabs w config.tab (lineText source lead.span.endLine))).2 ⟨hlead, hmulti, rfl⟩
  obtain ⟨alive, hpart⟩ := ending_infix_lineScript
    (c := ⟨w, config, ofPlaced w config title source placed⟩) .expanded hending
  rw [endTexts_expanded htext] at hpart
  exact ⟨lead, rfl, infix_script hline hpart⟩

theorem tellsInRows_ofPlaced (hlimit : config.limit = none) :
    TellsInRows ⟨w, config, ofPlaced w config title source placed⟩
      (script ⟨w, config, ofPlaced w config title source placed⟩ .expanded) where
  once := by
    have htold : (withText ((ofPlaced w config title source placed).lines.flatMap
        LineLayout.told)).Perm (withText placed) := withText_perm (told_perm hindex hwithin title)
    refine ⟨_, List.Perm.trans ?_ htold, pieces_script hlimit⟩
    rw [withText_flatMap]
    exact List.Perm.flatMap_left _ fun line hline =>
      tellingOrder_perm (indexed_of_mem_lines hindex hline)
  below := by
    intro lab hlab hsingle
    obtain ⟨hplaced, htext⟩ := mem_withText.1 hlab
    obtain ⟨line, hline, hnumber, rung, hrung, others, hothers, hpart⟩ :=
      @exists_below_ofPlaced w config source placed hindex hwithin title lab hplaced htext hsingle
    rw [wrap_of_no_limit hlimit] at hpart
    exact ⟨line, hline, hnumber, rung, hrung, others, hothers, hpart⟩
  ends := by
    intro lab hlab hmulti
    obtain ⟨hplaced, htext⟩ := mem_withText.1 hlab
    obtain ⟨lead, hlead, hpart⟩ :=
      @exists_ending_ofPlaced w config source placed hwithin title lab hplaced htext hmulti
    rw [wrap_of_no_limit hlimit] at hpart
    exact ⟨lead, hlead, hpart⟩

theorem tellsInPlaces_ofPlaced :
    TellsInPlaces ⟨w, config, ofPlaced w config title source placed⟩
      (script ⟨w, config, ofPlaced w config title source placed⟩ .compact)
      (sortBy PlacedLabel.earlier
        (picture ⟨w, config, ofPlaced w config title source placed⟩ .compact).deferred) := by
  have honce := (told_picture (c := ⟨w, config, ofPlaced w config title source placed⟩)
    fun line hline => indexed_of_mem_lines hindex hline).trans
      (withText_perm (told_perm hindex hwithin title))
  have hsorted := (List.Perm.append_left _ (sortBy_perm PlacedLabel.earlier
    (picture ⟨w, config, ofPlaced w config title source placed⟩ .compact).deferred)).trans honce
  have hnodup : ((sortBy PlacedLabel.earlier (picture ⟨w, config,
      ofPlaced w config title source placed⟩ .compact).deferred).map PlacedLabel.index).Nodup := by
    have hall := (hsorted.map PlacedLabel.index).nodup_iff.2
      (hindex.sublist (List.filter_sublist.map _))
    rw [List.map_append] at hall
    exact (List.nodup_append.1 hall).2.1
  exact {
    once := hsorted
    beside := fun note hnote lab hlab => exists_of_told_script hnote hlab
    sorted := ((sortBy_earlier_pairwise _).and (List.pairwise_map.1 hnodup)).imp
      fun {a b} hab => Nat.lt_of_le_of_ne hab.1 hab.2
    listed := fun lab _ => itemizes_itemRows lab }

end OfPlaced

/-- Without a width limit every label text is told once in either mode. The layout has the labels of
the diagnostic in their order. Expanded, the rows between head and foot are written for a script
that tells every text line by line where its label is drawn; compact, they are written for a script
that tells some of the texts as a whole, and the items below them, by label, list all the others. -/
theorem label_texts_told_once [Platform] {w : CellWidth} {config : Config} {diagnostic : Diagnostic}
    {layout : Layout} (hlimit : config.limit = none)
    (hlayout : build w config diagnostic = .ok layout) :
    let c : Canvas := ⟨w, config, layout⟩
    let items := sortBy PlacedLabel.earlier (c.picture .compact).deferred
    (layout.labels.map PlacedLabel.label = diagnostic.labels ∧
      (layout.labels.map PlacedLabel.index).Nodup) ∧
    (Rendering.expandedRows w config diagnostic = .ok
        (Rendering.headRows config .expanded layout ++ (c.picture .expanded).rows ++
          Rendering.footRows w config .expanded layout diagnostic.footnotes) ∧
      List.Forall₂ c.Writes (c.script .expanded) (c.picture .expanded).rows ∧
      c.TellsInRows (c.script .expanded)) ∧
    Rendering.compactRows w config diagnostic = .ok
        (Rendering.headRows config .compact layout ++ (c.picture .compact).rows ++
          items.flatMap c.itemRows ++
          Rendering.footRows w config .compact layout diagnostic.footnotes) ∧
      List.Forall₂ c.Writes (c.script .compact) (c.picture .compact).rows ∧
      c.TellsInPlaces (c.script .compact) items := by
  have hexpanded := Rendering.rows_eq hlayout .expanded
  have hcompact := Rendering.rows_eq hlayout .compact
  have hnone : ∀ c : Canvas, c.items [] = [] := fun _ => rfl
  rw [picture_expanded_deferred, hnone, List.append_nil] at hexpanded
  obtain ⟨source, placed, -, hlabels, hindex, hwithin, rfl⟩ := exists_of_build_ok hlayout
  refine ⟨⟨map_label_of_placeLabels hlabels, hindex⟩, ⟨hexpanded, writes_picture _ _, ?_⟩,
    hcompact, writes_picture _ _, ?_⟩
  · exact tellsInRows_ofPlaced hindex hwithin _ hlimit
  · exact tellsInPlaces_ofPlaced hindex hwithin _

/-- Two labels on the same columns, one of them with a text of two lines, and one over two lines. -/
def talkative : Diagnostic where
  title := ['t']
  source := some ⟨"let x = 1\nlet y = 2\n".toList, none, none⟩
  labels := [⟨⟨4, 5⟩, some ['a'], none⟩, ⟨⟨4, 5⟩, some ['b', '\n', 'c'], none⟩,
    ⟨⟨6, 14⟩, some ['d'], none⟩]

section

attribute [local instance] Platform.usual

theorem label_texts_told_once_talkative : ∃ layout : Layout,
    build (fun _ => 1) .default talkative = .ok layout ∧
      (script ⟨fun _ => 1, .default, layout⟩ .expanded).flatMap Note.pieces =
        linesOf layout.labels ∧
      ((script ⟨fun _ => 1, .default, layout⟩ .compact).flatMap Note.told).map
        PlacedLabel.index = [2] ∧
      TellsInRows ⟨fun _ => 1, .default, layout⟩ (script ⟨fun _ => 1, .default, layout⟩ .expanded) ∧
      TellsInPlaces ⟨fun _ => 1, .default, layout⟩
        (script ⟨fun _ => 1, .default, layout⟩ .compact)
        (sortBy PlacedLabel.earlier
          (picture ⟨fun _ => 1, .default, layout⟩ .compact).deferred) := by
  obtain ⟨layout, hlayout, hexpanded, hcompact⟩ : ∃ layout : Layout,
      build (fun _ => 1) .default talkative = .ok layout ∧
        (script ⟨fun _ => 1, .default, layout⟩ .expanded).flatMap Note.pieces =
          linesOf layout.labels ∧
        ((script ⟨fun _ => 1, .default, layout⟩ .compact).flatMap Note.told).map
          PlacedLabel.index = [2] := ⟨_, rfl, rfl, rfl⟩
  obtain ⟨-, ⟨-, -, hrows⟩, -, -, hplaces⟩ :=
    label_texts_told_once (show Config.default.limit = none from rfl) hlayout
  exact ⟨layout, hlayout, hexpanded, hcompact, hrows, hplaces⟩

end

end Excerpt
