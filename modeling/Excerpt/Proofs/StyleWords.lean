import Excerpt.Style.Words
import Excerpt.Proofs.Breaks
import Excerpt.Proofs.Results

/-!
Reading styles. Overlaying styles is associative and the plain style changes nothing, so the words
of a style may be read in parts: what two texts say, with a blank or a comma between them, is what
the first says with what the second says laid over it. The word that a text fails with is the first
one of the text that names nothing, as it is written there.
-/

namespace Excerpt

namespace Text

variable {p : Char → Bool} {s run : Text}

/-- The pieces of a text that are not empty. -/
def runs (p : Char → Bool) (s : Text) : List Text := (pieces p s).filter (!·.isEmpty)

/-- A run between what stands in front of it and behind it: it has no separator and both sides end
with one towards it, unless they are empty. -/
structure RunAt (p : Char → Bool) (front run back : Text) : Prop where
  ne_nil : run ≠ []
  unparted : ∀ ch ∈ run, p ch = false
  begins : ∀ ch ∈ front.getLast?, p ch = true
  ends : ∀ ch ∈ back.head?, p ch = true

theorem runs_append {ch : Char} (hch : p ch = true) (a b : Text) :
    runs p (a ++ ch :: b) = runs p a ++ runs p b := by
  rw [runs, pieces_append hch, List.filter_append]
  rfl

theorem runs_nil : runs p [] = [] := rfl

theorem runs_cons {ch : Char} (hch : p ch = true) (s : Text) : runs p (ch :: s) = runs p s :=
  runs_append hch [] s

theorem runs_eq_singleton (hne : s ≠ []) (h : ∀ ch ∈ s, p ch = false) : runs p s = [s] := by
  rw [runs, pieces_eq_singleton h]
  exact List.filter_cons_of_pos (by simpa using hne)

theorem RunAt.runs_eq {front back : Text} (h : RunAt p front run back) :
    runs p (front ++ run ++ back) = runs p front ++ run :: runs p back := by
  have hrun : runs p run = [run] := runs_eq_singleton h.ne_nil h.unparted
  have hback : runs p (run ++ back) = run :: runs p back := by
    cases back with
    | nil => rw [List.append_nil, hrun, runs_nil]
    | cons ch back =>
        have hch : p ch = true := h.ends ch rfl
        rw [runs_append hch, hrun, runs_cons hch, List.singleton_append]
  rw [List.append_assoc]
  rcases List.eq_nil_or_concat front with rfl | ⟨front, ch, rfl⟩
  · rw [List.nil_append, hback, runs_nil, List.nil_append]
  · have hch : p ch = true := h.begins ch (by simp)
    rw [List.concat_eq_append, List.append_assoc, List.singleton_append, runs_append hch,
      runs_append hch, hback, runs_nil, List.append_nil]

/-- A run stays one with more in front, up to a separator. -/
theorem RunAt.behind {front back : Text} (h : RunAt p front run back) {ch : Char}
    (hch : p ch = true) (more : Text) : RunAt p (more ++ ch :: front) run back where
  ne_nil := h.ne_nil
  unparted := h.unparted
  begins := by
    intro last hlast
    rw [List.getLast?_append_cons, List.getLast?_cons] at hlast
    cases hfront : front.getLast? with
    | none =>
        obtain rfl : ch = last := by simpa [hfront] using hlast
        exact hch
    | some _ => exact h.begins last (by simpa [hfront] using hlast)
  ends := h.ends

/-- A text begins with its first piece, behind which it ends or goes on with a separator. -/
theorem exists_behind_piece {piece : Text} {rest : List Text} (h : pieces p s = piece :: rest) :
    s = piece ∧ rest = [] ∨ ∃ ch back, s = piece ++ ch :: back ∧ p ch = true ∧
      pieces p back = rest := by
  induction s generalizing piece rest with
  | nil =>
      obtain ⟨rfl, rfl⟩ := List.cons_eq_cons.1 h
      exact .inl ⟨rfl, rfl⟩
  | cons c s ih =>
      rw [pieces] at h
      split at h
      case isTrue hc =>
          obtain ⟨rfl, rfl⟩ := List.cons_eq_cons.1 h
          exact .inr ⟨c, s, rfl, hc, rfl⟩
      case isFalse =>
          obtain ⟨first, others, hfirst⟩ := List.exists_cons_of_ne_nil (pieces_ne_nil p s)
          rw [hfirst, consHead] at h
          obtain ⟨rfl, rfl⟩ := List.cons_eq_cons.1 h
          rcases ih hfirst with ⟨rfl, rfl⟩ | ⟨ch, back, rfl, hch, hback⟩
          · exact .inl ⟨rfl, rfl⟩
          · exact .inr ⟨ch, back, rfl, hch, hback⟩

/-- Every run of a text is found in it, with the runs before and after on its sides. -/
theorem exists_runAt {before after : List Text} (h : runs p s = before ++ run :: after) :
    ∃ front back, s = front ++ run ++ back ∧ RunAt p front run back ∧ runs p front = before ∧
      runs p back = after := by
  -- on the pieces of the text, empty ones included, since each but the last ends at a separator
  induction hl : pieces p s generalizing s before with
  | nil => exact absurd hl (pieces_ne_nil p s)
  | cons piece rest ih =>
      have hwhole : ∀ ch ∈ piece, p ch = false := fun _ =>
        eq_false_of_mem_pieces (hl ▸ List.mem_cons_self)
      by_cases hempty : piece = []
      · subst hempty
        rcases exists_behind_piece hl with ⟨rfl, rfl⟩ | ⟨ch, tail, rfl, hch, hrest⟩
        · exact absurd h (by simp [runs_nil])
        · rw [runs_append hch, runs_nil, List.nil_append] at h
          obtain ⟨front, back, rfl, hat, hfront, hback⟩ := ih h hrest
          exact ⟨ch :: front, back, rfl, hat.behind hch [], by rw [runs_cons hch, hfront], hback⟩
      · have hruns : runs p piece = [piece] := runs_eq_singleton hempty hwhole
        rcases exists_behind_piece hl with ⟨rfl, rfl⟩ | ⟨ch, tail, rfl, hch, hrest⟩
        · rw [hruns] at h
          cases before with
          | nil =>
              obtain ⟨rfl, rfl⟩ := List.cons_eq_cons.1 h
              exact ⟨[], [], (List.append_nil _).symm, ⟨hempty, hwhole, by simp, by simp⟩, rfl, rfl⟩
          | cons first before => exact absurd (List.cons_eq_cons.1 h).2 (by simp)
        · rw [runs_append hch, hruns, List.singleton_append] at h
          cases before with
          | nil =>
              obtain ⟨rfl, rfl⟩ := List.cons_eq_cons.1 h
              exact ⟨[], ch :: tail, rfl, ⟨hempty, hwhole, by simp, by simpa using hch⟩, rfl,
                runs_cons hch tail⟩
          | cons first before =>
              obtain ⟨rfl, hlater⟩ := List.cons_eq_cons.1 h
              obtain ⟨front, back, rfl, hat, rfl, hback⟩ := ih hlater hrest
              refine ⟨piece ++ ch :: front, back, by simp, hat.behind hch piece, ?_, hback⟩
              rw [runs_append hch, hruns, List.singleton_append]

end Text

namespace Style

/-! ### Styles laid over each other -/

theorem overlay_assoc (r s t : Style) : r ||| s ||| t = r ||| (s ||| t) := by
  change overlay (overlay r s) t = overlay r (overlay s t)
  simp only [overlay, Option.or_assoc, Bool.or_assoc]

theorem plain_overlay (s : Style) : plain ||| s = s := by
  change overlay plain s = s
  simp only [overlay, plain, Option.or_none, Bool.false_or]

theorem overlay_plain (s : Style) : s ||| plain = s := by
  change overlay s plain = s
  simp only [overlay, plain, Option.none_or, Bool.or_false]

/-- An attribute is added by laying it over what is there. -/
theorem withAttribute_eq (s : Style) (a : Attribute) :
    s.withAttribute a = s ||| plain.withAttribute a := by
  change s.withAttribute a = overlay s (plain.withAttribute a)
  cases a with
  | color c => simp [withAttribute, withColor, overlay, plain]
  | modifier m => cases m <;> simp [withAttribute, withModifier, overlay, plain]

/-! ### Words added one after another -/

theorem addWords_append (s : Style) (front back : List Text) :
    addWords s (front ++ back) = addWords s front >>= fun t => addWords t back := by
  induction front generalizing s with
  | nil => rfl
  | cons word front ih =>
      rw [List.cons_append, addWords, addWords]
      split
      · rfl
      · exact ih _

theorem addWords_eq (s : Style) (words : List Text) :
    addWords s words = (addWords plain words).map (s ||| ·) := by
  induction words generalizing s with
  | nil => exact congrArg Except.ok (overlay_plain s).symm
  | cons word words ih =>
      rw [addWords, addWords]
      cases attribute? word with
      | none => rfl
      | some a =>
          dsimp only
          rw [ih, ih (plain.withAttribute a), withAttribute_eq]
          cases addWords plain words with
          | error e => rfl
          | ok t => exact congrArg Except.ok (overlay_assoc s _ t)

/-- Adding words fails with the first one that names nothing. -/
theorem addWords_eq_error_iff {s : Style} {words : List Text} {e : UnknownWord} :
    addWords s words = .error e ↔ attribute? e.word = none ∧ ∃ before after style,
      words = before ++ e.word :: after ∧ addWords s before = .ok style := by
  constructor
  · intro h
    induction words generalizing s with
    | nil => cases h
    | cons word words ih =>
        rw [addWords] at h
        split at h
        case h_1 hunknown =>
            obtain rfl := Except.error.inj h
            exact ⟨hunknown, [], words, s, rfl, rfl⟩
        case h_2 a hknown =>
            obtain ⟨hunknown, before, after, style, rfl, hbefore⟩ := ih h
            refine ⟨hunknown, word :: before, after, style, rfl, ?_⟩
            rw [addWords, hknown]
            exact hbefore
  · rintro ⟨hunknown, before, after, style, rfl, hbefore⟩
    rw [addWords_append, hbefore, ok_bind, addWords, hunknown]

/-! ### Texts -/

/-- A character that parts the words of a style. -/
def isSeparator (ch : Char) : Bool := ch == ',' || Unicode.isBlank ch

theorem isBlank_of_isSeparator (ch : Char) :
    Unicode.isBlank (if ch = ',' then ' ' else ch) = isSeparator ch := by
  rw [isSeparator]
  split
  case isTrue h => rw [h]; rfl
  case isFalse h => rw [beq_false_of_ne h, Bool.false_or]

theorem styleWords_eq (s : Text) : styleWords s = Text.runs isSeparator s := by
  have hpieces : Text.pieces Unicode.isBlank (s.map fun ch => if ch = ',' then ' ' else ch) =
      Text.pieces isSeparator s := by
    induction s with
    | nil => rfl
    | cons ch s ih =>
        rw [List.map_cons, Text.pieces, Text.pieces, isBlank_of_isSeparator, ih]
        split
        case isTrue => rfl
        case isFalse h =>
            have hcomma : ch ≠ ',' := fun heq => h (by rw [heq]; rfl)
            rw [if_neg hcomma]
  rw [styleWords, Text.words, hpieces, Text.runs]

/-- The first word of a text that names nothing: a whole word, as it is written in the text, behind
a text that can be read. -/
def FirstUnknown (s word : Text) : Prop :=
  attribute? word = none ∧ ∃ front back style, s = front ++ word ++ back ∧
    Text.RunAt isSeparator front word back ∧ parse front = .ok style

theorem parse_eq_error_iff {s : Text} {e : UnknownWord} :
    parse s = .error e ↔ FirstUnknown s e.word := by
  rw [parse, addWords_eq_error_iff, styleWords_eq, FirstUnknown]
  refine and_congr_right fun _ => ⟨?found, ?first⟩
  case found =>
      rintro ⟨before, after, style, hwords, hbefore⟩
      obtain ⟨front, back, hs, hat, rfl, -⟩ := Text.exists_runAt hwords
      rw [← styleWords_eq] at hbefore
      exact ⟨front, back, style, hs, hat, hbefore⟩
  case first =>
      rintro ⟨front, back, style, rfl, hat, hfront⟩
      rw [parse, styleWords_eq] at hfront
      exact ⟨_, _, style, hat.runs_eq, hfront⟩

theorem parse_append {sep : Char} (hsep : isSeparator sep = true) (a b : Text) :
    parse (a ++ sep :: b) = parse a >>= fun s => (parse b).map (s ||| ·) := by
  simp only [parse, styleWords_eq]
  rw [Text.runs_append hsep, addWords_append]
  simp only [← addWords_eq]

/-- Reading styles respects laying them over each other. Two texts with a blank or a comma between
them are read exactly if each is, as the style of the first with that of the second laid over it. A
text is refused for its first word that names nothing, and the message quotes that word. Laying over
is associative, and the plain style makes no difference on either side. -/
theorem styles_compose :
    (∀ (a b : Text) (sep : Char), sep = ' ' ∨ sep = ',' →
      ((∃ style, parse (a ++ sep :: b) = .ok style) ↔
        (∃ style, parse a = .ok style) ∧ ∃ style, parse b = .ok style) ∧
      ∀ s t, parse a = .ok s → parse b = .ok t → parse (a ++ sep :: b) = .ok (s ||| t)) ∧
      (∀ (s : Text) (e : UnknownWord), parse s = .error e ↔ FirstUnknown s e.word) ∧
      (∀ e : UnknownWord,
        e.message = "unknown style attribute '" ++ String.ofList e.word ++ "'") ∧
      (∀ r s t : Style, r ||| s ||| t = r ||| (s ||| t)) ∧
      ∀ s : Style, plain ||| s = s ∧ s ||| plain = s := by
  refine ⟨?parts, fun s e => parse_eq_error_iff, fun e => rfl, overlay_assoc,
    fun s => ⟨plain_overlay s, overlay_plain s⟩⟩
  case parts =>
      intro a b sep hsep
      have hparts : isSeparator sep = true := by rcases hsep with rfl | rfl <;> rfl
      have hsum := parse_append hparts a b
      refine ⟨⟨?both, ?joined⟩, ?value⟩
      case both =>
          rintro ⟨style, h⟩
          rw [hsum] at h
          obtain ⟨s, ha, hrest⟩ := bind_eq_ok h
          cases hb : parse b with
          | error e => rw [hb] at hrest; cases hrest
          | ok t => exact ⟨⟨s, ha⟩, t, rfl⟩
      case joined =>
          rintro ⟨⟨s, ha⟩, t, hb⟩
          exact ⟨s ||| t, by rw [hsum, ha, hb]; rfl⟩
      case value =>
          intro s t ha hb
          rw [hsum, ha, hb]
          rfl

/-- The last color wins, and the dim of the first text stays; of two words that name nothing the
first is told as it is written. -/
theorem styles_compose_mixed :
    parse "Red dim".toList = .ok { color := some .red, dim := true } ∧
      parse "BLUE".toList = .ok { color := some .blue } ∧
      parse ("Red dim".toList ++ ',' :: "BLUE".toList) =
        .ok { color := some .blue, dim := true } ∧
      FirstUnknown "red,Huge tiny".toList "Huge".toList := by
  obtain ⟨hparts, hrefused, -⟩ := styles_compose
  have hfirst : parse "Red dim".toList = .ok { color := some .red, dim := true } := rfl
  have hsecond : parse "BLUE".toList = .ok { color := some .blue } := rfl
  exact ⟨hfirst, hsecond, (hparts _ _ ',' (.inr rfl)).2 _ _ hfirst hsecond,
    (hrefused _ ⟨"Huge".toList⟩).1 rfl⟩

end Style
end Excerpt
