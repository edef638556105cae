import Excerpt.Proofs.Wrapping

/-!
Where wrapped texts are broken. A line is broken in front of a word only if the word does not fit
behind it, and inside a word only if the word is wider than a line; then what is broken off is as
much as fits, so the next character takes cells. Told in order and without its blanks, a text is the
same in its lines as in its words.
-/

namespace Excerpt

/-- A text without its blanks. -/
def Text.ink (s : Text) : Text := s.filter fun ch => !Unicode.isBlank ch

/-- A word as it is found in a text: not empty and without blanks. -/
structure IsWord (word : Text) : Prop where
  ne_nil : word ≠ []
  inked : ∀ ch ∈ word, Unicode.isBlank ch = false

namespace Text

theorem ink_append (a b : Text) : ink (a ++ b) = ink a ++ ink b := List.filter_append ..

theorem isWord_of_mem_words {s word : Text} (h : word ∈ words s) : IsWord word :=
  ⟨ne_nil_of_mem_words h, fun _ hch => eq_false_of_mem_pieces (List.mem_filter.1 h).1 hch⟩

theorem pieces_append {p : Char → Bool} {ch : Char} (hch : p ch = true) (a b : Text) :
    pieces p (a ++ ch :: b) = pieces p a ++ pieces p b := by
  induction a with
  | nil =>
      change pieces p (ch :: b) = [] :: pieces p b
      rw [pieces, if_pos hch]
  | cons c a ih =>
      rw [List.cons_append, pieces, pieces]
      split
      case isTrue => rw [ih, List.cons_append]
      case isFalse =>
          obtain ⟨first, rest, hfirst⟩ := List.exists_cons_of_ne_nil (pieces_ne_nil p a)
          rw [ih, hfirst]
          rfl

theorem pieces_eq_singleton {p : Char → Bool} {s : Text} (h : ∀ ch ∈ s, p ch = false) :
    pieces p s = [s] := by
  induction s with
  | nil => rfl
  | cons c s ih =>
      obtain ⟨hc, hs⟩ := List.forall_mem_cons.1 h
      rw [pieces, if_neg (Bool.eq_false_iff.1 hc), ih hs]
      rfl

theorem words_append_blank (a b : Text) : words (a ++ ' ' :: b) = words a ++ words b := by
  rw [words, pieces_append (show Unicode.isBlank ' ' = true by decide), List.filter_append]
  rfl

theorem joinWith_concat (separator : Text) {texts : List Text} (h : texts ≠ []) (text : Text) :
    joinWith separator (texts ++ [text]) = joinWith separator texts ++ (separator ++ text) := by
  induction texts with
  | nil => exact absurd rfl h
  | cons first texts ih =>
      simp only [joinWith] at ih ⊢
      by_cases hrest : texts = []
      · rw [hrest, List.singleton_append, List.intercalate_cons_cons, List.intercalate_singleton,
          List.intercalate_singleton, List.append_assoc]
      · have hmore : texts ++ [text] ≠ [] := List.append_ne_nil_of_left_ne_nil hrest _
        rw [List.cons_append, List.intercalate_cons_of_ne_nil hmore, ih hrest,
          List.intercalate_cons_of_ne_nil hrest]
        simp only [List.append_assoc]

/-- A text is its words with one blank between neighbours. -/
def Spaced (s : Text) : Prop := s = joinWith [' '] s.words

end Text

namespace IsWord

variable {word : Text}

theorem ink_eq (h : IsWord word) : word.ink = word :=
  List.filter_eq_self.2 fun ch hch => by rw [h.inked ch hch, Bool.not_false]

theorem tab_not_mem (h : IsWord word) : '\t' ∉ word :=
  fun htab => absurd (h.inked '\t' htab) (by decide)

theorem ink_append_word (h : IsWord word) (line : Text) :
    (line ++ ' ' :: word).ink = line.ink ++ word := by
  have hspace : Text.ink (' ' :: word) = word.ink := rfl
  rw [Text.ink_append, hspace, h.ink_eq]

theorem words_eq (h : IsWord word) : word.words = [word] := by
  rw [Text.words, Text.pieces_eq_singleton h.inked]
  exact List.filter_cons_of_pos (by simpa using h.ne_nil)

theorem spaced (h : IsWord word) : word.Spaced := by
  rw [Text.Spaced, h.words_eq]
  exact (List.intercalate_singleton ..).symm

theorem spaced_append (h : IsWord word) {line : Text} (hline : line.Spaced) (hne : line ≠ []) :
    (line ++ ' ' :: word).Spaced := by
  have hwords : line.words ≠ [] := by
    intro hnil
    rw [Text.Spaced, hnil] at hline
    exact hne hline
  rw [Text.Spaced, Text.words_append_blank, h.words_eq, Text.joinWith_concat _ hwords, ← hline]
  rfl

theorem of_subset {part : Text} (h : IsWord word) (hsub : part ⊆ word) (hne : part ≠ []) :
    IsWord part := ⟨hne, fun ch hch => h.inked ch (hsub hch)⟩

end IsWord

/-! ### Inside a word -/

section Cut

variable {w : CellWidth} {limit : Int}

/-- A text that is cut goes on with a character for which there was no cell left. -/
theorem exists_behind_cutFrom {tab col : Int} (hcol : col ≤ limit) {previous : Option Char}
    {s : Text} (htab : '\t' ∉ s) (hwide : limit < columnAfter w tab col previous s) :
    ∃ ch rest, s = cutFrom w limit col previous s ++ ch :: rest ∧
      0 < charWidth w ch (lastChar previous (cutFrom w limit col previous s)) := by
  induction s generalizing col previous with
  | nil => exact absurd hwide (Int.not_lt.2 hcol)
  | cons c s ih =>
      obtain ⟨hc, hs⟩ := not_or.1 (mt List.mem_cons.2 htab)
      rw [cutFrom]
      split
      case isTrue hstop => exact ⟨c, s, rfl, by rw [lastChar_nil]; omega⟩
      case isFalse hfits =>
          rw [columnAfter_cons, advance, if_neg (Ne.symm hc)] at hwide
          obtain ⟨ch, rest, hrest, hpos⟩ := ih (Int.not_lt.1 hfits) hs hwide
          refine ⟨ch, rest, ?_, ?_⟩
          · rw [List.cons_append, ← hrest]
          · rw [lastChar_cons]
            exact hpos

theorem cutToWidth_ne_nil {c : Char} {s : Text} (hlimit : 0 < limit) (hc : w c ≤ limit) :
    cutToWidth w (c :: s) limit ≠ [] := by
  have hfits := charWidth_le (Int.le_of_lt hlimit) hc none
  rw [cutToWidth, if_neg (Int.not_le.2 hlimit), cutFrom, if_neg (by omega)]
  exact List.cons_ne_nil _ _

end Cut

section Break

variable {w : CellWidth} {limit : Nat}

/-- What is broken off a word ends in front of a character that takes cells. -/
theorem exists_behind_headPiece (hlimit : 0 < limit) (hchar : ∀ ch, w ch ≤ limit) {s : Text}
    (htab : '\t' ∉ s) (hwide : ¬s.width w ≤ limit) :
    ∃ ch rest, s = headPiece w limit s ++ ch :: rest ∧
      0 < charWidth w ch (headPiece w limit s).getLast? := by
  cases s with
  | nil => exact absurd (Int.natCast_nonneg limit) (by rwa [Text.width_nil] at hwide)
  | cons c s =>
      have hcast : (0 : Int) < limit := Int.natCast_pos.2 hlimit
      have hcut : headPiece w limit (c :: s) = cutToWidth w (c :: s) limit := by
        rw [headPiece]
        split
        case h_1 hnil => exact absurd hnil (cutToWidth_ne_nil hcast (hchar c))
        case h_2 hcons => exact hcons.symm
      rw [Text.width, displayWidth, Int.sub_zero, Int.not_le] at hwide
      rw [hcut, cutToWidth, if_neg (Int.not_le.2 hcast)]
      obtain ⟨ch, rest, hrest, hpos⟩ :=
        exists_behind_cutFrom (Int.le_of_lt hcast) htab hwide
      rw [lastChar, Option.or_none] at hpos
      exact ⟨ch, rest, hrest, hpos⟩

/-- The lines over which a word is told, the last of which stays open. -/
def chopped (w : CellWidth) (limit : Nat) (word : Text) : List Text :=
  (chop w limit word).1 ++ [(chop w limit word).2]

theorem chopped_of_le {word : Text} (h : word.width w ≤ limit) : chopped w limit word = [word] := by
  rw [chopped, chop, if_pos h]
  rfl

theorem chopped_of_lt {word : Text} (h : ¬word.width w ≤ limit) : chopped w limit word =
    headPiece w limit word :: chopped w limit (word.drop (headPiece w limit word).length) := by
  rw [chopped, chop, if_neg h]
  rfl

theorem headPiece_isPrefix (w : CellWidth) (limit : Nat) (s : Text) :
    headPiece w limit s <+: s := by
  rw [headPiece]
  split
  case h_1 => exact List.take_prefix 1 s
  case h_2 hcut => exact hcut ▸ cutToWidth_isPrefix w s limit

theorem flatten_chopped (w : CellWidth) (limit : Nat) (word : Text) :
    (chopped w limit word).flatten = word := by
  induction word using chop.induct w limit with
  | case1 word hfits =>
      rw [chopped_of_le hfits]
      exact List.append_nil word
  | case2 word hwide head ih =>
      rw [chopped_of_lt hwide, List.flatten_cons, ih]
      exact (List.prefix_append_drop (headPiece_isPrefix w limit word)).symm

/-- A word is broken only if it is wider than a line, and then in front of a character that takes
cells behind the one before it. -/
theorem exists_behind_chopped (hlimit : 0 < limit) (hchar : ∀ ch, w ch ≤ limit) {word : Text}
    (htab : '\t' ∉ word) {front back : List Text} {line : Text}
    (h : chopped w limit word = front ++ line :: back) (hfront : front ≠ []) :
    front.flatten ≠ [] ∧ limit < word.width w ∧ ∃ ch rest, (line :: back).flatten = ch :: rest ∧
      0 < charWidth w ch front.flatten.getLast? := by
  induction word using chop.induct w limit generalizing front with
  | case1 word hfits =>
      rw [chopped_of_le hfits] at h
      obtain ⟨first, front, rfl⟩ := List.exists_cons_of_ne_nil hfront
      simp at h
  | case2 word hwide head ih =>
      obtain ⟨first, front, rfl⟩ := List.exists_cons_of_ne_nil hfront
      rw [chopped_of_lt hwide, List.cons_append, List.cons.injEq] at h
      obtain ⟨rfl, h⟩ := h
      obtain ⟨ch, rest, hword, hpos⟩ := exists_behind_headPiece hlimit hchar htab hwide
      have hdrop : word.drop (headPiece w limit word).length = ch :: rest := by
        have hsplit := List.prefix_append_drop (headPiece_isPrefix w limit word)
        exact List.append_cancel_left (hsplit.symm.trans hword)
      have hhead : headPiece w limit word ≠ [] := by
        refine headPiece_ne_nil w limit ?_
        rintro rfl
        exact absurd (Int.natCast_nonneg limit) (by rwa [Text.width_nil] at hwide)
      refine ⟨List.append_ne_nil_of_left_ne_nil hhead _, Int.not_le.1 hwide, ?_⟩
      by_cases hrest : front = []
      · subst hrest
        have hflatten := flatten_chopped w limit (word.drop (headPiece w limit word).length)
        rw [h, hdrop] at hflatten
        refine ⟨ch, rest, hflatten, ?_⟩
        rw [List.flatten_singleton]
        exact hpos
      · obtain ⟨hne, -, next, after, hnext, hcells⟩ := ih (mt List.mem_of_mem_drop htab) h hrest
        refine ⟨next, after, hnext, ?_⟩
        rw [List.flatten_cons, List.getLast?_append_of_ne_nil _ hne]
        exact hcells

section Parts

variable (hlimit : 0 < limit) (hchar : ∀ ch, w ch ≤ limit)

include hlimit hchar

theorem isWord_of_mem_chopped {word : Text} (h : IsWord word) :
    ∀ part ∈ chopped w limit word, IsWord part := by
  induction word using chop.induct w limit with
  | case1 word hfits =>
      rw [chopped_of_le hfits]
      exact fun part hpart => List.mem_singleton.1 hpart ▸ h
  | case2 word hwide head ih =>
      obtain ⟨ch, rest, hword, -⟩ := exists_behind_headPiece hlimit hchar h.tab_not_mem hwide
      have hsplit := List.prefix_append_drop (headPiece_isPrefix w limit word)
      have hdrop := List.append_cancel_left (hsplit.symm.trans hword)
      have hrest : word.drop (headPiece w limit word).length ≠ [] :=
        hdrop ▸ List.cons_ne_nil ch rest
      rw [chopped_of_lt hwide]
      exact List.forall_mem_cons.2
        ⟨h.of_subset (headPiece_isPrefix w limit word).subset (headPiece_ne_nil w limit h.ne_nil),
          ih (h.of_subset (List.drop_subset _ _) hrest)⟩

end Parts

/-! ### Between words -/

/-- A line begins with `rest`, which ends a word of which `told` stands in front of it; the line
before is `last`. In front of a word that break is needed because the word does not fit there.
Inside a word it is needed because the word is wider than a line, and the line begins with a
character that takes cells behind the one before it. -/
structure NeededBreak (w : CellWidth) (limit : Int) (last told rest : Text) : Prop where
  between : told = [] → limit < last.width w + 1 + rest.width w
  inside : told ≠ [] → limit < (told ++ rest).width w ∧
    ∀ ch, rest.head? = some ch → 0 < charWidth w ch told.getLast?

variable (hlimit : 0 < limit) (hchar : ∀ ch, w ch ≤ limit)

include hlimit hchar

theorem exists_told_of_chopped {word : Text} (hword : IsWord word) {front back : List Text}
    {line : Text} (h : chopped w limit word = front ++ line :: back) {last : Text}
    (hlast : front = [] → limit < last.width w + 1 + word.width w) :
    ∃ told rest, word = told ++ rest ∧ rest ≠ [] ∧ Text.ink front.flatten = told ∧
      NeededBreak w limit last told rest := by
  have hflatten := flatten_chopped w limit word
  rw [h, List.flatten_append] at hflatten
  by_cases hfront : front = []
  · refine ⟨[], word, rfl, hword.ne_nil, by rw [hfront]; rfl, fun _ => hlast hfront, ?_⟩
    exact fun hne => absurd rfl hne
  · obtain ⟨hne, hwide, ch, rest, hrest, hpos⟩ :=
      exists_behind_chopped hlimit hchar hword.tab_not_mem h hfront
    have hink : Text.ink front.flatten = front.flatten := by
      refine List.filter_eq_self.2 fun ch hch => ?_
      rw [hword.inked ch (hflatten ▸ List.mem_append_left _ hch), Bool.not_false]
    refine ⟨_, _, hflatten.symm, by rw [hrest]; exact List.cons_ne_nil _ _, hink,
      fun hnil => absurd hnil hne, fun _ => ⟨by rwa [hflatten], fun first hfirst => ?_⟩⟩
    rw [hrest, List.head?_cons, Option.some.injEq] at hfirst
    exact hfirst ▸ hpos

omit hlimit hchar in
theorem flatten_openLine (current : Text) : (openLine current).flatten = current := by
  rw [openLine]
  split
  case isTrue hnil => exact hnil.symm
  case isFalse => exact List.append_nil current

omit hlimit hchar in
/-- Closing the open line and breaking a word tells the two of them. -/
theorem ink_broken {word : Text} (h : IsWord word) (current more : Text) :
    Text.ink (openLine current ++ (chop w limit word).1).flatten ++
      ((chop w limit word).2.ink ++ more) = current.ink ++ (word ++ more) := by
  have hwhole := flatten_chopped w limit word
  rw [chopped, List.flatten_append, List.flatten_singleton] at hwhole
  rw [List.flatten_append, flatten_openLine, ← List.append_assoc, ← Text.ink_append,
    List.append_assoc current, hwhole, Text.ink_append, h.ink_eq, List.append_assoc]

/-- A word that does not fit on the open line is told on lines of its own. -/
theorem exists_told_of_word {current word : Text} (hword : IsWord word)
    (hfull : ¬(current ≠ [] ∧ current.width w + 1 + word.width w ≤ limit)) {front back : List Text}
    {line : Text} (h : openLine current ++ chopped w limit word = front ++ line :: back)
    {last : Text} (hlast : front.getLast? = some last) :
    ∃ told rest, word = told ++ rest ∧ rest ≠ [] ∧ Text.ink front.flatten = current.ink ++ told ∧
      NeededBreak w limit last told rest := by
  have hfront : front ≠ [] := fun hnil => by rw [hnil] at hlast; cases hlast
  by_cases hcurrent : current = []
  · rw [openLine, if_pos hcurrent, List.nil_append] at h
    rw [hcurrent]
    exact exists_told_of_chopped hlimit hchar hword h fun hnil => absurd hnil hfront
  · obtain ⟨first, front, rfl⟩ := List.exists_cons_of_ne_nil hfront
    rw [openLine, if_neg hcurrent, List.singleton_append, List.cons_append, List.cons.injEq] at h
    obtain ⟨rfl, h⟩ := h
    have hline : front = [] → limit < last.width w + 1 + word.width w := by
      rintro rfl
      cases hlast
      exact Int.not_le.1 fun hle => hfull ⟨hcurrent, hle⟩
    obtain ⟨told, rest, hsplit, hrest, hink, hneeded⟩ :=
      exists_told_of_chopped hlimit hchar hword h hline
    refine ⟨told, rest, hsplit, hrest, ?_, hneeded⟩
    rw [List.flatten_cons, Text.ink_append, hink]

omit hlimit hchar in
/-- Where a list goes on behind `front`, it does so among the elements that come last, or else among
the others with one more at their end. -/
theorem cases_of_append_eq {α : Type} {others last front back : List α} {a : α} (next : α)
    (h : others ++ last = front ++ a :: back) :
    (∃ later, later ≠ [] ∧ front = others ++ later ∧ last = later ++ a :: back) ∨
      ∃ b after, others ++ [next] = front ++ b :: after := by
  rcases List.append_eq_append_iff.1 h with ⟨later, rfl, hlast⟩ | ⟨part, rfl, hlast⟩
  · by_cases hlater : later = []
    · rw [hlater, List.append_nil]
      exact .inr ⟨next, [], rfl⟩
    · exact .inl ⟨later, hlater, rfl, hlast⟩
  · cases part with
    | nil =>
        rw [List.append_nil]
        exact .inr ⟨next, [], rfl⟩
    | cons b part => exact .inr ⟨b, part ++ [next], List.append_assoc ..⟩

/-- Wherever a line begins behind others, the words are told up to there, and a break is needed. -/
theorem exists_told_of_fillLines {words : List Text} (hwords : ∀ word ∈ words, IsWord word)
    {current : Text} {front back : List Text} {line : Text}
    (h : fillLines w limit current words = front ++ line :: back) {last : Text}
    (hlast : front.getLast? = some last) : ∃ before told rest after,
      words = before ++ (told ++ rest) :: after ∧ rest ≠ [] ∧
        Text.ink front.flatten = current.ink ++ (before.flatten ++ told) ∧
        NeededBreak w limit last told rest := by
  -- On the words to come; what the open line holds has been told before them.
  induction words generalizing current front with
  | nil =>
      have hlength := congrArg List.length h
      have hfront : front ≠ [] := fun hnil => by rw [hnil] at hlast; cases hlast
      have hpos := List.length_pos_iff.2 hfront
      rw [fillLines, openLine, List.length_append, List.length_cons] at hlength
      split at hlength
      · exact absurd hlength (by rw [List.length_nil]; omega)
      · exact absurd hlength (by rw [List.length_singleton]; omega)
  | cons word words ih =>
      obtain ⟨hword, hwords⟩ := List.forall_mem_cons.1 hwords
      rw [fillLines] at h
      split at h
      case isTrue =>
          obtain ⟨before, told, rest, after, rfl, hrest, hink, hneeded⟩ := ih hwords h hlast
          refine ⟨word :: before, told, rest, after, rfl, hrest, ?_, hneeded⟩
          rw [hink, hword.ink_append_word, List.flatten_cons, List.append_assoc,
            List.append_assoc]
      case isFalse hfull =>
          -- The line has words to come only, or it begins with a part of this one.
          rcases cases_of_append_eq (chop w limit word).2 h with
            ⟨later, hlater, rfl, hlines⟩ | ⟨part, after, hpart⟩
          · obtain ⟨before, told, rest, after, rfl, hrest, hink, hneeded⟩ :=
              ih hwords hlines (by rwa [List.getLast?_append_of_ne_nil _ hlater] at hlast)
            refine ⟨word :: before, told, rest, after, rfl, hrest, ?_, hneeded⟩
            rw [List.flatten_append, Text.ink_append, hink, ink_broken hword, List.flatten_cons,
              List.append_assoc word]
          · rw [List.append_assoc] at hpart
            obtain ⟨told, rest, rfl, hrest, hink, hneeded⟩ :=
              exists_told_of_word hlimit hchar hword hfull hpart hlast
            exact ⟨[], told, rest, words, rfl, hrest, hink, hneeded⟩

end Break

/-! ### The whole text -/

/-- A word that is told as a whole is more than the part of it that is told elsewhere. -/
theorem ne_append_append {told rest : Text} (hrest : rest ≠ []) (more : Text) :
    told ≠ told ++ rest ++ more := by
  intro heq
  rw [List.append_assoc, List.self_eq_append_right] at heq
  exact hrest (List.append_eq_nil_iff.1 heq).1

/-- How far the words of a text are told is determined by what is told. -/
theorem eq_of_told_eq {words before before' after after' : List Text}
    {told told' rest rest' : Text} (h : words = before ++ (told ++ rest) :: after)
    (h' : words = before' ++ (told' ++ rest') :: after') (hrest : rest ≠ []) (hrest' : rest' ≠ [])
    (htold : before.flatten ++ told = before'.flatten ++ told') :
    before = before' ∧ told = told' ∧ rest = rest' := by
  induction words generalizing before before' with
  | nil => exact absurd h.symm (List.append_ne_nil_of_right_ne_nil _ (List.cons_ne_nil _ _))
  | cons word words ih =>
      cases before with
      | nil =>
          cases before' with
          | nil =>
              rw [List.nil_append, List.cons.injEq] at h h'
              have hsame : told = told' := htold
              exact ⟨rfl, hsame, List.append_cancel_left (h.1.symm.trans (hsame ▸ h'.1))⟩
          | cons first' before' =>
              rw [List.nil_append, List.cons.injEq] at h
              rw [List.cons_append, List.cons.injEq] at h'
              rw [← h'.1, h.1, List.flatten_cons, List.append_assoc] at htold
              exact absurd htold (ne_append_append hrest _)
      | cons first before =>
          rw [List.cons_append, List.cons.injEq] at h
          cases before' with
          | nil =>
              rw [List.nil_append, List.cons.injEq] at h'
              rw [← h.1, h'.1, List.flatten_cons, List.append_assoc] at htold
              exact absurd htold.symm (ne_append_append hrest' _)
          | cons first' before' =>
              rw [List.cons_append, List.cons.injEq] at h'
              rw [← h.1, ← h'.1, List.flatten_cons, List.flatten_cons, List.append_assoc,
                List.append_assoc] at htold
              obtain ⟨rfl, hparts⟩ := ih h.2 h'.2 (List.append_cancel_left htold)
              exact ⟨by rw [← h.1, ← h'.1], hparts⟩

section Lines

variable {w : CellWidth} {limit : Nat}

theorem ink_fillLines {words : List Text} (hwords : ∀ word ∈ words, IsWord word) (current : Text) :
    Text.ink (fillLines w limit current words).flatten = current.ink ++ words.flatten := by
  induction words generalizing current with
  | nil => rw [fillLines, flatten_openLine, List.flatten_nil, List.append_nil]
  | cons word words ih =>
      obtain ⟨hword, hwords⟩ := List.forall_mem_cons.1 hwords
      rw [fillLines, List.flatten_cons]
      split
      case isTrue => rw [ih hwords, hword.ink_append_word, List.append_assoc]
      case isFalse =>
          rw [List.flatten_append, Text.ink_append, ih hwords, ink_broken hword]

theorem ne_nil_of_mem_chop {word : Text} : ∀ piece ∈ (chop w limit word).1, piece ≠ [] := by
  induction word using chop.induct w limit with
  | case1 word hfits =>
      rw [chop, if_pos hfits]
      exact fun piece hpiece => absurd hpiece List.not_mem_nil
  | case2 word hwide head ih =>
      rw [chop, if_neg hwide]
      refine List.forall_mem_cons.2 ⟨headPiece_ne_nil w limit ?_, ih⟩
      rintro rfl
      exact hwide (by rw [Text.width_nil]; exact Int.natCast_nonneg limit)

theorem ne_nil_of_mem_fillLines (current : Text) (words : List Text) :
    ∀ line ∈ fillLines w limit current words, line ≠ [] :=
  forall_mem_fillLines (Q := fun _ => True) (fun _ _ hne => hne) (fun _ _ _ _ _ _ => trivial)
    (fun _ _ => ⟨ne_nil_of_mem_chop, trivial⟩) trivial

section Words

variable (hlimit : 0 < limit) (hchar : ∀ ch, w ch ≤ limit) {words : List Text}
  (hwords : ∀ word ∈ words, IsWord word)

include hlimit hchar hwords

theorem spaced_of_mem_fillLines {current : Text} (h : current.Spaced) :
    ∀ line ∈ fillLines w limit current words, line.Spaced := by
  refine forall_mem_fillLines (fun s hs _ => hs) (fun word hword s hs hne _ => ?_)
    (fun word hword => ?_) h
  · exact (hwords word hword).spaced_append hs hne
  · have hparts := isWord_of_mem_chopped hlimit hchar (hwords word hword)
    rw [chopped, List.forall_mem_append, List.forall_mem_singleton] at hparts
    exact ⟨fun part hpart => (hparts.1 part hpart).spaced, hparts.2.spaced⟩

/-- The words of the lines are those of the text, where they are too wide in parts. -/
theorem words_fillLines (current : Text) :
    (fillLines w limit current words).flatMap Text.words =
      current.words ++ words.flatMap (chopped w limit) := by
  have hopen : ∀ current : Text, (openLine current).flatMap Text.words = current.words := by
    intro current
    rw [openLine]
    split
    case isTrue hnil => rw [hnil]; rfl
    case isFalse => exact List.flatMap_singleton ..
  induction words generalizing current with
  | nil => rw [fillLines, hopen, List.flatMap_nil, List.append_nil]
  | cons word words ih =>
      obtain ⟨hword, hwords⟩ := List.forall_mem_cons.1 hwords
      rw [fillLines, List.flatMap_cons]
      split
      case isTrue hfits =>
          have hnonneg : 0 ≤ current.width w := displayWidth_nonneg ..
          rw [ih hwords, Text.words_append_blank, hword.words_eq, chopped_of_le (by omega),
            List.append_assoc]
      case isFalse =>
          have hparts : ∀ parts : List Text, (∀ part ∈ parts, IsWord part) →
              parts.flatMap Text.words = parts := by
            intro parts h
            rw [List.flatMap_congr fun part hpart => (h part hpart).words_eq]
            exact List.flatMap_singleton' parts
          have hall := isWord_of_mem_chopped hlimit hchar hword
          have hchopped := hparts _ hall
          rw [chopped, List.flatMap_append, List.flatMap_singleton] at hchopped
          rw [List.flatMap_append, List.flatMap_append, hopen, ih hwords, List.append_assoc,
            ← List.append_assoc (List.flatMap _ _), hchopped, chopped]

end Words

end Lines

/-- Words filled into lines. No line is empty or wider than the limit, and each is some words with
one blank between neighbours. These are the words that were given, in their order, each as a whole
or in parts. Wherever a line begins behind others the break is needed there. -/
structure FilledWith (w : CellWidth) (limit : Int) (words lines : List Text) : Prop where
  nonempty : ∀ line ∈ lines, line ≠ []
  within : ∀ line ∈ lines, line.width w ≤ limit
  spaced : ∀ line ∈ lines, line.Spaced
  kept : ∃ parts : List (List Text),
    parts.map List.flatten = words ∧ lines.flatMap Text.words = parts.flatten
  told : Text.ink lines.flatten = words.flatten
  breaks : ∀ front last line back, lines = front ++ last :: line :: back →
    (∃ before told rest after, words = before ++ (told ++ rest) :: after ∧ rest ≠ [] ∧
      Text.ink (front ++ [last]).flatten = before.flatten ++ told) ∧
    ∀ before told rest after, words = before ++ (told ++ rest) :: after → rest ≠ [] →
      Text.ink (front ++ [last]).flatten = before.flatten ++ told →
      NeededBreak w limit last told rest

/-- A text is wrapped without an error to any width of two cells and more, on a terminal that gives
no character more than two cells and a blank one. -/
theorem words_filled {w : CellWidth} (hspace : w ' ' ≤ 1) (hwide : ∀ ch, w ch ≤ 2) {width : Int}
    (hwidth : 2 ≤ width) (s : Text) :
    ∃ lines, wrapToWidth w s width = .ok lines ∧ FilledWith w width s.words lines := by
  have hlimit : (width.toNat : Int) = width := Int.toNat_of_nonneg (by omega)
  have hchar : ∀ ch, w ch ≤ width.toNat := fun ch => Int.le_trans (hwide ch) (by omega)
  have hwords : ∀ word ∈ s.words, IsWord word := fun word => Text.isWord_of_mem_words
  refine ⟨wrapLines w width.toNat s, if_pos (by omega), ne_nil_of_mem_fillLines [] s.words,
    hlimit ▸ width_wrapLines_le hchar hspace s,
    spaced_of_mem_fillLines (by omega) hchar hwords (show Text.Spaced [] from rfl),
    ⟨s.words.map (chopped w width.toNat), ?_, words_fillLines (by omega) hchar hwords []⟩,
    ink_fillLines hwords [], ?_⟩
  · rw [List.map_map]
    exact List.map_id'' (flatten_chopped w width.toNat) s.words
  intro front last line back hlines
  rw [← List.singleton_append, ← List.append_assoc] at hlines
  obtain ⟨before, told, rest, after, hsplit, hrest, hink, hneeded⟩ :=
    exists_told_of_fillLines (by omega) hchar hwords hlines List.getLast?_concat
  refine ⟨⟨before, told, rest, after, hsplit, hrest, hink⟩, ?_⟩
  intro before' told' rest' after' hsplit' hrest' hink'
  obtain ⟨-, rfl, rfl⟩ := eq_of_told_eq hsplit hsplit' hrest hrest' (hink.symm.trans hink')
  exact hlimit ▸ hneeded

/-- Words of wide characters, of characters with a combining accent, and of joined emoji, too wide
for five cells. -/
def mixedText : Text :=
  "変数変数 x".toList ++ [' ', 'e', '\u0301', 'a', 'b', 'c', 'd', 'e', '\u0301', 'f', ' '] ++
    [Char.ofNat 0x1F469, zeroWidthJoiner, Char.ofNat 0x1F467, Char.ofNat 0x1F469,
      zeroWidthJoiner, Char.ofNat 0x1F467, Char.ofNat 0x1F469, zeroWidthJoiner]

theorem words_filled_mixed : ∃ lines,
    wrapToWidth Unicode.cellWidth mixedText 5 = .ok lines ∧
      lines = ["変数".toList, "変数".toList, ['x'],
        ['e', '\u0301', 'a', 'b', 'c', 'd'], ['e', '\u0301', 'f'],
        [Char.ofNat 0x1F469, zeroWidthJoiner, Char.ofNat 0x1F467, Char.ofNat 0x1F469,
          zeroWidthJoiner, Char.ofNat 0x1F467], [Char.ofNat 0x1F469, zeroWidthJoiner]] ∧
      FilledWith Unicode.cellWidth 5 mixedText.words lines := by
  have hlines : wrapLines Unicode.cellWidth 5 mixedText = ["変数".toList, "変数".toList, ['x'],
      ['e', '\u0301', 'a', 'b', 'c', 'd'], ['e', '\u0301', 'f'],
      [Char.ofNat 0x1F469, zeroWidthJoiner, Char.ofNat 0x1F467, Char.ofNat 0x1F469,
        zeroWidthJoiner, Char.ofNat 0x1F467], [Char.ofNat 0x1F469, zeroWidthJoiner]] := by
    decide +kernel
  obtain ⟨lines, hwrap, hfilled⟩ := words_filled (Int.le_of_eq Unicode.cellWidth_space)
    Unicode.cellWidth_le_two (show 2 ≤ 5 by decide) mixedText
  refine ⟨lines, hwrap, ?_, hfilled⟩
  rw [← hlines]
  exact (Except.ok.inj hwrap).symm

end Excerpt
