import Excerpt.LineIndex
import Excerpt.Proofs.Utf8

/-!
The index of an encoded text, told in characters. A text is cut around one of its lines; the index
finds that line, its bounds and its text, and it locates every offset of the text.
-/

namespace Excerpt

open LineIndex

/-- A text cut around the line of a number. What stands above ends with a line feed, what stands
below begins with one. -/
structure LineCut (s : Text) (number : Nat) (above line below : Text) : Prop where
  text_eq : s = above ++ line ++ below
  number_eq : above.count '\n' = number
  above_ends : above = [] ∨ ∃ a, above = a ++ ['\n']
  feedless : '\n' ∉ line
  below_begins : below = [] ∨ ∃ b, below = '\n' :: b

/-- A line without the carriage return at its end. -/
def Text.dropReturn (line : Text) : Text :=
  if line.getLast? = some '\r' then line.dropLast else line

theorem Text.dropReturn_isPrefix (line : Text) : line.dropReturn <+: line := by
  rw [Text.dropReturn]
  split
  · exact List.dropLast_prefix line
  · exact List.prefix_rfl

theorem Text.length_le_dropReturn_append {front : Text} (h : '\r' ∉ front) (back : Text) :
    front.length ≤ (front ++ back).dropReturn.length := by
  rw [Text.dropReturn]
  split
  case isTrue hlast =>
    have hback : back ≠ [] := by
      rintro rfl
      rw [List.append_nil] at hlast
      exact h (List.mem_of_getLast? hlast)
    have := List.length_pos_iff.2 hback
    rw [List.length_dropLast, List.length_append]
    omega
  case isFalse => simp

/-- The part of a text behind its last line feed, and what stands in front of it. -/
theorem exists_lastLine (p : Text) : ∃ above line, p = above ++ line ∧ '\n' ∉ line ∧
    (above = [] ∨ ∃ a, above = a ++ ['\n']) := by
  induction p with
  | nil => exact ⟨[], [], rfl, List.not_mem_nil, .inl rfl⟩
  | cons c p ih =>
      obtain ⟨above, line, rfl, hline, habove⟩ := ih
      rcases habove with rfl | ⟨a, rfl⟩
      · by_cases hc : c = '\n'
        · exact ⟨[c], line, rfl, hline, .inr ⟨[], by simp [hc]⟩⟩
        · refine ⟨[], c :: line, rfl, ?_, .inl rfl⟩
          simpa [Ne.symm hc] using hline
      · exact ⟨c :: (a ++ ['\n']), line, rfl, hline, .inr ⟨c :: a, rfl⟩⟩

/-- The last line of a text, and what is above it, are unique. -/
theorem lastLine_unique {above above' line line' : Text}
    (h : above ++ line = above' ++ line') (habove : above = [] ∨ ∃ a, above = a ++ ['\n'])
    (habove' : above' = [] ∨ ∃ a, above' = a ++ ['\n']) (hline : '\n' ∉ line)
    (hline' : '\n' ∉ line') : above = above' ∧ line = line' := by
  have hnone : ∀ {a b t : Text}, (b = [] ∨ ∃ c, b = c ++ ['\n']) → b = a ++ t → '\n' ∉ t →
      t = [] := by
    rintro a b t hb rfl ht
    rcases List.eq_nil_or_concat t with rfl | ⟨t, c, rfl⟩
    · rfl
    · rcases hb with hb | ⟨b, hb⟩
      · simp at hb
      · rw [List.concat_eq_append, ← List.append_assoc] at hb
        obtain ⟨-, hc⟩ := List.append_inj' hb rfl
        exact absurd (by simp [hc]) ht
  rcases List.append_eq_append_iff.1 h with ⟨t, rfl, rfl⟩ | ⟨t, rfl, rfl⟩
  · obtain rfl := hnone habove' rfl fun ht => hline (List.mem_append_left _ ht)
    simp
  · obtain rfl := hnone habove rfl fun ht => hline' (List.mem_append_left _ ht)
    simp

/-- Nothing is behind the last line feed of a text if it ends with one, or is empty. -/
theorem lastLine_eq_nil_iff {above line : Text} (habove : above = [] ∨ ∃ a, above = a ++ ['\n'])
    (hline : '\n' ∉ line) :
    line = [] ↔ above ++ line = [] ∨ (above ++ line).getLast? = some '\n' := by
  rcases List.eq_nil_or_concat line with rfl | ⟨t, c, rfl⟩
  · rcases habove with rfl | ⟨a, rfl⟩ <;> simp
  · have hfeed : c ≠ '\n' := by
      rintro rfl
      exact hline (by simp)
    simp [← List.append_assoc, hfeed]

/-- The part of a text in front of its first line feed, and what follows. -/
theorem exists_firstLine (q : Text) : ∃ line below, q = line ++ below ∧ '\n' ∉ line ∧
    (below = [] ∨ ∃ b, below = '\n' :: b) := by
  induction q with
  | nil => exact ⟨[], [], rfl, List.not_mem_nil, .inl rfl⟩
  | cons c q ih =>
      by_cases hc : c = '\n'
      · exact ⟨[], c :: q, rfl, List.not_mem_nil, .inr ⟨q, by rw [hc]⟩⟩
      · obtain ⟨line, below, rfl, hline, hbelow⟩ := ih
        refine ⟨c :: line, below, rfl, ?_, hbelow⟩
        simpa [Ne.symm hc] using hline

theorem LineCut.exists_at (p q : Text) : ∃ above front back below,
    p = above ++ front ∧ q = back ++ below ∧
      LineCut (p ++ q) (p.count '\n') above (front ++ back) below := by
  obtain ⟨above, front, hp, hfront, habove⟩ := exists_lastLine p
  obtain ⟨back, below, hq, hback, hbelow⟩ := exists_firstLine q
  refine ⟨above, front, back, below, hp, hq, ⟨?_, ?_, habove, ?_, hbelow⟩⟩
  · simp [hp, hq]
  · rw [hp, List.count_append, List.count_eq_zero.2 hfront, Nat.add_zero]
  · simpa using ⟨hfront, hback⟩

theorem LineCut.exists_of_le {s : Text} {n : Nat} (h : n ≤ s.count '\n') :
    ∃ above line below, LineCut s n above line below := by
  induction s generalizing n with
  | nil =>
      obtain rfl : n = 0 := by simpa using h
      exact ⟨[], [], [], rfl, rfl, .inl rfl, List.not_mem_nil, .inl rfl⟩
  | cons c s ih =>
      cases n with
      | zero =>
          obtain ⟨line, below, heq, hline, hbelow⟩ := exists_firstLine (c :: s)
          exact ⟨[], line, below, heq, rfl, .inl rfl, hline, hbelow⟩
      | succ n =>
          by_cases hc : c = '\n'
          · subst hc
            obtain ⟨above, line, below, hcut⟩ := ih (n := n) (by simpa using h)
            refine ⟨'\n' :: above, line, below, ?_, ?_, .inr ?_, hcut.feedless, hcut.below_begins⟩
            · rw [hcut.text_eq]; rfl
            · simp [hcut.number_eq]
            · rcases hcut.above_ends with rfl | ⟨a, rfl⟩
              · exact ⟨[], rfl⟩
              · exact ⟨'\n' :: a, rfl⟩
          · have hle : n + 1 ≤ s.count '\n' := by rwa [List.count_cons_of_ne hc] at h
            obtain ⟨above, line, below, hcut⟩ := ih hle
            refine ⟨c :: above, line, below, ?_, ?_, .inr ?_, hcut.feedless, hcut.below_begins⟩
            · rw [hcut.text_eq]; rfl
            · rw [List.count_cons_of_ne hc, hcut.number_eq]
            · rcases hcut.above_ends with rfl | ⟨a, rfl⟩
              · exact absurd hcut.number_eq (by simp)
              · exact ⟨c :: a, rfl⟩

/-- What stands above a line is followed by the line without its terminator. -/
theorem LineCut.exists_append {s above line below : Text} {n : Nat}
    (h : LineCut s n above line below) : ∃ rest, s = above ++ line.dropReturn ++ rest := by
  obtain ⟨terminator, hline⟩ := line.dropReturn_isPrefix
  refine ⟨terminator ++ below, ?_⟩
  rw [List.append_assoc above, ← List.append_assoc line.dropReturn, hline, ← List.append_assoc]
  exact h.text_eq

/-- A buffer cut around the line of a number, as a text is. -/
structure ByteCut (data : Bytes) (number : Nat) (above line below : Bytes) : Prop where
  data_eq : data = above ++ line ++ below
  number_eq : above.count lineFeed = number
  above_ends : above = [] ∨ ∃ a, above = a ++ [lineFeed]
  feedless : lineFeed ∉ line
  below_begins : below = [] ∨ ∃ b, below = lineFeed :: b

/-- Bytes without the carriage return at their end. -/
def Bytes.dropReturn (line : Bytes) : Bytes :=
  if line.getLast? = some carriageReturn then line.dropLast else line

theorem count_lineFeed_encodeChar (c : Char) :
    (Utf8.encodeChar c).count lineFeed = if c = '\n' then 1 else 0 := by
  split
  case isTrue h => rw [h]; rfl
  case isFalse h =>
    rw [List.count_eq_zero]
    intro hmem
    have hnat := Utf8.toNat_eq_of_mem_encodeChar hmem (by decide)
    exact h (Char.toNat_inj.1 hnat.symm)

theorem count_lineFeed_encode (s : Text) : (Utf8.encode s).count lineFeed = s.count '\n' := by
  induction s with
  | nil => rfl
  | cons c s ih =>
      rw [Utf8.encode_cons, List.count_append, count_lineFeed_encodeChar, ih, List.count_cons,
        Nat.add_comm]
      simp only [beq_iff_eq]

/-- Encoded, a text is cut around the bytes of the same line. -/
theorem LineCut.encode {s above line below : Text} {n : Nat} (h : LineCut s n above line below) :
    ByteCut (Utf8.encode s) n (Utf8.encode above) (Utf8.encode line) (Utf8.encode below) where
  data_eq := by rw [h.text_eq, Utf8.encode_append, Utf8.encode_append]
  number_eq := by rw [count_lineFeed_encode, h.number_eq]
  above_ends := by
    rcases h.above_ends with rfl | ⟨a, rfl⟩
    · exact .inl rfl
    · exact .inr ⟨Utf8.encode a, Utf8.encode_append a ['\n']⟩
  feedless := by
    rw [← List.count_eq_zero, count_lineFeed_encode]
    exact List.count_eq_zero.2 h.feedless
  below_begins := by
    rcases h.below_begins with rfl | ⟨b, rfl⟩
    · exact .inl rfl
    · exact .inr ⟨Utf8.encode b, Utf8.encode_cons '\n' b⟩

theorem startsAfter_append (pos : Nat) (a b : Bytes) :
    startsAfter pos (a ++ b) = startsAfter pos a ++ startsAfter (pos + a.length) b := by
  induction a generalizing pos with
  | nil => rfl
  | cons x a ih =>
      have hpos : pos + 1 + a.length = pos + (x :: a).length := by
        rw [List.length_cons]; omega
      by_cases hx : x = lineFeed
      · simp only [List.cons_append, startsAfter, hx, if_true, ih, hpos]
      · simp only [List.cons_append, startsAfter, hx, if_false, ih, hpos]

theorem length_startsAfter (pos : Nat) (a : Bytes) :
    (startsAfter pos a).length = a.count lineFeed := by
  induction a generalizing pos with
  | nil => rfl
  | cons x a ih =>
      by_cases hx : x = lineFeed
      · simp only [startsAfter, hx, if_true, List.length_cons, ih, List.count_cons_self]
      · simp only [startsAfter, hx, if_false, ih, List.count_cons_of_ne hx]

theorem lt_of_mem_startsAfter {pos start : Nat} {a : Bytes} (h : start ∈ startsAfter pos a) :
    pos < start := by
  induction a generalizing pos with
  | nil => exact absurd h List.not_mem_nil
  | cons x a ih =>
      simp only [startsAfter] at h
      split at h
      · rcases List.mem_cons.1 h with rfl | h
        · exact Nat.lt_succ_self pos
        · exact Nat.lt_of_succ_lt (ih h)
      · exact Nat.lt_of_succ_lt (ih h)

/-- The lines that start at or before an offset are counted by the line feeds in front of it. -/
theorem countP_startsAfter (pos offset : Nat) (a : Bytes) :
    (startsAfter pos a).countP (· ≤ pos + offset) = (a.take offset).count lineFeed := by
  induction a generalizing pos offset with
  | nil => rw [List.take_nil]; rfl
  | cons x a ih =>
      cases offset with
      | zero =>
          rw [List.take_zero, List.count_nil, List.countP_eq_zero]
          intro start hstart
          have := lt_of_mem_startsAfter hstart
          simp only [decide_eq_true_eq]
          omega
      | succ offset =>
          have hshift : pos + 1 + offset = pos + (offset + 1) := by omega
          have ih' := ih (pos + 1) offset
          rw [hshift] at ih'
          by_cases hx : x = lineFeed
          · rw [List.take_succ_cons, hx, List.count_cons_self, ← ih']
            simp only [startsAfter, if_true]
            rw [List.countP_cons_of_pos (by simp only [decide_eq_true_eq]; omega)]
          · rw [List.take_succ_cons, List.count_cons_of_ne hx, ← ih']
            simp only [startsAfter, hx, if_false]

namespace LineIndex

theorem lineAt_eq_count (data : Bytes) (offset : Nat) :
    (ofBytes data).lineAt offset = (data.take offset).count lineFeed := by
  have h := countP_startsAfter 0 offset data
  rw [Nat.zero_add] at h
  rw [lineAt, ofBytes, List.countP_cons_of_pos (by simp only [Nat.zero_le, decide_true]), h,
    Nat.add_sub_cancel]

theorem lineCount_eq_count (data : Bytes) :
    (ofBytes data).lineCount = data.count lineFeed + 1 := by
  rw [lineCount, ofBytes, List.length_cons, length_startsAfter]

abbrev ofText (s : Text) : LineIndex := ofBytes (Utf8.encode s)

theorem lineCount_ofText (s : Text) : (ofText s).lineCount = s.count '\n' + 1 := by
  rw [lineCount_eq_count, count_lineFeed_encode]

variable {s above line below : Text} {n : Nat}

theorem getLast?_encode_eq_return (line : Text) :
    (Utf8.encode line).getLast? = some carriageReturn ↔ line.getLast? = some '\r' := by
  rcases List.eq_nil_or_concat line with rfl | ⟨l, c, rfl⟩
  · constructor <;> intro h <;> exact nomatch h
  · obtain ⟨b, rest, hc, -⟩ := Utf8.encodeChar_eq_cons c
    have hlast : (Utf8.encode (l ++ [c])).getLast? = (Utf8.encodeChar c).getLast? := by
      rw [Utf8.encode_append, Utf8.encode_cons, Utf8.encode_nil, List.append_nil,
        List.getLast?_append, Option.or_of_isSome (by rw [hc]; rfl)]
    rw [List.concat_eq_append, hlast, List.getLast?_concat, Option.some_inj]
    constructor
    · intro h
      have hnat := Utf8.toNat_eq_of_mem_encodeChar (List.mem_of_getLast? h) (by decide)
      exact Char.toNat_inj.1 hnat.symm
    · rintro rfl
      rfl

theorem encode_dropReturn (line : Text) :
    Utf8.encode line.dropReturn = (Utf8.encode line).dropReturn := by
  simp only [Text.dropReturn, Bytes.dropReturn, getLast?_encode_eq_return]
  split
  case isTrue h =>
    obtain ⟨l, rfl⟩ := List.getLast?_eq_some_iff.1 h
    have hreturn : Utf8.encode (l ++ ['\r']) = Utf8.encode l ++ [carriageReturn] :=
      Utf8.encode_append l ['\r']
    rw [hreturn, List.dropLast_concat, List.dropLast_concat]
  case isFalse => rfl

theorem length_encode_pos {s : Text} (h : s ≠ []) : 0 < (Utf8.encode s).length := by
  cases s with
  | nil => exact absurd rfl h
  | cons c s =>
      have := Utf8.length_encodeChar_pos c
      rw [Utf8.encode_cons, List.length_append]
      omega

private theorem lineBounds?_of_some {index : LineIndex} {number : Int} {start : Nat} {stop : Int}
    (hstart : entryAt? index.starts number = some start)
    (hstop : (if number + 1 < index.lineCount then
      (entryAt? index.starts (number + 1)).map fun (next : Nat) => (next : Int) - 1
    else some (index.data.length : Int)) = some stop) :
    index.lineBounds? number = some (start,
      if (start : Int) < stop ∧ index.data[(stop - 1).toNat]? = some carriageReturn then stop - 1
      else stop) := by
  simp only [lineBounds?, hstart, Option.bind_eq_bind, Option.bind_some]
  split at hstop
  case isTrue hnext =>
    rw [if_pos hnext, hstop, Option.bind_some]
    split <;> rfl
  case isFalse hnext =>
    rw [if_neg hnext, Option.some_inj.1 hstop]
    split <;> rfl

section Bytes

variable {data above line below : Bytes} {n : Nat}

theorem getElem?_starts_behind (a rest : Bytes) :
    (ofBytes (a ++ lineFeed :: rest)).starts[a.count lineFeed + 1]? = some (a.length + 1) := by
  change (0 :: startsAfter 0 (a ++ lineFeed :: rest))[_]? = _
  rw [startsAfter_append, List.getElem?_cons_succ,
    List.getElem?_append_right (Nat.le_of_eq (length_startsAfter 0 a)), length_startsAfter,
    Nat.sub_self]
  simp [startsAfter]

theorem getElem?_starts_ofBytes (h : ByteCut data n above line below) :
    (ofBytes data).starts[n]? = some above.length := by
  rcases h.above_ends with rfl | ⟨a, rfl⟩
  · rw [← h.number_eq]; rfl
  · have hstart := getElem?_starts_behind a (line ++ below)
    have hdata : data = a ++ lineFeed :: (line ++ below) := by simp [h.data_eq]
    rw [← h.number_eq, List.count_append, List.count_singleton_self, List.length_append, hdata]
    exact hstart

/-- The end of a line with its carriage return, but without the line feed. -/
private theorem lineEnd_ofBytes (h : ByteCut data n above line below) :
    (if (n : Int) + 1 < (ofBytes data).lineCount then
      (entryAt? (ofBytes data).starts ((n : Int) + 1)).map fun (next : Nat) => (next : Int) - 1
    else some ((ofBytes data).data.length : Int)) =
      some ((above.length + line.length : Nat) : Int) := by
  have hcount : (above ++ line).count lineFeed = n := by
    rw [List.count_append, h.number_eq, List.count_eq_zero.2 h.feedless, Nat.add_zero]
  rw [lineCount_eq_count]
  rcases h.below_begins with rfl | ⟨b, rfl⟩
  · have hlength : (ofBytes data).data.length = above.length + line.length := by
      simp [ofBytes, h.data_eq]
    rw [if_neg (by rw [h.data_eq, List.append_nil, hcount]; omega), hlength]
  · have hnext := getElem?_starts_behind (above ++ line) b
    rw [hcount, ← h.data_eq, List.length_append] at hnext
    rw [if_pos (by rw [h.data_eq, List.count_append, hcount, List.count_cons_self]; omega),
      entryAt?, if_pos (by omega), show ((n : Int) + 1).toNat = n + 1 by omega, hnext,
      Option.map_some, Option.some_inj]
    omega

/-- A line has bounds, and what they enclose is the line without its terminator. -/
theorem lineBounds?_ofBytes (h : ByteCut data n above line below) :
    (ofBytes data).lineBounds? n =
      some (above.length, ((above.length + line.dropReturn.length : Nat) : Int)) := by
  have hstart : entryAt? (ofBytes data).starts (n : Int) = some above.length := by
    rw [entryAt?, if_pos (by omega), Int.toNat_natCast, getElem?_starts_ofBytes h]
  rw [lineBounds?_of_some hstart (lineEnd_ofBytes h), Bytes.dropReturn]
  rcases List.eq_nil_or_concat line with rfl | ⟨l, b, hline⟩
  · simp
  · rw [List.concat_eq_append] at hline
    subst hline
    have hlength : (l ++ [b]).length = l.length + 1 := List.length_append
    have hinside : (above.length : Int) < ((above.length + (l ++ [b]).length : Nat) : Int) := by
      omega
    have hindex : (((above.length + (l ++ [b]).length : Nat) : Int) - 1).toNat =
        above.length + l.length := by omega
    have hlast : (ofBytes data).data[(((above.length + (l ++ [b]).length : Nat) : Int) -
        1).toNat]? = some b := by
      rw [hindex]
      simp [ofBytes, h.data_eq]
    simp only [hlast, hinside, true_and, List.getLast?_concat]
    split
    case isTrue =>
        rw [List.dropLast_concat, hlength]
        exact congrArg some (Prod.ext rfl (by dsimp only; omega))
    case isFalse => rfl

/-- What is between the ends of a slice. -/
theorem slice_append (a m b : Bytes) :
    slice (a ++ m ++ b) a.length ((a.length + m.length : Nat) : Int) = m := by
  rw [slice, if_neg (by omega), Int.toNat_natCast, ← List.length_append, List.take_left,
    List.drop_left]

end Bytes

theorem getElem?_starts (h : LineCut s n above line below) :
    (ofText s).starts[n]? = some (Utf8.encode above).length := getElem?_starts_ofBytes h.encode

theorem lineBounds?_ofText (h : LineCut s n above line below) :
    (ofText s).lineBounds? n = some ((Utf8.encode above).length,
      (((Utf8.encode above).length + (Utf8.encode line.dropReturn).length : Nat) : Int)) := by
  rw [lineBounds?_ofBytes h.encode, encode_dropReturn]

theorem slice_encode (a m b : Text) :
    slice (Utf8.encode (a ++ m ++ b)) (Utf8.encode a).length
      (((Utf8.encode a).length + (Utf8.encode m).length : Nat) : Int) = Utf8.encode m := by
  rw [Utf8.encode_append, Utf8.encode_append, slice_append]

theorem line_ofText (h : LineCut s n above line below) :
    (ofText s).line n = .ok line.dropReturn := by
  obtain ⟨rest, hs⟩ := h.exists_append
  have hslice := slice_encode above line.dropReturn rest
  rw [← hs] at hslice
  have hdata : (ofText s).data = Utf8.encode s := rfl
  simp only [LineIndex.line, lineBounds?_ofText h, hdata, hslice, Utf8.decode_encode]
  rfl

theorem line_ofText_of_lt {n : Nat} (h : n < (ofText s).lineCount) :
    ∃ text, (ofText s).line n = .ok text := by
  rw [lineCount_ofText] at h
  obtain ⟨above, line, below, hcut⟩ := LineCut.exists_of_le (Nat.le_of_lt_succ h)
  exact ⟨_, line_ofText hcut⟩

theorem snapDown_eq {data : Bytes} {low offset : Nat} (hle : low ≤ offset)
    (hlow : (data[low]?).any Utf8.isContinuation = false)
    (hinside : ∀ k, low < k → k ≤ offset → (data[k]?).any Utf8.isContinuation = true) :
    snapDown data offset = low := by
  induction offset with
  | zero => exact (Nat.le_zero.1 hle).symm
  | succ offset ih =>
      rcases Nat.lt_or_eq_of_le hle with hlt | rfl
      · rw [snapDown, if_pos (hinside _ hlt (Nat.le_refl _))]
        exact ih (Nat.le_of_lt_succ hlt) fun k hk hko => hinside k hk (Nat.le_succ_of_le hko)
      · rw [snapDown, hlow, if_neg (by simp)]

/-- Stepping back from an offset ends behind the characters in front of it. -/
theorem snapDown_encode {s : Text} {offset : Nat} (h : offset ≤ (Utf8.encode s).length) :
    snapDown (Utf8.encode s) offset = (Utf8.encode (Utf8.before offset s)).length := by
  obtain ⟨q, hq, hle, hlt⟩ := Utf8.exists_before_append offset s
  generalize Utf8.before offset s = p at hq hle hlt ⊢
  subst hq
  cases q with
  | nil =>
      rw [List.append_nil] at h ⊢
      obtain rfl : offset = (Utf8.encode p).length := Nat.le_antisymm h hle
      refine snapDown_eq (Nat.le_refl _) ?_ fun k hlow hhigh => by omega
      rw [List.getElem?_eq_none (Nat.le_refl _)]
      rfl
  | cons c rest =>
      obtain ⟨b, more, hc, hfirst, hmore⟩ := Utf8.encodeChar_eq_cons c
      have hend := hlt c rest rfl
      rw [hc, List.length_cons] at hend
      have hdata : Utf8.encode (p ++ c :: rest) =
          Utf8.encode p ++ b :: (more ++ Utf8.encode rest) := by
        rw [Utf8.encode_append, Utf8.encode_cons, hc, List.cons_append]
      rw [hdata]
      refine snapDown_eq hle ?_ ?_
      · rw [List.getElem?_append_right (Nat.le_refl _), Nat.sub_self, List.getElem?_cons_zero,
          Option.any_some, hfirst]
      · intro k hlow hhigh
        obtain ⟨j, rfl⟩ : ∃ j, k = (Utf8.encode p).length + (j + 1) :=
          ⟨k - (Utf8.encode p).length - 1, by omega⟩
        have hj : j < more.length := by omega
        rw [List.getElem?_append_right (by omega), Nat.add_sub_cancel_left,
          List.getElem?_cons_succ, List.getElem?_append_left hj, List.getElem?_eq_getElem hj,
          Option.any_some]
        exact hmore _ (List.getElem_mem hj)

theorem length_encode_take {a b l : Text} (ha : a <+: l) (hb : b <+: l) :
    (Utf8.encode (a.take b.length)).length =
      min (Utf8.encode a).length (Utf8.encode b).length := by
  rcases List.prefix_or_prefix_of_prefix ha hb with ⟨t, rfl⟩ | ⟨t, rfl⟩
  · rw [List.take_of_length_le (by rw [List.length_append]; omega), Utf8.encode_append,
      List.length_append]
    omega
  · rw [List.take_left, Utf8.encode_append, List.length_append]
    omega

theorem lineAt_length_encode (p q : Text) :
    (ofText (p ++ q)).lineAt (Utf8.encode p).length = p.count '\n' := by
  rw [lineAt_eq_count, Utf8.encode_append, List.take_left, count_lineFeed_encode]

/-- The visible part of what is in front of a place on its line. -/
private theorem slice_visible (above front back q : Text) :
    slice (Utf8.encode (above ++ front ++ q)) (Utf8.encode above).length
      (min ((Utf8.encode (above ++ front)).length : Int)
        (((Utf8.encode above).length + (Utf8.encode (front ++ back).dropReturn).length : Nat) :
          Int)) = Utf8.encode (front.take (front ++ back).dropReturn.length) := by
  have hvisible := length_encode_take (List.prefix_append front back)
    (front ++ back).dropReturn_isPrefix
  have hend : min ((Utf8.encode (above ++ front)).length : Int)
      (((Utf8.encode above).length + (Utf8.encode (front ++ back).dropReturn).length : Nat) :
        Int) = (((Utf8.encode above).length + (Utf8.encode (front.take
          (front ++ back).dropReturn.length)).length : Nat) : Int) := by
    rw [Utf8.encode_append, List.length_append]
    omega
  have hs : above ++ front ++ q = above ++ front.take (front ++ back).dropReturn.length ++
      (front.drop (front ++ back).dropReturn.length ++ q) := by
    simp only [List.append_assoc, ← List.append_assoc (List.take _ _), List.take_append_drop]
  rw [hend, hs]
  exact slice_encode above _ _

/-- Every offset of a text has a location: the line feeds in front of its character give the line,
the rest of what is in front of it the columns. Those of display end with the visible line. -/
theorem locate_ofText (w : CellWidth) (tab : Int) (s : Text) {offset : Int} (hlow : 0 ≤ offset)
    (hhigh : offset ≤ (Utf8.encode s).length) :
    ∃ above front back below, Utf8.before offset.toNat s = above ++ front ∧
      LineCut s ((above ++ front).count '\n') above (front ++ back) below ∧
      locate w tab (ofText s) offset = .ok ⟨(above ++ front).count '\n',
        (Utf8.encode front).length,
        displayWidth w tab 0 (front.take (front ++ back).dropReturn.length)⟩ := by
  obtain ⟨q, hq⟩ := Utf8.before_isPrefix offset.toNat s
  obtain ⟨above, front, back, below, hp, -, hcut⟩ :=
    LineCut.exists_at (Utf8.before offset.toNat s) q
  have hinside : offset.toNat ≤ (Utf8.encode s).length := by omega
  have hsnap := snapDown_encode hinside
  rw [hq, hp] at hcut
  rw [hp] at hq hsnap
  refine ⟨above, front, back, below, hp, hcut, ?_⟩
  have hline := lineAt_length_encode (above ++ front) q
  have hslice := slice_visible above front back q
  rw [hq] at hline hslice
  have hcol : ((Utf8.encode (above ++ front)).length : Int) - (Utf8.encode above).length =
      (Utf8.encode front).length := by
    rw [Utf8.encode_append, List.length_append]
    omega
  have hcheck : (ofText s).check offset = .ok () := if_pos ⟨hlow, hhigh⟩
  have hdata : (ofText s).data = Utf8.encode s := rfl
  simp only [locate, hcheck, hdata, hsnap, hline, lineBounds?_ofText hcut, hslice,
    Utf8.decode_encode, hcol]
  rfl

theorem check_error {s : Text} {offset : Int}
    (h : ¬(0 ≤ offset ∧ offset ≤ (Utf8.encode s).length)) :
    (ofText s).check offset = .error ⟨offset, (Utf8.encode s).length⟩ := if_neg h

theorem locate_error (w : CellWidth) (tab : Int) {s : Text} {offset : Int}
    (h : ¬(0 ≤ offset ∧ offset ≤ (Utf8.encode s).length)) :
    locate w tab (ofText s) offset = .error (.outOfBounds ⟨offset, (Utf8.encode s).length⟩) := by
  simp only [locate, check_error h]
  rfl

end LineIndex
end Excerpt
