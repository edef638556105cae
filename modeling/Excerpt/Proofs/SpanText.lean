import Excerpt.Source
import Excerpt.Proofs.Snapping

/-!
The text that a span covers. Both ends count for the character that they point into, so a span of a
text covers whole characters, and spans that follow each other cover each character once. Only
offsets outside the text are refused, the start before the end.
-/

namespace Excerpt

namespace Utf8

/-- The characters from the one that an offset points into up to the one that another does. -/
def between (start stop : Nat) (s : Text) : Text :=
  (before stop s).drop (before start s).length

variable {a b c : Nat}

theorem before_append_between (h : a ≤ b) (s : Text) :
    before a s ++ between a b s = before b s := by
  obtain ⟨t, ht⟩ := before_mono h s
  rw [between, ← ht, List.drop_left]

theorem between_append_between (hab : a ≤ b) (hbc : b ≤ c) (s : Text) :
    between a b s ++ between b c s = between a c s := by
  apply (List.append_right_inj (before a s)).1
  calc before a s ++ (between a b s ++ between b c s)
      = before b s ++ between b c s := by rw [← List.append_assoc, before_append_between hab]
    _ = before c s := before_append_between hbc s
    _ = before a s ++ between a c s := (before_append_between (Nat.le_trans hab hbc) s).symm

theorem between_zero_length_encode (s : Text) : between 0 (encode s).length s = s := by
  have hall := before_length_encode s []
  rw [List.append_nil] at hall
  simp [between, before_zero, hall]

end Utf8

namespace LineIndex

/-- The bytes between the characters that two offsets point into. -/
theorem slice_snap_ofText {s : Text} {start stop : Int} (hlow : 0 ≤ start) (hle : start ≤ stop)
    (hhigh : stop ≤ (Utf8.encode s).length) :
    slice (Utf8.encode s) ((ofText s).snap start).toNat ((ofText s).snap stop) =
      Utf8.encode (Utf8.between start.toNat stop.toNat s) := by
  have hbefore := Utf8.before_append_between (show start.toNat ≤ stop.toNat by omega) s
  obtain ⟨rest, hrest⟩ := Utf8.before_isPrefix stop.toNat s
  rw [snap_ofText hlow (by omega), snap_ofText (by omega) hhigh, Int.toNat_natCast]
  rw [← hbefore] at hrest ⊢
  have hslice := slice_encode (Utf8.before start.toNat s)
    (Utf8.between start.toNat stop.toNat s) rest
  rw [hrest, ← List.length_append, ← Utf8.encode_append] at hslice
  exact hslice

end LineIndex

namespace Source

variable (source : Source) {start stop : Int}

theorem spanText_of_le (hlow : 0 ≤ start) (hle : start ≤ stop) (hhigh : stop ≤ source.length) :
    source.spanText ⟨start, stop⟩ = .ok (Utf8.between start.toNat stop.toNat source.text) := by
  have hstart : source.index.check start = .ok () := if_pos ⟨hlow, Int.le_trans hle hhigh⟩
  have hstop : source.index.check stop = .ok () := if_pos ⟨Int.le_trans hlow hle, hhigh⟩
  have hslice := LineIndex.slice_snap_ofText hlow hle hhigh
  change LineIndex.slice source.index.data (source.index.snap start).toNat
    (source.index.snap stop) = _ at hslice
  simp only [spanText, hstart, hstop, hslice, Utf8.decode_encode, ok_mapError, ok_bind]

theorem spanText_of_start_out (h : ¬(0 ≤ start ∧ start ≤ source.length)) (stop : Int) :
    source.spanText ⟨start, stop⟩ = .error (.outOfBounds ⟨start, source.length⟩) := by
  have hstart : source.index.check start = .error ⟨start, source.length⟩ :=
    LineIndex.check_error h
  simp only [spanText, hstart, error_mapError, error_bind]

theorem spanText_of_stop_out (hstart : 0 ≤ start ∧ start ≤ source.length)
    (h : ¬(0 ≤ stop ∧ stop ≤ source.length)) :
    source.spanText ⟨start, stop⟩ = .error (.outOfBounds ⟨stop, source.length⟩) := by
  have hcheck : source.index.check start = .ok () := if_pos hstart
  have hstop : source.index.check stop = .error ⟨stop, source.length⟩ := LineIndex.check_error h
  simp only [spanText, hcheck, hstop, ok_mapError, ok_bind, error_mapError, error_bind]

/-- Spans that follow each other cover the text of the span over both, the span over everything
covers all of it, and an offset outside the text is refused, that of the start first. -/
theorem spanText_cuts :
    (∀ a b c : Int, 0 ≤ a → a ≤ b → b ≤ c → c ≤ source.length → ∃ front back,
      source.spanText ⟨a, b⟩ = .ok front ∧ source.spanText ⟨b, c⟩ = .ok back ∧
        source.spanText ⟨a, c⟩ = .ok (front ++ back)) ∧
      source.spanText ⟨0, source.length⟩ = .ok source.text ∧
      (∀ start stop : Int, ¬(0 ≤ start ∧ start ≤ source.length) →
        source.spanText ⟨start, stop⟩ = .error (.outOfBounds ⟨start, source.length⟩)) ∧
      ∀ start stop : Int, 0 ≤ start ∧ start ≤ source.length →
        ¬(0 ≤ stop ∧ stop ≤ source.length) →
          source.spanText ⟨start, stop⟩ = .error (.outOfBounds ⟨stop, source.length⟩) := by
  refine ⟨?adjacent, ?whole, ?start, ?stop⟩
  case adjacent =>
      intro a b c hlow hab hbc hhigh
      refine ⟨_, _, source.spanText_of_le hlow hab (by omega),
        source.spanText_of_le (by omega) hbc hhigh, ?_⟩
      rw [source.spanText_of_le hlow (by omega) hhigh, Utf8.between_append_between] <;> omega
  case whole =>
      rw [source.spanText_of_le (Int.le_refl _) (by omega) (Int.le_refl _), Int.toNat_natCast]
      exact congrArg Except.ok (Utf8.between_zero_length_encode source.text)
  case start => exact fun start stop h => source.spanText_of_start_out h stop
  case stop => exact fun start stop hstart h => source.spanText_of_stop_out hstart h

/-- An offset inside a character cuts in front of it. -/
example : Source.spanText ⟨['a', 'é'], none, none⟩ ⟨0, 2⟩ = .ok ['a'] ∧
    Source.spanText ⟨['a', 'é'], none, none⟩ ⟨2, 3⟩ = .ok ['é'] := ⟨rfl, rfl⟩

end Source
end Excerpt
