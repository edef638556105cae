import Excerpt.Printing
import Excerpt.Proofs.Characters

/-!
Escape sequences. A painted text is the plain one with complete sequences put in, so removing
sequences gives the plain text back, whatever digits, brackets and letters stand between them.
-/

namespace Excerpt

open Style (escapeChar)

namespace Escape

@[simp] theorem remove_nil : remove [] = [] := by
  simp only [remove]

theorem remove_cons_of_ne {c : Char} (h : c ≠ escapeChar) (s : Text) :
    remove (c :: s) = c :: remove s := by
  cases s with
  | nil => simp only [remove]
  | cons d s =>
      rw [remove, if_neg]
      exact fun hboth => h hboth.1

theorem remove_sequence {s rest : Text} (h : after? s = some rest) :
    remove (escapeChar :: '[' :: s) = remove rest := by
  rw [remove, if_pos ⟨rfl, rfl⟩]
  split
  next rest' hrest => exact congrArg remove (Option.some.inj (hrest.symm.trans h))
  next hnone => cases hnone.symm.trans h

theorem remove_unfinished {s : Text} (h : after? s = none) :
    remove (escapeChar :: '[' :: s) = escapeChar :: remove ('[' :: s) := by
  rw [remove, if_pos ⟨rfl, rfl⟩]
  split
  next rest hrest => cases hrest.symm.trans h
  next hnone => rfl

theorem remove_other {c d : Char} (h : ¬(c = escapeChar ∧ d = '[')) (s : Text) :
    remove (c :: d :: s) = c :: remove (d :: s) := by
  rw [remove, if_neg h]

theorem not_isParameter_of_isFinal {c : Char} (h : isFinal c = true) : isParameter c = false := by
  rw [← Bool.not_eq_true]
  simp only [isFinal, isParameter, Bool.or_eq_true, Bool.and_eq_true, decide_eq_true_eq,
    beq_iff_eq, Char.le_def, UInt32.le_iff_toNat_le] at h ⊢
  rintro ((rfl | rfl) | hdigit)
  · revert h
    decide
  · revert h
    decide
  · have hlow : ('a' : Char).val.toNat = 97 := rfl
    have hupper : ('A' : Char).val.toNat = 65 := rfl
    have hnine : ('9' : Char).val.toNat = 57 := rfl
    omega

theorem after?_append {params : Text} (hparams : ∀ c ∈ params, isParameter c = true) {final : Char}
    (hfinal : isFinal final = true) (rest : Text) :
    after? (params ++ final :: rest) = some rest := by
  have hdrop : (params ++ final :: rest).dropWhile isParameter = final :: rest := by
    rw [List.dropWhile_append_of_pos hparams, List.dropWhile_cons_of_neg]
    rw [not_isParameter_of_isFinal hfinal]
    exact Bool.false_ne_true
  rw [after?, hdrop]
  exact if_pos hfinal

theorem after?_append_cons {c : Char} (hparameter : isParameter c = false)
    (hfinal : isFinal c = false) (s rest : Text) :
    after? (s ++ c :: rest) = (after? s).map (· ++ c :: rest) := by
  rw [after?, after?, List.dropWhile_append]
  cases hdrop : s.dropWhile isParameter with
  | nil => simp [hparameter, hfinal]
  | cons d tail => cases hd : isFinal d <;> simp [hd]

/-- No sequence goes past a character that has no part in any. -/
theorem remove_append_cons {c : Char} (hparameter : isParameter c = false)
    (hfinal : isFinal c = false) (hopen : c ≠ '[') (s rest : Text) :
    remove (s ++ c :: rest) = remove s ++ remove (c :: rest) := by
  induction s using remove.induct with
  | case1 => simp only [remove, List.nil_append]
  | case2 d =>
      rw [List.singleton_append, remove_other fun h => hopen h.2]
      simp only [remove, List.singleton_append]
  | case3 d d' s hstart tail hafter ih =>
      obtain ⟨rfl, rfl⟩ := hstart
      have hafter' : after? (s ++ c :: rest) = some (tail ++ c :: rest) := by
        rw [after?_append_cons hparameter hfinal, hafter, Option.map_some]
      rw [List.cons_append, List.cons_append, remove_sequence hafter', remove_sequence hafter, ih]
  | case4 d d' s hstart hafter ih =>
      obtain ⟨rfl, rfl⟩ := hstart
      have hafter' : after? (s ++ c :: rest) = none := by
        rw [after?_append_cons hparameter hfinal, hafter, Option.map_none]
      rw [List.cons_append, List.cons_append, remove_unfinished hafter', remove_unfinished hafter,
        ← List.cons_append, ih, List.cons_append]
  | case5 d d' s hother ih =>
      rw [List.cons_append, List.cons_append, remove_other hother, remove_other hother,
        ← List.cons_append, ih, List.cons_append]

/-- A character that has no part in any sequence stays at the end. -/
theorem remove_concat {c : Char} (hparameter : isParameter c = false) (hfinal : isFinal c = false)
    (hopen : c ≠ '[') (s : Text) : remove (s ++ [c]) = remove s ++ [c] := by
  rw [remove_append_cons hparameter hfinal hopen]
  simp only [remove]

/-- The introducer, any number of parameters, and a letter. -/
def IsSequence (s : Text) : Prop :=
  ∃ params final, s = escapeChar :: '[' :: (params ++ [final]) ∧
    (∀ c ∈ params, isParameter c = true) ∧ isFinal final = true

/-- A complete sequence stands somewhere in the text. -/
def Occurs (s : Text) : Prop := ∃ sequence, IsSequence sequence ∧ sequence <:+: s

theorem after?_eq_some_iff {s rest : Text} : after? s = some rest ↔ ∃ params final,
    s = params ++ final :: rest ∧ (∀ c ∈ params, isParameter c = true) ∧
      isFinal final = true := by
  constructor
  · intro h
    have hsplit := List.takeWhile_append_dropWhile (p := isParameter) (l := s)
    simp only [after?] at h
    split at h
    · cases h
    next final tail hdrop =>
      split at h
      next hfinal =>
        refine ⟨s.takeWhile isParameter, final, ?_, List.all_eq_true.1 List.all_takeWhile, hfinal⟩
        rw [← Option.some.inj h, ← hdrop, hsplit]
      · cases h
  · rintro ⟨params, final, rfl, hparams, hfinal⟩
    exact after?_append hparams hfinal rest

theorem exists_sequence_prefix_iff {s : Text} :
    (∃ sequence, IsSequence sequence ∧ sequence <+: s) ↔
      ∃ rest tail, s = escapeChar :: '[' :: rest ∧ after? rest = some tail := by
  simp only [after?_eq_some_iff]
  constructor
  · rintro ⟨-, ⟨params, final, rfl, hparams, hfinal⟩, tail, rfl⟩
    exact ⟨params ++ final :: tail, tail, by simp, params, final, rfl, hparams, hfinal⟩
  · rintro ⟨-, tail, rfl, params, final, rfl, hparams, hfinal⟩
    exact ⟨_, ⟨params, final, rfl, hparams, hfinal⟩, tail, by simp⟩

theorem occurs_cons {c : Char} {s : Text} : Occurs (c :: s) ↔
    (∃ rest tail, c :: s = escapeChar :: '[' :: rest ∧ after? rest = some tail) ∨ Occurs s := by
  rw [← exists_sequence_prefix_iff]
  simp only [Occurs, List.infix_cons_iff, and_or_left, exists_or]

theorem not_occurs_nil : ¬Occurs [] := by
  rintro ⟨-, ⟨params, final, rfl, -⟩, hinfix⟩
  exact absurd (List.infix_nil.1 hinfix) (List.cons_ne_nil _ _)

theorem remove_sublist (s : Text) : (remove s).Sublist s := by
  induction s using remove.induct with
  | case1 => simp only [remove, List.Sublist.refl]
  | case2 c => simp only [remove, List.Sublist.refl]
  | case3 c d rest hstart tail hafter ih =>
      obtain ⟨rfl, rfl⟩ := hstart
      obtain ⟨params, final, rfl, -⟩ := after?_eq_some_iff.1 hafter
      rw [remove_sequence hafter]
      have hsuffix : tail <:+ escapeChar :: '[' :: (params ++ final :: tail) :=
        ⟨escapeChar :: '[' :: (params ++ [final]), by simp⟩
      exact ih.trans hsuffix.sublist
  | case4 c d rest hstart hafter ih =>
      obtain ⟨rfl, rfl⟩ := hstart
      rw [remove_unfinished hafter]
      exact ih.cons_cons _
  | case5 c d rest hother ih =>
      rw [remove_other hother]
      exact ih.cons_cons _

theorem length_remove_lt {s : Text} (h : Occurs s) : (remove s).length < s.length := by
  induction s using remove.induct with
  | case1 => exact absurd h not_occurs_nil
  | case2 c =>
      rcases occurs_cons.1 h with ⟨rest, tail, heq, -⟩ | h
      · exact absurd heq (by simp)
      · exact absurd h not_occurs_nil
  | case3 c d rest hstart tail hafter ih =>
      obtain ⟨rfl, rfl⟩ := hstart
      have hle := (remove_sublist tail).length_le
      have hlt := length_lt_of_after? hafter
      rw [remove_sequence hafter, List.length_cons, List.length_cons]
      omega
  | case4 c d rest hstart hafter ih =>
      obtain ⟨rfl, rfl⟩ := hstart
      rw [remove_unfinished hafter]
      rcases occurs_cons.1 h with ⟨rest', tail, heq, hafter'⟩ | h
      · obtain rfl : rest = rest' := by simpa using heq
        rw [hafter] at hafter'
        cases hafter'
      · exact Nat.succ_lt_succ (ih h)
  | case5 c d rest hother ih =>
      rw [remove_other hother]
      rcases occurs_cons.1 h with ⟨rest', tail, heq, -⟩ | h
      · simp only [List.cons.injEq] at heq
        exact absurd ⟨heq.1, heq.2.1⟩ hother
      · exact Nat.succ_lt_succ (ih h)

theorem remove_of_not_occurs {s : Text} (h : ¬Occurs s) : remove s = s := by
  induction s using remove.induct with
  | case1 => simp only [remove]
  | case2 c => simp only [remove]
  | case3 c d rest hstart tail hafter ih =>
      obtain ⟨rfl, rfl⟩ := hstart
      exact absurd (occurs_cons.2 (.inl ⟨rest, tail, rfl, hafter⟩)) h
  | case4 c d rest hstart hafter ih =>
      obtain ⟨rfl, rfl⟩ := hstart
      rw [remove_unfinished hafter, ih fun hrest => h (occurs_cons.2 (.inr hrest))]
  | case5 c d rest hother ih =>
      rw [remove_other hother, ih fun hrest => h (occurs_cons.2 (.inr hrest))]

theorem remove_eq_self_iff {s : Text} : remove s = s ↔ ¬Occurs s := by
  refine ⟨fun heq h => ?_, remove_of_not_occurs⟩
  have hlt := length_remove_lt h
  rw [heq] at hlt
  exact Nat.lt_irrefl _ hlt

/-- Wherever the painted text stands, the plain one is what remains of it. -/
def Leaves (painted plain : Text) : Prop := ∀ rest, remove (painted ++ rest) = plain ++ remove rest

theorem leaves_nil : Leaves [] [] := fun _ => rfl

theorem Leaves.append {painted plain painted' plain' : Text} (h : Leaves painted plain)
    (h' : Leaves painted' plain') : Leaves (painted ++ painted') (plain ++ plain') := by
  intro rest
  rw [List.append_assoc, h, h', List.append_assoc]

theorem Leaves.remove_eq {painted plain : Text} (h : Leaves painted plain) :
    remove painted = plain := by
  have hrest := h []
  rwa [remove_nil, List.append_nil, List.append_nil] at hrest

theorem leaves_self {s : Text} (h : escapeChar ∉ s) : Leaves s s := by
  intro rest
  induction s with
  | nil => rfl
  | cons c s ih =>
      obtain ⟨hc, hs⟩ := not_or.1 (mt List.mem_cons.2 h)
      rw [List.cons_append, remove_cons_of_ne (Ne.symm hc), ih hs, List.cons_append]

theorem leaves_flatMap {α : Type} {l : List α} {f g : α → Text} (h : ∀ a ∈ l, Leaves (f a) (g a)) :
    Leaves (l.flatMap f) (l.flatMap g) := by
  induction l with
  | nil => exact leaves_nil
  | cons a l ih =>
      obtain ⟨ha, hl⟩ := List.forall_mem_cons.1 h
      exact ha.append (ih hl)

theorem leaves_joinWith {α : Type} {separator : Text} (hseparator : escapeChar ∉ separator)
    {l : List α} {f g : α → Text} (h : ∀ a ∈ l, Leaves (f a) (g a)) :
    Leaves (Text.joinWith separator (l.map f)) (Text.joinWith separator (l.map g)) := by
  induction l with
  | nil => exact leaves_nil
  | cons a l ih =>
      obtain ⟨ha, hl⟩ := List.forall_mem_cons.1 h
      cases l with
      | nil =>
          rw [List.map_singleton, List.map_singleton, Text.joinWith, Text.joinWith,
            List.intercalate_singleton, List.intercalate_singleton]
          exact ha
      | cons b l =>
          simp only [Text.joinWith, List.map_cons, List.intercalate_cons_cons]
          exact (ha.append (leaves_self hseparator)).append (ih hl)

theorem isParameter_of_mem_codes {codes : List Nat} {c : Char}
    (h : c ∈ Text.joinWith [';'] (codes.map fun n => (toString n).toList)) :
    isParameter c = true := by
  rcases Text.mem_of_mem_joinWith h with hsemi | ⟨text, htext, hc⟩
  · rw [List.mem_singleton.1 hsemi]
    rfl
  · obtain ⟨n, -, rfl⟩ := List.mem_map.1 htext
    have hdigit := isDigit_of_mem_toString hc
    simp only [Char.isDigit, Bool.and_eq_true, decide_eq_true_eq] at hdigit
    simp only [isParameter, Bool.or_eq_true, Bool.and_eq_true, decide_eq_true_eq]
    exact .inr hdigit

/-- Nothing remains of a sequence that sets attributes. -/
theorem leaves_escape (codes : List Nat) : Leaves (Style.escape codes) [] := by
  intro rest
  have hparams : ∀ c ∈ Text.joinWith [';'] (codes.map fun n => (toString n).toList),
      isParameter c = true := fun c => isParameter_of_mem_codes
  have hafter := after?_append hparams (show isFinal 'm' = true from rfl) rest
  rw [Style.escape, List.append_assoc, List.cons_append, List.cons_append]
  exact remove_sequence hafter

end Escape

namespace Style

open Escape

theorem leaves_start (style : Style) : Leaves style.start [] := by
  rw [start]
  split
  · exact leaves_nil
  · exact leaves_escape _

theorem leaves_paint (style : Style) {text : Text} (h : escapeChar ∉ text) :
    Leaves (style.paint true text) text := by
  rw [paint]
  split
  · exact leaves_self h
  · have hpainted := ((leaves_start style).append (leaves_self h)).append (leaves_escape [0])
    rwa [List.nil_append, List.append_nil] at hpainted

end Style

section Rows

open Escape

theorem Segment.leaves_paint (seg : Segment) (h : escapeChar ∉ seg.text) :
    Leaves (seg.paint true) (seg.paint false) := by
  rw [Segment.paint, Segment.paint]
  cases seg.style with
  | none => exact leaves_self h
  | some style => exact style.leaves_paint h

theorem Segment.paint_disabled (seg : Segment) : seg.paint false = seg.text := by
  rw [Segment.paint]
  cases seg.style with
  | none => rfl
  | some style => rfl

theorem Row.leaves_paint {row : Row} (h : ∀ seg ∈ row.segments, escapeChar ∉ seg.text) :
    Leaves (row.paint true) (row.paint false) :=
  leaves_flatMap fun seg hseg => seg.leaves_paint (h seg hseg)

end Rows

end Excerpt
