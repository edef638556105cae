import Excerpt.Json
import Mathlib.Tactic.SplitIfs

/-!
How deep a document can be. Reading one only ever goes forward, and each value that holds others
takes a bracket of its own, so a document that is too deep to be read has more opening brackets
than the depth that is allowed.
-/

namespace Excerpt.Json

/-- The number of opening brackets and braces. -/
def openings (s : Text) : Nat := s.countP fun c => c == '[' || c == '{'

theorem openings_le_of_suffix {s t : Text} (h : s <:+ t) : openings s ≤ openings t :=
  h.sublist.countP_le

theorem openings_cons {c : Char} (h : c = '[' ∨ c = '{') (s : Text) :
    openings (c :: s) = openings s + 1 := by
  refine List.countP_cons_of_pos ?_
  rcases h with rfl | rfl <;> rfl

/-- Reading at a text goes forward, and it finds no room only behind that many brackets. -/
structure Bounded {α : Type} (room : Nat) (s : Text) (result : Except Fault (α × Cursor)) :
    Prop where
  forward : ∀ a next, result = .ok (a, next) → next.rest <:+ s
  enclosed : ∀ container, result = .error (.tooDeep container) → room < openings s

variable {α β : Type} {room : Nat} {s t : Text}

theorem bounded_ok {a : α} {next : Cursor} (h : next.rest <:+ s) :
    Bounded room s (.ok (a, next)) where
  forward _ _ heq := by
    cases heq
    exact h
  enclosed _ heq := nomatch heq

theorem bounded_error {fault : Fault} (h : ∀ container, fault ≠ .tooDeep container) :
    Bounded room s (.error fault : Result α) where
  forward _ _ heq := nomatch heq
  enclosed container heq := absurd (Except.error.inj heq) (h container)

theorem bounded_fail (problem : Problem) (pos : Nat) :
    Bounded room s (fail problem pos : Result α) :=
  bounded_error fun _ => nofun

theorem Bounded.weaken {result : Result α} (h : Bounded room t result) (hsuffix : t <:+ s) :
    Bounded room s result where
  forward a next heq := (h.forward a next heq).trans hsuffix
  enclosed container heq :=
    Nat.lt_of_lt_of_le (h.enclosed container heq) (openings_le_of_suffix hsuffix)

theorem Bounded.of_error {fault : Fault} (h : Bounded room s (.error fault : Result α)) :
    Bounded room s (.error fault : Result β) where
  forward _ _ heq := nomatch heq
  enclosed container heq := h.enclosed container (congrArg _ (Except.error.inj heq))

theorem Bounded.bind {result : Except Fault (α × Cursor)}
    {f : α × Cursor → Except Fault (β × Cursor)} (h : Bounded room s result)
    (hf : ∀ a next, Bounded room next.rest (f (a, next))) : Bounded room s (result >>= f) := by
  cases result with
  | error fault => exact h.of_error
  | ok pair => exact (hf pair.1 pair.2).weaken (h.forward pair.1 pair.2 rfl)

/-- What is made of a value that is read further on. -/
theorem Bounded.map {result : Result α} {f : α × Cursor → β × Cursor} (h : Bounded room t result)
    (hsuffix : t <:+ s) (hf : ∀ pair, (f pair).2 = pair.2) : Bounded room s (result.map f) := by
  cases result with
  | error fault => exact (h.weaken hsuffix).of_error
  | ok pair =>
      have hnext : (f pair).2.rest <:+ s := by
        rw [hf]
        exact (h.forward pair.1 pair.2 rfl).trans hsuffix
      exact bounded_ok hnext

theorem Bounded.ite {p : Prop} [Decidable p] {result other : Result α}
    (h : Bounded room s result) (h' : Bounded room s other) :
    Bounded room s (if p then result else other) := by
  split
  · exact h
  · exact h'

theorem skip_suffix (n : Nat) (c : Cursor) : (c.skip n).rest <:+ c.rest := List.drop_suffix n c.rest

theorem skipSpace_suffix (c : Cursor) : (skipSpace c).rest <:+ c.rest := skip_suffix _ c

/-! ### Strings -/

theorem fourHex?_suffix {n : Nat} {rest : Text} (h : fourHex? s = some (n, rest)) : rest <:+ s := by
  unfold fourHex? at h
  split at h
  next a b c d rest' =>
    simp only [Option.bind_eq_bind, Option.bind_eq_some_iff, Option.pure_def, Option.some.injEq,
      Prod.mk.injEq] at h
    obtain ⟨_, -, _, -, _, -, _, -, -, rfl⟩ := h
    exact ⟨[a, b, c, d], rfl⟩
  · cases h

theorem lowHalf?_suffix {n : Nat} {rest : Text} (h : lowHalf? s = some (n, rest)) : rest <:+ s := by
  unfold lowHalf? at h
  split at h
  next rest' =>
    simp only [Option.bind_eq_bind, Option.bind_eq_some_iff] at h
    obtain ⟨⟨n', rest''⟩, hfour, h⟩ := h
    split at h
    · cases h
      exact (fourHex?_suffix hfour).trans ⟨['\\', 'u'], rfl⟩
    · cases h
  · cases h

theorem bounded_string [Halves] (start fuel pos : Nat) (s : Text) :
    Bounded room s (string start fuel pos s) := by
  induction fuel generalizing pos s with
  | zero => exact bounded_fail _ _
  | succ fuel ih =>
      cases s with
      | nil => exact bounded_fail _ _
      | cons c rest =>
          have hrest : rest <:+ c :: rest := List.suffix_cons c rest
          rw [string.eq_def]
          dsimp only
          split_ifs with hquote hescape
          · exact bounded_ok hrest
          · split
            · exact bounded_fail _ _
            next digits =>
              split_ifs
              · exact bounded_fail _ _
              split
              · exact bounded_fail _ _
              next n after hfour =>
                have hafter := ((fourHex?_suffix hfour).trans (List.suffix_cons _ _)).trans hrest
                split
                next low behind hlow =>
                  split_ifs at hlow
                  exact (ih _ behind).map ((lowHalf?_suffix hlow).trans hafter) fun _ => rfl
                · exact (ih _ after).map hafter fun _ => rfl
            next e behind _ =>
              split
              · exact bounded_fail _ _
              · exact (ih _ behind).map ((List.suffix_cons _ _).trans hrest) fun _ => rfl
          · exact bounded_fail _ _
          · exact (ih _ rest).map hrest fun _ => rfl

theorem bounded_readString [Halves] (room : Nat) (c : Cursor) :
    Bounded room c.rest (readString c) :=
  (bounded_string _ _ _ _).weaken (List.drop_suffix 1 c.rest)

/-! ### Values -/

theorem bounded_number (room : Nat) (c : Cursor) : Bounded room c.rest (number c) := by
  rw [number]
  apply Bounded.ite (bounded_fail _ _)
  apply Bounded.ite
  · apply Bounded.ite
    · exact bounded_error fun _ => nofun
    · exact bounded_ok (skip_suffix _ c)
  · exact bounded_ok (skip_suffix _ c)

theorem constant?_suffix {c next : Cursor} {v : Value} (h : constant? c = some (v, next)) :
    next.rest <:+ c.rest := by
  obtain ⟨⟨word, v'⟩, -, hword⟩ := List.exists_of_findSome?_eq_some h
  obtain ⟨next', hliteral, heq⟩ := Option.map_eq_some_iff.1 hword
  cases heq
  rw [Cursor.literal?] at hliteral
  split_ifs at hliteral
  cases hliteral
  exact skip_suffix _ c

/-- A value that holds others takes its opening bracket, and leaves room for one value less to what
it holds. -/
theorem bounded_container {d : Char} (hd : d = '[' ∨ d = '{') {c : Cursor} {rest : Text}
    (hrest : c.rest = d :: rest) (container : Container) {close : Char} {empty : Value}
    {filled : Result Value} (h : Bounded (room - 1) (skipSpace (c.skip 1)).rest filled) :
    Bounded room c.rest (if room = 0 then .error (.tooDeep container)
      else if (skipSpace (c.skip 1)).peek? = some close then
        .ok (empty, (skipSpace (c.skip 1)).skip 1)
      else filled) := by
  have hinside : (skipSpace (c.skip 1)).rest <:+ rest := by
    refine (skipSpace_suffix _).trans ?_
    rw [Cursor.skip, hrest]
    exact List.suffix_rfl
  have hsuffix := hinside.trans (List.suffix_cons d rest)
  have hopenings := openings_cons hd rest
  rw [hrest]
  split
  next hroom =>
    refine ⟨fun _ _ => nofun, fun _ _ => ?_⟩
    omega
  next hroom =>
    apply Bounded.ite
    · exact bounded_ok ((skip_suffix 1 _).trans hsuffix)
    · refine ⟨fun a next heq => (h.forward a next heq).trans hsuffix, fun inner heq => ?_⟩
      have henclosed := (h.weaken hinside).enclosed inner heq
      omega

/-- Values, the items of a list and the entries of a table, by the fuel that they share. -/
theorem bounded_values [Halves] (fuel : Nat) : ∀ room c, Bounded room c.rest (value room fuel c) ∧
    Bounded room c.rest (items room fuel c) ∧ Bounded room c.rest (entries room fuel c) := by
  induction fuel with
  | zero => exact fun room c => ⟨bounded_fail _ _, bounded_fail _ _, bounded_fail _ _⟩
  | succ fuel ih =>
      intro room c
      refine ⟨?_, ?_, ?_⟩
      · rw [value]
        split
        · exact (bounded_readString room c).map List.suffix_rfl fun _ => rfl
        next rest hrest =>
          exact bounded_container (.inr rfl) hrest .table
            ((ih _ _).2.2.map List.suffix_rfl fun _ => rfl)
        next rest hrest =>
          exact bounded_container (.inl rfl) hrest .list
            ((ih _ _).2.1.map List.suffix_rfl fun _ => rfl)
        · split
          next found hfound => exact bounded_ok (constant?_suffix hfound)
          · exact bounded_number room c
      · rw [items]
        refine (ih room c).1.bind fun v next => ?_
        have hnext := skipSpace_suffix next
        have hbehind := (skip_suffix 1 _).trans hnext
        dsimp only
        split
        · exact bounded_ok hbehind
        · exact (ih room _).2.1.map ((skipSpace_suffix _).trans hbehind) fun _ => rfl
        · exact bounded_fail _ _
      · rw [entries]
        apply Bounded.ite (bounded_fail _ _)
        refine (bounded_readString room c).bind fun key colon => ?_
        have hcolon := (skip_suffix 1 _).trans (skipSpace_suffix colon)
        apply Bounded.ite (bounded_fail _ _)
        refine Bounded.weaken (.bind (ih room _).1 fun v next => ?_)
          ((skipSpace_suffix _).trans hcolon)
        have hnext := skipSpace_suffix next
        have hbehind := (skip_suffix 1 _).trans hnext
        dsimp only
        split
        · exact bounded_ok hbehind
        · exact (ih room _).2.2.map ((skipSpace_suffix _).trans hbehind) fun _ => rfl
        · exact bounded_fail _ _

/-- A document that is too deep to be read has more opening brackets than the depth allowed. -/
theorem jsonDepth_lt_openings [Platform] {container : Container}
    (h : parse s = .error (.tooDeep container)) : Platform.jsonDepth < openings s := by
  have hdocument : document s = .error (.tooDeep container) := by
    rw [parse] at h
    split at h <;> cases h
    assumption
  rw [document] at hdocument
  split at hdocument
  · cases hdocument
  · have hread := bounded_values (2 * s.length + 2) Platform.jsonDepth (skipSpace (.ofText s))
    have hvalue := hread.1.weaken (skipSpace_suffix (.ofText s))
    refine hvalue.enclosed container ?_
    cases hresult : value Platform.jsonDepth (2 * s.length + 2) (skipSpace (.ofText s)) with
    | error fault =>
        rw [hresult] at hdocument
        exact congrArg _ (Except.error.inj hdocument)
    | ok pair =>
        rw [hresult] at hdocument
        change (if _ then _ else _) = _ at hdocument
        split at hdocument <;> cases hdocument

end Excerpt.Json
