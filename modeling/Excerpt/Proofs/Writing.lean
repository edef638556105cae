import Excerpt.Description.Rendering
import Excerpt.Proofs.Recoloring
import Excerpt.Proofs.ValueTexts

/-!
What can be written down: any text in which no half of a surrogate pair stands alone; where one
does, the first is named. Renderings bring no halves of their own. Frame, glyphs, numbers, escape
sequences and the quoted forms of values have none, so a half in a rendering stands in a text that
was given.
-/

namespace Excerpt

/-! ### Texts -/

namespace Halves

variable [Halves] {s t : Text} {c : Char}

/-- No half stands in a text. -/
def Free (s : Text) : Prop := ∀ c ∈ s, isHalf c = false

theorem free_append : Free (s ++ t) ↔ Free s ∧ Free t := List.forall_mem_append

theorem free_of_public (h : Public s) : Free s := by
  intro c hc
  rw [Bool.eq_false_iff]
  exact fun hhalf => Bool.eq_false_iff.1 (h c hc) (isPrivateUse_of_isHalf hhalf)

/-- Texts that are joined hold a half exactly if one of them does. -/
theorem free_joinWith_iff {separator : Text} (hseparator : Public separator) {texts : List Text} :
    Free (Text.joinWith separator texts) ↔ ∀ text ∈ texts, Free text := by
  induction texts with
  | nil => simp [Free, Text.joinWith]
  | cons first texts ih =>
      cases texts with
      | nil => simp [Text.joinWith]
      | cons second texts =>
          rw [Text.joinWith, List.intercalate_cons_cons, free_append, free_append,
            List.forall_mem_cons, ← ih]
          exact and_congr_left' (and_iff_left (free_of_public hseparator))

theorem spelled_append : spelled (s ++ t) = spelled s ++ spelled t := List.flatMap_append

theorem spelled_of_free (h : Free s) : spelled s = s := by
  induction s with
  | nil => rfl
  | cons c s ih =>
      obtain ⟨hc, hs⟩ := List.forall_mem_cons.1 h
      rw [spelled, List.flatMap_cons, Option.not_isSome_iff_eq_none.1 (Bool.eq_false_iff.1 hc)]
      exact congrArg (c :: ·) (ih hs)

/-- The half that is named is the first of the text. -/
theorem exists_of_encodeErrorFrom? {pos : Nat} {e : EncodeError}
    (h : encodeErrorFrom? (fun _ => false) pos s = some e) :
    ∃ front c back, s = front ++ c :: back ∧ Free front ∧ number? c = some e.number ∧
      e.first = pos + front.length := by
  induction s generalizing pos with
  | nil => cases h
  | cons c s ih =>
      rw [encodeErrorFrom?] at h
      split at h
      next hnone =>
        obtain ⟨front, d, back, rfl, hfront, hd, hfirst⟩ := ih h
        have hc : isHalf c = false := by rw [isHalf, hnone]; rfl
        refine ⟨c :: front, d, back, rfl, List.forall_mem_cons.2 ⟨hc, hfront⟩, hd, ?_⟩
        rw [hfirst, List.length_cons]
        omega
      next n hn =>
        rw [if_neg Bool.false_ne_true] at h
        cases h
        exact ⟨[], c, s, rfl, fun d hd => absurd hd List.not_mem_nil, hn, rfl⟩

theorem isPrivateUse_of_number? {n : Nat} (h : number? c = some n) :
    Unicode.isPrivateUse c = true := by
  refine isPrivateUse_of_isHalf ?_
  rw [isHalf, h]
  rfl

theorem encodeErrorFrom?_eq_none_iff (pos : Nat) :
    encodeErrorFrom? (fun _ => false) pos s = none ↔ Free s := by
  induction s generalizing pos with
  | nil => exact iff_of_true rfl fun c hc => absurd hc List.not_mem_nil
  | cons c s ih =>
      rw [encodeErrorFrom?, Free, List.forall_mem_cons, isHalf]
      cases number? c with
      | none => exact (ih _).trans (and_iff_right rfl).symm
      | some n => exact iff_of_false (Option.some_ne_none _) fun h => nomatch h.1

/-- A text can be written as it is, or not at all. -/
theorem writable_eq_ok_iff : writable s = .ok t ↔ t = s ∧ Free s := by
  rw [writable, ← encodeErrorFrom?_eq_none_iff 0]
  cases encodeErrorFrom? (fun _ => false) 0 s with
  | none => simp [eq_comm]
  | some e => simp

theorem exists_of_writable_error {e : EncodeError} (h : writable s = .error e) :
    ∃ front c back, s = front ++ c :: back ∧ Free front ∧ number? c = some e.number ∧
      e.first = front.length := by
  rw [writable] at h
  split at h
  · cases h
  next e' he =>
    cases h
    simpa only [Nat.zero_add] using exists_of_encodeErrorFrom? he

end Halves

/-! ### Renderings -/

namespace Style

theorem public_escape (codes : List Nat) : Public (escape codes) := by
  have hcodes : Public (Text.joinWith [';'] (codes.map fun n => (toString n).toList)) :=
    public_joinWith (by decide) (List.forall_mem_map.2 fun n _ => public_nat n)
  exact public_append.2 ⟨public_cons.2 ⟨by decide, public_cons.2 ⟨by decide, hcodes⟩⟩, by decide⟩

theorem public_start (style : Style) : Public style.start := by
  rw [start]
  split
  · decide
  · exact public_escape _

theorem mem_of_mem_paint {style : Style} {enabled : Bool} {text : Text} {ch : Char}
    (hprivate : Unicode.isPrivateUse ch = true) (h : ch ∈ style.paint enabled text) :
    ch ∈ text := by
  rw [paint] at h
  split at h
  · exact h
  · have hfront := (List.mem_append.1 h).resolve_right ((public_escape [0]).not_mem hprivate)
    exact (List.mem_append.1 hfront).resolve_left (style.public_start.not_mem hprivate)

end Style

theorem Row.exists_of_mem_paint {row : Row} {enabled : Bool} {ch : Char}
    (hprivate : Unicode.isPrivateUse ch = true) (h : ch ∈ row.paint enabled) :
    ∃ seg ∈ row.segments, ch ∈ seg.text := by
  obtain ⟨seg, hseg, hch⟩ := List.mem_flatMap.1 h
  rw [Segment.paint] at hch
  split at hch
  · exact ⟨seg, hseg, hch⟩
  · exact ⟨seg, hseg, Style.mem_of_mem_paint hprivate hch⟩

theorem Rendering.exists_of_mem_lines {texts : List Text} {ch : Char}
    (hprivate : Unicode.isPrivateUse ch = true) (h : ch ∈ lines texts) :
    ∃ text ∈ texts, ch ∈ text := by
  have hbreak : ch ∉ ['\n'] := Public.not_mem (by decide) hprivate
  have hjoined := (List.mem_append.1 h).resolve_right hbreak
  exact (Text.mem_of_mem_joinWith hjoined).resolve_left hbreak

/-- What is drawn around the given texts has no character for private use. -/
theorem Rendering.not_framing {config : Config} {ch : Char}
    (hglyphs : ∀ glyph ∈ config.charset.glyphs, Public glyph)
    (hprivate : Unicode.isPrivateUse ch = true) : ¬Framing config ch := by
  rintro (hframe | hdigit | ⟨glyph, hglyph, hmem⟩)
  · have hpublic : Public " ,@[lines-]:".toList := by decide
    exact hpublic.not_mem hprivate (List.contains_iff_mem.1 hframe)
  · have hpublic : Public [ch] := public_digits (List.forall_mem_singleton.2 hdigit)
    exact hpublic.not_mem hprivate List.mem_cons_self
  · exact (hglyphs glyph hglyph).not_mem hprivate hmem

namespace Described

/-- A character of a text that is given for a description, among them the items of a source name
that is no text. -/
inductive Given (d : Described) (ch : Char) : Prop
  | text (h : d.diagnostic.Given ch) : Given d ch
  | item {name : Value} {stand : Text} (hname : d.obstacle? = some name)
      (hstand : measuredAs name = .ok stand) (h : ch ∈ stand) : Given d ch

theorem mem_withText {row : Row} {position : Nat} {text : Text} {seg : Segment}
    (h : seg ∈ (withText row position text).segments) : seg.text = text ∨ seg ∈ row.segments := by
  obtain ⟨i, hi⟩ := List.mem_iff_getElem?.1 h
  rw [withText, List.getElem?_modify] at hi
  obtain ⟨seg', hseg', rfl⟩ := Option.map_eq_some_iff.1 hi
  split
  · exact .inl rfl
  · exact .inr (List.mem_of_getElem? hseg')

theorem public_typeName (v : Value) : Public v.typeName.toList := by
  cases v <;> (rw [Value.typeName]; decide)

variable {w : CellWidth} {config : Config} {ch : Char}

theorem exists_of_mem_paintNamed [Platform] {position : Nat} {name : Value}
    {visible : Option Value} {fitted : Row} {text : Text}
    (hprivate : Unicode.isPrivateUse ch = true)
    (h : paintNamed config position name visible fitted = .ok text) (hch : ch ∈ text) :
    ∃ seg ∈ fitted.segments, ch ∈ seg.text := by
  cases visible with
  | none =>
      cases h
      exact Row.exists_of_mem_paint hprivate hch
  | some shown =>
      rw [paintNamed] at h
      split at h
      · obtain ⟨form, hform, h⟩ := bind_eq_ok h
        cases h
        have hpublic := Value.public_of_form? (ok_of_mapError_ok hform)
        obtain ⟨seg, hseg, hmem⟩ := Row.exists_of_mem_paint hprivate hch
        rcases mem_withText hseg with htext | hseg
        · exact absurd (htext ▸ hmem) (hpublic.not_mem hprivate)
        · exact ⟨seg, hseg, hmem⟩
      · cases h

/-- What a header shows for a name that is no text is public, or is measured for it. -/
theorem exists_of_mem_paintHeader [Platform] {position : Nat} {name : Value} {row : Row}
    {text : Text} (hellipsis : Public config.charset.ellipsis)
    (hprivate : Unicode.isPrivateUse ch = true)
    (h : paintHeader w config position name row = .ok text) (hch : ch ∈ text) :
    (∃ seg ∈ row.segments, ch ∈ seg.text) ∨ ∃ stand, measuredAs name = .ok stand ∧ ch ∈ stand := by
  rw [paintHeader] at h
  cases hlimit : config.limit with
  | none =>
      rw [hlimit] at h
      exact .inl (exists_of_mem_paintNamed hprivate h hch)
  | some limit =>
      rw [hlimit] at h
      obtain ⟨stand, hstand, h⟩ := bind_eq_ok h
      obtain ⟨visible, -, h⟩ := bind_eq_ok h
      obtain ⟨seg, hseg, hmem⟩ := exists_of_mem_paintNamed hprivate h hch
      have hmade : Segment.MadeOf (fun c => Unicode.isPrivateUse c = true →
          (∃ seg ∈ row.segments, c ∈ seg.text) ∨ c ∈ stand)
          (Rendering.fitted w config (withText row position stand)).segments := by
        refine Rendering.madeOf_fitted (fun c hc hprivate => ?_) fun seg hseg c hc _ => ?_
        · exact absurd hc (hellipsis.not_mem hprivate)
        · rcases mem_withText hseg with htext | hseg
          · exact .inr (htext ▸ hc)
          · exact .inl ⟨seg, hseg, hc⟩
      rw [Rendering.fitted, hlimit] at hmade
      exact (hmade seg hseg ch hmem hprivate).imp_right fun hch => ⟨stand, hstand, hch⟩

theorem given_of_called {d : Described} {name : Text} (hname : ch ∉ name)
    (h : (d.called name).Given ch) : d.diagnostic.Given ch := by
  cases h with
  | title h => exact .title h
  | name hsource hgiven h =>
      obtain ⟨source, -, rfl⟩ := Option.map_eq_some_iff.1 hsource
      cases hgiven
      exact absurd h hname
  | source hsource h =>
      obtain ⟨source, hgiven, rfl⟩ := Option.map_eq_some_iff.1 hsource
      exact .source hgiven h
  | label hlabel h => exact .label hlabel h
  | footnote hfootnote h => exact .footnote hfootnote h

/-- A character for private use that a rendering shows was given. -/
theorem given_of_render [Platform] {mode : Mode} {d : Described} {text : Text}
    (hglyphs : ∀ glyph ∈ config.charset.glyphs, Public glyph)
    (hprivate : Unicode.isPrivateUse ch = true) (h : d.render w config mode = .ok text)
    (hch : ch ∈ text) : d.Given ch := by
  have hunknown : ch ∉ "unknown".toList := Public.not_mem (by decide) hprivate
  have hframing := Rendering.not_framing hglyphs hprivate
  rw [render] at h
  split at h
  · obtain ⟨all, hall, rfl⟩ := map_eq_ok (ok_of_mapError_ok h)
    obtain ⟨line, hline, hmem⟩ := Rendering.exists_of_mem_lines hprivate hch
    obtain ⟨row, hrow, rfl⟩ := List.mem_map.1 hline
    obtain ⟨seg, hseg, hmem⟩ := Row.exists_of_mem_paint hprivate hmem
    exact .text (Rendering.given_of_mem_fitted hframing hunknown hall hrow hseg hmem)
  next name hname =>
    obtain ⟨all, hall, h⟩ := bind_eq_ok h
    obtain ⟨texts, htexts, h⟩ := bind_eq_ok h
    cases h
    replace hall := ok_of_mapError_ok hall
    have htype := (public_typeName name).not_mem hprivate
    obtain ⟨line, hline, hmem⟩ := Rendering.exists_of_mem_lines hprivate hch
    obtain ⟨row, hrow, hpainted⟩ := exists_of_mem_mapM htexts hline
    split at hpainted
    · have hellipsis : config.charset.ellipsis ∈ config.charset.glyphs := by
        simp [Charset.glyphs]
      rcases exists_of_mem_paintHeader (hglyphs _ hellipsis) hprivate hpainted hmem with
        ⟨seg, hseg, hmem⟩ | ⟨stand, hstand, hmem⟩
      · have hgiven := Rendering.given_of_mem_rows hframing hunknown hall hrow hseg hmem
        exact .text (given_of_called htype hgiven)
      · exact .item hname hstand hmem
    · cases hpainted
      obtain ⟨seg, hseg, hmem⟩ := Row.exists_of_mem_paint hprivate hmem
      have hgiven := Rendering.given_of_mem_fitted hframing hunknown hall hrow hseg hmem
      exact .text (given_of_called htype hgiven)

end Described
end Excerpt
