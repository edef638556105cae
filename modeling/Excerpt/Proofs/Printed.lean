import Excerpt.Proofs.Recoloring

/-!
What printing writes. A diagnostic is rendered before anything is written, so a rendering that fails
fails the printing before the stream is touched. What is written is the rendered text, and with
colors disabled what remains of it without its escape sequences: all of it, unless a sequence of
somebody else's stands in a given text.
-/

namespace Excerpt

open Style (escapeChar)

namespace Rendering

variable {w : CellWidth} {config : Config} {diagnostic : Diagnostic}

/-- With colors disabled the only sequences in a text are given ones. -/
theorem Unescaped.remove_render [Platform] (h : Unescaped config diagnostic)
    (hcolor : config.colorEnabled = false) {mode : Mode} {text : Text}
    (htext : diagnostic.render w config mode = .ok text) : Escape.remove text = text := by
  cases hall : rows w config mode diagnostic with
  | error e =>
      rw [Diagnostic.render, hall] at htext
      cases htext
  | ok all =>
      rw [Diagnostic.render, hall] at htext
      cases htext
      have hleaves : Escape.Leaves (assemble w config all) (assemble w config all) := by
        refine (Escape.leaves_joinWith (by decide) fun row hrow => ?_).append
          (Escape.leaves_self (by decide))
        rw [hcolor]
        refine Escape.leaves_flatMap fun seg hseg => Escape.leaves_self ?_
        rw [seg.paint_disabled]
        exact h.not_mem_fitted hall row hrow seg hseg
      exact hleaves.remove_eq

end Rendering

theorem writtenForm_eq_self_iff {enabled : Bool} {text : Text} :
    writtenForm enabled text = text ↔ enabled = true ∨ ¬Escape.Occurs text := by
  cases enabled with
  | true => exact iff_of_true rfl (.inl rfl)
  | false =>
      rw [show writtenForm false text = Escape.remove text from rfl, Escape.remove_eq_self_iff]
      simp only [Bool.false_eq_true, false_or]

namespace Diagnostic

variable {w : CellWidth} {config : Config} {mode : Mode} {diagnostic : Diagnostic}

/-- A failed rendering is told before the stream is asked for anything. -/
theorem print_of_render_error [Platform] {e : RenderError}
    (h : diagnostic.render w config mode = .error e) (stream : TextStream) :
    diagnostic.print w config mode stream = .error (.render e) := by
  rw [print, h]
  rfl

theorem print_of_render_ok [Platform] {text : Text} (h : diagnostic.render w config mode = .ok text)
    {stream : TextStream} (haccepts : stream.refusal = none) :
    diagnostic.print w config mode stream =
      .ok { stream with written := stream.written ++ writtenForm config.colorEnabled text } := by
  rw [print, h, ok_mapError, ok_bind, TextStream.write, haccepts]
  rfl

/-- What printing does, in either mode. When there is no text its error is that of the rendering,
even on a stream that refuses everything. A text is written as it is when colors are enabled or no
complete escape sequence stands in it, and else without its sequences. So it is written as it is
whenever no given text brings an escape character. -/
theorem printed_text [Platform] (w : CellWidth) (config : Config) (mode : Mode)
    (diagnostic : Diagnostic) :
    (∀ e, diagnostic.render w config mode = .error e →
      ∀ stream, diagnostic.print w config mode stream = .error (.render e)) ∧
    (∀ text, diagnostic.render w config mode = .ok text →
      ∀ stream : TextStream, stream.refusal = none → ∃ written,
        diagnostic.print w config mode stream =
          .ok { stream with written := stream.written ++ written } ∧
        (written = text ↔ config.colorEnabled = true ∨ ¬Escape.Occurs text) ∧
        (config.colorEnabled = false → written = Escape.remove text) ∧
        (Rendering.Unescaped config diagnostic → written = text)) ∧
    ∀ stream, diagnostic.emit w config stream = diagnostic.print w config
      (if config.compactByDefault then .compact else .expanded) stream := by
  refine ⟨fun e he => print_of_render_error he, fun text htext stream haccepts => ?_,
    fun stream => rfl⟩
  refine ⟨_, print_of_render_ok htext haccepts, writtenForm_eq_self_iff, fun hcolor => ?_,
    fun hunescaped => ?_⟩
  · rw [hcolor]
    rfl
  · cases hcolor : config.colorEnabled with
    | true => rfl
    | false => exact hunescaped.remove_render hcolor htext

/-- A line taken from a terminal, with the sequences that colored a word of it, and a label under
that word. -/
def captured : Diagnostic where
  title := ['t']
  source := some ⟨escapeChar :: "[31mred".toList ++ escapeChar :: "[0m = 1".toList, none, none⟩
  labels := [⟨⟨5, 8⟩, none, none⟩]

section

attribute [local instance] Platform.usual

theorem printed_text_captured :
    ({ captured with source := none }).print (fun _ => 1) .default .compact {} =
        .error (.render .noSource) ∧
      ∃ text, captured.render (fun _ => 1) .default .compact = .ok text ∧
        captured.print (fun _ => 1) .default .compact {} = .ok { written := text } := by
  obtain ⟨text, htext⟩ : ∃ text, captured.render (fun _ => 1) .default .compact = .ok text :=
    ⟨_, rfl⟩
  obtain ⟨hfails, -⟩ :=
    printed_text (fun _ => 1) .default .compact { captured with source := none }
  obtain ⟨-, hwrites, -⟩ := printed_text (fun _ => 1) .default .compact captured
  obtain ⟨written, hprint, hsame, -⟩ := hwrites text htext {} rfl
  have hwritten : written = text := hsame.2 (.inl rfl)
  subst hwritten
  exact ⟨hfails .noSource rfl {}, written, htext, hprint⟩

/-- With colors disabled a printed text need not be the rendered one. -/
theorem captured_text_not_printed : ∃ text written,
    captured.render (fun _ => 1) (Config.default.recolored false) .expanded = .ok text ∧
      captured.print (fun _ => 1) (Config.default.recolored false) .expanded {} =
        .ok { written := written } ∧
      written ≠ text := by
  have hremoved : ((captured.render (fun _ => 1) (Config.default.recolored false)
      .expanded).toOption.map fun text => decide (Escape.remove text = text)) = some false := by
    decide +kernel
  cases htext : captured.render (fun _ => 1) (Config.default.recolored false) .expanded with
  | error e =>
      rw [htext] at hremoved
      cases hremoved
  | ok text =>
      rw [htext] at hremoved
      exact ⟨text, Escape.remove text, rfl, print_of_render_ok htext rfl,
        of_decide_eq_false (Option.some.inj hremoved)⟩

end

end Diagnostic
end Excerpt
