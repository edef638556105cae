import Excerpt.Proofs.LineEnds
import Excerpt.Proofs.Reports
import Excerpt.Source.File

/-!
Offsets into a file that is shown. A file is read with its line ends made alike, so an offset of the
file and the offset of the same place in the source differ by the carriage returns dropped in front
of it, and the source ends that much before the file does.
-/

namespace Excerpt

open LineIndex

theorem Source.read_of_read {access : FileAccess Id} {path : FilePath} {s : Text}
    (h : (access.read path.text).run = .ok (Utf8.encode s)) (name : Option Text) :
    (Source.read access path name).run =
      .ok { text := unifyLineEnds s, name := some (name.getD path.text) } := by
  simp only [Source.read, FileAccess.readText, FileAccess.readExactText, Id.run_bind, h,
    Utf8.decode_encode]
  rfl

namespace CommandLine

open Session

/-- A call that gets as far as the file that is to be shown: the arguments are in order, labels
included, and the settings are valid. -/
structure RenderCall [Platform] (access : FileAccess Id) (arguments : List Text) where
  before : List Given
  rest : List Text
  given : List Given
  others : List Text
  choices : Choices
  file : Text
  config : Config
  log : List LogEntry
  labels : List Label
  program : split programOptions false arguments = .ok (before, "render".toList :: rest)
  unanswered : answer? before = none
  command : split Command.render.options true rest = .ok (given, others)
  unhelped : given.contains .help = false
  chosen : (Choices.ofArguments access .render given others).run = .ok (choices, file)
  configured : (configuration access choices (FilePath.parse file)).run.run [] = (.ok config, log)
  labelled : choices.labels.mapM parseLabel = .ok labels

namespace RenderCall

variable {access : FileAccess Id} {arguments : List Text}

/-- What is shown of a source. -/
def described [Platform] (call : RenderCall access arguments) (source : Source) : Described where
  diagnostic := {
    title := call.choices.title.getD call.file
    source := some source
    labels := call.labels
    footnotes := call.choices.footnotes.map fun text => ({ text } : Footnote) }

/-- A session that has read its source comes to the text of what is shown of it. -/
theorem runRender_run [Platform] (call : RenderCall access arguments) (w : CellWidth)
    {source : Source} (h : (Source.read access (FilePath.parse call.file)).run = .ok source) :
    ∃ more, (runRender w access call.choices call.file).run.run [] =
      ((rendered w call.config [call.described source]).mapError stopOfDescribed >>= fun texts =>
        .ok (output call.config texts), call.log ++ more) := by
  have hread := ends_ofRead stopOfRead (Source.read access (FilePath.parse call.file))
  rw [h] at hread
  have hrest := (ends_ofExcept .usage (call.choices.labels.mapM parseLabel)).bind
    fun labels => hread.bind fun source => ends_renderAll w call.config [{ diagnostic := {
      title := call.choices.title.getD call.file
      source := some source
      labels := labels
      footnotes := call.choices.footnotes.map fun text => ({ text } : Footnote) } }]
  obtain ⟨more, hmore⟩ := hrest call.log
  rw [call.labelled] at hmore
  refine ⟨more, ?_⟩
  rw [runRender, run_bind, call.configured, call.labelled]
  exact hmore

theorem run_eq [Platform] (call : RenderCall access arguments) (w : CellWidth) {source : Source}
    (h : (Source.read access (FilePath.parse call.file)).run = .ok source) :
    ∃ log, (run w access arguments).run = .ofSession .render (call.before.count .verbose)
      ((rendered w call.config [call.described source]).mapError stopOfDescribed >>= fun texts =>
        .ok (output call.config texts), log) := by
  obtain ⟨more, hrender⟩ := call.runRender_run w h
  refine ⟨call.log ++ more, ?_⟩
  rw [run_of_command w call.program rfl call.unanswered,
    runCommand_of_chosen w _ call.command call.unhelped call.chosen, ← hrender]
  rfl

/-- What is shown of a source is one text or one error. -/
theorem rendered_eq [Platform] (call : RenderCall access arguments) (w : CellWidth)
    (source : Source) :
    rendered w call.config [call.described source] =
      (((call.described source).diagnostic.render w call.config call.config.mode).mapError
        DescribedError.render).map fun text => [text] := by
  have hrender : (call.described source).render w call.config call.config.mode =
      ((call.described source).diagnostic.render w call.config call.config.mode).mapError
        DescribedError.render := rfl
  rw [rendered, List.mapM_cons, hrender]
  cases (call.described source).diagnostic.render w call.config call.config.mode <;> rfl

/-- Labels that fit the source are shown, unless a tab stands for too many spaces. -/
theorem shows_of_fits [Platform] (call : RenderCall access arguments) (w : CellWidth)
    {source : Source} (hsource : (Source.read access (FilePath.parse call.file)).run = .ok source)
    (hfits : ∀ label ∈ call.labels, label.span.Fits source.length) :
    (run w access arguments).run.status = 0 ∨
      (run w access arguments).run.crash ≠ none ∧ Platform.maxLength < call.config.tab := by
  obtain ⟨log, hrun⟩ := call.run_eq w hsource
  rw [hrun, rendered_eq]
  obtain ⟨placed, -, hover, hok⟩ := Diagnostic.render_fits w call.config call.config.mode
    (show (call.described source).diagnostic.source = some source from rfl) hfits
  cases hfault : Layout.sizeFault? w call.config source placed with
  | none =>
      obtain ⟨text, htext⟩ := hok hfault
      rw [htext]
      exact .inl rfl
  | some e =>
      have herror := hover e hfault
      rw [herror]
      exact .inr ⟨Option.some_ne_none _, Diagnostic.maxLength_lt_of_oversized herror⟩

/-- A label that does not fit the source is told. -/
theorem tells_of_misfit [Platform] (call : RenderCall access arguments) (w : CellWidth)
    {source : Source} (hsource : (Source.read access (FilePath.parse call.file)).run = .ok source)
    (hmisfit : ∃ label ∈ call.labels, ¬label.span.Fits source.length) :
    (run w access arguments).run.TellsError ∧ ∃ e log,
      FirstMisfit call.labels source.length e ∧
      (run w access arguments).run.err = logText (call.before.count .verbose) log ++
        errorText ("error: ".toList ++ e.message.toList ++ ['\n']) := by
  obtain ⟨log, hrun⟩ := call.run_eq w hsource
  obtain ⟨e, hfirst, herror⟩ := Diagnostic.render_misfit w call.config call.config.mode
    (show (call.described source).diagnostic.source = some source from rfl) hmisfit
  rw [hrun, rendered_eq, herror]
  exact ⟨tellsError_of_failed .render _ _ log, e, log, hfirst, rfl⟩

end RenderCall

/-- How offsets into a file and offsets into what is read of it go together. The source holds the
bytes of the file exactly when no carriage return is in it. It lacks the carriage returns in front
of line feeds: an offset moves to the front by those before it, and locates what it did in the file
if each carriage return before it has its line feed before it too. Labels are shown if they fit what
is left of the file, and the first that does not is told. -/
theorem file_offsets_shift [Platform] (w : CellWidth) (access : FileAccess Id) (path : FilePath)
    (name : Option Text) {s : Text} (hread : (access.read path.text).run = .ok (Utf8.encode s)) :
    ∃ source, (Source.read access path name).run = .ok source ∧
      (source.data = Utf8.encode s ↔ '\r' ∉ s) ∧
      source.length + returnPairs s = (Utf8.encode s).length ∧
      (∀ tab, ∀ offset ≤ (Utf8.encode s).length, Paired (Utf8.before offset s) →
        source.locate w tab (offset - returnPairs (Utf8.before offset s) : Nat) =
          (ofText s).locate w tab offset) ∧
      ∀ {arguments : List Text} (call : RenderCall access arguments),
        FilePath.parse call.file = path →
          ((∀ label ∈ call.labels, label.span.Fits source.length) →
            (run w access arguments).run.status = 0 ∨
              (run w access arguments).run.crash ≠ none ∧ Platform.maxLength < call.config.tab) ∧
          ((∃ label ∈ call.labels, ¬label.span.Fits source.length) →
            (run w access arguments).run.TellsError ∧ ∃ e log,
              FirstMisfit call.labels source.length e ∧
              (run w access arguments).run.err = logText (call.before.count .verbose) log ++
                errorText ("error: ".toList ++ e.message.toList ++ ['\n'])) := by
  refine ⟨_, Source.read_of_read hread name, ?_, length_encode_unifyLineEnds s,
    fun tab offset hle hpaired => locate_unifyLineEnds w tab hle hpaired, ?_⟩
  · rw [← unifyLineEnds_eq_self_iff]
    exact ⟨fun h => Utf8.encode_injective h, fun h => congrArg Utf8.encode h⟩
  · rintro arguments call rfl
    -- The program reads the file under its own name, which has no part in the length.
    have hshows := call.shows_of_fits w (Source.read_of_read hread none)
    have htells := call.tells_of_misfit w (Source.read_of_read hread none)
    exact ⟨hshows, htells⟩

/-- Two lines, with a carriage return and a line feed between them. -/
def returned : Text := ['a', '\r', '\n', 'b']

def labelArguments (label : String) : List Text :=
  ["render".toList, "r.json".toList, "-l".toList, label.toList]

/-- The outcome of showing the two lines with one label. -/
def returnedOutcome [Platform] (label : String) : Outcome :=
  (run (fun _ => 1) (holdingAccess returned) (labelArguments label)).run

/-- A label under the second line, where that stands in the source. -/
def returnedCall [Platform] : RenderCall (holdingAccess returned) (labelArguments "2:3") where
  before := []
  rest := ["r.json".toList, "-l".toList, "2:3".toList]
  given := [.label "2:3".toList]
  others := ["r.json".toList]
  choices := { labels := ["2:3".toList] }
  file := "r.json".toList
  config := .default
  log := []
  labels := [{ span := ⟨2, 3⟩, text := none }]
  program := by decide +kernel
  unanswered := answer?_nil
  command := by decide +kernel
  unhelped := rfl
  chosen := rfl
  configured := rfl
  labelled := by decide +kernel

section

attribute [local instance] Platform.usual

theorem file_offsets_shift_returned : ∃ source,
    (Source.read (holdingAccess returned) (FilePath.parse "r.json".toList)).run = .ok source ∧
      source.length + 1 = (Utf8.encode returned).length ∧
      source.locate (fun _ => 1) 4 2 = (ofText returned).locate (fun _ => 1) 4 3 ∧
      (returnedOutcome "2:3").status = 0 := by
  obtain ⟨source, hsource, -, hlength, hlocate, hcall⟩ :=
    file_offsets_shift (fun _ => 1) (holdingAccess returned) (FilePath.parse "r.json".toList) none
      (s := returned) rfl
  refine ⟨source, hsource, hlength, hlocate 4 3 (by decide) ⟨by decide, trivial⟩, ?_⟩
  have hfits : ∀ label ∈ returnedCall.labels, label.span.Fits source.length := by
    have hthree : source.length = 3 := Nat.add_right_cancel hlength
    rw [hthree]
    decide
  refine ((hcall returnedCall rfl).1 hfits).resolve_right fun hcrash => hcrash.1 ?_
  exact Option.isNone_iff_eq_none.1 (by decide +kernel)

/-- An offset of a file need not be one of its source. -/
theorem returned_not_addressed :
    ((holdingAccess returned).read "r.json".toList).run = .ok (Utf8.encode returned) ∧
    (∀ source, (Source.read (holdingAccess returned) (FilePath.parse "r.json".toList)).run =
      .ok source → source.data ≠ Utf8.encode returned) ∧
    (⟨3, 4⟩ : Span).Fits (Utf8.encode returned).length ∧
    (returnedOutcome "3:4").status = 1 := by
  refine ⟨rfl, fun source hsource => ?_, by decide, by decide +kernel⟩
  cases hsource
  decide

end

end CommandLine
end Excerpt
