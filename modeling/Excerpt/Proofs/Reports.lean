import Excerpt.File.Tree
import Excerpt.Proofs.Described
import Excerpt.Proofs.Escapes
import Excerpt.Proofs.Invocations
import Excerpt.Proofs.Nesting
import Excerpt.Proofs.Tables
import Excerpt.Proofs.Utf8
import Excerpt.Proofs.Writing

/-!
How a report ends. A document is shown, or what is wrong with it is told in one line, or the program
crashes. It crashes for few causes only: a document nested too deep to be read, a bound without
limit, a value too deep for its text, a source name that is no text, tab stops too far apart for a
text, and half of a surrogate pair, which cannot be written.
-/

namespace Excerpt.CommandLine

variable {α β ε : Type}

/-! ### How sessions end -/

namespace Session

/-- Whatever was logged before, the session ends with this result and only adds to the log. -/
def Ends (s : Session Id α) (result : Except Stop α) : Prop :=
  ∀ log, ∃ more, s.run.run log = (result, log ++ more)

theorem ends_pure (a : α) : Ends (pure a) (.ok a) := fun log => ⟨[], by rw [List.append_nil]; rfl⟩

theorem ends_log (entry : LogEntry) : Ends (log entry) (.ok ()) := fun _ => ⟨[entry], rfl⟩

theorem ends_ofExcept (stop : ε → Stop) (x : Except ε α) :
    Ends (ofExcept stop x) (x.mapError stop) := by
  intro log
  refine ⟨[], ?_⟩
  rw [List.append_nil]
  cases x with
  | error e => rfl
  | ok a => rfl

theorem ends_ofRead (stop : ε → Stop) (action : Id (Except ε α)) :
    Ends (ofRead stop action) (action.run.mapError stop) :=
  ends_ofExcept stop action.run

theorem run_bind (s : Session Id α) (f : α → Session Id β) (log : List LogEntry) :
    (s >>= f).run.run log = match s.run.run log with
      | (.ok a, log) => (f a).run.run log
      | (.error e, log) => (.error e, log) := by
  rw [ExceptT.run_bind, StateT.run_bind]
  cases hs : s.run.run log with
  | mk result log' =>
      cases result with
      | ok a => rfl
      | error e => rfl

theorem Ends.bind {s : Session Id α} {result : Except Stop α} {f : α → Session Id β}
    {g : α → Except Stop β} (h : s.Ends result) (hf : ∀ a, Ends (f a) (g a)) :
    Ends (s >>= f) (result >>= g) := by
  intro log
  obtain ⟨more, hs⟩ := h log
  rw [run_bind, hs]
  cases result with
  | error e => exact ⟨more, rfl⟩
  | ok a =>
      obtain ⟨others, ha⟩ := hf a (log ++ more)
      exact ⟨more ++ others, by rw [← List.append_assoc]; exact ha⟩

theorem ends_mapM {f : α → Session Id β} {g : α → Except Stop β} (h : ∀ a, Ends (f a) (g a))
    (l : List α) : Ends (l.mapM f) (l.mapM g) := by
  induction l with
  | nil => exact ends_pure []
  | cons a l ih =>
      rw [List.mapM_cons, List.mapM_cons]
      exact (h a).bind fun b => ih.bind fun bs => ends_pure (b :: bs)

end Session

open Session

theorem mapM_mapError (stop : ε → Stop) (f : α → Except ε β) (l : List α) :
    (l.mapM fun a => (f a).mapError stop) = (l.mapM f).mapError stop := by
  induction l with
  | nil => rfl
  | cons a l ih =>
      rw [List.mapM_cons, List.mapM_cons, ih]
      cases f a with
      | error e => rfl
      | ok b => cases l.mapM f <;> rfl

/-! ### What a report comes to -/

/-- The diagnostics that a document describes, up to the first that is refused. -/
def described [Platform] (access : FileAccess Id) (directory : FilePath) (v : Value) :
    Except DescriptionError (List Described) :=
  (descriptions v).mapM fun item => (Described.ofValue access directory item).run

/-- The texts of diagnostics, up to the first that is not rendered. -/
def rendered [Platform] (w : CellWidth) (config : Config) (ds : List Described) :
    Except DescribedError (List Text) :=
  ds.mapM fun d => d.render w config config.mode

/-- What the settings of a run come to. -/
def configured [Platform] (access : FileAccess Id) (choices : Choices) (file : FilePath) :
    Except Stop Config := do
  let found ← (settingsFile? access choices file).run.mapError fun e => .crashed (.file e)
  let base ← (found.elim (.ok .default) fun path =>
    (Config.load access path).run.mapError stopOfLoad)
  (base.updated choices.changes).mapError fun e => .failed (.range e)

/-- What the text of a document comes to: the output, or why there is none. -/
def reported [Platform] (w : CellWidth) (access : FileAccess Id) (config : Config)
    (file text : Text) : Except Stop Text := do
  let v ← (Json.parse text).mapError (stopOfJson file)
  let ds ← (described access (FilePath.parse file).parent v).mapError (stopOfDescription file)
  let texts ← (rendered w config ds).mapError stopOfDescribed
  (Halves.writable (output config texts)).mapError fun e => .crashed (.writing e)

theorem ends_configuration [Platform] (access : FileAccess Id) (choices : Choices)
    (file : FilePath) :
    Ends (configuration access choices file) (configured access choices file) := by
  refine (ends_ofRead _ _).bind fun found => ?_
  cases found with
  | none => exact ends_ofExcept _ _
  | some path =>
      exact (ends_log (.settingsFound path.text)).bind fun _ =>
        (ends_ofRead _ _).bind fun base => ends_ofExcept _ _

theorem ends_renderOne [Platform] (w : CellWidth) (config : Config) (d : Described) :
    Ends (renderOne w config d) ((d.render w config config.mode).mapError stopOfDescribed) := by
  have hends : Ends (renderOne w config d)
      ((Layout.build w config d.diagnostic).mapError stopOfRender >>= fun _ =>
        .ok () >>= fun _ => (d.render w config config.mode).mapError stopOfDescribed) :=
    (ends_ofExcept _ _).bind fun layout => (ends_log _).bind fun _ => ends_ofExcept _ _
  cases hbuild : Layout.build w config d.diagnostic with
  | ok layout =>
      rw [hbuild] at hends
      exact hends
  | error e =>
      rw [hbuild] at hends
      rw [Described.render_of_build_error hbuild]
      exact hends

theorem ends_renderAll [Platform] (w : CellWidth) (config : Config) (ds : List Described) :
    Ends (renderAll w config ds)
      ((rendered w config ds).mapError stopOfDescribed >>= fun texts =>
        .ok (output config texts)) := by
  rw [rendered, ← mapM_mapError]
  exact (ends_mapM (ends_renderOne w config) ds).bind fun texts => ends_pure _

/-- Rendering and then writing ends where one of them does. -/
theorem ends_written [Platform] (w : CellWidth) (config : Config) (ds : List Described) :
    Ends (renderAll w config ds >>= fun out =>
        ofExcept (fun e => .crashed (.writing e)) (Halves.writable out))
      ((rendered w config ds).mapError stopOfDescribed >>= fun texts =>
        (Halves.writable (output config texts)).mapError fun e => .crashed (.writing e)) := by
  have hends := (ends_renderAll w config ds).bind fun out =>
    ends_ofExcept (fun e => .crashed (.writing e)) (Halves.writable out)
  rwa [bind_assoc] at hends

theorem ends_described [Platform] (access : FileAccess Id) (directory : FilePath) (file : Text)
    (v : Value) :
    Ends ((descriptions v).mapM fun item =>
        ofRead (stopOfDescription file) (Described.ofValue access directory item))
      ((described access directory v).mapError (stopOfDescription file)) := by
  rw [described, ← mapM_mapError]
  exact ends_mapM (fun item => ends_ofRead _ _) _

/-- A report with this configuration on a file with this text. -/
theorem runReport_run [Platform] (w : CellWidth) {access : FileAccess Id} {choices : Choices}
    {file : Text} {config : Config} {log : List LogEntry} {text : Text}
    (hconfig : (configuration access choices (FilePath.parse file)).run.run [] = (.ok config, log))
    (htext : (access.readText (FilePath.parse file)).run = .ok text) :
    ∃ more, (runReport w access choices file).run.run [] =
      (reported w access config file text, log ++ more) := by
  have hrest := (ends_ofRead (fun e => .failed (.report file (.unreadable e)))
      (access.readText (FilePath.parse file))).bind (g := reported w access config file)
    fun text => (ends_ofExcept (stopOfJson file) (Json.parse text)).bind fun v =>
      (ends_described access (FilePath.parse file).parent file v).bind fun ds =>
        (ends_log (.rendering ds.length file)).bind fun _ => ends_written w config ds
  obtain ⟨more, hmore⟩ := hrest log
  refine ⟨more, ?_⟩
  rw [runReport, run_bind, hconfig]
  rw [htext] at hmore
  exact hmore

/-! ### Crashes -/

theorem stopOfDescription_of_unexpected {file : Text} {e : DescriptionError} (h : e.Unexpected) :
    stopOfDescription file e = .crashed (.description e) := by
  cases e with
  | badBound e =>
      cases e with
      | infinite => rfl
      | _ => exact absurd h id
  | unshown e =>
      cases e with
      | tooDeep => rfl
      | tooManyDigits => exact absurd h id
  | _ => exact absurd h id

theorem stopOfDescription_of_expected {file : Text} {e : DescriptionError} (h : ¬e.Unexpected) :
    stopOfDescription file e = .failed (.report file (.description e)) := by
  cases e with
  | badBound e =>
      cases e with
      | infinite => exact absurd trivial h
      | _ => rfl
  | unshown e =>
      cases e with
      | tooDeep => exact absurd trivial h
      | tooManyDigits => rfl
  | _ => rfl

theorem exists_of_mem_output {config : Config} {texts : List Text} {c : Char}
    (hprivate : Unicode.isPrivateUse c = true) (h : c ∈ output config texts) :
    ∃ text ∈ texts, c ∈ text := by
  have hmem : c ∈ Text.joinWith ['\n'] texts := by
    rw [output, writtenForm] at h
    split at h
    · exact h
    · exact (Escape.remove_sublist _).subset h
  exact (Text.mem_of_mem_joinWith hmem).resolve_left (Public.not_mem (by decide) hprivate)

section Platforms

variable [Platform] (w : CellWidth) (access : FileAccess Id) (config : Config) (file text : Text)

/-- The crashes of a report on a document: it is too deep to be read; the first description that is
refused, or the first diagnostic that is not rendered, is so for an error that no one expects; or
all is rendered and cannot be written. -/
inductive Unhandled : Crash → Prop
  | depth {container : Json.Container} (h : Json.parse text = .error (.tooDeep container)) :
      Unhandled (.json (.tooDeep container))
  | description {v : Value} {e : DescriptionError} (hv : Json.parse text = .ok v)
      (h : described access (FilePath.parse file).parent v = .error e)
      (hunexpected : e.Unexpected) : Unhandled (.description e)
  | rendering {v : Value} {ds : List Described} {e : DescribedError}
      (hv : Json.parse text = .ok v)
      (hds : described access (FilePath.parse file).parent v = .ok ds)
      (h : rendered w config ds = .error e) (hunexpected : e.Unexpected) :
      Unhandled (.rendering e)
  | writing {v : Value} {ds : List Described} {texts : List Text} {e : EncodeError}
      (hv : Json.parse text = .ok v)
      (hds : described access (FilePath.parse file).parent v = .ok ds)
      (htexts : rendered w config ds = .ok texts)
      (h : Halves.writable (output config texts) = .error e) : Unhandled (.writing e)

/-- What in a document or in the settings leads to a crash. The half that cannot be written was
given for a diagnostic. -/
inductive Cause : Crash → Prop
  | depth {container : Json.Container} (h : Platform.jsonDepth < Json.openings text) :
      Cause (.json (.tooDeep container))
  | description {v item : Value} {e : DescriptionError} (hv : Json.parse text = .ok v)
      (hitem : item ∈ descriptions v) (h : Description.Causes item e) : Cause (.description e)
  | oddName {v item : Value} {e : DescribedError} (hv : Json.parse text = .ok v)
      (hitem : item ∈ descriptions v) (h : Description.OddName item) : Cause (.rendering e)
  | wideTabs {e : SizeError} (h : Platform.maxLength < config.tab) :
      Cause (.rendering (.render (.oversized e)))
  | half {v : Value} {ds : List Described} {d : Described} {c : Char} {e : EncodeError}
      (hv : Json.parse text = .ok v)
      (hds : described access (FilePath.parse file).parent v = .ok ds) (hd : d ∈ ds)
      (hhalf : Halves.number? c = some e.number) (hgiven : d.Given c) : Cause (.writing e)

variable {w access config file text}

theorem Unhandled.cause {crash : Crash} (h : Unhandled w access config file text crash)
    (hglyphs : ∀ glyph ∈ config.charset.glyphs, Public glyph) :
    Cause access config file text crash := by
  cases h with
  | depth h => exact .depth (Json.jsonDepth_lt_openings h)
  | description hv h hunexpected =>
      obtain ⟨item, hitem, hrefused⟩ := exists_of_mapM_error h
      exact .description hv hitem (Described.causes_of_ofValue _ _ hrefused hunexpected)
  | rendering hv hds h hunexpected =>
      obtain ⟨d, hd, hrender⟩ := exists_of_mapM_error h
      obtain ⟨item, hitem, hvalue⟩ := exists_of_mem_mapM hds hd
      rcases Described.cause_of_unexpected hrender hunexpected with
        ⟨size, rfl, htab⟩ | ⟨name, hname⟩
      · exact .wideTabs htab
      · exact .oddName hv hitem (Described.oddName_of_ofValue _ _ hvalue hname)
  | writing hv hds htexts h =>
      obtain ⟨front, c, back, hout, -, hhalf, -⟩ := Halves.exists_of_writable_error h
      have hmem : c ∈ output config _ := hout ▸ List.mem_append_right _ List.mem_cons_self
      have hprivate := Halves.isPrivateUse_of_number? hhalf
      obtain ⟨text, htext, hmem⟩ := exists_of_mem_output hprivate hmem
      obtain ⟨d, hd, hrender⟩ := exists_of_mem_mapM htexts htext
      exact .half hv hds hd hhalf (Described.given_of_render hglyphs hprivate hrender hmem)

theorem Unhandled.reported_eq {crash : Crash} (h : Unhandled w access config file text crash) :
    reported w access config file text = .error (.crashed crash) := by
  cases h with
  | depth h =>
      rw [reported, h]
      rfl
  | @description v e hv h hunexpected =>
      rw [reported, hv, ok_mapError, ok_bind, h]
      exact congrArg Except.error (stopOfDescription_of_unexpected hunexpected)
  | @rendering v ds e hv hds h hunexpected =>
      rw [reported, hv, ok_mapError, ok_bind, hds, ok_mapError, ok_bind, h]
      cases e with
      | render e =>
          cases e with
          | oversized size => rfl
          | _ => exact absurd hunexpected id
      | _ => rfl
  | writing hv hds htexts h =>
      rw [reported, hv, ok_mapError, ok_bind, hds, ok_mapError, ok_bind, htexts, ok_mapError,
        ok_bind, h]
      rfl

/-- Whatever ends a report before its output is told, or it is one of the crashes. -/
theorem told_or_unhandled {stop : Stop} (h : reported w access config file text = .error stop) :
    (∃ e, stop = .failed e) ∨
      ∃ crash, stop = .crashed crash ∧ Unhandled w access config file text crash := by
  rcases bind_eq_error h with hparse | ⟨v, hv, h⟩
  · obtain ⟨e, he, rfl⟩ := mapError_eq_error hparse
    cases e with
    | tooDeep container => exact .inr ⟨_, rfl, .depth he⟩
    | _ => exact .inl ⟨_, rfl⟩
  replace hv := ok_of_mapError_ok hv
  rcases bind_eq_error h with hrefused | ⟨ds, hds, h⟩
  · obtain ⟨e, he, rfl⟩ := mapError_eq_error hrefused
    by_cases hunexpected : e.Unexpected
    · rw [stopOfDescription_of_unexpected hunexpected]
      exact .inr ⟨_, rfl, .description hv he hunexpected⟩
    · exact .inl ⟨_, stopOfDescription_of_expected hunexpected⟩
  replace hds := ok_of_mapError_ok hds
  rcases bind_eq_error h with hrender | ⟨texts, htexts, h⟩
  · obtain ⟨e, he, rfl⟩ := mapError_eq_error hrender
    cases e with
    | render e =>
        cases e with
        | oversized size => exact .inr ⟨_, rfl, .rendering hv hds he trivial⟩
        | _ => exact .inl ⟨_, rfl⟩
    | _ => exact .inr ⟨_, rfl, .rendering hv hds he trivial⟩
  · obtain ⟨e, he, rfl⟩ := mapError_eq_error h
    exact .inr ⟨_, rfl, .writing hv hds (ok_of_mapError_ok htexts) he⟩

end Platforms

/-! ### Outcomes -/

/-- The outcome is one line of error behind the lines of the log, and nothing else. -/
structure Outcome.TellsError (outcome : Outcome) : Prop where
  status_eq : outcome.status = 1
  out_eq : outcome.out = []
  crash_eq : outcome.crash = none
  err_eq : ∃ before message, outcome.err = before ++ "error: ".toList ++ message ++ ['\n'] ∧
    ∀ c ∈ before.getLast?, c = '\n'

theorem logText_ends (verbosity : Nat) (log : List LogEntry) :
    ∀ c ∈ (logText verbosity log).getLast?, c = '\n' := by
  rw [logText]
  rcases List.eq_nil_or_concat (log.filter (·.level ≤ verbosity)) with hnone | ⟨front, last, hsome⟩
  · rw [hnone]
    exact fun c hc => nomatch hc
  · intro c hc
    rw [hsome, List.concat_eq_append, List.flatMap_append, List.flatMap_singleton,
      ← List.append_assoc, List.getLast?_concat] at hc
    exact (Option.some.inj hc).symm

/-- Neither the first word of an error nor the end of its line is touched. -/
theorem errorText_line [Halves] (message : Text) :
    errorText ("error: ".toList ++ message ++ ['\n']) =
      "error: ".toList ++ Halves.spelled (Escape.remove message) ++ ['\n'] := by
  rw [errorText, Escape.remove_concat rfl rfl (by decide),
    Escape.leaves_self (s := "error: ".toList) (by decide), Halves.spelled_append,
    Halves.spelled_append,
    Halves.spelled_of_free (Halves.free_of_public (s := "error: ".toList) (by decide)),
    Halves.spelled_of_free (Halves.free_of_public (s := ['\n']) (by decide))]

theorem tellsError_of_failed [Halves] (command : Command) (verbosity : Nat) (e : Failure)
    (log : List LogEntry) :
    (Outcome.ofSession command verbosity (.error (.failed e), log)).TellsError where
  status_eq := rfl
  out_eq := rfl
  crash_eq := rfl
  err_eq := by
    refine ⟨logText verbosity log, Halves.spelled (Escape.remove e.message), ?_,
      logText_ends verbosity log⟩
    rw [Outcome.ofSession, errorText_line, List.append_assoc, List.append_assoc, List.append_assoc]

/-- A report that gets as far as the text of its document: the arguments are in order, the settings
are valid, and the file is readable. -/
structure ReportCall [Platform] (access : FileAccess Id) (arguments : List Text) where
  before : List Given
  rest : List Text
  given : List Given
  others : List Text
  choices : Choices
  file : Text
  config : Config
  log : List LogEntry
  text : Text
  program : split programOptions false arguments = .ok (before, "report".toList :: rest)
  unanswered : answer? before = none
  command : split Command.report.options true rest = .ok (given, others)
  unhelped : given.contains .help = false
  chosen : (Choices.ofArguments access .report given others).run = .ok (choices, file)
  configured : (configuration access choices (FilePath.parse file)).run.run [] = (.ok config, log)
  readable : (access.readText (FilePath.parse file)).run = .ok text

theorem charset_of_load [Platform] {access : FileAccess Id} {path : FilePath} {config : Config}
    (h : (Config.load access path).run = .ok config) :
    config.charset = .unicode ∨ config.charset = .ascii := by
  rw [Config.load, Id.run_bind] at h
  cases hread : (access.readExactText path).run with
  | error e =>
      rw [hread] at h
      cases h
  | ok s =>
      rw [hread] at h
      replace h : Config.ofToml path s = .ok config := h
      rw [Config.ofToml] at h
      split at h
      · cases h
      · cases h
      · cases h
      next entries _ =>
        obtain ⟨render, -, -, hsettings⟩ := Config.ofTable_eq_ok_iff.1 (ok_of_mapError_ok h)
        rw [hsettings]
        change Settings.charsetAt render = .unicode ∨ Settings.charsetAt render = .ascii
        rw [Settings.charsetAt]
        split
        · split
          · exact .inr rfl
          · exact .inl rfl
        · exact .inl rfl

/-- Settings of a command have one of the two charsets that go by a name. -/
theorem charset_of_configuration [Platform] {access : FileAccess Id} {choices : Choices}
    {file : FilePath} {config : Config} {log : List LogEntry}
    (h : (configuration access choices file).run.run [] = (.ok config, log)) :
    config.charset = .unicode ∨ config.charset = .ascii := by
  obtain ⟨more, hrun⟩ := ends_configuration access choices file []
  rw [h] at hrun
  obtain ⟨found, -, hfound⟩ := bind_eq_ok (Prod.mk.inj hrun).1.symm
  obtain ⟨base, hloaded, hupdated⟩ := bind_eq_ok hfound
  have hsettings := Settings.toSettings_of_check (ok_of_mapError_ok hupdated)
  have hbase : base.charset = .unicode ∨ base.charset = .ascii := by
    cases found with
    | none =>
        cases hloaded
        exact .inl rfl
    | some path => exact charset_of_load (ok_of_mapError_ok hloaded)
  rw [hsettings, Settings.with, Choices.changes]
  cases choices.ascii with
  | true => exact .inr rfl
  | false => exact hbase

namespace ReportCall

variable [Platform] {access : FileAccess Id} {arguments : List Text}

theorem public_glyphs (call : ReportCall access arguments) :
    ∀ glyph ∈ call.config.charset.glyphs, Public glyph := by
  rcases charset_of_configuration call.configured with h | h <;> rw [h] <;> decide

theorem run_eq (call : ReportCall access arguments) (w : CellWidth) :
    ∃ log, (run w access arguments).run = .ofSession .report (call.before.count .verbose)
      (reported w access call.config call.file call.text, log) := by
  obtain ⟨more, hreport⟩ := runReport_run w call.configured call.readable
  refine ⟨call.log ++ more, ?_⟩
  rw [run_of_command w call.program rfl call.unanswered,
    runCommand_of_chosen w _ call.command call.unhelped call.chosen, ← hreport]
  rfl

/-- What ends a report. Unless it crashes it succeeds, or it tells in one line what is wrong. It
crashes for the errors that are not expected and for no others, and each of them has a cause: a
document with more brackets than may enclose a value, a label at an infinity, a value too deep for
its text, a source name that is no text, tab stops further apart than a text can be long, or half of
a surrogate pair in a text that was given. -/
theorem report_outcome (call : ReportCall access arguments) (w : CellWidth) :
    ((run w access arguments).run.crash = none →
      (run w access arguments).run.status = 0 ∨ (run w access arguments).run.TellsError) ∧
    (∀ crash, (run w access arguments).run.crash = some crash ↔
      Unhandled w access call.config call.file call.text crash) ∧
    (∀ crash, Unhandled w access call.config call.file call.text crash →
      Cause access call.config call.file call.text crash) := by
  obtain ⟨log, hrun⟩ := call.run_eq w
  rw [hrun]
  refine ⟨fun hcrash => ?_, fun crash => ⟨fun hcrash => ?_, fun h => ?_⟩,
    fun crash h => h.cause call.public_glyphs⟩
  · cases hreported : reported w access call.config call.file call.text with
    | ok out => exact .inl rfl
    | error stop =>
        rcases told_or_unhandled hreported with ⟨e, rfl⟩ | ⟨crash, rfl, -⟩
        · exact .inr (tellsError_of_failed .report _ e log)
        · rw [hreported] at hcrash
          cases hcrash
  · cases hreported : reported w access call.config call.file call.text with
    | ok out =>
        rw [hreported] at hcrash
        cases hcrash
    | error stop =>
        rw [hreported] at hcrash
        rcases told_or_unhandled hreported with ⟨e, rfl⟩ | ⟨crash', rfl, h⟩
        · cases hcrash
        · cases hcrash
          exact h
  · rw [h.reported_eq]
    rfl

end ReportCall

/-- A directory with one document. -/
def holding (document : Text) : FileTree :=
  .directory [("r.json".toList, .file (Utf8.encode document))]

def holdingAccess (document : Text) : FileAccess Id := (holding document).access { root := ['/'] }

def reportArguments : List Text := ["report".toList, "r.json".toList]

/-- The report on any document, without options and settings. -/
def documentCall [Platform] (document : Text) :
    ReportCall (holdingAccess document) reportArguments where
  before := []
  rest := ["r.json".toList]
  given := []
  others := ["r.json".toList]
  choices := {}
  file := "r.json".toList
  config := .default
  log := []
  text := unifyLineEnds document
  program := by decide +kernel
  unanswered := rfl
  command := by decide +kernel
  unhelped := rfl
  chosen := rfl
  configured := rfl
  readable := by
    change ((Utf8.decode (Utf8.encode document)).mapError ReadError.undecodable).map
      unifyLineEnds = _
    rw [Utf8.decode_encode]
    rfl

/-- A label that does not end. -/
def endless : Text := ("\x7b\"source\": \x7b\"text\": \"ab\"\x7d, " ++
  "\"labels\": [\x7b\"start\": 0, \"end\": Infinity\x7d]\x7d").toList

/-- The outcome of the report on a document where every character takes one cell. -/
def documentOutcome [Platform] (document : Text) : Outcome :=
  (run (fun _ => 1) (holdingAccess document) reportArguments).run

/-- A title that is half of a surrogate pair. -/
def halved : Text := ("\x7b\"title\": \"\\ud800\", " ++
  "\"source\": \x7b\"text\": \"ab\"\x7d\x7d").toList

section

attribute [local instance] Platform.usual

theorem endless_crash : (documentOutcome endless).crash.map Crash.message =
    some "cannot convert float infinity to integer" := by decide +kernel

theorem ReportCall.report_outcome_documents :
    ((documentOutcome "[5]".toList).status = 0 ∨ (documentOutcome "[5]".toList).TellsError) ∧
      ∀ document ∈ [endless, halved], ∃ crash,
        Unhandled (fun _ => 1) (holdingAccess document) .default "r.json".toList document crash ∧
          Cause (holdingAccess document) .default "r.json".toList document crash := by
  have hcrash : ∀ document ∈ [endless, halved], (documentOutcome document).crash.isSome ∧
      (documentCall document).text = document := by decide +kernel
  refine ⟨(report_outcome (documentCall "[5]".toList) fun _ => 1).1 ?_, fun document hmem => ?_⟩
  · exact Option.isNone_iff_eq_none.1 (by decide +kernel)
  · obtain ⟨hsome, htext⟩ := hcrash document hmem
    obtain ⟨crash, hcrash⟩ := Option.isSome_iff_exists.1 hsome
    obtain ⟨-, hcrashes, hcauses⟩ := report_outcome (documentCall document) fun _ => 1
    have hunhandled := (hcrashes crash).1 hcrash
    have hcause := hcauses crash hunhandled
    rw [htext] at hunhandled hcause
    exact ⟨crash, hunhandled, hcause⟩

/-- A document that can be read may still end its report with a crash. -/
theorem endless_report_crashes : (Json.parse endless).toOption.isSome = true ∧
    (documentOutcome endless).crash.map Crash.message =
      some "cannot convert float infinity to integer" ∧
    ¬((documentOutcome endless).status = 0 ∨ (documentOutcome endless).TellsError) := by
  refine ⟨by decide +kernel, endless_crash, ?_⟩
  rintro (hstatus | htold)
  · exact absurd hstatus (by decide +kernel)
  · have hcrash := endless_crash
    rw [htold.crash_eq] at hcrash
    cases hcrash

end

end Excerpt.CommandLine
