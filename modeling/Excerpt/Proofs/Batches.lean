import Excerpt.Proofs.Reports

/-!
Reports of several diagnostics. A report renders all that its document describes before it writes
anything, and writes it in one piece or not at all, so it shows all of it or nothing; and what it
shows is what it would show for each diagnostic on its own, since no escape sequence goes past the
end of a line.
-/

namespace Excerpt

open Style (escapeChar)

theorem Escape.remove_joinWith_lineFeed (texts : List Text) :
    remove (Text.joinWith ['\n'] texts) = Text.joinWith ['\n'] (texts.map remove) := by
  induction texts with
  | nil => exact remove_nil
  | cons text texts ih =>
      cases texts with
      | nil => simp [Text.joinWith]
      | cons next texts =>
          simp only [Text.joinWith, List.map_cons, List.intercalate_cons_cons] at ih ⊢
          rw [List.append_assoc, List.singleton_append,
            remove_append_cons rfl rfl (by decide), remove_cons_of_ne (by decide), ih]
          simp

namespace CommandLine

/-- The written form of texts that are joined is that of one text after another. -/
theorem output_eq (config : Config) (texts : List Text) : output config texts =
    Text.joinWith ['\n'] (texts.map (writtenForm config.colorEnabled)) := by
  rw [output]
  cases config.colorEnabled with
  | true => exact congrArg (Text.joinWith ['\n']) (List.map_id texts).symm
  | false => exact Escape.remove_joinWith_lineFeed texts

/-- What is written for several diagnostics can be written if all that is written for them can. -/
theorem free_output_iff [Halves] {config : Config} {texts : List Text} :
    Halves.Free (output config texts) ↔
      ∀ text ∈ texts, Halves.Free (writtenForm config.colorEnabled text) := by
  rw [output_eq, Halves.free_joinWith_iff (by decide), List.forall_mem_map]

section Platforms

variable [Platform] (w : CellWidth) {access : FileAccess Id} {arguments : List Text}

namespace ReportCall

/-- The document of the report describes these diagnostics. -/
def Describes (call : ReportCall access arguments) (ds : List Described) : Prop :=
  ∃ v, Json.parse call.text = .ok v ∧
    described access (FilePath.parse call.file).parent v = .ok ds

/-- A report succeeds when it has read its document and rendered what that describes, and nothing of
it cannot be written. -/
theorem reported_eq_ok_iff (call : ReportCall access arguments) {out : Text} :
    reported w access call.config call.file call.text = .ok out ↔
      ∃ ds texts, call.Describes ds ∧ rendered w call.config ds = .ok texts ∧
        Halves.Free (output call.config texts) ∧ out = output call.config texts := by
  constructor
  · intro h
    obtain ⟨v, hv, h⟩ := bind_eq_ok h
    obtain ⟨ds, hds, h⟩ := bind_eq_ok h
    obtain ⟨texts, htexts, h⟩ := bind_eq_ok h
    obtain ⟨hout, hfree⟩ := Halves.writable_eq_ok_iff.1 (ok_of_mapError_ok h)
    exact ⟨ds, texts, ⟨v, ok_of_mapError_ok hv, ok_of_mapError_ok hds⟩,
      ok_of_mapError_ok htexts, hfree, hout⟩
  · rintro ⟨ds, texts, ⟨v, hv, hds⟩, htexts, hfree, rfl⟩
    simp only [reported, hv, hds, htexts, ok_mapError, ok_bind,
      Halves.writable_eq_ok_iff.2 ⟨rfl, hfree⟩]

theorem Describes.unique {call : ReportCall access arguments} {ds ds' : List Described}
    (h : call.Describes ds) (h' : call.Describes ds') : ds = ds' := by
  obtain ⟨v, hv, hds⟩ := h
  obtain ⟨v', hv', hds'⟩ := h'
  obtain rfl : v = v' := Except.ok.inj (hv.symm.trans hv')
  exact Except.ok.inj (hds.symm.trans hds')

theorem run_eq_of_reported (call : ReportCall access arguments) {out : Text}
    (h : reported w access call.config call.file call.text = .ok out) :
    (run w access arguments).run.status = 0 ∧ (run w access arguments).run.out = out := by
  obtain ⟨log, hrun⟩ := call.run_eq w
  rw [hrun, h]
  exact ⟨rfl, rfl⟩

/-- A report that succeeds writes what it has to report. -/
theorem reported_of_status_eq_zero (call : ReportCall access arguments)
    (h : (run w access arguments).run.status = 0) :
    reported w access call.config call.file call.text =
      .ok (run w access arguments).run.out := by
  obtain ⟨log, hrun⟩ := call.run_eq w
  rw [hrun] at h
  obtain ⟨out, log', hok⟩ := exists_of_ofSession_ok h
  have hreported := (Prod.mk.inj hok).1
  rw [hreported, (call.run_eq_of_reported w hreported).2]

end ReportCall

/-- Under a configuration a report on nothing but this diagnostic writes this text, wherever its
document stands and whatever other options it is given. -/
structure WritesAlone (config : Config) (d : Described) (text : Text) : Prop where
  rendered : (d.render w config config.mode).map (writtenForm config.colorEnabled) = .ok text
  writable : Halves.writable text = .ok text
  written : ∀ {access : FileAccess Id} {arguments : List Text}
    (call : ReportCall access arguments), call.config = config → call.Describes [d] →
      (run w access arguments).run.status = 0 ∧ (run w access arguments).run.out = text

theorem writesAlone_of_render {config : Config} {d : Described} {text : Text}
    (h : d.render w config config.mode = .ok text)
    (hfree : Halves.Free (writtenForm config.colorEnabled text)) :
    WritesAlone w config d (writtenForm config.colorEnabled text) where
  rendered := by
    rw [h]
    rfl
  writable := Halves.writable_eq_ok_iff.2 ⟨rfl, hfree⟩
  written := by
    rintro access arguments call rfl hdescribes
    have htexts : rendered w call.config [d] = .ok [text] :=
      mapM_eq_ok_iff.2 (.cons h .nil)
    have halone : Halves.Free (output call.config [text]) :=
      free_output_iff.2 (List.forall_mem_singleton.2 hfree)
    have hreported := (call.reported_eq_ok_iff w).2 ⟨[d], [text], hdescribes, htexts, halone, rfl⟩
    rw [output_eq] at hreported
    exact call.run_eq_of_reported w (by simpa [Text.joinWith] using hreported)

/-- What a report that succeeds writes, it would write for each of its diagnostics alone. -/
theorem ReportCall.writesAlone_of_status_eq_zero (call : ReportCall access arguments)
    (h : (run w access arguments).run.status = 0) :
    ∃ ds texts, call.Describes ds ∧ List.Forall₂ (WritesAlone w call.config) ds texts ∧
      (run w access arguments).run.out = Text.joinWith ['\n'] texts := by
  obtain ⟨ds, texts, hdescribes, htexts, hfree, hout⟩ :=
    (call.reported_eq_ok_iff w).1 (call.reported_of_status_eq_zero w h)
  refine ⟨ds, _, hdescribes, ?_, hout.trans (output_eq call.config texts)⟩
  have hall := free_output_iff.1 hfree
  rw [List.forall₂_map_right_iff]
  replace htexts := mapM_eq_ok_iff.1 htexts
  clear hdescribes hout hfree
  induction htexts with
  | nil => exact .nil
  | cons hrender _ ih =>
      obtain ⟨hfirst, hrest⟩ := List.forall_mem_cons.1 hall
      exact .cons (writesAlone_of_render w hrender hfirst) (ih hrest)

/-- A report that gets as far as its session and succeeds has found its settings and its
document. -/
theorem exists_reportCall {before : List Given} {rest : List Text}
    (hprogram : split programOptions false arguments = .ok (before, "report".toList :: rest))
    (hanswer : answer? before = none) (hstatus : (run w access arguments).run.status = 0)
    (hhelp : ¬∃ given others, split Command.report.options true rest = .ok (given, others) ∧
      given.contains .help = true) :
    Nonempty (ReportCall access arguments) := by
  rw [run_of_command w hprogram rfl hanswer] at hstatus
  obtain ⟨given, others, choices, file, out, log, hcommand, hunhelped, hchosen, hsession⟩ :=
    (exists_of_runCommand_ok w hstatus).resolve_left hhelp
  have hreport : (runReport w access choices file).run.run [] = (.ok out, log) := hsession
  rw [runReport, Session.run_bind] at hreport
  cases hconfig : (configuration access choices (FilePath.parse file)).run.run [] with
  | mk result entries =>
      cases result with
      | error stop =>
          rw [hconfig] at hreport
          cases hreport
      | ok config =>
          cases htext : (access.readText (FilePath.parse file)).run with
          | error e =>
              obtain ⟨more, hread⟩ := Session.ends_ofRead
                (fun e => .failed (.report file (.unreadable e)))
                (access.readText (FilePath.parse file)) entries
              rw [htext] at hread
              simp only [hconfig, Session.run_bind, hread, error_mapError] at hreport
              cases hreport
          | ok text =>
              exact ⟨{
                before := before
                rest := rest
                given := given
                others := others
                choices := choices
                file := file
                config := config
                log := entries
                text := text
                program := hprogram
                unanswered := hanswer
                command := hcommand
                unhelped := hunhelped
                chosen := hchosen
                configured := hconfig
                readable := htext }⟩

/-- Something other than a report is asked for: help, or the version. -/
def AsksForHelp (before : List Given) (rest : List Text) : Prop :=
  answer? before ≠ none ∨
    ∃ given others, split Command.report.options true rest = .ok (given, others) ∧
      given.contains .help = true

/-- A report shows all diagnostics that its document describes, or nothing. Unless it succeeds
nothing is on the output. When it succeeds, and not by telling how it is used, it has found its
settings and its document; it does so exactly when the document is well described and every
diagnostic on its own has a text that can be written; and then the output is those texts, with an
empty line between neighbours: for each diagnostic what a report on it alone writes. -/
theorem report_all_or_nothing (access : FileAccess Id) {before : List Given} {rest : List Text}
    (hreport : split programOptions false arguments = .ok (before, "report".toList :: rest)) :
    ((run w access arguments).run.status ≠ 0 ∨ (run w access arguments).run.crash ≠ none →
      (run w access arguments).run.out = []) ∧
    ((run w access arguments).run.status = 0 →
      AsksForHelp before rest ∨ Nonempty (ReportCall access arguments)) ∧
    ∀ call : ReportCall access arguments,
      ((run w access arguments).run.status = 0 ↔ ∃ ds, call.Describes ds ∧
        ∀ d ∈ ds, ∃ text, (d.render w call.config call.config.mode).map
          (writtenForm call.config.colorEnabled) = .ok text ∧ Halves.writable text = .ok text) ∧
      ∀ ds, call.Describes ds → (run w access arguments).run.status = 0 →
        ∃ texts, List.Forall₂ (WritesAlone w call.config) ds texts ∧
          (run w access arguments).run.out = Text.joinWith ['\n'] texts := by
  refine ⟨quiet_run w access arguments, fun hstatus => ?_,
    fun call => ⟨⟨fun hstatus => ?_, ?_⟩, ?_⟩⟩
  · by_cases hanswer : answer? before = none
    · by_cases hhelp : ∃ given others, split Command.report.options true rest =
          .ok (given, others) ∧ given.contains .help = true
      · exact .inl (.inr hhelp)
      · exact .inr (exists_reportCall w hreport hanswer hstatus hhelp)
    · exact .inl (.inl hanswer)
  · obtain ⟨ds, texts, hdescribes, hwrites, -⟩ := call.writesAlone_of_status_eq_zero w hstatus
    refine ⟨ds, hdescribes, fun d hd => ?_⟩
    have hflipped : List.Forall₂ (flip (WritesAlone w call.config)) texts ds := hwrites.flip
    obtain ⟨text, -, halone⟩ := Canvas.exists_mem_of_forall₂ hflipped d hd
    exact ⟨text, halone.rendered, halone.writable⟩
  · rintro ⟨ds, hdescribes, hall⟩
    obtain ⟨texts, htexts⟩ : ∃ texts, rendered w call.config ds = .ok texts :=
      exists_mapM_eq_ok_iff.2 fun d hd => by
        obtain ⟨_, hwritten, -⟩ := hall d hd
        obtain ⟨text, hrender, -⟩ := map_eq_ok hwritten
        exact ⟨text, hrender⟩
    have hfree : Halves.Free (output call.config texts) := by
      refine free_output_iff.2 fun text htext => ?_
      obtain ⟨d, hd, hrender⟩ := exists_of_mem_mapM htexts htext
      obtain ⟨written, hwritten, hwritable⟩ := hall d hd
      rw [hrender] at hwritten
      exact Except.ok.inj hwritten ▸ (Halves.writable_eq_ok_iff.1 hwritable).2
    exact (call.run_eq_of_reported w ((call.reported_eq_ok_iff w).2
      ⟨ds, texts, hdescribes, htexts, hfree, rfl⟩)).1
  · intro ds hdescribes hstatus
    obtain ⟨ds', texts, hdescribes', hwrites, hout⟩ := call.writesAlone_of_status_eq_zero w hstatus
    obtain rfl := hdescribes.unique hdescribes'
    exact ⟨texts, hwrites, hout⟩

end Platforms

/-- Two diagnostics, the second with a label beyond its source if the end is beyond 2. -/
def pairOf (stop : String) : Text :=
  ("[\x7b\"title\": \"a\", \"source\": \x7b\"text\": \"x\"\x7d\x7d, " ++
    "\x7b\"title\": \"b\", \"source\": \x7b\"text\": \"yz\"\x7d, " ++
    "\"labels\": [\x7b\"start\": 1, \"end\": " ++ stop ++ "\x7d]\x7d]").toList

section

attribute [local instance] Platform.usual

theorem report_all_or_nothing_pair : (documentOutcome (pairOf "3")).out = [] ∧
    "yz".toList <:+: (documentOutcome (pairOf "2")).out ∧
    ∃ ds texts, (documentCall (pairOf "2")).Describes ds ∧
      List.Forall₂ (WritesAlone (fun _ => 1) .default) ds texts ∧
      (documentOutcome (pairOf "2")).out = Text.joinWith ['\n'] texts := by
  have hprogram : split programOptions false reportArguments =
      .ok ([], "report".toList :: ["r.json".toList]) := by decide +kernel
  have hfails : (documentOutcome (pairOf "3")).status ≠ 0 := by decide +kernel
  have hstatus : (documentOutcome (pairOf "2")).status = 0 := by decide +kernel
  obtain ⟨hquiet, -⟩ :=
    report_all_or_nothing (fun _ => 1) (holdingAccess (pairOf "3")) hprogram
  obtain ⟨-, -, hcall⟩ :=
    report_all_or_nothing (fun _ => 1) (holdingAccess (pairOf "2")) hprogram
  obtain ⟨hsucceeds, hwrites⟩ := hcall (documentCall (pairOf "2"))
  obtain ⟨ds, hdescribes, -⟩ := hsucceeds.1 hstatus
  obtain ⟨texts, htexts, hout⟩ := hwrites ds hdescribes hstatus
  exact ⟨hquiet (.inl hfails), by decide +kernel, ds, texts, hdescribes, htexts, hout⟩

end

end CommandLine
end Excerpt
