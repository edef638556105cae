import Excerpt.CommandLine.Choices
import Excerpt.Config.File
import Excerpt.Description.Rendering
import Excerpt.Json
import Excerpt.Printing

/-!
The commands. A command reads its settings, then what it is to show, then renders everything, and
only then writes it out, so nothing is written when anything fails. On the way it keeps a log.
Arguments and files are taken to hold no lone halves of surrogate pairs; in a report there may be
some, and then its output cannot be written.
-/

namespace Excerpt.CommandLine

inductive LogEntry where
  | settingsFound (path : Text)
  | rendering (count : Nat) (file : Text)
  | laidOut (labels groups slots : Nat)
deriving Repr, DecidableEq

/-- How much has to be asked for until an entry is shown. -/
def LogEntry.level : LogEntry → Nat
  | .settingsFound _ | .rendering .. => 1
  | .laidOut .. => 2

def LogEntry.line : LogEntry → Text
  | .settingsFound path => "spanlight: INFO: using config ".toList ++ path
  | .rendering count file =>
    s!"spanlight: INFO: rendering {count} diagnostics from ".toList ++ file
  | .laidOut labels groups slots =>
    (s!"spanlight.layout: DEBUG: laid out {labels} labels in {groups} line groups, " ++
      s!"{slots} leader slots").toList

/-- Why the file of a report holds no diagnostics. -/
inductive ReportError where
  | unreadable (e : ReadError)
  | malformed (e : Json.Error)
  | description (e : DescriptionError)
deriving Repr, DecidableEq

def ReportError.message [Halves] : ReportError → String
  | .unreadable e => e.message
  | .malformed e => e.message
  | .description e => e.message

/-- Failures that are told in one line. -/
inductive Failure where
  | settings (e : Config.LoadError)
  | range (e : RangeError)
  | undecodable (e : Utf8.DecodeError)
  | report (file : Text) (e : ReportError)
  | rendering (e : RenderError)
deriving Repr

def Failure.message [Halves] : Failure → Text
  | .settings e => e.message.toList
  | .range e => e.message.toList
  | .undecodable e => s!"source is not valid UTF-8: {e.message}".toList
  | .report file e =>
    "invalid diagnostic description in ".toList ++ file ++ ": ".toList ++ e.message.toList
  | .rendering e => e.message.toList

/-- Failures that no command expects. -/
inductive Crash where
  | settings (e : Config.LoadError)
  | file (e : FileError)
  | json (e : Json.Error)
  | description (e : DescriptionError)
  | rendering (e : DescribedError)
  | writing (e : EncodeError)
deriving Repr

def Crash.message [Halves] : Crash → String
  | .settings e => e.message
  | .file e => e.message
  | .json e => e.message
  | .description e => e.message
  | .rendering e => e.message
  | .writing e => e.message

/-- Why a command ends before its output. -/
inductive Stop where
  | usage (e : UsageError)
  | failed (e : Failure)
  | crashed (e : Crash)
deriving Repr

/-- What a command does: it logs, reads files, and may stop. -/
abbrev Session (m : Type → Type) (α : Type) := ExceptT Stop (StateT (List LogEntry) m) α

variable {m : Type → Type} [Monad m]

namespace Session

def log (entry : LogEntry) : Session m Unit := modify (· ++ [entry])

/-- Goes on with a result, or stops for the reason that an error is. -/
def ofExcept (stop : ε → Stop) : Except ε α → Session m α
  | .ok a => pure a
  | .error e => throw (stop e)

/-- An action that neither logs nor stops. -/
def ofAction (action : m α) : Session m α := ExceptT.lift (StateT.lift action)

/-- A result of reading files. -/
def ofRead (stop : ε → Stop) (action : m (Except ε α)) : Session m α := do
  ofExcept stop (← ofAction action)

end Session

open Session

def stopOfLoad : Config.LoadError → Stop
  | .unreadable (.undecodable e) => .failed (.undecodable e)
  | e@(.unreadable (.unreadable _)) | e@(.numberTooLong _) | e@.tooDeep
  | e@(.badTable (.unshown _)) => .crashed (.settings e)
  | e@(.notToml ..) | e@(.badTable _) => .failed (.settings e)

def stopOfRead : ReadError → Stop
  | .undecodable e => .failed (.undecodable e)
  | .unreadable e => .crashed (.file e)

def stopOfJson (file : Text) : Json.Error → Stop
  | e@(.tooDeep _) => .crashed (.json e)
  | e => .failed (.report file (.malformed e))

/-- Numbers without bounds, and values too deep for a text, are beyond what a report is checked
for. -/
def stopOfDescription (file : Text) : DescriptionError → Stop
  | e@(.badBound .infinite) | e@(.unshown .tooDeep) => .crashed (.description e)
  | e => .failed (.report file (.description e))

def stopOfRender : RenderError → Stop
  | e@(.oversized _) => .crashed (.rendering (.render e))
  | e => .failed (.rendering e)

def stopOfDescribed : DescribedError → Stop
  | .render e => stopOfRender e
  | e => .crashed (.rendering e)

/-- The settings file that is chosen, or the nearest one to the file that is shown. -/
def settingsFile? (access : FileAccess m) (choices : Choices) (file : FilePath) :
    m (Except FileError (Option FilePath)) :=
  match choices.config with
  | some path => return .ok (some (FilePath.parse path))
  | none => Config.findFile? access file

/-- The configuration of a command: what the settings file says, and over it what is chosen. -/
def configuration [Platform] (access : FileAccess m) (choices : Choices) (file : FilePath) :
    Session m Config := do
  let found ← ofRead (fun e => .crashed (.file e)) (settingsFile? access choices file)
  let base ← match found with
    | none => pure Config.default
    | some path => do
      log (.settingsFound path.text)
      ofRead stopOfLoad (Config.load access path)
  ofExcept (fun e => .failed (.range e)) (base.updated choices.changes)

/-- The bounds before the first two colons of a label, and the text behind the second. -/
def splitLabel (value : Text) : Option (Text × Text × Option Text) :=
  let start := value.takeWhile (· != ':')
  match value.drop start.length with
  | [] => none
  | _ :: rest =>
    let stop := rest.takeWhile (· != ':')
    match rest.drop stop.length with
    | [] => some (start, stop, none)
    | _ :: text => some (start, stop, some text)

/-- A label as it is written on the command line. -/
def parseLabel (value : Text) : Except UsageError Label :=
  match splitLabel value with
  | none => .error (.labelWithoutSpan value)
  | some (start, stop, text) =>
    match Numeral.parse start, Numeral.parse stop with
    | .ok start, .ok stop => .ok { span := ⟨start, stop⟩, text }
    | _, _ => .error (.badBounds value)

/-- The text of one diagnostic; its layout is logged as soon as it is made. -/
def renderOne [Platform] (w : CellWidth) (config : Config) (d : Described) :
    Session m Text := do
  let layout ← ofExcept stopOfRender (Layout.build w config d.diagnostic)
  log (.laidOut layout.labels.length layout.groups.length layout.slotCount)
  ofExcept stopOfDescribed (d.render w config config.mode)

/-- The texts of all diagnostics with an empty line between neighbours, as they are written. -/
def output (config : Config) (texts : List Text) : Text :=
  writtenForm config.colorEnabled (Text.joinWith ['\n'] texts)

def renderAll [Platform] (w : CellWidth) (config : Config) (ds : List Described) :
    Session m Text := do
  return output config (← ds.mapM (renderOne w config))

def runRender [Platform] (w : CellWidth) (access : FileAccess m) (choices : Choices)
    (file : Text) : Session m Text := do
  let path := FilePath.parse file
  let config ← configuration access choices path
  let labels ← ofExcept .usage (choices.labels.mapM parseLabel)
  let source ← ofRead stopOfRead (Source.read access path)
  let footnotes := choices.footnotes.map fun text => ({ text } : Footnote)
  let diagnostic : Diagnostic :=
    { title := choices.title.getD file, source := some source, labels, footnotes }
  renderAll w config [{ diagnostic }]

/-- The diagnostics that a value describes: the items of a list, or one. -/
def descriptions : Value → List Value
  | .list items => items
  | v => [v]

def runReport [Platform] (w : CellWidth) (access : FileAccess m) (choices : Choices)
    (file : Text) : Session m Text := do
  let path := FilePath.parse file
  let config ← configuration access choices path
  let text ← ofRead (fun e => .failed (.report file (.unreadable e))) (access.readText path)
  let v ← ofExcept (stopOfJson file) (Json.parse text)
  let ds ← (descriptions v).mapM fun item =>
    ofRead (stopOfDescription file) (Described.ofValue access path.parent item)
  log (.rendering ds.length file)
  let out ← renderAll w config ds
  ofExcept (fun e => .crashed (.writing e)) (Halves.writable out)

end Excerpt.CommandLine
