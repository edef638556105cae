import Excerpt.Text.Similarity

/-!
The options of the commands, and how arguments are split into options and the rest. Long options
stand alone or with a value behind an equals sign; short ones may be written together, and the rest
of such a cluster is the value of an option that takes one. Two dashes end the options.
-/

namespace Excerpt.CommandLine

inductive Given where
  | version
  | help
  | verbose
  | label (value : Text)
  | footnote (value : Text)
  | title (value : Text)
  | config (value : Text)
  | compact (on : Bool)
  | color (on : Bool)
  | tabWidth (value : Text)
  | context (value : Text)
  | maxWidth (value : Text)
  | ascii
deriving Repr, DecidableEq

inductive Meaning where
  | flag (given : Given)
  | value (given : Text → Given)

/-- An option with its spellings, and how help shows it. -/
structure OptionEntry where
  spellings : List (String × Meaning)
  usage : String
  help : List String

namespace OptionEntry

def flag (names : List String) (given : Given) (usage : String) (help : List String) :
    OptionEntry := ⟨names.map fun name => (name, .flag given), usage, help⟩

def value (names : List String) (given : Text → Given) (usage : String) (help : List String) :
    OptionEntry := ⟨names.map fun name => (name, .value given), usage, help⟩

/-- A pair of flags of which the last one given counts. -/
def switch (on off : String) (given : Bool → Given) (help : List String) : OptionEntry :=
  ⟨[(on, .flag (given true)), (off, .flag (given false))], s!"{on} / {off}", help⟩

end OptionEntry

def helpOption : OptionEntry :=
  .flag ["--help"] .help "--help" ["Show this message and exit."]

def programOptions : List OptionEntry :=
  [.flag ["--version"] .version "--version" ["Show the version and exit."],
    .flag ["-v", "--verbose"] .verbose "-v, --verbose" ["Log more (repeat for debug output)."],
    helpOption]

def renderingOptions : List OptionEntry :=
  [.value ["--config"] .config "--config FILE" ["Read settings from this spanlight.toml."],
    .switch "--compact" "--expanded" .compact ["Rendering mode."],
    .switch "--color" "--no-color" .color ["Emit ANSI colors."],
    .value ["--tab-width"] .tabWidth "--tab-width INTEGER RANGE"
      ["Cells between tab stops.  [x>=1]"],
    .value ["--context"] .context "--context INTEGER RANGE"
      ["Unlabelled lines shown around labels.  [x>=0]"],
    .value ["--max-width"] .maxWidth "--max-width INTEGER RANGE"
      ["Shorten rows to this many cells (0 disables).", "[x>=0]"],
    .flag ["--ascii"] .ascii "--ascii" ["Draw with ASCII glyphs only."],
    helpOption]

def describingOptions : List OptionEntry :=
  [.value ["-l", "--label"] .label "-l, --label TEXT"
      ["Byte span to label, as START:END[:TEXT].", "Repeatable."],
    .value ["-f", "--footnote"] .footnote "-f, --footnote TEXT" ["Footnote text. Repeatable."],
    .value ["-t", "--title"] .title "-t, --title TEXT"
      ["Diagnostic title (defaults to the file name)."]]

/-- Why arguments cannot be split. -/
inductive ArgumentError where
  | noSuchOption (name : Text) (similar : List String)
  | valueMissing (name : Text)
  | valueUnwanted (name : Text)
deriving Repr, DecidableEq

def spellings (options : List OptionEntry) : List (String × Meaning) :=
  options.flatMap OptionEntry.spellings

def meaning? (options : List OptionEntry) (name : Text) : Option Meaning :=
  (spellings options).lookup (String.ofList name)

def isLongName (name : Text) : Bool := ['-', '-'].isPrefixOf name

/-- The names among which an unknown one is sought. -/
def longNames (options : List OptionEntry) : List String :=
  ((spellings options).map (·.1)).filter fun name => isLongName name.toList

/-- What one argument gives: options that are complete, and one that still takes the next argument
as its value. -/
structure Reading where
  given : List Given
  open? : Option (Text × (Text → Given)) := none

/-- The options of a cluster of letters. -/
def readCluster (options : List OptionEntry) : Text → Except ArgumentError Reading
  | [] => .ok { given := [] }
  | c :: rest =>
    match meaning? options ['-', c] with
    | none => .error (.noSuchOption ['-', c] [])
    | some (.flag g) => (readCluster options rest).map fun r => { r with given := g :: r.given }
    | some (.value f) =>
      .ok (if rest = [] then { given := [], open? := some (['-', c], f) }
        else { given := [f rest] })

/-- A name and, behind the first equals sign, a value. -/
def splitValue (arg : Text) : Text × Option Text :=
  let name := arg.takeWhile (· != '=')
  (name, if name.length < arg.length then some (arg.drop (name.length + 1)) else none)

/-- An argument that begins with a dash. -/
def readOption (options : List OptionEntry) (arg : Text) : Except ArgumentError Reading :=
  if isLongName arg then
    let (name, value) := splitValue arg
    match meaning? options name, value with
    | none, _ => .error (.noSuchOption name (Similarity.closest name (longNames options)))
    | some (.flag _), some _ => .error (.valueUnwanted name)
    | some (.flag g), none => .ok { given := [g] }
    | some (.value f), some v => .ok { given := [f v] }
    | some (.value f), none => .ok { given := [], open? := some (name, f) }
  else readCluster options (arg.drop 1)

def isOption (arg : Text) : Bool := arg.head? = some '-' && 1 < arg.length

/-- The options among some arguments, in order, and the other arguments. Options are sought behind
other arguments only if `mixed` says so. -/
def split (options : List OptionEntry) (mixed : Bool) :
    List Text → Except ArgumentError (List Given × List Text)
  | [] => .ok ([], [])
  | arg :: rest =>
    if arg = ['-', '-'] then .ok ([], rest)
    else if isOption arg then do
      let reading ← readOption options arg
      match reading.open?, rest with
      | none, rest =>
        let (given, others) ← split options mixed rest
        return (reading.given ++ given, others)
      | some (name, _), [] => throw (.valueMissing name)
      | some (_, f), value :: rest =>
        let (given, others) ← split options mixed rest
        return (reading.given ++ f value :: given, others)
    else if mixed then do
      let (given, others) ← split options mixed rest
      return (given, arg :: others)
    else .ok ([], arg :: rest)

end Excerpt.CommandLine
