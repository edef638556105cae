import Excerpt.CommandLine.Options
import Excerpt.Text.Quoted

/-!
What the program tells about itself: the help texts, and what is wrong with arguments.
-/

namespace Excerpt.CommandLine

inductive Command where
  | render
  | report
deriving Repr, DecidableEq

namespace Command

def all : List Command := [render, report]

def name : Command → String
  | render => "render"
  | report => "report"

def ofName? (s : Text) : Option Command := all.find? (·.name.toList == s)

/-- What the file argument is called. -/
def fileName : Command → String
  | render => "FILE"
  | report => "JSON_FILE"

def summary : Command → List String
  | render => ["Render a diagnostic for FILE from spans given on the command line."]
  | report =>
    ["Render the diagnostics described in JSON_FILE.",
      "The file holds one diagnostic object or a list of them."]

def options : Command → List OptionEntry
  | render => describingOptions ++ renderingOptions
  | report => renderingOptions

end Command

def programName : String := "spanlight"

def versionText : String := s!"{programName}, version 0.1.0"

/-- The program or one of its commands, when it is talked about. -/
abbrev Topic := Option Command

namespace Topic

def call (topic : Topic) : String :=
  match topic with
  | none => programName
  | some command => s!"{programName} {command.name}"

def arguments (topic : Topic) : String :=
  match topic with
  | none => "[OPTIONS] COMMAND [ARGS]..."
  | some command => s!"[OPTIONS] {command.fileName}"

def usageLine (topic : Topic) : String := s!"Usage: {call topic} {arguments topic}"

def summary (topic : Topic) : List String :=
  match topic with
  | none => ["Render labelled source spans as compiler-style diagnostics."]
  | some command => command.summary

def options (topic : Topic) : List OptionEntry :=
  match topic with
  | none => programOptions
  | some command => command.options

end Topic

def indented (line : String) : String := "  " ++ line

/-- Two columns: entries, and what is said about each of them in one or more lines. -/
def twoColumns (entries : List (String × List String)) : List String :=
  let width := entries.foldl (fun width entry => max width entry.1.length) 0
  let padded (s : String) : String := s ++ String.ofList (Text.spaces (width + 2 - s.length))
  entries.flatMap fun (entry, lines) =>
    match lines with
    | [] => [indented entry]
    | first :: rest => indented (padded entry ++ first) :: rest.map fun line =>
        indented (padded "" ++ line)

/-- The paragraphs of a help text with blank lines between them. -/
def paragraphs (blocks : List (List String)) : List String := [""].intercalate blocks

def commandList : List String :=
  "Commands:" :: twoColumns (Command.all.map fun c => (c.name, c.summary.take 1))

def helpLines (topic : Topic) : List String :=
  let options := topic.options.map fun entry => (entry.usage, entry.help)
  paragraphs <|
    [[topic.usageLine]] ++ topic.summary.map (fun line => [indented line]) ++
      [("Options:" :: twoColumns options)] ++ (if topic = none then [commandList] else [])

/-- Lines with a line feed behind each. -/
def linesText (lines : List String) : Text := lines.flatMap fun line => line.toList ++ ['\n']

def helpText (topic : Topic) : Text := linesText (helpLines topic)

/-- What is wrong with the arguments of a call. -/
inductive UsageError where
  | argument (e : ArgumentError)
  | missingCommand
  | noSuchCommand (name : Text)
  | missingFile (command : Command)
  | extraArguments (arguments : List Text)
  | fileMissing (parameter : String) (path : Text)
  | fileIsDirectory (parameter : String) (path : Text)
  | notAnInteger (option : String) (value : Text)
  | tooSmall (option : String) (n low : Int)
  | labelWithoutSpan (value : Text)
  | badBounds (value : Text)
deriving Repr, DecidableEq

def quoted (s : Text) : String := String.ofList (Quoted.encode s)

def similarHint : List String → String
  | [] => ""
  | [name] => s!" Did you mean {name}?"
  | names =>
    let list := ", ".intercalate names
    s!" (Possible options: {list})"

def ArgumentError.message : ArgumentError → String
  | .noSuchOption name similar => s!"No such option: {String.ofList name}" ++ similarHint similar
  | .valueMissing name => s!"Option {quoted name} requires an argument."
  | .valueUnwanted name => s!"Option {quoted name} does not take a value."

/-- A message about the value of a parameter. -/
def invalidValue (parameter message : String) : String :=
  s!"Invalid value for '{parameter}': {message}"

def UsageError.message : UsageError → String
  | .argument e => e.message
  | .missingCommand => "Missing command."
  | .noSuchCommand name => s!"No such command {quoted name}."
  | .missingFile command => s!"Missing argument '{command.fileName}'."
  | .extraArguments arguments =>
    let shown := " ".intercalate (arguments.map String.ofList)
    let noun := if arguments.length = 1 then "argument" else "arguments"
    s!"Got unexpected extra {noun} ({shown})"
  | .fileMissing parameter path =>
    invalidValue parameter s!"File {quoted path} does not exist."
  | .fileIsDirectory parameter path =>
    invalidValue parameter s!"File {quoted path} is a directory."
  | .notAnInteger option value =>
    invalidValue option s!"{quoted value} is not a valid integer range."
  | .tooSmall option n low => invalidValue option s!"{n} is not in the range x>={low}."
  | .labelWithoutSpan value =>
    s!"Invalid value: expected START:END[:TEXT], got {quoted value}"
  | .badBounds value =>
    s!"Invalid value: span bounds must be integers in {quoted value}"

/-- Whether an error is told without the usage of the command: one about an option's value is. -/
def UsageError.isBare : UsageError → Bool
  | .argument (.valueMissing _) | .argument (.valueUnwanted _) => true
  | _ => false

/-- What is written for an error in the arguments of a topic. -/
def UsageError.text (topic : Topic) (e : UsageError) : Text :=
  let error := s!"Error: {e.message}"
  if e.isBare then linesText [error]
  else
    linesText [topic.usageLine, s!"Try '{topic.call} --help' for help.", "", error]

end Excerpt.CommandLine
