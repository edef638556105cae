import Excerpt.CommandLine.Session
import Excerpt.Unicode.Alphanumeric

/-!
The program as a function from its arguments to what it writes. All errors end it with a status
other than zero and nothing on standard output.
-/

namespace Excerpt.CommandLine

structure Outcome where
  status : Nat := 0
  out : Text := []
  err : Text := []
  crash : Option Crash := none
deriving Repr

/-- Errors are written without escape sequences, and what cannot be written is spelled out. -/
def errorText [Halves] (s : Text) : Text := Halves.spelled (Escape.remove s)

def Outcome.ofUsage [Halves] (topic : Topic) (e : UsageError) : Outcome :=
  { status := 2, err := errorText (e.text topic) }

def Outcome.help (topic : Topic) : Outcome := { out := helpText topic }

/-- The lines of a log that a verbosity asks for. -/
def logText (verbosity : Nat) (log : List LogEntry) : Text :=
  (log.filter (·.level ≤ verbosity)).flatMap fun entry => entry.line ++ ['\n']

/-- The outcome of a command with the log that it kept. -/
def Outcome.ofSession [Halves] (command : Command) (verbosity : Nat) :
    Except Stop Text × List LogEntry → Outcome
  | (.ok out, log) => { out, err := logText verbosity log }
  | (.error (.usage e), log) =>
    { status := 2, err := logText verbosity log ++ errorText (e.text (some command)) }
  | (.error (.failed e), log) =>
    { status := 1
      err := logText verbosity log ++ errorText ("error: ".toList ++ e.message ++ ['\n']) }
  | (.error (.crashed e), log) =>
    { status := 1, err := logText verbosity log, crash := some e }

variable {m : Type → Type} [Monad m]

def session [Platform] (w : CellWidth) (access : FileAccess m) :
    Command → Choices → Text → Session m Text
  | .render => runRender w access
  | .report => runReport w access

def runCommand [Platform] (w : CellWidth) (access : FileAccess m) (verbosity : Nat)
    (command : Command) (arguments : List Text) : m Outcome := do
  match split command.options true arguments with
  | .error e => return .ofUsage (some command) (.argument e)
  | .ok (given, others) =>
    if given.contains .help then
      return .help (some command)
    else
      match ← Choices.ofArguments access command given others with
      | .error (.usage e) => return .ofUsage (some command) e
      | .error (.file e) => return { status := 1, crash := some (.file e) }
      | .ok (choices, file) =>
        let result ← (session w access command choices file).run.run []
        return .ofSession command verbosity result

/-- Whether a name that is no command is taken for an option out of place. -/
def looksLikeOption (name : Text) : Bool :=
  match name with
  | [] => false
  | c :: _ => !Unicode.isAlphanumeric c

/-- Help or version, whichever is asked for first. -/
def answer? (given : List Given) : Option Outcome :=
  given.findSome? fun
    | .help => some (.help none)
    | .version => some { out := linesText [versionText] }
    | _ => none

/-- Without arguments the program tells how it is used. -/
def run [Platform] (w : CellWidth) (access : FileAccess m) (arguments : List Text) : m Outcome := do
  if arguments = [] then
    return .help none
  else
    match split programOptions false arguments with
    | .error e => return .ofUsage none (.argument e)
    | .ok (given, others) =>
      match answer? given, others with
      | some outcome, _ => return outcome
      | none, [] => return .ofUsage none .missingCommand
      | none, name :: rest =>
        match Command.ofName? name with
        | some command => runCommand w access (given.count .verbose) command rest
        | none =>
          if looksLikeOption name then
            return .help none
          else
            return .ofUsage none (.noSuchCommand name)

end Excerpt.CommandLine
