import Excerpt.CommandLine.Usage
import Excerpt.Config
import Excerpt.File.Access
import Excerpt.Number.Numeral

/-!
What the options of a command ask for. Values are checked in the order in which their options were
first given, and after them the file; of an option given again the last value counts.
-/

namespace Excerpt.CommandLine

structure Choices where
  labels : List Text := []
  footnotes : List Text := []
  title : Option Text := none
  config : Option Text := none
  compact : Option Bool := none
  color : Option Bool := none
  tabWidth : Option Int := none
  context : Option Int := none
  maxWidth : Option Int := none
  ascii : Bool := false
deriving Repr, DecidableEq

/-- The options whose values are checked. -/
inductive Checked where
  | config
  | tabWidth
  | context
  | maxWidth
deriving Repr, DecidableEq

def Given.checked? : Given → Option Checked
  | .config _ => some .config
  | .tabWidth _ => some .tabWidth
  | .context _ => some .context
  | .maxWidth _ => some .maxWidth
  | _ => none

/-- The last answer that some options give. -/
def last? (given : List Given) (f : Given → Option α) : Option α := (given.filterMap f).getLast?

def Given.label? : Given → Option Text
  | .label s => some s
  | _ => none

def Given.footnote? : Given → Option Text
  | .footnote s => some s
  | _ => none

def Given.title? : Given → Option Text
  | .title s => some s
  | _ => none

def Given.config? : Given → Option Text
  | .config s => some s
  | _ => none

def Given.compact? : Given → Option Bool
  | .compact b => some b
  | _ => none

def Given.color? : Given → Option Bool
  | .color b => some b
  | _ => none

def Given.tabWidth? : Given → Option Text
  | .tabWidth s => some s
  | _ => none

def Given.context? : Given → Option Text
  | .context s => some s
  | _ => none

def Given.maxWidth? : Given → Option Text
  | .maxWidth s => some s
  | _ => none

/-- The choices that need no check. -/
def Choices.unchecked (given : List Given) : Choices where
  labels := given.filterMap Given.label?
  footnotes := given.filterMap Given.footnote?
  title := last? given Given.title?
  compact := last? given Given.compact?
  color := last? given Given.color?
  ascii := given.contains .ascii

/-- A number that is not below a bound. -/
def checkNumber (option : String) (low : Int) (value : Text) : Except UsageError Int :=
  match Numeral.parse value with
  | .error _ => .error (.notAnInteger option value)
  | .ok n => if n < low then .error (.tooSmall option n low) else .ok n

variable {m : Type → Type} [Monad m]

/-- Why choices are refused: they break a rule of usage, or a path cannot even be looked for. -/
inductive ChoiceError where
  | usage (e : UsageError)
  | file (e : FileError)
deriving Repr, DecidableEq

/-- A path that leads to a file. -/
def checkFile (access : FileAccess m) (parameter : String) (path : Text) :
    m (Except ChoiceError Text) := do
  match ← access.kind path with
  | .ok .file => return .ok path
  | .ok .directory => return .error (.usage (.fileIsDirectory parameter path))
  | .error .embeddedNull => return .error (.file ⟨.embeddedNull, path⟩)
  | .error _ => return .error (.usage (.fileMissing parameter path))

def checkLast (given : List Given) (f : Given → Option Text) (option : String) (low : Int) :
    Except ChoiceError (Option Int) :=
  ((last? given f).mapM (checkNumber option low)).mapError .usage

/-- Adds the last value of an option once it is checked. -/
def Choices.check (access : FileAccess m) (given : List Given) (choices : Choices) :
    Checked → m (Except ChoiceError Choices)
  | .config =>
    match last? given Given.config? with
    | none => return .ok choices
    | some path => do
      return (← checkFile access "--config" path).map fun s => { choices with config := some s }
  | .tabWidth => return (checkLast given Given.tabWidth? "--tab-width" 1).map fun n =>
      { choices with tabWidth := n }
  | .context => return (checkLast given Given.context? "--context" 0).map fun n =>
      { choices with context := n }
  | .maxWidth => return (checkLast given Given.maxWidth? "--max-width" 0).map fun n =>
      { choices with maxWidth := n }

def Choices.checkAll (access : FileAccess m) (given : List Given) :
    Choices → List Checked → m (Except ChoiceError Choices)
  | choices, [] => return .ok choices
  | choices, option :: rest => do
    match ← choices.check access given option with
    | .error e => return .error e
    | .ok choices => choices.checkAll access given rest

def Choices.ofArguments (access : FileAccess m) (command : Command) (given : List Given)
    (others : List Text) : m (Except ChoiceError (Choices × Text)) := do
  let order := (given.filterMap Given.checked?).eraseDups
  match ← (Choices.unchecked given).checkAll access given order with
  | .error e => return .error e
  | .ok choices =>
    match others with
    | [] => return .error (.usage (.missingFile command))
    | path :: extra =>
      match ← checkFile access command.fileName path with
      | .error e => return .error e
      | .ok path =>
        if extra = [] then return .ok (choices, path)
        else return .error (.usage (.extraArguments extra))

/-- The settings that are chosen by options. A width limit of zero removes the limit. -/
def Choices.changes (choices : Choices) : Changes where
  compactByDefault := choices.compact
  colorEnabled := choices.color
  tabWidth := choices.tabWidth.map .number
  contextLines := choices.context.map .number
  maxWidth := choices.maxWidth.map .number
  charset := if choices.ascii then some .ascii else none

end Excerpt.CommandLine
