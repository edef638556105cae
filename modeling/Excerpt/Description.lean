import Excerpt.Diagnostic
import Excerpt.Source.File
import Excerpt.Style.Words
import Excerpt.Value.Shown
import Excerpt.Value.Whole

/-!
Diagnostics from descriptions, as data files hold them. A description is a table with a title, a
source, labels and footnotes, all of them optional. Titles and texts may be any value and are shown
as text, if they have one; spans are read as whole numbers; what else has the wrong shape is
refused, and so is a source with a lone half of a surrogate pair.
-/

namespace Excerpt

/-- Why a description gives no diagnostic. -/
inductive DescriptionError where
  | notATable (what : String) (typeName : String)
  | missing (key : String)
  | sourceTextNotText
  | pathNotText (typeName : String)
  | notIterable (typeName : String)
  | badBound (e : Value.WholeError)
  | badStyle (e : Style.UnknownWord)
  | unreadable (e : ReadError)
  | unshown (e : Value.ShowError)
  | unencodable (e : EncodeError)
deriving Repr, DecidableEq

def notIterableMessage (typeName : String) : String := s!"'{typeName}' object is not iterable"

def DescriptionError.message [Halves] : DescriptionError → String
  | .notATable what typeName => s!"{what} must be an object, not {typeName}"
  | .missing key => Quoted.quote key
  | .sourceTextNotText => "source text must be a string"
  | .pathNotText typeName => s!"unsupported operand type(s) for /: 'PosixPath' and '{typeName}'"
  | .notIterable typeName => notIterableMessage typeName
  | .badBound e => e.message
  | .badStyle e => e.message
  | .unreadable e => e.message
  | .unshown e => e.message
  | .unencodable e => e.message

/-- A diagnostic from a description. A source name that is no text is kept beside it. -/
structure Described where
  diagnostic : Diagnostic
  oddName : Option Value := none
deriving Repr

namespace Description

def asTable (what : String) : Value → Except DescriptionError (List (Text × Value))
  | .table entries => .ok entries
  | v => .error (.notATable what v.typeName)

/-- The entries to go through: the items of a list, the characters of a text, the keys of a
table. -/
def elements : Value → Except DescriptionError (List Value)
  | .list items => .ok items
  | .text s => .ok (s.map fun c => .text [c])
  | .table entries => .ok (entries.map fun entry => .text entry.1)
  | v => .error (.notIterable v.typeName)

def require (entries : List (Text × Value)) (key : String) : Except DescriptionError Value :=
  match Value.lookup entries key with
  | some v => .ok v
  | none => .error (.missing key)

/-- A value that is not null. -/
def given? : Option Value → Option Value
  | none | some .null => none
  | some v => some v

def textOf [Platform] (use : TextUse) (v : Value) : Except DescriptionError Text :=
  (v.shown? use).mapError .unshown

def title [Platform] (entries : List (Text × Value)) : Except DescriptionError Text :=
  match Value.lookup entries "title" with
  | none => .ok []
  | some v => textOf .title v

def style [Platform] (entries : List (Text × Value)) : Except DescriptionError (Option Style) :=
  match given? (Value.lookup entries "style") with
  | none => .ok none
  | some v => do
    let words ← textOf .style v
    (Style.parse words).map some |>.mapError .badStyle

def bound (entries : List (Text × Value)) (key : String) : Except DescriptionError Int := do
  let v ← require entries key
  v.toWhole.mapError .badBound

def label [Platform] (v : Value) : Except DescriptionError Label := do
  let entries ← asTable "label" v
  let start ← bound entries "start"
  let stop ← bound entries "end"
  let text ← (given? (Value.lookup entries "text")).mapM (textOf .labelText)
  return { span := ⟨start, stop⟩, text, style := ← style entries }

def footnote [Platform] : Value → Except DescriptionError Footnote
  | .text s => .ok { text := s }
  | v => do
    let entries ← asTable "footnote" v
    let text ← textOf .footnoteText (← require entries "text")
    return { text, style := ← style entries }

/-- The descriptions under a key, one after the other, up to the first that is refused. -/
def each (entries : List (Text × Value)) (key : String) (f : Value → Except DescriptionError α) :
    Except DescriptionError (List α) := do
  let items ← elements ((Value.lookup entries key).getD (.list []))
  items.mapM f

/-- A name of a source, apart from one that is no text. -/
def name : Option Value → Option Text × Option Value
  | none | some .null => (none, none)
  | some (.text s) => (some s, none)
  | some v => (none, some v)

variable {m : Type → Type} [Monad m]

/-- A source that is read from a file. Its path is taken from the directory of the description, and
it is called by the path as given unless there is a name. -/
def sourceFromFile [Halves] (access : FileAccess m) (directory : FilePath)
    (entries : List (Text × Value)) (path : Value) :
    m (Except DescriptionError (Source × Option Value)) := do
  match path with
  | .text given =>
    let place := directory.join (FilePath.parse given)
    match Halves.pathError? place.text with
    | some e => return .error (.unencodable e)
    | none =>
      let (called, odd) := name (some ((Value.lookup entries "name").getD path))
      let source ← Source.read access place called
      return (source.mapError .unreadable).map fun s =>
        (if odd.isSome then { s with name := none } else s, odd)
  | v => return .error (.pathNotText v.typeName)

/-- A source whose text stands in the description. -/
def sourceFromText [Halves] (entries : List (Text × Value)) :
    Except DescriptionError (Source × Option Value) := do
  match ← require entries "text" with
  | .text given =>
    let text ← (Halves.writable given).mapError .unencodable
    let (called, odd) := name (Value.lookup entries "name")
    return ({ text, name := called }, odd)
  | _ => throw .sourceTextNotText

/-- The source of a description, if it has one. A path goes before a text. -/
def source [Halves] (access : FileAccess m) (directory : FilePath) (entries : List (Text × Value)) :
    m (Except DescriptionError (Option (Source × Option Value))) := do
  match given? (Value.lookup entries "source") with
  | none => return .ok none
  | some v =>
    match asTable "source" v with
    | .error e => return .error e
    | .ok inner =>
      match Value.lookup inner "path" with
      | some path => return (← sourceFromFile access directory inner path).map some
      | none => return (sourceFromText inner).map some

/-- Labels and footnotes, put to a source that is there already. -/
def complete [Platform] (entries : List (Text × Value)) (title : Text)
    (found : Option (Source × Option Value)) : Except DescriptionError Described := do
  let labels ← each entries "labels" label
  let footnotes ← each entries "footnotes" footnote
  return {
    diagnostic := { title, source := found.map (·.1), labels, footnotes }
    oddName := found.bind (·.2) }

end Description

variable {m : Type → Type} [Monad m]

/-- The diagnostic that a value describes; paths are taken from `directory`. -/
def Described.ofValue [Platform] (access : FileAccess m) (directory : FilePath) (v : Value) :
    m (Except DescriptionError Described) := do
  match Description.asTable "diagnostic" v with
  | .error e => return .error e
  | .ok entries =>
    match Description.title entries with
    | .error e => return .error e
    | .ok title =>
      return (← Description.source access directory entries) >>= Description.complete entries title

end Excerpt
