import Excerpt.Config.Table
import Excerpt.File.Access
import Excerpt.Toml

/-!
Settings files: where they are looked for, and configurations read from them.
-/

namespace Excerpt.Config

def fileName : Text := "spanlight.toml".toList

/-- Why a settings file gives no configuration. -/
inductive LoadError where
  | unreadable (e : ReadError)
  | notToml (path : Text) (problem : Toml.Problem) (place : Option (Nat × Nat))
  | numberTooLong (digits : Nat)
  | tooDeep
  | badTable (e : TableError)
deriving Repr

def LoadError.message [Halves] : LoadError → String
  | .unreadable e => e.message
  | .notToml path problem place =>
    String.ofList path ++ ": " ++ (Toml.Error.malformed problem place).message
  | .numberTooLong digits => Numeral.tooLongMessage (some digits)
  | .tooDeep => Toml.Error.tooDeep.message
  | .badTable e => e.message

/-- The configuration in the text of a settings file. -/
def ofToml [Platform] (path : FilePath) (s : Text) : Except LoadError Config :=
  match Toml.parse s with
  | .error (.malformed problem place) => .error (.notToml path.text problem place)
  | .error (.numberTooLong digits) => .error (.numberTooLong digits)
  | .error .tooDeep => .error .tooDeep
  | .ok entries => (Config.ofTable entries).mapError .badTable

variable {m : Type → Type} [Monad m]

def load [Platform] (access : FileAccess m) (path : FilePath) : m (Except LoadError Config) := do
  match ← access.readExactText path with
  | .error e => return .error (.unreadable e)
  | .ok s => return ofToml path s

/-- The first of some directories with a settings file, as the path of that file. -/
def firstFile? (access : FileAccess m) : List FilePath → m (Except FileError (Option FilePath))
  | [] => return .ok none
  | directory :: rest => do
    let candidate := directory.child fileName
    match ← access.leadsToFile candidate with
    | .error e => return .error e
    | .ok true => return .ok (some candidate)
    | .ok false => firstFile? access rest

/-- The nearest settings file in or above a directory, or in or above the directory of a file. -/
def findFile? (access : FileAccess m) (start : FilePath) :
    m (Except FileError (Option FilePath)) := do
  let place := FilePath.resolve (← access.here) start
  if place.text.contains (Char.ofNat 0) then
    return .error ⟨.embeddedNull, place.text⟩
  else
    match ← access.leadsToFile place with
    | .error e => return .error e
    | .ok true => firstFile? access place.parent.ancestors
    | .ok false => firstFile? access place.ancestors

end Excerpt.Config
