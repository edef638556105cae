import Excerpt.File.Path
import Excerpt.Text.Halves

/-!
Access to files, abstracted from where they are. All that is asked of it is the directory that
relative paths start from and the bytes at a path, or why there are none; whether a path leads to a
file or a directory follows from that.
-/

namespace Excerpt

/-- Why no bytes are read. -/
inductive FileFault where
  | missing
  | notDirectory
  | isDirectory
  | nameTooLong
  | embeddedNull
deriving Repr, DecidableEq

/-- A fault and the path that was to be read. -/
structure FileError where
  fault : FileFault
  path : Text
deriving Repr, DecidableEq

def FileError.message [Halves] (e : FileError) : String :=
  let path := String.ofList (Halves.quoted e.path)
  match e.fault with
  | .missing => s!"[Errno 2] No such file or directory: {path}"
  | .notDirectory => s!"[Errno 20] Not a directory: {path}"
  | .isDirectory => s!"[Errno 21] Is a directory: {path}"
  | .nameTooLong => s!"[Errno 36] File name too long: {path}"
  | .embeddedNull => "embedded null byte"

structure FileAccess (m : Type → Type) where
  here : m FilePath
  read : Text → m (Except FileFault Bytes)

/-- Why a file gives no text. -/
inductive ReadError where
  | unreadable (e : FileError)
  | undecodable (e : Utf8.DecodeError)
deriving Repr, DecidableEq

def ReadError.message [Halves] : ReadError → String
  | .unreadable e => e.message
  | .undecodable e => e.message

inductive FileKind where
  | file
  | directory
deriving Repr, DecidableEq

/-- A text in which every line ends with a line feed alone. -/
def unifyLineEnds : Text → Text
  | [] => []
  | '\r' :: '\n' :: s => '\n' :: unifyLineEnds s
  | c :: s => (if c = '\r' then '\n' else c) :: unifyLineEnds s

namespace FileAccess

variable {m : Type → Type} [Monad m]

/-- What a path leads to, or why it leads nowhere. -/
def kind (access : FileAccess m) (path : Text) : m (Except FileFault FileKind) := do
  match ← access.read path with
  | .ok _ => return .ok .file
  | .error .isDirectory => return .ok .directory
  | .error fault => return .error fault

/-- Whether a path leads to a file. That nothing is there is no error; a path that cannot be
followed for what it is called is one. -/
def leadsToFile (access : FileAccess m) (path : FilePath) : m (Except FileError Bool) := do
  match ← access.kind path.text with
  | .ok kind => return .ok (kind == .file)
  | .error .nameTooLong => return .error ⟨.nameTooLong, path.text⟩
  | .error _ => return .ok false

/-- The text of a file, byte for byte. -/
def readExactText (access : FileAccess m) (path : FilePath) : m (Except ReadError Text) := do
  match ← access.read path.text with
  | .error fault => return .error (.unreadable ⟨fault, path.text⟩)
  | .ok data => return (Utf8.decode data).mapError .undecodable

/-- The text of a file with all line ends alike. -/
def readText (access : FileAccess m) (path : FilePath) : m (Except ReadError Text) := do
  return (← access.readExactText path).map unifyLineEnds

end FileAccess
end Excerpt
