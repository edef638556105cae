import Excerpt.File.Access
import Excerpt.Source

/-!
Sources read from files.
-/

namespace Excerpt

variable {m : Type → Type} [Monad m]

/-- The text of a file as a source, named after its path if no other name is given. -/
def Source.read (access : FileAccess m) (path : FilePath) (name : Option Text := none) :
    m (Except ReadError Source) := do
  return (← access.readText path).map fun text => { text, name := some (name.getD path.text) }

end Excerpt
