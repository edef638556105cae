import Excerpt.File.Access

/-!
Directories and files held in memory. A path is followed name by name, and every name but the last
has to lead to a directory, two dots included.
-/

namespace Excerpt

inductive FileTree where
  | file (data : Bytes)
  | directory (entries : List (Text × FileTree))
deriving Repr

namespace FileTree

def entries : FileTree → List (Text × FileTree)
  | .file _ => []
  | .directory entries => entries

/-- What is under a path of names. -/
def find? : List Text → FileTree → Option FileTree
  | [], tree => some tree
  | name :: rest, tree => (tree.entries.lookup name).bind (find? rest)

/-- Puts a file or a directory under a path, with directories for the names on the way. -/
def put (leaf : FileTree) : List Text → FileTree → FileTree
  | [], _ => leaf
  | name :: rest, tree =>
    let below := put leaf rest ((tree.entries.lookup name).getD (.directory []))
    .directory ((name, below) :: tree.entries.filter (·.1 != name))

/-- Makes sure that a directory is under a path. -/
def makeDirectory (path : List Text) (tree : FileTree) : FileTree :=
  match tree.find? path with
  | some _ => tree
  | none => put (.directory []) path tree

/-- The number of bytes that a text takes up. -/
def byteCount (s : Text) : Nat := (Utf8.encode s).length

/-- The most bytes in a name. -/
def maxName : Nat := 255

/-- The most bytes in a path. -/
def maxPath : Nat := 4095

/-- Follows names from a position, which is given as the path of names to it. -/
def follow (root : FileTree) : List Text → List Text → Except FileFault FileTree
  | position, [] =>
    match root.find? position with
    | some tree => .ok tree
    | none => .error .missing
  | position, name :: rest =>
    match root.find? position with
    | some (.directory _) =>
      if name = [] ∨ name = FilePath.here then root.follow position rest
      else if name = FilePath.up then root.follow position.dropLast rest
      else if maxName < byteCount name then .error .nameTooLong
      else root.follow (position ++ [name]) rest
    | some (.file _) => .error .notDirectory
    | none => .error .missing

/-- The bytes at a path, relative ones starting from `here`. -/
def read (root : FileTree) (here : FilePath) (path : Text) : Except FileFault Bytes :=
  if path.contains (Char.ofNat 0) then .error .embeddedNull
  else if path = [] then .error .missing
  else if maxPath < byteCount path then .error .nameTooLong
  else
    let start := if FilePath.rootOf path = [] then here.parts else []
    match root.follow start (Text.pieces (· == '/') path) with
    | .error fault => .error fault
    | .ok (.file data) => .ok data
    | .ok (.directory _) => .error .isDirectory

def access (root : FileTree) (here : FilePath) : FileAccess Id where
  here := here
  read := root.read here

end FileTree
end Excerpt
