import Excerpt.Text.Basic

/-!
File paths as lists of names. Empty names and single dots are dropped when a path is read; two dots
stay, since what they lead to is only known once the path is resolved.
-/

namespace Excerpt

/-- The root of a relative path is empty. -/
structure FilePath where
  root : Text := []
  parts : List Text := []
deriving Repr, DecidableEq

namespace FilePath

def here : Text := ['.']

def up : Text := ['.', '.']

/-- The root that a path text begins with. Exactly two slashes are a root of their own. -/
def rootOf : Text → Text
  | '/' :: '/' :: '/' :: _ => ['/']
  | '/' :: '/' :: _ => ['/', '/']
  | '/' :: _ => ['/']
  | _ => []

def parse (s : Text) : FilePath where
  root := rootOf s
  parts := (Text.pieces (· == '/') s).filter fun part => !part.isEmpty && part != here

/-- The text of a path. A path without names is written as its root or as a dot. -/
def text (p : FilePath) : Text :=
  if p.parts = [] ∧ p.root = [] then here else p.root ++ Text.joinWith ['/'] p.parts

/-- The second path as seen from the first. -/
def join (p q : FilePath) : FilePath :=
  if q.root = [] then { p with parts := p.parts ++ q.parts } else q

def child (p : FilePath) (name : Text) : FilePath := { p with parts := p.parts ++ [name] }

/-- The path without its last name. -/
def parent (p : FilePath) : FilePath := { p with parts := p.parts.dropLast }

/-- Takes two dots for the way back to the directory before. -/
def followUps (parts : List Text) : List Text :=
  parts.foldl (fun above part => if part = up then above.dropLast else above ++ [part]) []

/-- The path as seen from a directory, free of two dots. -/
def resolve (directory p : FilePath) : FilePath :=
  let joined := directory.join p
  { joined with parts := followUps joined.parts }

/-- The path and all above it, the nearest first. -/
def ancestors (p : FilePath) : List FilePath :=
  ((List.range (p.parts.length + 1)).map fun n => { p with parts := p.parts.take n }).reverse

end FilePath
end Excerpt
