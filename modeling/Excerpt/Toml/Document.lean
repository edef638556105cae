import Excerpt.Text.Quoted
import Excerpt.Value

/-!
The tables of a TOML document while it is being read. Three rules keep a document unambiguous: a
value is never replaced, a table is declared at most once, and a value that was written in one
piece, in braces or brackets, is never added to.
-/

namespace Excerpt.Toml

abbrev Entries := List (Text × Value)

/-- A key of one or more parts, as it is written with dots between them. -/
abbrev Path := List Text

/-- A statement that the rest of the document rules out. -/
inductive Conflict where
  | overwrites
  | declaredTwice (path : Path)
  | immutable (path : Path)
  | redefines (path : Path)
  | duplicateKey (key : Text)
deriving Repr, DecidableEq

/-- A path as messages show it; a single part has a comma behind it. -/
def Path.form : Path → Text
  | [part] => '(' :: Quoted.encode part ++ [',', ')']
  | parts => '(' :: Text.joinWith [',', ' '] (parts.map Quoted.encode) ++ [')']

def Conflict.message : Conflict → Text
  | .overwrites => "Cannot overwrite a value".toList
  | .declaredTwice path => "Cannot declare ".toList ++ path.form ++ " twice".toList
  | .immutable path => "Cannot mutate immutable namespace ".toList ++ path.form
  | .redefines path => "Cannot redefine namespace ".toList ++ path.form
  | .duplicateKey key => "Duplicate inline table key ".toList ++ Quoted.encode key

/-- Replaces the table under a path by what `f` makes of it. Missing tables on the way are made; an
array of tables stands for its last one if `throughArrays` says so. -/
def updateTable (throughArrays : Bool) (f : Entries → Except Conflict Entries) :
    Path → Entries → Except Conflict Entries
  | [], table => f table
  | key :: path, table => do
    let put (v : Value) : Entries := Value.insert table key v
    match table.lookup key with
    | none => return put (.table (← updateTable throughArrays f path []))
    | some (.table inner) => return put (.table (← updateTable throughArrays f path inner))
    | some (.list items) =>
      match throughArrays, items.getLast? with
      | true, some (.table inner) =>
        return put (.list (items.dropLast ++ [.table (← updateTable throughArrays f path inner)]))
      | _, _ => throw .overwrites
    | some _ => throw .overwrites

/-- Whether a value is a table or a list, to which later statements might add. -/
def isContainer : Value → Bool
  | .table _ | .list _ => true
  | _ => false

/-- Whether a path leads into one of those that are closed. -/
def isFrozen (frozen : List Path) (path : Path) : Bool := frozen.any (·.isPrefixOf path)

/-- What has been read of a document: its tables, the table that new keys go to, the tables that
may not be declared any more, those that may not be once the next declaration comes, and the values
written in one piece. -/
structure Document where
  entries : Entries := []
  header : Path := []
  declared : List Path := []
  pending : List Path := []
  frozen : List Path := []

namespace Document

/-- Closes the tables that dotted keys have made since the last declaration. -/
def settle (d : Document) : Document :=
  { d with declared := d.pending ++ d.declared, pending := [] }

/-- Opens the table under a path, which is written in single brackets. -/
def declareTable (d : Document) (path : Path) : Except Conflict Document := do
  let d := d.settle
  if path ∈ d.declared ∨ isFrozen d.frozen path = true then
    throw (.declaredTwice path)
  let entries ← updateTable true .ok path d.entries
  return { d with entries, header := path, declared := path :: d.declared }

/-- Adds an empty table to the array under a key. -/
def appendTable (key : Text) (table : Entries) : Except Conflict Entries :=
  match table.lookup key with
  | none => .ok (Value.insert table key (.list [.table []]))
  | some (.list items) => .ok (Value.insert table key (.list (items ++ [.table []])))
  | some _ => .error .overwrites

/-- Opens a further table of the array under a path, which is written in double brackets. Nothing
is known of the tables below it any more. -/
def declareItem (d : Document) (parent : Path) (key : Text) : Except Conflict Document := do
  let d := d.settle
  let path := parent ++ [key]
  if isFrozen d.frozen path then
    throw (.immutable path)
  let outside (p : Path) : Bool := !path.isPrefixOf p
  let entries ← updateTable true (appendTable key) parent d.entries
  return { d with
    entries, header := path
    declared := path :: d.declared.filter outside
    frozen := d.frozen.filter outside }

/-- The tables that a dotted key goes through below the current one. -/
def tablesOn (header parent : Path) : List Path :=
  (List.range parent.length).map fun n => header ++ parent.take (n + 1)

/-- Puts a value under a key that is not there yet. -/
def addEntry (key : Text) (v : Value) (table : Entries) : Except Conflict Entries :=
  match table.lookup key with
  | none => .ok (Value.insert table key v)
  | some _ => .error .overwrites

/-- Puts a value under a dotted key of the current table. -/
def assign (d : Document) (parent : Path) (key : Text) (v : Value) : Except Conflict Document := do
  let tables := tablesOn d.header parent
  if let some path := tables.find? (· ∈ d.declared) then
    throw (.redefines path)
  let path := d.header ++ parent
  if isFrozen d.frozen path then
    throw (.immutable path)
  let entries ← updateTable true (addEntry key v) path d.entries
  return { d with
    entries
    pending := tables ++ d.pending
    frozen := if isContainer v then (path ++ [key]) :: d.frozen else d.frozen }

end Document

/-- What has been read of a table in braces. -/
structure InlineTable where
  entries : Entries := []
  frozen : List Path := []

namespace InlineTable

def addEntry (key : Text) (v : Value) (table : Entries) : Except Conflict Entries :=
  match table.lookup key with
  | none => .ok (Value.insert table key v)
  | some _ => .error (.duplicateKey key)

def assign (t : InlineTable) (parent : Path) (key : Text) (v : Value) :
    Except Conflict InlineTable := do
  let path := parent ++ [key]
  if isFrozen t.frozen path then
    throw (.immutable path)
  let entries ← updateTable false (addEntry key v) parent t.entries
  return { entries, frozen := if isContainer v then path :: t.frozen else t.frozen }

end InlineTable
end Excerpt.Toml
