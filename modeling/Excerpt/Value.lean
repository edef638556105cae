import Excerpt.Calendar
import Excerpt.Number.Binary64
import Excerpt.Text.Basic

/-!
Values read from JSON and TOML files.
-/

namespace Excerpt

/-- A table keeps its entries in the order of the file. -/
inductive Value where
  | null
  | bool (b : Bool)
  | int (n : Int)
  | float (x : Binary64)
  | text (s : Text)
  | date (d : Date)
  | time (t : TimeOfDay)
  | timestamp (t : Timestamp)
  | list (items : List Value)
  | table (entries : List (Text × Value))
deriving Repr

namespace Value

def typeName : Value → String
  | null => "NoneType"
  | bool _ => "bool"
  | int _ => "int"
  | float _ => "float"
  | text _ => "str"
  | date _ => "date"
  | time _ => "time"
  | timestamp _ => "datetime"
  | list _ => "list"
  | table _ => "dict"

/-- The entry of a table under a key. -/
def lookup (entries : List (Text × Value)) (key : String) : Option Value :=
  entries.lookup key.toList

/-- Puts an entry into a table: in the place of the key if it is there, else at the end. -/
def insert (entries : List (Text × Value)) (key : Text) (v : Value) : List (Text × Value) :=
  if entries.any (·.1 == key) then entries.map fun e => if e.1 == key then (key, v) else e
  else entries ++ [(key, v)]

/-- Whether a value counts as something: not null, false, zero or empty. -/
def isSomething : Value → Bool
  | null => false
  | bool b => b
  | int n => n != 0
  | float x => !x.isZero
  | text s => !s.isEmpty
  | date _ | time _ | timestamp _ => true
  | list items => !items.isEmpty
  | table entries => !entries.isEmpty

end Value
end Excerpt
