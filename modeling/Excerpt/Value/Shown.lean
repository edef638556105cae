import Excerpt.Number.Numeral
import Excerpt.Number.Shortest
import Excerpt.Platform
import Excerpt.Value

/-!
The texts of values. A text stands for itself; inside a list or a table it is quoted. A text is made
from left to right, and not every value has one: a whole number may have too many digits, though
only one that is written in another base than ten gets that long, and values may lie too deep inside
one another. What is met first counts.
-/

namespace Excerpt.Value

/-- Why a value has no text. -/
inductive ShowError where
  | tooManyDigits
  | tooDeep
deriving Repr, DecidableEq

def ShowError.message : ShowError → String
  | .tooManyDigits => Numeral.tooLongMessage none
  | .tooDeep => "maximum recursion depth exceeded while getting the repr of an object"

/-- The least positive number with too many digits. -/
@[irreducible] def digitLimit : Nat := Binary64.tenTo Numeral.maxDigits

def wholeForm? (n : Int) : Except ShowError Text :=
  if digitLimit ≤ n.natAbs then .error .tooManyDigits else .ok (toString n).toList

mutual

/-- How many values lie inside one another, the outermost counted. -/
def depth : Value → Nat
  | timestamp t => t.formDepth
  | list items => depthOfItems items + 1
  | table entries => depthOfEntries entries + 1
  | _ => 1

def depthOfItems : List Value → Nat
  | [] => 0
  | v :: rest => max (depth v) (depthOfItems rest)

def depthOfEntries : List (Text × Value) → Nat
  | [] => 0
  | entry :: rest => max (depthOfEntry entry) (depthOfEntries rest)

def depthOfEntry : Text × Value → Nat
  | (_, v) => depth v

end

mutual

/-- The value with every text in it quoted, where there is room for `room` values inside one
another. -/
def form? [Halves] (room : Nat) (v : Value) : Except ShowError Text :=
  match room, v with
  | 0, _ => .error .tooDeep
  | _ + 1, null => .ok "None".toList
  | _ + 1, bool b => .ok (if b then "True" else "False").toList
  | _ + 1, int n => wholeForm? n
  | _ + 1, float x => .ok x.text
  | _ + 1, text s => .ok (Halves.quoted s)
  | _ + 1, date d => .ok d.form.toList
  | _ + 1, time t => .ok t.form.toList
  | room + 1, timestamp t =>
    if room + 1 < t.formDepth then .error .tooDeep else .ok t.form.toList
  | room + 1, list items =>
    (forms? room items).map fun texts => '[' :: Text.joinWith [',', ' '] texts ++ [']']
  | room + 1, table entries =>
    (entryForms? room entries).map fun texts => '{' :: Text.joinWith [',', ' '] texts ++ ['}']

def forms? [Halves] (room : Nat) : List Value → Except ShowError (List Text)
  | [] => .ok []
  | v :: rest => do
    let text ← form? room v
    return text :: (← forms? room rest)

def entryForms? [Halves] (room : Nat) : List (Text × Value) → Except ShowError (List Text)
  | [] => .ok []
  | entry :: rest => do
    let text ← entryForm? room entry
    return text :: (← entryForms? room rest)

def entryForm? [Halves] (room : Nat) : Text × Value → Except ShowError Text
  | (key, v) => (form? room v).map fun text => Halves.quoted key ++ [':', ' '] ++ text

end

/-- The text that a value stands for where it is put to a use. -/
def shown? [Platform] (use : TextUse) : Value → Except ShowError Text
  | text s => .ok s
  | date d => .ok d.text.toList
  | time t => .ok t.text.toList
  | timestamp t => .ok t.text.toList
  | v => form? (Platform.textDepth use) v

end Excerpt.Value
