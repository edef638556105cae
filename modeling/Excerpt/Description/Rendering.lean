import Excerpt.Description
import Excerpt.Rendering

/-!
Described diagnostics as text. A source name that is no text is turned into one where it is painted
in a style, and nowhere else. Under a width limit it is measured first: the items of a list and the
keys of a table are taken for its characters, and a list is cut between its items.
-/

namespace Excerpt

/-- Why a described diagnostic is not rendered: for its own sake, or for the sake of its source
name. -/
inductive DescribedError where
  | render (e : RenderError)
  | unmeasured (typeName : String)
  | nestedItem (typeName : String)
  | itemNotText (typeName : String)
  | itemNotCharacter (length : Nat)
  | uncuttable
  | notText (position : Nat) (typeName : String)
  | unshown (e : Value.ShowError)
deriving Repr, DecidableEq

def DescribedError.message : DescribedError → String
  | .render e => e.message
  | .unmeasured typeName => notIterableMessage typeName
  | .nestedItem typeName => s!"unhashable type: '{typeName}'"
  | .itemNotText typeName => s!"ord() expected string of length 1, but {typeName} found"
  | .itemNotCharacter length => s!"ord() expected a character, but string of length {length} found"
  | .uncuttable => "unhashable type: 'slice'"
  | .notText position typeName =>
    s!"sequence item {position}: expected str instance, {typeName} found"
  | .unshown e => e.message

namespace Described

/-- The name that stands in the way of a text, if there is one: an empty or zero one does not. -/
def obstacle? (d : Described) : Option Value := d.oddName.filter Value.isSomething

/-- The diagnostic with its source called by a text. -/
def called (d : Described) (name : Text) : Diagnostic :=
  { d.diagnostic with source := d.diagnostic.source.map fun s => { s with name := some name } }

/-- Where the name stands among the segments of the header. -/
def namePosition : Mode → Nat
  | .expanded => 4
  | .compact => 3

/-- The character that takes no cells by itself. -/
def nothing : Char := Char.ofNat 0

/-- The character for which an item is measured. Items that are nothing, and those behind a joiner,
take no cells; another one has to be a character. -/
def standIn (previous : Option Char) : Value → Except DescribedError Char
  | .text [c] => .ok c
  | v@(.list _) | v@(.table _) => .error (.nestedItem v.typeName)
  | v =>
    if previous = some zeroWidthJoiner ∨ v.isSomething = false then .ok nothing
    else
      match v with
      | .text s => .error (.itemNotCharacter s.length)
      | v => .error (.itemNotText v.typeName)

def standIns (previous : Option Char) : List Value → Except DescribedError Text
  | [] => .ok []
  | v :: rest => do
    let c ← standIn previous v
    return c :: (← standIns (some c) rest)

/-- The text for which a name is measured. -/
def measuredAs : Value → Except DescribedError Text
  | .list items => standIns none items
  | .table entries => standIns none (entries.map fun entry => .text entry.1)
  | v => .error (.unmeasured v.typeName)

/-- What is left of a name in a row that is fitted to a width. -/
inductive Remainder where
  | whole
  | first (count : Nat)
  | hidden
deriving Repr, DecidableEq

/-- What is left of a name that is measured as a text and stands at a position of a row. -/
def remainder (w : CellWidth) (limit : Int) (ellipsis : Text) (row : Row) (position : Nat)
    (name : Text) : Remainder :=
  let before : Row := { row with segments := row.segments.take position }
  let room := max (limit - ellipsis.width w) 0 - before.width w
  if row.width w ≤ limit ∨ name.width w ≤ room then .whole
  else if room ≤ 0 then .hidden
  else
    let count := (cutToWidth w name room).length
    if count = name.length then .whole else .first count

/-- What a remainder of a name shows, if it shows anything. -/
def visible? (name : Value) : Remainder → Except DescribedError (Option Value)
  | .whole => .ok (some name)
  | .hidden => .ok none
  | .first count =>
    match name with
    | .list items => .ok (if count = 0 then none else some (.list (items.take count)))
    | _ => .error .uncuttable

/-- The row with another text at a position. -/
def withText (row : Row) (position : Nat) (text : Text) : Row :=
  { row with segments := row.segments.modify position fun seg => { seg with text } }

/-- A fitted header painted with what it shows of a name, at a position, that is no text. -/
def paintNamed [Platform] (config : Config) (position : Nat) (name : Value)
    (visible : Option Value) (fitted : Row) : Except DescribedError Text := do
  match visible with
  | none => return fitted.paint config.colorEnabled
  | some shown =>
    if config.colorEnabled && !config.styles.sourceName.isPlain then
      let text ← (shown.form? (Platform.textDepth .sourceName)).mapError .unshown
      return (withText fitted position text).paint true
    else
      throw (.notText position name.typeName)

/-- A header, fitted and painted, whose name at a position is no text. -/
def paintHeader [Platform] (w : CellWidth) (config : Config) (position : Nat) (name : Value)
    (row : Row) : Except DescribedError Text := do
  match config.limit with
  | none => paintNamed config position name (some name) row
  | some limit =>
    let stand ← measuredAs name
    let row := withText row position stand
    let rest := remainder w limit config.charset.ellipsis row position stand
    let visible ← visible? name rest
    paintNamed config position name visible (row.fit w limit config.charset.ellipsis)

/-- The text of a described diagnostic. Where its name stands there is the type of the name until
the header is painted. -/
def render [Platform] (w : CellWidth) (config : Config) (mode : Mode) (d : Described) :
    Except DescribedError Text :=
  match d.obstacle? with
  | none => (d.diagnostic.render w config mode).mapError .render
  | some name => do
    let rows ← (Rendering.rows w config mode (d.called name.typeName.toList)).mapError .render
    let texts ← rows.mapM fun row =>
      if row.kind = .header then paintHeader w config (namePosition mode) name row
      else pure ((Rendering.fitted w config row).paint config.colorEnabled)
    return Rendering.lines texts

end Described
end Excerpt
