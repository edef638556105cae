import Excerpt.Config
import Excerpt.Style.Words
import Excerpt.Value.Shown

/-!
Configurations from tables, as settings files hold them. Numbers and truth values are looked at
first, in a fixed order, then the charset, then the styles in the order of the file, and last
whether the numbers are in range. Keys that name no setting are skipped.
-/

namespace Excerpt

/-- The parts of an excerpt that have a style by default. -/
inductive StyleSlot where
  | sourceName | source | leftColumn | multilineIndicator | singlelineIndicator | footnoteIndicator
deriving Repr, DecidableEq

namespace StyleSlot

def all : List StyleSlot :=
  [sourceName, source, leftColumn, multilineIndicator, singlelineIndicator, footnoteIndicator]

/-- The key of the slot in a settings file. -/
def key : StyleSlot → String
  | sourceName => "source_name"
  | source => "source"
  | leftColumn => "left_column"
  | multilineIndicator => "multiline_indicator"
  | singlelineIndicator => "singleline_indicator"
  | footnoteIndicator => "footnote_indicator"

def ofKey? (s : Text) : Option StyleSlot := all.find? (·.key.toList == s)

end StyleSlot

namespace StyleSet

def get (styles : StyleSet) : StyleSlot → Style
  | .sourceName => styles.sourceName
  | .source => styles.source
  | .leftColumn => styles.leftColumn
  | .multilineIndicator => styles.multilineIndicator
  | .singlelineIndicator => styles.singlelineIndicator
  | .footnoteIndicator => styles.footnoteIndicator

def set (styles : StyleSet) (slot : StyleSlot) (style : Style) : StyleSet :=
  match slot with
  | .sourceName => { styles with sourceName := style }
  | .source => { styles with source := style }
  | .leftColumn => { styles with leftColumn := style }
  | .multilineIndicator => { styles with multilineIndicator := style }
  | .singlelineIndicator => { styles with singlelineIndicator := style }
  | .footnoteIndicator => { styles with footnoteIndicator := style }

theorem get_set_self (styles : StyleSet) (slot : StyleSlot) (style : Style) :
    (styles.set slot style).get slot = style := by cases slot <;> rfl

theorem get_set_of_ne (styles : StyleSet) {slot other : StyleSlot} (style : Style)
    (h : other ≠ slot) : (styles.set slot style).get other = styles.get other := by
  cases slot <;> cases other <;> first | rfl | exact absurd rfl h

end StyleSet

/-- A setting that is a whole number or a truth value, and how it is put among the others. -/
inductive ScalarSetting where
  | number (key : String) (set : Settings → Int → Settings)
  | truth (key : String) (set : Settings → Bool → Settings)

/-- The scalar settings in the order in which they are looked at. -/
def ScalarSetting.all : List ScalarSetting :=
  [.truth "color_enabled" fun s b => { s with colorEnabled := b },
    .number "context_lines" fun s n => { s with contextLines := .number n },
    .number "tab_width" fun s n => { s with tabWidth := .number n },
    .number "max_width" fun s n => { s with maxWidth := some (.number n) },
    .truth "compact_by_default" fun s b => { s with compactByDefault := b },
    .number "merge_gap" fun s n => { s with mergeGap := .number n },
    .truth "trim_indent" fun s b => { s with trimIndent := b }]

/-- Why a table gives no configuration. The last one says that a value has no text with which it
could be told what is wrong. -/
inductive TableError where
  | renderNotTable
  | notInteger (key : String)
  | notTruth (key : String)
  | unknownCharset (found : Text)
  | stylesNotTable
  | badStyle (slot : StyleSlot) (e : Style.UnknownWord)
  | styleTooLong (slot : StyleSlot)
  | outOfRange (e : RangeError)
  | unshown (e : Value.ShowError)
deriving Repr

def TableError.message : TableError → String
  | .renderNotTable => "[render] must be a table"
  | .notInteger key => s!"render.{key} must be an integer"
  | .notTruth key => s!"render.{key} must be true or false"
  | .unknownCharset found =>
    "render.charset must be 'unicode' or 'ascii', not " ++ String.ofList found
  | .stylesNotTable => "[render.styles] must be a table"
  | .badStyle slot e => s!"render.styles.{slot.key}: " ++ e.message
  | .styleTooLong slot => s!"render.styles.{slot.key}: " ++ Value.ShowError.tooManyDigits.message
  | .outOfRange e => e.message
  | .unshown e => e.message

namespace Settings

/-- Takes over a scalar setting if the table has it. A truth value is no number here. -/
def readScalar (render : List (Text × Value)) (s : Settings) :
    ScalarSetting → Except TableError Settings
  | .number key set =>
    match Value.lookup render key with
    | none => .ok s
    | some (.int n) => .ok (set s n)
    | some _ => .error (.notInteger key)
  | .truth key set =>
    match Value.lookup render key with
    | none => .ok s
    | some (.bool b) => .ok (set s b)
    | some _ => .error (.notTruth key)

def refuseCharset [Platform] (v : Value) : Except TableError Settings :=
  match v.form? (Platform.textDepth .charset) with
  | .ok found => .error (.unknownCharset found)
  | .error e => .error (.unshown e)

def readCharset [Platform] (render : List (Text × Value)) (s : Settings) :
    Except TableError Settings :=
  match Value.lookup render "charset" with
  | none => .ok s
  | some (.text name) =>
    if name = "unicode".toList then .ok s
    else if name = "ascii".toList then .ok { s with charset := .ascii }
    else refuseCharset (.text name)
  | some v => refuseCharset v

/-- Takes over one style. Whatever value stands for it is read as words. -/
def readStyle [Platform] (s : Settings) (entry : Text × Value) : Except TableError Settings :=
  match StyleSlot.ofKey? entry.1 with
  | none => .ok s
  | some slot =>
    match entry.2.shown? .defaultStyle with
    | .error .tooManyDigits => .error (.styleTooLong slot)
    | .error .tooDeep => .error (.unshown .tooDeep)
    | .ok words =>
      match Style.parse words with
      | .ok style => .ok { s with styles := s.styles.set slot style }
      | .error e => .error (.badStyle slot e)

def readStyles [Platform] (render : List (Text × Value)) (s : Settings) :
    Except TableError Settings :=
  match Value.lookup render "styles" with
  | none => .ok s
  | some (.table entries) => entries.foldlM readStyle s
  | some _ => .error .stylesNotTable

/-- The settings in the `render` table of a file, defaults where it says nothing. -/
def ofTable [Platform] (entries : List (Text × Value)) : Except TableError Settings :=
  match Value.lookup entries "render" with
  | none => .ok {}
  | some (.table render) => do
    let s ← ScalarSetting.all.foldlM (readScalar render) {}
    let s ← s.readCharset render
    s.readStyles render
  | some _ => .error .renderNotTable

end Settings

def Config.ofTable [Platform] (entries : List (Text × Value)) : Except TableError Config := do
  let s ← Settings.ofTable entries
  s.check.mapError .outOfRange

end Excerpt
