import Excerpt.Drawing.Lines
import Excerpt.Row.Fit

/-!
A diagnostic as rows and as text. Expanded and compact rendering share the layout and differ in
what surrounds the excerpt; both are then fitted to the width limit, painted and joined.
-/

namespace Excerpt

namespace Rendering

/-- A row within the width limit, if there is one. -/
def fitted (w : CellWidth) (config : Config) (row : Row) : Row :=
  match config.limit with
  | none => row
  | some limit => row.fit w limit config.charset.ellipsis

/-- Texts on lines of their own. -/
def lines (texts : List Text) : Text := Text.joinWith ['\n'] texts ++ ['\n']

/-- The text of rows, each fitted to the width limit and painted, on lines of their own. -/
def assemble (w : CellWidth) (config : Config) (rows : List Row) : Text :=
  lines (rows.map fun row => (fitted w config row).paint config.colorEnabled)

def titleRows (title : Text) : List Row :=
  title.lines.map fun line => ⟨.title, Segment.run line⟩

/-- What the header calls a source: its name, unless that is missing or empty. -/
def displayName (source : Source) : Text :=
  match source.name with
  | none | some [] => "unknown".toList
  | some name => name

def headerRow (config : Config) (mode : Mode) (layout : Layout) : Row :=
  let left := some config.styles.leftColumn
  let indent := match mode with
    | .expanded => Segment.pad (layout.numberWidth + 1)
    | .compact => []
  let close := match mode with
    | .expanded => [']']
    | .compact => [']', ':']
  ⟨.header, indent ++ Segment.run ['@'] left ++ Segment.pad 1 ++ Segment.run ['['] left ++
    Segment.run (displayName layout.source) (some config.styles.sourceName) ++
    Segment.run close left⟩

/-- The rows of one footnote, its further lines in line with the first. -/
def footnoteRows (w : CellWidth) (config : Config) (indent : Int) (footnote : Footnote) :
    List Row :=
  let marker := config.charset.footnote
  let first := Segment.pad indent ++
    Segment.run marker (some config.styles.footnoteIndicator) ++ Segment.pad 1
  match footnote.text.lines with
  | [] => []
  | line :: rest =>
    Row.trimmed ⟨.footnote, first ++ Segment.run line footnote.style⟩ :: rest.map fun line =>
      Row.trimmed ⟨.footnote, Segment.pad (indent + marker.width w + 1) ++
        Segment.run line footnote.style⟩

/-- Title, blank row, header and excerpt, then a blank row and the footnotes if there are any. -/
def expandedRows [Platform] (w : CellWidth) (config : Config) (diagnostic : Diagnostic) :
    Except RenderError (List Row) := do
  let layout ← Layout.build w config diagnostic
  let drawn ← Canvas.draw ⟨w, config, layout⟩ .expanded
  let footnotes := diagnostic.footnotes.flatMap
    (footnoteRows w config (layout.numberWidth + 1))
  return titleRows layout.title ++ [⟨.blank, []⟩, headerRow config .expanded layout] ++
    drawn.rows ++ (if diagnostic.footnotes = [] then [] else ⟨.blank, []⟩ :: footnotes)

/-- Title, header, excerpt, the list of deferred texts, footnotes. -/
def compactRows [Platform] (w : CellWidth) (config : Config) (diagnostic : Diagnostic) :
    Except RenderError (List Row) := do
  let layout ← Layout.build w config diagnostic
  let canvas : Canvas := ⟨w, config, layout⟩
  let drawn ← canvas.draw .compact
  return titleRows layout.title ++ [headerRow config .compact layout] ++ drawn.rows ++
    canvas.items drawn.deferred ++ diagnostic.footnotes.flatMap (footnoteRows w config 0)

def rows [Platform] (w : CellWidth) (config : Config) (mode : Mode) (diagnostic : Diagnostic) :
    Except RenderError (List Row) :=
  match mode with
  | .expanded => expandedRows w config diagnostic
  | .compact => compactRows w config diagnostic

end Rendering

/-- The text of a diagnostic. -/
def Diagnostic.render [Platform] (w : CellWidth) (config : Config) (mode : Mode)
    (diagnostic : Diagnostic) : Except RenderError Text :=
  (Rendering.rows w config mode diagnostic).map (Rendering.assemble w config)

end Excerpt
