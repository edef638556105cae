import Excerpt.Unicode.Width
import Excerpt.Unicode.Printable
import Excerpt.Unicode.Digit
import Excerpt.Text.Wrap
import Excerpt.Style
import Excerpt.Style.Words
import Excerpt.Text.Utf8
import Excerpt.Diagnostic
import Excerpt.Config
import Excerpt.Layout.Groups
import Excerpt.Layout.Rungs
import Excerpt.Layout
import Excerpt.Drawing.Lines
import Excerpt.Rendering
import Excerpt.Number.Binary64
import Excerpt.Number.Numeral
import Excerpt.Number.Shortest
import Excerpt.Text.Quoted
import Excerpt.Calendar
import Excerpt.Value
import Excerpt.Json
import Excerpt.Printing
import Excerpt.Span.Given
import Excerpt.Config.Table
import Excerpt.Toml
import Excerpt.Config.File
import Excerpt.File.Tree
import Excerpt.Source.File
import Excerpt.Unicode.Alphanumeric
import Excerpt.Description
import Excerpt.CommandLine.Options
import Excerpt.CommandLine.Choices
import Excerpt.CommandLine.Run
import Excerpt.Main
import Excerpt.Proofs.Lines
import Excerpt.Proofs.Columns
import Excerpt.Proofs.Groups
import Excerpt.Proofs.Placement
import Excerpt.Proofs.Stacking
import Excerpt.Proofs.Layout
import Excerpt.Proofs.Schedule
import Excerpt.Proofs.Trace
import Excerpt.Proofs.Outcome
import Excerpt.Proofs.Cells
import Excerpt.Proofs.Glyphs
import Excerpt.Proofs.Underlines
import Excerpt.Proofs.Life
import Excerpt.Proofs.Connectors
import Excerpt.Proofs.Leaders
import Excerpt.Proofs.Coverage
import Excerpt.Proofs.Passages
import Excerpt.Proofs.Script
import Excerpt.Proofs.Texts
import Excerpt.Proofs.Modes
import Excerpt.Proofs.Characters
import Excerpt.Proofs.Fitting
import Excerpt.Proofs.Trimming
import Excerpt.Proofs.LaidOut
import Excerpt.Proofs.Alike
import Excerpt.Proofs.Positions
import Excerpt.Proofs.Reordering
import Excerpt.Proofs.Escapes
import Excerpt.Proofs.Recoloring
import Excerpt.Proofs.Printed
import Excerpt.Proofs.Described
import Excerpt.Proofs.Invocations
import Excerpt.Proofs.Reports
import Excerpt.Proofs.Batches
import Excerpt.Proofs.LineEnds
import Excerpt.Proofs.FileOffsets
import Excerpt.Proofs.Snapping
import Excerpt.Proofs.Erasure
import Excerpt.Proofs.Rungs
import Excerpt.Proofs.RungCount
import Excerpt.Proofs.Slots
import Excerpt.Proofs.InnerFirst
import Excerpt.Proofs.Stretches
import Excerpt.Proofs.Locations
import Excerpt.Proofs.Resolving
import Excerpt.Proofs.Wrapping
import Excerpt.Proofs.Uncut
import Excerpt.Proofs.Shortening
import Excerpt.Proofs.Breaks
import Excerpt.Proofs.TextColumns
import Excerpt.Proofs.LineByLine
import Excerpt.Proofs.RowCount
import Excerpt.Proofs.Tiling
import Excerpt.Proofs.SpanText
import Excerpt.Proofs.Dedenting
import Excerpt.Proofs.Measuring
import Excerpt.Proofs.StyleWords
import Excerpt.Proofs.UnknownKeys
import Excerpt.Proofs.Tables
