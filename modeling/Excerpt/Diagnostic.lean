import Excerpt.Source

/-!
Diagnostics: a title, a source, labels that point into the source, and footnotes.
-/

namespace Excerpt

/-- Points to a span of the source. A label without a style takes the one of its kind. -/
structure Label where
  span : Span
  text : Option Text := none
  style : Option Style := none
deriving Repr, DecidableEq

/-- The text of a label, empty when it has none. -/
def Label.message (label : Label) : Text := label.text.getD []

/-- A text shown after the excerpt. -/
structure Footnote where
  text : Text
  style : Option Style := none
deriving Repr, DecidableEq

structure Diagnostic where
  title : Text
  source : Option Source := none
  labels : List Label := []
  footnotes : List Footnote := []
deriving Repr, DecidableEq

namespace Diagnostic

def withSource (d : Diagnostic) (source : Source) : Diagnostic := { d with source := some source }

def addLabel (d : Diagnostic) (label : Label) : Diagnostic :=
  { d with labels := d.labels ++ [label] }

/-- Puts `labels` in place of the labels that were there. -/
def withLabels (d : Diagnostic) (labels : List Label) : Diagnostic := { d with labels := labels }

def addFootnote (d : Diagnostic) (footnote : Footnote) : Diagnostic :=
  { d with footnotes := d.footnotes ++ [footnote] }

end Diagnostic
end Excerpt
