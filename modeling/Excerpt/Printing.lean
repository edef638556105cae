import Excerpt.Rendering

/-!
Writing diagnostics to text streams. A diagnostic is rendered first and written in one piece, so a
failed rendering writes nothing. With colors disabled every escape sequence that sets attributes
or moves the cursor is removed on the way, whatever text it stands in.
-/

namespace Excerpt

namespace Escape

def isParameter (c : Char) : Bool := c == ';' || c == '?' || ('0' ≤ c && c ≤ '9')

def isFinal (c : Char) : Bool := ('a' ≤ c && c ≤ 'z') || ('A' ≤ c && c ≤ 'Z')

/-- What follows an escape sequence whose introducer has been read. -/
def after? (s : Text) : Option Text :=
  match s.dropWhile isParameter with
  | [] => none
  | c :: rest => if isFinal c then some rest else none

theorem length_lt_of_after? {s rest : Text} (h : after? s = some rest) :
    rest.length < s.length := by
  unfold after? at h
  split at h
  · contradiction
  next c tail hdrop =>
    split at h
    · cases h
      have := (List.dropWhile_suffix isParameter (l := s)).length_le
      simp only [hdrop, List.length_cons] at this
      omega
    · contradiction

/-- The text without its escape sequences, found from left to right. -/
def remove : Text → Text
  | [] => []
  | [c] => [c]
  | c :: d :: rest =>
    if c = Style.escapeChar ∧ d = '[' then
      match _h : after? rest with
      | some tail => remove tail
      | none => c :: remove (d :: rest)
    else c :: remove (d :: rest)
termination_by s => s.length
decreasing_by
  · have := length_lt_of_after? _h
    simp only [List.length_cons]
    omega
  · simp
  · simp

end Escape

/-- A text stream: what it has taken so far, and why it takes nothing, if it does not. -/
structure TextStream where
  written : Text := []
  refusal : Option String := none
deriving Repr, DecidableEq

def TextStream.write (stream : TextStream) (text : Text) : Except String TextStream :=
  match stream.refusal with
  | some reason => .error reason
  | none => .ok { stream with written := stream.written ++ text }

inductive PrintError where
  | render (e : RenderError)
  | refused (reason : String)
deriving Repr, DecidableEq

def PrintError.message : PrintError → String
  | .render e => e.message
  | .refused reason => s!"failed to write diagnostic: {reason}"

def writtenForm (colorEnabled : Bool) (text : Text) : Text :=
  if colorEnabled then text else Escape.remove text

namespace Diagnostic

def print [Platform] (w : CellWidth) (config : Config) (mode : Mode) (diagnostic : Diagnostic)
    (stream : TextStream) : Except PrintError TextStream := do
  let text ← (diagnostic.render w config mode).mapError .render
  (stream.write (writtenForm config.colorEnabled text)).mapError .refused

end Diagnostic

/-- The mode that a configuration asks for. -/
def Config.mode (config : Config) : Mode := if config.compactByDefault then .compact else .expanded

/-- Prints in the mode that the configuration asks for. -/
def Diagnostic.emit [Platform] (w : CellWidth) (config : Config) (diagnostic : Diagnostic)
    (stream : TextStream) : Except PrintError TextStream :=
  diagnostic.print w config config.mode stream

end Excerpt
