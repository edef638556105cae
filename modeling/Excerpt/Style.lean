import Excerpt.Text.Basic

/-!
Terminal styles: an optional foreground color and four modifiers. Styles are combined with the
right-hand color winning and modifiers adding up, read from words, and written as escape sequences
around a text.
-/

namespace Excerpt

inductive Color where
  | black | red | green | yellow | blue | magenta | cyan | white
  | brightBlack | brightRed | brightGreen | brightYellow
  | brightBlue | brightMagenta | brightCyan | brightWhite
deriving Repr, DecidableEq

namespace Color

def all : List Color :=
  [black, red, green, yellow, blue, magenta, cyan, white, brightBlack, brightRed, brightGreen,
    brightYellow, brightBlue, brightMagenta, brightCyan, brightWhite]

def name : Color → String
  | black => "black"
  | red => "red"
  | green => "green"
  | yellow => "yellow"
  | blue => "blue"
  | magenta => "magenta"
  | cyan => "cyan"
  | white => "white"
  | brightBlack => "bright_black"
  | brightRed => "bright_red"
  | brightGreen => "bright_green"
  | brightYellow => "bright_yellow"
  | brightBlue => "bright_blue"
  | brightMagenta => "bright_magenta"
  | brightCyan => "bright_cyan"
  | brightWhite => "bright_white"

/-- The number that selects the color as foreground. -/
def code : Color → Nat
  | black => 30
  | red => 31
  | green => 32
  | yellow => 33
  | blue => 34
  | magenta => 35
  | cyan => 36
  | white => 37
  | brightBlack => 90
  | brightRed => 91
  | brightGreen => 92
  | brightYellow => 93
  | brightBlue => 94
  | brightMagenta => 95
  | brightCyan => 96
  | brightWhite => 97

end Color

inductive Modifier where
  | bold | dim | italic | underline
deriving Repr, DecidableEq

namespace Modifier

/-- All modifiers in the order in which they are written. -/
def all : List Modifier := [bold, dim, italic, underline]

def name : Modifier → String
  | bold => "bold"
  | dim => "dim"
  | italic => "italic"
  | underline => "underline"

def code : Modifier → Nat
  | bold => 1
  | dim => 2
  | italic => 3
  | underline => 4

end Modifier

structure Style where
  color : Option Color := none
  bold : Bool := false
  dim : Bool := false
  italic : Bool := false
  underline : Bool := false
deriving Repr, DecidableEq

namespace Style

def plain : Style := {}

def has (s : Style) : Modifier → Bool
  | .bold => s.bold
  | .dim => s.dim
  | .italic => s.italic
  | .underline => s.underline

def withColor (s : Style) (c : Color) : Style := { s with color := some c }

def withModifier (s : Style) : Modifier → Style
  | .bold => { s with bold := true }
  | .dim => { s with dim := true }
  | .italic => { s with italic := true }
  | .underline => { s with underline := true }

/-- `a` with `b` laid over it. -/
def overlay (a b : Style) : Style where
  color := b.color.or a.color
  bold := a.bold || b.bold
  dim := a.dim || b.dim
  italic := a.italic || b.italic
  underline := a.underline || b.underline

instance : OrOp Style := ⟨overlay⟩

def isPlain (s : Style) : Bool := s == plain

/-- The numbers of an escape sequence that turns the style on. -/
def codes (s : Style) : List Nat :=
  ((Modifier.all.filter s.has).map Modifier.code) ++ (s.color.map Color.code).toList

def escapeChar : Char := Char.ofNat 0x1B

/-- The escape sequence that sets the numbered attributes. -/
def escape (codes : List Nat) : Text :=
  escapeChar :: '[' :: Text.joinWith [';'] (codes.map fun n => (toString n).toList) ++ ['m']

/-- The escape sequence that turns the style on, empty for the plain style. -/
def start (s : Style) : Text :=
  match s.codes with
  | [] => []
  | codes => escape codes

/-- The escape sequence that turns every style off. -/
def reset : Text := escape [0]

/-- The text between the sequences that turn the style on and off. Nothing is written around an
empty text, for the plain style, or with colors disabled. -/
def paint (s : Style) (enabled : Bool) (text : Text) : Text :=
  if !enabled || text.isEmpty || s.isPlain then text else s.start ++ text ++ reset

/-- The words that give the style back: the color, then the modifiers. -/
def wordsOf (s : Style) : List String :=
  (s.color.map Color.name).toList ++ ((Modifier.all.filter s.has).map Modifier.name)

end Style
end Excerpt
