import Excerpt.Style

/-!
Styles read from words such as `bright_blue bold`. Blanks and commas separate the words, letter
case does not matter, and the first word that names neither a color nor a modifier is an error.
-/

namespace Excerpt.Style

/-- A letter in lower case; the Kelvin sign is a capital k. -/
def lowerLetter (c : Char) : Char :=
  if c.toNat = 0x212A then 'k' else c.toLower

/-- A letter in upper case; the dotless i and the long s are small letters of I and S. -/
def upperLetter (c : Char) : Char :=
  if c.toNat = 0x131 then 'I' else if c.toNat = 0x17F then 'S' else c.toUpper

inductive Attribute where
  | color (c : Color)
  | modifier (m : Modifier)
deriving Repr, DecidableEq

def withAttribute (s : Style) : Attribute → Style
  | .color c => s.withColor c
  | .modifier m => s.withModifier m

/-- A modifier is named in lower case. A color is found after going on to upper case, so letters
that have a plain capital count as it. -/
def attribute? (word : Text) : Option Attribute :=
  let key := word.map lowerLetter
  match Modifier.all.find? (·.name.toList == key) with
  | some m => some (.modifier m)
  | none =>
    (Color.all.find? fun c => c.name.toList.map upperLetter == key.map upperLetter).map .color

/-- The words of a style, between blanks and commas. -/
def styleWords (s : Text) : List Text :=
  Text.words (s.map fun c => if c = ',' then ' ' else c)

structure UnknownWord where
  word : Text
deriving Repr, DecidableEq

def UnknownWord.message (e : UnknownWord) : String :=
  s!"unknown style attribute '{String.ofList e.word}'"

/-- Adds the words to a style from left to right. -/
def addWords (s : Style) : List Text → Except UnknownWord Style
  | [] => .ok s
  | word :: rest =>
    match attribute? word with
    | none => .error ⟨word⟩
    | some a => addWords (s.withAttribute a) rest

def parse (s : Text) : Except UnknownWord Style := addWords plain (styleWords s)

end Excerpt.Style
