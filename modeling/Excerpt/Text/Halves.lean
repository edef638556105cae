import Excerpt.Text.Quoted

/-!
Lone halves of surrogate pairs. `Char` has none, but a text that is read from a JSON document may
hold them, and only when it is written down are they in the way. Characters for private use stand
for them here. Which ones is left open, so that those can be taken which nothing else in a run makes
use of.
-/

namespace Excerpt

namespace Unicode

/-- The numbers that are set aside for halves of surrogate pairs. -/
def isSurrogate (n : Nat) : Bool := 0xD800 ≤ n && n < 0xE000

end Unicode

/-- The characters that stand for halves. -/
class Halves where
  char : Nat → Char
  number? : Char → Option Nat
  number?_char : ∀ n, Unicode.isSurrogate n = true → number? (char n) = some n
  of_number? : ∀ c n, number? c = some n → Unicode.isSurrogate n = true ∧ char n = c
  isPrivateUse_char : ∀ n, Unicode.isSurrogate n = true → Unicode.isPrivateUse (char n) = true

namespace Halves

variable [Halves]

def isHalf (c : Char) : Bool := (number? c).isSome

/-- The number of a character, or of the half that it stands for. -/
def number (c : Char) : Nat := (number? c).getD c.toNat

/-- The quoted form of a text, in which halves are escaped. -/
def quoted (s : Text) : Text := Quoted.encodeBy number s

/-- The text with its halves escaped. -/
def spelled (s : Text) : Text :=
  s.flatMap fun c =>
    match number? c with
    | some n => '\\' :: 'u' :: Quoted.hexDigits 4 n
    | none => [c]

theorem isPrivateUse_of_isHalf {c : Char} (h : isHalf c = true) :
    Unicode.isPrivateUse c = true := by
  obtain ⟨n, hn⟩ := Option.isSome_iff_exists.1 h
  obtain ⟨hsurrogate, rfl⟩ := of_number? c n hn
  exact isPrivateUse_char n hsurrogate

end Halves

/-- Why a text cannot be written down: the number of a half, where it stands, and where the last of
the halves stands that follow on it. -/
structure EncodeError where
  number : Nat
  first : Nat
  last : Nat
deriving Repr, DecidableEq

def EncodeError.message (e : EncodeError) : String :=
  let found := if e.first = e.last then
      " '\\u" ++ String.ofList (Quoted.hexDigits 4 e.number) ++ s!"' in position {e.first}"
    else s!"s in position {e.first}-{e.last}"
  "'utf-8' codec can't encode character" ++ found ++ ": surrogates not allowed"

namespace Halves

variable [Halves]

/-- What is wrong with a text that begins at a position and is to be written down. -/
def encodeErrorFrom? (spared : Nat → Bool) : (pos : Nat) → Text → Option EncodeError
  | _, [] => none
  | pos, c :: s =>
    match number? c with
    | none => encodeErrorFrom? spared (pos + 1) s
    | some n =>
      if spared n then encodeErrorFrom? spared (pos + 1) s
      else some ⟨n, pos, pos + (s.takeWhile isHalf).length⟩

/-- The text, if it can be written down. -/
def writable (s : Text) : Except EncodeError Text :=
  match encodeErrorFrom? (fun _ => false) 0 s with
  | none => .ok s
  | some e => .error e

/-- Halves that stand for single bytes in the names of files. -/
def isByte (n : Nat) : Bool := 0xDC80 ≤ n && n ≤ 0xDCFF

/-- What is wrong with a text as the path of a file. -/
def pathError? (path : Text) : Option EncodeError := encodeErrorFrom? isByte 0 path

end Halves
end Excerpt
