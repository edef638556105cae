import Excerpt.Text.Basic

/-!
The UTF-8 form of a text. Encoding is character by character. Decoding goes byte by byte and, on
bad input, names the bytes from the start of the sequence that could not be finished up to the
first byte that does not belong to it.
-/

namespace Excerpt

abbrev Bytes := List UInt8

namespace Utf8

def encodeChar (c : Char) : Bytes :=
  let n := c.toNat
  let continuation (k : Nat) : UInt8 := UInt8.ofNat (0x80 + k % 0x40)
  if n < 0x80 then [UInt8.ofNat n]
  else if n < 0x800 then [UInt8.ofNat (0xC0 + n / 0x40), continuation n]
  else if n < 0x10000 then
    [UInt8.ofNat (0xE0 + n / 0x1000), continuation (n / 0x40), continuation n]
  else
    [UInt8.ofNat (0xF0 + n / 0x40000), continuation (n / 0x1000), continuation (n / 0x40),
      continuation n]

def encode (s : Text) : Bytes := s.flatMap encodeChar

/-- Whether a byte continues a character that began before it. -/
def isContinuation (b : UInt8) : Bool := b.toNat / 0x40 == 2

/-- A character whose bytes are still being read: where its first byte stands, how many bytes it
lacks, between which values the next one must lie, and the number read so far. -/
structure Pending where
  start : Nat
  first : UInt8
  missing : Nat
  low : Nat := 0x80
  high : Nat := 0xBF
  code : Nat
deriving Repr, DecidableEq

/-- What a first byte announces. The narrower bounds of some second bytes keep out overlong forms,
surrogates and numbers beyond the last character. -/
def open? (start : Nat) (b : UInt8) : Option Pending :=
  let n := b.toNat
  if n < 0x80 then some ⟨start, b, 0, 0x80, 0xBF, n⟩
  else if n < 0xC2 then none
  else if n < 0xE0 then some ⟨start, b, 1, 0x80, 0xBF, n - 0xC0⟩
  else if n < 0xF0 then
    some ⟨start, b, 2, if n = 0xE0 then 0xA0 else 0x80, if n = 0xED then 0x9F else 0xBF, n - 0xE0⟩
  else if n < 0xF5 then
    some ⟨start, b, 3, if n = 0xF0 then 0x90 else 0x80, if n = 0xF4 then 0x8F else 0xBF, n - 0xF0⟩
  else none

inductive Reason where
  | invalidStart
  | invalidContinuation
  | unexpectedEnd
deriving Repr, DecidableEq

/-- The bytes from `start` up to, but not including, `stop` are no character. -/
structure DecodeError where
  start : Nat
  stop : Nat
  first : UInt8
  reason : Reason
deriving Repr, DecidableEq

def Pending.fail (p : Pending) (stop : Nat) (reason : Reason) : DecodeError :=
  ⟨p.start, stop, p.first, reason⟩

/-- Decodes the bytes from position `pos` on, `pending` being the character begun before it. -/
def decodeFrom (pos : Nat) : Option Pending → Bytes → Except DecodeError Text
  | none, [] => .ok []
  | some p, [] => .error (p.fail pos .unexpectedEnd)
  | none, b :: rest =>
    match open? pos b with
    | none => .error ⟨pos, pos + 1, b, .invalidStart⟩
    | some p =>
      if p.missing = 0 then (decodeFrom (pos + 1) none rest).map (Char.ofNat p.code :: ·)
      else decodeFrom (pos + 1) (some p) rest
  | some p, b :: rest =>
    if p.low ≤ b.toNat ∧ b.toNat ≤ p.high then
      let code := p.code * 0x40 + b.toNat % 0x40
      if p.missing = 1 then (decodeFrom (pos + 1) none rest).map (Char.ofNat code :: ·)
      else decodeFrom (pos + 1) (some ⟨p.start, p.first, p.missing - 1, 0x80, 0xBF, code⟩) rest
    else .error (p.fail pos .invalidContinuation)

def decode (data : Bytes) : Except DecodeError Text := decodeFrom 0 none data

def Reason.message : Reason → String
  | .invalidStart => "invalid start byte"
  | .invalidContinuation => "invalid continuation byte"
  | .unexpectedEnd => "unexpected end of data"

def hexDigit (n : Nat) : Char := Nat.digitChar (n % 16)

def hexByte (b : UInt8) : String := String.ofList [hexDigit (b.toNat / 16), hexDigit b.toNat]

/-- A single bad byte is shown, a longer run is given by its ends. -/
def DecodeError.message (e : DecodeError) : String :=
  if e.stop ≤ e.start + 1 then
    s!"'utf-8' codec can't decode byte 0x{hexByte e.first} in position {e.start}: " ++
      e.reason.message
  else
    s!"'utf-8' codec can't decode bytes in position {e.start}-{e.stop - 1}: " ++ e.reason.message

@[simp] theorem encode_nil : encode [] = [] := rfl

@[simp] theorem encode_cons (c : Char) (s : Text) : encode (c :: s) = encodeChar c ++ encode s := by
  simp [encode]

@[simp] theorem encode_append (s t : Text) : encode (s ++ t) = encode s ++ encode t := by
  simp [encode]

end Utf8
end Excerpt
