import Excerpt.Text.Halves

/-!
What the program finds on the platform that it runs on: how long a text may be, and how deep values
may lie inside one another where they are read and where their texts are made. The depths come from
the room that is left on a stack, so they are not the same at all places of the program.
-/

namespace Excerpt

/-- What the text of a value is made for. -/
inductive TextUse where
  | charset | defaultStyle | title | labelText | footnoteText | style | sourceName
deriving Repr, DecidableEq

/-- The greatest index. -/
def maxIndex : Int := 9223372036854775807

class Platform extends Halves where
  /-- The number of characters for which there is memory. -/
  maxLength : Int
  maxLength_le : maxLength ≤ maxIndex
  /-- How many lists and tables may lie inside one another in a JSON document. -/
  jsonDepth : Nat
  /-- The room for values inside one another in a TOML document. -/
  tomlRoom : Nat
  /-- How many values may lie inside one another where the text of the outermost is made. -/
  textDepth : TextUse → Nat

theorem Halves.toNat_ofLastPlane {n : Nat} (h : Unicode.isSurrogate n = true) :
    (Char.ofNat (n + 0x101800)).toNat = n + 0x101800 := by
  simp only [Unicode.isSurrogate, Bool.and_eq_true, decide_eq_true_eq] at h
  have hvalid : (n + 0x101800).isValidChar := .inr ⟨by omega, by omega⟩
  rw [Char.ofNat, dif_pos hvalid]
  rfl

/-- Characters of the last plane for the halves. -/
@[reducible] def Halves.ofLastPlane : Halves where
  char n := Char.ofNat (n + 0x101800)
  number? c :=
    if 0x10F000 ≤ c.toNat ∧ c.toNat < 0x10F800 then some (c.toNat - 0x101800) else none
  number?_char n h := by
    rw [toNat_ofLastPlane h]
    simp only [Unicode.isSurrogate, Bool.and_eq_true, decide_eq_true_eq] at h
    rw [if_pos (by omega), Nat.add_sub_cancel]
  of_number? c n h := by
    split at h
    next hrange =>
      obtain rfl := Option.some.inj h
      rw [Nat.sub_add_cancel (by omega), Char.ofNat_toNat]
      simp only [Unicode.isSurrogate, Bool.and_eq_true, decide_eq_true_eq, and_true]
      omega
    · cases h
  isPrivateUse_char n h := by
    rw [Unicode.isPrivateUse, toNat_ofLastPlane h, decide_eq_true_eq]
    exact Nat.le_add_left_of_le (by decide)

/-- A platform with memory for four thousand million characters and a stack of a thousand calls. -/
@[reducible] def Platform.usual : Platform where
  toHalves := .ofLastPlane
  maxLength := 4294967296
  maxLength_le := by decide
  jsonDepth := 990
  tomlRoom := 984
  textDepth _ := 985

end Excerpt
