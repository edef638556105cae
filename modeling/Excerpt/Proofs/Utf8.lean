import Excerpt.Text.Utf8

/-!
Decoding undoes encoding, and the bytes of a character tell where it begins: only its first byte
is no continuation. So every offset into an encoded text points into one character or at the end.
-/

namespace Excerpt.Utf8

private theorem toNat_ofNat {n : Nat} (h : n < 256) : (UInt8.ofNat n).toNat = n := by
  simp only [UInt8.toNat_ofNat']
  omega

private theorem decodeFrom_first {pos : Nat} {b : UInt8} {p : Pending} (rest : Bytes)
    (h : open? pos b = some p) (hmissing : p.missing ≠ 0) :
    decodeFrom pos none (b :: rest) = decodeFrom (pos + 1) (some p) rest := by
  simp [decodeFrom, h, hmissing]

private theorem decodeFrom_more {pos : Nat} {b : UInt8} {p : Pending} (rest : Bytes)
    (hlow : p.low ≤ b.toNat) (hhigh : b.toNat ≤ p.high) (hmissing : p.missing ≠ 1) :
    decodeFrom pos (some p) (b :: rest) =
      decodeFrom (pos + 1) (some ⟨p.start, p.first, p.missing - 1, 0x80, 0xBF,
        p.code * 0x40 + b.toNat % 0x40⟩) rest := by
  simp [decodeFrom, hlow, hhigh, hmissing]

private theorem decodeFrom_last {pos : Nat} {b : UInt8} {p : Pending} (rest : Bytes)
    (hlow : p.low ≤ b.toNat) (hhigh : b.toNat ≤ p.high) (hmissing : p.missing = 1) :
    decodeFrom pos (some p) (b :: rest) =
      (decodeFrom (pos + 1) none rest).map (Char.ofNat (p.code * 0x40 + b.toNat % 0x40) :: ·) := by
  simp [decodeFrom, hlow, hhigh, hmissing]

section Lengths

variable {n : Nat} (pos : Nat) (rest : Bytes)

private theorem toNat_continuation (k : Nat) :
    (UInt8.ofNat (0x80 + k % 0x40)).toNat = 0x80 + k % 0x40 := toNat_ofNat (by omega)

private theorem decodeFrom_one (h : n < 0x80) : decodeFrom pos none (UInt8.ofNat n :: rest) =
    (decodeFrom (pos + 1) none rest).map (Char.ofNat n :: ·) := by
  have hb : (UInt8.ofNat n).toNat = n := toNat_ofNat (by omega)
  have hopen : open? pos (UInt8.ofNat n) = some ⟨pos, UInt8.ofNat n, 0, 0x80, 0xBF, n⟩ := by
    simp only [open?, hb, h, if_true]
  simp only [decodeFrom, hopen, if_true]

private theorem decodeFrom_two (hlow : 0x80 ≤ n) (hhigh : n < 0x800) :
    decodeFrom pos none
        (UInt8.ofNat (0xC0 + n / 0x40) :: UInt8.ofNat (0x80 + n % 0x40) :: rest) =
      (decodeFrom (pos + 2) none rest).map (Char.ofNat n :: ·) := by
  have hb : (UInt8.ofNat (0xC0 + n / 0x40)).toNat = 0xC0 + n / 0x40 := toNat_ofNat (by omega)
  have h0 := toNat_continuation n
  generalize UInt8.ofNat (0xC0 + n / 0x40) = b at hb ⊢
  generalize UInt8.ofNat (0x80 + n % 0x40) = b0 at h0 ⊢
  have hopen : open? pos b = some ⟨pos, b, 1, 0x80, 0xBF, n / 0x40⟩ := by grind [open?]
  have hcode : n / 0x40 * 0x40 + b0.toNat % 0x40 = n := by omega
  rw [decodeFrom_first _ hopen (by simp), decodeFrom_last _ (by simp; omega) (by simp; omega) rfl]
  simp only [hcode]

private theorem decodeFrom_three (hlow : 0x800 ≤ n) (hhigh : n < 0x10000)
    (hvalid : n < 0xD800 ∨ 0xDFFF < n) :
    decodeFrom pos none (UInt8.ofNat (0xE0 + n / 0x1000) ::
        UInt8.ofNat (0x80 + n / 0x40 % 0x40) :: UInt8.ofNat (0x80 + n % 0x40) :: rest) =
      (decodeFrom (pos + 3) none rest).map (Char.ofNat n :: ·) := by
  have hb : (UInt8.ofNat (0xE0 + n / 0x1000)).toNat = 0xE0 + n / 0x1000 := toNat_ofNat (by omega)
  have h0 := toNat_continuation n
  have h1 := toNat_continuation (n / 0x40)
  generalize UInt8.ofNat (0xE0 + n / 0x1000) = b at hb ⊢
  generalize UInt8.ofNat (0x80 + n % 0x40) = b0 at h0 ⊢
  generalize UInt8.ofNat (0x80 + n / 0x40 % 0x40) = b1 at h1 ⊢
  have hopen : open? pos b = some ⟨pos, b, 2, if n / 0x1000 = 0 then 0xA0 else 0x80,
      if n / 0x1000 = 0xD then 0x9F else 0xBF, n / 0x1000⟩ := by grind [open?]
  have hcode : (n / 0x1000 * 0x40 + b1.toNat % 0x40) * 0x40 + b0.toNat % 0x40 = n := by omega
  rw [decodeFrom_first _ hopen (by simp),
    decodeFrom_more _ (by simp only; split <;> omega) (by simp only; split <;> omega) (by simp),
    decodeFrom_last _ (by simp; omega) (by simp; omega) rfl]
  simp only [hcode]

private theorem decodeFrom_four (hlow : 0x10000 ≤ n) (hhigh : n < 0x110000) :
    decodeFrom pos none (UInt8.ofNat (0xF0 + n / 0x40000) ::
        UInt8.ofNat (0x80 + n / 0x1000 % 0x40) :: UInt8.ofNat (0x80 + n / 0x40 % 0x40) ::
          UInt8.ofNat (0x80 + n % 0x40) :: rest) =
      (decodeFrom (pos + 4) none rest).map (Char.ofNat n :: ·) := by
  have hb : (UInt8.ofNat (0xF0 + n / 0x40000)).toNat = 0xF0 + n / 0x40000 :=
    toNat_ofNat (by omega)
  have h0 := toNat_continuation n
  have h1 := toNat_continuation (n / 0x40)
  have h2 := toNat_continuation (n / 0x1000)
  generalize UInt8.ofNat (0xF0 + n / 0x40000) = b at hb ⊢
  generalize UInt8.ofNat (0x80 + n % 0x40) = b0 at h0 ⊢
  generalize UInt8.ofNat (0x80 + n / 0x40 % 0x40) = b1 at h1 ⊢
  generalize UInt8.ofNat (0x80 + n / 0x1000 % 0x40) = b2 at h2 ⊢
  have hopen : open? pos b = some ⟨pos, b, 3, if n / 0x40000 = 0 then 0x90 else 0x80,
      if n / 0x40000 = 4 then 0x8F else 0xBF, n / 0x40000⟩ := by grind [open?]
  have hcode : ((n / 0x40000 * 0x40 + b2.toNat % 0x40) * 0x40 + b1.toNat % 0x40) * 0x40 +
      b0.toNat % 0x40 = n := by omega
  rw [decodeFrom_first _ hopen (by simp),
    decodeFrom_more _ (by simp only; split <;> omega) (by simp only; split <;> omega) (by simp),
    decodeFrom_more _ (by simp; omega) (by simp; omega) (by simp),
    decodeFrom_last _ (by simp; omega) (by simp; omega) rfl]
  simp only [hcode]

end Lengths

theorem decodeFrom_encodeChar (pos : Nat) (c : Char) (rest : Bytes) :
    decodeFrom pos none (encodeChar c ++ rest) =
      (decodeFrom (pos + (encodeChar c).length) none rest).map (c :: ·) := by
  have hvalid : c.toNat < 0xD800 ∨ 0xDFFF < c.toNat ∧ c.toNat < 0x110000 := c.valid
  have hchar : Char.ofNat c.toNat = c := Char.ofNat_toNat c
  simp only [encodeChar]
  generalize c.toNat = n at hvalid hchar ⊢
  subst hchar
  split
  case isTrue h => exact decodeFrom_one pos rest h
  case isFalse h =>
    split
    case isTrue h2 => exact decodeFrom_two pos rest (by omega) h2
    case isFalse h2 =>
      split
      case isTrue h3 => exact decodeFrom_three pos rest (by omega) h3 (by omega)
      case isFalse h3 => exact decodeFrom_four pos rest (by omega) (by omega)

theorem decodeFrom_encode (pos : Nat) (s : Text) : decodeFrom pos none (encode s) = .ok s := by
  induction s generalizing pos with
  | nil => rfl
  | cons c s ih =>
      rw [encode_cons, decodeFrom_encodeChar, ih]
      rfl

theorem decode_encode (s : Text) : decode (encode s) = .ok s := decodeFrom_encode 0 s

theorem encode_injective : Function.Injective encode := fun s t h =>
  Except.ok.inj <| by rw [← decode_encode s, h, decode_encode]

theorem toNat_lt (c : Char) : c.toNat < 0x110000 := by
  have hvalid : c.toNat < 0xD800 ∨ 0xDFFF < c.toNat ∧ c.toNat < 0x110000 := c.valid
  omega

private theorem isContinuation_iff (b : UInt8) :
    isContinuation b = true ↔ 0x80 ≤ b.toNat ∧ b.toNat < 0xC0 := by
  rw [isContinuation, beq_iff_eq]
  omega

/-- A character is a single byte below 0x80, or a high byte with continuations after it. -/
theorem encodeChar_shape (c : Char) :
    c.toNat < 0x80 ∧ encodeChar c = [UInt8.ofNat c.toNat] ∨
      ∃ b rest, encodeChar c = b :: rest ∧ 0xC0 ≤ b.toNat ∧
        ∀ x ∈ rest, isContinuation x = true := by
  have hmax := toNat_lt c
  simp only [encodeChar]
  generalize c.toNat = n at hmax ⊢
  have hcont : ∀ k, isContinuation (UInt8.ofNat (0x80 + k % 0x40)) = true := by
    intro k
    rw [isContinuation_iff, toNat_ofNat (by omega)]
    omega
  have hfirst : ∀ k, 0xC0 ≤ k → k < 0x100 → 0xC0 ≤ (UInt8.ofNat k).toNat := by
    intro k hlow hlt
    rwa [toNat_ofNat hlt]
  split
  case isTrue h => exact .inl ⟨h, rfl⟩
  case isFalse =>
  right
  split
  · refine ⟨_, _, rfl, hfirst _ (by omega) (by omega), ?_⟩
    exact List.forall_mem_singleton.2 (hcont n)
  · split
    · refine ⟨_, _, rfl, hfirst _ (by omega) (by omega), ?_⟩
      exact List.forall_mem_cons.2 ⟨hcont _, List.forall_mem_singleton.2 (hcont n)⟩
    · refine ⟨_, _, rfl, hfirst _ (by omega) (by omega), ?_⟩
      exact List.forall_mem_cons.2
        ⟨hcont _, List.forall_mem_cons.2 ⟨hcont _, List.forall_mem_singleton.2 (hcont n)⟩⟩

/-- Only the first byte of a character is no continuation. -/
theorem encodeChar_eq_cons (c : Char) : ∃ b rest, encodeChar c = b :: rest ∧
    isContinuation b = false ∧ ∀ x ∈ rest, isContinuation x = true := by
  rcases encodeChar_shape c with ⟨hlow, heq⟩ | ⟨b, rest, heq, hb, hrest⟩
  · refine ⟨_, [], heq, ?_, by simp⟩
    rw [← Bool.not_eq_true, isContinuation_iff, toNat_ofNat (by omega)]
    omega
  · refine ⟨b, rest, heq, ?_, hrest⟩
    rw [← Bool.not_eq_true, isContinuation_iff]
    omega

theorem length_encodeChar_pos (c : Char) : 0 < (encodeChar c).length := by
  obtain ⟨b, rest, heq, -⟩ := encodeChar_eq_cons c
  simp [heq]

/-- A byte below 0x80 stands for the character of that number and is part of no other one. -/
theorem toNat_eq_of_mem_encodeChar {c : Char} {b : UInt8} (hb : b ∈ encodeChar c)
    (h : b.toNat < 0x80) : b.toNat = c.toNat := by
  rcases encodeChar_shape c with ⟨hlow, heq⟩ | ⟨first, rest, heq, hfirst, hrest⟩
  · rw [heq, List.mem_singleton] at hb
    rw [hb, toNat_ofNat (by omega)]
  · rw [heq] at hb
    rcases List.mem_cons.1 hb with rfl | hb
    · omega
    · have := (isContinuation_iff b).1 (hrest b hb)
      omega

/-- The characters in front of the one that an offset points into. -/
def before : Nat → Text → Text
  | _, [] => []
  | offset, c :: s =>
    if (encodeChar c).length ≤ offset then c :: before (offset - (encodeChar c).length) s else []

theorem before_isPrefix (offset : Nat) (s : Text) : before offset s <+: s := by
  induction s generalizing offset with
  | nil => exact List.nil_prefix
  | cons c s ih =>
      rw [before]
      split
      · exact List.cons_prefix_cons.2 ⟨rfl, ih _⟩
      · exact List.nil_prefix

theorem length_encode_before_le (offset : Nat) (s : Text) :
    (encode (before offset s)).length ≤ offset := by
  induction s generalizing offset with
  | nil => exact Nat.zero_le _
  | cons c s ih =>
      rw [before]
      split
      · have := ih (offset - (encodeChar c).length)
        simp only [encode_cons, List.length_append]
        omega
      · exact Nat.zero_le _

theorem lt_of_before_append_cons {offset : Nat} {s rest : Text} {c : Char}
    (h : s = before offset s ++ c :: rest) :
    offset < (encode (before offset s)).length + (encodeChar c).length := by
  induction s generalizing offset with
  | nil => simp [before] at h
  | cons d s ih =>
      rw [before] at h ⊢
      split at h
      case isTrue hle =>
        rw [if_pos hle]
        have := ih (List.cons.inj h).2
        simp only [encode_cons, List.length_append]
        omega
      case isFalse hlt =>
        rw [if_neg hlt]
        obtain ⟨rfl, -⟩ := List.cons.inj h
        simp only [encode_nil, List.length_nil]
        omega

/-- An offset lies in the first character behind those in front of it, or at the end. -/
theorem exists_before_append (offset : Nat) (s : Text) : ∃ q, before offset s ++ q = s ∧
    (encode (before offset s)).length ≤ offset ∧ ∀ c rest, q = c :: rest →
      offset < (encode (before offset s)).length + (encodeChar c).length := by
  obtain ⟨q, hq⟩ := before_isPrefix offset s
  refine ⟨q, hq, length_encode_before_le offset s, fun c rest hc => ?_⟩
  exact lt_of_before_append_cons (by rw [← hc, hq])

/-- The characters in front of an offset are those that end before it, if the next one does not. -/
theorem before_append {p q : Text} {offset : Nat} (hle : (encode p).length ≤ offset)
    (hlt : ∀ c rest, q = c :: rest → offset < (encode p).length + (encodeChar c).length) :
    before offset (p ++ q) = p := by
  induction p generalizing offset with
  | nil =>
      cases q with
      | nil => rfl
      | cons c q =>
          have hend := hlt c q rfl
          rw [encode_nil, List.length_nil, Nat.zero_add] at hend
          rw [List.nil_append, before, if_neg (by omega)]
  | cons c p ih =>
      rw [encode_cons, List.length_append] at hle
      rw [List.cons_append, before, if_pos (by omega), ih (by omega)]
      intro d rest hd
      have hend := hlt d rest hd
      rw [encode_cons, List.length_append] at hend
      omega

theorem before_length_encode (p q : Text) : before (encode p).length (p ++ q) = p :=
  before_append (Nat.le_refl _) fun c _ _ =>
    Nat.lt_add_of_pos_right (length_encodeChar_pos c)

theorem before_length_encode_before (offset : Nat) (s : Text) :
    before (encode (before offset s)).length s = before offset s := by
  obtain ⟨q, hq⟩ := before_isPrefix offset s
  generalize before offset s = p at hq ⊢
  rw [← hq, before_length_encode]

theorem before_mono {a b : Nat} (h : a ≤ b) (s : Text) : before a s <+: before b s := by
  induction s generalizing a b with
  | nil => exact List.nil_prefix
  | cons c s ih =>
      rw [before, before]
      split
      case isTrue ha =>
        rw [if_pos (by omega)]
        exact List.cons_prefix_cons.2 ⟨rfl, ih (by omega)⟩
      case isFalse => exact List.nil_prefix

theorem before_zero (s : Text) : before 0 s = [] := by
  cases s with
  | nil => rfl
  | cons c s =>
      have := length_encodeChar_pos c
      rw [before, if_neg (by omega)]

/-- One offset further, one more character is in front if it ends there, and else none. -/
theorem before_succ (offset : Nat) (s : Text) : before (offset + 1) s = before offset s ∨
    ∃ c, before (offset + 1) s = before offset s ++ [c] ∧
      (encode (before (offset + 1) s)).length = offset + 1 := by
  induction s generalizing offset with
  | nil => exact .inl rfl
  | cons c s ih =>
      have hpos := length_encodeChar_pos c
      rw [before, before]
      rcases Nat.lt_trichotomy (encodeChar c).length (offset + 1) with hlt | heq | hgt
      · rw [if_pos (by omega), if_pos (by omega),
          show offset + 1 - (encodeChar c).length = offset - (encodeChar c).length + 1 by omega]
        rcases ih (offset - (encodeChar c).length) with hsame | ⟨d, hnext, hlength⟩
        · exact .inl (by rw [hsame])
        · refine .inr ⟨d, by rw [hnext]; rfl, ?_⟩
          rw [encode_cons, List.length_append, hlength]
          omega
      · rw [if_pos (by omega), if_neg (by omega), ← heq, Nat.sub_self, before_zero]
        exact .inr ⟨c, rfl, by rw [encode_cons, encode_nil, List.append_nil]⟩
      · rw [if_neg (by omega), if_neg (by omega)]
        exact .inl rfl

/-- An offset is in front of a character's first byte when its own character begins in front of
that. -/
theorem lt_length_before_iff {s : Text} {offset other : Nat} :
    offset < (encode (before other s)).length ↔
      (encode (before offset s)).length < (encode (before other s)).length := by
  refine ⟨fun h => Nat.lt_of_le_of_lt (length_encode_before_le offset s) h, fun h => ?_⟩
  refine Nat.lt_of_not_le fun hle => ?_
  obtain ⟨t, ht⟩ := before_mono hle s
  rw [before_length_encode_before] at ht
  rw [← ht, encode_append, List.length_append] at h
  omega

end Excerpt.Utf8
