import Excerpt.Value.Shown
import Excerpt.Proofs.Characters

/-!
The texts of values. A value that is refused a text for its depth lies deeper than there is room
for. And however a value is nested, its quoted form has no character for private use, since none of
them can be printed.
-/

namespace Excerpt

/-- No character of a text is for private use. -/
def Public (s : Text) : Prop := ∀ c ∈ s, Unicode.isPrivateUse c = false

instance (s : Text) : Decidable (Public s) := List.decidableBAll _ s

theorem public_append {s t : Text} : Public (s ++ t) ↔ Public s ∧ Public t :=
  List.forall_mem_append

theorem public_cons {c : Char} {s : Text} :
    Public (c :: s) ↔ Unicode.isPrivateUse c = false ∧ Public s := List.forall_mem_cons

theorem Public.subset {s t : Text} (h : Public t) (hst : s ⊆ t) : Public s :=
  fun c hc => h c (hst hc)

theorem Public.not_mem {c : Char} {s : Text} (h : Public s)
    (hprivate : Unicode.isPrivateUse c = true) : c ∉ s := by
  intro hc
  rw [h c hc] at hprivate
  cases hprivate

theorem public_joinWith {separator : Text} {texts : List Text} (hseparator : Public separator)
    (h : ∀ text ∈ texts, Public text) : Public (Text.joinWith separator texts) := by
  intro c hc
  rcases Text.mem_of_mem_joinWith hc with hc | ⟨text, htext, hc⟩
  · exact hseparator c hc
  · exact h text htext c hc

theorem public_enclosed {first last : Char} (hfirst : Unicode.isPrivateUse first = false)
    (hlast : Unicode.isPrivateUse last = false) {s : Text} (h : Public s) :
    Public (first :: s ++ [last]) :=
  public_append.2 ⟨public_cons.2 ⟨hfirst, h⟩, List.forall_mem_singleton.2 hlast⟩

theorem public_digits {s : Text} (h : ∀ c ∈ s, c.isDigit = true) : Public s := by
  intro c hc
  have hdigit := h c hc
  simp only [Char.isDigit, Bool.and_eq_true, decide_eq_true_eq] at hdigit
  have hhigh : c.toNat ≤ '9'.toNat := hdigit.2
  rw [Unicode.isPrivateUse, decide_eq_false_iff_not]
  exact Nat.not_le.2 (Nat.lt_of_le_of_lt hhigh (by decide))

theorem public_nat (n : Nat) : Public (toString n).toList :=
  public_digits fun _ => isDigit_of_mem_toString

theorem public_int (n : Int) : Public (toString n).toList := by
  cases n with
  | ofNat n => exact public_nat n
  | negSucc n =>
      have hform : (toString (Int.negSucc n)).toList = "-".toList ++ (toString (n + 1)).toList :=
        String.toList_append
      rw [hform, public_append]
      exact ⟨by decide, public_nat _⟩

theorem public_dateForm (d : Date) : Public d.form.toList := by
  unfold Date.form
  simp only [String.toList_append, public_append]
  exact ⟨⟨⟨⟨⟨⟨by decide, public_nat _⟩, by decide⟩, public_nat _⟩, by decide⟩, public_nat _⟩,
    by decide⟩

theorem public_commaSeparated {items : List String} (h : ∀ item ∈ items, Public item.toList) :
    Public (commaSeparated items).toList := by
  rw [commaSeparated, String.toList_intercalate]
  exact public_joinWith (by decide) (List.forall_mem_map.2 h)

theorem public_timeForm (t : TimeOfDay) : Public t.form.toList := by
  simp only [TimeOfDay.form, String.toList_append, public_append]
  exact ⟨⟨by decide, public_commaSeparated (List.forall_mem_map.2 fun n _ => public_nat n)⟩,
    by decide⟩

theorem public_offsetForm (minutes : Int) : Public (offsetForm minutes).toList := by
  have hpart : ∀ (label : String) (n : Int), Public label.toList →
      ∀ item ∈ if n = 0 then [] else [label ++ toString n], Public item.toList := by
    intro label n hlabel item hitem
    split at hitem
    · exact absurd hitem List.not_mem_nil
    · rw [List.mem_singleton.1 hitem, String.toList_append, public_append]
      exact ⟨hlabel, public_int n⟩
  rw [offsetForm]
  split
  · decide
  · simp only [String.toList_append, public_append]
    refine ⟨⟨by decide, public_commaSeparated ?_⟩, by decide⟩
    exact List.forall_mem_append.2 ⟨hpart _ _ (by decide), hpart _ _ (by decide)⟩

theorem public_timestampForm (t : Timestamp) : Public t.form.toList := by
  unfold Timestamp.form
  simp only [String.toList_append, public_append]
  refine ⟨⟨by decide, public_commaSeparated ?_⟩, by decide⟩
  rw [List.forall_mem_append, List.forall_mem_map, List.forall_mem_map]
  refine ⟨fun n _ => public_nat n, fun minutes _ => ?_⟩
  rw [String.toList_append, public_append]
  exact ⟨by decide, public_offsetForm minutes⟩

theorem public_zeros (n : Int) : Public (Binary64.zeros n) := by
  intro c hc
  rw [List.eq_of_mem_replicate hc]
  decide

theorem public_decimalText {d : Binary64.Decimal} (h : Public d.digits) : Public d.text := by
  have hfirst : ∀ {c : Char} {rest : Text}, Public (c :: rest) → Public (c :: '.' :: rest) := by
    intro c rest hrest
    obtain ⟨hc, hrest⟩ := public_cons.1 hrest
    exact public_cons.2 ⟨hc, public_cons.2 ⟨by decide, hrest⟩⟩
  have hsize : ∀ n, Public (Nat.toDigits 10 n) := fun n =>
    public_digits fun c hc => Nat.isDigit_of_mem_toDigits (by decide) (by decide) hc
  rw [Binary64.Decimal.text]
  split
  · split
    · simp only [public_append, public_cons]
      exact ⟨⟨by decide, by decide, public_zeros _⟩, h⟩
    · split
      · simp only [public_append, public_cons]
        exact ⟨h.subset (List.take_subset _ _), by decide, h.subset (List.drop_subset _ _)⟩
      · simp only [public_append]
        exact ⟨⟨h, public_zeros _⟩, by decide⟩
  · simp only [public_append]
    refine ⟨⟨⟨?_, ?_⟩, public_zeros _⟩, hsize _⟩
    · split
      · exact h
      · exact h
      next first rest _ _ hdigits =>
        rw [hdigits] at h
        exact hfirst h
    · split <;> decide

theorem public_shortest (m : Nat) (power : Int) : Public (Binary64.shortest m power).digits := by
  rw [Binary64.shortest]
  split
  · decide
  · refine public_digits fun c hc => ?_
    have hmem := (List.dropWhile_suffix _).subset (List.mem_reverse.1 hc)
    exact Nat.isDigit_of_mem_toDigits (by decide) (by decide) (List.mem_reverse.1 hmem)

theorem public_floatText (x : Binary64) : Public x.text := by
  cases x with
  | nan => decide
  | infinite negative => cases negative <;> decide
  | finite negative m power =>
      rw [Binary64.text, public_append]
      constructor
      · split <;> decide
      · split
        · decide
        · exact public_decimalText (public_shortest m power)

theorem public_hexDigits (width n : Nat) : Public (Quoted.hexDigits width n) := by
  have hdigit : ∀ i < 16, Unicode.isPrivateUse (Nat.digitChar i) = false := by decide
  induction width generalizing n with
  | zero => exact fun c hc => absurd hc List.not_mem_nil
  | succ width ih =>
      rw [Quoted.hexDigits, public_append]
      exact ⟨ih _, public_cons.2 ⟨hdigit _ (Nat.mod_lt n (by decide)), by decide⟩⟩

/-- What is neither escaped nor printable is written by its number. -/
theorem public_escapeChar (number : Char → Nat) {quote : Char}
    (hquote : Unicode.isPrivateUse quote = false) (c : Char) :
    Public (Quoted.escapeChar number quote c) := by
  have hshort : ∀ d, Unicode.isPrivateUse d = false → Public ['\\', d] :=
    fun d hd => public_cons.2 ⟨by decide, public_cons.2 ⟨hd, by decide⟩⟩
  have hlong : ∀ d width n, Unicode.isPrivateUse d = false →
      Public ('\\' :: d :: Quoted.hexDigits width n) := fun d width n hd =>
    public_cons.2 ⟨by decide, public_cons.2 ⟨hd, public_hexDigits width n⟩⟩
  simp only [Quoted.escapeChar]
  split
  case isTrue h =>
      rcases h with rfl | rfl
      · exact hshort _ hquote
      · exact hshort _ (by decide)
  split
  · exact hshort _ (by decide)
  split
  · exact hshort _ (by decide)
  split
  · exact hshort _ (by decide)
  split
  case isTrue hprintable =>
      refine public_cons.2 ⟨?_, by decide⟩
      by_contra hprivate
      rw [Unicode.isPrintable_of_isPrivateUse (Bool.not_eq_false _ ▸ hprivate)] at hprintable
      cases hprintable
  split
  · exact hlong _ _ _ (by decide)
  split
  · exact hlong _ _ _ (by decide)
  · exact hlong _ _ _ (by decide)

theorem public_quoted [Halves] (s : Text) : Public (Halves.quoted s) := by
  have hquote : Unicode.isPrivateUse (Quoted.quoteFor s) = false := by
    rw [Quoted.quoteFor]
    split <;> decide
  rw [Halves.quoted, Quoted.encodeBy]
  refine public_enclosed hquote hquote fun c hc => ?_
  obtain ⟨d, -, hd⟩ := List.mem_flatMap.1 hc
  exact public_escapeChar _ hquote d c hd

namespace Value

theorem one_le_formDepth (t : Timestamp) : 1 ≤ t.formDepth := by
  rw [Timestamp.formDepth]
  split <;> decide

theorem depth_pos (v : Value) : 0 < v.depth := by
  cases v with
  | timestamp t => exact one_le_formDepth t
  | list items => exact Nat.succ_pos _
  | table entries => exact Nat.succ_pos _
  | _ => exact Nat.one_pos

variable [Halves]

mutual

theorem lt_depth_of_form? : ∀ {room : Nat} {v : Value},
    form? room v = .error .tooDeep → room < v.depth
  | 0, v, _ => v.depth_pos
  | room + 1, .list items, h => by
      rw [form?] at h
      exact Nat.succ_lt_succ (lt_depth_of_forms? (map_eq_error h))
  | room + 1, .table entries, h => by
      rw [form?] at h
      exact Nat.succ_lt_succ (lt_depth_of_entryForms? (map_eq_error h))
  | room + 1, .timestamp t, h => by
      rw [form?] at h
      split at h
      · assumption
      · cases h
  | room + 1, .int n, h => by
      rw [form?, wholeForm?] at h
      split at h <;> cases h
  | _ + 1, .null, h | _ + 1, .bool _, h | _ + 1, .float _, h | _ + 1, .text _, h
  | _ + 1, .date _, h | _ + 1, .time _, h => by rw [form?] at h; cases h

theorem lt_depth_of_forms? : ∀ {room : Nat} {items : List Value},
    forms? room items = .error .tooDeep → room < depthOfItems items
  | _, [], h => by
      rw [forms?] at h
      cases h
  | room, v :: rest, h => by
      rw [forms?] at h
      rcases bind_eq_error h with hv | ⟨text, -, h⟩
      · exact Nat.lt_of_lt_of_le (lt_depth_of_form? hv) (Nat.le_max_left _ _)
      rcases bind_eq_error h with hrest | ⟨texts, -, h⟩
      · exact Nat.lt_of_lt_of_le (lt_depth_of_forms? hrest) (Nat.le_max_right _ _)
      · cases h

theorem lt_depth_of_entryForms? : ∀ {room : Nat} {entries : List (Text × Value)},
    entryForms? room entries = .error .tooDeep → room < depthOfEntries entries
  | _, [], h => by
      rw [entryForms?] at h
      cases h
  | room, entry :: rest, h => by
      rw [entryForms?] at h
      rcases bind_eq_error h with hv | ⟨text, -, h⟩
      · exact Nat.lt_of_lt_of_le (lt_depth_of_entryForm? hv) (Nat.le_max_left _ _)
      rcases bind_eq_error h with hrest | ⟨texts, -, h⟩
      · exact Nat.lt_of_lt_of_le (lt_depth_of_entryForms? hrest) (Nat.le_max_right _ _)
      · cases h

theorem lt_depth_of_entryForm? : ∀ {room : Nat} {entry : Text × Value},
    entryForm? room entry = .error .tooDeep → room < depthOfEntry entry
  | _, (key, v), h => by
      rw [entryForm?] at h
      exact lt_depth_of_form? (map_eq_error h)

end

mutual

theorem public_of_form? : ∀ {room : Nat} {v : Value} {text : Text},
    form? room v = .ok text → Public text
  | 0, _, _, h => by
      rw [form?] at h
      cases h
  | room + 1, .list items, _, h => by
      rw [form?] at h
      obtain ⟨texts, htexts, rfl⟩ := map_eq_ok h
      refine public_enclosed (by decide) (by decide) ?_
      exact public_joinWith (by decide) (public_of_forms? htexts)
  | room + 1, .table entries, _, h => by
      rw [form?] at h
      obtain ⟨texts, htexts, rfl⟩ := map_eq_ok h
      refine public_enclosed (by decide) (by decide) ?_
      exact public_joinWith (by decide) (public_of_entryForms? htexts)
  | _ + 1, .timestamp t, _, h => by
      rw [form?] at h
      split at h
      · cases h
      · exact Except.ok.inj h ▸ public_timestampForm t
  | _ + 1, .int n, _, h => by
      rw [form?, wholeForm?] at h
      split at h
      · cases h
      · exact Except.ok.inj h ▸ public_int n
  | _ + 1, .null, _, h => by
      rw [form?] at h
      exact Except.ok.inj h ▸ by decide
  | _ + 1, .bool b, _, h => by
      rw [form?] at h
      cases b <;> exact Except.ok.inj h ▸ by decide
  | _ + 1, .float x, _, h => by
      rw [form?] at h
      exact Except.ok.inj h ▸ public_floatText x
  | _ + 1, .text s, _, h => by
      rw [form?] at h
      exact Except.ok.inj h ▸ public_quoted s
  | _ + 1, .date d, _, h => by
      rw [form?] at h
      exact Except.ok.inj h ▸ public_dateForm d
  | _ + 1, .time t, _, h => by
      rw [form?] at h
      exact Except.ok.inj h ▸ public_timeForm t

theorem public_of_forms? : ∀ {room : Nat} {items : List Value} {texts : List Text},
    forms? room items = .ok texts → ∀ text ∈ texts, Public text
  | _, [], _, h => by
      rw [forms?] at h
      cases h
      exact fun text htext => absurd htext List.not_mem_nil
  | room, v :: rest, _, h => by
      rw [forms?] at h
      obtain ⟨text, htext, h⟩ := bind_eq_ok h
      obtain ⟨texts, htexts, h⟩ := bind_eq_ok h
      cases h
      exact List.forall_mem_cons.2 ⟨public_of_form? htext, public_of_forms? htexts⟩

theorem public_of_entryForms? : ∀ {room : Nat} {entries : List (Text × Value)} {texts : List Text},
    entryForms? room entries = .ok texts → ∀ text ∈ texts, Public text
  | _, [], _, h => by
      rw [entryForms?] at h
      cases h
      exact fun text htext => absurd htext List.not_mem_nil
  | room, entry :: rest, _, h => by
      rw [entryForms?] at h
      obtain ⟨text, htext, h⟩ := bind_eq_ok h
      obtain ⟨texts, htexts, h⟩ := bind_eq_ok h
      cases h
      exact List.forall_mem_cons.2 ⟨public_of_entryForm? htext, public_of_entryForms? htexts⟩

theorem public_of_entryForm? : ∀ {room : Nat} {entry : Text × Value} {text : Text},
    entryForm? room entry = .ok text → Public text
  | _, (key, v), _, h => by
      rw [entryForm?] at h
      obtain ⟨text, htext, rfl⟩ := map_eq_ok h
      exact public_append.2
        ⟨public_append.2 ⟨public_quoted key, by decide⟩, public_of_form? htext⟩

end

end Value
end Excerpt
