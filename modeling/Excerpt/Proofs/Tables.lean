import Mathlib.Data.List.Induction
import Excerpt.Proofs.UnknownKeys

/-!
What a settings table must hold. Numbers and truth values have exactly their type, the charset is
one of two names, and every style that is named for a known part of an excerpt can be read; last,
the numbers are not too small. A table that keeps to this gives a configuration with the settings in
the table and defaults elsewhere. Any other is refused, and what is wrong is told, but for values
that have no text.
-/

namespace Excerpt

/-- The keys of truth values in a `render` table. -/
def truthKeys : List String := ["color_enabled", "compact_by_default", "trim_indent"]

/-- The keys of whole numbers in a `render` table, and the least number under each. -/
def leastNumbers : List (String × Int) :=
  [("context_lines", 0), ("tab_width", 1), ("max_width", 1), ("merge_gap", 0)]

/-- An entry of a table of styles that can be read: it is under a key that is skipped, or its value
has a text and the text names a style. -/
def ReadsStyle [Platform] (entry : Text × Value) : Prop :=
  ∀ slot : StyleSlot, entry.1 = slot.key.toList →
    ∃ words style, entry.2.shown? .defaultStyle = .ok words ∧ Style.parse words = .ok style

section Tables

variable [Platform] (render : List (Text × Value))

/-- Every number and every truth value in a table has exactly its type. -/
structure Typed : Prop where
  truths : ∀ key ∈ truthKeys, ∀ v, Value.lookup render key = some v → ∃ b, v = .bool b
  numbers : ∀ entry ∈ leastNumbers, ∀ v, Value.lookup render entry.1 = some v → ∃ n, v = .int n

/-- The charset of a table, if there is one, is known. -/
def KnownCharset : Prop := ∀ v, Value.lookup render "charset" = some v →
  v = .text "unicode".toList ∨ v = .text "ascii".toList

/-- The styles of a table, if there are any, are a table that can be read. -/
def ReadableStyles : Prop := ∀ v, Value.lookup render "styles" = some v →
  ∃ entries, v = .table entries ∧ ∀ entry ∈ entries, ReadsStyle entry

/-- A `render` table that gives a configuration. -/
structure Acceptable : Prop extends Typed render where
  least : ∀ entry ∈ leastNumbers, ∀ n, Value.lookup render entry.1 = some (.int n) → entry.2 ≤ n
  charset : KnownCharset render
  styles : ReadableStyles render

/-- A table that is wrong in a way that cannot be told. One is that the charset, which is told in
full when it is not known, has no text. The other is that a style behind readable ones lies too
deep; that a style is too long a number is told. Where a value is too deep in one place and too long
a number in another, the place that comes first counts. -/
inductive Unshown : Value.ShowError → Prop where
  | charset {v : Value} {why : Value.ShowError} (typed : Typed render)
      (found : Value.lookup render "charset" = some v)
      (unknown : v ≠ .text "unicode".toList ∧ v ≠ .text "ascii".toList)
      (h : v.form? (Platform.textDepth .charset) = .error why) : Unshown why
  | style {front back : List (Text × Value)} {v : Value} {slot : StyleSlot}
      (typed : Typed render) (charset : KnownCharset render)
      (found : Value.lookup render "styles" =
        some (.table (front ++ (slot.key.toList, v) :: back)))
      (readable : ∀ entry ∈ front, ReadsStyle entry)
      (h : v.shown? .defaultStyle = .error .tooDeep) : Unshown .tooDeep

end Tables

/-- The `render` table of a file, empty if the file has none. -/
def IsRender (entries render : List (Text × Value)) : Prop :=
  Value.lookup entries "render" = some (.table render) ∨
    Value.lookup entries "render" = none ∧ render = []

/-! ### What a table says -/

/-- The styles of all slots. -/
def StyleSet.ofSlots (style : StyleSlot → Style) : StyleSet where
  sourceName := style .sourceName
  source := style .source
  leftColumn := style .leftColumn
  multilineIndicator := style .multilineIndicator
  singlelineIndicator := style .singlelineIndicator
  footnoteIndicator := style .footnoteIndicator

/-- The style that a value names. -/
def Value.style? [Platform] (v : Value) : Option Style :=
  (v.shown? .defaultStyle).toOption.bind fun words => (Style.parse words).toOption

namespace Settings

variable (render : List (Text × Value))

def truthAt (key : String) : Option Bool :=
  match Value.lookup render key with
  | some (.bool b) => some b
  | _ => none

def numberAt (key : String) : Option Int :=
  match Value.lookup render key with
  | some (.int n) => some n
  | _ => none

def charsetAt : Charset :=
  match Value.lookup render "charset" with
  | some (.text name) => if name = "ascii".toList then .ascii else .unicode
  | _ => .unicode

/-- The style under the key of a slot, the last one if there are several. -/
def styleAt [Platform] (slot : StyleSlot) : Option Style :=
  match Value.lookup render "styles" with
  | some (.table entries) =>
    (entries.reverse.lookup slot.key.toList).bind Value.style?
  | _ => none

/-- The settings that a `render` table tells, each by its key, and defaults elsewhere. -/
def told [Platform] : Settings where
  colorEnabled := (truthAt render "color_enabled").getD true
  contextLines := .number ((numberAt render "context_lines").getD 0)
  tabWidth := .number ((numberAt render "tab_width").getD 4)
  maxWidth := (numberAt render "max_width").map .number
  compactByDefault := (truthAt render "compact_by_default").getD false
  mergeGap := .number ((numberAt render "merge_gap").getD 1)
  trimIndent := (truthAt render "trim_indent").getD false
  charset := charsetAt render
  styles := .ofSlots fun slot => (styleAt render slot).getD (({} : StyleSet).get slot)

end Settings

/-! ### Numbers and truth values -/

/-- The value of a scalar setting, if it is there, has the right type. -/
def ScalarSetting.Fits (render : List (Text × Value)) : ScalarSetting → Prop
  | number key _ => ∀ v, Value.lookup render key = some v → ∃ n, v = .int n
  | truth key _ => ∀ v, Value.lookup render key = some v → ∃ b, v = .bool b

namespace Settings

variable {render : List (Text × Value)} {s t : Settings}

theorem numberAt_eq_some_iff {key : String} {n : Int} :
    numberAt render key = some n ↔ Value.lookup render key = some (.int n) := by
  rw [numberAt]
  split
  case h_1 m h => simp [h]
  case h_2 h => simpa using fun heq => h n heq

/-- The settings with a scalar setting taken over. -/
def put (render : List (Text × Value)) (s : Settings) : ScalarSetting → Settings
  | .number key set => (numberAt render key).elim s (set s)
  | .truth key set => (truthAt render key).elim s (set s)

theorem readScalar_eq_ok_iff {setting : ScalarSetting} :
    readScalar render s setting = .ok t ↔ setting.Fits render ∧ t = put render s setting := by
  cases setting with
  | number key set =>
      simp only [readScalar, ScalarSetting.Fits, put, numberAt]
      cases h : Value.lookup render key with
      | none => simp [eq_comm]
      | some v => cases v <;> simp [eq_comm]
  | truth key set =>
      simp only [readScalar, ScalarSetting.Fits, put, truthAt]
      cases h : Value.lookup render key with
      | none => simp [eq_comm]
      | some v => cases v <;> simp [eq_comm]

theorem readScalar_ne_unshown {setting : ScalarSetting} (why : Value.ShowError) :
    readScalar render s setting ≠ .error (.unshown why) := by
  cases setting with
  | number key set | truth key set =>
      rw [readScalar]
      split <;> simp

theorem forall_fits_iff : (∀ setting ∈ ScalarSetting.all, setting.Fits render) ↔ Typed render := by
  simp only [ScalarSetting.all, List.forall_mem_cons, ScalarSetting.Fits]
  constructor
  · rintro ⟨hcolor, hcontext, htab, hwidth, hcompact, hgap, htrim, -⟩
    refine ⟨?_, ?_⟩
    · simp only [truthKeys, List.forall_mem_cons]
      exact ⟨hcolor, hcompact, htrim, List.forall_mem_nil _⟩
    · simp only [leastNumbers, List.forall_mem_cons]
      exact ⟨hcontext, htab, hwidth, hgap, List.forall_mem_nil _⟩
  · rintro ⟨htruths, hnumbers⟩
    simp only [truthKeys, leastNumbers, List.forall_mem_cons] at htruths hnumbers
    obtain ⟨hcolor, hcompact, htrim, -⟩ := htruths
    obtain ⟨hcontext, htab, hwidth, hgap, -⟩ := hnumbers
    exact ⟨hcolor, hcontext, htab, hwidth, hcompact, hgap, htrim, List.forall_mem_nil _⟩

theorem put_truth {key : String} {set : Settings → Bool → Settings} (b : Bool) (h : set s b = s) :
    put render s (.truth key set) = set s ((truthAt render key).getD b) := by
  rw [put]
  cases truthAt render key with
  | none => exact h.symm
  | some _ => rfl

theorem put_number {key : String} {set : Settings → Int → Settings} (n : Int) (h : set s n = s) :
    put render s (.number key set) = set s ((numberAt render key).getD n) := by
  rw [put]
  cases numberAt render key with
  | none => exact h.symm
  | some _ => rfl

theorem put_limit {key : String} (h : s.maxWidth = none) :
    put render s (.number key fun s n => { s with maxWidth := some (.number n) }) =
      { s with maxWidth := (numberAt render key).map .number } := by
  rw [put]
  cases numberAt render key with
  | none => rw [Option.map_none, ← h]; rfl
  | some _ => rfl

theorem foldl_put [Platform] : ScalarSetting.all.foldl (put render) {} =
    { told render with charset := .unicode, styles := {} } := by
  rw [ScalarSetting.all, List.foldl_cons, put_truth true, List.foldl_cons, put_number 0,
    List.foldl_cons, put_number 4, List.foldl_cons, put_limit, List.foldl_cons, put_truth false,
    List.foldl_cons, put_number 1, List.foldl_cons, put_truth false]
  all_goals rfl

theorem readScalars_eq_ok_iff [Platform] :
    ScalarSetting.all.foldlM (readScalar render) {} = .ok s ↔
      Typed render ∧ s = { told render with charset := .unicode, styles := {} } := by
  have hread : ∀ s setting t, readScalar render s setting = .ok t ↔
      setting.Fits render ∧ t = put render s setting := fun _ _ _ => readScalar_eq_ok_iff
  rw [foldlM_eq_ok_iff hread, forall_fits_iff, foldl_put]

/-! ### The charset -/

theorem refuseCharset_ne_ok [Platform] (v : Value) : refuseCharset v ≠ .ok s := by
  rw [refuseCharset]
  split <;> simp

theorem refuseCharset_eq_unshown_iff [Platform] {v : Value} {why : Value.ShowError} :
    refuseCharset v = .error (.unshown why) ↔
      v.form? (Platform.textDepth .charset) = .error why := by
  rw [refuseCharset]
  cases v.form? (Platform.textDepth .charset) <;> simp

theorem readCharset_eq_ok_iff [Platform] (hs : s.charset = .unicode) :
    readCharset render s = .ok t ↔
      KnownCharset render ∧ t = { s with charset := charsetAt render } := by
  have hself : { s with charset := .unicode } = s := by rw [← hs]
  simp only [readCharset, KnownCharset, charsetAt]
  cases Value.lookup render "charset" with
  | none => simp [hself, eq_comm]
  | some v =>
      cases v with
      | text name =>
          simp only [Option.some.injEq, forall_eq', Value.text.injEq]
          by_cases hunicode : name = "unicode".toList
          · have hascii : name ≠ "ascii".toList := hunicode ▸ by decide
            rw [if_pos hunicode, if_neg hascii, hself, Except.ok.injEq, eq_comm]
            exact (and_iff_right (.inl hunicode)).symm
          · rw [if_neg hunicode]
            by_cases hascii : name = "ascii".toList
            · rw [if_pos hascii, if_pos hascii, Except.ok.injEq, eq_comm]
              exact (and_iff_right (.inr hascii)).symm
            · rw [if_neg hascii]
              exact iff_of_false (refuseCharset_ne_ok _) fun h => h.1.elim hunicode hascii
      | null | bool _ | int _ | float _ | date _ | time _ | timestamp _ | list _ | table _ =>
          simp [refuseCharset_ne_ok]

theorem readCharset_eq_unshown_iff [Platform] {why : Value.ShowError} :
    readCharset render s = .error (.unshown why) ↔
      ∃ v, Value.lookup render "charset" = some v ∧
        (v ≠ .text "unicode".toList ∧ v ≠ .text "ascii".toList) ∧
          v.form? (Platform.textDepth .charset) = .error why := by
  rw [readCharset]
  cases Value.lookup render "charset" with
  | none => simp
  | some v =>
      cases v with
      | text name =>
          simp only [Option.some.injEq, exists_eq_left', ne_eq, Value.text.injEq]
          by_cases hunicode : name = "unicode".toList
          · rw [if_pos hunicode]
            simp [hunicode]
          · rw [if_neg hunicode]
            by_cases hascii : name = "ascii".toList
            · rw [if_pos hascii]
              simp [hascii]
            · rw [if_neg hascii, refuseCharset_eq_unshown_iff]
              exact (and_iff_right ⟨hunicode, hascii⟩).symm
      | null | bool _ | int _ | float _ | date _ | time _ | timestamp _ | list _ | table _ =>
          simp [refuseCharset_eq_unshown_iff]

end Settings

/-! ### Styles -/

theorem Value.style?_eq_some [Platform] {v : Value} {words : Text} {style : Style}
    (hwords : v.shown? .defaultStyle = .ok words) (hparse : Style.parse words = .ok style) :
    v.style? = some style := by
  rw [style?, hwords]
  exact congrArg Except.toOption hparse

namespace StyleSet

@[simp] theorem get_ofSlots (style : StyleSlot → Style) (slot : StyleSlot) :
    (ofSlots style).get slot = style slot := by
  cases slot <;> rfl

@[simp] theorem ofSlots_get (styles : StyleSet) : ofSlots styles.get = styles := rfl

theorem eq_of_get_eq {styles others : StyleSet} (h : ∀ slot, styles.get slot = others.get slot) :
    styles = others := by
  rw [← ofSlots_get styles, ← ofSlots_get others, funext h]

/-- The styles with an entry taken over. -/
def put [Platform] (styles : StyleSet) (entry : Text × Value) : StyleSet :=
  match StyleSlot.ofKey? entry.1 with
  | none => styles
  | some slot => entry.2.style?.elim styles (styles.set slot)

theorem get_put_self [Platform] {slot : StyleSlot} {v : Value} {style : Style}
    (h : v.style? = some style) (styles : StyleSet) :
    (styles.put (slot.key.toList, v)).get slot = style := by
  simp only [put, StyleSlot.ofKey?_eq_some_iff.2 rfl, h]
  exact get_set_self styles slot style

theorem get_put_of_ne [Platform] {entry : Text × Value} {slot : StyleSlot}
    (h : slot.key.toList ≠ entry.1) (styles : StyleSet) :
    (styles.put entry).get slot = styles.get slot := by
  rw [put]
  cases hother : StyleSlot.ofKey? entry.1 with
  | none => rfl
  | some other =>
      have hne : slot ≠ other := fun heq =>
        h (heq ▸ (StyleSlot.ofKey?_eq_some_iff.1 hother).symm)
      cases entry.2.style? with
      | none => rfl
      | some style => exact get_set_of_ne styles style hne

/-- Of several entries for one slot the last is kept. -/
theorem get_foldl_put [Platform] {entries : List (Text × Value)}
    (h : ∀ entry ∈ entries, ReadsStyle entry) (styles : StyleSet) (slot : StyleSlot) :
    (entries.foldl put styles).get slot =
      ((entries.reverse.lookup slot.key.toList).bind Value.style?).getD (styles.get slot) := by
  induction entries using List.reverseRecOn with
  | nil => rfl
  | append_singleton entries entry ih =>
      have hfront := ih fun entry hmem => h entry (List.mem_append_left _ hmem)
      rw [List.foldl_concat, List.reverse_concat]
      by_cases hkey : slot.key.toList = entry.1
      · obtain ⟨key, v⟩ := entry
        obtain rfl : slot.key.toList = key := hkey
        obtain ⟨words, style, hwords, hparse⟩ := h (slot.key.toList, v) (by simp) slot rfl
        have hstyle := Value.style?_eq_some hwords hparse
        rw [get_put_self hstyle, List.lookup_cons_self, Option.bind_some, hstyle]
        rfl
      · rw [get_put_of_ne hkey, List.lookup_cons, beq_false_of_ne hkey, hfront]

end StyleSet

namespace Settings

variable {render entries : List (Text × Value)} {entry : Text × Value} {s t : Settings}
  {why : Value.ShowError}

theorem readsStyle_iff [Platform] {slot : StyleSlot} (h : entry.1 = slot.key.toList) :
    ReadsStyle entry ↔
      ∃ words style, entry.2.shown? .defaultStyle = .ok words ∧ Style.parse words = .ok style :=
  ⟨fun hreads => hreads slot h, fun hstyle _ _ => hstyle⟩

theorem readStyle_eq_ok_iff [Platform] :
    readStyle s entry = .ok t ↔
      ReadsStyle entry ∧ t = { s with styles := s.styles.put entry } := by
  rw [readStyle, StyleSet.put]
  cases hslot : StyleSlot.ofKey? entry.1 with
  | none =>
      have hreads : ReadsStyle entry := fun slot hkey => by
        rw [StyleSlot.ofKey?_eq_some_iff.2 hkey] at hslot
        cases hslot
      simp only [hreads, true_and, Except.ok.injEq]
      exact eq_comm
  | some slot =>
      rw [readsStyle_iff (StyleSlot.ofKey?_eq_some_iff.1 hslot)]
      cases hshown : entry.2.shown? .defaultStyle with
      | error why => cases why <;> simp
      | ok words =>
          cases hparse : Style.parse words with
          | error e => simp [hparse]
          | ok style => simp [hparse, Value.style?_eq_some hshown hparse, eq_comm]

theorem readStyle_eq_unshown_iff [Platform] :
    readStyle s entry = .error (.unshown why) ↔
      (∃ slot : StyleSlot, entry.1 = slot.key.toList) ∧
        entry.2.shown? .defaultStyle = .error .tooDeep ∧ why = .tooDeep := by
  simp only [readStyle, ← StyleSlot.ofKey?_eq_some_iff]
  cases StyleSlot.ofKey? entry.1 with
  | none => simp
  | some slot =>
      cases hshown : entry.2.shown? .defaultStyle with
      | error e => cases e <;> simp [eq_comm]
      | ok words =>
          cases hparse : Style.parse words <;> simp [hparse]

theorem foldl_styles [Platform] (entries : List (Text × Value)) (s : Settings) :
    entries.foldl (fun s entry => { s with styles := s.styles.put entry }) s =
      { s with styles := entries.foldl StyleSet.put s.styles } := by
  induction entries generalizing s with
  | nil => rfl
  | cons entry entries ih => exact ih _

theorem foldlM_readStyle_eq_ok_iff [Platform] :
    entries.foldlM readStyle s = .ok t ↔ (∀ entry ∈ entries, ReadsStyle entry) ∧
      t = { s with styles := entries.foldl StyleSet.put s.styles } := by
  have hread : ∀ s entry t, readStyle s entry = .ok t ↔
      ReadsStyle entry ∧ t = { s with styles := s.styles.put entry } :=
    fun _ _ _ => readStyle_eq_ok_iff
  rw [foldlM_eq_ok_iff hread, foldl_styles]

theorem readStyles_eq_ok_iff [Platform] (hs : s.styles = {}) :
    readStyles render s = .ok t ↔ ReadableStyles render ∧ t = { s with
      styles := .ofSlots fun slot => (styleAt render slot).getD (({} : StyleSet).get slot) } := by
  simp only [readStyles, ReadableStyles, styleAt]
  cases Value.lookup render "styles" with
  | none =>
      have hself : { s with styles := .ofSlots fun slot => ({} : StyleSet).get slot } = s := by
        rw [StyleSet.ofSlots_get, ← hs]
      simp only [reduceCtorEq, false_implies, implies_true, true_and, Except.ok.injEq,
        Option.getD_none, hself]
      exact eq_comm
  | some v =>
      cases v with
      | table entries =>
          simp only [Option.some.injEq, forall_eq', Value.table.injEq, exists_eq_left']
          rw [foldlM_readStyle_eq_ok_iff, hs]
          refine and_congr_right fun hreads => ?_
          have hstyles : entries.foldl StyleSet.put {} = .ofSlots fun slot =>
              ((entries.reverse.lookup slot.key.toList).bind Value.style?).getD
                (({} : StyleSet).get slot) :=
            StyleSet.eq_of_get_eq fun slot => by
              rw [StyleSet.get_foldl_put hreads, StyleSet.get_ofSlots]
          rw [hstyles]
      | null | bool _ | int _ | float _ | text _ | date _ | time _ | timestamp _ | list _ => simp

theorem readStyles_eq_unshown_iff [Platform] :
    readStyles render s = .error (.unshown why) ↔ why = .tooDeep ∧
      ∃ (front : List (Text × Value)) (slot : StyleSlot) (v : Value) (back : List (Text × Value)),
        Value.lookup render "styles" =
            some (.table (front ++ (slot.key.toList, v) :: back)) ∧
          (∀ entry ∈ front, ReadsStyle entry) ∧ v.shown? .defaultStyle = .error .tooDeep := by
  rw [readStyles]
  cases Value.lookup render "styles" with
  | none => simp
  | some v =>
      cases v with
      | table entries =>
          simp only [Option.some.injEq, Value.table.injEq, foldlM_eq_error_iff,
            foldlM_readStyle_eq_ok_iff, readStyle_eq_unshown_iff]
          constructor
          · rintro ⟨front, ⟨key, v⟩, back, t, rfl, ⟨hfront, -⟩, ⟨slot, rfl⟩, hdeep, rfl⟩
            exact ⟨rfl, front, slot, v, back, rfl, hfront, hdeep⟩
          · rintro ⟨rfl, front, slot, v, back, rfl, hfront, hdeep⟩
            exact ⟨front, _, back, _, rfl, ⟨hfront, rfl⟩, ⟨slot, rfl⟩, hdeep, rfl⟩
      | null | bool _ | int _ | float _ | text _ | date _ | time _ | timestamp _ | list _ => simp

/-! ### Whole tables -/

theorem readRender_eq_ok_iff [Platform] :
    readRender render = .ok t ↔
      Typed render ∧ KnownCharset render ∧ ReadableStyles render ∧ t = told render := by
  constructor
  · intro h
    obtain ⟨s, hscalars, hrest⟩ := bind_eq_ok h
    obtain ⟨htyped, rfl⟩ := readScalars_eq_ok_iff.1 hscalars
    obtain ⟨s, hcharset, hstyles⟩ := bind_eq_ok hrest
    obtain ⟨hknown, rfl⟩ := (readCharset_eq_ok_iff rfl).1 hcharset
    obtain ⟨hreadable, rfl⟩ := (readStyles_eq_ok_iff rfl).1 hstyles
    exact ⟨htyped, hknown, hreadable, rfl⟩
  · rintro ⟨htyped, hknown, hreadable, rfl⟩
    rw [readRender, readScalars_eq_ok_iff.2 ⟨htyped, rfl⟩, ok_bind,
      (readCharset_eq_ok_iff rfl).2 ⟨hknown, rfl⟩, ok_bind]
    exact (readStyles_eq_ok_iff rfl).2 ⟨hreadable, rfl⟩

theorem readScalars_ne_unshown (why : Value.ShowError) :
    ScalarSetting.all.foldlM (readScalar render) {} ≠ .error (.unshown why) := by
  intro h
  obtain ⟨front, setting, back, s, -, -, hsetting⟩ := foldlM_eq_error_iff.1 h
  exact readScalar_ne_unshown why hsetting

theorem readRender_eq_unshown_iff [Platform] :
    readRender render = .error (.unshown why) ↔ Unshown render why := by
  constructor
  · intro h
    rcases bind_eq_error h with hscalars | ⟨s, hscalars, hrest⟩
    · exact absurd hscalars (readScalars_ne_unshown why)
    · obtain ⟨htyped, rfl⟩ := readScalars_eq_ok_iff.1 hscalars
      rcases bind_eq_error hrest with hcharset | ⟨s, hcharset, hstyles⟩
      · obtain ⟨v, hfound, hunknown, hshown⟩ := readCharset_eq_unshown_iff.1 hcharset
        exact .charset htyped hfound hunknown hshown
      · obtain ⟨hknown, rfl⟩ := (readCharset_eq_ok_iff rfl).1 hcharset
        obtain ⟨rfl, front, slot, v, back, hfound, hfront, hdeep⟩ :=
          readStyles_eq_unshown_iff.1 hstyles
        exact .style htyped hknown hfound hfront hdeep
  · intro h
    cases h with
    | charset htyped hfound hunknown hshown =>
        rw [readRender, readScalars_eq_ok_iff.2 ⟨htyped, rfl⟩, ok_bind,
          readCharset_eq_unshown_iff.2 ⟨_, hfound, hunknown, hshown⟩, error_bind]
    | style htyped hknown hfound hfront hdeep =>
        rw [readRender, readScalars_eq_ok_iff.2 ⟨htyped, rfl⟩, ok_bind,
          (readCharset_eq_ok_iff rfl).2 ⟨hknown, rfl⟩, ok_bind]
        exact readStyles_eq_unshown_iff.2 ⟨rfl, _, _, _, _, hfound, hfront, hdeep⟩

theorem toSettings_of_check {config : Config} (h : s.check = .ok config) :
    config.toSettings = s := by
  rw [check] at h
  split at h
  · cases h
  · split at h
    · cases h
    · split at h
      · cases h
      · split at h <;> cases h
        rfl

theorem check_of_inRange (h : s.InRange) : s.check = .ok { s with inRange := h } := by
  obtain ⟨hcontext, htab, hlimit, hgap⟩ := h
  have hwidth : ¬s.maxWidth.any (fun limit => decide (limit.toInt < 1)) = true := by
    rw [Option.any_eq_true]
    rintro ⟨limit, hmem, hlow⟩
    exact Int.not_lt.2 (hlimit limit hmem) (of_decide_eq_true hlow)
  rw [check, dif_neg (Int.not_lt.2 hcontext), dif_neg (Int.not_lt.2 htab), dif_neg hwidth,
    dif_neg (Int.not_lt.2 hgap)]

theorem le_getD_iff {least default : Int} (h : least ≤ default) {number : Option Int} :
    least ≤ number.getD default ↔ ∀ n, number = some n → least ≤ n := by
  cases number <;> simp [h]

theorem inRange_told_iff [Platform] : (told render).InRange ↔
    ∀ entry ∈ leastNumbers, ∀ n, Value.lookup render entry.1 = some (.int n) → entry.2 ≤ n := by
  have hwidth : (∀ limit ∈ (told render).maxWidth, 1 ≤ limit.toInt) ↔
      ∀ n, numberAt render "max_width" = some n → 1 ≤ n := by
    simp [told, Amount.toInt]
  simp only [← numberAt_eq_some_iff, leastNumbers, List.forall_mem_cons, List.not_mem_nil,
    false_implies, implies_true, and_true]
  rw [← le_getD_iff (Int.le_refl 0), ← le_getD_iff (show (1 : Int) ≤ 4 by decide), ← hwidth,
    ← le_getD_iff (show (0 : Int) ≤ 1 by decide)]
  rfl

theorem ofTable_of_isRender [Platform] (h : IsRender entries render) :
    ofTable entries = readRender render := by
  rcases h with h | ⟨h, rfl⟩
  · exact ofTable_of_lookup h
  · rw [ofTable, h]
    rfl

theorem isRender_or_refused [Platform] (entries : List (Text × Value)) :
    (∃ render, IsRender entries render) ∨ ofTable entries = .error .renderNotTable := by
  rw [ofTable]
  cases hfound : Value.lookup entries "render" with
  | none => exact .inl ⟨[], .inr ⟨hfound, rfl⟩⟩
  | some v =>
      cases v with
      | table render => exact .inl ⟨render, .inl hfound⟩
      | null | bool _ | int _ | float _ | text _ | date _ | time _ | timestamp _ | list _ =>
          exact .inr rfl

end Settings

namespace Config

variable {entries : List (Text × Value)}

theorem ofTable_eq_ok_iff [Platform] {config : Config} : ofTable entries = .ok config ↔
    ∃ render, IsRender entries render ∧ Acceptable render ∧
      config.toSettings = Settings.told render := by
  constructor
  · intro h
    obtain ⟨s, hs, hcheck⟩ := bind_eq_ok h
    have hsettings := Settings.toSettings_of_check (ok_of_mapError_ok hcheck)
    rcases Settings.isRender_or_refused entries with ⟨render, hrender⟩ | hrefused
    · rw [Settings.ofTable_of_isRender hrender] at hs
      obtain ⟨htyped, hcharset, hstyles, rfl⟩ := Settings.readRender_eq_ok_iff.1 hs
      have hleast := Settings.inRange_told_iff.1 (hsettings ▸ config.inRange)
      exact ⟨render, hrender, ⟨htyped, hleast, hcharset, hstyles⟩, hsettings⟩
    · rw [hrefused] at hs
      cases hs
  · rintro ⟨render, hrender, ⟨htyped, hleast, hcharset, hstyles⟩, hsettings⟩
    have hread := Settings.readRender_eq_ok_iff.2 ⟨htyped, hcharset, hstyles, rfl⟩
    rw [ofTable, Settings.ofTable_of_isRender hrender, hread, ok_bind,
      Settings.check_of_inRange (Settings.inRange_told_iff.2 hleast), ok_mapError]
    obtain ⟨settings, hrange⟩ := config
    obtain rfl : settings = Settings.told render := hsettings
    rfl

theorem exists_ofTable_eq_ok_iff [Platform] : (∃ config, ofTable entries = .ok config) ↔
    ∃ render, IsRender entries render ∧ Acceptable render := by
  simp only [ofTable_eq_ok_iff]
  constructor
  · rintro ⟨-, render, hrender, hacceptable, -⟩
    exact ⟨render, hrender, hacceptable⟩
  · rintro ⟨render, hrender, hacceptable⟩
    have hrange := Settings.inRange_told_iff.2 hacceptable.least
    exact ⟨{ Settings.told render with inRange := hrange }, render, hrender, hacceptable, rfl⟩

theorem ofTable_eq_unshown_iff [Platform] {why : Value.ShowError} :
    ofTable entries = .error (.unshown why) ↔
      ∃ render, IsRender entries render ∧ Unshown render why := by
  constructor
  · intro h
    rcases bind_eq_error h with hs | ⟨s, -, hcheck⟩
    · rcases Settings.isRender_or_refused entries with ⟨render, hrender⟩ | hrefused
      · rw [Settings.ofTable_of_isRender hrender] at hs
        exact ⟨render, hrender, Settings.readRender_eq_unshown_iff.1 hs⟩
      · rw [hrefused] at hs
        cases hs
    · obtain ⟨e, -, he⟩ := mapError_eq_error hcheck
      cases he
  · rintro ⟨render, hrender, hunshown⟩
    rw [ofTable, Settings.ofTable_of_isRender hrender,
      Settings.readRender_eq_unshown_iff.2 hunshown, error_bind]

end Config

/-- A configuration comes from a table exactly if there is a `render` table with only acceptable
settings, or none; it has these settings, and its numbers are in range. Every other table is
refused, and what is wrong is told, except where the value that is wrong has no text. Entries under
unknown keys make no difference to any of this. -/
theorem tables_read [Platform] (entries : List (Text × Value)) :
    ((∃ config, Config.ofTable entries = .ok config) ↔
        ∃ render, IsRender entries render ∧ Acceptable render) ∧
      (∀ config, Config.ofTable entries = .ok config →
        0 ≤ config.context ∧ 1 ≤ config.tab ∧ (∀ limit ∈ config.limit, 1 ≤ limit) ∧
          0 ≤ config.gap ∧
          ∃ render, IsRender entries render ∧ config.toSettings = Settings.told render) ∧
      (∀ why, Config.ofTable entries = .error (.unshown why) ↔
        ∃ render, IsRender entries render ∧ Unshown render why) ∧
      ∀ others, Relation.EqvGen AddsUnknown entries others →
        Config.ofTable others = Config.ofTable entries := by
  refine ⟨Config.exists_ofTable_eq_ok_iff, fun config h => ?_,
    fun why => Config.ofTable_eq_unshown_iff, fun others h => ?_⟩
  · obtain ⟨render, hrender, -, hsettings⟩ := Config.ofTable_eq_ok_iff.1 h
    exact ⟨config.context_nonneg, config.one_le_tab, fun _ => config.one_le_of_mem_limit,
      config.gap_nonneg, render, hrender, hsettings⟩
  · rw [Config.ofTable, Config.ofTable, Settings.ofTable_of_eqvGen h]

/-- A settings file with entries of its own in front of those at each of the three levels. -/
def narrowTable (file render styles : List (Text × Value)) : List (Text × Value) :=
  file ++ [("render".toList, .table (render ++ [("max_width".toList, .int 72),
    ("styles".toList, .table (styles ++ [("source".toList, .text "Bold, red".toList)]))]))]

section

attribute [local instance] Platform.usual

theorem tables_read_narrow : ∃ config,
    Config.ofTable (narrowTable [] [] []) = .ok config ∧ 1 ≤ config.tab ∧
      config.limit = some 72 ∧ config.styles.source = { color := some .red, bold := true } ∧
      ∀ v w u : Value, Config.ofTable (narrowTable [("editor".toList, v)] [("editor".toList, w)]
        [("editor".toList, u)]) = .ok config := by
  have hread := tables_read (narrowTable [] [] [])
  have hsettings : (Config.ofTable (narrowTable [] [] [])).toOption.map Config.toSettings =
      some { maxWidth := some 72, styles := { source := { color := some .red, bold := true } } } :=
    by decide +kernel
  cases hconfig : Config.ofTable (narrowTable [] [] []) with
  | error e =>
      rw [hconfig] at hsettings
      cases hsettings
  | ok config =>
      rw [hconfig] at hsettings
      have hfields := Option.some.inj hsettings
      obtain ⟨-, htab, -⟩ := hread.2.1 config hconfig
      refine ⟨config, rfl, htab, by rw [Config.limit, hfields]; rfl, by rw [hfields], ?_⟩
      intro v w u
      have hstyles : AddsUnknown (narrowTable [] [] [])
          (narrowTable [] [] [("editor".toList, u)]) :=
        @AddsUnknown.styles [] [] [("max_width".toList, .int 72)] [] [] _ _ (by decide) u
      have hrender : AddsUnknown (narrowTable [] [] [("editor".toList, u)])
          (narrowTable [] [("editor".toList, w)] [("editor".toList, u)]) :=
        @AddsUnknown.render [] [] [] _ _ (by decide) w
      have hfile : AddsUnknown (narrowTable [] [("editor".toList, w)] [("editor".toList, u)])
          (narrowTable [("editor".toList, v)] [("editor".toList, w)] [("editor".toList, u)]) :=
        @AddsUnknown.file [] _ _ (by decide) v
      have hsame := hread.2.2.2 _ <|
        .trans _ _ _ (.rel _ _ hstyles) (.trans _ _ _ (.rel _ _ hrender) (.rel _ _ hfile))
      exact hsame.trans hconfig

/-- A whole number of 3572 hexadecimal digits as the charset: what is wrong with it cannot be told,
for in base ten the number is too long. -/
theorem long_charset_unshown : Config.ofTable
    [("render".toList, .table [("charset".toList, .int (Nat.pow 16 3572 - 1 : Nat))])] =
      .error (.unshown .tooManyDigits) := by
  have hshown : Value.wholeForm? (Nat.pow 16 3572 - 1 : Nat) = .error .tooManyDigits :=
    if_pos (by decide +kernel)
  have htyped : ∀ n, Typed [("charset".toList, .int n)] := by
    intro n
    constructor <;> simp [truthKeys, leastNumbers, Value.lookup, List.lookup_cons]
  refine Config.ofTable_eq_unshown_iff.2 ⟨_, .inl rfl, .charset (htyped _) rfl ?_ hshown⟩
  constructor <;> rintro ⟨⟩

end

end Excerpt
