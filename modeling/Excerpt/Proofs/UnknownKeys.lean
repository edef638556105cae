import Mathlib.Logic.Relation
import Excerpt.Config.Table
import Excerpt.Proofs.Results

/-!
Keys that name no setting. A settings file has three levels, the file, its `render` table and the
styles in that table, and at each only certain keys are looked up. An entry under any other key can
be put in, taken out or changed at any of them: what is read stays the same, and so does the error
if nothing can be read.
-/

namespace Excerpt

namespace Value

theorem lookup_add {key : Text} {name : String} (h : key ≠ name.toList)
    (front : List (Text × Value)) (v : Value) (back : List (Text × Value)) :
    lookup (front ++ (key, v) :: back) name = lookup (front ++ back) name := by
  have hname : (name.toList == key) = false := beq_false_of_ne h.symm
  simp only [lookup, List.lookup_append, List.lookup_cons, hname]

/-- Another value under a key is found in the place of the old one, unless an entry in front of both
has the key. -/
theorem lookup_exchange (name : String) (front : List (Text × Value)) (v w : Value)
    (back : List (Text × Value)) :
    lookup (front ++ (name.toList, w) :: back) name =
        lookup (front ++ (name.toList, v) :: back) name ∨
      lookup (front ++ (name.toList, v) :: back) name = some v ∧
        lookup (front ++ (name.toList, w) :: back) name = some w := by
  simp only [lookup, List.lookup_append, List.lookup_cons, BEq.rfl]
  cases front.lookup name.toList with
  | none => exact .inr ⟨rfl, rfl⟩
  | some _ => exact .inl rfl

end Value

theorem StyleSlot.ofKey?_eq_some_iff {s : Text} {slot : StyleSlot} :
    ofKey? s = some slot ↔ s = slot.key.toList := by
  constructor
  · intro h
    rw [ofKey?] at h
    have hkey := List.find?_some h
    exact (eq_of_beq hkey).symm
  · rintro rfl
    cases slot <;> rfl

def ScalarSetting.key : ScalarSetting → String
  | number key _ | truth key _ => key

/-- The keys of a `render` table. -/
def renderKeys : List String :=
  ["color_enabled", "context_lines", "tab_width", "max_width", "compact_by_default", "merge_gap",
    "trim_indent", "charset", "styles"]

/-- A key that is none of those that are looked up. -/
def UnknownKey (keys : List String) (key : Text) : Prop := ∀ name ∈ keys, key ≠ name.toList

instance (keys : List String) (key : Text) : Decidable (UnknownKey keys key) :=
  inferInstanceAs (Decidable (∀ name ∈ keys, key ≠ name.toList))

/-- The second table has an entry more than the first, under a key that is unknown at its level. -/
inductive AddsUnknown : List (Text × Value) → List (Text × Value) → Prop where
  | file {front back : List (Text × Value)} {key : Text} (h : UnknownKey ["render"] key)
      (v : Value) : AddsUnknown (front ++ back) (front ++ (key, v) :: back)
  | render {above below front back : List (Text × Value)} {key : Text}
      (h : UnknownKey renderKeys key) (v : Value) :
      AddsUnknown (above ++ ("render".toList, .table (front ++ back)) :: below)
        (above ++ ("render".toList, .table (front ++ (key, v) :: back)) :: below)
  | styles {above below head tail front back : List (Text × Value)} {key : Text}
      (h : UnknownKey (StyleSlot.all.map StyleSlot.key) key) (v : Value) :
      AddsUnknown
        (above ++ ("render".toList, .table
          (head ++ ("styles".toList, .table (front ++ back)) :: tail)) :: below)
        (above ++ ("render".toList, .table
          (head ++ ("styles".toList, .table (front ++ (key, v) :: back)) :: tail)) :: below)

namespace Settings

variable {entries others render other : List (Text × Value)}

/-- The settings in a `render` table. -/
def readRender [Platform] (render : List (Text × Value)) : Except TableError Settings := do
  let s ← ScalarSetting.all.foldlM (readScalar render) {}
  let s ← s.readCharset render
  s.readStyles render

theorem ofTable_of_lookup [Platform] (h : Value.lookup entries "render" = some (.table render)) :
    ofTable entries = readRender render := by
  rw [ofTable, h]
  rfl

theorem readScalar_congr {setting : ScalarSetting}
    (h : Value.lookup other setting.key = Value.lookup render setting.key) (s : Settings) :
    readScalar other s setting = readScalar render s setting := by
  cases setting with
  | number key set | truth key set =>
      have hkey : Value.lookup other key = Value.lookup render key := h
      simp only [readScalar, hkey]

theorem readRender_congr [Platform]
    (hkeys : ∀ name ∈ renderKeys, name ≠ "styles" →
      Value.lookup other name = Value.lookup render name)
    (hstyles : ∀ s, readStyles other s = readStyles render s) :
    readRender other = readRender render := by
  have hscalars : ∀ setting ∈ ScalarSetting.all, ∀ s,
      readScalar other s setting = readScalar render s setting := by
    intro setting hsetting
    have hknown : ∀ setting ∈ ScalarSetting.all,
        setting.key ∈ renderKeys ∧ setting.key ≠ "styles" := by
      simp [ScalarSetting.all, ScalarSetting.key, renderKeys]
    obtain ⟨hkey, hne⟩ := hknown setting hsetting
    exact readScalar_congr (hkeys _ hkey hne)
  have hcharset : ∀ s, readCharset other s = readCharset render s := by
    intro s
    have hkey := hkeys "charset" (by decide) (by decide)
    simp only [readCharset, hkey]
  simp only [readRender, foldlM_congr hscalars, hcharset, hstyles]

theorem readStyles_congr [Platform] {s : Settings}
    (h : Value.lookup other "styles" = Value.lookup render "styles") :
    readStyles other s = readStyles render s := by
  simp only [readStyles, h]

theorem foldlM_readStyle_add [Platform] {front back : List (Text × Value)} {key : Text}
    (h : UnknownKey (StyleSlot.all.map StyleSlot.key) key) (v : Value) (s : Settings) :
    (front ++ (key, v) :: back).foldlM readStyle s = (front ++ back).foldlM readStyle s := by
  have hslot : StyleSlot.ofKey? key = none := by
    rw [Option.eq_none_iff_forall_ne_some]
    intro slot hslot
    refine h slot.key (List.mem_map_of_mem ?_) (StyleSlot.ofKey?_eq_some_iff.1 hslot)
    cases slot <;> decide
  have hskip : ∀ t : Settings, readStyle t (key, v) = .ok t := by
    intro t
    simp only [readStyle, hslot]
  simp only [List.foldlM_append, List.foldlM_cons, hskip, ok_bind]

theorem readStyles_exchange [Platform] (hsame : ∀ s : Settings,
      others.foldlM readStyle s = entries.foldlM readStyle s)
    (front back : List (Text × Value)) (s : Settings) :
    readStyles (front ++ ("styles".toList, .table others) :: back) s =
      readStyles (front ++ ("styles".toList, .table entries) :: back) s := by
  rcases Value.lookup_exchange "styles" front (.table entries) (.table others) back
    with h | ⟨hold, hnew⟩
  · exact readStyles_congr h
  · simp only [readStyles, hold, hnew]
    exact hsame s

theorem ofTable_exchange [Platform] (hsame : readRender other = readRender render)
    (front back : List (Text × Value)) :
    ofTable (front ++ ("render".toList, .table other) :: back) =
      ofTable (front ++ ("render".toList, .table render) :: back) := by
  rcases Value.lookup_exchange "render" front (.table render) (.table other) back
    with h | ⟨hold, hnew⟩
  · simp only [ofTable, h]
  · rw [ofTable_of_lookup hold, ofTable_of_lookup hnew, hsame]

/-- An entry under an unknown key makes no difference. -/
theorem ofTable_of_addsUnknown [Platform] (h : AddsUnknown entries others) :
    ofTable others = ofTable entries := by
  cases h with
  | @file front back key h v =>
      have hlookup := Value.lookup_add (h "render" (by decide)) front v back
      simp only [ofTable, hlookup]
  | @render above below front back key h v =>
      refine ofTable_exchange (readRender_congr (fun name hname _ => ?_) fun s => ?_) above below
      · exact Value.lookup_add (h name hname) front v back
      · exact readStyles_congr (Value.lookup_add (h "styles" (by decide)) front v back)
  | @styles above below head tail front back key h v =>
      refine ofTable_exchange (readRender_congr (fun name _ hne => ?_) fun s => ?_) above below
      · have hother : "styles".toList ≠ name.toList := fun heq =>
          hne (String.toList_injective heq.symm)
        rw [Value.lookup_add hother, Value.lookup_add hother]
      · exact readStyles_exchange (foldlM_readStyle_add h v) head tail s

/-- Tables that differ in entries under unknown keys only are read the same. -/
theorem ofTable_of_eqvGen [Platform] (h : Relation.EqvGen AddsUnknown entries others) :
    ofTable others = ofTable entries := by
  induction h with
  | rel entries others h => exact ofTable_of_addsUnknown h
  | refl entries => rfl
  | symm entries others _ ih => exact ih.symm
  | trans entries middle others _ _ ihfront ihback => exact ihback.trans ihfront

end Settings
end Excerpt
