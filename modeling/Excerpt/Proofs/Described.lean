import Excerpt.Description.Rendering
import Excerpt.Proofs.Outcome
import Excerpt.Proofs.ValueTexts

/-!
What a value must hold for its diagnostic to go wrong in ways that no caller expects: a label that
starts or ends at an infinity, a value that lies too deep for the text it stands for, or a source
called by something that is no text.
-/

namespace Excerpt

theorem Value.toWhole_infinite {v : Value} (h : v.toWhole = .error .infinite) :
    ∃ negative, v = .float (.infinite negative) := by
  cases v with
  | float x =>
      cases x with
      | infinite negative => exact ⟨negative, rfl⟩
      | finite negative m power => cases h
      | nan => cases h
  | text s =>
      rw [toWhole] at h
      split at h <;> cases h
  | _ => cases h

theorem Value.lt_depth_of_shown? [Platform] {use : TextUse} {v : Value}
    (h : v.shown? use = .error .tooDeep) : Platform.textDepth use < v.depth := by
  cases v with
  | text s => cases h
  | date d => cases h
  | time t => cases h
  | timestamp t => cases h
  | _ => exact lt_depth_of_form? h

/-- Errors in descriptions that no caller expects. -/
def DescriptionError.Unexpected : DescriptionError → Prop
  | .badBound .infinite | .unshown .tooDeep => True
  | _ => False

namespace Description

/-! ### Errors that are not expected -/

section Errors

variable {α β : Type} {P : DescriptionError → Prop}

/-- If the result is an error that no caller expects, it is one of these. -/
def Fails (x : Except DescriptionError α) (P : DescriptionError → Prop) : Prop :=
  ∀ e, x = .error e → e.Unexpected → P e

theorem fails_ok (a : α) : Fails (.ok a) P := fun _ he => nomatch he

theorem fails_expected {e : DescriptionError} (h : ¬e.Unexpected) :
    Fails (.error e : Except DescriptionError α) P := by
  intro e' he hunexpected
  cases he
  exact absurd hunexpected h

theorem Fails.mono {x : Except DescriptionError α} {Q : DescriptionError → Prop} (h : Fails x P)
    (hPQ : ∀ e, P e → Q e) : Fails x Q := fun e he hunexpected => hPQ e (h e he hunexpected)

theorem Fails.bind {x : Except DescriptionError α} {f : α → Except DescriptionError β}
    (hx : Fails x P) (hf : ∀ a, x = .ok a → Fails (f a) P) : Fails (x >>= f) P := by
  intro e he
  rcases bind_eq_error he with he | ⟨a, ha, he⟩
  · exact hx e he
  · exact hf a ha e he

theorem fails_mapM {f : α → Except DescriptionError β} {l : List α}
    (h : ∀ a ∈ l, Fails (f a) P) : Fails (l.mapM f) P := by
  intro e he
  obtain ⟨a, ha, hfa⟩ := exists_of_mapM_error he
  exact h a ha e hfa

theorem fails_require (entries : List (Text × Value)) (key : String) :
    Fails (require entries key) P := by
  rw [require]
  split
  · exact fails_ok _
  · exact fails_expected id

end Errors

theorem lookup_of_require {entries : List (Text × Value)} {key : String} {v : Value}
    (h : require entries key = .ok v) : Value.lookup entries key = some v := by
  rw [require] at h
  split at h
  next v' hv => rw [hv, Except.ok.inj h]
  · cases h

theorem eq_some_of_given? {found : Option Value} {v : Value} (h : given? found = some v) :
    found = some v := by
  cases found with
  | none => cases h
  | some found =>
      cases found with
      | null => cases h
      | _ => exact h

theorem eq_list_of_table_mem_elements {v : Value} {items : List Value} (h : elements v = .ok items)
    {entries : List (Text × Value)} (hmem : .table entries ∈ items) : v = .list items := by
  cases v with
  | list items' =>
      cases h
      rfl
  | text s =>
      cases h
      obtain ⟨c, -, hc⟩ := List.mem_map.1 hmem
      cases hc
  | table keys =>
      cases h
      obtain ⟨key, -, hkey⟩ := List.mem_map.1 hmem
      cases hkey
  | _ => cases h

/-! ### What in a description leads to them -/

section Causes

variable [Platform]

/-- Where items of descriptions hold values that stand for texts: the key of the list, the key in
the item, and what the text is for. -/
def textPlaces : List (String × String × TextUse) :=
  [("labels", "text", .labelText), ("labels", "style", .style),
    ("footnotes", "text", .footnoteText), ("footnotes", "style", .style)]

/-- An item of a list has what it takes for an error: a label starts or ends at an infinity, or a
value lies too deep for the text it stands for. -/
inductive ItemCauses (list : String) (item : List (Text × Value)) : DescriptionError → Prop
  | bound {key : String} {negative : Bool} (hlist : list = "labels")
      (hkey : key = "start" ∨ key = "end")
      (hbound : Value.lookup item key = some (.float (.infinite negative))) :
      ItemCauses list item (.badBound .infinite)
  | text {key : String} {use : TextUse} {v : Value} (hplace : (list, key, use) ∈ textPlaces)
      (hv : Value.lookup item key = some v) (hdeep : Platform.textDepth use < v.depth) :
      ItemCauses list item (.unshown .tooDeep)

/-- A description has what it takes for an error: a title that lies too deep for its text, or an
item. -/
inductive Causes : Value → DescriptionError → Prop
  | title {entries : List (Text × Value)} {v : Value} (hv : Value.lookup entries "title" = some v)
      (hdeep : Platform.textDepth .title < v.depth) : Causes (.table entries) (.unshown .tooDeep)
  | item {entries : List (Text × Value)} {list : String} {items : List Value}
      {item : List (Text × Value)} {e : DescriptionError}
      (hitems : Value.lookup entries list = some (.list items)) (hitem : .table item ∈ items)
      (h : ItemCauses list item e) : Causes (.table entries) e

/-- The source of the description is called by something that is no text, and neither empty nor
zero. -/
inductive OddName : Value → Prop
  | intro {entries source : List (Text × Value)} {called : Value}
      (hsource : Value.lookup entries "source" = some (.table source))
      (hname : Value.lookup source "name" = some called)
      (hsomething : called.isSomething = true) (htext : ∀ s, called ≠ .text s) :
      OddName (.table entries)

variable {list : String} {item : List (Text × Value)}

theorem fails_textOf {P : DescriptionError → Prop} {use : TextUse} {v : Value}
    (h : Platform.textDepth use < v.depth → P (.unshown .tooDeep)) : Fails (textOf use v) P := by
  intro e he hunexpected
  obtain ⟨why, hwhy, rfl⟩ := mapError_eq_error he
  cases why with
  | tooDeep => exact h (Value.lt_depth_of_shown? hwhy)
  | tooManyDigits => exact absurd hunexpected id

theorem fails_bound {key : String} (hkey : key = "start" ∨ key = "end") :
    Fails (bound item key) (ItemCauses "labels" item) := by
  refine (fails_require item key).bind fun v hv => ?_
  intro e he hunexpected
  obtain ⟨why, hwhy, rfl⟩ := mapError_eq_error he
  cases why with
  | infinite =>
      obtain ⟨negative, rfl⟩ := Value.toWhole_infinite hwhy
      exact .bound rfl hkey (lookup_of_require hv)
  | _ => exact absurd hunexpected id

theorem fails_style (hplace : (list, "style", .style) ∈ textPlaces) :
    Fails (style item) (ItemCauses list item) := by
  rw [style]
  split
  · exact fails_ok _
  next v hv =>
    refine (fails_textOf (.text hplace (eq_some_of_given? hv))).bind fun words _ => ?_
    intro e he hunexpected
    obtain ⟨why, -, rfl⟩ := mapError_eq_error he
    exact absurd hunexpected id

/-- The value is an item with what it takes for an error. -/
def IsCause (list : String) (v : Value) (e : DescriptionError) : Prop :=
  ∃ item, v = .table item ∧ ItemCauses list item e

theorem fails_label (v : Value) : Fails (label v) (IsCause "labels" v) := by
  cases v with
  | table item =>
      refine Fails.mono (P := ItemCauses "labels" item) ?_ fun e he => ⟨item, rfl, he⟩
      refine (fails_bound (.inl rfl)).bind fun start _ => ?_
      refine (fails_bound (.inr rfl)).bind fun stop _ => ?_
      refine Fails.bind ?_ fun text _ => ?_
      · cases htext : given? (Value.lookup item "text") with
        | none => exact fails_ok _
        | some v =>
            refine Fails.bind (fails_textOf ?_) fun text _ => fails_ok _
            exact .text (by decide) (eq_some_of_given? htext)
      · exact (fails_style (by decide)).bind fun style _ => fails_ok _
  | _ => exact fails_expected id

theorem fails_footnote (v : Value) : Fails (footnote v) (IsCause "footnotes" v) := by
  cases v with
  | text s => exact fails_ok _
  | table item =>
      refine Fails.mono (P := ItemCauses "footnotes" item) ?_ fun e he => ⟨item, rfl, he⟩
      refine (fails_require item "text").bind fun v hv => ?_
      refine (fails_textOf (.text (by decide) (lookup_of_require hv))).bind fun text _ => ?_
      exact (fails_style (by decide)).bind fun style _ => fails_ok _
  | _ => exact fails_expected id

theorem fails_each {α : Type} {entries : List (Text × Value)}
    {f : Value → Except DescriptionError α} (h : ∀ v, Fails (f v) (IsCause list v)) :
    Fails (each entries list f) (Causes (.table entries)) := by
  refine Fails.bind ?_ fun items hitems => fails_mapM fun v hv => ?_
  · cases (Value.lookup entries list).getD (.list []) with
    | list items => exact fails_ok _
    | text s => exact fails_ok _
    | table entries => exact fails_ok _
    | _ => exact fails_expected id
  · refine (h v).mono ?_
    rintro e ⟨item, rfl, he⟩
    have hlist := eq_list_of_table_mem_elements hitems hv
    cases hlookup : Value.lookup entries list with
    | none =>
        rw [hlookup] at hlist
        cases hlist
        exact absurd hv List.not_mem_nil
    | some v =>
        rw [hlookup] at hlist
        exact .item (hlookup.trans (congrArg some hlist)) hv he

theorem fails_complete (entries : List (Text × Value)) (title : Text)
    (found : Option (Source × Option Value)) :
    Fails (complete entries title found) (Causes (.table entries)) :=
  (fails_each fails_label).bind fun _ _ =>
    (fails_each fails_footnote).bind fun _ _ => fails_ok _

end Causes

theorem eq_of_name_snd {v : Option Value} {odd : Value} (h : (name v).2 = some odd) :
    v = some odd ∧ ∀ s, odd ≠ .text s := by
  cases v with
  | none => cases h
  | some v =>
      cases v with
      | null => cases h
      | text s => cases h
      | _ =>
          cases h
          exact ⟨rfl, fun s => nofun⟩

/-- A source is refused, though only for what is expected, or it is found and its odd name is the
one that the entries give. -/
inductive Named (entries : List (Text × Value)) :
    Except DescriptionError (Source × Option Value) → Prop
  | refused {e : DescriptionError} (h : ¬e.Unexpected) : Named entries (.error e)
  | found (s : Source) : Named entries (.ok (s, (name (Value.lookup entries "name")).2))

/-- The same for the source of a description, which may have none. -/
inductive Sourced (entries : List (Text × Value)) :
    Except DescriptionError (Option (Source × Option Value)) → Prop
  | refused {e : DescriptionError} (h : ¬e.Unexpected) : Sourced entries (.error e)
  | absent : Sourced entries (.ok none)
  | found {inner : List (Text × Value)} (s : Source)
      (h : Value.lookup entries "source" = some (.table inner)) :
      Sourced entries (.ok (some (s, (name (Value.lookup inner "name")).2)))

theorem Named.sourced {entries inner : List (Text × Value)}
    {result : Except DescriptionError (Source × Option Value)} (h : Named inner result)
    (hsource : Value.lookup entries "source" = some (.table inner)) :
    Sourced entries (result.map some) := by
  cases h with
  | refused h => exact .refused h
  | found s => exact .found s hsource

theorem Sourced.fails {entries : List (Text × Value)}
    {result : Except DescriptionError (Option (Source × Option Value))}
    (h : Sourced entries result) {P : DescriptionError → Prop} : Fails result P := by
  cases h with
  | refused h => exact fails_expected h
  | absent => exact fails_ok _
  | found s _ => exact fails_ok _

section Files

variable [Halves] (access : FileAccess Id) (directory : FilePath)

theorem named_sourceFromFile (entries : List (Text × Value)) (path : Value) :
    Named entries (sourceFromFile access directory entries path).run := by
  cases path with
  | text given =>
      have hname : (name (some ((Value.lookup entries "name").getD (.text given)))).2 =
          (name (Value.lookup entries "name")).2 := by
        cases Value.lookup entries "name" <;> rfl
      simp only [sourceFromFile]
      split
      · exact .refused id
      · simp only [Id.run_bind, Id.run_pure]
        cases (Source.read access (directory.join (FilePath.parse given))
          (name (some ((Value.lookup entries "name").getD (.text given)))).1).run with
        | error e => exact .refused id
        | ok s =>
            rw [hname]
            exact .found _
  | _ => exact .refused id

theorem named_sourceFromText (entries : List (Text × Value)) :
    Named entries (sourceFromText entries) := by
  rw [sourceFromText, require]
  cases Value.lookup entries "text" with
  | none => exact .refused id
  | some v =>
      cases v with
      | text given =>
          simp only [ok_bind]
          cases Halves.writable given with
          | ok text => exact .found _
          | error e => exact .refused id
      | _ => exact .refused id

theorem sourced_source (entries : List (Text × Value)) :
    Sourced entries (source access directory entries).run := by
  rw [source]
  cases hsource : Value.lookup entries "source" with
  | none => exact .absent
  | some v =>
      cases v with
      | null => exact .absent
      | table inner =>
          simp only [given?, asTable]
          cases Value.lookup inner "path" with
          | some path => exact (named_sourceFromFile access directory inner path).sourced hsource
          | none => exact (named_sourceFromText inner).sourced hsource
      | _ => exact .refused id

end Files
end Description

namespace Described

variable [Platform] (access : FileAccess Id) (directory : FilePath)

open Description

theorem ofValue_table (entries : List (Text × Value)) :
    (ofValue access directory (.table entries)).run =
      Description.title entries >>= fun title =>
        (Description.source access directory entries).run >>= complete entries title := by
  simp only [ofValue, asTable]
  cases Description.title entries <;> rfl

/-- What is beyond expectation stands in the description. -/
theorem causes_of_ofValue {v : Value} {e : DescriptionError}
    (h : (ofValue access directory v).run = .error e) (hunexpected : e.Unexpected) :
    Causes v e := by
  cases v with
  | table entries =>
      have htitle : Fails (Description.title entries) (Causes (.table entries)) := by
        rw [Description.title]
        split
        · exact fails_ok _
        next v hv => exact fails_textOf (.title hv)
      have hsource : Fails (Description.source access directory entries).run
          (Causes (.table entries)) := by
        exact (sourced_source access directory entries).fails
      rw [ofValue_table] at h
      exact htitle.bind (fun title _ => hsource.bind fun found _ =>
        fails_complete entries title found) e h hunexpected
  | _ =>
      cases h
      exact absurd hunexpected id

theorem oddName_of_complete {entries : List (Text × Value)} {title : Text}
    {found : Option (Source × Option Value)} {d : Described}
    (h : complete entries title found = .ok d) : d.oddName = found.bind (·.2) := by
  obtain ⟨labels, -, h⟩ := bind_eq_ok h
  obtain ⟨footnotes, -, h⟩ := bind_eq_ok h
  cases h
  rfl

/-- What stands in the way of a text is the name that the description gives its source. -/
theorem oddName_of_ofValue {v name : Value} {d : Described}
    (h : (ofValue access directory v).run = .ok d) (hname : d.obstacle? = some name) :
    OddName v := by
  obtain ⟨hodd, hsomething⟩ := Option.filter_eq_some_iff.1 hname
  cases v with
  | table entries =>
      have hsourced := sourced_source access directory entries
      rw [ofValue_table] at h
      obtain ⟨title, -, h⟩ := bind_eq_ok h
      obtain ⟨found, hfound, hcomplete⟩ := bind_eq_ok h
      rw [oddName_of_complete hcomplete] at hodd
      rw [hfound] at hsourced
      cases hsourced with
      | absent => cases hodd
      | found s hsource =>
          obtain ⟨hcalled, htext⟩ := eq_of_name_snd hodd
          exact .intro hsource hcalled hsomething htext
  | _ => cases h

end Described

/-! ### Rendering -/

/-- Only tab stops further apart than a text can be long make a text too long. -/
theorem Diagnostic.maxLength_lt_of_oversized [Platform] {w : CellWidth} {config : Config}
    {mode : Mode} {diagnostic : Diagnostic} {e : SizeError}
    (h : diagnostic.render w config mode = .error (.oversized e)) :
    Platform.maxLength < config.tab := by
  by_contra htab
  cases hsource : diagnostic.source with
  | none =>
      rw [render_of_build_error (Layout.build_noSource w config hsource)] at h
      cases h
  | some source =>
      by_cases hfits : ∀ label ∈ diagnostic.labels, label.span.Fits source.length
      · obtain ⟨placed, -, -, hok⟩ := render_fits w config mode hsource hfits
        obtain ⟨text, htext⟩ := hok (sizeFault?_of_le w source placed (by omega))
        rw [htext] at h
        cases h
      · simp only [not_forall, exists_prop] at hfits
        obtain ⟨e', -, herror⟩ := render_misfit w config mode hsource hfits
        rw [herror] at h
        cases h

namespace Described

variable [Platform] {w : CellWidth} {config : Config} {mode : Mode} {d : Described}

/-- What a source is called has no part in whether it can be laid out. -/
theorem build_called_of_error {e : RenderError}
    (h : Layout.build w config d.diagnostic = .error e) (name : Text) :
    Layout.build w config (d.called name) = .error e := by
  cases hsource : d.diagnostic.source with
  | none =>
      rw [Layout.build_noSource w config hsource] at h
      rw [← h]
      exact Layout.build_noSource w config (by rw [called, hsource]; rfl)
  | some source =>
      simp only [Layout.build, hsource] at h
      simp only [Layout.build, called, hsource, Option.map_some]
      exact bind_error_of (fun labels => bind_error_of fun groups hdone => by cases hdone) h

theorem render_of_build_error {e : RenderError}
    (h : Layout.build w config d.diagnostic = .error e) (mode : Mode) :
    d.render w config mode = .error (.render e) := by
  rw [render]
  split
  · rw [Diagnostic.render_of_build_error h mode, error_mapError]
  next name hname =>
    have hrows : Rendering.rows w config mode (d.called name.typeName.toList) = .error e := by
      cases mode with
      | expanded =>
          rw [Rendering.rows, Rendering.expandedRows, build_called_of_error h, error_bind]
      | compact =>
          rw [Rendering.rows, Rendering.compactRows, build_called_of_error h, error_bind]
    rw [hrows, error_mapError, error_bind]

end Described

/-- Errors that no caller expects: a text that is too long, and whatever comes of a source name
that is no text. -/
def DescribedError.Unexpected : DescribedError → Prop
  | .render (.oversized _) => True
  | .render _ => False
  | _ => True

theorem Described.cause_of_unexpected [Platform] {w : CellWidth} {config : Config}
    {mode : Mode} {d : Described} {e : DescribedError} (h : d.render w config mode = .error e)
    (hunexpected : e.Unexpected) :
    (∃ size, e = .render (.oversized size) ∧ Platform.maxLength < config.tab) ∨
      ∃ name, d.obstacle? = some name := by
  rw [render] at h
  split at h
  · obtain ⟨e', hrender, rfl⟩ := mapError_eq_error h
    cases e' with
    | oversized size => exact .inl ⟨size, rfl, Diagnostic.maxLength_lt_of_oversized hrender⟩
    | _ => exact absurd hunexpected id
  next name hname => exact .inr ⟨name, hname⟩

end Excerpt
