import Excerpt.Style

/-!
The settings of one rendering: glyphs, styles, tab stops, context, width limit. A configuration is
a set of settings whose numbers are in range, and it stays one under every update.
-/

namespace Excerpt

/-- The glyphs that an excerpt is drawn with. -/
structure Charset where
  verticalBar : Text := ['│']
  separator : Text := [':']
  elision : Text := ['⋮']
  underliner : Text := ['^']
  horizontalBar : Text := ['─']
  topCorner : Text := ['╭']
  bottomCorner : Text := ['╰']
  leader : Text := ['│']
  crossing : Text := ['┼']
  pending : Text := ['│']
  ellipsis : Text := ['…']
  footnote : Text := ['>']
deriving Repr, DecidableEq

def Charset.unicode : Charset := {}

def Charset.ascii : Charset where
  verticalBar := ['|']
  separator := [':']
  elision := ['.']
  underliner := ['^']
  horizontalBar := ['-']
  topCorner := [',']
  bottomCorner := ['`']
  leader := ['|']
  crossing := ['+']
  pending := ['|']
  ellipsis := ['~']
  footnote := ['>']

/-- The styles of what is drawn around the texts, and of labels without a style of their own. -/
structure StyleSet where
  sourceName : Style := { color := some .white, bold := true }
  source : Style := { color := some .white }
  leftColumn : Style := { color := some .brightBlue, bold := true }
  multilineIndicator : Style := { color := some .yellow }
  singlelineIndicator : Style := { color := some .yellow }
  footnoteIndicator : Style := { color := some .brightBlue, bold := true }
deriving Repr, DecidableEq

/-- The value of a number setting. A truth value stands for 0 or 1 and is kept as it was given. -/
inductive Amount where
  | number (n : Int)
  | truth (b : Bool)
deriving Repr, DecidableEq

def Amount.toInt : Amount → Int
  | .number n => n
  | .truth b => if b then 1 else 0

instance (n : Nat) : OfNat Amount n := ⟨.number n⟩

/-- Settings whose numbers have not been looked at yet. -/
structure Settings where
  colorEnabled : Bool := true
  contextLines : Amount := 0
  tabWidth : Amount := 4
  maxWidth : Option Amount := none
  compactByDefault : Bool := false
  mergeGap : Amount := 1
  trimIndent : Bool := false
  charset : Charset := {}
  styles : StyleSet := {}
deriving Repr, DecidableEq

/-- A number setting that is too small. -/
inductive RangeError where
  | contextLines
  | tabWidth
  | maxWidth
  | mergeGap
deriving Repr, DecidableEq

def RangeError.message : RangeError → String
  | .contextLines => "context_lines must not be negative"
  | .tabWidth => "tab_width must be at least 1"
  | .maxWidth => "max_width must be at least 1"
  | .mergeGap => "merge_gap must not be negative"

/-- The numbers that a rendering can work with. -/
def Settings.InRange (s : Settings) : Prop :=
  0 ≤ s.contextLines.toInt ∧ 1 ≤ s.tabWidth.toInt ∧ (∀ limit ∈ s.maxWidth, 1 ≤ limit.toInt) ∧
    0 ≤ s.mergeGap.toInt

structure Config extends Settings where
  inRange : toSettings.InRange

namespace Config

/-- The cells between tab stops. -/
def tab (c : Config) : Int := c.tabWidth.toInt

/-- The lines shown around labelled ones. -/
def context (c : Config) : Int := c.contextLines.toInt

/-- The most hidden lines between two shown ones that are shown after all. -/
def gap (c : Config) : Int := c.mergeGap.toInt

/-- The cells that a row may take. -/
def limit (c : Config) : Option Int := c.maxWidth.map Amount.toInt

theorem one_le_tab (c : Config) : 1 ≤ c.tab := c.inRange.2.1

theorem context_nonneg (c : Config) : 0 ≤ c.context := c.inRange.1

theorem gap_nonneg (c : Config) : 0 ≤ c.gap := c.inRange.2.2.2

theorem one_le_of_mem_limit (c : Config) {limit : Int} (h : limit ∈ c.limit) : 1 ≤ limit := by
  obtain ⟨amount, hamount, rfl⟩ := Option.map_eq_some_iff.1 h
  exact c.inRange.2.2.1 amount hamount

end Config

/-- The configuration with these settings, or the first number that is too small. -/
def Settings.check (s : Settings) : Except RangeError Config :=
  if hcontext : s.contextLines.toInt < 0 then .error .contextLines
  else if htab : s.tabWidth.toInt < 1 then .error .tabWidth
  else if hlimit : s.maxWidth.any (fun limit => decide (limit.toInt < 1)) = true then
    .error .maxWidth
  else if hgap : s.mergeGap.toInt < 0 then .error .mergeGap
  else
    .ok
      { s with
        inRange :=
          ⟨by omega, by omega,
            fun limit h => by
              refine Decidable.byContradiction fun hlow => ?_
              exact hlimit ((Option.any_eq_true _ _).2 ⟨limit, h, decide_eq_true (by omega)⟩),
            by omega⟩ }

/-- Settings to replace. A width limit of zero removes the limit. -/
structure Changes where
  colorEnabled : Option Bool := none
  contextLines : Option Amount := none
  tabWidth : Option Amount := none
  maxWidth : Option Amount := none
  compactByDefault : Option Bool := none
  mergeGap : Option Amount := none
  trimIndent : Option Bool := none
  charset : Option Charset := none
  styles : Option StyleSet := none
deriving Repr, DecidableEq

def Settings.with (s : Settings) (changes : Changes) : Settings where
  colorEnabled := changes.colorEnabled.getD s.colorEnabled
  contextLines := changes.contextLines.getD s.contextLines
  tabWidth := changes.tabWidth.getD s.tabWidth
  maxWidth :=
    match changes.maxWidth with
    | none => s.maxWidth
    | some limit => if limit.toInt = 0 then none else some limit
  compactByDefault := changes.compactByDefault.getD s.compactByDefault
  mergeGap := changes.mergeGap.getD s.mergeGap
  trimIndent := changes.trimIndent.getD s.trimIndent
  charset := changes.charset.getD s.charset
  styles := changes.styles.getD s.styles

def Config.updated (c : Config) (changes : Changes) : Except RangeError Config :=
  (c.toSettings.with changes).check

theorem Settings.inRange_default : Settings.InRange {} := by
  refine ⟨by decide, by decide, ?_, by decide⟩
  intro limit h
  cases h

def Config.default : Config := { inRange := Settings.inRange_default }

instance : Inhabited Config := ⟨Config.default⟩

end Excerpt
