import Excerpt.Proofs.LaidOut
import Excerpt.Proofs.Underlines

/-!
How many slots leaders take. A range that gets a new slot starts on a line to which the last range
of every other slot reaches, so no more slots are made than ranges share one line, and the margin of
an excerpt is as wide as the line with the most leaders needs.
-/

namespace Excerpt

theorem le_of_lt_freeSlot {busyUntil : List Int} {line : Int} {slot : Nat}
    (h : slot < freeSlot busyUntil line) :
    ∃ until', busyUntil[slot]? = some until' ∧ line ≤ until' := by
  have hlt := Nat.lt_of_lt_of_le h (freeSlot_le busyUntil line)
  refine ⟨busyUntil[slot], List.getElem?_eq_getElem hlt, ?_⟩
  have hbusy := List.not_of_lt_findIdx h
  simpa using hbusy

theorem getElem?_of_occupy_of_ne {busyUntil : List Int} {slot other : Nat} {last until' : Int}
    (hslot : slot ≤ busyUntil.length) (hne : other ≠ slot)
    (h : (occupy busyUntil slot last)[other]? = some until') :
    busyUntil[other]? = some until' := by
  simp only [occupy] at h
  split at h
  case isTrue => rwa [List.getElem?_set_ne hne.symm] at h
  case isFalse hge =>
    have hlt := (List.getElem?_eq_some_iff.1 h).1
    rw [List.length_append, List.length_singleton] at hlt
    rwa [List.getElem?_append_left (by omega)] at h

/-- Below the slot that a range takes, every slot is busy where the range starts. -/
theorem exists_busy_of_lt_slot {busyUntil : List Int} {entries : List (LineRange × Nat)}
    (hsorted : entries.Pairwise fun a b => a.1.first ≤ b.1.first)
    {x : (LineRange × Nat) × (Nat × Nat)} (hx : x ∈ entries.zip (registerAll busyUntil entries))
    {slot : Nat} (h : slot < x.2.2) :
    (∃ until', busyUntil[slot]? = some until' ∧ x.1.1.first ≤ until') ∨
      ∃ y ∈ entries.zip (registerAll busyUntil entries), y.2.2 = slot ∧
        y.1.1.first ≤ x.1.1.first ∧ x.1.1.first ≤ y.1.1.last := by
  induction entries generalizing busyUntil with
  | nil => exact absurd hx List.not_mem_nil
  | cons e entries ih =>
      obtain ⟨hfirst, hsorted⟩ := List.pairwise_cons.1 hsorted
      simp only [registerAll, List.zip_cons_cons] at hx ⊢
      rcases List.mem_cons.1 hx with rfl | hx
      · exact .inl (le_of_lt_freeSlot h)
      · rcases ih hsorted hx with ⟨until', hbusy, hle⟩ | ⟨y, hy, hslot, hlow, hhigh⟩
        · by_cases hown : slot = freeSlot busyUntil e.1.first
          · rw [hown, getElem?_occupy_self _ _ (freeSlot_le _ _)] at hbusy
            refine .inr ⟨_, List.mem_cons_self .., hown.symm, hfirst _ (List.of_mem_zip hx).1, ?_⟩
            rwa [Option.some.inj hbusy]
          · exact .inl ⟨until', getElem?_of_occupy_of_ne (freeSlot_le _ _) hown hbusy, hle⟩
        · exact .inr ⟨y, List.mem_cons_of_mem _ hy, hslot, hlow, hhigh⟩

section Slots

variable {ranges : List LineRange} {i j slot lower : Nat} {a b : LineRange}

theorem exists_on_lower_slot (ha : ranges[i]? = some a)
    (hi : (assignLeaderSlots ranges)[i]? = some slot) (h : lower < slot) :
    ∃ (j : Nat) (b : LineRange), ranges[j]? = some b ∧ b.has a.first = true ∧
      (assignLeaderSlots ranges)[j]? = some lower := by
  have hperm := sortBy_perm LineRange.startsBefore ranges.zipIdx
  have hx := mem_zip_of_answer hperm (registerAll_positions [] _) ha hi
  obtain ⟨until', hbusy, -⟩ | ⟨y, hy, rfl, hlow, hhigh⟩ :=
    exists_busy_of_lt_slot (sortBy_startsBefore_pairwise ranges.zipIdx) hx h
  · rw [List.getElem?_nil] at hbusy
    cases hbusy
  · obtain ⟨hrange, -, hanswer⟩ := answer_of_mem_zip hperm (registerAll_positions [] _) hy
    exact ⟨_, _, hrange, LineRange.has_iff.2 ⟨hlow, hhigh⟩, hanswer⟩

theorem slots_ne_of_has {line : Int} (hij : i ≠ j) (ha : ranges[i]? = some a)
    (hb : ranges[j]? = some b) (haline : a.has line = true) (hbline : b.has line = true) :
    (assignLeaderSlots ranges)[i]? ≠ (assignLeaderSlots ranges)[j]? := by
  intro heq
  obtain ⟨slot, hslot⟩ := exists_number_of_entry (length_assignLeaderSlots ranges) ha
  have hapart := assignLeaderSlots_apart hij ha hb hslot (heq ▸ hslot)
  rw [LineRange.has_iff] at haline hbline
  omega

/-- The slots that are used are the ones nearest to the text. -/
theorem mem_assignLeaderSlots_iff :
    slot ∈ assignLeaderSlots ranges ↔ slot < numberCount (assignLeaderSlots ranges) := by
  apply mem_iff_lt_numberCount
  intro slot hslot lower hlt
  obtain ⟨i, a, ha, hi⟩ := exists_entry_of_mem (length_assignLeaderSlots ranges) hslot
  obtain ⟨j, b, -, -, hj⟩ := exists_on_lower_slot ha hi hlt
  exact List.mem_of_getElem? hj

theorem countAt_has_le (ranges : List LineRange) (line : Int) :
    countAt LineRange.has ranges line ≤ numberCount (assignLeaderSlots ranges) := by
  apply countAt_le (length_assignLeaderSlots ranges) (fun slot => mem_assignLeaderSlots_iff.1)
  intro i j a b line hij ha hb haline hbline
  exact slots_ne_of_has hij ha hb haline hbline

/-- Where the range of a slot starts, no lower slot is left without a range. -/
theorem lt_countAt_first (hrising : ∀ r ∈ ranges, r.first ≤ r.last) (ha : ranges[i]? = some a)
    (hi : (assignLeaderSlots ranges)[i]? = some slot) :
    slot < countAt LineRange.has ranges a.first := by
  have hall : ∀ number ∈ List.range (slot + 1), ∃ (j : Nat) (b : LineRange),
      ranges[j]? = some b ∧ b.has a.first = true ∧
        (assignLeaderSlots ranges)[j]? = some number := by
    intro number hnumber
    rcases Nat.lt_or_eq_of_le (Nat.le_of_lt_succ (List.mem_range.1 hnumber)) with hlt | rfl
    · exact exists_on_lower_slot ha hi hlt
    · have hself := hrising a (List.mem_of_getElem? ha)
      exact ⟨i, a, ha, LineRange.has_iff.2 ⟨Int.le_refl _, hself⟩, hi⟩
  have hlength := length_le_countP (p := fun e : LineRange × Nat => e.1.has a.first)
    List.nodup_range hall
  rwa [List.length_range, ← countAt_eq_countP] at hlength

theorem isGreatest_slots (hrising : ∀ r ∈ ranges, r.first ≤ r.last) :
    IsGreatest (Set.range (countAt LineRange.has ranges))
      (numberCount (assignLeaderSlots ranges)) := by
  constructor
  · cases hcount : numberCount (assignLeaderSlots ranges) with
    | zero => exact ⟨0, Nat.le_zero.1 (hcount ▸ countAt_has_le ranges 0)⟩
    | succ top =>
        have htop : top ∈ assignLeaderSlots ranges := mem_assignLeaderSlots_iff.2 (by omega)
        obtain ⟨i, a, ha, hi⟩ := exists_entry_of_mem (length_assignLeaderSlots ranges) htop
        exact ⟨a.first, Nat.le_antisymm (hcount ▸ countAt_has_le ranges a.first)
          (lt_countAt_first hrising ha hi)⟩
  · rintro _ ⟨line, rfl⟩
    exact countAt_has_le ranges line

end Slots

namespace Layout

variable {placed : List PlacedLabel}

/-- The ranges of lines for which slots are given. -/
def leaderRanges (placed : List PlacedLabel) : List LineRange :=
  (placed.filter (·.span.isMultiline)).map lineRange

theorem map_lineRange_leadersOf (placed : List PlacedLabel) :
    (leadersOf placed).map (fun lead => lineRange lead.toPlacedLabel) = leaderRanges placed := by
  rw [leaderRanges, ← leadersOf_toPlacedLabel, List.map_map]
  rfl

theorem map_slot_leadersOf (placed : List PlacedLabel) :
    (leadersOf placed).map Leader.slot = assignLeaderSlots (leaderRanges placed) := by
  simp only [leadersOf, List.map_map]
  refine Eq.trans (List.map_congr_left fun p _ => rfl) (List.map_snd_zip ?_)
  exact Nat.le_of_eq (by rw [length_assignLeaderSlots, List.length_map])

theorem slotCount_ofPlaced {w : CellWidth} {config : Config} {title : Text} {source : Source} :
    (ofPlaced w config title source placed).slotCount =
      numberCount (assignLeaderSlots (leaderRanges placed)) := by
  rw [numberCount, ← map_slot_leadersOf, List.foldl_map]
  rfl

/-- The leaders that meet on a line are as many as ranges have it. -/
theorem length_leaders_layLine (number : Nat) (text : Text)
    (hindex : (placed.map PlacedLabel.index).Nodup)
    (hrising : ∀ lab ∈ placed, lab.span.startLine ≤ lab.span.endLine) :
    (layLine placed (leadersOf placed) number text).leaders.length =
      countAt LineRange.has (leaderRanges placed) number := by
  have hnodup : (leadersOf placed).Nodup := (index_nodup_leadersOf hindex).of_map
  have hperm : (layLine placed (leadersOf placed) number text).leaders.Perm
      ((leadersOf placed).filter fun lead => (lineRange lead.toPlacedLabel).has number) := by
    refine (List.perm_ext_iff_of_nodup (nodup_leaders_layLine number text hnodup)
      (hnodup.filter _)).2 fun lead => ?_
    rw [mem_leaders_layLine number text hrising, List.mem_filter, LineRange.has_iff, lineRange,
      Int.ofNat_le, Int.ofNat_le]
  rw [hperm.length_eq, countAt, ← map_lineRange_leadersOf, List.countP_map,
    List.countP_eq_length_filter]
  rfl

/-- The slots of a layout are as many as leaders meet on one of its lines. -/
theorem slotCount_eq_leaders [Platform] {w : CellWidth} {config : Config} {diagnostic : Diagnostic}
    {layout : Layout} (hlayout : build w config diagnostic = .ok layout) :
    (∀ line ∈ layout.lines, line.leaders.length ≤ layout.slotCount) ∧
      (layout.slotCount = 0 ∨ ∃ line ∈ layout.lines, line.leaders.length = layout.slotCount) := by
  obtain ⟨source, placed, -, -, hindex, hwithin, rfl⟩ := exists_of_build_ok hlayout
  have hrising : ∀ lab ∈ placed, lab.span.startLine ≤ lab.span.endLine :=
    fun lab hlab => (hwithin lab hlab).rising
  have hranges : ∀ r ∈ leaderRanges placed, r.first ≤ r.last := by
    intro r hr
    obtain ⟨lab, hlab, rfl⟩ := List.mem_map.1 hr
    exact Int.ofNat_le.2 (hrising lab (List.mem_filter.1 hlab).1)
  obtain ⟨⟨line, hline⟩, hmost⟩ := isGreatest_slots hranges
  rw [slotCount_ofPlaced]
  constructor
  · intro line hline
    obtain ⟨-, -, number, -, rfl⟩ := exists_number_of_mem_lines hline
    rw [shownLine, length_leaders_layLine number _ hindex hrising]
    exact countAt_has_le _ _
  · rcases Nat.eq_zero_or_pos (numberCount (assignLeaderSlots (leaderRanges placed))) with
      hzero | hpos
    · exact .inl hzero
    · right
      rw [← hline] at hpos ⊢
      -- a line that some leader has is among the shown ones
      obtain ⟨r, hr, hhas⟩ := List.countP_pos_iff.1 hpos
      obtain ⟨lab, hlab, rfl⟩ := List.mem_map.1 hr
      rw [LineRange.has_iff] at hhas
      simp only [lineRange] at hhas
      obtain ⟨number, rfl⟩ : ∃ number : Nat, line = number := ⟨line.toNat, by omega⟩
      refine ⟨_, shownLine_mem_lines w config diagnostic.title hwithin (List.mem_filter.1 hlab).1
        (Int.ofNat_le.1 hhas.1) (Int.ofNat_le.1 hhas.2), ?_⟩
      exact length_leaders_layLine number _ hindex hrising

end Layout

open Layout

/-- Ranges that share a line are in slots of their own, and there are as many slots as ranges share
one line. So the margin of an excerpt, two cells to a slot, has room for the leaders of the line on
which most of them meet, and for no more. -/
theorem leader_slots_fewest [Platform] :
    (∀ ranges : List LineRange, (∀ r ∈ ranges, r.first ≤ r.last) →
      (assignLeaderSlots ranges).length = ranges.length ∧
      (∀ (i j : Nat) (a b : LineRange) (line : Int), i ≠ j → ranges[i]? = some a →
        ranges[j]? = some b → a.has line = true → b.has line = true →
          (assignLeaderSlots ranges)[i]? ≠ (assignLeaderSlots ranges)[j]?) ∧
      ∃ count, (∀ slot, slot ∈ assignLeaderSlots ranges ↔ slot < count) ∧
        IsGreatest (Set.range (countAt LineRange.has ranges)) count ∧ (ranges = [] → count = 0)) ∧
    ∀ (w : CellWidth) (config : Config) (diagnostic : Diagnostic) (layout : Layout),
      build w config diagnostic = .ok layout →
        (∀ line ∈ layout.lines, line.leaders.length ≤ layout.slotCount) ∧
        (layout.slotCount = 0 ∨ ∃ line ∈ layout.lines, line.leaders.length = layout.slotCount) ∧
        (OneCell w config.charset → ∀ active,
          Segment.total w (Canvas.margin ⟨w, config, layout⟩ active) = 2 * layout.slotCount) := by
  constructor
  · intro ranges hrising
    refine ⟨length_assignLeaderSlots ranges, ?_, _, fun slot => mem_assignLeaderSlots_iff,
      isGreatest_slots hrising, ?_⟩
    · intro i j a b line hij ha hb haline hbline
      exact slots_ne_of_has hij ha hb haline hbline
    · rintro rfl
      rfl
  · intro w config diagnostic layout hlayout
    obtain ⟨hmost, hneeded⟩ := slotCount_eq_leaders hlayout
    refine ⟨hmost, hneeded, fun hcells active => ?_⟩
    exact (Canvas.fills_margin (c := ⟨w, config, layout⟩) hcells active).total_eq

/-- Three labels over several lines, all of which have the third line. -/
def braided : Diagnostic where
  title := ['t']
  source := some ⟨"one\ntwo\nthree\nfour\nfive\n".toList, none, none⟩
  labels := [⟨⟨0, 9⟩, some ['a'], none⟩, ⟨⟨5, 16⟩, some ['b'], none⟩, ⟨⟨10, 20⟩, none, none⟩,
    ⟨⟨16, 22⟩, none, none⟩]

section

attribute [local instance] Platform.usual

theorem leader_slots_fewest_braided :
    assignLeaderSlots [⟨4, 7⟩, ⟨0, 9⟩, ⟨5, 6⟩, ⟨2, 3⟩, ⟨2, 3⟩] = [1, 0, 2, 1, 2] ∧
      IsGreatest (Set.range (countAt LineRange.has [⟨4, 7⟩, ⟨0, 9⟩, ⟨5, 6⟩, ⟨2, 3⟩, ⟨2, 3⟩])) 3 ∧
      ∃ layout : Layout, build (fun _ => 1) .default braided = .ok layout ∧ layout.slotCount = 3 ∧
        ∃ line ∈ layout.lines, line.leaders.length = 3 := by
  obtain ⟨hslots, hlayouts⟩ := leader_slots_fewest
  have hassigned :
      assignLeaderSlots [⟨4, 7⟩, ⟨0, 9⟩, ⟨5, 6⟩, ⟨2, 3⟩, ⟨2, 3⟩] = [1, 0, 2, 1, 2] := by decide
  obtain ⟨-, -, count, hused, hmost, -⟩ :=
    hslots [⟨4, 7⟩, ⟨0, 9⟩, ⟨5, 6⟩, ⟨2, 3⟩, ⟨2, 3⟩] (by decide)
  rw [hassigned] at hused
  have hcount : count = 3 := by
    have hlow := (hused 2).1 (by decide)
    have hhigh := mt (hused 3).2 (by decide)
    omega
  obtain ⟨layout, hlayout, hthree⟩ : ∃ layout : Layout,
      build (fun _ => 1) .default braided = .ok layout ∧ layout.slotCount = 3 := ⟨_, rfl, rfl⟩
  obtain ⟨-, hzero | hline, -⟩ := hlayouts _ _ _ _ hlayout
  · rw [hthree] at hzero
    cases hzero
  · exact ⟨hassigned, hcount ▸ hmost, layout, hlayout, hthree, hthree ▸ hline⟩

end

end Excerpt
