import Mathlib.Data.List.Nodup
import Excerpt.Drawing.Underlines
import Excerpt.Proofs.Schedule

/-!
Labels of a line by rung and by columns. Every label is on one rung, and every label shares its
columns with one primary label, so both ways of going through a line meet each label once.
-/

namespace Excerpt

namespace LineLayout

/-- The labels that are underlined on a line. -/
def labels (line : LineLayout) : List PlacedLabel := line.singles.map (·.1)

/-- No two of them have the same index. -/
def Indexed (line : LineLayout) : Prop := (line.labels.map PlacedLabel.index).Nodup

variable {line : LineLayout}

theorem mem_labels_iff {lab : PlacedLabel} :
    lab ∈ line.labels ↔ ∃ rung < line.rungCount, lab ∈ line.onRung rung := by
  rw [labels, List.mem_map]
  constructor
  · rintro ⟨⟨lab, rung⟩, hmem, rfl⟩
    have honRung := Layout.mem_onRung_iff.2 hmem
    exact ⟨rung, Layout.lt_rungCount honRung, honRung⟩
  · rintro ⟨rung, -, honRung⟩
    exact ⟨(lab, rung), Layout.mem_onRung_iff.1 honRung, rfl⟩

theorem mem_labels_of_mem_onRung {lab : PlacedLabel} {rung : Nat} (h : lab ∈ line.onRung rung) :
    lab ∈ line.labels := mem_labels_iff.2 ⟨rung, Layout.lt_rungCount h, h⟩

namespace Indexed

variable (h : line.Indexed)

include h

theorem nodup : line.labels.Nodup := List.Nodup.of_map _ h

theorem eq_of_index {a b : PlacedLabel} (ha : a ∈ line.labels) (hb : b ∈ line.labels)
    (heq : a.index = b.index) : a = b := List.inj_on_of_nodup_map h ha hb heq

theorem nodup_onRung (rung : Nat) : (line.onRung rung).Nodup := by
  refine (sortBy_perm ..).nodup_iff.2 (h.nodup.sublist ?_)
  exact List.filter_sublist.map _

theorem rung_unique {lab : PlacedLabel} {rung other : Nat} (hrung : lab ∈ line.onRung rung)
    (hother : lab ∈ line.onRung other) : rung = other := by
  have hpair := List.inj_on_of_nodup_map h.nodup (Layout.mem_onRung_iff.1 hrung)
    (Layout.mem_onRung_iff.1 hother) rfl
  exact congrArg Prod.snd hpair

/-- Rung by rung, every label of the line comes once. -/
theorem onRung_perm : ((List.range line.rungCount).flatMap line.onRung).Perm line.labels := by
  have hnodup : ((List.range line.rungCount).flatMap line.onRung).Nodup := by
    refine List.nodup_flatMap.2 ⟨fun rung _ => h.nodup_onRung rung, ?_⟩
    refine List.nodup_range.imp fun {rung other} hne lab hrung hother => ?_
    exact hne (h.rung_unique hrung hother)
  refine (List.perm_ext_iff_of_nodup hnodup h.nodup).2 fun lab => ?_
  rw [List.mem_flatMap, mem_labels_iff]
  simp only [List.mem_range]

end Indexed
end LineLayout

namespace Canvas

variable {c : Canvas} {line : LineLayout}

theorem mem_sharing {lab other : PlacedLabel} : other ∈ c.sharing line lab ↔
    other ∈ line.labels ∧ c.underlineCols other = c.underlineCols lab := by
  rw [sharing, List.mem_filter, mem_sortBy, beq_iff_eq, LineLayout.labels]

theorem sharing_congr {a b : PlacedLabel} (h : c.underlineCols a = c.underlineCols b) :
    c.sharing line a = c.sharing line b := by
  rw [sharing, sharing, h]

theorem sortBy_earlier_pairwise (labs : List PlacedLabel) :
    (sortBy PlacedLabel.earlier labs).Pairwise fun a b => a.index ≤ b.index := by
  refine (sortBy_lex_pairwise (fun lab => lab.index) (fun _ => 0) (fun a b => ?_) labs).imp ?_
  · simp only [PlacedLabel.earlier, decide_eq_true_eq]
    omega
  · intro a b hab
    exact Int.ofNat_le.1 hab

/-- The labels of a rung that are underlined for all that share their columns. -/
def primaries (c : Canvas) (line : LineLayout) (rung : Nat) : List PlacedLabel :=
  (line.onRung rung).filter (c.isPrimary line)

section Primary

variable (h : line.Indexed)

include h

theorem primaries_perm : ((List.range line.rungCount).flatMap (c.primaries line)).Perm
    (line.labels.filter (c.isPrimary line)) := by
  have hprimaries := h.onRung_perm.filter (c.isPrimary line)
  rwa [List.filter_flatMap] at hprimaries

theorem nodup_sharing (lab : PlacedLabel) : (c.sharing line lab).Nodup :=
  ((sortBy_perm ..).nodup_iff.2 h.nodup).filter _

theorem isPrimary_iff {lab : PlacedLabel} (hlab : lab ∈ line.labels) :
    c.isPrimary line lab = true ↔ (c.sharing line lab).head? = some lab := by
  rw [isPrimary, beq_iff_eq]
  cases hhead : (c.sharing line lab).head? with
  | none => simp
  | some first =>
      have hfirst := (mem_sharing.1 (List.mem_of_head? hhead)).1
      rw [Option.map_some, Option.some.injEq, Option.some.injEq]
      exact ⟨fun heq => h.eq_of_index hfirst hlab heq, fun heq => heq ▸ rfl⟩

/-- Every label is underlined by the primary label of its columns. -/
theorem exists_primary {lab : PlacedLabel} (hlab : lab ∈ line.labels) :
    ∃ primary ∈ line.labels, c.isPrimary line primary = true ∧
      c.underlineCols primary = c.underlineCols lab := by
  have hself : lab ∈ c.sharing line lab := mem_sharing.2 ⟨hlab, rfl⟩
  cases hshare : c.sharing line lab with
  | nil =>
      rw [hshare] at hself
      exact absurd hself List.not_mem_nil
  | cons primary rest =>
      have hmem : primary ∈ c.sharing line lab := hshare ▸ List.mem_cons_self
      obtain ⟨hprimary, hcols⟩ := mem_sharing.1 hmem
      refine ⟨primary, hprimary, (isPrimary_iff h hprimary).2 ?_, hcols⟩
      rw [sharing_congr hcols, hshare]
      rfl

theorem primary_unique {a b : PlacedLabel} (ha : a ∈ line.labels) (hb : b ∈ line.labels)
    (hprimarya : c.isPrimary line a = true) (hprimaryb : c.isPrimary line b = true)
    (hcols : c.underlineCols a = c.underlineCols b) : a = b := by
  rw [isPrimary_iff h ha, sharing_congr hcols, (isPrimary_iff h hb).1 hprimaryb] at hprimarya
  exact (Option.some.inj hprimarya).symm

/-- Going through the primary labels with those that share their columns, every label of the line
comes once. -/
theorem sharing_perm :
    ((line.labels.filter (c.isPrimary line)).flatMap (c.sharing line)).Perm line.labels := by
  have hnodup : ((line.labels.filter (c.isPrimary line)).flatMap (c.sharing line)).Nodup := by
    refine List.nodup_flatMap.2 ⟨fun lab _ => nodup_sharing h lab, ?_⟩
    refine (h.nodup.filter _).imp_of_mem ?_
    intro a b ha hb hne lab hlaba hlabb
    rw [List.mem_filter] at ha hb
    have hcols := (mem_sharing.1 hlaba).2.symm.trans (mem_sharing.1 hlabb).2
    exact hne (primary_unique h ha.1 hb.1 ha.2 hb.2 hcols)
  refine (List.perm_ext_iff_of_nodup hnodup h.nodup).2 fun lab => ?_
  rw [List.mem_flatMap]
  constructor
  · rintro ⟨primary, -, hlab⟩
    exact (mem_sharing.1 hlab).1
  · intro hlab
    obtain ⟨primary, hprimary, hfirst, hcols⟩ := exists_primary h hlab
    exact ⟨primary, List.mem_filter.2 ⟨hprimary, hfirst⟩, mem_sharing.2 ⟨hlab, hcols.symm⟩⟩

end Primary
end Canvas
end Excerpt
