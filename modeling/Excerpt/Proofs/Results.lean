import Mathlib.Data.List.Forall2

/-!
Results that are a value or an error. Steps that follow each other end at the first error, so a
chain of them gives a value exactly if every step does, and its error is that of one step behind
others that give values.
-/

namespace Excerpt

variable {α β ε δ : Type}

@[simp] theorem ok_bind (a : α) (f : α → Except ε β) : (Except.ok a >>= f) = f a := rfl

@[simp] theorem error_bind (e : ε) (f : α → Except ε β) : (Except.error e >>= f) = .error e := rfl

@[simp] theorem ok_mapError (f : ε → δ) (a : α) : (Except.ok a).mapError f = .ok a := rfl

@[simp] theorem error_mapError (f : ε → δ) (e : ε) :
    (Except.error e : Except ε α).mapError f = .error (f e) := rfl

theorem bind_eq_error {x : Except ε α} {f : α → Except ε β} {e : ε} (h : x >>= f = .error e) :
    x = .error e ∨ ∃ a, x = .ok a ∧ f a = .error e := by
  cases x with
  | error e' => exact .inl (congrArg Except.error (Except.error.inj h))
  | ok a => exact .inr ⟨a, rfl, h⟩

theorem bind_eq_ok {x : Except ε α} {f : α → Except ε β} {b : β} (h : x >>= f = .ok b) :
    ∃ a, x = .ok a ∧ f a = .ok b := by
  cases x with
  | error e' => cases h
  | ok a => exact ⟨a, rfl, h⟩

/-- An error in front stays, and one behind does if the other continuation has it as well. -/
theorem bind_error_of {γ : Type} {x : Except ε α} {f : α → Except ε β} {g : α → Except ε γ} {e : ε}
    (hfg : ∀ a, f a = .error e → g a = .error e) (h : x >>= f = .error e) :
    x >>= g = .error e := by
  rcases bind_eq_error h with rfl | ⟨a, rfl, hf⟩
  · rfl
  · exact hfg a hf

theorem mapError_eq_error {x : Except ε α} {f : ε → δ} {e : δ} (h : x.mapError f = .error e) :
    ∃ e', x = .error e' ∧ f e' = e := by
  cases x with
  | error e' => exact ⟨e', rfl, Except.error.inj h⟩
  | ok a => cases h

theorem ok_of_mapError_ok {x : Except ε α} {f : ε → δ} {a : α} (h : x.mapError f = .ok a) :
    x = .ok a := by
  cases x with
  | error e => cases h
  | ok a' => exact congrArg Except.ok (Except.ok.inj h)

theorem map_eq_error {x : Except ε α} {f : α → β} {e : ε} (h : x.map f = .error e) :
    x = .error e := by
  cases x with
  | error e' => exact congrArg Except.error (Except.error.inj h)
  | ok a => cases h

theorem map_eq_ok {x : Except ε α} {f : α → β} {b : β} (h : x.map f = .ok b) :
    ∃ a, x = .ok a ∧ f a = b := by
  cases x with
  | error e => cases h
  | ok a => exact ⟨a, rfl, Except.ok.inj h⟩

/-- Working through a list is refused for the sake of one of its items. -/
theorem exists_of_mapM_error {f : α → Except ε β} {l : List α} {e : ε} (h : l.mapM f = .error e) :
    ∃ a ∈ l, f a = .error e := by
  induction l with
  | nil => cases h
  | cons a l ih =>
      rw [List.mapM_cons] at h
      rcases bind_eq_error h with ha | ⟨b, -, hrest⟩
      · exact ⟨a, List.mem_cons_self, ha⟩
      · rcases bind_eq_error hrest with hl | ⟨bs, -, hdone⟩
        · obtain ⟨a', hmem, ha'⟩ := ih hl
          exact ⟨a', List.mem_cons_of_mem a hmem, ha'⟩
        · cases hdone

theorem mapM_eq_ok_iff {f : α → Except ε β} {l : List α} {bs : List β} :
    l.mapM f = .ok bs ↔ List.Forall₂ (fun a b => f a = .ok b) l bs := by
  induction l generalizing bs with
  | nil =>
      rw [List.forall₂_nil_left_iff]
      exact ⟨fun h => (Except.ok.inj h).symm, fun h => h ▸ rfl⟩
  | cons a l ih =>
      rw [List.mapM_cons, List.forall₂_cons_left_iff]
      constructor
      · intro h
        obtain ⟨b, ha, hrest⟩ := bind_eq_ok h
        obtain ⟨bs', hl, hdone⟩ := bind_eq_ok hrest
        exact ⟨b, bs', ha, ih.1 hl, (Except.ok.inj hdone).symm⟩
      · rintro ⟨b, bs', ha, hl, rfl⟩
        rw [ha, ih.2 hl]
        rfl

theorem exists_mapM_eq_ok_iff {f : α → Except ε β} {l : List α} :
    (∃ bs, l.mapM f = .ok bs) ↔ ∀ a ∈ l, ∃ b, f a = .ok b := by
  simp only [mapM_eq_ok_iff]
  induction l with
  | nil => simp
  | cons a l ih =>
      simp only [List.forall₂_cons_left_iff, List.forall_mem_cons, ← ih]
      constructor
      · rintro ⟨-, b, bs, ha, hl, rfl⟩
        exact ⟨⟨b, ha⟩, bs, hl⟩
      · rintro ⟨⟨b, ha⟩, bs, hl⟩
        exact ⟨_, b, bs, ha, hl, rfl⟩

theorem exists_of_mem_mapM {f : α → Except ε β} {l : List α} {bs : List β} (h : l.mapM f = .ok bs)
    {b : β} (hb : b ∈ bs) : ∃ a ∈ l, f a = .ok b := by
  induction l generalizing bs with
  | nil =>
      cases h
      exact absurd hb List.not_mem_nil
  | cons a l ih =>
      rw [List.mapM_cons] at h
      obtain ⟨b', ha, hrest⟩ := bind_eq_ok h
      obtain ⟨bs', hl, hdone⟩ := bind_eq_ok hrest
      cases hdone
      rcases List.mem_cons.1 hb with rfl | hb
      · exact ⟨a, List.mem_cons_self, ha⟩
      · obtain ⟨a', hmem, ha'⟩ := ih hl hb
        exact ⟨a', List.mem_cons_of_mem a hmem, ha'⟩

section Fold

variable {σ : Type} {f : σ → α → Except ε σ}

/-- Where every item is taken under a condition of its own, all of them are. -/
theorem foldlM_eq_ok_iff {P : α → Prop} {g : σ → α → σ}
    (hf : ∀ s a t, f s a = .ok t ↔ P a ∧ t = g s a) {l : List α} {s t : σ} :
    l.foldlM f s = .ok t ↔ (∀ a ∈ l, P a) ∧ t = l.foldl g s := by
  induction l generalizing s with
  | nil => simpa using ⟨fun h => (Except.ok.inj h).symm, fun h => h ▸ rfl⟩
  | cons a l ih =>
      rw [List.foldlM_cons, List.forall_mem_cons, List.foldl_cons]
      constructor
      · intro h
        obtain ⟨s', hs', hrest⟩ := bind_eq_ok h
        obtain ⟨ha, rfl⟩ := (hf s a s').1 hs'
        obtain ⟨hl, ht⟩ := ih.1 hrest
        exact ⟨⟨ha, hl⟩, ht⟩
      · rintro ⟨⟨ha, hl⟩, ht⟩
        rw [(hf s a _).2 ⟨ha, rfl⟩, ok_bind]
        exact ih.2 ⟨hl, ht⟩

/-- The item that is refused, behind others that are taken. -/
theorem foldlM_eq_error_iff {l : List α} {s : σ} {e : ε} :
    l.foldlM f s = .error e ↔
      ∃ front a back t, l = front ++ a :: back ∧ front.foldlM f s = .ok t ∧ f t a = .error e := by
  constructor
  · intro h
    induction l generalizing s with
    | nil => cases h
    | cons a l ih =>
        rw [List.foldlM_cons] at h
        rcases bind_eq_error h with ha | ⟨s', hs', hrest⟩
        · exact ⟨[], a, l, s, rfl, rfl, ha⟩
        · obtain ⟨front, b, back, t, rfl, hfront, hb⟩ := ih hrest
          refine ⟨a :: front, b, back, t, rfl, ?_, hb⟩
          rw [List.foldlM_cons, hs', ok_bind, hfront]
  · rintro ⟨front, a, back, t, rfl, hfront, ha⟩
    rw [List.foldlM_append, hfront, ok_bind, List.foldlM_cons, ha, error_bind]

theorem foldlM_congr {g : σ → α → Except ε σ} {l : List α} (h : ∀ a ∈ l, ∀ s, f s a = g s a)
    (s : σ) : l.foldlM f s = l.foldlM g s := by
  induction l generalizing s with
  | nil => rfl
  | cons a l ih =>
      obtain ⟨ha, hl⟩ := List.forall_mem_cons.1 h
      rw [List.foldlM_cons, List.foldlM_cons, ha]
      exact congrArg (g s a >>= ·) (funext (ih hl))

end Fold
end Excerpt
