import Mathlib.Data.List.Forall2

/-! # Computations that may throw

A computation in `Except` that is known to have returned is taken apart at each `bind`, and one over a list
into its elements. -/

namespace Except
variable {ε α β σ : Type}

theorem bind_ok {x : Except ε α} {f : α → Except ε β} {b : β} :
    (x >>= f) = .ok b ↔ ∃ a, x = .ok a ∧ f a = .ok b := by
  cases x with
  | error e =>
    constructor
    · intro h
      cases h
    · rintro ⟨a, ha, -⟩
      cases ha
  | ok a =>
    constructor
    · intro h
      exact ⟨a, rfl, h⟩
    · rintro ⟨a', ha, h⟩
      cases ha
      exact h

theorem bind_error {x : Except ε α} {f : α → Except ε β} {e : ε} :
    (x >>= f) = .error e ↔ x = .error e ∨ ∃ a, x = .ok a ∧ f a = .error e := by
  cases x with
  | error e' =>
    constructor
    · intro h
      cases h
      exact Or.inl rfl
    · rintro (h | ⟨a, ha, -⟩)
      · cases h
        rfl
      · cases ha
  | ok a =>
    constructor
    · intro h
      exact Or.inr ⟨a, rfl, h⟩
    · rintro (h | ⟨a', ha, h⟩)
      · cases h
      · cases ha
        exact h

theorem pure_ok {a b : α} : (pure a : Except ε α) = .ok b ↔ a = b := by
  show Except.ok a = .ok b ↔ _
  rw [Except.ok.injEq]

theorem mapM_ok {f : α → Except ε β} {l : List α} {r : List β} :
    l.mapM f = .ok r ↔ List.Forall₂ (fun a b => f a = .ok b) l r := by
  induction l generalizing r with
  | nil =>
    rw [List.mapM_nil, pure_ok, List.forall₂_nil_left_iff]
    exact eq_comm
  | cons a l ih =>
    rw [List.mapM_cons, bind_ok]
    constructor
    · rintro ⟨b, hb, h⟩
      obtain ⟨bs, hbs, h⟩ := bind_ok.mp h
      obtain rfl := pure_ok.mp h
      exact .cons hb (ih.mp hbs)
    · intro h
      obtain ⟨b, bs, hb, hbs, rfl⟩ := List.forall₂_cons_left_iff.mp h
      exact ⟨b, hb, bind_ok.mpr ⟨bs, ih.mpr hbs, pure_ok.mpr rfl⟩⟩

theorem mapM_ok_of_mem {f : α → Except ε β} {l : List α} {r : List β} (h : l.mapM f = .ok r) {a : α} (ha : a ∈ l) :
    ∃ b ∈ r, f a = .ok b := by
  rw [mapM_ok] at h
  induction h with
  | nil => exact absurd ha List.not_mem_nil
  | cons hb _ ih =>
    rcases List.mem_cons.mp ha with rfl | ha
    · exact ⟨_, List.mem_cons_self, hb⟩
    · obtain ⟨b, hm, hf⟩ := ih ha
      exact ⟨b, List.mem_cons_of_mem _ hm, hf⟩

theorem mem_of_mapM_ok {f : α → Except ε β} {l : List α} {r : List β} (h : l.mapM f = .ok r) {b : β} (hb : b ∈ r) :
    ∃ a ∈ l, f a = .ok b := by
  rw [mapM_ok] at h
  induction h with
  | nil => exact absurd hb List.not_mem_nil
  | cons ha _ ih =>
    rcases List.mem_cons.mp hb with rfl | hb
    · exact ⟨_, List.mem_cons_self, ha⟩
    · obtain ⟨a, hm, hf⟩ := ih hb
      exact ⟨a, List.mem_cons_of_mem _ hm, hf⟩

/-- A relation between the elements and their images, element by element. -/
theorem forall₂_of_mapM_ok {P : α → β → Prop} {f : α → Except ε β} {l : List α} {r : List β} (h : l.mapM f = .ok r) :
    List.Forall₂ P l r ↔ ∀ a ∈ l, ∃ b, f a = .ok b ∧ P a b := by
  induction l generalizing r with
  | nil =>
    obtain rfl := pure_ok.mp h
    exact ⟨fun _ _ ha => absurd ha List.not_mem_nil, fun _ => .nil⟩
  | cons a l ih =>
    obtain ⟨b, bs, hb, hbs, rfl⟩ := List.forall₂_cons_left_iff.mp (mapM_ok.mp h)
    rw [List.forall₂_cons, ih (mapM_ok.mpr hbs), List.forall_mem_cons]
    constructor
    · rintro ⟨hp, hrest⟩
      exact ⟨⟨b, hb, hp⟩, hrest⟩
    · rintro ⟨⟨b', hb', hp⟩, hrest⟩
      obtain rfl := Except.ok.inj (hb.symm.trans hb')
      exact ⟨hp, hrest⟩

/-- Equal elements have equal images. -/
theorem nodup_of_mapM_ok {f : α → Except ε β} {l : List α} {r : List β} (h : l.mapM f = .ok r) (hr : r.Nodup) :
    l.Nodup := by
  induction l generalizing r with
  | nil => exact List.nodup_nil
  | cons a l ih =>
    obtain ⟨b, bs, hb, hbs, rfl⟩ := List.forall₂_cons_left_iff.mp (mapM_ok.mp h)
    have hl := mapM_ok.mpr hbs
    rw [List.nodup_cons] at hr ⊢
    refine ⟨fun ha => ?_, ih hl hr.2⟩
    obtain ⟨b', hm, hb'⟩ := mapM_ok_of_mem hl ha
    obtain rfl := Except.ok.inj (hb.symm.trans hb')
    exact hr.1 hm

/-- Elements with equal images are equal. -/
theorem mapM_ok_nodup {f : α → Except ε β} {l : List α} {r : List β} (h : l.mapM f = .ok r)
    (hinj : ∀ a ∈ l, ∀ a' ∈ l, ∀ b, f a = .ok b → f a' = .ok b → a = a') (hl : l.Nodup) : r.Nodup := by
  induction l generalizing r with
  | nil =>
    obtain rfl := pure_ok.mp h
    exact List.nodup_nil
  | cons a l ih =>
    obtain ⟨b, bs, hb, hbs, rfl⟩ := List.forall₂_cons_left_iff.mp (mapM_ok.mp h)
    rw [List.nodup_cons] at hl ⊢
    refine ⟨fun hm => ?_, ih (mapM_ok.mpr hbs) (fun x hx y hy => hinj x (.tail _ hx) y (.tail _ hy)) hl.2⟩
    obtain ⟨a', ha', hb'⟩ := mem_of_mapM_ok (mapM_ok.mpr hbs) hm
    exact hl.1 (hinj a (.head _) a' (.tail _ ha') b hb hb' ▸ ha')

/-- Mappings that commute with functions on the elements. -/
theorem mapM_map_ok {γ δ : Type} {f : α → Except ε β} {g : γ → Except ε δ} {u : α → γ} {v : β → δ} {l : List α}
    {r : List β} (h : l.mapM f = .ok r) (hfg : ∀ a b, f a = .ok b → g (u a) = .ok (v b)) :
    (l.map u).mapM g = .ok (r.map v) := by
  rw [mapM_ok] at h ⊢
  induction h with
  | nil => exact .nil
  | cons hb _ ih => exact .cons (hfg _ _ hb) ih

/-- What is the same of each element and its result is the same of the lists. -/
theorem map_eq_of_mapM_ok {γ : Type} {f : α → Except ε β} {u : α → γ} {v : β → γ} {l : List α} {r : List β}
    (h : l.mapM f = .ok r) (hfg : ∀ a ∈ l, ∀ b, f a = .ok b → u a = v b) : l.map u = r.map v := by
  rw [mapM_ok] at h
  induction h with
  | nil => rfl
  | cons hab _ ih =>
    rw [List.forall_mem_cons] at hfg
    rw [List.map_cons, List.map_cons, hfg.1 _ hab, ih hfg.2]

/-- A mapping over a list succeeds where it succeeds on each element. -/
theorem exists_mapM_ok {f : α → Except ε β} {l : List α} (h : ∀ a ∈ l, ∃ b, f a = .ok b) : ∃ r, l.mapM f = .ok r := by
  induction l with
  | nil => exact ⟨[], rfl⟩
  | cons a l ih =>
    obtain ⟨b, hb⟩ := h a List.mem_cons_self
    obtain ⟨bs, hbs⟩ := ih fun x hx => h x (List.mem_cons_of_mem _ hx)
    exact ⟨b :: bs, mapM_ok.mpr (.cons hb (mapM_ok.mp hbs))⟩

end Except
