import Mathlib.Data.List.Basic

/-! # Histories

A history is a list of what happened, the latest first. A property of its entries may look at what came later and at what
was there before. -/

namespace History
variable {α : Type} {P Q : List α → α → List α → Prop} {history : List α} {entry : α}

/-- Every entry has the property, with what is later and what is earlier. -/
def Each (P : List α → α → List α → Prop) (history : List α) : Prop :=
  ∀ later entry earlier, history = later ++ entry :: earlier → P later entry earlier

@[simp] theorem each_nil : Each P [] := by
  intro later entry earlier h
  simp at h

theorem each_cons : Each P (entry :: history) ↔
    P [] entry history ∧ Each (fun later e earlier => P (entry :: later) e earlier) history := by
  constructor
  · intro h
    refine ⟨h [] entry history rfl, fun later e earlier heq => h (entry :: later) e earlier ?_⟩
    rw [heq, List.cons_append]
  · rintro ⟨hfirst, hrest⟩ later e earlier heq
    cases later with
    | nil =>
      cases heq
      exact hfirst
    | cons first later =>
      cases heq
      exact hrest later e earlier rfl

theorem each_of_forall (h : ∀ e ∈ history, ∀ later earlier, P later e earlier) : Each P history := by
  rintro later e earlier rfl
  exact h e (List.mem_append_right _ List.mem_cons_self) later earlier

theorem Each.mono (h : Each P history) (himp : ∀ later e earlier, P later e earlier → Q later e earlier) :
    Each Q history := fun later e earlier heq => himp later e earlier (h later e earlier heq)

@[simp] theorem each_singleton : Each P [entry] ↔ P [] entry [] := by
  rw [each_cons]
  exact and_iff_left each_nil

/-- What holds of the entries still does after another one, and it holds of that one. -/
theorem Each.cons (h : Each P history) (hentry : Q [] entry history)
    (hkeep : ∀ later e earlier, P later e earlier → Q (entry :: later) e earlier) : Each Q (entry :: history) :=
  each_cons.mpr ⟨hentry, h.mono hkeep⟩

/-- The same after several others. -/
theorem Each.append {entries : List α} (h : Each P history)
    (hentries : Each (fun later e earlier => Q later e (earlier ++ history)) entries)
    (hkeep : ∀ later e earlier, P later e earlier → Q (entries ++ later) e earlier) : Each Q (entries ++ history) := by
  intro later e earlier heq
  rcases List.append_eq_append_iff.mp heq with ⟨rest, rfl, hrest⟩ | ⟨rest, hentries', hrest⟩
  · exact hkeep rest e earlier (h rest e earlier hrest)
  · cases rest with
    | nil =>
      rw [List.append_nil] at hentries'
      subst hentries'
      have hlast := hkeep [] e earlier (h [] e earlier hrest.symm)
      rwa [List.append_nil] at hlast
    | cons first rest =>
      cases hrest
      exact hentries later e rest hentries'

/-- Of the entries of a kind there is a first one. -/
theorem exists_first {IsOfKind : α → Prop} (h : ∃ e ∈ history, IsOfKind e) : ∃ later e earlier,
    history = later ++ e :: earlier ∧ IsOfKind e ∧ ¬∃ e ∈ earlier, IsOfKind e := by
  induction history with
  | nil =>
    obtain ⟨e, hmem, -⟩ := h
    cases hmem
  | cons e history ih =>
    by_cases hrest : ∃ e ∈ history, IsOfKind e
    · obtain ⟨later, first, earlier, rfl, hfirst⟩ := ih hrest
      exact ⟨e :: later, first, earlier, rfl, hfirst⟩
    · obtain ⟨first, hmem, hkind⟩ := h
      rcases List.mem_cons.mp hmem with rfl | hmem
      · exact ⟨[], first, history, rfl, hkind, hrest⟩
      · exact absurd ⟨first, hmem, hkind⟩ hrest

end History
