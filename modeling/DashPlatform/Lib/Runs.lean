import Mathlib.Tactic.Common

/-! # Runs of a step relation

A run takes a list of events, each by one step. A property that one step keeps holds in every state that
a run from a state with the property reaches. -/

section Runs
variable {σ α : Type}

/-- The states are joined by one step for each event, in order. -/
inductive Runs (step : σ → α → σ → Prop) : σ → List α → σ → Prop where
  | nil (s : σ) : Runs step s [] s
  | snoc {s t u : σ} {es : List α} {e : α} : Runs step s es t → step t e u → Runs step s (es ++ [e]) u

namespace Runs
variable {step step' : σ → α → σ → Prop} {s t u : σ} {es es' : List α} {e : α}

theorem single (h : step s e t) : Runs step s [e] t := snoc (nil s) h

theorem trans (h : Runs step s es t) (h' : Runs step t es' u) : Runs step s (es ++ es') u := by
  induction h' with
  | nil => rwa [List.append_nil]
  | snoc _ hstep ih =>
    rw [← List.append_assoc]
    exact snoc ih hstep

theorem cons (h : step s e t) (h' : Runs step t es u) : Runs step s (e :: es) u := (single h).trans h'

theorem concat_inv (h : Runs step s (es ++ [e]) u) : ∃ t, Runs step s es t ∧ step t e u := by
  generalize hl : es ++ [e] = l at h
  cases h with
  | nil => simp at hl
  | snoc hr hst =>
    obtain ⟨rfl, he⟩ := List.append_inj' hl rfl
    cases he
    exact ⟨_, hr, hst⟩

theorem invariant {I : σ → Prop} (hs : I s) (hstep : ∀ {t e u}, I t → step t e u → I u)
    (h : Runs step s es t) : I t := by
  induction h with
  | nil => exact hs
  | snoc _ hst ih => exact hstep ih hst

/-- A property of a state and of the events that led to it. -/
theorem invariant_events {I : List α → σ → Prop} (hnil : I [] s) (hkeep : ∀ {es t e u}, I es t → step t e u → I (es ++ [e]) u)
    (h : Runs step s es t) : I es t := by
  induction h with
  | nil => exact hnil
  | snoc _ hst ih => exact hkeep ih hst

/-- A property that the steps with events of a kind keep. -/
theorem invariant_of_forall {P : α → Prop} {I : σ → Prop} (hs : I s)
    (hstep : ∀ {t e u}, P e → I t → step t e u → I u) (h : Runs step s es t) (hes : ∀ e ∈ es, P e) : I t := by
  induction h with
  | nil => exact hs
  | snoc _ hst ih =>
    rw [List.forall_mem_append] at hes
    exact hstep (hes.2 _ List.mem_cons_self) (ih hes.1) hst

/-- A run of one relation is a run of any relation that allows the same steps. -/
theorem mono (himp : ∀ {s e t}, step s e t → step' s e t) (h : Runs step s es t) : Runs step' s es t := by
  induction h with
  | nil => exact nil _
  | snoc _ hst ih => exact snoc ih (himp hst)

/-- The same, where the steps are from states with a property that all steps keep. -/
theorem mono_of_invariant {P : α → Prop} {I : σ → Prop} (hs : I s)
    (hkeep : ∀ {t e u}, P e → I t → step t e u → I u) (himp : ∀ {t e u}, P e → I t → step t e u → step' t e u)
    (h : Runs step s es t) (hes : ∀ e ∈ es, P e) : Runs step' s es t := by
  induction h with
  | nil => exact nil _
  | snoc hrun hst ih =>
    rw [List.forall_mem_append] at hes
    exact snoc (ih hes.1) (himp (hes.2 _ List.mem_cons_self) (hrun.invariant_of_forall hs hkeep hes.1) hst)

/-- A fold that does not fail is a run. -/
theorem of_foldlM {f : σ → α → Option σ} (h : es.foldlM f s = some t) : Runs (fun s e t => f s e = some t) s es t := by
  induction es generalizing s with
  | nil =>
    cases h
    exact nil _
  | cons e es ih =>
    rw [List.foldlM_cons] at h
    obtain ⟨u, hfirst, hrest⟩ := Option.bind_eq_some_iff.mp h
    exact cons hfirst (ih hrest)

/-- A step relation that allows one next state for an event has one run for the events. -/
theorem unique (hstep : ∀ s e t t', step s e t → step s e t' → t = t') (h : Runs step s es t)
    (h' : Runs step s es u) : t = u := by
  induction h generalizing u with
  | nil =>
    generalize hes : ([] : List α) = es at h'
    cases h' with
    | nil => rfl
    | snoc => simp at hes
  | snoc _ hst ih =>
    obtain ⟨_, hrun, hst'⟩ := h'.concat_inv
    obtain rfl := ih hrun
    exact hstep _ _ _ _ hst hst'

/-- Where an invariant is kept by allowed steps, gives a property, and the property is lost by a step that is not
    allowed, a run has the property all along when its steps are allowed, and only then. -/
theorem forall_prefix_iff {Allowed : σ → α → Prop} {I P : List α → σ → Prop} (hstep : ∀ s e t t', step s e t →
    step s e t' → t = t') (hnil : I [] s) (hkeep : ∀ {es t e u}, I es t → Allowed t e → step t e u → I (es ++ [e]) u)
    (hgives : ∀ {es t}, I es t → P es t) (hlost : ∀ {es t e u}, I es t → ¬Allowed t e → step t e u → ¬P (es ++ [e]) u)
    (h : Runs step s es t) : (∀ es' t', es' <+: es → Runs step s es' t' → P es' t') ↔
      Runs (fun s e t => Allowed s e ∧ step s e t) s es t := by
  have hinvariant {es : List α} {t : σ} (hrun : Runs (fun s e t => Allowed s e ∧ step s e t) s es t) : I es t :=
    hrun.invariant_events hnil fun hI hst => hkeep hI hst.1 hst.2
  constructor
  · intro hP
    induction h with
    | nil => exact nil _
    | @snoc t u es e hrun hst ih =>
      have hallowed := ih fun es' t' hbegins => hP es' t' (hbegins.trans (List.prefix_append _ _))
      by_cases he : Allowed t e
      · exact hallowed.snoc ⟨he, hst⟩
      · exact absurd (hP _ _ (List.prefix_refl _) (hrun.snoc hst)) (hlost (hinvariant hallowed) he hst)
  · intro hallowed
    induction hallowed with
    | nil =>
      intro es' t' hbegins hrun
      obtain rfl := List.prefix_nil.mp hbegins
      obtain rfl := hrun.unique hstep (nil _)
      exact hgives hnil
    | snoc hrun hst ih =>
      intro es' t' hbegins hrun'
      rcases List.prefix_concat_iff.mp hbegins with rfl | hbegins
      · obtain rfl := hrun'.unique hstep h
        exact hgives (hkeep (hinvariant hrun) hst.1 hst.2)
      · exact ih (hrun.mono fun hst => hst.2) es' t' hbegins hrun'

end Runs
end Runs
